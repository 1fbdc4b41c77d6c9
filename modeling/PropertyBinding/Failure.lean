import PropertyBinding.Bind.Error
import PropertyBinding.Source.Basic

/-!
# Failures

All that can keep an application from starting: its sources cannot be loaded, its
configuration cannot be bound or is missing, or something that it needs cannot be
created because of one of these.
-/

namespace PropertyBinding

/-- A failure to start. -/
inductive Failure where
  | source (error : SourceError)
  | bind (error : BindError)
  | creation (target : String) (reason : Failure)
  | missingConfig

namespace Failure

def message : Failure → String
  | source error => "configuration error: " ++ error.message
  | bind error => error.message
  | creation target _ => "error creating " ++ target
  | missingConfig => "application context requires a configuration"

def causes : Failure → List Failure
  | creation target reason => creation target reason :: reason.causes
  | failure => [failure]

/-- The first error of binding among a failure and its reasons. -/
def bindError? (failure : Failure) : Option BindError :=
  failure.causes.findSome? fun
    | bind error => some error
    | _ => none

end Failure
end PropertyBinding
