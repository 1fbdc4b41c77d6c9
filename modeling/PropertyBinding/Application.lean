import PropertyBinding.Bind.Binder
import PropertyBinding.Failure

/-!
# Application contexts

An application is assembled around its configuration, which is given to it or
bound.  That binding has failed is reported when the application is built.
-/

namespace PropertyBinding

variable {ρ : Type}

/-- An application being assembled, with the history of what was done for it. -/
structure Assembly where
  config : Option Value
  failure : Option Failure
  history : List Event

namespace Assembly

def empty : Assembly := ⟨none, none, []⟩

def ofConfig (config : Value) : Assembly := ⟨some config, none, []⟩

/-- An application whose configuration was bound under a name, for a target. -/
def ofOutcome (target name : String) (outcome : Outcome (Option Value)) : Assembly :=
  match outcome.result with
  | .ok config => ⟨config, none, outcome.history⟩
  | .error e =>
    let entry : LogEntry := ⟨.debug, "configuration could not be bound",
      [("prefix", .text name), ("target", .text target)]⟩
    ⟨none, some (.creation target (.bind e)), outcome.history ++ [.log entry]⟩

/-- An application with the configuration bound under a name. -/
def bound (b : Binder ρ) (target : Target ρ) (name : String) : Assembly :=
  ofOutcome (target.label b.declarations) name (b.bind target name)

/-- An application with the configuration bound under a name and validated. -/
def validated (b : Binder ρ) (target : Target ρ) (validation : Value → List Step)
    (name : String) : Assembly :=
  let outcome := b.bindValidated target validation name
  ofOutcome (target.label b.declarations) name
    ⟨outcome.result.map some, outcome.bound, outcome.history⟩

/-- The configuration of the finished application. -/
def build (a : Assembly) : Except Failure Value :=
  match a.failure, a.config with
  | some failure, _ => .error failure
  | none, some config => .ok config
  | none, none => .error .missingConfig

end Assembly
end PropertyBinding
