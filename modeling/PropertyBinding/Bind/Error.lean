import PropertyBinding.Validation.Basic
import PropertyBinding.Placeholder.Resolver
import PropertyBinding.Number.Literal
import PropertyBinding.Text.Escape
import PropertyBinding.Text.Cut

/-!
# Errors of binding

An error says under which name and for which target binding failed, and why.  An
error that arises where the name is not known is *unlocated*; it is given the
name of the innermost node around it, and the target in the same way, on its way
out.
-/

namespace PropertyBinding

/-- Why a text cannot be converted. -/
inductive ConversionReason where
  | notTruth
  | notOneChar
  | whole (error : Number.WholeError)
  | literal (error : Number.LiteralError)
  | notVariant (names : List String)
  | other (message : String)
deriving DecidableEq, Repr

def ConversionReason.message : ConversionReason → String
  | notTruth => "expected one of true, false, yes, no, on, off, 1, 0"
  | notOneChar => "expected a single character"
  | whole error => error.message
  | literal error => error.message
  | notVariant names => "expected one of " ++ Text.join ", " names
  | other message => message

/-- How the properties found can fail to have the shape of the target. -/
inductive Mismatch where
  | onlyNested (name : Name)
  | missingField (field : String)
  | duplicateField (field : String)
  | wrongLength (found : Nat) (expected : String)
  | wrongContent (expected : String)
  | wrongKeyType (key expected : String)
  | wrongKey (key expected : String)
  | unknownVariant (key : String) (names : List String)
  | valueBeforeField
  | valueBeforeKey
deriving DecidableEq, Repr

namespace Mismatch

def accented (word : String) : String :=
  "`" ++ word ++ "`"

def choice : List String → String
  | [] => "there are no variants"
  | [a] => "expected " ++ accented a
  | [a, b] => "expected " ++ accented a ++ " or " ++ accented b
  | names => "expected one of " ++ Text.join ", " (names.map accented)

def message : Mismatch → String
  | onlyNested name =>
    "expected a value at '" ++ toString name ++ "' but found nested properties"
  | missingField field => "missing field " ++ accented field
  | duplicateField field => "duplicate field " ++ accented field
  | wrongLength found expected =>
    "invalid length " ++ toString found ++ ", expected " ++ expected
  | wrongContent expected => "invalid type: unit variant, expected " ++ expected
  | wrongKeyType key expected =>
    "invalid type: string " ++ Text.quoted key ++ ", expected " ++ expected
  | wrongKey key expected =>
    "invalid value: string " ++ Text.quoted key ++ ", expected " ++ expected
  | unknownVariant key names =>
    "unknown variant " ++ accented key ++ ", " ++ choice names
  | valueBeforeField => "value requested before its field"
  | valueBeforeKey => "value requested before its key"

end Mismatch

/-- What went wrong while binding. -/
inductive BindFailure where
  | validation (failure : ValidationFailure)
  | unbound (properties : List Property)
  | conversion (value target : String) (reason : ConversionReason)
  | placeholder (error : PlaceholderError)
  | mismatch (mismatch : Mismatch)
  | other (message : String)
deriving DecidableEq, Repr

def BindFailure.message : BindFailure → String
  | validation failure => failure.message
  | unbound properties =>
    "The elements [" ++ Text.join ", " (properties.map fun p => toString p.name) ++
      "] were left unbound."
  | conversion value target reason =>
    "Failed to convert value \"" ++ value ++ "\" to " ++ target ++ ": " ++ reason.message
  | placeholder error => error.message
  | mismatch m => m.message
  | other message => message

/-- A failure to bind the properties under a name to a target.  The property is
the one being bound when it happened, if there was one. -/
structure BindError where
  name : Name
  target : String
  property : Option Property
  cause : BindFailure
  located : Bool
deriving DecidableEq, Repr

namespace BindError

def here (name : Name) (target : String) (property : Option Property) (cause : BindFailure) :
    BindError :=
  ⟨name, target, property, cause, true⟩

def unlocated (cause : BindFailure) : BindError :=
  ⟨.root, "", none, cause, false⟩

/-- Give the name to an error that has none. -/
def locate (e : BindError) (name : Name) : BindError :=
  if e.located then e else { e with name, located := true }

/-- Give the target to an error that has none. -/
def withTarget (e : BindError) (target : String) : BindError :=
  if e.target = "" then { e with target } else e

def message (e : BindError) : String :=
  "Failed to bind properties under '" ++ toString e.name ++ "' to " ++ e.target

end BindError
end PropertyBinding
