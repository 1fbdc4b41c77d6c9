import PropertyBinding.Property
import PropertyBinding.Name.Parser

/-!
# Validation errors

A value is validated after it has been bound.  What validation reports is either
about a field, given by its path from the value that is validated, or about the
value as a whole.  A value inside another is validated in the same way, with the
paths it reports extended by the field it is in.

`Step` describes all that validation may report, in its order, and `Step.errors`
collects it.
-/

namespace PropertyBinding

/-- An error on a field.  There is no rejected value if the field has none. -/
structure FieldError where
  field : String
  rejected : Option String
  message : String
deriving DecidableEq, Repr

/-- What validation reports. -/
inductive ValidationError where
  | field (error : FieldError)
  | object (message : String)
deriving DecidableEq, Repr

namespace ValidationError

def message : ValidationError → String
  | field error => error.message
  | object message => message

/-- What is said about a value as a whole if nothing else is. -/
def objectMessage : String := "This object could not be bound."

/-- The error as reported by a value that stands in a field. -/
def inField (name : String) : ValidationError → ValidationError
  | field error => field { error with field := name ++ "." ++ error.field }
  | object message => object message

end ValidationError

/-- One step of a validation. -/
inductive Step where
  | reject (message : String)
  | rejectObject
  | rejectNull (field message : String)
  | rejectValue (field value message : String)
  | nested (field : String) (steps : List Step)

namespace Step

/-- The validation of a value that may be absent, in a field. -/
def nestedOption (field : String) (steps : Option (List Step)) : Step :=
  nested field (steps.getD [])

mutual

def errors : Step → List ValidationError
  | reject message => [.object message]
  | rejectObject => [.object ValidationError.objectMessage]
  | rejectNull field message => [.field ⟨field, none, message⟩]
  | rejectValue field value message => [.field ⟨field, some value, message⟩]
  | nested field steps => (allErrors steps).map (·.inField field)

/-- The errors that some steps report, one step after the other. -/
def allErrors : List Step → List ValidationError
  | [] => []
  | step :: rest => step.errors ++ allErrors rest

end

end Step

/-- The errors found in the value bound under a name, with the properties that
were used to bind it. -/
structure ValidationFailure where
  name : Name
  errors : List ValidationError
  bound : List Property
deriving DecidableEq, Repr

namespace ValidationFailure

def message (f : ValidationFailure) : String :=
  "Binding validation errors on " ++ toString f.name

/-- The name of the property behind a field.  A path that is no name is taken as
one key. -/
def propertyName (f : ValidationFailure) (error : FieldError) : Name :=
  match Name.parse error.field with
  | .ok path => f.name.join path
  | .error _ => f.name.child error.field

/-- The origin of the property with a name, if it was used. -/
def originOf? (f : ValidationFailure) (name : Name) : Option Origin :=
  (f.bound.find? fun p => p.name.Same name).map (·.origin)

end ValidationFailure
end PropertyBinding
