import PropertyBinding.Bind.Error
import PropertyBinding.Text.Blank

/-!
# Descriptions of binding errors

A description is a header line and a block for each offending property.  A block
stands after a blank line and shows, as far as they are known, the property, its
value and its origin, and always the reason.
-/

namespace PropertyBinding

/-- What a description says about one property. -/
structure Block where
  property : Option String
  value : Option String
  origin : Option Origin
  reason : String
deriving DecidableEq, Repr

namespace Block

def line (label content : String) : String :=
  "    " ++ label ++ ": " ++ content ++ "\n"

def text (b : Block) : String :=
  "\n" ++ ((b.property.map (line "Property")).getD "") ++
    ((b.value.map (line "Value")).getD "") ++
    ((b.origin.map fun o => line "Origin" (toString o)).getD "") ++ line "Reason" b.reason

end Block

namespace ValidationFailure

def block (f : ValidationFailure) : ValidationError → Block
  | .field error =>
    let name := f.propertyName error
    ⟨some (toString name), some (error.rejected.getD "null"), f.originOf? name, error.message⟩
  | .object message => ⟨none, none, none, message⟩

end ValidationFailure

namespace BindError

def header (e : BindError) : String :=
  match e.cause with
  | .validation _ | .unbound _ => "Binding to target " ++ e.target ++ " failed:"
  | _ => e.message ++ ":"

def blocks (e : BindError) : List Block :=
  match e.cause with
  | .validation f => f.errors.map f.block
  | .unbound properties =>
    properties.map fun p =>
      ⟨some (toString p.name), some p.value, some p.origin, e.cause.message⟩
  | cause =>
    let name := (e.property.map (·.name)).getD e.name
    [⟨some (toString name), e.property.map (·.value), e.property.map (·.origin), cause.message⟩]

/-- The description of an error.  Blanks at its end are dropped. -/
def description (e : BindError) : String :=
  Text.trimEnd (e.header ++ "\n" ++ String.join (e.blocks.map Block.text))

end BindError
end PropertyBinding
