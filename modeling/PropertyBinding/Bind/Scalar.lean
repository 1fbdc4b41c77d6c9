import PropertyBinding.Bind.Run
import PropertyBinding.Target.Basic

/-!
# Binding scalars

The text for a scalar is the value of the property at the node's name, with its
placeholders resolved, or one part of a value that has been split at its commas.
Texts for truth values and numbers may have blanks around them, those for single
characters may not.
-/

namespace PropertyBinding

open Number

/-- A text to convert, and the property that it comes from. -/
structure Part where
  text : String
  property : Property
deriving DecidableEq, Repr

namespace Conversion

/-- Convert a truth value, in any letter case. -/
def truth (s : String) : Except ConversionReason Bool :=
  let word := String.ofList ((Text.trimChars s.toList).map Char.toLower)
  if word ∈ ["true", "yes", "on", "1"] then .ok true
  else if word ∈ ["false", "no", "off", "0"] then .ok false
  else .error .notTruth

def whole (type : WholeType) (s : String) : Except ConversionReason Int :=
  (type.read (Text.trimChars s.toList)).mapError .whole

def float (format : BinaryFormat) (s : String) : Except ConversionReason Nat :=
  (format.read (Text.trimChars s.toList)).mapError .literal

def char (s : String) : Except ConversionReason Char :=
  match s.toList with
  | [c] => .ok c
  | _ => .error .notOneChar

/-- Find the variant that a text names.  Names are compared as elements of
property names are, so letter case, hyphens and underscores do not matter. -/
def variant (enumeration : Enumeration) (s : String) : Except ConversionReason Variant :=
  let wanted := (Element.dotted (Text.trim s)).relaxed
  match enumeration.variants.find? fun v => (Element.dotted v.name).relaxed == wanted with
  | some v => .ok v
  | none => .error (.notVariant (enumeration.variants.map (·.name)))

/-- The parts of a list that is written with commas.  A blank text has none. -/
def parts (s : String) : List String :=
  if (Text.trimChars s.toList).isEmpty then []
  else (Text.cutAt ',' s.toList).map fun part => String.ofList (Text.trimChars part)

end Conversion

namespace Session

variable (S : Session)

/-- The text for a scalar at a name: the part that is given, or else the value of
the property there, which is noted as used. -/
def scalar (name : Name) (given : Option Part) (target : String) : Binding Part := do
  match given with
  | some part => return part
  | none =>
    match (← Binding.scope).get? name with
    | none => Binding.fail (.here name target none (.mismatch (.onlyNested name)))
    | some property =>
      Binding.use property
      match S.sources.resolve property.value with
      | .ok text => return ⟨text, property⟩
      | .error e => Binding.fail (.here name target (some property) (.placeholder e))

/-- A converted text as the outcome of a step. -/
def converted (name : Name) (target : String) (part : Part) :
    Except ConversionReason α → Binding α
  | .ok a => return a
  | .error reason =>
    Binding.fail (.here name target (some part.property)
      (.conversion part.text target reason))

def convert (name : Name) (given : Option Part) (target : String)
    (conversion : String → Except ConversionReason α) : Binding α := do
  let part ← S.scalar name given target
  converted name target part (conversion part.text)

def text (name : Name) (given : Option Part) (target : String) : Binding String :=
  return (← S.scalar name given target).text

/-- Bind a variant.  One that carries something cannot be given by a text. -/
def variant (name : Name) (given : Option Part) (enumeration : Enumeration) :
    Binding Value := do
  let v ← S.convert name given enumeration.label (Conversion.variant enumeration)
  if v.content = .none then return .variant (enumeration.choice v)
  else Binding.mismatch (.wrongContent v.content.expected)

end Session
end PropertyBinding
