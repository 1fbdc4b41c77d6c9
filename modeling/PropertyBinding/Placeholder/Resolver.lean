import PropertyBinding.Placeholder.Template
import PropertyBinding.Store.Basic
import PropertyBinding.Name.Parser
import PropertyBinding.Text.Blank

/-!
# Resolving placeholders

The placeholders of a value are replaced by the values of the properties they
name, whose own placeholders are resolved on the way.  A key may contain
placeholders too, which are resolved first.  The keys of the references being
followed are remembered, and meeting one of them again is an error, so that
properties that refer to each other in a circle are reported.

`resolveWithin` follows references to a bounded depth.  All keys on the way to a
reference are different, and each is written out in one place that a dollar sign
starts, so `depthBound` is never exceeded.
-/

namespace PropertyBinding

/-- Why the placeholders of a value cannot be replaced. -/
inductive PlaceholderError where
  | unresolvable (key value : String)
  | circular (key : String)
  | unclosed (value : String)
deriving DecidableEq, Repr

def PlaceholderError.message : PlaceholderError → String
  | .unresolvable key value =>
    "Could not resolve placeholder '" ++ key ++ "' in value \"" ++ value ++ "\""
  | .circular key => "Circular placeholder reference '" ++ key ++ "' in property definitions"
  | .unclosed value => "Unclosed placeholder in value \"" ++ value ++ "\" (missing '\x7d')"

/-- The outcome of resolving: the text, an error, or nothing when references
nest more deeply than they were to be followed. -/
abbrev Resolution := ExceptT PlaceholderError Option

namespace Template

/-- The value of a reference whose key has been found.  The function `lookup` gives
the value behind a key and `follow` resolves such a value; `visiting` holds the keys
of the references being followed, and `absent` stands for a key that names nothing. -/
def referred (lookup : String → Option String)
    (follow : String → String → Resolution (List Char)) (visiting : List String)
    (key : String) (absent : Unit → Resolution (List Char)) : Resolution (List Char) :=
  if key ∈ visiting then throw (.circular key)
  else
    match lookup key with
    | some value => follow key value
    | none => absent ()

/-- Expand a template that is a part of `whole`. -/
def expand (lookup : String → Option String)
    (follow : String → String → Resolution (List Char)) (visiting : List String)
    (whole : Template) : Template → Resolution (List Char)
  | done => pure []
  | literal c rest => do
    let after ← expand lookup follow visiting whole rest
    pure (c :: after)
  | escaped rest => do
    let after ← expand lookup follow visiting whole rest
    pure ('$' :: after)
  | reference key rest => do
    let key := String.ofList (← expand lookup follow visiting key key)
    let value ← referred lookup follow visiting key fun _ =>
      throw (.unresolvable key whole.text)
    let after ← expand lookup follow visiting whole rest
    pure (value ++ after)
  | referenceOr key fallback rest => do
    let key := String.ofList (← expand lookup follow visiting key key)
    let value ← referred lookup follow visiting key fun _ =>
      expand lookup follow visiting fallback fallback
    let after ← expand lookup follow visiting whole rest
    pure (value ++ after)
  | unclosed _ => throw (.unclosed whole.text)

end Template

namespace Store

/-- The value of the property that a key names.  Blanks around the key are
ignored, and a key that is empty or no name at all names nothing. -/
def valueOf? (s : Store) (key : String) : Option String :=
  match Name.parse (Text.trim key) with
  | .ok n => if n = Name.root then none else (s.get? n).map (·.value)
  | .error _ => none

/-- Resolve a value, following references to less than the given depth. -/
def resolveWithin (s : Store) : (depth : Nat) → (visiting : List String) → String →
    Resolution (List Char)
  | 0, _, _ => none
  | depth + 1, visiting, value =>
    let whole := Template.ofText value
    whole.expand s.valueOf? (fun key => s.resolveWithin depth (key :: visiting)) visiting whole

def dollars (value : String) : Nat :=
  value.toList.count '$'

/-- The greatest depth to which the references of a value nest. -/
def depthBound (s : Store) (value : String) : Nat :=
  s.properties.foldr (fun p total => dollars p.value + total) (dollars value) + 1

/-- Resolve the placeholders of a value. -/
def resolve (s : Store) (value : String) : Except PlaceholderError String :=
  match s.resolveWithin (s.depthBound value) [] value with
  | some outcome => outcome.map String.ofList
  | none => .error (.circular value)

end Store
end PropertyBinding
