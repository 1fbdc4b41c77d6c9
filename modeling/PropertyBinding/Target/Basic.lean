import PropertyBinding.Target.Value
import PropertyBinding.Bind.Error

/-!
# Targets

A target describes the type of value that properties are bound to.  Targets are
built from scalar types, options, wrappers, sequences, maps and records.  Records
are referred to by elements of a type `ρ` of record names, and `Declarations ρ`
says what each of them consists of, so that a record may contain itself.
-/

namespace PropertyBinding

open Number

/-- What a variant of an enumeration carries. -/
inductive VariantContent where
  | none
  | single
  | tuple
  | fields
deriving DecidableEq, Repr

/-- A variant: the name it is written with, the name it is declared with, and
what it carries. -/
structure Variant where
  name : String
  label : String
  content : VariantContent
deriving DecidableEq, Repr

/-- An enumeration of variants. -/
structure Enumeration where
  label : String
  variants : List Variant
deriving DecidableEq, Repr

/-- A variant of an enumeration as a value. -/
def Enumeration.choice (enumeration : Enumeration) (v : Variant) : Choice :=
  ⟨enumeration.variants.idxOf v, v.label⟩

/-- The type of the keys of a map: its full name, and how it reads the text of an
element of a name. -/
structure KeyType where
  label : String
  read : String → Except Mismatch Key

/-- A sequence of fixed length: a tuple, a tuple with a name of its own, or an
array. -/
inductive FixedShape where
  | tuple
  | named (label short : String)
  | array
deriving DecidableEq, Repr

/-- What a target asks for: a sequence, a map or a record. -/
inductive Request where
  | sequence
  | map
  | record
deriving DecidableEq, Repr

/-- The type of value to bind.

A wrapper is a type with a name of its own around another one, and a box stands
for what it holds.

Three kinds of target are for looking at the binding itself.  `free` takes
whatever shape the properties have.  `counted` takes the members of a sequence or
map and reports how many more of them were announced before the first and after
each.  `hasty` asks for a value before it has asked for a key. -/
inductive Target (ρ : Type) where
  | truth
  | whole (type : WholeType)
  | float (format : BinaryFormat)
  | char
  | text
  | bytes
  | unit
  | ignored
  | variant (enumeration : Enumeration)
  | option (target : Target ρ)
  | wrapper (label : String) (target : Target ρ)
  | boxed (target : Target ρ)
  | list (target : Target ρ)
  | set (target : Target ρ)
  | fixed (shape : FixedShape) (targets : List (Target ρ))
  | map (key : KeyType) (target : Target ρ)
  | record (name : ρ)
  | free (label : String)
  | counted (label : String) (request : Request) (target : Target ρ)
  | hasty (label : String) (request : Request)

/-- What becomes of a field of which nothing is found: it is missing, it has the
initial value of its target, or it has a value of its own. -/
inductive Fallback where
  | missing
  | initial
  | value (v : Value)
deriving Repr

/-- A field of a record.

The field has the name `label` in the value and `name` in messages, and is looked
up by its `keys` in turn. -/
structure Field (ρ : Type) where
  label : String
  name : String
  keys : List String
  target : Target ρ
  fallback : Fallback

/-- A record type: its full name, its short name and its fields. -/
structure Record (ρ : Type) where
  label : String
  short : String
  fields : List (Field ρ)

/-- The declarations of the record types: what they consist of, and their values
before anything has been bound. -/
structure Declarations (ρ : Type) where
  record : ρ → Record ρ
  initial : ρ → Value

/-- What the value of a fixed sequence of some length is said to have to be. -/
def FixedShape.expected (shape : FixedShape) (length : Nat) : String :=
  match shape with
  | tuple => "a tuple of size " ++ toString length
  | named _ short => "tuple struct " ++ short ++ " with " ++ toString length ++ " elements"
  | array => "an array of length " ++ toString length

/-- What a variant that carries something is said to have to be. -/
def VariantContent.expected : VariantContent → String
  | none => "unit variant"
  | single => "newtype variant"
  | tuple => "tuple variant"
  | fields => "struct variant"

namespace KeyType

def text : KeyType where
  label := "alloc::string::String"
  read key := .ok (.text key)

/-- Keys that no text is: numbers, truth values, options and wrappers. -/
def refusing (label expected : String) : KeyType where
  label := label
  read key := .error (.wrongKeyType key expected)

def whole (type : WholeType) : KeyType :=
  refusing type.label type.label

def char : KeyType where
  label := "char"
  read key :=
    match key.toList with
    | [c] => .ok (.char c)
    | _ => .error (.wrongKey key "a character")

/-- The name of a variant has to be spelled exactly, and a key carries nothing. -/
def variant (enumeration : Enumeration) : KeyType where
  label := enumeration.label
  read key :=
    match enumeration.variants.find? (·.name == key) with
    | some v =>
      if v.content = .none then .ok (.variant (enumeration.choice v).index v.label)
      else .error (.wrongContent v.content.expected)
    | none => .error (.unknownVariant key (enumeration.variants.map (·.name)))

end KeyType

/-- The full name of a tuple of targets.  One member alone is followed by a comma. -/
def FixedShape.tupleLabel : List String → String
  | [label] => "(" ++ label ++ ",)"
  | labels => "(" ++ Text.join ", " labels ++ ")"

namespace Target

mutual

/-- The full name of a target, by which errors refer to it. -/
def label (declarations : Declarations ρ) : Target ρ → String
  | truth => "bool"
  | whole type => type.label
  | float format => format.label
  | char => "char"
  | text => "alloc::string::String"
  | bytes => "bytes"
  | unit => "()"
  | ignored => "serde_core::de::ignored_any::IgnoredAny"
  | variant enumeration => enumeration.label
  | option target => "core::option::Option<" ++ label declarations target ++ ">"
  | wrapper name _ => name
  | boxed target => "alloc::boxed::Box<" ++ label declarations target ++ ">"
  | list target => "alloc::vec::Vec<" ++ label declarations target ++ ">"
  | set target => "alloc::collections::btree::set::BTreeSet<" ++ label declarations target ++ ">"
  | fixed .tuple targets => FixedShape.tupleLabel (labels declarations targets)
  | fixed (.named name _) _ => name
  | fixed .array targets =>
    "[" ++ ((labels declarations targets).headD "") ++ "; " ++ toString targets.length ++ "]"
  | map key target =>
    "alloc::collections::btree::map::BTreeMap<" ++ key.label ++ ", " ++
      label declarations target ++ ">"
  | record name => (declarations.record name).label
  | free name => name
  | counted name _ _ => name
  | hasty name _ => name

def labels (declarations : Declarations ρ) : List (Target ρ) → List String
  | [] => []
  | target :: rest => label declarations target :: labels declarations rest

end

mutual

/-- The value of a target before anything is bound to it, given those of the
record types. -/
def initial (records : ρ → Value) : Target ρ → Value
  | truth => .truth false
  | whole type => .whole type 0
  | float format => .float format 0
  | char => .char '\x00'
  | text => .text ""
  | bytes => .bytes []
  | unit => .unit
  | ignored => .unit
  | variant enumeration => .variant ⟨0, (enumeration.variants.head?.map (·.label)).getD ""⟩
  | option _ => .absent
  | wrapper _ target => initial records target
  | boxed target => initial records target
  | list _ => .list []
  | set _ => .list []
  | fixed _ targets => .list (initials records targets)
  | map _ _ => .entries []
  | record name => records name
  | free _ => .unit
  | counted _ _ _ => .announced []
  | hasty _ _ => .announced []

/-- The values of some targets before anything is bound to them. -/
def initials (records : ρ → Value) : List (Target ρ) → List Value
  | [] => []
  | target :: rest => initial records target :: initials records rest

end

/-- Whether a field with this target may be absent.  A wrapper is a type of its own,
of which there has to be a value even if it wraps an option. -/
def isOption : Target ρ → Bool
  | option _ => true
  | boxed target => isOption target
  | _ => false

end Target
end PropertyBinding
