import PropertyBinding.Bind.Scalar

/-!
# Descending into targets

How a target is bound at a name.  Records bind their fields from the children of
the name, maps bind every child, and sequences bind the children at the positions
0, 1, 2, ... or the parts of a value that is written with commas.

A sequence is read from one source, the highest that has something at the name or
below it.  Its elements are those at the positions up to the first at which there
is nothing, and it is an error if something is left beyond that position.

`read` binds a target at one name and leaves the names below to a function
`enter`.  `readWithin` ties the knot: each level of names takes one from a number
that starts above the height of the store, so it never runs out.
-/

namespace PropertyBinding

open Number

variable {ρ : Type}

/-- How the nodes below a name are bound: the target and the name of each. -/
abbrev Enter (ρ : Type) := Target ρ → Name → Binding Value

/-! ## Sequences -/

/-- A kind of sequence: its full name, the targets it asks for when a number of
elements is there, and the value it makes of the elements it gets.  The number of
elements is known beforehand if the list is written with commas. -/
structure Sequence (ρ : Type) where
  label : String
  wanted : (available : Nat) → List (Target ρ)
  assemble : (announced : Option Nat) → List Value → Except Mismatch Value

namespace Sequence

def growing (label : String) (target : Target ρ) (make : List Value → Value) : Sequence ρ where
  label := label
  wanted available := List.replicate available target
  assemble _ items := .ok (make items)

/-- A sequence that takes as many elements as it has targets, and needs them all. -/
def fixed (label : String) (shape : FixedShape) (targets : List (Target ρ)) : Sequence ρ where
  label := label
  wanted _ := targets
  assemble _ items :=
    if items.length < targets.length then
      .error (.wrongLength items.length (shape.expected targets.length))
    else .ok (.list items)

/-- A sequence that reports how many elements were announced on the way. -/
def counted (label : String) (target : Target ρ) : Sequence ρ where
  label := label
  wanted available := List.replicate available target
  assemble announced items :=
    .ok (.announced ((List.range (items.length + 1)).map fun i => announced.map (· - i)))

end Sequence

/-- The positions of the elements of a sequence: those from 0 up to the first at
which there is nothing. -/
def positions (scope : Store) (name : Name) : List Nat :=
  (List.range (scope.children name).length).takeWhile fun i => scope.contains (name.childAt i)

/-- The properties at or below the children of a name that denote positions from
`count` on. -/
def beyond (scope : Store) (name : Name) (count : Nat) : List Property :=
  let late := (scope.children name).filter fun child =>
    (child.last?.bind Element.position?).any (count ≤ ·)
  late.flatMap fun child => (scope.get? child).toList ++ scope.below child

namespace Session

variable (S : Session)

/-- Bind elements at positions, up to the first that is vetoed, and tell whether
one was. -/
def elements (enter : Enter ρ) (name : Name) :
    List (Nat × Target ρ) → Binding (List Value × Bool)
  | [] => return ([], false)
  | (position, target) :: rest => do
    let child := name.childAt position
    if ← S.offer child (.element position) then
      let item ← S.descend child (.element position) (enter target child)
      let (items, vetoed) ← elements enter name rest
      return (item :: items, vetoed)
    else
      return ([], true)

/-- Bind a sequence from the children of a name in one source. -/
def indexed (enter : Enter ρ) (sequence : Sequence ρ) (name : Name) (source : Store) :
    Binding Value := do
  let available := positions source name
  let (items, vetoed) ←
    S.elements enter name (available.zip (sequence.wanted available.length))
  let value ← Binding.ofMismatch (sequence.assemble none items)
  let left := if vetoed then [] else beyond source name items.length
  if left.isEmpty then return value
  else Binding.fail (.here name sequence.label none (.unbound left))

/-- Bind a sequence from the parts of a value that is written with commas. -/
def delimited (readParts : List Part → Binding (List Value)) (sequence : Sequence ρ)
    (name : Name) (given : Option Part) : Binding Value := do
  let whole ← S.scalar name given sequence.label
  let parts := (Conversion.parts whole.text).map fun text => ⟨text, whole.property⟩
  let items ← readParts parts
  Binding.ofMismatch (sequence.assemble (some parts.length) items)

/-- Bind a sequence.  Elements at positions are bound by `enter`, and the parts of
a value by `readParts`. -/
def sequence (enter : Enter ρ) (readParts : List Part → Binding (List Value))
    (sequence : Sequence ρ) (name : Name) (given : Option Part) : Binding Value := do
  if given.isSome then S.delimited readParts sequence name given
  else
    match (← Binding.scope).sourceOf? name with
    | none => S.delimited readParts sequence name given
    | some source =>
      if (source.get? name).isSome then S.delimited readParts sequence name given
      else
        Binding.log ⟨.trace, "binding indexed elements",
          [("name", .text (toString name)),
            ("source", .text ("Some(" ++ Text.quoted (source.sources.headD "") ++ ")"))]⟩
        Binding.scopedTo source (Binding.nested (S.indexed enter sequence name source))

/-! ## Maps -/

/-- Bind the children of a name as the entries of a map.  With each entry goes the
number of children left after it. -/
def entries (enter : Enter ρ) (key : KeyType) (target : Target ρ) :
    List Name → Binding (List (Key × Value × Nat))
  | [] => return []
  | child :: rest => do
    let word := (child.last?.map (·.text)).getD ""
    if ← S.offer child (.entry word) then
      let k ← Binding.ofMismatch (key.read word)
      let v ← S.descend child (.entry word) (enter target child)
      return (k, v, rest.length) :: (← entries enter key target rest)
    else
      entries enter key target rest

def mapping (enter : Enter ρ) (label : String) (key : KeyType) (target : Target ρ)
    (name : Name) (make : (announced : Nat) → List (Key × Value × Nat) → Value) :
    Binding Value := do
  let children := (← Binding.scope).children name
  Binding.forTarget label (Binding.nested do
    return make children.length (← S.entries enter key target children))

/-! ## Records -/

/-- Bind the fields of a record of which something exists, key by key.  The fields
bound so far are `found`, by their labels. -/
def fields (enter : Enter ρ) (owner : String) (name : Name) (found : List (String × Value)) :
    List (Field ρ × String) → Binding (List (String × Value))
  | [] => return found
  | (field, key) :: rest => do
    let child := name.child key
    if (← Binding.scope).contains child then
      if ← S.offer child (.field owner key) then
        if found.any (·.1 == field.label) then
          Binding.mismatch (.duplicateField field.name)
        else
          let v ← S.descend child (.field owner key) (enter field.target child)
          fields enter owner name (found ++ [(field.label, v)]) rest
      else
        fields enter owner name found rest
    else
      fields enter owner name found rest

end Session

namespace Field

/-- The value of a field of which nothing has been found. -/
def missing (initial : ρ → Value) (field : Field ρ) : Except Mismatch Value :=
  match field.fallback with
  | .initial => .ok (field.target.initial initial)
  | .value v => .ok v
  | .missing => if field.target.isOption then .ok .absent else .error (.missingField field.name)

/-- The value of a field, found or not. -/
def complete (initial : ρ → Value) (found : List (String × Value)) (field : Field ρ) :
    Except Mismatch (String × Value) :=
  match found.find? (·.1 == field.label) with
  | some entry => .ok entry
  | none => (field.missing initial).map fun v => (field.label, v)

end Field

namespace Session

variable (S : Session)

def record (enter : Enter ρ) (initial : ρ → Value) (type : Record ρ) (name : Name) :
    Binding Value :=
  Binding.forTarget type.label (Binding.nested do
    let keys := type.fields.flatMap fun field => field.keys.map fun key => (field, key)
    let found ← S.fields enter type.short name [] keys
    return .record (← Binding.ofMismatch (type.fields.mapM (Field.complete initial found))))

/-! ## Targets of any shape -/

def partTexts (parts : List Part) : Binding (List Value) :=
  return parts.map fun part => .text part.text

/-- Bind whatever is at a name: a text if there is a value, nothing if there is
nothing, a sequence if all children denote positions, and a map otherwise. -/
def free (enter : Enter ρ) (label : String) (name : Name) (given : Option Part) :
    Binding Value := do
  let scope ← Binding.scope
  if given.isSome || (scope.get? name).isSome then
    return .text (← S.text name given "string")
  else
    let children := scope.children name
    if children.isEmpty then return .unit
    else if children.all Name.endsInPosition then
      S.sequence enter partTexts (.growing label (.free label) .sequence) name none
    else
      S.mapping enter label .text (.free label) name fun _ found =>
        .mapping (found.filterMap fun
          | (.text word, v, _) => some (word, v)
          | _ => none)

/-- Bind a map that reports how many entries were announced. -/
def countedMap (enter : Enter ρ) (label : String) (target : Target ρ) (name : Name) :
    Binding Value :=
  S.mapping enter label .text target name fun announced found =>
    .announced (some announced :: found.map fun (_, _, left) => some left)

/-- Bind a target that asks for a value before it has asked for a key. -/
def hasty (label : String) (request : Request) : Binding Value :=
  Binding.forTarget label (Binding.nested (Binding.mismatch
    (if request = .record then .valueBeforeField else .valueBeforeKey)))

/-! ## All targets -/

mutual

/-- Bind a target at a name, from the properties there or from a part of a value. -/
def read (declarations : Declarations ρ) (enter : Enter ρ) :
    Target ρ → Name → Option Part → Binding Value
  | .truth, name, given => .truth <$> S.convert name given "bool" Conversion.truth
  | .whole type, name, given =>
    .whole type <$> S.convert name given type.label (Conversion.whole type)
  | .float format, name, given =>
    .float format <$> S.convert name given format.label (Conversion.float format)
  | .char, name, given => .char <$> S.convert name given "char" Conversion.char
  | .text, name, given => .text <$> S.text name given "String"
  | .bytes, name, given => do
    return .bytes (← S.text name given "bytes").toUTF8.toList
  | .unit, _, _ => return .unit
  | .ignored, _, _ => return .unit
  | .variant enumeration, name, given => S.variant name given enumeration
  | .option target, name, given => do
    if given.isSome || (← Binding.scope).contains name then
      .present <$> read declarations enter target name given
    else
      return .absent
  | .wrapper _ target, name, given => read declarations enter target name given
  | .boxed target, name, given => read declarations enter target name given
  | .list target, name, given =>
    S.sequence enter
      (Binding.each fun part => read declarations enter target name (some part))
      (.growing (Target.label declarations (.list target)) target .list) name given
  | .set target, name, given =>
    S.sequence enter
      (Binding.each fun part => read declarations enter target name (some part))
      (.growing (Target.label declarations (.set target)) target
        fun items => .list (Value.members items)) name given
  | .fixed shape targets, name, given =>
    S.sequence enter (readEach declarations enter targets name)
      (.fixed (Target.label declarations (.fixed shape targets)) shape targets) name given
  | .map key target, name, _ =>
    S.mapping enter (Target.label declarations (.map key target)) key target name
      fun _ found => .entries (Value.ofEntries (found.map fun (k, v, _) => (k, v)))
  | .record r, name, _ => S.record enter declarations.initial (declarations.record r) name
  | .free label, name, given => S.free enter label name given
  | .counted label .sequence target, name, given =>
    S.sequence enter
      (Binding.each fun part => read declarations enter target name (some part))
      (.counted label target) name given
  | .counted label _ target, name, _ => S.countedMap enter label target name
  | .hasty label request, _, _ => hasty label request

/-- Bind targets to the parts in the same places, for as long as there are both. -/
def readEach (declarations : Declarations ρ) (enter : Enter ρ) :
    List (Target ρ) → Name → List Part → Binding (List Value)
  | [], _, _ => return []
  | _ :: _, _, [] => return []
  | target :: targets, name, part :: parts => do
    let item ← read declarations enter target name (some part)
    return item :: (← readEach declarations enter targets name parts)

end

/-- Bind targets at names, down to a number of levels. -/
def readWithin (declarations : Declarations ρ) : (levels : Nat) → Enter ρ
  | 0 => fun _ _ => return .unit
  | levels + 1 => fun target name =>
    S.read declarations (readWithin declarations levels) target name none

end Session
end PropertyBinding
