import PropertyBinding.Name.Element

/-!
# Property names

A name such as `server.hosts[0].port` is a list of elements.  All that matters
about a name when it is compared is its *key*, the list of its relaxed element
texts: two names are the same when their keys are equal, names are ordered as
their keys are, and a name is an ancestor of another when its key is a proper
initial part of the other's.
-/

namespace PropertyBinding

/-- A property name. -/
structure Name where
  elements : List Element
deriving DecidableEq, Repr

namespace Name

/-- The name without elements, which every other name lies below. -/
def root : Name := ⟨[]⟩

def size (n : Name) : Nat :=
  n.elements.length

/-- The texts by which names are compared, element by element. -/
def key (n : Name) : List String :=
  n.elements.map Element.relaxed

@[simp] theorem length_key (n : Name) : n.key.length = n.size := by
  simp [key, size]

/-- Two spellings of one name. -/
def Same (a b : Name) : Prop :=
  a.key = b.key

instance : DecidableRel Same :=
  fun a b => inferInstanceAs (Decidable (a.key = b.key))

/-- Names are ordered element by element. -/
instance : LT Name := ⟨fun a b => a.key < b.key⟩

instance : DecidableRel (α := Name) (· < ·) :=
  fun a b => inferInstanceAs (Decidable (a.key < b.key))

theorem lt_def {a b : Name} : a < b ↔ a.key < b.key := Iff.rfl

instance : Ord Name :=
  ⟨fun a b => if a < b then .lt else if Same a b then .eq else .gt⟩

/-- The elements of `a` stand at the front of those of `b`. -/
def Leads (a b : Name) : Prop :=
  a.key <+: b.key

instance : DecidableRel Leads :=
  fun a b => decidable_of_iff (a.key.isPrefixOf b.key = true) List.isPrefixOf_iff_prefix

/-- `b` lies strictly below `a`. -/
def IsAncestorOf (a b : Name) : Prop :=
  a.size < b.size ∧ a.Leads b

instance : DecidableRel IsAncestorOf :=
  fun a b => inferInstanceAs (Decidable (a.size < b.size ∧ a.Leads b))

/-- `b` lies one element below `a`. -/
def IsParentOf (a b : Name) : Prop :=
  b.size = a.size + 1 ∧ a.Leads b

instance : DecidableRel IsParentOf :=
  fun a b => inferInstanceAs (Decidable (b.size = a.size + 1 ∧ a.Leads b))

def push (n : Name) (e : Element) : Name :=
  ⟨n.elements ++ [e]⟩

def child (n : Name) (key : String) : Name :=
  n.push (.ofKey key)

/-- The child of a name for a position in a list. -/
def childAt (n : Name) (position : Nat) : Name :=
  n.push (.ofPosition position)

/-- The elements of one name followed by those of another. -/
def join (a b : Name) : Name :=
  ⟨a.elements ++ b.elements⟩

/-- The first `size` elements of a name. -/
def take (n : Name) (size : Nat) : Name :=
  ⟨n.elements.take size⟩

def last? (n : Name) : Option Element :=
  n.elements.getLast?

def element? (n : Name) (index : Nat) : Option Element :=
  n.elements[index]?

def endsInPosition (n : Name) : Bool :=
  (n.last?.bind Element.position?).isSome

/-- The name in its canonical spelling. -/
def shown (n : Name) : List Char :=
  match n.elements with
  | [] => []
  | e :: rest => e.shown true ++ rest.flatMap (·.shown false)

instance : ToString Name := ⟨fun n => String.ofList n.shown⟩

end Name
end PropertyBinding
