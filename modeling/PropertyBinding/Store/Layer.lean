import PropertyBinding.Property

/-!
# Layers

A layer holds the properties of one source, at most one for each name, sorted by
name.  Of several properties with one name the layer keeps the last, in its own
spelling.  Because the names below a given name stand together in the order, the
properties below it are found by one scan that starts at the name and stops at
the first property that is not below it.
-/

namespace PropertyBinding

/-- A list of properties in strictly increasing order of their names. -/
def Sorted (properties : List Property) : Prop :=
  properties.Pairwise fun p q => p.name < q.name

/-- Put a property into its place, where it replaces one of the same name. -/
def insertProperty (p : Property) : List Property → List Property
  | [] => [p]
  | q :: rest =>
    if p.name < q.name then p :: q :: rest
    else if q.name < p.name then q :: insertProperty p rest
    else p :: rest

theorem mem_insertProperty {p x : Property} {properties : List Property}
    (h : x ∈ insertProperty p properties) : x = p ∨ x ∈ properties := by
  induction properties with
  | nil => simpa [insertProperty] using h
  | cons q rest ih =>
    unfold insertProperty at h
    split at h
    · simpa using h
    · split at h
      · rcases List.mem_cons.mp h with rfl | later
        · simp
        · rcases ih later with same | member
          · exact Or.inl same
          · exact Or.inr (List.mem_cons_of_mem _ member)
      · rcases List.mem_cons.mp h with rfl | member
        · simp
        · exact Or.inr (List.mem_cons_of_mem _ member)

namespace Name

theorem lt_trans {a b c : Name} (first : a < b) (second : b < c) : a < c :=
  List.lt_trans (α := String) first second

theorem lt_irrefl (a : Name) : ¬ a < a :=
  List.lt_irrefl (α := String) a.key

theorem Same.not_lt {a b : Name} (same : a.Same b) : ¬ a < b := by
  rw [lt_def, same]
  exact List.lt_irrefl (α := String) b.key

/-- Of two names one comes first, or they are the same. -/
theorem same_of_not_lt {a b : Name} (first : ¬ a < b) (second : ¬ b < a) : a.Same b :=
  Std.Trichotomous.trichotomous (r := (· < · : List String → List String → Prop))
    a.key b.key first second

end Name

/-- Inserting keeps the order. -/
theorem Sorted.insertProperty {properties : List Property} (sorted : Sorted properties)
    (p : Property) : Sorted (insertProperty p properties) := by
  induction properties with
  | nil => simp [PropertyBinding.insertProperty, Sorted]
  | cons q rest ih =>
    have parts := List.pairwise_cons.mp sorted
    unfold PropertyBinding.insertProperty
    split
    · rename_i before
      refine List.pairwise_cons.mpr ⟨fun x member => ?_, sorted⟩
      rcases List.mem_cons.mp member with rfl | later
      · exact before
      · exact Name.lt_trans before (parts.1 x later)
    · split
      · rename_i after
        refine List.pairwise_cons.mpr ⟨fun x member => ?_, ih parts.2⟩
        rcases mem_insertProperty member with rfl | later
        · exact after
        · exact parts.1 x later
      · rename_i notBefore notAfter
        have same : p.name.Same q.name := Name.same_of_not_lt notBefore notAfter
        refine List.pairwise_cons.mpr ⟨fun x member => ?_, parts.2⟩
        have later := parts.1 x member
        rw [Name.lt_def] at later ⊢
        exact same ▸ later

/-- The properties of one source. -/
structure Layer where
  source : String
  properties : List Property
  sorted : Sorted properties

namespace Layer

def empty (source : String) : Layer :=
  ⟨source, [], List.Pairwise.nil⟩

/-- Add a property, replacing one of the same name. -/
def insert (l : Layer) (p : Property) : Layer :=
  ⟨l.source, insertProperty p l.properties, l.sorted.insertProperty p⟩

/-- The layer of the properties that a source supplies, later ones replacing
earlier ones. -/
def ofList (source : String) (properties : List Property) : Layer :=
  properties.foldl insert (empty source)

/-- The property with a name. -/
def get? (l : Layer) (n : Name) : Option Property :=
  l.properties.find? fun p => n.Same p.name

/-- The properties strictly below a name, in name order. -/
def below (l : Layer) (n : Name) : List Property :=
  let fromName := l.properties.dropWhile fun p => p.name < n
  let afterName := fromName.dropWhile fun p => n.Same p.name
  afterName.takeWhile fun p => n.IsAncestorOf p.name

/-- Whether the layer has a value at a name or below it. -/
def contains (l : Layer) (n : Name) : Bool :=
  (l.get? n).isSome || !(l.below n).isEmpty

end Layer
end PropertyBinding
