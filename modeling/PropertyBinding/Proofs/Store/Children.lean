import PropertyBinding.Proofs.Store.Lookup

/-!
# Children of a name, and how long names are

The children of a name are read off the names below it.  Each is one element longer
than the name, has something at it or below it, and stands for all names below it
whose keys agree so far.  Which spelling a child has depends on the layers, but its
key does not.

The height of a store is the length of its longest name, so there is nothing at a
name or below it that is longer.
-/

namespace PropertyBinding

namespace Name

@[simp] theorem size_push (n : Name) (e : Element) : (n.push e).size = n.size + 1 := by
  simp [push, size]

/-- A name with one more element lies one element below it. -/
theorem isParentOf_push (n : Name) (e : Element) : n.IsParentOf (n.push e) := by
  refine ⟨n.size_push e, ?_⟩
  simp [Leads, key, push]

theorem key_take (n : Name) (size : Nat) : (n.take size).key = n.key.take size := by
  simp [key, take, List.map_take]

theorem take_leads (n : Name) (size : Nat) : (n.take size).Leads n := by
  unfold Leads
  rw [key_take]
  exact List.take_prefix size n.key

/-- What leads a name leads every initial part of it that is long enough. -/
theorem Leads.take {a b : Name} (leads : a.Leads b) {size : Nat} (enough : a.size ≤ size) :
    a.Leads (b.take size) := by
  unfold Leads
  rw [key_take, List.prefix_take_iff]
  exact ⟨leads, by simpa using enough⟩

/-- The ancestor's child on the way to a name below it. -/
theorem IsAncestorOf.isParentOf_take {a b : Name} (above : a.IsAncestorOf b) :
    a.IsParentOf (b.take (a.size + 1)) := by
  refine ⟨?_, above.2.take (Nat.le_succ a.size)⟩
  have longer : a.elements.length + 1 ≤ b.elements.length := above.1
  simpa [take, size] using Nat.min_eq_left longer

end Name

/-! ## Sorted lists of names -/

namespace Store

theorem mem_insertName {n x : Name} {names : List Name} (member : x ∈ insertName n names) :
    x = n ∨ x ∈ names := by
  induction names with
  | nil => exact Or.inl (List.mem_singleton.mp member)
  | cons m rest inductionHypothesis =>
      unfold insertName at member
      split at member
      · exact List.mem_cons.mp member
      · split at member
        · rcases List.mem_cons.mp member with rfl | later
          · exact Or.inr List.mem_cons_self
          · rcases inductionHypothesis later with same | listed
            · exact Or.inl same
            · exact Or.inr (List.mem_cons_of_mem _ listed)
        · exact Or.inr member

theorem mem_insertName_of_mem {n x : Name} {names : List Name} (member : x ∈ names) :
    x ∈ insertName n names := by
  induction names with
  | nil => cases member
  | cons m rest inductionHypothesis =>
      unfold insertName
      split
      · exact List.mem_cons_of_mem _ member
      · split
        · rcases List.mem_cons.mp member with rfl | later
          · exact List.mem_cons_self
          · exact List.mem_cons_of_mem _ (inductionHypothesis later)
        · exact member

/-- After inserting a name, some spelling of it is there. -/
theorem exists_mem_insertName_same (n : Name) (names : List Name) :
    ∃ x ∈ insertName n names, x.Same n := by
  induction names with
  | nil => exact ⟨n, List.mem_singleton_self n, Name.same_refl n⟩
  | cons m rest inductionHypothesis =>
      unfold insertName
      by_cases before : n < m
      · rw [if_pos before]
        exact ⟨n, List.mem_cons_self, Name.same_refl n⟩
      · rw [if_neg before]
        by_cases after : m < n
        · rw [if_pos after]
          rcases inductionHypothesis with ⟨x, listed, same⟩
          exact ⟨x, List.mem_cons_of_mem _ listed, same⟩
        · rw [if_neg after]
          exact ⟨m, List.mem_cons_self, (Name.same_of_not_lt before after).symm⟩

theorem sorted_insertName {names : List Name} (sorted : names.Pairwise (· < ·)) (n : Name) :
    (insertName n names).Pairwise (· < ·) := by
  induction names with
  | nil => exact List.pairwise_singleton _ n
  | cons m rest inductionHypothesis =>
      have parts := List.pairwise_cons.mp sorted
      unfold insertName
      by_cases before : n < m
      · rw [if_pos before]
        refine List.pairwise_cons.mpr ⟨fun x listed => ?_, sorted⟩
        rcases List.mem_cons.mp listed with rfl | later
        · exact before
        · exact Name.lt_trans before (parts.1 x later)
      · rw [if_neg before]
        by_cases after : m < n
        · rw [if_pos after]
          refine List.pairwise_cons.mpr ⟨fun x listed => ?_, inductionHypothesis parts.2⟩
          rcases mem_insertName listed with rfl | later
          · exact after
          · exact parts.1 x later
        · rw [if_neg after]
          exact sorted

/-! ## Children -/

/-- The names of which the children of a name are collected. -/
private theorem children_eq_foldl (s : Store) (n : Name) :
    s.children n = ((s.layers.flatMap (·.below n)).map fun p => p.name.take (n.size + 1)).foldl
      (fun names m => insertName m names) [] := by
  rw [children, List.foldl_map]

private theorem mem_foldl_insertName {added start : List Name} {x : Name}
    (member : x ∈ added.foldl (fun names m => insertName m names) start) :
    x ∈ added ∨ x ∈ start := by
  induction added generalizing start with
  | nil => exact Or.inr member
  | cons n rest inductionHypothesis =>
      rcases inductionHypothesis member with later | sofar
      · exact Or.inl (List.mem_cons_of_mem _ later)
      · rcases mem_insertName sofar with rfl | first
        · exact Or.inl List.mem_cons_self
        · exact Or.inr first

private theorem exists_mem_foldl_insertName {added start : List Name} {x : Name}
    (member : x ∈ added ∨ x ∈ start) :
    ∃ y ∈ added.foldl (fun names m => insertName m names) start, y.Same x := by
  induction added generalizing start x with
  | nil => exact ⟨x, member.resolve_left (List.not_mem_nil), Name.same_refl x⟩
  | cons n rest inductionHypothesis =>
      rcases member with listed | first
      · rcases List.mem_cons.mp listed with rfl | later
        · rcases exists_mem_insertName_same x start with ⟨y, inserted, same⟩
          rcases inductionHypothesis (Or.inr inserted) with ⟨z, kept, sameToo⟩
          exact ⟨z, kept, sameToo.trans same⟩
        · exact inductionHypothesis (Or.inl later)
      · exact inductionHypothesis (Or.inr (mem_insertName_of_mem first))

/-- Each child is taken from the name of a property below. -/
theorem exists_of_mem_children {s : Store} {n c : Name} (member : c ∈ s.children n) :
    ∃ p ∈ s.properties, n.IsAncestorOf p.name ∧ c = p.name.take (n.size + 1) := by
  rw [children_eq_foldl] at member
  rcases mem_foldl_insertName member with listed | impossible
  · rcases List.mem_map.mp listed with ⟨p, below, rfl⟩
    rw [flatMap_below, List.mem_filter, decide_eq_true_eq] at below
    exact ⟨p, below.1, below.2, rfl⟩
  · cases impossible

/-- Each property below a name lies at a child or below it. -/
theorem exists_child_same {s : Store} {n : Name} {p : Property} (listed : p ∈ s.properties)
    (above : n.IsAncestorOf p.name) :
    ∃ c ∈ s.children n, c.Same (p.name.take (n.size + 1)) := by
  rw [children_eq_foldl]
  apply exists_mem_foldl_insertName
  left
  apply List.mem_map.mpr
  refine ⟨p, ?_, rfl⟩
  rw [flatMap_below, List.mem_filter, decide_eq_true_eq]
  exact ⟨listed, above⟩

theorem sorted_children (s : Store) (n : Name) : (s.children n).Pairwise (· < ·) := by
  rw [children_eq_foldl]
  generalize (s.layers.flatMap (·.below n)).map (fun p => p.name.take (n.size + 1)) = added
  have kept : ∀ start : List Name, start.Pairwise (· < ·) →
      (added.foldl (fun names m => insertName m names) start).Pairwise (· < ·) := by
    induction added with
    | nil => exact fun _ sorted => sorted
    | cons m rest inductionHypothesis =>
        exact fun start sorted => inductionHypothesis _ (sorted_insertName sorted m)
  exact kept [] List.Pairwise.nil

theorem isParentOf_of_mem_children {s : Store} {n c : Name} (member : c ∈ s.children n) :
    n.IsParentOf c := by
  rcases exists_of_mem_children member with ⟨p, _, above, rfl⟩
  exact above.isParentOf_take

theorem contains_of_mem_children {s : Store} {n c : Name} (member : c ∈ s.children n) :
    s.contains c = true := by
  rcases exists_of_mem_children member with ⟨p, listed, _, rfl⟩
  exact contains_iff.mpr ⟨p, listed, p.name.take_leads _⟩

/-! ## Height -/

private theorem le_foldl_max (properties : List Property) (start : Nat) :
    start ≤ properties.foldl (fun longest p => max longest p.name.size) start ∧
      ∀ p ∈ properties,
        p.name.size ≤ properties.foldl (fun longest p => max longest p.name.size) start := by
  induction properties generalizing start with
  | nil => exact ⟨Nat.le_refl start, fun p impossible => by cases impossible⟩
  | cons q rest inductionHypothesis =>
      rcases inductionHypothesis (max start q.name.size) with ⟨first, later⟩
      refine ⟨Nat.le_trans (Nat.le_max_left _ _) first, fun p listed => ?_⟩
      rcases List.mem_cons.mp listed with rfl | member
      · exact Nat.le_trans (Nat.le_max_right _ _) first
      · exact later p member

/-- No name is longer than the store is high. -/
theorem size_le_height {s : Store} {p : Property} (listed : p ∈ s.properties) :
    p.name.size ≤ s.height :=
  (le_foldl_max s.properties 0).2 p listed

/-- The height is the length of some name, or zero. -/
theorem height_le {s : Store} {bound : Nat}
    (within : ∀ p ∈ s.properties, p.name.size ≤ bound) : s.height ≤ bound := by
  unfold height
  have kept : ∀ properties : List Property, (∀ p ∈ properties, p.name.size ≤ bound) →
      ∀ start ≤ bound,
        properties.foldl (fun longest p => max longest p.name.size) start ≤ bound := by
    intro properties
    induction properties with
    | nil => exact fun _ start small => small
    | cons q rest inductionHypothesis =>
        intro within start small
        exact inductionHypothesis (fun p listed => within p (List.mem_cons_of_mem _ listed)) _
          (Nat.max_le.mpr ⟨small, within q List.mem_cons_self⟩)
  exact kept s.properties within 0 (Nat.zero_le bound)

theorem size_le_height_of_contains {s : Store} {n : Name} (holds : s.contains n = true) :
    n.size ≤ s.height := by
  rcases contains_iff.mp holds with ⟨p, listed, leads⟩
  exact Nat.le_trans leads.size_le (size_le_height listed)

end Store
end PropertyBinding
