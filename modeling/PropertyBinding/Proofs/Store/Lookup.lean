import PropertyBinding.Proofs.Store.Scan

/-!
# Looking things up in a store

A store answers its questions in different ways: it looks for a property from the
top layer down, it collects what lies below a name from the bottom layer up, and
whether there is anything at a name it finds out layer by layer.  Here all answers
are traced back to one list, the *effective* properties of the store, of which
there is exactly one for each name that has a property at all.

`get?` finds the effective property with a name, `below` picks out those strictly
below a name, `contains` says whether there are any at a name or below it, and
`children` goes through the names one element below.
-/

namespace PropertyBinding

/-! ## Sorted lists of properties -/

theorem same_of_find? {properties : List Property} {n : Name} {p : Property}
    (found : properties.find? (fun q => n.Same q.name) = some p) : n.Same p.name := by
  simpa using List.find?_some found

/-- Looking from the end finds the last one that fits. -/
theorem find?_reverse_eq_some_iff {α : Type} {fits : α → Bool} {items : List α} {a : α} :
    items.reverse.find? fits = some a ↔ fits a = true ∧ ∃ before after,
      items = before ++ a :: after ∧ ∀ later ∈ after, (!fits later) = true := by
  rw [List.find?_eq_some_iff_append]
  constructor
  · rintro ⟨holds, after, before, split, above⟩
    refine ⟨holds, before.reverse, after.reverse, ?_,
      fun later listed => above later (List.mem_reverse.mp listed)⟩
    rw [← List.reverse_reverse items, split]
    simp only [List.reverse_append, List.reverse_cons, List.append_assoc, List.singleton_append]
  · rintro ⟨holds, before, after, rfl, above⟩
    refine ⟨holds, after.reverse, before.reverse, ?_,
      fun later listed => above later (List.mem_reverse.mp listed)⟩
    simp only [List.reverse_append, List.reverse_cons, List.append_assoc, List.singleton_append]

namespace Sorted

variable {properties others : List Property}

/-- A sorted list has one property for each name. -/
theorem eq_of_same (sorted : Sorted properties) {p q : Property} (first : p ∈ properties)
    (second : q ∈ properties) (same : p.name.Same q.name) : p = q := by
  induction properties with
  | nil => cases first
  | cons head rest inductionHypothesis =>
      have parts := List.pairwise_cons.mp sorted
      have apart : ∀ x ∈ rest, ¬ head.name.Same x.name := fun x later equal =>
        equal.not_lt (parts.1 x later)
      rcases List.mem_cons.mp first with rfl | firstLater
      · rcases List.mem_cons.mp second with rfl | secondLater
        · rfl
        · exact absurd same (apart q secondLater)
      · rcases List.mem_cons.mp second with rfl | secondLater
        · exact absurd same.symm (apart p firstLater)
        · exact inductionHypothesis parts.2 firstLater secondLater

theorem find?_eq_some_iff (sorted : Sorted properties) {n : Name} {p : Property} :
    properties.find? (fun q => n.Same q.name) = some p ↔ p ∈ properties ∧ n.Same p.name := by
  constructor
  · intro found
    exact ⟨List.mem_of_find?_eq_some found, same_of_find? found⟩
  · rintro ⟨listed, same⟩
    cases found : properties.find? fun q => n.Same q.name with
    | none =>
        have absent := List.find?_eq_none.mp found p listed
        exact absurd (decide_eq_true same) absent
    | some q =>
        have sameName : n.Same q.name := same_of_find? found
        rw [sorted.eq_of_same (List.mem_of_find?_eq_some found) listed (sameName.symm.trans same)]

theorem find?_reverse (sorted : Sorted properties) (n : Name) :
    properties.reverse.find? (fun q => n.Same q.name) =
      properties.find? fun q => n.Same q.name := by
  cases found : properties.reverse.find? fun q => n.Same q.name with
  | none =>
      symm
      rw [List.find?_eq_none] at found ⊢
      exact fun q listed => found q (List.mem_reverse.mpr listed)
  | some q =>
      symm
      rw [sorted.find?_eq_some_iff]
      exact ⟨List.mem_reverse.mp (List.mem_of_find?_eq_some found),
        same_of_find? found⟩

theorem nodup (sorted : Sorted properties) : properties.Nodup := by
  refine List.Pairwise.imp (fun {p q} before => ?_) sorted
  rintro rfl
  exact Name.lt_irrefl _ before

/-- A sorted list is determined by its members. -/
theorem ext (sorted : Sorted properties) (sortedToo : Sorted others)
    (members : ∀ p, p ∈ properties ↔ p ∈ others) : properties = others := by
  have permuted := (List.perm_ext_iff_of_nodup sorted.nodup sortedToo.nodup).mpr members
  refine permuted.eq_of_pairwise (fun p q _ _ before after => ?_) sorted sortedToo
  exact absurd (Name.lt_trans before after) (Name.lt_irrefl _)

end Sorted

/-! ## Collecting properties -/

/-- The property added last is found under its name, and all others as before. -/
theorem find?_insertProperty (n : Name) (p : Property) (properties : List Property) :
    (insertProperty p properties).find? (fun q => n.Same q.name) =
      if n.Same p.name then some p else properties.find? fun q => n.Same q.name := by
  induction properties with
  | nil => by_cases same : n.Same p.name <;> simp [insertProperty, same]
  | cons q rest inductionHypothesis =>
      unfold insertProperty
      by_cases before : p.name < q.name
      · rw [if_pos before]
        by_cases same : n.Same p.name <;> simp [same]
      · rw [if_neg before]
        by_cases after : q.name < p.name
        · rw [if_pos after]
          by_cases same : n.Same q.name
          · have other : ¬ n.Same p.name := fun equal =>
              (same.symm.trans equal).not_lt after
            simp [same, other]
          · simp only [List.find?_cons, same, decide_false]
            exact inductionHypothesis
        · rw [if_neg after]
          have equal : p.name.Same q.name := Name.same_of_not_lt before after
          by_cases same : n.Same p.name
          · simp [same]
          · have other : ¬ n.Same q.name := fun found => same (found.trans equal.symm)
            simp [same, other]

/-- Of the properties collected under a name the last one stays. -/
theorem find?_collect (n : Name) (added start : List Property) :
    (added.foldl (fun merged p => insertProperty p merged) start).find?
        (fun q => n.Same q.name) =
      (added.reverse.find? fun q => n.Same q.name).or
        (start.find? fun q => n.Same q.name) := by
  induction added generalizing start with
  | nil => simp
  | cons p rest inductionHypothesis =>
      rw [List.foldl_cons, inductionHypothesis, find?_insertProperty, List.reverse_cons,
        List.find?_append]
      by_cases same : n.Same p.name <;> simp [same]

theorem sorted_collect {start : List Property} (sorted : Sorted start) (added : List Property) :
    Sorted (added.foldl (fun merged p => insertProperty p merged) start) := by
  induction added generalizing start with
  | nil => exact sorted
  | cons p rest inductionHypothesis => exact inductionHypothesis (sorted.insertProperty p)

/-! ## Layers -/

namespace Layer

theorem get?_eq_some_iff {l : Layer} {n : Name} {p : Property} :
    l.get? n = some p ↔ p ∈ l.properties ∧ n.Same p.name :=
  l.sorted.find?_eq_some_iff

theorem contains_iff {l : Layer} {n : Name} :
    l.contains n = true ↔ ∃ p ∈ l.properties, n.Leads p.name := by
  unfold contains
  rw [Bool.or_eq_true, Option.isSome_iff_exists, Bool.not_eq_true',
    List.isEmpty_eq_false_iff_exists_mem]
  constructor
  · rintro (⟨p, found⟩ | ⟨p, below⟩)
    · rcases get?_eq_some_iff.mp found with ⟨listed, same⟩
      exact ⟨p, listed, same.leads⟩
    · rcases mem_below.mp below with ⟨listed, above⟩
      exact ⟨p, listed, above.2⟩
  · rintro ⟨p, listed, leads⟩
    rcases Name.leads_iff.mp leads with same | above
    · exact Or.inl ⟨p, get?_eq_some_iff.mpr ⟨listed, same⟩⟩
    · exact Or.inr ⟨p, mem_below.mpr ⟨listed, above⟩⟩

end Layer

/-! ## Stores -/

namespace Store

theorem mem_properties {s : Store} {p : Property} :
    p ∈ s.properties ↔ ∃ l ∈ s.layers, p ∈ l.properties :=
  List.mem_flatMap

/-- Looking from the top layer down finds the last of all properties. -/
theorem get?_eq_find? (s : Store) (n : Name) :
    s.get? n = s.properties.reverse.find? fun p => n.Same p.name := by
  have topDown : ∀ layers : List Layer, layers.reverse.findSome? (·.get? n) =
      (layers.flatMap (·.properties)).reverse.find? fun p => n.Same p.name := by
    intro layers
    induction layers with
    | nil => rfl
    | cons l rest inductionHypothesis =>
        rw [List.reverse_cons, List.findSome?_append, inductionHypothesis, List.flatMap_cons,
          List.reverse_append, List.find?_append, l.sorted.find?_reverse]
        simp [Layer.get?]
  exact topDown s.layers

/-- The effective properties, in name order. -/
def effective (s : Store) : List Property :=
  s.properties.foldl (fun merged p => insertProperty p merged) []

theorem sorted_effective (s : Store) : Sorted s.effective :=
  sorted_collect List.Pairwise.nil s.properties

theorem find?_effective (s : Store) (n : Name) :
    s.effective.find? (fun p => n.Same p.name) = s.get? n := by
  rw [effective, find?_collect, get?_eq_find?, List.find?_nil, Option.or_none]

/-- A property is effective when it is the one found under its name. -/
theorem mem_effective {s : Store} {p : Property} :
    p ∈ s.effective ↔ s.get? p.name = some p := by
  rw [← find?_effective, s.sorted_effective.find?_eq_some_iff]
  exact ⟨fun listed => ⟨listed, Name.same_refl _⟩, fun found => found.1⟩

theorem get?_eq_some_iff {s : Store} {n : Name} {p : Property} :
    s.get? n = some p ↔ p ∈ s.effective ∧ n.Same p.name := by
  rw [← find?_effective, s.sorted_effective.find?_eq_some_iff]

theorem get?_congr (s : Store) {a b : Name} (same : a.Same b) : s.get? a = s.get? b := by
  rw [get?_eq_find?, get?_eq_find?]
  congr 1
  funext p
  exact decide_eq_decide.mpr ⟨fun first => same.symm.trans first, fun second => same.trans second⟩

/-- Effective properties are properties of the store. -/
theorem mem_of_mem_effective {s : Store} {p : Property} (listed : p ∈ s.effective) :
    p ∈ s.properties := by
  have found := mem_effective.mp listed
  rw [get?_eq_find?] at found
  exact List.mem_reverse.mp (List.mem_of_find?_eq_some found)

/-- Each property has an effective one of the same name in its place. -/
theorem exists_effective_same {s : Store} {p : Property} (listed : p ∈ s.properties) :
    ∃ q ∈ s.effective, p.name.Same q.name := by
  cases found : s.get? p.name with
  | some q => exact ⟨q, get?_eq_some_iff.mp found⟩
  | none =>
      rw [get?_eq_find?] at found
      have absent := List.find?_eq_none.mp found p (List.mem_reverse.mpr listed)
      exact absurd (decide_eq_true (Name.same_refl p.name)) absent

theorem contains_iff {s : Store} {n : Name} :
    s.contains n = true ↔ ∃ p ∈ s.properties, n.Leads p.name := by
  unfold contains
  rw [List.any_eq_true]
  constructor
  · rintro ⟨l, layer, holds⟩
    rcases Layer.contains_iff.mp holds with ⟨p, listed, leads⟩
    exact ⟨p, mem_properties.mpr ⟨l, layer, listed⟩, leads⟩
  · rintro ⟨p, listed, leads⟩
    rcases mem_properties.mp listed with ⟨l, layer, member⟩
    exact ⟨l, layer, Layer.contains_iff.mpr ⟨p, member, leads⟩⟩

/-- Whether there is something at a name or below it depends on the effective
properties alone. -/
theorem contains_iff_effective {s : Store} {n : Name} :
    s.contains n = true ↔ ∃ p ∈ s.effective, n.Leads p.name := by
  rw [contains_iff]
  constructor
  · rintro ⟨p, listed, leads⟩
    rcases exists_effective_same listed with ⟨q, effective, same⟩
    exact ⟨q, effective, leads.trans same.leads⟩
  · rintro ⟨p, effective, leads⟩
    exact ⟨p, mem_of_mem_effective effective, leads⟩

theorem contains_of_get? {s : Store} {n : Name} {p : Property} (found : s.get? n = some p) :
    s.contains n = true := by
  rcases get?_eq_some_iff.mp found with ⟨effective, same⟩
  exact contains_iff_effective.mpr ⟨p, effective, same.leads⟩

/-- The properties of all layers below a name, lowest precedence first. -/
theorem flatMap_below (s : Store) (n : Name) :
    s.layers.flatMap (·.below n) = s.properties.filter fun p => n.IsAncestorOf p.name := by
  simp only [properties, List.filter_flatMap, Layer.below_eq_filter]

/-- Of properties below a name, one is found under its name as it is among all. -/
private theorem find?_filter_below {n m : Name} (above : n.IsAncestorOf m)
    (properties : List Property) :
    (properties.filter fun p => n.IsAncestorOf p.name).find? (fun p => m.Same p.name) =
      properties.find? fun p => m.Same p.name := by
  rw [List.find?_filter]
  congr 1
  funext p
  by_cases same : m.Same p.name
  · simp [same, above.trans_leads same.leads]
  · simp [same]

/-- What a store has below a name is what the effective properties have there. -/
theorem below_eq_filter (s : Store) (n : Name) :
    s.below n = s.effective.filter fun p => n.IsAncestorOf p.name := by
  unfold below
  rw [flatMap_below]
  have sorted := sorted_collect List.Pairwise.nil
    (s.properties.filter fun p => n.IsAncestorOf p.name)
  apply sorted.ext (List.Pairwise.filter _ s.sorted_effective)
  intro p
  -- Among the collected properties, too, the one of a name is the last given under it.
  have collected : p ∈ (s.properties.filter fun p => n.IsAncestorOf p.name).foldl
      (fun merged p => insertProperty p merged) [] ↔
      (s.properties.filter fun p => n.IsAncestorOf p.name).reverse.find?
        (fun q => p.name.Same q.name) = some p := by
    rw [← Option.or_none (o := List.find? _ _), ← List.find?_nil, ← find?_collect,
      sorted.find?_eq_some_iff]
    exact ⟨fun listed => ⟨listed, Name.same_refl _⟩, fun found => found.1⟩
  rw [collected, List.mem_filter, mem_effective, get?_eq_find?, decide_eq_true_eq,
    ← List.filter_reverse]
  constructor
  · intro found
    have listed := List.mem_filter.mp (List.mem_of_find?_eq_some found)
    have above : n.IsAncestorOf p.name := of_decide_eq_true listed.2
    exact ⟨(find?_filter_below above _).symm.trans found, above⟩
  · rintro ⟨found, above⟩
    exact (find?_filter_below above _).trans found

theorem mem_below {s : Store} {n : Name} {p : Property} :
    p ∈ s.below n ↔ p ∈ s.effective ∧ n.IsAncestorOf p.name := by
  rw [below_eq_filter, List.mem_filter, decide_eq_true_eq]

end Store
end PropertyBinding
