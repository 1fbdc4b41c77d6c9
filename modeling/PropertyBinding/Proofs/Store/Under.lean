import PropertyBinding.Proofs.Placeholder.Substitution
import PropertyBinding.Proofs.Store.Children

/-!
# What a store holds at a name and below it

All that a store is asked about a name, the properties at the name and below it answer.
They have to be taken source by source, for a child is spelled as in the lowest source
that has it, and a source may be asked for as such.  But a source that has nothing at the
name or below it might as well not be there.

So two stores that have the same under a name answer every question about this name, and
about each name below it, alike, whatever else they hold.
-/

namespace PropertyBinding

/-- The properties of a layer at a name or below it. -/
def Layer.under (l : Layer) (root : Name) : List Property :=
  l.properties.filter fun p => root.Leads p.name

theorem Layer.contains_eq_under (l : Layer) {root n : Name} (there : root.Leads n) :
    l.contains n = (l.under root).any fun p => n.Leads p.name := by
  rw [Bool.eq_iff_iff, contains_iff, List.any_eq_true]
  simp only [under, List.mem_filter, decide_eq_true_eq]
  constructor
  · rintro ⟨p, listed, leads⟩
    exact ⟨p, ⟨listed, there.trans leads⟩, leads⟩
  · rintro ⟨p, ⟨listed, _⟩, leads⟩
    exact ⟨p, listed, leads⟩

namespace Store

/-- What the sources have at a name or below it, source by source, lowest precedence
first.  Sources that have nothing there are left out. -/
def under (s : Store) (root : Name) : List (List Property) :=
  (s.layers.map (·.under root)).filter fun held => !held.isEmpty

variable {s t : Store} {root n : Name}

theorem flatten_under (s : Store) (root : Name) :
    (s.under root).flatten = s.properties.filter fun p => root.Leads p.name := by
  rw [under, List.flatten_filter_not_isEmpty, properties, List.filter_flatMap, List.flatMap_def]
  rfl

theorem mem_flatten_under {p : Property} :
    p ∈ (s.under root).flatten ↔ p ∈ s.properties ∧ root.Leads p.name := by
  rw [flatten_under, List.mem_filter, decide_eq_true_eq]

/-! ## Each question is answered by what is under the name -/

theorem get?_eq_under (s : Store) (there : root.Leads n) :
    s.get? n = (s.under root).flatten.reverse.find? fun p => n.Same p.name := by
  rw [get?_eq_find?, flatten_under, ← List.filter_reverse, List.find?_filter]
  congr 1
  funext p
  by_cases same : n.Same p.name
  · simp [same, there.trans same.leads]
  · simp [same]

theorem contains_iff_under (there : root.Leads n) :
    s.contains n = true ↔ ∃ p ∈ (s.under root).flatten, n.Leads p.name := by
  simp only [contains_iff, mem_flatten_under]
  constructor
  · rintro ⟨p, listed, leads⟩
    exact ⟨p, ⟨listed, there.trans leads⟩, leads⟩
  · rintro ⟨p, ⟨listed, _⟩, leads⟩
    exact ⟨p, listed, leads⟩

theorem flatMap_below_eq_under (s : Store) (there : root.Leads n) :
    s.layers.flatMap (·.below n) =
      (s.under root).flatten.filter fun p => n.IsAncestorOf p.name := by
  rw [flatMap_below, flatten_under, List.filter_filter]
  congr 1
  funext p
  by_cases above : n.IsAncestorOf p.name
  · simp [above, there.trans above.2]
  · simp [above]

theorem map_layerOf?_under (s : Store) (there : root.Leads n) :
    (s.layerOf? n).map (·.under root) =
      (s.under root).reverse.find? fun held => held.any fun p => n.Leads p.name := by
  have highest : s.layerOf? n = s.layers.reverse.find?
      ((fun held : List Property => held.any fun p => n.Leads p.name) ∘ (·.under root)) := by
    unfold layerOf?
    congr 1
    funext l
    exact l.contains_eq_under there
  rw [highest, ← List.find?_map, List.map_reverse, under, ← List.filter_reverse, List.find?_filter]
  congr 1
  funext held
  cases held with
  | nil => rfl
  | cons p rest => simp only [List.isEmpty_cons, Bool.not_false, true_and, Bool.decide_eq_true]

/-! ## Stores with the same under a name -/

theorem get?_of_under (same : s.under root = t.under root) (there : root.Leads n) :
    s.get? n = t.get? n := by
  rw [s.get?_eq_under there, t.get?_eq_under there, same]

theorem contains_of_under (same : s.under root = t.under root) (there : root.Leads n) :
    s.contains n = t.contains n := by
  rw [Bool.eq_iff_iff, contains_iff_under there, contains_iff_under there, same]

theorem below_of_under (same : s.under root = t.under root) (there : root.Leads n) :
    s.below n = t.below n := by
  unfold below
  rw [s.flatMap_below_eq_under there, t.flatMap_below_eq_under there, same]

theorem children_of_under (same : s.under root = t.under root) (there : root.Leads n) :
    s.children n = t.children n := by
  unfold children
  rw [s.flatMap_below_eq_under there, t.flatMap_below_eq_under there, same]

/-- The sources that are highest at a name have the same under it, or neither store has
one. -/
theorem sourceOf?_of_under (same : s.under root = t.under root) (there : root.Leads n) :
    Option.Rel (fun source other => source.under root = other.under root)
      (s.sourceOf? n) (t.sourceOf? n) := by
  have highest := s.map_layerOf?_under there
  rw [same, ← t.map_layerOf?_under there] at highest
  unfold sourceOf?
  cases found : s.layerOf? n with
  | none =>
      rw [found, Option.map_none] at highest
      rw [Option.map_eq_none_iff.mp highest.symm]
      exact .none
  | some l =>
      rw [found, Option.map_some] at highest
      rcases Option.map_eq_some_iff.mp highest.symm with ⟨m, foundToo, equal⟩
      rw [foundToo]
      refine .some ?_
      simp only [under, single, List.map_cons, List.map_nil, equal]

/-! ## Values without placeholders -/

/-- No value at a name or below it contains a dollar sign. -/
def PlainUnder (s : Store) (root : Name) : Prop :=
  ∀ p ∈ s.properties, root.Leads p.name → '$' ∉ p.value.toList

instance (s : Store) (root : Name) : Decidable (s.PlainUnder root) :=
  inferInstanceAs (Decidable (∀ p ∈ s.properties, root.Leads p.name → '$' ∉ p.value.toList))

/-- What is found under a name below needs no other property to be resolved. -/
theorem PlainUnder.resolve (plain : s.PlainUnder root) (there : root.Leads n) {p : Property}
    (found : s.get? n = some p) (sources : Store) : sources.resolve p.value = .ok p.value := by
  rcases get?_eq_some_iff.mp found with ⟨effective, same⟩
  apply resolve_of_no_dollar
  exact plain p (mem_of_mem_effective effective) (there.trans same.leads)

end Store
end PropertyBinding
