import Mathlib.Data.List.Sort
import PropertyBinding.Proofs.Store.Children
import PropertyBinding.Proofs.Placeholder.Termination

/-!
# What the effective properties decide

Two stores may hold different layers and still have the same effective properties.
They then find the same property under each name, have the same properties below it,
and resolve placeholders alike, because all of these depend on the effective
properties alone.  The merged store is the plainest of the stores with given effective
properties: it has one layer, which holds them.

Children are different.  A child is spelled as in the lowest layer that has something
below it, so a spelling that no effective property uses can still show.  Only if all
layers spell the elements of names uniformly are the children decided too.
-/

namespace PropertyBinding

namespace Store

variable {s t : Store}

/-! ## Questions about names -/

theorem get?_of_effective (same : s.effective = t.effective) (n : Name) : s.get? n = t.get? n := by
  rw [← find?_effective, ← find?_effective, same]

theorem contains_of_effective (same : s.effective = t.effective) (n : Name) :
    s.contains n = t.contains n := by
  rw [Bool.eq_iff_iff, contains_iff_effective, contains_iff_effective, same]

theorem below_of_effective (same : s.effective = t.effective) (n : Name) :
    s.below n = t.below n := by
  rw [below_eq_filter, below_eq_filter, same]

private theorem height_le_of_effective (same : s.effective = t.effective) :
    s.height ≤ t.height := by
  apply height_le
  intro p listed
  rcases exists_effective_same listed with ⟨q, effective, sameName⟩
  rw [same] at effective
  rw [sameName.size]
  exact size_le_height (mem_of_mem_effective effective)

theorem height_of_effective (same : s.effective = t.effective) : s.height = t.height :=
  Nat.le_antisymm (height_le_of_effective same) (height_le_of_effective same.symm)

/-! ## Placeholders -/

theorem resolveWithin_of_effective (same : s.effective = t.effective) (depth : Nat)
    (visiting : List String) (value : String) :
    s.resolveWithin depth visiting value = t.resolveWithin depth visiting value := by
  have named : s.valueOf? = t.valueOf? := by
    funext key
    simp only [valueOf?, get?_of_effective same]
  induction depth generalizing visiting value with
  | zero => rfl
  | succ depth inductionHypothesis =>
      have followed : (fun key => s.resolveWithin depth (key :: visiting)) =
          fun key => t.resolveWithin depth (key :: visiting) := by
        funext key behind
        exact inductionHypothesis (key :: visiting) behind
      simp only [resolveWithin, named, followed]

/-- The bounds to which references are followed may differ, but each is sufficient. -/
theorem resolve_of_effective (same : s.effective = t.effective) (value : String) :
    s.resolve value = t.resolve value := by
  cases reached : (s.resolveWithin (s.depthBound value) [] value).run with
  | none => exact absurd reached (s.resolveWithin_depthBound [] value)
  | some outcome =>
      rw [s.resolve_eq_of_finished reached]
      rw [resolveWithin_of_effective same] at reached
      rw [t.resolve_eq_of_finished reached]

/-! ## Children -/

/-- Elements that are equal in relaxed form are spelled in one way, brackets included,
in all names of the store. -/
def UniformlySpelled (s : Store) : Prop :=
  ∀ p ∈ s.properties, ∀ q ∈ s.properties, ∀ e ∈ p.name.elements, ∀ f ∈ q.name.elements,
    e.relaxed = f.relaxed → e = f

instance (s : Store) : Decidable s.UniformlySpelled :=
  inferInstanceAs (Decidable (∀ p ∈ s.properties, ∀ q ∈ s.properties, ∀ e ∈ p.name.elements,
    ∀ f ∈ q.name.elements, e.relaxed = f.relaxed → e = f))

/-- In uniform spelling, initial parts of names that are the same name are equal. -/
theorem UniformlySpelled.take_eq (uniform : s.UniformlySpelled) {p q : Property}
    (first : p ∈ s.properties) (second : q ∈ s.properties) {size : Nat}
    (same : (p.name.take size).Same (q.name.take size)) :
    p.name.take size = q.name.take size := by
  have elements : (p.name.take size).elements = (q.name.take size).elements := by
    apply List.ext_getElem?
    intro i
    have key : ((p.name.take size).elements[i]?).map Element.relaxed =
        ((q.name.take size).elements[i]?).map Element.relaxed := by
      rw [← List.getElem?_map, ← List.getElem?_map]
      exact congrArg (·[i]?) same
    cases read : (p.name.take size).elements[i]? with
    | none =>
        rw [read] at key
        exact (Option.map_eq_none_iff.mp key.symm).symm
    | some e =>
        rw [read] at key
        rcases Option.map_eq_some_iff.mp key.symm with ⟨f, readToo, equal⟩
        have inFirst : e ∈ p.name.elements := List.mem_of_mem_take (List.mem_of_getElem? read)
        have inSecond : f ∈ q.name.elements := List.mem_of_mem_take (List.mem_of_getElem? readToo)
        rw [readToo, uniform p first q second e inFirst f inSecond equal.symm]
  exact congrArg Name.mk elements

theorem mem_children_of_uniform (uniform : s.UniformlySpelled) {n c : Name} :
    c ∈ s.children n ↔
      ∃ p ∈ s.effective, n.IsAncestorOf p.name ∧ c = p.name.take (n.size + 1) := by
  constructor
  · intro member
    rcases exists_of_mem_children member with ⟨p, listed, above, rfl⟩
    rcases exists_effective_same listed with ⟨q, effective, same⟩
    refine ⟨q, effective, above.trans_leads same.leads, ?_⟩
    apply uniform.take_eq listed (mem_of_mem_effective effective)
    unfold Name.Same
    rw [Name.key_take, Name.key_take, same]
  · rintro ⟨p, effective, above, rfl⟩
    have listed := mem_of_mem_effective effective
    rcases exists_child_same listed above with ⟨c, member, same⟩
    rcases exists_of_mem_children member with ⟨q, other, _, rfl⟩
    rwa [← uniform.take_eq other listed same]

instance : Std.Irrefl (α := Name) (· < ·) := ⟨Name.lt_irrefl⟩

instance : Std.Antisymm (α := Name) (· < ·) :=
  ⟨fun a _ before after => absurd (Name.lt_trans before after) (Name.lt_irrefl a)⟩

theorem children_of_effective (same : s.effective = t.effective) (uniform : s.UniformlySpelled)
    (uniformToo : t.UniformlySpelled) (n : Name) : s.children n = t.children n := by
  apply List.Pairwise.eq_of_mem_iff (s.sorted_children n) (t.sorted_children n)
  intro c
  rw [mem_children_of_uniform uniform, mem_children_of_uniform uniformToo, same]

/-! ## The merged store -/

/-- The store of one layer with the effective properties of all. -/
def merged (s : Store) (source : String) : Store :=
  single ⟨source, s.effective, s.sorted_effective⟩

theorem properties_merged (s : Store) (source : String) :
    (s.merged source).properties = s.effective :=
  List.append_nil _

/-- Under each name the merged store has the property that is found there. -/
theorem get?_merged (s : Store) (source : String) (n : Name) :
    (s.merged source).get? n = s.get? n := by
  rw [get?_eq_find?, properties_merged, s.sorted_effective.find?_reverse, find?_effective]

theorem effective_merged (s : Store) (source : String) :
    (s.merged source).effective = s.effective := by
  apply (sorted_effective _).ext s.sorted_effective
  intro p
  rw [mem_effective, mem_effective, get?_merged]

theorem UniformlySpelled.merged (uniform : s.UniformlySpelled) (source : String) :
    (s.merged source).UniformlySpelled := by
  intro p first q second
  rw [properties_merged] at first second
  exact uniform p (mem_of_mem_effective first) q (mem_of_mem_effective second)

end Store
end PropertyBinding
