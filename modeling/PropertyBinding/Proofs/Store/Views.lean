import PropertyBinding.Proofs.Store.Children

/-!
# The views of a store agree

A store can be asked for the property under a name, for all that lies below it, for its
children, for whether anything is there, and for the source that is highest there.  The
answers are found in different ways, and over a store whose layers spell a name
differently it is not plain that they tell the same.  They do, for the whole store and
for each source that has been taken out of it, since such a source is again a store, into
which it alone has been pushed.
-/

namespace PropertyBinding

/-! ## Pushed sources -/

namespace Layer

theorem properties_ofList (source : String) (properties : List Property) :
    (ofList source properties).properties =
      properties.foldl (fun merged p => insertProperty p merged) [] :=
  (List.foldl_hom Layer.properties fun _ _ => rfl).symm

/-- Of the properties supplied under a name the last one is found. -/
theorem get?_ofList (source : String) (properties : List Property) (n : Name) :
    (ofList source properties).get? n = properties.reverse.find? fun p => n.Same p.name := by
  rw [get?, properties_ofList, find?_collect, List.find?_nil, Option.or_none]

/-- A layer has a value at a name or below it when it was given one there. -/
theorem contains_ofList_iff {source : String} {properties : List Property} {n : Name} :
    (ofList source properties).contains n = true ↔ ∃ p ∈ properties, n.Leads p.name := by
  rw [contains_iff]
  constructor
  · rintro ⟨p, listed, leads⟩
    have found := get?_eq_some_iff.mpr ⟨listed, Name.same_refl p.name⟩
    rw [get?_ofList] at found
    exact ⟨p, List.mem_reverse.mp (List.mem_of_find?_eq_some found), leads⟩
  · rintro ⟨p, given, leads⟩
    cases found : (ofList source properties).get? p.name with
    | some q =>
        rcases get?_eq_some_iff.mp found with ⟨listed, same⟩
        exact ⟨q, listed, leads.trans same.leads⟩
    | none =>
        rw [get?_ofList] at found
        have absent := List.find?_eq_none.mp found p (List.mem_reverse.mpr given)
        exact absurd (decide_eq_true (Name.same_refl p.name)) absent

end Layer

namespace Store

/-- The store into which sources have been pushed, one after another. -/
def pushAll (pushed : List (String × List Property)) : Store :=
  pushed.foldl (fun s source => s.push source.1 source.2) empty

theorem layers_pushAll (pushed : List (String × List Property)) :
    (pushAll pushed).layers = pushed.map fun source => Layer.ofList source.1 source.2 := by
  have kept : ∀ s : Store, (pushed.foldl (fun s source => s.push source.1 source.2) s).layers =
      s.layers ++ pushed.map fun source => Layer.ofList source.1 source.2 := by
    induction pushed with
    | nil => exact fun s => (List.append_nil _).symm
    | cons source rest inductionHypothesis =>
        intro s
        rw [List.foldl_cons, inductionHypothesis, push, List.append_assoc]
        rfl
  exact kept empty

/-- A part of the sources makes the same store only if it is all of them. -/
theorem eq_of_pushAll_eq {part pushed : List (String × List Property)}
    (within : part.Sublist pushed) (same : pushAll part = pushAll pushed) : part = pushed := by
  apply within.eq_of_length
  have layers := congrArg (fun s => s.layers.length) same
  simpa only [layers_pushAll, List.length_map] using layers

theorem sourceOf?_pushAll (pushed : List (String × List Property)) (n : Name) :
    (pushAll pushed).sourceOf? n =
      (pushed.reverse.find? fun source => (Layer.ofList source.1 source.2).contains n).map
        fun source => pushAll [source] := by
  rw [sourceOf?, layerOf?, layers_pushAll, ← List.map_reverse, List.find?_map, Option.map_map]
  rfl

/-- The highest source is the last one pushed that has a value at the name or below it. -/
theorem sourceOf?_pushAll_eq_some_iff {pushed : List (String × List Property)} {n : Name}
    {scope : Store} :
    (pushAll pushed).sourceOf? n = some scope ↔
      ∃ before source after, pushed = before ++ source :: after ∧ scope = pushAll [source] ∧
        (∃ p ∈ source.2, n.Leads p.name) ∧ ∀ later ∈ after, ∀ p ∈ later.2, ¬ n.Leads p.name := by
  have lacks : ∀ source : String × List Property,
      (!(Layer.ofList source.1 source.2).contains n) = true ↔ ∀ p ∈ source.2, ¬ n.Leads p.name := by
    intro source
    rw [Bool.not_eq_true', ← Bool.not_eq_true, Layer.contains_ofList_iff]
    exact ⟨fun absent p given leads => absent ⟨p, given, leads⟩,
      fun absent ⟨p, given, leads⟩ => absent p given leads⟩
  rw [sourceOf?_pushAll, Option.map_eq_some_iff]
  constructor
  · rintro ⟨source, found, rfl⟩
    rcases find?_reverse_eq_some_iff.mp found with ⟨holds, before, after, split, above⟩
    exact ⟨before, source, after, split, rfl, Layer.contains_ofList_iff.mp holds,
      fun later listed => (lacks later).mp (above later listed)⟩
  · rintro ⟨before, source, after, split, rfl, holds, above⟩
    refine ⟨source, find?_reverse_eq_some_iff.mpr ⟨Layer.contains_ofList_iff.mpr holds, before,
      after, split, ?_⟩, rfl⟩
    exact fun later listed => (lacks later).mpr (above later listed)

/-! ## The views -/

theorem containsBelow_iff {s : Store} {n : Name} :
    s.containsBelow n = true ↔ ∃ p ∈ s.properties, n.IsAncestorOf p.name := by
  unfold containsBelow
  rw [List.any_eq_true]
  constructor
  · rintro ⟨l, layer, below⟩
    rw [Bool.not_eq_true', List.isEmpty_eq_false_iff_exists_mem] at below
    rcases below with ⟨p, member⟩
    rcases Layer.mem_below.mp member with ⟨listed, above⟩
    exact ⟨p, mem_properties.mpr ⟨l, layer, listed⟩, above⟩
  · rintro ⟨p, listed, above⟩
    rcases mem_properties.mp listed with ⟨l, layer, member⟩
    refine ⟨l, layer, ?_⟩
    rw [Bool.not_eq_true', List.isEmpty_eq_false_iff_exists_mem]
    exact ⟨p, Layer.mem_below.mpr ⟨member, above⟩⟩

/-- How the answers of a store about a name hang together. -/
structure Consistent (s : Store) (n : Name) : Prop where
  below_sorted : (s.below n).Pairwise fun p q => p.name < q.name
  below_effective : ∀ p, p ∈ s.below n ↔ n.IsAncestorOf p.name ∧ s.get? p.name = some p
  children_sorted : (s.children n).Pairwise (· < ·)
  children_contained : ∀ c,
    (∃ child ∈ s.children n, child.Same c) ↔ n.IsParentOf c ∧ s.contains c = true
  contains : s.contains n = true ↔ (s.get? n).isSome = true ∨ s.containsBelow n = true
  containsBelow_below : s.containsBelow n = true ↔ s.below n ≠ []
  containsBelow_children : s.containsBelow n = true ↔ s.children n ≠ []
  sourceOf : (s.sourceOf? n).isSome = true ↔ s.contains n = true

variable (s : Store) (n : Name)

theorem sorted_below : (s.below n).Pairwise fun p q => p.name < q.name := by
  rw [below_eq_filter]
  exact List.Pairwise.filter _ s.sorted_effective

/-- The children are the names one element below at or below which there is something. -/
theorem exists_mem_children_same_iff (c : Name) :
    (∃ child ∈ s.children n, child.Same c) ↔ n.IsParentOf c ∧ s.contains c = true := by
  constructor
  · rintro ⟨child, member, same⟩
    have parent := isParentOf_of_mem_children member
    rcases contains_iff.mp (contains_of_mem_children member) with ⟨p, listed, leads⟩
    exact ⟨⟨same.size.symm.trans parent.1, parent.2.trans same.leads⟩,
      contains_iff.mpr ⟨p, listed, same.symm.leads.trans leads⟩⟩
  · rintro ⟨parent, holds⟩
    rcases contains_iff.mp holds with ⟨p, listed, leads⟩
    have above : n.IsAncestorOf p.name :=
      ⟨Nat.lt_of_lt_of_le (parent.1 ▸ Nat.lt_succ_self n.size) leads.size_le,
        parent.2.trans leads⟩
    have cut : c.Same (p.name.take (n.size + 1)) := by
      unfold Name.Same
      rw [Name.key_take, ← parent.1, ← Name.length_key c]
      exact List.prefix_iff_eq_take.mp leads
    rcases exists_child_same listed above with ⟨child, member, same⟩
    exact ⟨child, member, same.trans cut.symm⟩

theorem contains_iff_get?_or_containsBelow :
    s.contains n = true ↔ (s.get? n).isSome = true ∨ s.containsBelow n = true := by
  rw [contains_iff, containsBelow_iff, Option.isSome_iff_exists]
  constructor
  · rintro ⟨p, listed, leads⟩
    rcases Name.leads_iff.mp leads with same | above
    · rcases exists_effective_same listed with ⟨q, effective, sameToo⟩
      exact Or.inl ⟨q, get?_eq_some_iff.mpr ⟨effective, same.trans sameToo⟩⟩
    · exact Or.inr ⟨p, listed, above⟩
  · rintro (⟨p, found⟩ | ⟨p, listed, above⟩)
    · rcases get?_eq_some_iff.mp found with ⟨effective, same⟩
      exact ⟨p, mem_of_mem_effective effective, same.leads⟩
    · exact ⟨p, listed, above.2⟩

theorem containsBelow_iff_below : s.containsBelow n = true ↔ s.below n ≠ [] := by
  rw [containsBelow_iff, ← List.isEmpty_eq_false_iff, List.isEmpty_eq_false_iff_exists_mem]
  constructor
  · rintro ⟨p, listed, above⟩
    rcases exists_effective_same listed with ⟨q, effective, same⟩
    exact ⟨q, mem_below.mpr ⟨effective, above.trans_leads same.leads⟩⟩
  · rintro ⟨p, member⟩
    rcases mem_below.mp member with ⟨effective, above⟩
    exact ⟨p, mem_of_mem_effective effective, above⟩

theorem containsBelow_iff_children : s.containsBelow n = true ↔ s.children n ≠ [] := by
  rw [containsBelow_iff, ← List.isEmpty_eq_false_iff, List.isEmpty_eq_false_iff_exists_mem]
  constructor
  · rintro ⟨p, listed, above⟩
    rcases exists_child_same listed above with ⟨child, member, _⟩
    exact ⟨child, member⟩
  · rintro ⟨child, member⟩
    rcases exists_of_mem_children member with ⟨p, listed, above, _⟩
    exact ⟨p, listed, above⟩

theorem isSome_sourceOf?_iff : (s.sourceOf? n).isSome = true ↔ s.contains n = true := by
  rw [sourceOf?, layerOf?, Option.isSome_map, List.find?_isSome, contains, List.any_eq_true]
  simp only [List.mem_reverse]

theorem consistent : s.Consistent n where
  below_sorted := s.sorted_below n
  below_effective := fun p => by rw [mem_below, mem_effective, and_comm]
  children_sorted := s.sorted_children n
  children_contained := s.exists_mem_children_same_iff n
  contains := s.contains_iff_get?_or_containsBelow n
  containsBelow_below := s.containsBelow_iff_below n
  containsBelow_children := s.containsBelow_iff_children n
  sourceOf := s.isSome_sourceOf?_iff n

/-! ## Scopes -/

/-- What binding can have in scope over a store: the store itself, or a source taken out
of what was in scope before. -/
inductive Scope (s : Store) : Store → Prop
  | whole : Scope s s
  | source {scope source : Store} {n : Name} (outer : Scope s scope)
      (found : scope.sourceOf? n = some source) : Scope s source

/-- A scope is again a store into which some of the sources have been pushed. -/
theorem Scope.exists_sublist {pushed : List (String × List Property)} {scope : Store}
    (inScope : (pushAll pushed).Scope scope) :
    ∃ part, part.Sublist pushed ∧ scope = pushAll part := by
  induction inScope with
  | whole => exact ⟨pushed, List.Sublist.refl pushed, rfl⟩
  | source _ found inductionHypothesis =>
      rcases inductionHypothesis with ⟨part, within, rfl⟩
      rcases sourceOf?_pushAll_eq_some_iff.mp found with ⟨before, last, after, rfl, rfl, _⟩
      have listed : [last].Sublist (before ++ last :: after) :=
        List.singleton_sublist.mpr (List.mem_append_right _ List.mem_cons_self)
      exact ⟨[last], listed.trans within, rfl⟩

/-- In each scope of a store the answers about a name agree, and the source found there
is the scope of exactly the last pushed source of this scope that has a value at the name
or below it.  The sources of the whole store are all that have been pushed. -/
theorem views_agree {pushed : List (String × List Property)} {scope : Store}
    (inScope : (pushAll pushed).Scope scope) (n : Name) :
    scope.Consistent n ∧ ∃ part, part.Sublist pushed ∧ scope = pushAll part ∧
      (scope = pushAll pushed → part = pushed) ∧
      ∀ source, scope.sourceOf? n = some source ↔
        ∃ before last after, part = before ++ last :: after ∧ source = pushAll [last] ∧
          (∃ p ∈ last.2, n.Leads p.name) ∧ ∀ later ∈ after, ∀ p ∈ later.2, ¬ n.Leads p.name := by
  refine ⟨scope.consistent n, ?_⟩
  rcases inScope.exists_sublist with ⟨part, within, rfl⟩
  exact ⟨part, within, rfl, eq_of_pushAll_eq within,
    fun source => sourceOf?_pushAll_eq_some_iff⟩

/-- The highest of two sources with servers, and in it the source of the first server. -/
theorem views_agree_servers :
    let servers := Name.root.child "servers"
    let file := ("file", [Property.mk (servers.childAt 0) "a" ⟨"file", "servers[0]"⟩])
    let override := ("override", [Property.mk ((servers.child "0").child "HOST") "b"
      ⟨"override", "servers.0.HOST"⟩])
    (pushAll [file, override]).Scope (pushAll [override]) ∧
      (pushAll [override]).Consistent (servers.childAt 0) := by
  intro servers file override
  have outer : (pushAll [file, override]).Scope (pushAll [override]) :=
    .source .whole (sourceOf?_pushAll_eq_some_iff (n := servers).mpr
      ⟨[file], override, [], rfl, rfl, ⟨_, List.mem_singleton_self _, by decide +kernel⟩,
        fun later impossible => by cases impossible⟩)
  have inner : (pushAll [file, override]).Scope (pushAll [override]) :=
    .source outer (sourceOf?_pushAll_eq_some_iff (n := servers.childAt 0).mpr
      ⟨[], override, [], rfl, rfl, ⟨_, List.mem_singleton_self _, by decide +kernel⟩,
        fun later impossible => by cases impossible⟩)
  exact ⟨inner, (views_agree inner (servers.childAt 0)).1⟩

end Store
end PropertyBinding
