import PropertyBinding.Proofs.Name.Spelling
import PropertyBinding.Proofs.Source.Loading

/-!
# Names below a name as a range

A layer keeps its properties in the order of their names, and a search for what lies below a name
reads one range of them.  That the range is the right one rests on two facts about the order.  It
ranks all names, and two of them equally if and only if they are the same name, so a name has one
place in a layer however it is spelled.  And it has no other names among those below a name: what
comes after a name and before one below it lies below it too.

Both hold for all names, as the order only compares texts of elements one after another.  A text
that continues another is a different one, and an empty text is a text like all others, so neither
`serverless` nor an element that consists of hyphens is an exception.
-/

namespace PropertyBinding

/-! ## The order of names -/

namespace Name

variable {a b c d : Name}

theorem lt_asymm (before : a < b) : ¬ b < a :=
  fun after => lt_irrefl a (lt_trans before after)

theorem compare_eq_lt_iff : compare a b = .lt ↔ a < b := by
  rw [compare_def]
  by_cases before : a < b
  · simp [before]
  · by_cases same : a.Same b <;> simp [before, same]

theorem compare_eq_gt_iff : compare a b = .gt ↔ b < a := by
  rw [compare_def]
  constructor
  · intro greater
    by_contra notAfter
    by_cases before : a < b
    · simp [before] at greater
    · simp [before, same_of_not_lt before notAfter] at greater
  · intro after
    have different : ¬ a.Same b := fun same => same.symm.not_lt after
    rw [if_neg (lt_asymm after), if_neg different]

/-- How two names compare does not depend on their spelling. -/
theorem compare_congr (same : a.Same c) (sameToo : b.Same d) : compare a b = compare c d := by
  have before : a < b ↔ c < d := by rw [lt_def, lt_def, same, sameToo]
  have equal : a.Same b ↔ c.Same d :=
    ⟨fun h => (same.symm.trans h).trans sameToo, fun h => (same.trans h).trans sameToo.symm⟩
  simp only [compare_def, before, equal]

/-- From a name up to one below it there is the name itself and what lies below it. -/
theorem IsAncestorOf.leads_of_between (above : a.IsAncestorOf c) (notBefore : ¬ b < a)
    (notAfter : ¬ c < b) : a.Same b ∨ a.IsAncestorOf b := by
  by_cases after : a < b
  · right
    by_cases before : b < c
    · exact above.of_between after before
    · exact above.trans_leads (same_of_not_lt before notAfter).symm.leads
  · exact Or.inl (same_of_not_lt after notBefore)

end Name

/-! ## The range -/

variable {properties : List Property}

/-- A sorted list has two parts, up to a name and behind it. -/
theorem Sorted.exists_split (sorted : Sorted properties) (n : Name) :
    ∃ before after, properties = before ++ after ∧ (∀ p ∈ before, ¬ n < p.name) ∧
      ∀ p ∈ after, n < p.name := by
  induction properties with
  | nil => exact ⟨[], [], rfl, List.forall_mem_nil _, List.forall_mem_nil _⟩
  | cons p rest inductionHypothesis =>
      have parts := List.pairwise_cons.mp sorted
      by_cases behind : n < p.name
      · refine ⟨[], p :: rest, rfl, List.forall_mem_nil _, List.forall_mem_cons.mpr ⟨behind, ?_⟩⟩
        exact fun q listed => Name.lt_trans behind (parts.1 q listed)
      · rcases inductionHypothesis parts.2 with ⟨before, after, rfl, early, late⟩
        exact ⟨p :: before, after, rfl, List.forall_mem_cons.mpr ⟨behind, early⟩, late⟩

/-- In a sorted list what lies below a name stands together, right behind the name. -/
theorem Sorted.exists_around (sorted : Sorted properties) (n : Name) :
    ∃ before after, properties =
        before ++ properties.filter (fun p => n.IsAncestorOf p.name) ++ after ∧
      (∀ p ∈ before, ¬ n < p.name) ∧ ∀ p ∈ after, n < p.name := by
  rcases sorted.exists_split n with ⟨before, rest, rfl, early, late⟩
  have noneEarly : before.filter (fun p => n.IsAncestorOf p.name) = [] := by
    apply List.filter_eq_nil_iff.mpr
    intro p listed found
    exact early p listed (of_decide_eq_true found).lt
  have first := takeWhile_below (List.pairwise_append.mp sorted).2.1 late
  refine ⟨before, rest.dropWhile fun p => n.IsAncestorOf p.name, ?_, early, fun p listed => ?_⟩
  · rw [List.filter_append, noneEarly, List.nil_append, ← first, List.append_assoc,
      List.takeWhile_append_dropWhile]
  · exact late p ((List.dropWhile_suffix _).subset listed)

namespace Layer

theorem sorted_below (l : Layer) (n : Name) : Sorted (l.below n) := by
  rw [below_eq_filter]
  exact List.Pairwise.filter _ l.sorted

/-- Of the properties supplied under a name the layer has the last one. -/
theorem mem_properties_ofList {source : String} {p : Property} :
    p ∈ (ofList source properties).properties ↔ p.LastUnder p.name properties := by
  rw [Property.lastUnder_iff, ← get?_ofList source, get?_eq_some_iff]
  exact ⟨fun listed => ⟨listed, Name.same_refl p.name⟩, And.left⟩

/-- The scan of a layer finds the properties below a name, in order, and no others, and they are a
range of the layer.  In a layer made of any properties these are the last ones under their names.
Names are ranked by a total order, in which those are equal that are the same name, and which does
not depend on spelling.  In this order a name comes before all names below it, and from the name up
to one below it there are no others. -/
theorem below_is_range :
    (∀ (l : Layer) (n : Name),
      l.below n = l.properties.filter (fun p => n.IsAncestorOf p.name) ∧ Sorted (l.below n) ∧
        ∃ before after, l.properties = before ++ l.below n ++ after ∧
          (∀ p ∈ before, ¬ n < p.name) ∧ ∀ p ∈ after, n < p.name) ∧
    (∀ source properties (n : Name) (p : Property), p ∈ (ofList source properties).below n ↔
      p.LastUnder p.name properties ∧ n.IsAncestorOf p.name) ∧
    (∀ a b : Name, (compare a b = .lt ↔ a < b) ∧ (compare a b = .eq ↔ a.Same b) ∧
      (compare a b = .gt ↔ b < a)) ∧
    (∀ a b c : Name, a < b → b < c → a < c) ∧
    (∀ a b c d : Name, a.Same c → b.Same d → compare a b = compare c d) ∧
    ∀ a c : Name, a.IsAncestorOf c →
      a < c ∧ ∀ b, ¬ b < a → ¬ c < b → a.Same b ∨ a.IsAncestorOf b := by
  refine ⟨fun l n => ⟨l.below_eq_filter n, l.sorted_below n, ?_⟩, ?_,
    fun a b => ⟨Name.compare_eq_lt_iff, Name.compare_eq_iff, Name.compare_eq_gt_iff⟩,
    fun a b c => Name.lt_trans, fun a b c d => Name.compare_congr,
    fun a c above => ⟨above.lt, fun b => above.leads_of_between⟩⟩
  · rw [below_eq_filter]
    exact l.sorted.exists_around n
  · intro source properties n p
    rw [mem_below, mem_properties_ofList]

/-- A name in two spellings, an element without relaxed text, and a name that continues another. -/
theorem below_is_range_server :
    let server : Name := ⟨[.dotted "server"]⟩
    let port : Name := ⟨[.dotted "Server", .dotted "PORT"]⟩
    let hyphens : Name := ⟨[.dotted "server", .dotted "--"]⟩
    let given (n : Name) (value : String) : Property := ⟨n, value, ⟨"defaults", value⟩⟩
    let supplied := [given ⟨[.dotted "serverless"]⟩ "a",
      given ⟨[.dotted "server", .dotted "port"]⟩ "b", given server "c", given port "d",
      given hyphens "e"]
    (server.IsAncestorOf port ∧ ¬ hyphens < server ∧ ¬ port < hyphens ∧
      (server.Same hyphens ∨ server.IsAncestorOf hyphens)) ∧
      (ofList "defaults" supplied).below server = [given hyphens "e", given port "d"] ∧
      (given port "d").LastUnder port supplied := by
  intro server port hyphens given supplied
  rcases below_is_range with ⟨scan, collected, _, _, _, ranked⟩
  have above : server.IsAncestorOf port := by decide +kernel
  have notBefore : ¬ hyphens < server := by decide +kernel
  have notAfter : ¬ port < hyphens := by decide +kernel
  have found : (ofList "defaults" supplied).below server = [given hyphens "e", given port "d"] := by
    rw [(scan _ server).1]
    decide +kernel
  have last := (collected "defaults" supplied server (given port "d")).mp (by simp [found])
  exact ⟨⟨above, notBefore, notAfter, (ranked server port above).2 hyphens notBefore notAfter⟩,
    found, last.1⟩

end Layer
end PropertyBinding
