import PropertyBinding.Store.Basic

/-!
# The scan for what lies below a name

A layer finds the properties below a name by one scan of its sorted list, which
starts at the name and stops at the first property that is not below it.  The scan
is only as good as the order: it has to keep the names below a name together.

The order does.  It compares the keys of names element by element, so whatever
stands between a name and one below it has to begin with all elements of the name.
Siblings whose text continues that of the last element, and elements without any
relaxed text, are therefore no exceptions, and the scan is the filter that picks
the descendants out of the whole list.
-/

namespace PropertyBinding

/-! ## Names -/

namespace Name

theorem same_refl (a : Name) : a.Same a := rfl

theorem Same.symm {a b : Name} (same : a.Same b) : b.Same a := Eq.symm same

theorem Same.trans {a b c : Name} (first : a.Same b) (second : b.Same c) : a.Same c :=
  Eq.trans first second

theorem Same.size {a b : Name} (same : a.Same b) : a.size = b.size := by
  rw [← length_key a, ← length_key b, same]

theorem Same.leads {a b : Name} (same : a.Same b) : a.Leads b := by
  unfold Leads
  exact same ▸ List.prefix_rfl

theorem Leads.size_le {a b : Name} (leads : a.Leads b) : a.size ≤ b.size := by
  simpa using List.IsPrefix.length_le leads

theorem Leads.trans {a b c : Name} (first : a.Leads b) (second : b.Leads c) : a.Leads c :=
  List.IsPrefix.trans first second

/-- A name leads another exactly when it is the same name or lies above it. -/
theorem leads_iff {a b : Name} : a.Leads b ↔ a.Same b ∨ a.IsAncestorOf b := by
  constructor
  · intro leads
    rcases Nat.lt_or_eq_of_le leads.size_le with shorter | equal
    · exact Or.inr ⟨shorter, leads⟩
    · exact Or.inl (List.IsPrefix.eq_of_length leads (by simpa using equal))
  · rintro (same | above)
    · exact same.leads
    · exact above.2

theorem IsAncestorOf.trans_leads {a b c : Name} (above : a.IsAncestorOf b) (leads : b.Leads c) :
    a.IsAncestorOf c :=
  ⟨Nat.lt_of_lt_of_le above.1 leads.size_le, above.2.trans leads⟩

/-- A list that continues another comes after it. -/
private theorem lt_of_prefix {a b : List String} (leads : a <+: b) (shorter : a.length < b.length) :
    a < b := by
  rcases leads with ⟨rest, rfl⟩
  induction a with
  | nil =>
      cases rest with
      | nil => exact absurd shorter (Nat.lt_irrefl _)
      | cons first rest => exact List.nil_lt_cons first rest
  | cons first a inductionHypothesis =>
      simp only [List.cons_append, List.length_cons, Nat.add_lt_add_iff_right] at shorter
      exact List.cons_lt_cons_iff.mpr (Or.inr ⟨rfl, inductionHypothesis shorter⟩)

/-- A name comes before all names below it. -/
theorem IsAncestorOf.lt {a b : Name} (above : a.IsAncestorOf b) : a < b :=
  lt_of_prefix above.2 (by simpa using above.1)

/-- What stands between a list and a continuation of it continues it too. -/
private theorem prefix_of_between {a b c : List String} (leads : a <+: c) (after : a < b)
    (before : b < c) : a <+: b := by
  induction a generalizing b c with
  | nil => exact List.nil_prefix
  | cons first a inductionHypothesis =>
      cases b with
      | nil => exact absurd after (List.not_lt_nil _)
      | cons second b =>
          cases c with
          | nil => exact absurd before (List.not_lt_nil _)
          | cons third c =>
              rcases List.cons_prefix_cons.mp leads with ⟨rfl, continued⟩
              rcases List.cons_lt_cons_iff.mp after with less | ⟨rfl, behind⟩
              · rcases List.cons_lt_cons_iff.mp before with greater | ⟨rfl, _⟩
                · exact absurd greater (String.lt_asymm less)
                · exact absurd less (String.lt_irrefl _)
              · rcases List.cons_lt_cons_iff.mp before with greater | ⟨_, ahead⟩
                · exact absurd greater (String.lt_irrefl _)
                · exact List.cons_prefix_cons.mpr ⟨rfl, inductionHypothesis continued behind ahead⟩

/-- The names below a name stand together in the order. -/
theorem IsAncestorOf.of_between {a b c : Name} (above : a.IsAncestorOf c) (after : a < b)
    (before : b < c) : a.IsAncestorOf b := by
  have leads : a.Leads b := prefix_of_between above.2 after before
  rcases leads_iff.mp leads with same | below
  · exact absurd after same.not_lt
  · exact below

end Name

/-! ## The scan -/

/-- Behind a name, the scan stops where the names below it end. -/
theorem takeWhile_below {n : Name} {properties : List Property} (sorted : Sorted properties)
    (behind : ∀ p ∈ properties, n < p.name) :
    properties.takeWhile (fun p => n.IsAncestorOf p.name) =
      properties.filter fun p => n.IsAncestorOf p.name := by
  induction properties with
  | nil => rfl
  | cons p rest inductionHypothesis =>
      have parts := List.pairwise_cons.mp sorted
      by_cases below : n.IsAncestorOf p.name
      · simp only [List.takeWhile_cons, List.filter_cons, below, decide_true, if_true]
        rw [inductionHypothesis parts.2 fun q listed => behind q (List.mem_cons_of_mem _ listed)]
      · simp only [List.takeWhile_cons, List.filter_cons, below, decide_false, Bool.false_eq_true,
          if_false]
        symm
        rw [List.filter_eq_nil_iff]
        intro q listed late
        exact below ((of_decide_eq_true late).of_between (behind p List.mem_cons_self)
          (parts.1 q listed))

/-- From a name on, the name itself is skipped. -/
private theorem takeWhile_dropWhile_same {n : Name} {properties : List Property}
    (sorted : Sorted properties) (notBefore : ∀ p ∈ properties, ¬ p.name < n) :
    (properties.dropWhile fun p => n.Same p.name).takeWhile (fun p => n.IsAncestorOf p.name) =
      properties.filter fun p => n.IsAncestorOf p.name := by
  induction properties with
  | nil => rfl
  | cons p rest inductionHypothesis =>
      have parts := List.pairwise_cons.mp sorted
      by_cases same : n.Same p.name
      · have notBelow : ¬ n.IsAncestorOf p.name :=
          fun below => Nat.lt_irrefl _ (same.size ▸ below.1)
        simp only [List.dropWhile_cons, List.filter_cons, same, notBelow, decide_true,
          decide_false, Bool.false_eq_true, if_true, if_false]
        exact inductionHypothesis parts.2 fun q listed =>
          notBefore q (List.mem_cons_of_mem _ listed)
      · have behind : n < p.name := by
          by_cases before : n < p.name
          · exact before
          · exact absurd (Name.same_of_not_lt before (notBefore p List.mem_cons_self)) same
        simp only [List.dropWhile_cons, same, decide_false, Bool.false_eq_true, if_false]
        apply takeWhile_below sorted
        intro q listed
        rcases List.mem_cons.mp listed with rfl | later
        · exact behind
        · exact Name.lt_trans behind (parts.1 q later)

namespace Layer

/-- The scan finds exactly the properties below a name, in order. -/
theorem below_eq_filter (l : Layer) (n : Name) :
    l.below n = l.properties.filter fun p => n.IsAncestorOf p.name := by
  have scan : ∀ properties : List Property, Sorted properties →
      (((properties.dropWhile fun p => p.name < n).dropWhile fun p => n.Same p.name).takeWhile
        fun p => n.IsAncestorOf p.name) = properties.filter fun p => n.IsAncestorOf p.name := by
    intro properties sorted
    induction properties with
    | nil => rfl
    | cons p rest inductionHypothesis =>
        have parts := List.pairwise_cons.mp sorted
        by_cases before : p.name < n
        · have notBelow : ¬ n.IsAncestorOf p.name :=
            fun below => Name.lt_irrefl _ (Name.lt_trans before below.lt)
          rw [List.dropWhile_cons_of_pos (by simpa using before),
            List.filter_cons_of_neg (by simpa using notBelow)]
          exact inductionHypothesis parts.2
        · rw [List.dropWhile_cons_of_neg (by simpa using before)]
          apply takeWhile_dropWhile_same sorted
          intro q listed
          rcases List.mem_cons.mp listed with rfl | later
          · exact before
          · exact fun early => before (Name.lt_trans (parts.1 q later) early)
  exact scan l.properties l.sorted

theorem mem_below {l : Layer} {n : Name} {p : Property} :
    p ∈ l.below n ↔ p ∈ l.properties ∧ n.IsAncestorOf p.name := by
  rw [below_eq_filter, List.mem_filter, decide_eq_true_eq]

end Layer
end PropertyBinding
