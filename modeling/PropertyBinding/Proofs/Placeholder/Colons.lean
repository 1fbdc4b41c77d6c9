import PropertyBinding.Proofs.Placeholder.Fragments

/-!
# Colons inside braces

The body of a placeholder is found by one scan and its fallback by another.  Each of them keeps
count of the braces that are open, on its own and from its own starting value, and nothing in
them says which braces belong together.

Two braces match if the text between them is balanced, and a colon is enclosed if a matching pair
stands around it.  Both scans agree with this.  The first finds the balanced text that is followed
by a closing brace, of which there is only one.  The second passes over the colons that are
enclosed and stops at the first one that is not.  So all parts are balanced in turn, and a
placeholder in a key or in a fallback is cut off by the same scans.
-/

namespace PropertyBinding
namespace Placeholder

/-- The colon between two parts of a text stands inside braces: a brace in front of it and one
behind it match. -/
def Enclosed (front back : List Char) : Prop :=
  ∃ before opened closed after, front = before ++ '{' :: opened ∧ back = closed ++ '}' :: after ∧
    Balanced (opened ++ ':' :: closed)

variable {cs body key front back : List Char} {fallback : Option (List Char)}

/-! ## Bodies -/

theorem cutBody_eq_some_iff {rest : List Char} :
    cutBody cs = some (body, rest) ↔ Balanced body ∧ cs = body ++ '}' :: rest := by
  constructor
  · intro cut
    exact ⟨balanced_of_cutBody cut, eq_of_cutBody cut⟩
  · rintro ⟨balanced, rfl⟩
    exact cutBody_of_balanced balanced rest

theorem cutBody_eq_none_iff :
    cutBody cs = none ↔ ¬ ∃ body rest, Balanced body ∧ cs = body ++ '}' :: rest := by
  simp only [Option.eq_none_iff_forall_ne_some, Prod.forall, ne_eq, cutBody_eq_some_iff, not_exists]

/-! ## Braces that are not closed -/

theorem Settled.balanced (settled : Settled cs) (closed : cs.count '}' = cs.count '{') :
    Balanced cs := by
  refine ⟨?_, closed⟩
  rintro front ⟨back, rfl⟩
  have bound := settled back (List.suffix_append front back)
  simp only [List.count_append] at closed
  omega

theorem settled_cons {c : Char} (settled : Settled cs)
    (whole : (c :: cs).count '{' ≤ (c :: cs).count '}') : Settled (c :: cs) := by
  intro back ends
  rcases List.suffix_cons_iff.mp ends with rfl | later
  · exact whole
  · exact settled back later

/-- Of the braces that are opened and not closed, the last one is followed by balanced text. -/
theorem settled_or_unclosed (cs : List Char) :
    Settled cs ∨ ∃ before opened, cs = before ++ '{' :: opened ∧ Balanced opened := by
  induction cs with
  | nil =>
      left
      intro back ends
      rw [List.suffix_nil.mp ends]
      exact Nat.le_refl _
  | cons c cs inductionHypothesis =>
      rcases inductionHypothesis with settled | ⟨before, opened, rfl, balanced⟩
      · have bound := settled cs List.suffix_rfl
        by_cases opening : c = '{'
        · subst opening
          by_cases closed : cs.count '}' = cs.count '{'
          · exact Or.inr ⟨[], cs, rfl, settled.balanced closed⟩
          · left
            apply settled_cons settled
            rw [List.count_cons_self, List.count_cons_of_ne (by decide)]
            omega
        · left
          apply settled_cons settled
          rw [List.count_cons_of_ne opening]
          exact Nat.le_trans bound List.count_le_count_cons
      · exact Or.inr ⟨c :: before, opened, rfl, balanced⟩

/-! ## Enclosed colons -/

/-- In front of an enclosed colon some brace is open. -/
theorem Enclosed.not_balanced (enclosed : Enclosed front back) : ¬ Balanced front := by
  rcases enclosed with ⟨before, opened, closed, after, rfl, rfl, inside⟩
  intro balanced
  have early := balanced.opened before (List.prefix_append _ _)
  have within := inside.opened opened (List.prefix_append _ _)
  have whole := balanced.closed
  simp only [List.count_append, List.count_cons_self, List.count_cons_of_ne (by decide : '{' ≠ '}')]
    at whole
  omega

theorem Enclosed.append (enclosed : Enclosed front back) (more : List Char) :
    Enclosed front (back ++ more) := by
  rcases enclosed with ⟨before, opened, closed, after, rfl, rfl, inside⟩
  exact ⟨before, opened, closed, after ++ more, rfl, by simp, inside⟩

/-- A colon of a balanced text is outside all braces if the text in front of it is balanced, and
enclosed otherwise. -/
theorem enclosed_iff (balanced : Balanced (front ++ ':' :: back)) :
    Enclosed front back ↔ ¬ Balanced front := by
  constructor
  · exact Enclosed.not_balanced
  · intro unbalanced
    have opened : ∀ part, part <+: front → part.count '}' ≤ part.count '{' := fun part leads =>
      balanced.opened part (leads.trans (List.prefix_append _ _))
    have surplus : front.count '}' < front.count '{' := by
      apply Nat.lt_of_le_of_ne (opened front List.prefix_rfl)
      intro closed
      exact unbalanced ⟨opened, closed⟩
    -- What is open in front of the colon is closed behind it.
    have deficit : back.count '{' < back.count '}' := by
      have closed := balanced.closed
      simp only [List.count_append, List.count_cons_of_ne (by decide : ':' ≠ '{'),
        List.count_cons_of_ne (by decide : ':' ≠ '}')] at closed
      omega
    rcases settled_or_unclosed front with settled | ⟨before, inner, split, innerBalanced⟩
    · have bound := settled front List.suffix_rfl
      omega
    cases cut : cutBody back with
    | none =>
        have bound := count_of_cutBodyWithin_eq_none cut
        omega
    | some parts =>
        rcases parts with ⟨closed, after⟩
        rcases cutBody_eq_some_iff.mp cut with ⟨closedBalanced, splitBack⟩
        refine ⟨before, inner, closed, after, split, splitBack, ?_⟩
        exact innerBalanced.append (balanced_colon.append closedBalanced)

/-! ## Keys and fallbacks -/

/-- A colon becomes part of the key only where some brace is open. -/
theorem depth_of_splitFallbackWithin {depth : Int}
    (split : splitFallbackWithin depth body = (key, fallback))
    (colon : key = front ++ ':' :: back) :
    depth + front.count '{' - front.count '}' ≠ 0 := by
  induction body generalizing depth key front with
  | nil =>
      cases split
      exact absurd colon.symm (by simp)
  | cons c cs inductionHypothesis =>
      by_cases free : c = ':' ∧ depth = 0
      · rw [splitFallbackWithin, if_pos free] at split
        cases split
        exact absurd colon.symm (by simp)
      · rcases exists_of_splitFallbackWithin free split with ⟨part, rfl, later⟩
        cases front with
        | nil =>
            have first := (List.cons.inj colon).1
            intro zero
            exact free ⟨first, by simpa using zero⟩
        | cons d front =>
            rcases List.cons.inj colon with ⟨rfl, further⟩
            rw [← depthAfter_add_count]
            exact inductionHypothesis later further

/-- All colons of the key are enclosed. -/
theorem enclosed_of_splitFallback (balanced : Balanced body)
    (split : splitFallback body = (key, fallback)) (colon : key = front ++ ':' :: back) :
    Enclosed front back := by
  have keyBalanced := (balanced_of_splitFallback balanced split).1
  have open_braces := depth_of_splitFallbackWithin split colon
  rw [colon] at keyBalanced
  apply (enclosed_iff keyBalanced).mpr
  intro frontBalanced
  have closed := frontBalanced.closed
  omega

/-- There is no fallback exactly when all colons of the body are enclosed. -/
theorem splitFallback_eq_none_iff (balanced : Balanced body)
    (split : splitFallback body = (key, fallback)) :
    fallback = none ↔ ∀ front back, body = front ++ ':' :: back → Enclosed front back := by
  have parts := joinFallback_of_splitFallback split
  constructor
  · rintro rfl front back colon
    have whole : key = body := parts
    exact enclosed_of_splitFallback balanced split (whole.trans colon)
  · intro enclosed
    cases fallback with
    | none => rfl
    | some fallback =>
        have whole : key ++ ':' :: fallback = body := parts
        have keyBalanced := (balanced_of_splitFallback balanced split).1
        exact absurd keyBalanced (enclosed key fallback whole.symm).not_balanced

/-- A balanced text that is followed by a closing brace is cut off with that brace, and the rest
is left.  No other text is ever cut off, and nothing is cut off exactly when no balanced text and
closing brace stand in front.  A balanced body is split at its first colon outside all braces,
into balanced parts, and stays whole exactly when it has no such colon. -/
theorem bodies_are_cut :
    (∀ body rest, Balanced body → cutBody (body ++ '}' :: rest) = some (body, rest)) ∧
    (∀ cs, cutBody cs = none ↔ ¬ ∃ body rest, Balanced body ∧ cs = body ++ '}' :: rest) ∧
    (∀ cs body rest, cutBody cs = some (body, rest) →
      Balanced body ∧ cs = body ++ '}' :: rest) ∧
    ∀ body key fallback, Balanced body → splitFallback body = (key, fallback) →
      joinFallback key fallback = body ∧
      Balanced key ∧ (∀ default, fallback = some default → Balanced default) ∧
      (∀ front back, key = front ++ ':' :: back → Enclosed front back) ∧
      (∀ default, fallback = some default → ¬ Enclosed key default ∧
        ∀ front back, key = front ++ ':' :: back → Enclosed front (back ++ ':' :: default)) ∧
      (fallback = none ↔ ∀ front back, body = front ++ ':' :: back → Enclosed front back) := by
  refine ⟨fun body rest balanced => cutBody_of_balanced balanced rest,
    fun cs => cutBody_eq_none_iff, fun cs body rest => cutBody_eq_some_iff.mp, ?_⟩
  intro body key fallback balanced split
  have parts := joinFallback_of_splitFallback split
  have halves := balanced_of_splitFallback balanced split
  have colons : ∀ front back, key = front ++ ':' :: back → Enclosed front back :=
    fun front back => enclosed_of_splitFallback balanced split
  refine ⟨parts, halves.1, halves.2, colons, fun default _ => ⟨?_, ?_⟩,
    splitFallback_eq_none_iff balanced split⟩
  · exact fun enclosed => enclosed.not_balanced halves.1
  · exact fun front back colon => (colons front back colon).append _

/-- A key that contains a placeholder with a fallback, in front of a fallback of its own. -/
theorem bodies_are_cut_nested :
    let key := "url.$\x7benv:dev\x7d".toList
    let default := "$\x7bhost:local\x7d:80".toList
    Balanced (key ++ ':' :: default) ∧
      cutBody (key ++ ':' :: default ++ '}' :: "/api\x7d".toList) =
        some (key ++ ':' :: default, "/api\x7d".toList) ∧
      splitFallback (key ++ ':' :: default) = (key, some default) ∧
      Enclosed "url.$\x7benv".toList "dev\x7d".toList ∧ ¬ Enclosed key default := by
  intro key default
  rcases bodies_are_cut with ⟨found, _, _, splits⟩
  have balanced : Balanced (key ++ ':' :: default) := by decide +kernel
  have split : splitFallback (key ++ ':' :: default) = (key, some default) := by decide +kernel
  rcases splits _ _ _ balanced split with ⟨_, _, _, colons, first, _⟩
  exact ⟨balanced, found _ _ balanced, split, colons _ _ (by decide +kernel),
    (first default rfl).1⟩

end Placeholder
end PropertyBinding
