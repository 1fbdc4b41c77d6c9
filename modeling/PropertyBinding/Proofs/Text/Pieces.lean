import Mathlib.Data.List.Infix
import PropertyBinding.Text.Cut

/-!
# Pieces between separators

A text is cut at the first occurrence of a separator, and what is behind this occurrence is cut
in the same way.  Each text has exactly one such cutting, and cutting a text finds it.

A separator of several characters may overlap with what it separates, and then a text that is put
together from pieces is cut elsewhere: with the separator `__`, the pieces `A_` and `B` give
`A___B`, which is cut into `A` and `_B`.  This cannot happen if no piece contains the separator
or ends in one of its characters.  How the pieces begin does not matter, because the separator is
looked for from the left.
-/

namespace PropertyBinding
namespace Text

variable {α : Type} {separator piece rest cs : List α} {pieces : List (List α)}

/-- The pieces of a text between the occurrences of a separator, the first of which is taken
each time. -/
inductive Cut (separator : List α) : List α → List (List α) → Prop
  | last {piece : List α} (absent : ¬ separator <:+: piece) : Cut separator piece [piece]
  | first {piece rest : List α} {pieces : List (List α)}
      (earliest : ∀ front back, piece ++ separator ++ rest = front ++ separator ++ back →
        piece.length ≤ front.length)
      (behind : Cut separator rest pieces) :
      Cut separator (piece ++ separator ++ rest) (piece :: pieces)

theorem exists_earliest (found : separator <:+: cs) :
    ∃ piece rest, cs = piece ++ separator ++ rest ∧
      ∀ front back, cs = front ++ separator ++ back → piece.length ≤ front.length := by
  induction cs with
  | nil =>
      rw [List.infix_nil] at found
      exact ⟨[], [], by simp [found], fun front _ _ => Nat.zero_le front.length⟩
  | cons c cs inductionHypothesis =>
      by_cases here : separator <+: c :: cs
      · rcases here with ⟨rest, split⟩
        exact ⟨[], rest, split.symm, fun front _ _ => Nat.zero_le front.length⟩
      · have later := (List.infix_cons_iff.mp found).resolve_left here
        rcases inductionHypothesis later with ⟨piece, rest, split, earliest⟩
        refine ⟨c :: piece, rest, by rw [split]; rfl, fun front back same => ?_⟩
        cases front with
        | nil => exact absurd ⟨back, same.symm⟩ here
        | cons d front =>
            rw [List.length_cons, List.length_cons]
            exact Nat.succ_le_succ (earliest front back (List.cons.inj same).2)

/-- Each text can be cut. -/
theorem exists_cut (visible : separator ≠ []) (cs : List α) :
    ∃ pieces, Cut separator cs pieces := by
  by_cases found : separator <:+: cs
  · rcases exists_earliest found with ⟨piece, rest, split, earliest⟩
    have shorter : rest.length < cs.length := by
      have positive := List.length_pos_iff.mpr visible
      rw [split]
      simp only [List.length_append]
      omega
    rcases exists_cut visible rest with ⟨pieces, behind⟩
    rw [split] at earliest ⊢
    exact ⟨piece :: pieces, .first earliest behind⟩
  · exact ⟨[cs], .last found⟩
termination_by cs.length

/-! ## Cutting -/

section

variable [DecidableEq α]

theorem afterLead_append (lead rest : List α) : afterLead lead (lead ++ rest) = some rest := by
  induction lead with
  | nil => rfl
  | cons a lead inductionHypothesis =>
      rw [List.cons_append, afterLead, if_pos rfl]
      exact inductionHypothesis

theorem afterLead_eq_some_iff {lead : List α} :
    afterLead lead cs = some rest ↔ cs = lead ++ rest := by
  constructor
  · exact afterLead_eq_some
  · rintro rfl
    exact afterLead_append lead rest

theorem cutAtEach_go_append (passed : List α) :
    cutAtEach.go separator passed.length (passed ++ cs) = cutAtEach separator cs := by
  induction passed with
  | nil => rfl
  | cons c passed inductionHypothesis => exact inductionHypothesis

/-- There is an empty piece in front of a separator at the front. -/
theorem cutAtEach_append (visible : separator ≠ []) (rest : List α) :
    cutAtEach separator (separator ++ rest) = [] :: cutAtEach separator rest := by
  cases separator with
  | nil => exact absurd rfl visible
  | cons c passed =>
      have found := afterLead_append (c :: passed) rest
      rw [List.cons_append] at found
      rw [cutAtEach, List.cons_append, cutAtEach.go, found]
      exact congrArg (List.cons []) (cutAtEach_go_append passed)

/-- A character that no separator begins at belongs to the first piece. -/
theorem cutAtEach_cons {c : α} (other : ¬ separator <+: c :: cs) :
    cutAtEach separator (c :: cs) = consFirst c (cutAtEach separator cs) := by
  have missing : afterLead separator (c :: cs) = none := by
    rw [Option.eq_none_iff_forall_ne_some]
    intro rest found
    exact other ⟨rest, (afterLead_eq_some found).symm⟩
  rw [cutAtEach, cutAtEach.go, missing, cutAtEach]

theorem cutAtEach_of_absent (absent : ¬ separator <:+: piece) :
    cutAtEach separator piece = [piece] := by
  induction piece with
  | nil => rfl
  | cons c piece inductionHypothesis =>
      rw [List.infix_cons_iff, not_or] at absent
      rw [cutAtEach_cons absent.1, inductionHypothesis absent.2, consFirst]

theorem cutAtEach_of_earliest (visible : separator ≠ [])
    (earliest : ∀ front back, piece ++ separator ++ rest = front ++ separator ++ back →
      piece.length ≤ front.length) :
    cutAtEach separator (piece ++ separator ++ rest) = piece :: cutAtEach separator rest := by
  induction piece with
  | nil => exact cutAtEach_append visible rest
  | cons c piece inductionHypothesis =>
      have other : ¬ separator <+: c :: (piece ++ separator ++ rest) := by
        rintro ⟨back, same⟩
        have early := earliest [] back same.symm
        exact absurd early (Nat.not_succ_le_zero _)
      have further : ∀ front back, piece ++ separator ++ rest = front ++ separator ++ back →
          piece.length ≤ front.length := by
        intro front back same
        exact Nat.le_of_succ_le_succ (earliest (c :: front) back (congrArg (List.cons c) same))
      rw [List.cons_append, List.cons_append, cutAtEach_cons other, inductionHypothesis further,
        consFirst]

/-- A text has one cutting, and this is what cutting it gives. -/
theorem cutAtEach_eq_iff (visible : separator ≠ []) :
    cutAtEach separator cs = pieces ↔ Cut separator cs pieces := by
  have cutting {cs pieces} (cut : Cut separator cs pieces) : cutAtEach separator cs = pieces := by
    induction cut with
    | last absent => exact cutAtEach_of_absent absent
    | first earliest _ inductionHypothesis =>
        rw [cutAtEach_of_earliest visible earliest, inductionHypothesis]
  constructor
  · rintro rfl
    rcases exists_cut visible cs with ⟨pieces, cut⟩
    rwa [cutting cut]
  · exact cutting

end

/-! ## Joining -/

theorem intercalate_cons (separator piece : List α) (pieces : List (List α)) :
    separator.intercalate (piece :: pieces) = piece ++ pieces.flatMap (separator ++ ·) := by
  induction pieces generalizing piece with
  | nil => simp
  | cons next pieces inductionHypothesis =>
      rw [List.intercalate_cons_cons, inductionHypothesis, List.flatMap_cons, List.append_assoc,
        List.append_assoc]

/-- A separator cannot begin in a piece in front of it that does not contain it, unless the piece
ends in one of its characters. -/
theorem length_le_of_append_eq {front back : List α} (apart : ¬ separator <:+: piece)
    (ends : ∀ c ∈ piece.getLast?, c ∉ separator)
    (same : piece ++ separator ++ rest = front ++ separator ++ back) :
    piece.length ≤ front.length := by
  rw [List.append_assoc, List.append_assoc, List.append_eq_append_iff] at same
  rcases same with ⟨between, rfl, _⟩ | ⟨inside, rfl, same⟩
  · simp
  · rcases List.append_eq_append_iff.mp same with ⟨behind, whole, _⟩ | ⟨behind, begins, _⟩
    · rw [whole, ← List.append_assoc] at apart
      exact absurd ⟨front, behind, rfl⟩ apart
    · -- The separator begins with the end of the piece.
      rcases inside.eq_nil_or_concat' with rfl | ⟨_, c, rfl⟩
      · simp
      · exact absurd (by simp [begins]) (ends c (by simp))

/-- Pieces that are joined are the ones that their text is cut into. -/
theorem cut_intercalate (nonempty : pieces ≠ []) (apart : ∀ piece ∈ pieces, ¬ separator <:+: piece)
    (ends : ∀ piece ∈ pieces, ∀ c ∈ piece.getLast?, c ∉ separator) :
    Cut separator (separator.intercalate pieces) pieces := by
  induction pieces with
  | nil => exact absurd rfl nonempty
  | cons piece others inductionHypothesis =>
      rw [List.forall_mem_cons] at apart ends
      cases others with
      | nil =>
          rw [List.intercalate_singleton]
          exact .last apart.1
      | cons next later =>
          rw [List.intercalate_cons_cons]
          refine .first (fun _ _ => length_le_of_append_eq apart.1 ends.1) ?_
          exact inductionHypothesis (List.cons_ne_nil _ _) apart.2 ends.2

/-- A piece that ends in a character of the separator is cut elsewhere. -/
example : cutAtEach "__".toList "A___B".toList = ["A".toList, "_B".toList] := by decide

end Text
end PropertyBinding
