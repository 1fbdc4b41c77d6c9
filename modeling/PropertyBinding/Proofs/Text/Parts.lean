import Mathlib.Data.List.Forall2
import Mathlib.Data.List.TakeWhile
import PropertyBinding.Bind.Scalar

/-!
# Lists written with commas

A value with commas is cut at every comma, and each part loses the blanks around it.  Cutting
undoes joining, because no part has a comma of its own.  Only one list is lost on the way: a
single empty text is written like an empty list.
-/

namespace PropertyBinding
namespace Text

variable {α : Type} [DecidableEq α] {separator : α} {piece rest : List α}

/-! ## Cutting -/

theorem cutAt_of_not_mem (plain : separator ∉ piece) : cutAt separator piece = [piece] := by
  induction piece with
  | nil => rfl
  | cons c cs inductionHypothesis =>
      rw [cutAt, if_neg (List.ne_of_not_mem_cons plain).symm,
        inductionHypothesis (List.not_mem_of_not_mem_cons plain)]
      rfl

theorem cutAt_append_cons (plain : separator ∉ piece) :
    cutAt separator (piece ++ separator :: rest) = piece :: cutAt separator rest := by
  induction piece with
  | nil => exact if_pos rfl
  | cons c cs inductionHypothesis =>
      rw [List.cons_append, cutAt, if_neg (List.ne_of_not_mem_cons plain).symm,
        inductionHypothesis (List.not_mem_of_not_mem_cons plain)]
      rfl

/-- Cutting undoes joining. -/
theorem cutAt_intercalate {pieces : List (List α)} (nonempty : pieces ≠ [])
    (plain : ∀ piece ∈ pieces, separator ∉ piece) :
    cutAt separator ([separator].intercalate pieces) = pieces := by
  induction pieces with
  | nil => exact absurd rfl nonempty
  | cons piece others inductionHypothesis =>
      cases others with
      | nil =>
          rw [List.intercalate_singleton]
          exact cutAt_of_not_mem (plain piece List.mem_cons_self)
      | cons next later =>
          rw [List.intercalate_cons_cons, List.append_assoc, List.singleton_append,
            cutAt_append_cons (plain piece List.mem_cons_self),
            inductionHypothesis (List.cons_ne_nil _ _) fun piece listed =>
              plain piece (List.mem_cons_of_mem _ listed)]

/-! ## Blanks -/

variable {front back cs : List Char}

theorem trimEndChars_append (blank : ∀ c ∈ back, isBlank c = true) :
    trimEndChars (cs ++ back) = trimEndChars cs := by
  have reversed : ∀ c ∈ back.reverse, isBlank c = true := fun c listed =>
    blank c (List.mem_reverse.mp listed)
  rw [trimEndChars, List.reverse_append, List.dropWhile_append_of_pos reversed, trimEndChars]

/-- Blanks around a text do not matter to what is left without blanks. -/
theorem trimChars_append (blank : ∀ c ∈ front, isBlank c = true)
    (blankToo : ∀ c ∈ back, isBlank c = true) :
    trimChars (front ++ cs ++ back) = trimChars cs := by
  rw [trimChars, List.append_assoc, List.dropWhile_append_of_pos blank, List.dropWhile_append,
    trimChars]
  by_cases nothing : (cs.dropWhile isBlank).isEmpty = true
  · rw [if_pos nothing, List.isEmpty_iff.mp nothing, List.dropWhile_eq_nil_iff.mpr blankToo]
  · rw [if_neg nothing, trimEndChars_append blankToo]

/-- Nothing is left of blanks only. -/
theorem isBlank_of_trimChars_eq_nil (nothing : trimChars cs = []) :
    ∀ c ∈ cs, isBlank c = true := by
  have tail : ∀ c ∈ cs.dropWhile isBlank, isBlank c = true := by
    intro c listed
    exact List.dropWhile_eq_nil_iff.mp (List.reverse_eq_nil_iff.mp nothing) c
      (List.mem_reverse.mpr listed)
  intro c listed
  rw [← List.takeWhile_append_dropWhile (p := isBlank) (l := cs)] at listed
  rcases List.mem_append.mp listed with early | late
  · exact List.mem_takeWhile_imp early
  · exact tail c late

/-- The text with blanks around it. -/
def Padded (text piece : String) : Prop :=
  ∃ front back, (∀ c ∈ front, isBlank c = true) ∧ (∀ c ∈ back, isBlank c = true) ∧
    piece = String.ofList (front ++ text.toList ++ back)

variable {text written : String} {texts pieces : List String}

theorem Padded.trim_eq (padded : Padded text written) : trim written = trim text := by
  rcases padded with ⟨front, back, blank, blankToo, rfl⟩
  rw [trim, String.toList_ofList, trimChars_append blank blankToo, trim]

/-- Characters that are no blanks are those of the text. -/
theorem Padded.mem (padded : Padded text written) {c : Char} (shown : isBlank c = false)
    (member : c ∈ written.toList) : c ∈ text.toList := by
  rcases padded with ⟨front, back, blank, blankToo, rfl⟩
  rw [String.toList_ofList, List.mem_append, List.mem_append] at member
  rcases member with (early | own) | late
  · rw [blank c early] at shown
    cases shown
  · exact own
  · rw [blankToo c late] at shown
    cases shown

theorem not_mem_of_padded {c : Char} (shown : isBlank c = false)
    (absent : ∀ t ∈ texts, c ∉ t.toList) (padded : List.Forall₂ Padded texts pieces) :
    ∀ piece ∈ pieces, c ∉ piece.toList := by
  induction padded with
  | nil => exact fun _ impossible => absurd impossible List.not_mem_nil
  | cons first _ inductionHypothesis =>
      refine List.forall_mem_cons.mpr ⟨fun member => ?_, inductionHypothesis fun t listed =>
        absent t (List.mem_cons_of_mem _ listed)⟩
      exact absent _ List.mem_cons_self (first.mem shown member)

theorem map_trim_of_padded (trimmed : ∀ t ∈ texts, trim t = t)
    (padded : List.Forall₂ Padded texts pieces) : pieces.map trim = texts := by
  induction padded with
  | nil => rfl
  | cons first _ inductionHypothesis =>
      rw [List.map_cons, first.trim_eq, trimmed _ List.mem_cons_self,
        inductionHypothesis fun t listed => trimmed t (List.mem_cons_of_mem _ listed)]

theorem toList_join (pieces : List String) :
    (join "," pieces).toList = [','].intercalate (pieces.map String.toList) :=
  String.toList_intercalate

/-- What is not in a piece and not the comma is not in what is joined from the pieces. -/
theorem mem_join {c : Char} (member : c ∈ (join "," pieces).toList) :
    c = ',' ∨ ∃ piece ∈ pieces, c ∈ piece.toList := by
  rw [toList_join] at member
  induction pieces with
  | nil => cases member
  | cons piece others inductionHypothesis =>
      cases others with
      | nil =>
          rw [List.map_singleton, List.intercalate_singleton] at member
          exact .inr ⟨piece, List.mem_cons_self, member⟩
      | cons next later =>
          rw [List.map_cons, List.map_cons, List.intercalate_cons_cons, List.mem_append,
            List.mem_append, List.mem_singleton] at member
          rcases member with (own | comma) | behind
          · exact .inr ⟨piece, List.mem_cons_self, own⟩
          · exact .inl comma
          · rcases inductionHypothesis behind with comma | ⟨other, listed, inside⟩
            · exact .inl comma
            · exact .inr ⟨other, List.mem_cons_of_mem _ listed, inside⟩

/-- Something is left of joined pieces without blanks, unless they are a single blank piece. -/
theorem trimChars_join_ne_nil (nonempty : pieces.map trim ≠ []) (shown : pieces.map trim ≠ [""]) :
    trimChars (join "," pieces).toList ≠ [] := by
  intro nothing
  cases pieces with
  | nil => exact nonempty rfl
  | cons piece others =>
      rw [toList_join, List.map_cons] at nothing
      cases others with
      | nil =>
          rw [List.map_nil, List.intercalate_singleton] at nothing
          exact shown (by rw [List.map_singleton, trim, nothing])
      | cons next later =>
          rw [List.map_cons, List.intercalate_cons_cons] at nothing
          have comma := isBlank_of_trimChars_eq_nil nothing ',' (by simp)
          cases comma

end Text

open Text in
/-- A list that is written with commas, with blanks around its texts, has these texts as its
parts, unless it is a single empty text. -/
theorem Conversion.parts_join {texts pieces : List String} (nonempty : texts ≠ [])
    (shown : texts ≠ [""]) (trimmed : ∀ t ∈ texts, trim t = t)
    (plain : ∀ t ∈ texts, ',' ∉ t.toList) (padded : List.Forall₂ Padded texts pieces) :
    parts (join "," pieces) = texts := by
  have trims := map_trim_of_padded trimmed padded
  have apart : ∀ cs ∈ pieces.map String.toList, ',' ∉ cs :=
    List.forall_mem_map.mpr (not_mem_of_padded rfl plain padded)
  have pieceless : pieces.map String.toList ≠ [] := by
    intro none
    rw [List.map_eq_nil_iff.mp none] at trims
    exact nonempty trims.symm
  have visible : ¬ (trimChars (join "," pieces).toList).isEmpty = true := fun nothing =>
    trimChars_join_ne_nil (trims ▸ nonempty) (trims ▸ shown) (List.isEmpty_iff.mp nothing)
  rw [parts, if_neg visible, toList_join, cutAt_intercalate pieceless apart, List.map_map]
  exact trims

end PropertyBinding
