import PropertyBinding.Proofs.Placeholder.Braces
import PropertyBinding.Proofs.Placeholder.Reading

/-!
# Keys and fallbacks do not break off

A value may open a placeholder and never close it.  Its keys and fallbacks cannot:
they are cut out of a body between two braces that belong together, and so all their
own braces belong together.  Whatever has a placeholder left open is therefore a value
as a whole, and the brace is missing in its own text.
-/

namespace PropertyBinding

namespace Placeholder

/-- Every brace that is opened is closed later. -/
def Settled (cs : List Char) : Prop :=
  ∀ back, back <:+ cs → back.count '{' ≤ back.count '}'

theorem Balanced.settled {cs : List Char} (balanced : Balanced cs) : Settled cs := by
  rintro back ⟨front, rfl⟩
  have opened := balanced.opened front (List.prefix_append front back)
  have closed := balanced.closed
  simp only [List.count_append] at closed
  omega

theorem Settled.of_suffix {cs back : List Char} (settled : Settled cs) (ends : back <:+ cs) :
    Settled back :=
  fun tail within => settled tail (within.trans ends)

/-- A placeholder that is opened in a settled text is closed there. -/
theorem Settled.cutBody_ne_none {cs : List Char} (settled : Settled ('{' :: cs)) :
    cutBody cs ≠ none := by
  intro missing
  have few := count_of_cutBodyWithin_eq_none missing
  have many := settled ('{' :: cs) List.suffix_rfl
  rw [List.count_cons_self, List.count_cons_of_ne (by decide)] at many
  omega

/-- A text opens a placeholder whose closing brace is missing: no balanced body with a
brace behind it follows. -/
def LeavesOpen (cs : List Char) : Prop :=
  ∃ front body, cs = front ++ '$' :: '{' :: body ∧
    ∀ inside after, body = inside ++ '}' :: after → ¬ Balanced inside

theorem leavesOpen_of_cutBody {cs : List Char} (missing : cutBody cs = none) :
    LeavesOpen ('$' :: '{' :: cs) := by
  refine ⟨[], cs, rfl, ?_⟩
  rintro inside after rfl balanced
  rw [cutBody_of_balanced balanced] at missing
  cases missing

theorem LeavesOpen.of_suffix {cs back : List Char} (leavesOpen : LeavesOpen back)
    (ends : back <:+ cs) : LeavesOpen cs := by
  rcases ends with ⟨front, rfl⟩
  rcases leavesOpen with ⟨before, body, rfl, missing⟩
  exact ⟨front ++ before, body, (List.append_assoc _ _ _).symm, missing⟩

end Placeholder

namespace Template

open Placeholder

/-- No placeholder is left open, also in keys and fallbacks. -/
def Complete : Template → Prop
  | done => True
  | literal _ rest => rest.Complete
  | escaped rest => rest.Complete
  | reference key rest => key.Complete ∧ rest.Complete
  | referenceOr key fallback rest => key.Complete ∧ fallback.Complete ∧ rest.Complete
  | unclosed _ => False

/-- No placeholder is left open in any key or fallback. -/
def PartsComplete : Template → Prop
  | done => True
  | literal _ rest => rest.PartsComplete
  | escaped rest => rest.PartsComplete
  | reference key rest => key.Complete ∧ rest.PartsComplete
  | referenceOr key fallback rest => key.Complete ∧ fallback.Complete ∧ rest.PartsComplete
  | unclosed _ => True

theorem Complete.partsComplete {t : Template} (complete : t.Complete) : t.PartsComplete := by
  induction t with
  | done => trivial
  | literal c rest inductionHypothesis => exact inductionHypothesis complete
  | escaped rest inductionHypothesis => exact inductionHypothesis complete
  | reference key rest _ inductionHypothesis =>
      exact ⟨complete.1, inductionHypothesis complete.2⟩
  | referenceOr key fallback rest _ _ inductionHypothesis =>
      exact ⟨complete.1, complete.2.1, inductionHypothesis complete.2.2⟩
  | unclosed body => trivial

/-- What follows a placeholder is the end of the text in which the placeholder stands. -/
theorem suffix_of_cutBody {cs body rest : List Char} (cut : cutBody cs = some (body, rest)) :
    rest <:+ '$' :: '{' :: cs := by
  rw [eq_of_cutBody cut]
  exact ⟨'$' :: '{' :: (body ++ ['}']), by simp⟩

/-- A settled text is read without any placeholder left open. -/
theorem complete_ofChars {cs : List Char} (settled : Settled cs) : (ofChars cs).Complete := by
  fun_induction ofChars cs with
  | case1 => trivial
  | case2 cs inductionHypothesis =>
      exact inductionHypothesis (settled.of_suffix ⟨['$', '$'], rfl⟩)
  | case3 cs cut => exact absurd cut (settled.of_suffix ⟨['$'], rfl⟩).cutBody_ne_none
  | case4 cs body rest cut key split keyComplete restComplete =>
      have parts := balanced_of_splitFallback (balanced_of_cutBody cut) split
      exact ⟨keyComplete parts.1.settled, restComplete (settled.of_suffix (suffix_of_cutBody cut))⟩
  | case5 cs body rest cut key fallback split keyComplete fallbackComplete restComplete =>
      have parts := balanced_of_splitFallback (balanced_of_cutBody cut) split
      exact ⟨keyComplete parts.1.settled, fallbackComplete (parts.2 fallback rfl).settled,
        restComplete (settled.of_suffix (suffix_of_cutBody cut))⟩
  | case6 c cs _ _ inductionHypothesis =>
      exact inductionHypothesis (settled.of_suffix (List.suffix_cons c cs))

/-- The parts of a placeholder are complete in any text. -/
theorem partsComplete_ofChars (cs : List Char) : (ofChars cs).PartsComplete := by
  fun_induction ofChars cs with
  | case1 => trivial
  | case2 cs inductionHypothesis => exact inductionHypothesis
  | case3 cs cut => trivial
  | case4 cs body rest cut key split _ restComplete =>
      have parts := balanced_of_splitFallback (balanced_of_cutBody cut) split
      exact ⟨complete_ofChars parts.1.settled, restComplete⟩
  | case5 cs body rest cut key fallback split _ _ restComplete =>
      have parts := balanced_of_splitFallback (balanced_of_cutBody cut) split
      exact ⟨complete_ofChars parts.1.settled, complete_ofChars (parts.2 fallback rfl).settled,
        restComplete⟩
  | case6 c cs _ _ inductionHypothesis => exact inductionHypothesis

/-- A text that is not read completely leaves a placeholder open. -/
theorem leavesOpen_of_not_complete {cs : List Char} (broken : ¬ (ofChars cs).Complete) :
    LeavesOpen cs := by
  fun_induction ofChars cs with
  | case1 => exact absurd trivial broken
  | case2 cs inductionHypothesis => exact (inductionHypothesis broken).of_suffix ⟨['$', '$'], rfl⟩
  | case3 cs cut => exact leavesOpen_of_cutBody cut
  | case4 cs body rest cut key split _ inductionHypothesis =>
      have parts := balanced_of_splitFallback (balanced_of_cutBody cut) split
      have later : ¬ (ofChars rest).Complete := fun complete =>
        broken ⟨complete_ofChars parts.1.settled, complete⟩
      exact (inductionHypothesis later).of_suffix (suffix_of_cutBody cut)
  | case5 cs body rest cut key fallback split _ _ inductionHypothesis =>
      have parts := balanced_of_splitFallback (balanced_of_cutBody cut) split
      have later : ¬ (ofChars rest).Complete := fun complete =>
        broken ⟨complete_ofChars parts.1.settled, complete_ofChars (parts.2 fallback rfl).settled,
          complete⟩
      exact (inductionHypothesis later).of_suffix (suffix_of_cutBody cut)
  | case6 c cs _ _ inductionHypothesis =>
      exact (inductionHypothesis broken).of_suffix (List.suffix_cons c cs)

end Template
end PropertyBinding
