import PropertyBinding.Placeholder.Template

/-!
# What a template is read from

Reading loses nothing: the text of a template is the text it was read from.  Each
key that is written in a template is opened by a dollar sign of its own, and both a
key and a fallback are shorter than what they stand in.  The resolver's bounds rest
on these two counts.
-/

namespace PropertyBinding
namespace Template

open Placeholder

/-- The text of a template is the text it was read from. -/
theorem source_ofChars (cs : List Char) : (ofChars cs).source = cs := by
  fun_induction ofChars cs with
  | case1 => rfl
  | case2 cs inductionHypothesis => rw [source, inductionHypothesis]
  | case3 cs cut => rfl
  | case4 cs body rest cut key split keyRead restRead =>
      have whole := eq_of_cutBody cut
      have parts : key = body := joinFallback_of_splitFallback split
      rw [source, keyRead, restRead, whole, ← parts]
      rfl
  | case5 cs body rest cut key fallback split keyRead fallbackRead restRead =>
      have whole := eq_of_cutBody cut
      have parts : key ++ ':' :: fallback = body := joinFallback_of_splitFallback split
      rw [source, keyRead, fallbackRead, restRead, whole, ← parts]
      simp
  | case6 c cs _ _ inductionHypothesis => rw [source, inductionHypothesis]

@[simp] theorem text_ofText (s : String) : (ofText s).text = s := by
  rw [ofText, text, source_ofChars, String.ofList_toList]

theorem ofChars_of_ne_dollar {c : Char} (other : c ≠ '$') (cs : List Char) :
    ofChars (c :: cs) = literal c (ofChars cs) := by
  rw [ofChars]
  · rintro rest rfl
    exact absurd rfl other
  · rintro rest rfl
    exact absurd rfl other

/-- Once its body has been cut off, a placeholder is read as its parts are. -/
theorem ofChars_of_cutBody {cs body rest : List Char} (cut : cutBody cs = some (body, rest)) :
    ofChars ('$' :: '{' :: cs) =
      match splitFallback body with
      | (key, none) => reference (ofChars key) (ofChars rest)
      | (key, some fallback) => referenceOr (ofChars key) (ofChars fallback) (ofChars rest) := by
  rw [ofChars]
  split
  · rename_i missing
    rw [cut] at missing
    cases missing
  · rename_i found
    rw [cut] at found
    cases found
    split <;> rename_i parts <;> rw [parts]

/-- The keys that are written in a template, also inside other keys and fallbacks. -/
def keys : Template → List Template
  | done => []
  | literal _ rest => rest.keys
  | escaped rest => rest.keys
  | reference key rest => key :: (key.keys ++ rest.keys)
  | referenceOr key fallback rest => key :: (key.keys ++ fallback.keys ++ rest.keys)
  | unclosed _ => []

/-- There are no more keys than dollar signs. -/
theorem length_keys_le (t : Template) : t.keys.length ≤ t.source.count '$' := by
  induction t with
  | done => exact Nat.le_refl 0
  | literal c rest inductionHypothesis =>
      exact Nat.le_trans inductionHypothesis (List.count_le_count_cons)
  | escaped rest inductionHypothesis =>
      simp only [keys, source, List.count_cons_self]
      omega
  | reference key rest keyBound restBound =>
      simp only [keys, source, List.length_cons, List.length_append, List.cons_append,
        List.count_cons, List.count_append, beq_self_eq_true, if_true]
      omega
  | referenceOr key fallback rest keyBound fallbackBound restBound =>
      simp only [keys, source, List.length_cons, List.length_append, List.cons_append,
        List.count_cons, List.count_append, beq_self_eq_true, if_true]
      omega
  | unclosed body => exact Nat.zero_le _

end Template
end PropertyBinding
