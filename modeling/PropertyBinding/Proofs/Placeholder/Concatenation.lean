import PropertyBinding.Proofs.Placeholder.Fragments
import PropertyBinding.Proofs.Placeholder.Substitution

/-!
# Texts are resolved part by part

A text may be cut in two and its parts resolved one after the other, unless the cut goes
through something that is read as one.  This can be a dollar sign with what it escapes or
opens, or a placeholder between its braces.  The first is excluded when the first part does
not end in a dollar sign.  The second needs no condition of its own: a part that breaks off
within a placeholder cannot be resolved, so a first part that can be is read to its end.

Reading then goes on behind the first part as if nothing stood before it, and expanding goes
on with the same keys being followed.  The parts of a text differ from the whole only in what
their errors tell.
-/

namespace PropertyBinding

namespace Placeholder

/-- What stands behind the closing brace does not matter to the body. -/
theorem cutBody_append {cs body rest : List Char} (cut : cutBody cs = some (body, rest))
    (after : List Char) : cutBody (cs ++ after) = some (body, rest ++ after) := by
  rw [eq_of_cutBody cut, List.append_assoc, List.cons_append]
  exact cutBody_of_balanced (balanced_of_cutBody cut) (rest ++ after)

end Placeholder

namespace Template

open Placeholder

/-! ## Reading -/

/-- A template with another one behind it.  What stands behind a placeholder that is left
open belongs to its body. -/
def append : Template → Template → Template
  | done, u => u
  | literal c rest, u => literal c (rest.append u)
  | escaped rest, u => escaped (rest.append u)
  | reference key rest, u => reference key (rest.append u)
  | referenceOr key fallback rest, u => referenceOr key fallback (rest.append u)
  | unclosed body, u => unclosed (body ++ u.source)

/-- A character stands for itself unless it is a dollar sign before another one or before an
opening brace. -/
theorem ofChars_of_literal {c : Char} {cs : List Char}
    (noEscape : ∀ rest, c = '$' → cs ≠ '$' :: rest)
    (noPlaceholder : ∀ rest, c = '$' → cs ≠ '{' :: rest) :
    ofChars (c :: cs) = literal c (ofChars cs) := by
  rw [ofChars]
  · exact noEscape
  · exact noPlaceholder

/-- A text that is read to its end, and not to a single dollar sign there, is read alike
whatever stands behind it. -/
theorem ofChars_append {cs : List Char} (complete : (ofChars cs).Complete)
    (ends : ¬ ['$'] <:+ cs) (after : List Char) :
    ofChars (cs ++ after) = (ofChars cs).append (ofChars after) := by
  fun_induction ofChars cs with
  | case1 => rfl
  | case2 cs inductionHypothesis =>
      have endsToo : ¬ ['$'] <:+ cs := fun dollar => ends (dollar.trans ⟨['$', '$'], rfl⟩)
      rw [append, ← inductionHypothesis complete endsToo]
      exact ofChars.eq_2 (cs ++ after)
  | case3 cs cut => exact complete.elim
  | case4 cs body rest cut key split _ inductionHypothesis =>
      have endsToo : ¬ ['$'] <:+ rest := fun dollar => ends (dollar.trans (suffix_of_cutBody cut))
      rw [append, ← inductionHypothesis complete.2 endsToo]
      refine (ofChars_of_cutBody (cutBody_append cut after)).trans ?_
      rw [split]
  | case5 cs body rest cut key fallback split _ _ inductionHypothesis =>
      have endsToo : ¬ ['$'] <:+ rest := fun dollar => ends (dollar.trans (suffix_of_cutBody cut))
      rw [append, ← inductionHypothesis complete.2.2 endsToo]
      refine (ofChars_of_cutBody (cutBody_append cut after)).trans ?_
      rw [split]
  | case6 c cs noEscape noPlaceholder inductionHypothesis =>
      have endsToo : ¬ ['$'] <:+ cs := fun dollar => ends (dollar.trans (List.suffix_cons c cs))
      -- A dollar sign that stands for itself is followed by a character within the text.
      have within : ∀ d rest, c = '$' → cs ++ after = d :: rest → ∃ front, cs = d :: front := by
        rintro d rest rfl same
        cases cs with
        | nil => exact absurd List.suffix_rfl ends
        | cons e front => exact ⟨front, by rw [(List.cons.inj same).1]⟩
      rw [append, ← inductionHypothesis complete endsToo, List.cons_append]
      refine ofChars_of_literal (fun rest dollar same => ?_) (fun rest dollar same => ?_)
      · rcases within _ rest dollar same with ⟨front, split⟩
        exact noEscape front dollar split
      · rcases within _ rest dollar same with ⟨front, split⟩
        exact noPlaceholder front dollar split

theorem ofText_append {a b : String} (complete : (ofText a).Complete)
    (ends : ¬ ['$'] <:+ a.toList) : ofText (a ++ b) = (ofText a).append (ofText b) := by
  rw [ofText, String.toList_append]
  exact ofChars_append complete ends b.toList

/-! ## Expanding -/

open Resolution

variable {lookup : String → Option String} {follow : String → String → Resolution (List Char)}
  {visiting : List String} {whole : Template}

/-- Two templates behind each other are expanded one after the other. -/
theorem expand_append (t u : Template) :
    expand lookup follow visiting whole (t.append u) = (do
      let before ← expand lookup follow visiting whole t
      let after ← expand lookup follow visiting whole u
      pure (before ++ after)) := by
  induction t with
  | done => simp [append, expand]
  | literal c rest inductionHypothesis => simp [append, expand, inductionHypothesis]
  | escaped rest inductionHypothesis => simp [append, expand, inductionHypothesis]
  | reference key rest _ inductionHypothesis =>
      simp only [append, expand, inductionHypothesis, bind_assoc, pure_bind, List.append_assoc]
  | referenceOr key fallback rest _ _ inductionHypothesis =>
      simp only [append, expand, inductionHypothesis, bind_assoc, pure_bind, List.append_assoc]
  | unclosed body => rfl

/-- The text of a template does not depend on what the template is a part of. -/
theorem expand_eq_ok_iff (whole around t : Template) {text : List Char} :
    (expand lookup follow visiting whole t).run = some (.ok text) ↔
      (expand lookup follow visiting around t).run = some (.ok text) := by
  have kept : ∀ whole around, (expand lookup follow visiting whole t).KeptBy
      (expand lookup follow visiting around t) := fun whole around =>
    expand_keptBy (fun _ _ => .refl _) (fun _ member => .inl member) whole around t
  exact ⟨kept whole around text, kept around whole text⟩

/-- A template for which a text is found leaves no placeholder open. -/
theorem complete_of_expand {t : Template} (parts : t.PartsComplete) {text : List Char}
    (found : (expand lookup follow visiting whole t).run = some (.ok text)) : t.Complete := by
  induction t generalizing text with
  | done => trivial
  | literal c rest inductionHypothesis =>
      rcases run_bind_eq_ok.mp found with ⟨after, foundRest, _⟩
      exact inductionHypothesis parts foundRest
  | escaped rest inductionHypothesis =>
      rcases run_bind_eq_ok.mp found with ⟨after, foundRest, _⟩
      exact inductionHypothesis parts foundRest
  | reference key rest _ inductionHypothesis =>
      rcases run_bind_eq_ok.mp found with ⟨_, _, foundThen⟩
      rcases run_bind_eq_ok.mp foundThen with ⟨_, _, foundLast⟩
      rcases run_bind_eq_ok.mp foundLast with ⟨after, foundRest, _⟩
      exact ⟨parts.1, inductionHypothesis parts.2 foundRest⟩
  | referenceOr key fallback rest _ _ inductionHypothesis =>
      rcases run_bind_eq_ok.mp found with ⟨_, _, foundThen⟩
      rcases run_bind_eq_ok.mp foundThen with ⟨_, _, foundLast⟩
      rcases run_bind_eq_ok.mp foundLast with ⟨after, foundRest, _⟩
      exact ⟨parts.1, parts.2.1, inductionHypothesis parts.2.2 foundRest⟩
  | unclosed body => cases found

end Template

namespace Store

open Resolution Template

variable (s : Store) {a b x : String}

/-- A text that is read in two parts is resolved in two parts, whatever keys are being
followed. -/
theorem resolveWithin_append (reads : ofText (a ++ b) = (ofText a).append (ofText b))
    (depth : Nat) (visiting : List String) {text : List Char} :
    (s.resolveWithin depth visiting (a ++ b)).run = some (.ok text) ↔
      ∃ before after, (s.resolveWithin depth visiting a).run = some (.ok before) ∧
        (s.resolveWithin depth visiting b).run = some (.ok after) ∧ text = before ++ after := by
  cases depth with
  | zero =>
      constructor
      · intro impossible
        cases impossible
      · rintro ⟨before, after, impossible, _⟩
        cases impossible
  | succ depth =>
      let follow := fun key => s.resolveWithin depth (key :: visiting)
      have parts : s.resolveWithin (depth + 1) visiting (a ++ b) = (do
          let before ← expand s.valueOf? follow visiting (ofText (a ++ b)) (ofText a)
          let after ← expand s.valueOf? follow visiting (ofText (a ++ b)) (ofText b)
          pure (before ++ after)) := by
        rw [resolveWithin, ← expand_append, ← reads]
      rw [parts]
      constructor
      · intro found
        rcases run_bind_eq_ok.mp found with ⟨before, foundFirst, foundRest⟩
        rcases run_bind_eq_ok.mp foundRest with ⟨after, foundSecond, same⟩
        cases same
        exact ⟨before, after, (expand_eq_ok_iff _ _ _).mp foundFirst,
          (expand_eq_ok_iff _ _ _).mp foundSecond, rfl⟩
      · rintro ⟨before, after, foundFirst, foundSecond, rfl⟩
        exact run_bind_eq_ok.mpr ⟨before, (expand_eq_ok_iff _ _ _).mp foundFirst,
          run_bind_eq_ok.mpr ⟨after, (expand_eq_ok_iff _ _ _).mp foundSecond, rfl⟩⟩

/-- A value that has a text leaves no placeholder open. -/
theorem complete_of_resolve {s : Store} (resolved : s.resolve a = .ok x) : (ofText a).Complete := by
  rcases s.resolve_eq_ok_iff.mp resolved with ⟨depth, found⟩
  cases depth with
  | zero => cases found
  | succ depth => exact complete_of_expand (partsComplete_ofChars a.toList) found

/-- A text without dollar signs passes through the resolver unchanged, whatever keys are being
followed. -/
theorem resolveWithin_of_no_dollar (noDollar : '$' ∉ a.toList) (depth : Nat)
    (visiting : List String) : s.resolveWithin (depth + 1) visiting a = pure a.toList :=
  expand_of_no_dollar noDollar (ofText a)

/-- A text is resolved part by part.  If its first part has a text of its own and does not end
in a dollar sign, the whole has a text exactly if the rest has one, and it is the two behind
each other.  A text without dollar signs is its own text, and a resolver that returns it at
once, at whatever depth and whichever keys are being followed, does what it does otherwise. -/
theorem resolve_append :
    (∀ a b x, ¬ ['$'] <:+ a.toList → s.resolve a = .ok x → ∀ text,
      (s.resolve (a ++ b) = .ok text ↔ ∃ y, s.resolve b = .ok y ∧ text = x ++ y)) ∧
    (∀ t, '$' ∉ t.toList → s.resolve t = .ok t) ∧
    ∀ depth visiting t,
      (if '$' ∈ t.toList then s.resolveWithin (depth + 1) visiting t else pure t.toList) =
        s.resolveWithin (depth + 1) visiting t := by
  refine ⟨fun a b x ends resolved text => ?_, fun t noDollar => s.resolve_of_no_dollar noDollar,
    fun depth visiting t => ?_⟩
  · have reads : ofText (a ++ b) = (ofText a).append (ofText b) :=
      ofText_append (complete_of_resolve resolved) ends
    rcases s.resolve_eq_ok_iff.mp resolved with ⟨depth, found⟩
    constructor
    · intro whole
      rcases s.resolve_eq_ok_iff.mp whole with ⟨deep, foundWhole⟩
      rcases (s.resolveWithin_append reads deep []).mp foundWhole
        with ⟨before, after, foundFirst, foundSecond, same⟩
      have first : s.resolve a = .ok (String.ofList before) :=
        s.resolve_eq_ok_iff.mpr ⟨deep, by rw [foundFirst, String.toList_ofList]⟩
      have second : s.resolve b = .ok (String.ofList after) :=
        s.resolve_eq_ok_iff.mpr ⟨deep, by rw [foundSecond, String.toList_ofList]⟩
      obtain rfl : x = String.ofList before := Except.ok.inj (resolved.symm.trans first)
      refine ⟨_, second, ?_⟩
      rw [← String.ofList_append, ← same, String.ofList_toList]
    · rintro ⟨y, rest, rfl⟩
      rcases s.resolve_eq_ok_iff.mp rest with ⟨deep, foundRest⟩
      have first := s.resolveWithin_extendedBy (Nat.le_max_left depth deep) [] a _ found
      have second := s.resolveWithin_extendedBy (Nat.le_max_right depth deep) [] b _ foundRest
      refine s.resolve_eq_ok_iff.mpr ⟨_, (s.resolveWithin_append reads _ []).mpr
        ⟨_, _, first, second, String.toList_append⟩⟩
  · by_cases dollar : '$' ∈ t.toList
    · rw [if_pos dollar]
    · rw [if_neg dollar, s.resolveWithin_of_no_dollar dollar]

/-- An escape and a placeholder, and behind them a fallback and a dollar sign that stands for
itself. -/
theorem resolve_append_greeting :
    let s := Store.empty.push "test" [⟨Name.root.child "a", "hello", ⟨"test", "a"⟩⟩,
      ⟨Name.root.child "b", "$\x7ba\x7d world", ⟨"test", "b"⟩⟩]
    let front := "$$\x7bb\x7d is $\x7bb\x7d"
    let back := ", $\x7bc:not $\x7ba\x7d\x7d$"
    ¬ ['$'] <:+ front.toList ∧ s.resolve front = .ok "$\x7bb\x7d is hello world" ∧
      (∀ text, s.resolve (front ++ back) = .ok text ↔
        ∃ y, s.resolve back = .ok y ∧ text = "$\x7bb\x7d is hello world" ++ y) ∧
      '$' ∉ "hello".toList ∧ s.resolve "hello" = .ok "hello" := by
  intro s front back
  have ends : ¬ ['$'] <:+ front.toList := by decide
  have resolved : s.resolve front = .ok "$\x7bb\x7d is hello world" := by decide +kernel
  have plain : '$' ∉ "hello".toList := by decide
  exact ⟨ends, resolved, s.resolve_append.1 front back _ ends resolved, plain,
    s.resolve_append.2.1 "hello" plain⟩

end Store
end PropertyBinding
