import PropertyBinding.Proofs.Placeholder.Substitution

/-!
# Any text can be written

A text that is to be taken as it stands is written with every dollar sign doubled.  The
resolver reads two dollar signs as one that opens nothing, so it finds no placeholder in such
a text and gives the text back.

Within a placeholder the text first has to get there whole.  The scan for the closing brace
and the search for the fallback know nothing of dollar signs: they count braces, also those
behind a doubled dollar sign.  Doubling leaves the braces of a text as they are, so a text
with balanced braces stays balanced and can be written as a fallback.
-/

namespace PropertyBinding

namespace Placeholder

/-- Write every dollar sign twice. -/
def escape (cs : List Char) : List Char :=
  cs.flatMap fun c => if c = '$' then ['$', '$'] else [c]

/-- The text as it is written to be taken literally. -/
def escapeText (text : String) : String :=
  String.ofList (escape text.toList)

theorem escape_dollar (cs : List Char) : escape ('$' :: cs) = '$' :: '$' :: escape cs :=
  rfl

theorem escape_cons_of_ne {c : Char} (other : c ≠ '$') (cs : List Char) :
    escape (c :: cs) = c :: escape cs := by
  rw [escape, List.flatMap_cons, if_neg other, List.singleton_append, escape]

/-- Up to dollar signs, each front of an escaped text has the characters of a front of the
text. -/
theorem exists_front_of_escape {front cs : List Char} (leads : front <+: escape cs) :
    ∃ part, part <+: cs ∧ ∀ c, c ≠ '$' → front.count c = part.count c := by
  induction cs generalizing front with
  | nil => exact ⟨[], List.prefix_rfl, by rw [List.prefix_nil.mp leads]; exact fun _ _ => rfl⟩
  | cons d cs inductionHypothesis =>
      by_cases dollar : d = '$'
      · subst dollar
        rw [escape_dollar] at leads
        rcases List.prefix_cons_iff.mp leads with rfl | ⟨tail, rfl, leadsThen⟩
        · exact ⟨[], List.nil_prefix, fun _ _ => rfl⟩
        · rcases List.prefix_cons_iff.mp leadsThen with rfl | ⟨rest, rfl, within⟩
          · exact ⟨[], List.nil_prefix, fun c other => List.count_cons_of_ne other.symm⟩
          · rcases inductionHypothesis within with ⟨part, leadsPart, same⟩
            refine ⟨'$' :: part, List.cons_prefix_cons.mpr ⟨rfl, leadsPart⟩, fun c other => ?_⟩
            rw [List.count_cons_of_ne other.symm, List.count_cons_of_ne other.symm,
              List.count_cons_of_ne other.symm, same c other]
      · rw [escape_cons_of_ne dollar] at leads
        rcases List.prefix_cons_iff.mp leads with rfl | ⟨rest, rfl, within⟩
        · exact ⟨[], List.nil_prefix, fun _ _ => rfl⟩
        · rcases inductionHypothesis within with ⟨part, leadsPart, same⟩
          refine ⟨d :: part, List.cons_prefix_cons.mpr ⟨rfl, leadsPart⟩, fun c other => ?_⟩
          rw [List.count_cons, List.count_cons, same c other]

/-- Doubling adds only dollar signs. -/
theorem count_escape {c : Char} (other : c ≠ '$') (cs : List Char) :
    (escape cs).count c = cs.count c := by
  induction cs with
  | nil => rfl
  | cons d cs inductionHypothesis =>
      by_cases dollar : d = '$'
      · subst dollar
        rw [escape_dollar, List.count_cons_of_ne other.symm, List.count_cons_of_ne other.symm,
          List.count_cons_of_ne other.symm, inductionHypothesis]
      · rw [escape_cons_of_ne dollar, List.count_cons, List.count_cons, inductionHypothesis]

/-- A balanced text stays balanced when its dollar signs are doubled. -/
theorem Balanced.escape {cs : List Char} (balanced : Balanced cs) :
    Balanced (escape cs) := by
  constructor
  · intro front leads
    rcases exists_front_of_escape leads with ⟨part, within, same⟩
    rw [same '}' (by decide), same '{' (by decide)]
    exact balanced.opened part within
  · rw [count_escape (by decide), count_escape (by decide)]
    exact balanced.closed

theorem Balanced.escapeText {text : String} (balanced : Balanced text.toList) :
    Balanced (escapeText text).toList := by
  rw [Placeholder.escapeText, String.toList_ofList]
  exact balanced.escape

end Placeholder

namespace Template

open Placeholder

variable {lookup : String → Option String} {follow : String → String → Resolution (List Char)}
  {visiting : List String}

/-- An escaped text is expanded to the text. -/
theorem expand_escape (whole : Template) (cs : List Char) :
    expand lookup follow visiting whole (ofChars (escape cs)) = pure cs := by
  induction cs with
  | nil =>
      rw [escape, List.flatMap_nil, ofChars]
      rfl
  | cons c cs inductionHypothesis =>
      by_cases dollar : c = '$'
      · subst dollar
        have read : ofChars ('$' :: '$' :: escape cs) = escaped (ofChars (escape cs)) := by
          rw [ofChars]
        rw [escape_dollar, read, expand, inductionHypothesis]
        rfl
      · rw [escape_cons_of_ne dollar, ofChars_of_ne_dollar dollar, expand, inductionHypothesis]
        rfl

end Template

namespace Store

open Placeholder Template

variable (s : Store)

/-- Resolving undoes escaping.  Any text is found again when it is written with its dollar
signs doubled, and a text with balanced braces also when it is so written as the fallback of
a key that names nothing. -/
theorem resolve_escaped :
    (∀ text, s.resolve (escapeText text) = .ok text) ∧
    ∀ key text, PlainKey key → (∀ p, ¬ s.Names key p) → Balanced text.toList →
      s.resolve (written key (some (escapeText text))) = .ok text := by
  constructor
  · intro text
    have reached : (s.resolveWithin 1 [] (escapeText text)).run = some (.ok text.toList) := by
      rw [resolveWithin, ofText, escapeText, String.toList_ofList, expand_escape]
      rfl
    rw [s.resolve_eq_of_finished reached, Except.map, String.ofList_toList]
  · intro key text plain nothing balanced
    have reached : (s.resolveWithin 1 [] (written key (some (escapeText text)))).run =
        some (.ok text.toList) := by
      rw [resolveWithin, expand_written_some plain balanced.escapeText,
        referred_of_none List.not_mem_nil (valueOf?_of_not_names nothing), ofText, escapeText,
        String.toList_ofList, expand_escape]
      rfl
    rw [s.resolve_eq_of_finished reached, Except.map, String.ofList_toList]

/-- A text with a placeholder, a colon and two dollar signs in a row, at the top and as a
fallback. -/
theorem resolve_escaped_price :
    let s := Store.empty.push "test" [⟨Name.root.child "a", "hello", ⟨"test", "a"⟩⟩]
    let text := "$\x7ba:$\x7d is $$5"
    PlainKey "c" ∧ (∀ p, ¬ s.Names "c" p) ∧ Balanced text.toList ∧
      s.resolve "$$\x7ba:$$\x7d is $$$$5" = .ok text ∧
      s.resolve "$\x7bc:$$\x7ba:$$\x7d is $$$$5\x7d" = .ok text := by
  intro s text
  have plain : PlainKey "c" := by decide
  have balanced : Balanced text.toList := by decide
  have nothing : ∀ p, ¬ s.Names "c" p := by
    intro p names
    have unnamed : s.valueOf? "c" = none := by decide +kernel
    cases unnamed.symm.trans (valueOf?_of_names names)
  have top : escapeText text = "$$\x7ba:$$\x7d is $$$$5" := by decide
  have within : written "c" (some (escapeText text)) = "$\x7bc:$$\x7ba:$$\x7d is $$$$5\x7d" := by
    decide
  exact ⟨plain, nothing, balanced, top ▸ s.resolve_escaped.1 text,
    within ▸ s.resolve_escaped.2 "c" text plain nothing balanced⟩

end Store
end PropertyBinding
