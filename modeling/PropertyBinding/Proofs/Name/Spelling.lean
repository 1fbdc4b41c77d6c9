import Mathlib.Data.List.Forall2
import PropertyBinding.Proofs.Name.Grammar
import PropertyBinding.Proofs.Store.Lookup

/-!
# Spellings of one name

A word may be set off by hyphens, underscores or capitals, and names are compared without any of
these: the text is lower-cased, and then the hyphens and underscores are left out.  The order of
the two steps matters for one letter.  The small form of a capital sigma depends on whether the
word ends behind it, and a hyphen behind it ends the word.  So two spellings are the same name
exactly when each capital sigma ends a word in both or in neither.

All other characters are lower-cased on their own, whatever is inserted around them.  A text
without a capital sigma is the same in all its spellings.
-/

namespace PropertyBinding

open Text

/-- Two texts that differ by the case of English letters, and by hyphens and underscores that one
of them has and the other has not. -/
inductive Text.Respelled : List Char → List Char → Prop
  | nil : Respelled [] []
  | keep {c d : Char} {s t : List Char} (letter : c.toLower = d.toLower) (rest : Respelled s t) :
      Respelled (c :: s) (d :: t)
  | dropped {c : Char} {s t : List Char} (breaks : c = '-' ∨ c = '_') (rest : Respelled s t) :
      Respelled (c :: s) t
  | inserted {c : Char} {s t : List Char} (breaks : c = '-' ∨ c = '_') (rest : Respelled s t) :
      Respelled s (c :: t)

/-- For each capital sigma of a text, whether it ends a word.  The characters that stand before
the text are given nearest first. -/
def Text.wordEnds (before : List Char) : List Char → List Bool
  | [] => []
  | c :: rest =>
    if c = 'Σ' then endsWord before rest :: wordEnds (c :: before) rest
    else wordEnds (c :: before) rest

variable {before other s t : List Char} {c d : Char}

/-! ## Texts -/

namespace Text

theorem sigma_iff_of_toLower_eq (letter : c.toLower = d.toLower) : c = 'Σ' ↔ d = 'Σ' := by
  by_cases same : c = d
  · rw [same]
  · have ascii := ascii_of_toLower_eq letter same
    constructor
    · rintro rfl
      exact absurd ascii.1 (by decide)
    · rintro rfl
      exact absurd ascii.2 (by decide)

theorem wordEnds_of_not_mem (absent : 'Σ' ∉ s) : wordEnds before s = [] := by
  induction s generalizing before with
  | nil => rfl
  | cons c s inductionHypothesis =>
      rw [wordEnds, if_neg (List.ne_of_not_mem_cons absent).symm]
      exact inductionHypothesis (List.not_mem_of_not_mem_cons absent)

theorem wordEnds_of_break (breaks : c = '-' ∨ c = '_') :
    wordEnds before (c :: s) = wordEnds (c :: before) s := by
  rcases breaks with rfl | rfl <;> rfl

theorem Respelled.not_mem_sigma (respelled : Respelled s t) (absent : 'Σ' ∉ s) : 'Σ' ∉ t := by
  induction respelled with
  | nil => exact absent
  | keep letter rest inductionHypothesis =>
      have here := (List.ne_of_not_mem_cons absent).symm
      refine List.not_mem_cons_of_ne_of_not_mem (fun sigma => ?_) ?_
      · exact here ((sigma_iff_of_toLower_eq letter).mpr sigma.symm)
      · exact inductionHypothesis (List.not_mem_of_not_mem_cons absent)
  | dropped breaks rest inductionHypothesis =>
      exact inductionHypothesis (List.not_mem_of_not_mem_cons absent)
  | inserted breaks rest inductionHypothesis =>
      refine List.not_mem_cons_of_ne_of_not_mem ?_ (inductionHypothesis absent)
      rcases breaks with rfl | rfl <;> decide

/-- What is left of a text for the comparison. -/
def letters (before s : List Char) : List Char :=
  (lowerAfter before s).filter fun c => !Element.isWordBreak c

theorem letters_of_break (breaks : c = '-' ∨ c = '_') :
    letters before (c :: s) = letters (c :: before) s := by
  have small : smallForm c = [c] := by
    rcases breaks with rfl | rfl <;> rw [smallForm_of_ascii (by decide)] <;> rfl
  have left : (!Element.isWordBreak c) = false := by
    rcases breaks with rfl | rfl <;> rfl
  have noSigma : c ≠ 'Σ' := by
    rcases breaks with rfl | rfl <;> decide
  rw [letters, lowerAfter, if_neg noSigma, small]
  simp [letters, left]

theorem letters_sigma : letters before ('Σ' :: s) =
    (if endsWord before s then 'ς' else 'σ') :: letters ('Σ' :: before) s := by
  rw [letters, lowerAfter, if_pos rfl]
  cases endsWord before s <;> simp [letters, Element.isWordBreak]

theorem letters_of_ne (noSigma : c ≠ 'Σ') : letters before (c :: s) =
    (smallForm c).filter (fun c => !Element.isWordBreak c) ++ letters (c :: before) s := by
  rw [letters, lowerAfter, if_neg noSigma, List.filter_append, letters]

/-- Two spellings of a text are the same for the comparison exactly when their capital sigmas
end words in the same places, whatever stands before the texts. -/
theorem Respelled.letters_eq_iff (respelled : Respelled s t) :
    letters before s = letters other t ↔ wordEnds before s = wordEnds other t := by
  induction respelled generalizing before other with
  | nil => simp [letters, lowerAfter, wordEnds]
  | @keep c d s t letter rest inductionHypothesis =>
      by_cases sigma : c = 'Σ'
      · have sigmaToo := (sigma_iff_of_toLower_eq letter).mp sigma
        subst sigma sigmaToo
        rw [letters_sigma, letters_sigma, wordEnds, wordEnds, if_pos rfl, if_pos rfl,
          List.cons.injEq, List.cons.injEq, inductionHypothesis]
        cases endsWord before s <;> cases endsWord other t <;> simp
      · have sigmaToo := mt (sigma_iff_of_toLower_eq letter).mpr sigma
        rw [letters_of_ne sigma, letters_of_ne sigmaToo, smallForm_of_toLower_eq letter,
          List.append_cancel_left_eq, wordEnds, wordEnds, if_neg sigma, if_neg sigmaToo]
        exact inductionHypothesis
  | dropped breaks rest inductionHypothesis =>
      rw [letters_of_break breaks, wordEnds_of_break breaks]
      exact inductionHypothesis
  | inserted breaks rest inductionHypothesis =>
      rw [letters_of_break breaks, wordEnds_of_break breaks]
      exact inductionHypothesis

end Text

/-! ## Elements -/

theorem Element.relaxed_dotted (text : String) :
    (dotted text).relaxed = String.ofList (letters [] text.toList) := by
  simp [relaxed, dotted, lower, lowerChars, letters]

theorem Element.relaxed_eq_iff {text spelling : String}
    (respelled : Respelled text.toList spelling.toList) :
    (dotted text).relaxed = (dotted spelling).relaxed ↔
      wordEnds [] text.toList = wordEnds [] spelling.toList := by
  rw [relaxed_dotted, relaxed_dotted, String.ofList_inj]
  exact respelled.letters_eq_iff

/-! ## Names -/

namespace Name

variable {segments others : List Segment}

/-- Two spellings of a segment.  What stands in brackets has one spelling. -/
inductive Segment.Respelled : Segment → Segment → Prop
  | dotted {text spelling : List Char} {nonempty nonemptyToo undotted undottedToo unopened
      unopenedToo} (texts : Text.Respelled text spelling) :
      Respelled (.dotted text nonempty undotted unopened)
        (.dotted spelling nonemptyToo undottedToo unopenedToo)
  | bracketed {text : List Char} {nonempty unclosed} :
      Respelled (.bracketed text nonempty unclosed) (.bracketed text nonempty unclosed)

/-- For each capital sigma whose small form is chosen, whether it ends a word. -/
def Segment.wordEnds : Segment → List Bool
  | dotted text _ _ _ => Text.wordEnds [] text
  | bracketed _ _ _ => []

theorem Segment.Respelled.relaxed_eq_iff {segment other : Segment}
    (respelled : segment.Respelled other) :
    segment.element.relaxed = other.element.relaxed ↔ segment.wordEnds = other.wordEnds := by
  cases respelled with
  | @dotted text spelling _ _ _ _ _ _ texts =>
      have characters :
          Text.Respelled (String.ofList text).toList (String.ofList spelling).toList := by
        simpa using texts
      simpa [element, wordEnds] using Element.relaxed_eq_iff characters
  | bracketed => simp [element, wordEnds]

theorem same_iff_of_respelled (respelled : List.Forall₂ Segment.Respelled segments others) :
    (ofSegments segments).Same (ofSegments others) ↔
      segments.map Segment.wordEnds = others.map Segment.wordEnds := by
  have keys : (ofSegments segments).Same (ofSegments others) ↔
      segments.map (·.element.relaxed) = others.map (·.element.relaxed) := by
    simp [Same, key, ofSegments, Function.comp_def]
  rw [keys]
  clear keys
  induction respelled with
  | nil => simp
  | cons first _ inductionHypothesis =>
      rw [List.map_cons, List.map_cons, List.map_cons, List.map_cons, List.cons.injEq,
        List.cons.injEq]
      exact and_congr first.relaxed_eq_iff inductionHypothesis

theorem compare_def (a b : Name) :
    compare a b = if a < b then .lt else if a.Same b then .eq else .gt := rfl

theorem compare_eq_iff {a b : Name} : compare a b = .eq ↔ a.Same b := by
  rw [compare_def]
  by_cases same : a.Same b
  · simp [same.not_lt, same]
  · split <;> simp [same]

/-- Names that find the same in every store are the same name. -/
theorem get?_eq_iff_same {a b : Name} : (∀ s : Store, s.get? a = s.get? b) ↔ a.Same b := by
  constructor
  · intro alike
    let p : Property := ⟨a, "", ⟨"", ""⟩⟩
    have found : (Store.empty.push "" [p]).get? a = some p := by
      simp [Store.get?, Store.push, Store.empty, Layer.ofList, Layer.insert, Layer.empty,
        insertProperty, Layer.get?, p, same_refl]
    rw [alike] at found
    exact (Store.get?_eq_some_iff.mp found).2.symm
  · exact fun same s => s.get?_congr same

/-- Two spellings of one element, and of one name, are the same exactly when their capital sigmas
end words in the same places; names that are the same compare as equal, and they are the ones
that find the same in every store.  Texts without a capital sigma are always the same. -/
theorem respelled_same_iff {text spelling : String}
    (texts : Respelled text.toList spelling.toList)
    (names : List.Forall₂ Segment.Respelled segments others) :
    let n := ofSegments segments
    let m := ofSegments others
    ((Element.dotted text).relaxed = (Element.dotted spelling).relaxed ↔
      wordEnds [] text.toList = wordEnds [] spelling.toList) ∧
    ('Σ' ∉ text.toList → (Element.dotted text).relaxed = (Element.dotted spelling).relaxed) ∧
    parse (String.ofList (written segments)) = .ok n ∧
    parse (String.ofList (written others)) = .ok m ∧
    (n.Same m ↔ segments.map Segment.wordEnds = others.map Segment.wordEnds) ∧
    (compare n m = .eq ↔ n.Same m) ∧
    ((∀ s : Store, s.get? n = s.get? m) ↔ n.Same m) := by
  intro n m
  have elements := Element.relaxed_eq_iff texts
  refine ⟨elements, fun absent => ?_, parse_written segments, parse_written others,
    same_iff_of_respelled names, compare_eq_iff, get?_eq_iff_same⟩
  rw [elements, wordEnds_of_not_mem absent, wordEnds_of_not_mem (texts.not_mem_sigma absent)]

/-- Two spellings of a word, and of an element of a list below it, are the same. -/
theorem respelled_same_max_age :
    let n : Name := ⟨[.dotted "maxAge", .bracket "0"]⟩
    let m : Name := ⟨[.dotted "Max-Age", .bracket "0"]⟩
    (Element.dotted "maxAge").relaxed = (Element.dotted "Max-Age").relaxed ∧
      parse "maxAge[0]" = .ok n ∧ parse "Max-Age[0]" = .ok m ∧ n.Same m ∧ compare n m = .eq ∧
      ∀ s : Store, s.get? n = s.get? m := by
  have texts : Respelled "maxAge".toList "Max-Age".toList :=
    .keep rfl (.keep rfl (.keep rfl (.inserted (.inl rfl)
      (.keep rfl (.keep rfl (.keep rfl .nil))))))
  let first : Segment := .dotted "maxAge".toList (by decide) (by decide) (by decide)
  let other : Segment := .dotted "Max-Age".toList (by decide) (by decide) (by decide)
  let element : Segment := .bracketed ['0'] (by decide) (by decide)
  have names : List.Forall₂ Segment.Respelled [first, element] [other, element] :=
    .cons (.dotted texts) (.cons .bracketed .nil)
  have whole := respelled_same_iff texts names
  rcases whole with ⟨_, elements, read, readToo, same, compared, found⟩
  have alike := same.mpr (by decide +kernel)
  exact ⟨elements (by decide), read, readToo, alike, compared.mpr alike, found.mpr alike⟩

/-- A hyphen behind a capital sigma makes another name of it. -/
theorem sigma_before_hyphen :
    ∃ n m, parse "ΑΣΑ" = .ok n ∧ parse "ΑΣ-Α" = .ok m ∧
      Respelled "ΑΣΑ".toList "ΑΣ-Α".toList ∧
      (Element.dotted "ΑΣΑ").relaxed ≠ (Element.dotted "ΑΣ-Α").relaxed ∧ ¬ n.Same m ∧
      (Store.empty.push "test" [⟨n, "1", ⟨"test", "ΑΣΑ"⟩⟩]).get? m = none := by
  refine ⟨⟨[.dotted "ΑΣΑ"]⟩, ⟨[.dotted "ΑΣ-Α"]⟩, by decide +kernel, by decide +kernel, ?_,
    by decide +kernel, by decide +kernel, by decide +kernel⟩
  exact .keep rfl (.keep rfl (.inserted (.inl rfl) (.keep rfl .nil)))

end Name
end PropertyBinding
