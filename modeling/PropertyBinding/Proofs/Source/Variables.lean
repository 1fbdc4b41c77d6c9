import PropertyBinding.Proofs.Name.Spelling
import PropertyBinding.Proofs.Number.Decimal
import PropertyBinding.Proofs.Text.Pieces
import PropertyBinding.Source.Basic

/-!
# Names of variables

The elements of a name come from two places: the pieces of a variable, and the segments of a
written name.  A piece of digits alone becomes a bracketed element, while between dots the same
digits become a dotted one.  These are compared alike, because nothing in a run of digits is
lower-cased or left out.  All other pieces become dotted elements, which are compared without
regard to case.  The capital sigma is left aside here, since its small form depends on what is
around it; the characters that variables usually consist of are all admitted.

Which pieces a variable has is a matter of its separator alone.  A variable that is put together
from segments is cut into these segments again, provided that none of them contains the separator
or ends in one of its characters.
-/

namespace PropertyBinding

open Text

/-! ## Letters -/

namespace Text

variable {c d : Char} {s t : List Char}

/-- Texts that differ by the case of English letters only. -/
def SameLetters (s t : List Char) : Prop :=
  List.Forall₂ (fun c d => c.toLower = d.toLower) s t

theorem SameLetters.respelled (letters : SameLetters s t) : Respelled s t := by
  induction letters with
  | nil => exact .nil
  | cons letter _ inductionHypothesis => exact .keep letter inductionHypothesis

theorem eq_of_toLower_eq (same : c.toLower = d.toLower)
    (caseless : c.toNat < 0x41 ∨ 0x5A < c.toNat ∧ c.toNat < 0x61) : c = d := by
  rcases cases_of_toLower_eq same with equal | ⟨upper, _⟩ | ⟨upper, number⟩
  · exact equal
  · omega
  · omega

theorem SameLetters.eq_of_digits (letters : SameLetters s t)
    (digits : ∀ c ∈ s, Number.isDigit c = true) : s = t := by
  induction letters with
  | nil => rfl
  | cons letter _ inductionHypothesis =>
      rw [List.forall_mem_cons] at digits
      have range := Number.toNat_of_isDigit digits.1
      rw [eq_of_toLower_eq letter (.inl (by omega)), inductionHypothesis digits.2]

theorem SameLetters.not_mem (letters : SameLetters s t) (absent : d ∉ s)
    (caseless : d.toNat < 0x41 ∨ 0x5A < d.toNat ∧ d.toNat < 0x61) : d ∉ t := by
  induction letters with
  | nil => exact absent
  | cons letter _ inductionHypothesis =>
      rw [List.mem_cons, not_or] at absent ⊢
      refine ⟨?_, inductionHypothesis absent.2⟩
      rintro rfl
      exact absent.1 (eq_of_toLower_eq letter.symm caseless)

theorem isSmall_of_isDigit (digit : Number.isDigit c = true) : IsSmall c := by
  have range := Number.toNat_of_isDigit digit
  constructor
  · rintro rfl
    exact absurd digit (by decide)
  · rw [smallForm_of_ascii (by omega), toLower_of_not_upper (by omega)]

end Text

/-! ## Elements -/

/-- A dotted element that consists of digits is compared by these digits. -/
theorem Element.relaxed_dotted_of_digits {text : List Char} (nonempty : text ≠ [])
    (digits : ∀ c ∈ text, Number.isDigit c = true) :
    (dotted (String.ofList text)).relaxed = String.ofList text := by
  have kept : (dotted (String.ofList text)).text = String.ofList text := by
    rw [dotted, lower, lowerChars, String.toList_ofList,
      lowerAfter_of_small fun c member => isSmall_of_isDigit (digits c member)]
  have all : Number.allDigits (dotted (String.ofList text)).text.toList = true := by
    rw [kept, String.toList_ofList, Number.allDigits, List.all_eq_true.mpr digits]
    simpa using nonempty
  rw [relaxed_of_allDigits all, kept]

namespace Name

/-- A segment of a written name that spells a piece of a variable: the same letters in any case,
or digits in brackets. -/
inductive Segment.Spells : List Char → Segment → Prop
  | dotted {piece text : List Char} {nonempty undotted unopened}
      (letters : SameLetters piece text) :
      Spells piece (.dotted text nonempty undotted unopened)
  | bracketed {piece : List Char} {nonempty unclosed}
      (digits : ∀ c ∈ piece, Number.isDigit c = true) :
      Spells piece (.bracketed piece nonempty unclosed)

end Name

namespace Environment

open Name (Segment)

variable {env : Environment} {key : String} {path piece : List Char}
  {pieces texts : List (List Char)} {spelled : List Segment}

/-- The element that a piece becomes if it is not empty. -/
def elementOf (piece : List Char) : Element :=
  if piece.all Number.isDigit then .bracket (String.ofList piece) else .dotted (String.ofList piece)

theorem elementOf?_of_ne_nil (nonempty : piece ≠ []) :
    elementOf? piece = some (elementOf piece) := by
  rw [elementOf?, if_neg (by simpa using nonempty), elementOf]
  split <;> rfl

/-- A piece without a capital sigma is compared like all that spells it. -/
theorem relaxed_elementOf {segment : Segment} (spells : segment.Spells piece)
    (sigmaless : 'Σ' ∉ piece) : (elementOf piece).relaxed = segment.element.relaxed := by
  rw [elementOf]
  cases spells with
  | @dotted text nonempty _ _ letters =>
      by_cases digits : piece.all Number.isDigit = true
      · have all := List.all_eq_true.mp digits
        rw [if_pos digits]
        obtain rfl := letters.eq_of_digits all
        exact (Element.relaxed_dotted_of_digits nonempty all).symm
      · have respelled : Respelled (String.ofList piece).toList (String.ofList text).toList := by
          simpa using letters.respelled
        rw [if_neg digits]
        refine (Element.relaxed_eq_iff respelled).mpr ?_
        rw [String.toList_ofList, String.toList_ofList, wordEnds_of_not_mem sigmaless,
          wordEnds_of_not_mem (letters.respelled.not_mem_sigma sigmaless)]
  | bracketed digits =>
      rw [if_pos (List.all_eq_true.mpr digits)]
      rfl

theorem same_of_spells (spells : List.Forall₂ Segment.Spells pieces spelled)
    (sigmaless : ∀ piece ∈ pieces, 'Σ' ∉ piece) :
    (Name.ofSegments spelled).Same ⟨pieces.map elementOf⟩ := by
  have keys : spelled.map (·.element.relaxed) =
      pieces.map fun piece => (elementOf piece).relaxed := by
    induction spells with
    | nil => rfl
    | cons first _ inductionHypothesis =>
        rw [List.forall_mem_cons] at sigmaless
        rw [List.map_cons, List.map_cons, relaxed_elementOf first sigmaless.1,
          inductionHypothesis sigmaless.2]
  simpa [Name.Same, Name.key, Name.ofSegments, Function.comp_def] using keys

/-! ## Paths -/

/-- What stands in front of the path in a variable. -/
def lead (env : Environment) : List Char :=
  if env.stem = [] then [] else env.stem ++ env.separator.chars

theorem pathOf?_eq_some_iff {key : List Char} :
    env.pathOf? key = some path ↔ key = env.lead ++ path := by
  unfold pathOf? lead
  by_cases free : env.stem = []
  · simp [free]
  · rw [if_neg (by simpa using free), if_neg free, Option.bind_eq_some_iff]
    simp [afterLead_eq_some_iff]

theorem mapM_elementOf? (visible : [] ∉ pieces) :
    pieces.mapM elementOf? = some (pieces.map elementOf) := by
  induction pieces with
  | nil => rfl
  | cons piece pieces inductionHypothesis =>
      rw [List.mem_cons, not_or] at visible
      rw [List.mapM_cons, elementOf?_of_ne_nil (Ne.symm visible.1), inductionHypothesis visible.2]
      rfl

theorem mapM_elementOf?_of_mem (hidden : [] ∈ pieces) : pieces.mapM elementOf? = none := by
  induction pieces with
  | nil => cases hidden
  | cons piece pieces inductionHypothesis =>
      rw [List.mapM_cons]
      rcases List.mem_cons.mp hidden with rfl | later
      · rfl
      · rw [inductionHypothesis later]
        cases elementOf? piece <;> rfl

theorem nameOf?_eq (split : key.toList = env.lead ++ path)
    (cut : Cut env.separator.chars path pieces) :
    env.nameOf? key = if [] ∈ pieces then none else some ⟨pieces.map elementOf⟩ := by
  have found := (cutAtEach_eq_iff env.separator.nonempty).mpr cut
  rw [nameOf?, pathOf?_eq_some_iff.mpr split]
  change ((cutAtEach env.separator.chars path).mapM elementOf?).bind _ = _
  rw [found]
  by_cases hidden : [] ∈ pieces
  · rw [if_pos hidden, mapM_elementOf?_of_mem hidden]
    rfl
  · rw [if_neg hidden, mapM_elementOf? hidden]
    rfl

theorem lead_of_nameOf? {n : Name} (named : env.nameOf? key = some n) :
    env.lead <+: key.toList := by
  rcases Option.bind_eq_some_iff.mp named with ⟨path, found, _⟩
  exact ⟨path, (pathOf?_eq_some_iff.mp found).symm⟩

theorem mem_properties_iff {p : Property} : p ∈ env.properties ↔
    ∃ key value, (key, value) ∈ env.entries ∧ ∃ n, env.nameOf? key = some n ∧
      p = ⟨n, value, ⟨sourceName, key⟩⟩ := by
  simp only [properties, propertyOf?, List.mem_filterMap, Prod.exists, Option.map_eq_some_iff,
    @eq_comm _ p]

/-- The variables that give properties are those that have a name. -/
theorem exists_property_iff : (∃ p ∈ env.properties, p.origin.key = key) ↔
    (∃ value, (key, value) ∈ env.entries) ∧ ∃ n, env.nameOf? key = some n := by
  constructor
  · rintro ⟨p, member, rfl⟩
    rcases mem_properties_iff.mp member with ⟨key, value, listed, n, named, rfl⟩
    exact ⟨⟨value, listed⟩, n, named⟩
  · rintro ⟨⟨value, listed⟩, n, named⟩
    exact ⟨_, mem_properties_iff.mpr ⟨key, value, listed, n, named, rfl⟩, rfl⟩

/-! ## Spellings -/

/-- A segment that can stand in a variable as well as between the dots of a written name.  It is
found again between separators, and no character of it is lower-cased by what is around it. -/
structure Plain (env : Environment) (segment : List Char) : Prop where
  nonempty : segment ≠ []
  undotted : '.' ∉ segment
  unopened : '[' ∉ segment
  sigmaless : 'Σ' ∉ segment
  apart : ¬ env.separator.chars <:+: segment
  ends : ∀ c ∈ segment.getLast?, c ∉ env.separator.chars

/-- Texts that are joined with dots are a written name. -/
theorem exists_spelled (plain : ∀ piece ∈ pieces, env.Plain piece)
    (letters : List.Forall₂ SameLetters pieces texts) :
    ∃ spelled, List.Forall₂ Segment.Spells pieces spelled ∧
      spelled.map Segment.front = texts ∧ spelled.map Segment.further = texts.map ('.' :: ·) := by
  induction letters with
  | nil => exact ⟨[], .nil, rfl, rfl⟩
  | @cons piece text _ _ same _ inductionHypothesis =>
      rw [List.forall_mem_cons] at plain
      rcases inductionHypothesis plain.2 with ⟨spelled, spells, front, further⟩
      have nonempty : text ≠ [] := by
        rintro rfl
        exact plain.1.nonempty (List.forall₂_nil_right_iff.mp same)
      let segment : Segment := .dotted text nonempty
        (same.not_mem plain.1.undotted (by decide)) (same.not_mem plain.1.unopened (by decide))
      exact ⟨segment :: spelled, .cons (.dotted same) spells, congrArg (List.cons text) front,
        congrArg (List.cons ('.' :: text)) further⟩

end Environment

namespace Name

theorem written_of_dotted {spelled : List Segment} {texts : List (List Char)}
    (front : spelled.map Segment.front = texts)
    (further : spelled.map Segment.further = texts.map ('.' :: ·)) :
    written spelled = ['.'].intercalate texts := by
  cases spelled with
  | nil => rw [← front]; rfl
  | cons segment rest =>
      cases texts with
      | nil => cases front
      | cons text texts =>
          have first := (List.cons.inj front).1
          have others := (List.cons.inj further).2
          rw [intercalate_cons, written, first, List.flatMap_def, others, List.flatMap_def]
          rfl

end Name

namespace Environment

open Name (Segment)

/-- A variable that consists of the lead and of segments gives a property whose name has one
element for each segment.  The name is the one that is read from the segments between dots, in
any letter case, and with digits in brackets or not.  A variable without the lead gives no
property, and any other gives one exactly if the rest is cut into pieces none of which is empty. -/
theorem properties_spellings (env : Environment) :
    (Source.environment env).load.outcome = .ok env.properties ∧
    (∀ key segments value, (key, value) ∈ env.entries → segments ≠ [] →
      (∀ segment ∈ segments, env.Plain segment) →
      key.toList = env.lead ++ env.separator.chars.intercalate segments →
      ∃ p ∈ env.properties, p.value = value ∧ p.origin = ⟨sourceName, key⟩ ∧
        p.name.size = segments.length ∧
        (∀ texts, List.Forall₂ SameLetters segments texts →
          ∃ n, Name.parse (String.ofList (['.'].intercalate texts)) = .ok n ∧ n.Same p.name) ∧
        (∀ spelled, List.Forall₂ Segment.Spells segments spelled →
          ∃ n, Name.parse (String.ofList (Name.written spelled)) = .ok n ∧ n.Same p.name)) ∧
    (∀ key, ¬ env.lead <+: key.toList → ∀ p ∈ env.properties, p.origin.key ≠ key) ∧
    ∀ key path, key.toList = env.lead ++ path →
      ∃ pieces, (∀ others, Cut env.separator.chars path others ↔ others = pieces) ∧
        ((∃ p ∈ env.properties, p.origin.key = key) ↔
          (∃ value, (key, value) ∈ env.entries) ∧ [] ∉ pieces) := by
  refine ⟨rfl, fun key segments value listed nonempty plain split => ?_,
    fun key other p member named => ?_, fun key path split => ?_⟩
  · have cut : Cut env.separator.chars (env.separator.chars.intercalate segments) segments :=
      cut_intercalate nonempty (fun segment member => (plain segment member).apart)
        fun segment member => (plain segment member).ends
    have visible : [] ∉ segments := fun member => (plain [] member).nonempty rfl
    have named := (nameOf?_eq split cut).trans (if_neg visible)
    have read {spelled} (spells : List.Forall₂ Segment.Spells segments spelled) :
        ∃ n, Name.parse (String.ofList (Name.written spelled)) = .ok n ∧
          n.Same ⟨segments.map elementOf⟩ :=
      ⟨_, Name.parse_written spelled,
        same_of_spells spells fun segment member => (plain segment member).sigmaless⟩
    refine ⟨_, mem_properties_iff.mpr ⟨key, value, listed, _, named, rfl⟩, rfl, rfl,
      List.length_map _, fun texts letters => ?_, fun spelled => read⟩
    rcases exists_spelled plain letters with ⟨spelled, spells, front, further⟩
    rw [← Name.written_of_dotted front further]
    exact read spells
  · rcases exists_property_iff.mp ⟨p, member, named⟩ with ⟨_, n, found⟩
    exact other (lead_of_nameOf? found)
  · refine ⟨cutAtEach env.separator.chars path, fun others => ?_, ?_⟩
    · rw [← cutAtEach_eq_iff env.separator.nonempty, eq_comm]
    · have cut := (cutAtEach_eq_iff env.separator.nonempty).mp (Eq.refl (cutAtEach _ path))
      rw [exists_property_iff, nameOf?_eq split cut]
      simp

/-- A list among the segments, a variable with an empty piece, and one without the lead. -/
theorem properties_spellings_servers :
    let env : Environment := ⟨['A', 'P', 'P'], ⟨['_', '_'], by decide⟩,
      [("APP__SERVERS__0__HOST", "a"), ("APP____HOST", "b"), ("HOST", "c")]⟩
    (∃ p ∈ env.properties, p.value = "a" ∧ p.name.size = 3 ∧
      (∃ n, Name.parse "Servers.0.Host" = .ok n ∧ n.Same p.name) ∧
      ∃ n, Name.parse "servers[0].host" = .ok n ∧ n.Same p.name) ∧
    ∀ p ∈ env.properties, p.origin.key ≠ "APP____HOST" ∧ p.origin.key ≠ "HOST" := by
  intro env
  rcases properties_spellings env with ⟨_, segmented, unled, cutting⟩
  let servers : List Char := ['S', 'E', 'R', 'V', 'E', 'R', 'S']
  let host : List Char := ['H', 'O', 'S', 'T']
  have plain : ∀ segment ∈ [servers, ['0'], host], env.Plain segment := by
    refine List.forall_mem_cons.mpr ⟨?_, List.forall_mem_cons.mpr ⟨?_,
      List.forall_mem_singleton.mpr ?_⟩⟩ <;>
      exact ⟨by decide, by decide, by decide, by decide, by decide, by rintro _ ⟨⟩; decide⟩
  rcases segmented "APP__SERVERS__0__HOST" _ "a" List.mem_cons_self (List.cons_ne_nil _ _) plain
    (by decide +kernel) with ⟨p, member, value, _, size, dotted, spelled⟩
  have letters {s t : List Char} (same : s.map Char.toLower = t.map Char.toLower) :
      SameLetters s t := by
    rw [← List.forall₂_eq_eq_eq, List.forall₂_map_left_iff, List.forall₂_map_right_iff] at same
    exact same
  let small : Segment := .dotted "servers".toList (by decide) (by decide) (by decide)
  let smallHost : Segment := .dotted "host".toList (by decide) (by decide) (by decide)
  have first := dotted ["Servers".toList, ['0'], "Host".toList]
    (.cons (letters (by decide)) (.cons (letters (by decide)) (.cons (letters (by decide)) .nil)))
  have second := spelled [small, .bracketed ['0'] (by decide) (by decide), smallHost]
    (.cons (.dotted (letters (by decide))) (.cons (.bracketed (List.forall_mem_singleton.mpr rfl))
      (.cons (.dotted (letters (by decide))) .nil)))
  refine ⟨⟨p, member, value, size, first, second⟩, fun q listed => ⟨fun named => ?_, ?_⟩⟩
  · rcases cutting "APP____HOST" ['_', '_', 'H', 'O', 'S', 'T'] (by decide +kernel) with
      ⟨pieces, only, mapped⟩
    have cut : Cut env.separator.chars ([] ++ ['_', '_'] ++ host) [[], host] :=
      .first (fun front _ _ => Nat.zero_le front.length) (.last (by decide))
    have visible := (mapped.mp ⟨q, listed, named⟩).2
    rw [← (only _).mp cut] at visible
    exact visible List.mem_cons_self
  · exact unled "HOST" (by decide +kernel) q listed

end Environment
end PropertyBinding
