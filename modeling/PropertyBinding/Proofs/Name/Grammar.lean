import Mathlib.Data.List.TakeWhile
import PropertyBinding.Name.Parser
import PropertyBinding.Proofs.Text.LowerCase

/-!
# The grammar of names

A written name is a sequence of segments.  A segment stands for one element and is written
either between dots or between brackets, and only the first one can do without something that
sets it off from the segment before it.  Reading a name is taking it apart into its segments.

There is at most one way to do so.  A segment between dots ends where a dot or an opening
bracket follows, or the text does, and none of these can be part of it; a segment in brackets
ends at the first closing bracket.  So the reader, which never goes back, misses nothing: it
accepts the texts that are made of segments and refuses all others.
-/

namespace PropertyBinding

theorem Element.any_isDelimiter_iff {text : List Char} :
    text.any isDelimiter = true ↔ '.' ∈ text ∨ '[' ∈ text ∨ ']' ∈ text := by
  simp only [List.any_eq_true, isDelimiter, Bool.or_eq_true, beq_iff_eq]
  constructor
  · rintro ⟨c, listed, (rfl | rfl) | rfl⟩
    · exact .inl listed
    · exact .inr (.inl listed)
    · exact .inr (.inr listed)
  · rintro (dot | opened | closed)
    · exact ⟨'.', dot, .inl (.inl rfl)⟩
    · exact ⟨'[', opened, .inl (.inr rfl)⟩
    · exact ⟨']', closed, .inr rfl⟩

namespace Name

/-- One element as it stands in a written name.  A closing bracket may stand between dots. -/
inductive Segment where
  | dotted (text : List Char) (nonempty : text ≠ []) (undotted : '.' ∉ text)
      (unopened : '[' ∉ text)
  | bracketed (text : List Char) (nonempty : text ≠ []) (unclosed : ']' ∉ text)

namespace Segment

/-- The element that the segment stands for. -/
def element : Segment → Element
  | dotted text _ _ _ => .dotted (String.ofList text)
  | bracketed text _ _ => .bracket (String.ofList text)

/-- The segment as it is written at the front of a name. -/
def front : Segment → List Char
  | dotted text _ _ _ => text
  | bracketed text _ _ => '[' :: text ++ [']']

/-- The segment as it is written behind another one. -/
def further : Segment → List Char
  | dotted text _ _ _ => '.' :: text
  | bracketed text _ _ => '[' :: text ++ [']']

end Segment

/-- The text of some segments. -/
def written : List Segment → List Char
  | [] => []
  | segment :: rest => segment.front ++ rest.flatMap Segment.further

/-- The name that some segments stand for. -/
def ofSegments (segments : List Segment) : Name :=
  ⟨segments.map Segment.element⟩

/-! ## One element -/

variable {cs rest text : List Char} {e : Element} {segment other : Segment}
  {segments others : List Segment}

/-- What may follow an element: nothing, or something that sets off the next one. -/
def Resumes (rest : List Char) : Prop :=
  ∀ c ∈ rest.head?, c = '.' ∨ c = '['

theorem isDottedChar_iff {c : Char} : isDottedChar c = true ↔ c ≠ '.' ∧ c ≠ '[' := by
  simp [isDottedChar]

theorem takeWhile_append_of_stop {p : Char → Bool} (inside : ∀ c ∈ text, p c = true)
    (stops : ∀ c ∈ rest.head?, p c = false) : (text ++ rest).takeWhile p = text := by
  rw [List.takeWhile_append_of_pos inside]
  cases rest with
  | nil => simp
  | cons c rest => simp [stops c rfl]

theorem dropWhile_append_of_stop {p : Char → Bool} (inside : ∀ c ∈ text, p c = true)
    (stops : ∀ c ∈ rest.head?, p c = false) : (text ++ rest).dropWhile p = rest := by
  rw [List.dropWhile_append_of_pos inside]
  cases rest with
  | nil => rfl
  | cons c rest => simp [stops c rfl]

theorem Resumes.stops (resumes : Resumes rest) : ∀ c ∈ rest.head?, isDottedChar c = false := by
  intro c first
  rcases resumes c first with rfl | rfl <;> rfl

theorem all_isDottedChar (undotted : '.' ∉ text) (unopened : '[' ∉ text) :
    ∀ c ∈ text, isDottedChar c = true := by
  intro c listed
  rw [isDottedChar_iff]
  exact ⟨ne_of_mem_of_not_mem listed undotted, ne_of_mem_of_not_mem listed unopened⟩

theorem all_unclosed (unclosed : ']' ∉ text) : ∀ c ∈ text, (c != ']') = true := by
  intro c listed
  simpa using ne_of_mem_of_not_mem listed unclosed

theorem takeElement?_bracketed (nonempty : text ≠ []) (unclosed : ']' ∉ text)
    (rest : List Char) :
    takeElement? ('[' :: text ++ ']' :: rest) = some (.bracket (String.ofList text), rest) := by
  have stops : ∀ c ∈ (']' :: rest).head?, (c != ']') = false := by simp
  rw [List.cons_append, takeElement?, takeWhile_append_of_stop (all_unclosed unclosed) stops,
    dropWhile_append_of_stop (all_unclosed unclosed) stops]
  cases text with
  | nil => exact absurd rfl nonempty
  | cons c body => rfl

theorem takeElement?_dotted (nonempty : text ≠ [])
    (plain : ∀ c ∈ text, isDottedChar c = true) (resumes : Resumes rest) :
    takeElement? (text ++ rest) = some (.dotted (String.ofList text), rest) := by
  have taken := takeWhile_append_of_stop plain resumes.stops
  have left := dropWhile_append_of_stop plain resumes.stops
  cases text with
  | nil => exact absurd rfl nonempty
  | cons c body =>
      have start := isDottedChar_iff.mp (plain c List.mem_cons_self)
      rw [List.cons_append] at taken left ⊢
      unfold takeElement?
      split
      · rename_i opened
        exact absurd (List.cons.inj opened).1 start.2
      · rw [taken, left]

/-- The reader takes a segment from the front of a text, whatever is behind it. -/
theorem takeElement?_front (segment : Segment) (resumes : Resumes rest) :
    takeElement? (segment.front ++ rest) = some (segment.element, rest) := by
  cases segment with
  | dotted text nonempty undotted unopened =>
      exact takeElement?_dotted nonempty (all_isDottedChar undotted unopened) resumes
  | bracketed text nonempty unclosed =>
      have split : '[' :: text ++ [']'] ++ rest = '[' :: text ++ ']' :: rest := by simp
      rw [Segment.front, split, takeElement?_bracketed nonempty unclosed]
      rfl

/-- What the reader takes from the front of a text is a segment. -/
theorem exists_front_of_takeElement? (taken : takeElement? cs = some (e, rest)) :
    ∃ segment : Segment, cs = segment.front ++ rest ∧ e = segment.element := by
  unfold takeElement? at taken
  split at taken
  · split at taken
    · rename_i cs _ _ c body closing after front back
      cases taken
      have whole : cs = c :: body ++ closing :: rest := by
        rw [← front, ← back, List.takeWhile_append_dropWhile]
      have unclosed : ']' ∉ c :: body := by
        intro listed
        rw [← front] at listed
        simpa using List.mem_takeWhile_imp listed
      have closes : closing = ']' := by
        have nonempty : cs.dropWhile (· != ']') ≠ [] := by simp [back]
        have first := List.head_dropWhile_not (· != ']') nonempty
        simpa [back] using first
      refine ⟨.bracketed (c :: body) (List.cons_ne_nil _ _) unclosed, ?_, rfl⟩
      simp [Segment.front, whole, closes]
    · cases taken
  · split at taken
    · cases taken
    · rename_i c body front
      cases taken
      have plain : ∀ d ∈ c :: body, isDottedChar d = true := by
        intro d listed
        rw [← front] at listed
        exact List.mem_takeWhile_imp listed
      refine ⟨.dotted (c :: body) (List.cons_ne_nil _ _) (fun dot => ?_) (fun opened => ?_), ?_,
        rfl⟩
      · exact (isDottedChar_iff.mp (plain _ dot)).1 rfl
      · exact (isDottedChar_iff.mp (plain _ opened)).2 rfl
      · rw [Segment.front, ← front, List.takeWhile_append_dropWhile]

/-! ## All elements -/

/-- Read what follows an element. -/
def continued? : List Char → Option (List Element)
  | [] => some []
  | '.' :: '[' :: _ => none
  | '.' :: rest => elements? rest
  | '[' :: rest => elements? ('[' :: rest)
  | _ => none

theorem elements?_eq (cs : List Char) : elements? cs =
    (takeElement? cs).bind fun taken => (continued? taken.2).map (taken.1 :: ·) := by
  unfold elements?
  split
  · simp [*]
  · simp [*, continued?]
  · simp [*, continued?]
  · rename_i taken
    rw [taken, Option.bind_some, continued?]
    simp_all
  · simp [*, continued?]
  · rename_i found _ _ _ _ taken
    rcases found with ⟨e, rest⟩
    rw [taken, Option.bind_some]
    unfold continued?
    split <;> simp_all

theorem continued?_dot (unopened : cs.head? ≠ some '[') :
    continued? ('.' :: cs) = elements? cs := by
  unfold continued?
  split <;> simp_all

/-- Behind an element a segment is read as it would be at the front. -/
theorem continued?_further (segment : Segment) (rest : List Char) :
    continued? (segment.further ++ rest) = elements? (segment.front ++ rest) := by
  cases segment with
  | dotted text nonempty undotted unopened =>
      cases text with
      | nil => exact absurd rfl nonempty
      | cons c body =>
          have start : c ≠ '[' := (List.ne_of_not_mem_cons unopened).symm
          exact continued?_dot (by simp [start])
  | bracketed text nonempty unclosed => rfl

theorem Segment.resumes_further (segment : Segment) (rest : List Char) :
    Resumes (segment.further ++ rest) := by
  cases segment <;> simp [Resumes, Segment.further]

/-- The reader takes all segments, and goes on with what is behind them. -/
theorem elements?_written_append (segment : Segment) (segments : List Segment)
    (resumes : Resumes rest) :
    elements? (written (segment :: segments) ++ rest) =
      (continued? rest).map ((segment :: segments).map Segment.element ++ ·) := by
  induction segments generalizing segment with
  | nil =>
      rw [elements?_eq]
      simp [written, takeElement?_front segment resumes]
  | cons next segments inductionHypothesis =>
      have split : written (segment :: next :: segments) ++ rest =
          segment.front ++ (next.further ++ (segments.flatMap Segment.further ++ rest)) := by
        simp [written]
      have joined : next.front ++ (segments.flatMap Segment.further ++ rest) =
          written (next :: segments) ++ rest := by
        simp [written]
      rw [split, elements?_eq, takeElement?_front segment (next.resumes_further _),
        Option.bind_some, continued?_further, joined, inductionHypothesis next, Option.map_map]
      rfl

theorem elements?_written (segment : Segment) (segments : List Segment) :
    elements? (written (segment :: segments)) =
      some ((segment :: segments).map Segment.element) := by
  have resumes : Resumes [] := by simp [Resumes]
  simpa [continued?] using elements?_written_append segment segments resumes

theorem continued?_eq_some {es : List Element} (continued : continued? rest = some es) :
    rest = [] ∧ es = [] ∨
      (∃ cs, rest = '.' :: cs ∧ cs.head? ≠ some '[' ∧ elements? cs = some es) ∨
      rest.head? = some '[' ∧ elements? rest = some es := by
  unfold continued? at continued
  split at continued
  · simp_all
  · cases continued
  · rename_i cs unopened
    refine .inr (.inl ⟨cs, rfl, fun opened => ?_, continued⟩)
    cases cs with
    | nil => cases opened
    | cons c cs =>
        cases opened
        exact unopened cs rfl
  · exact .inr (.inr ⟨rfl, continued⟩)
  · cases continued

/-- Segments behind another one are written as at the front, behind a dot if they do not start
with a bracket. -/
theorem flatMap_further (segment : Segment) (segments : List Segment) :
    (segment :: segments).flatMap Segment.further =
      if (written (segment :: segments)).head? = some '[' then written (segment :: segments)
      else '.' :: written (segment :: segments) := by
  cases segment with
  | dotted text nonempty undotted unopened =>
      cases text with
      | nil => exact absurd rfl nonempty
      | cons c body =>
          have start : c ≠ '[' := (List.ne_of_not_mem_cons unopened).symm
          simp [written, Segment.further, Segment.front, start]
  | bracketed text nonempty unclosed => simp [written, Segment.further, Segment.front]

/-- Whatever the reader accepts consists of segments. -/
theorem exists_written_of_elements? {es : List Element} (read : elements? cs = some es) :
    ∃ segment segments, cs = written (segment :: segments) ∧
      es = (segment :: segments).map Segment.element := by
  induction shorter : cs.length using Nat.strong_induction_on generalizing cs es with
  | _ size inductionHypothesis =>
      rw [elements?_eq, Option.bind_eq_some_iff] at read
      rcases read with ⟨⟨e, rest⟩, taken, continues⟩
      rcases Option.map_eq_some_iff.mp continues with ⟨later, continued, rfl⟩
      have less := length_of_takeElement? taken
      rcases exists_front_of_takeElement? taken with ⟨segment, rfl, rfl⟩
      simp only at continued less
      rcases continued?_eq_some continued
        with ⟨rfl, rfl⟩ | ⟨cs, rfl, unopened, behind⟩ | ⟨opened, behind⟩
      · exact ⟨segment, [], by simp [written], rfl⟩
      · rw [List.length_cons] at less
        rcases inductionHypothesis cs.length (by omega) behind rfl with ⟨next, others, rfl, rfl⟩
        refine ⟨segment, next :: others, ?_, rfl⟩
        rw [written.eq_2 segment, flatMap_further, if_neg unopened]
      · rcases inductionHypothesis rest.length (by omega) behind rfl with ⟨next, others, rfl, rfl⟩
        refine ⟨segment, next :: others, ?_, rfl⟩
        rw [written.eq_2 segment, flatMap_further, if_pos opened]

/-! ## One reading -/

/-- A segment ends where something follows that sets off the next one. -/
theorem Segment.front_append_inj {after : List Char}
    (same : segment.front ++ rest = other.front ++ after)
    (resumes : Resumes rest) (resumesToo : Resumes after) : segment = other ∧ rest = after := by
  cases segment with
  | dotted text nonempty undotted unopened =>
      cases other with
      | dotted textToo nonemptyToo undottedToo unopenedToo =>
          have plain := all_isDottedChar undotted unopened
          have plainToo := all_isDottedChar undottedToo unopenedToo
          have texts : text = textToo := by
            rw [← takeWhile_append_of_stop plain resumes.stops,
              ← takeWhile_append_of_stop plainToo resumesToo.stops]
            exact congrArg (List.takeWhile isDottedChar) same
          subst texts
          exact ⟨rfl, List.append_cancel_left same⟩
      | bracketed textToo nonemptyToo unclosed =>
          cases text with
          | nil => exact absurd rfl nonempty
          | cons c body =>
              have first : c = '[' := (List.cons.inj same).1
              exact absurd (first ▸ List.mem_cons_self) unopened
  | bracketed text nonempty unclosed =>
      cases other with
      | dotted textToo nonemptyToo undotted unopened =>
          cases textToo with
          | nil => exact absurd rfl nonemptyToo
          | cons c body =>
              have first : '[' = c := (List.cons.inj same).1
              exact absurd (first ▸ List.mem_cons_self) unopened
      | bracketed textToo nonemptyToo unclosedToo =>
          have bodies : text ++ ']' :: rest = textToo ++ ']' :: after := by
            simpa [Segment.front] using same
          have stops : ∀ tail : List Char, ∀ c ∈ (']' :: tail).head?, (c != ']') = false := by
            simp
          have texts : text = textToo := by
            rw [← takeWhile_append_of_stop (all_unclosed unclosed) (stops rest),
              ← takeWhile_append_of_stop (all_unclosed unclosedToo) (stops after), bodies]
          subst texts
          exact ⟨rfl, (List.cons.inj (List.append_cancel_left bodies)).2⟩

theorem resumes_flatMap_further (segments : List Segment) :
    Resumes (segments.flatMap Segment.further) := by
  cases segments with
  | nil => simp [Resumes]
  | cons segment segments => exact segment.resumes_further _

theorem Segment.further_append_inj {after : List Char}
    (same : segment.further ++ rest = other.further ++ after)
    (resumes : Resumes rest) (resumesToo : Resumes after) : segment = other ∧ rest = after := by
  cases segment with
  | dotted text nonempty undotted unopened =>
      cases other with
      | dotted => exact front_append_inj (List.cons.inj same).2 resumes resumesToo
      | bracketed => cases (List.cons.inj same).1
  | bracketed text nonempty unclosed =>
      cases other with
      | dotted => cases (List.cons.inj same).1
      | bracketed => exact front_append_inj same resumes resumesToo

theorem flatMap_further_injective
    (same : segments.flatMap Segment.further = others.flatMap Segment.further) :
    segments = others := by
  induction segments generalizing others with
  | nil =>
      cases others with
      | nil => rfl
      | cons other others => cases other <;> cases same
  | cons segment segments inductionHypothesis =>
      cases others with
      | nil => cases segment <;> cases same
      | cons other others =>
          rcases Segment.further_append_inj same (resumes_flatMap_further segments)
            (resumes_flatMap_further others) with ⟨rfl, behind⟩
          rw [inductionHypothesis behind]

theorem written_ne_nil (segment : Segment) (segments : List Segment) :
    written (segment :: segments) ≠ [] := by
  cases segment <;> simp [written, Segment.front, *]

/-- A text is made of segments in one way. -/
theorem written_injective (same : written segments = written others) : segments = others := by
  cases segments with
  | nil =>
      cases others with
      | nil => rfl
      | cons other others => exact absurd same.symm (written_ne_nil other others)
  | cons segment segments =>
      cases others with
      | nil => exact absurd same (written_ne_nil segment segments)
      | cons other others =>
          rcases Segment.front_append_inj same (resumes_flatMap_further segments)
            (resumes_flatMap_further others) with ⟨rfl, behind⟩
          rw [flatMap_further_injective behind]

/-! ## Whole names -/

theorem parse_eq {s : String} (nonempty : s ≠ "") :
    parse s = ((elements? s.toList).map Name.mk).elim (.error ⟨s⟩) .ok := by
  have characters : s.toList.isEmpty = false := by simpa using nonempty
  rw [parse, ofChars?, characters]
  cases elements? s.toList <;> rfl

/-- The reader accepts what consists of segments, and gives the name that they stand for. -/
theorem parse_eq_ok_iff {s : String} {n : Name} :
    parse s = .ok n ↔ ∃ segments, written segments = s.toList ∧ ofSegments segments = n := by
  have whole : parse s = .ok n ↔ ofChars? s.toList = some n := by
    unfold parse
    cases ofChars? s.toList <;> simp
  rw [whole, ofChars?]
  by_cases empty : s.toList.isEmpty = true
  · rw [if_pos empty]
    rw [List.isEmpty_iff] at empty
    constructor
    · intro root
      exact ⟨[], empty.symm, Option.some.inj root⟩
    · rintro ⟨segments, spelled, rfl⟩
      rw [empty] at spelled
      have unwritten : segments = [] := written_injective spelled
      rw [unwritten]
      rfl
  · rw [if_neg empty, Option.map_eq_some_iff]
    constructor
    · rintro ⟨es, read, rfl⟩
      rcases exists_written_of_elements? read with ⟨segment, segments, spelled, rfl⟩
      exact ⟨segment :: segments, spelled.symm, rfl⟩
    · rintro ⟨segments, spelled, rfl⟩
      cases segments with
      | nil => simp [← spelled, written] at empty
      | cons segment segments =>
          refine ⟨_, ?_, rfl⟩
          rw [← spelled]
          exact elements?_written segment segments

theorem parse_written (segments : List Segment) :
    parse (String.ofList (written segments)) = .ok (ofSegments segments) :=
  parse_eq_ok_iff.mpr ⟨segments, by simp, rfl⟩

theorem parse_eq_error {s : String} (refused : ∀ n, parse s ≠ .ok n) : parse s = .error ⟨s⟩ := by
  unfold parse at refused ⊢
  cases read : ofChars? s.toList with
  | none => rfl
  | some n =>
      rw [read] at refused
      exact absurd rfl (refused n)

theorem Segment.text_element_ne_empty (segment : Segment) : segment.element.text ≠ "" := by
  cases segment with
  | dotted text nonempty undotted unopened =>
      intro empty
      have letters := congrArg String.toList empty
      simp [element, Element.dotted, Text.lower, Text.lowerChars] at letters
      exact Text.lowerAfter_ne_nil nonempty letters
  | bracketed text nonempty unclosed =>
      intro empty
      have letters := congrArg String.toList empty
      simp [element, Element.bracket] at letters
      exact nonempty letters

/-- Each text is made of segments in exactly one way, and is then read as the elements that the
segments stand for, none of which is empty; or it is not made of segments, and is refused and
given back unchanged. -/
theorem parse_grammar (s : String) :
    (∃ segments, (written segments = s.toList ∧ ∀ others, written others = s.toList →
        others = segments) ∧
      parse s = .ok ⟨segments.map Segment.element⟩ ∧
      ∀ segment ∈ segments, segment.element.text ≠ "") ∨
    (∀ segments, written segments ≠ s.toList) ∧ parse s = .error ⟨s⟩ := by
  by_cases made : ∃ segments, written segments = s.toList
  · rcases made with ⟨segments, spelled⟩
    refine .inl ⟨segments, ⟨spelled, fun others same => ?_⟩, ?_, fun segment _ => ?_⟩
    · exact written_injective (same.trans spelled.symm)
    · exact parse_eq_ok_iff.mpr ⟨segments, spelled, rfl⟩
    · exact segment.text_element_ne_empty
  · have refused : ∀ n, parse s ≠ .ok n := by
      intro n read
      rcases parse_eq_ok_iff.mp read with ⟨segments, spelled, _⟩
      exact made ⟨segments, spelled⟩
    exact .inr ⟨fun segments spelled => made ⟨segments, spelled⟩, parse_eq_error refused⟩

end Name
end PropertyBinding
