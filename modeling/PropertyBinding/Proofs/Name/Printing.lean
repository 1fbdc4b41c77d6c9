import Mathlib.Data.List.Basic
import PropertyBinding.Proofs.Name.Grammar

/-!
# Reading names that are shown

A name is shown in its canonical spelling, element by element.  Elements between dots are shown
in lower case, which they are in already, so a name that has been read and shown is read again
as the same elements, and those in brackets keep their brackets.

One kind of element does not survive.  The reader lets a closing bracket stand between dots,
but what is shown has brackets around every element with a delimiter in it.  The closing bracket
of the text then ends the element too early, something that sets off no next element follows,
and the whole text is refused.
-/

namespace PropertyBinding

/-- An element between dots that has a closing bracket.  Brackets around it are closed too
early. -/
def Element.Overclosed (e : Element) : Prop :=
  e.bracketed = false ∧ ']' ∈ e.text.toList

instance (e : Element) : Decidable e.Overclosed :=
  inferInstanceAs (Decidable (e.bracketed = false ∧ ']' ∈ e.text.toList))

namespace Name

open Text

variable {text cs : List Char} {segment : Segment} {segments : List Segment}

namespace Segment

/-- The segment in lower case, as far as the name ignores the case. -/
def canonical : Segment → Segment
  | dotted text nonempty undotted unopened =>
    dotted (lowerChars text) (lowerAfter_ne_nil nonempty)
      (fun dot => undotted (mem_of_mem_lowerAfter dot (by decide)))
      (fun opened => unopened (mem_of_mem_lowerAfter opened (by decide)))
  | bracketed text nonempty unclosed => bracketed text nonempty unclosed

@[simp] theorem element_canonical (segment : Segment) :
    segment.canonical.element = segment.element := by
  cases segment with
  | dotted => simp [canonical, element, Element.dotted, lower, lowerChars_lowerChars]
  | bracketed => rfl

/-- An element that is not closed too early is shown as a segment. -/
theorem shown_element (clear : ¬ segment.element.Overclosed) :
    segment.element.shown true = segment.canonical.front ∧
      segment.element.shown false = segment.canonical.further := by
  cases segment with
  | dotted text nonempty undotted unopened =>
      have unclosed : ']' ∉ lowerChars text := by
        simpa [Element.Overclosed, element, Element.dotted, lower] using clear
      have plain : (lowerChars text).any Element.isDelimiter = false := by
        rw [← Bool.not_eq_true, Element.any_isDelimiter_iff]
        rintro (dot | opened | closed)
        · exact undotted (mem_of_mem_lowerAfter dot (by decide))
        · exact unopened (mem_of_mem_lowerAfter opened (by decide))
        · exact unclosed closed
      simp [Element.shown, Element.showsBrackets, element, Element.dotted, lower, plain, canonical,
        front, further]
  | bracketed text nonempty unclosed =>
      simp [Element.shown, Element.showsBrackets, element, Element.bracket, canonical, front,
        further]

end Segment

/-- Up to the first element that is closed too early a name is shown as its segments. -/
theorem shown_append (clear : ∀ s ∈ segment :: segments, ¬ s.element.Overclosed)
    (others : List Segment) :
    (ofSegments (segment :: segments ++ others)).shown =
      written ((segment :: segments).map Segment.canonical) ++
        others.flatMap (·.element.shown false) := by
  have behind : segments.flatMap (·.element.shown false) =
      segments.flatMap (·.canonical.further) := by
    apply List.flatMap_congr
    intro s listed
    exact (Segment.shown_element (clear s (List.mem_cons_of_mem _ listed))).2
  simp [ofSegments, shown, written, List.flatMap_map, behind,
    (Segment.shown_element (clear segment List.mem_cons_self)).1]

/-- Nothing is read behind an element where nothing sets off the next one. -/
theorem continued?_of_plain {c : Char} (plain : c ≠ '.' ∧ c ≠ '[') (rest : List Char) :
    continued? (c :: rest) = none := by
  unfold continued?
  split <;> simp_all

theorem elements?_overclosed (closed : ']' ∈ text) (undotted : '.' ∉ text) (unopened : '[' ∉ text)
    (rest : List Char) : elements? ('[' :: text ++ ']' :: rest) = none := by
  rcases List.eq_append_cons_of_mem closed with ⟨early, late, rfl, unclosed⟩
  have behind : continued? (late ++ ']' :: rest) = none := by
    cases late with
    | nil => exact continued?_of_plain (by decide) rest
    | cons c late =>
        refine continued?_of_plain ⟨?_, ?_⟩ _
        · rintro rfl
          simp at undotted
        · rintro rfl
          simp at unopened
  rw [elements?_eq]
  cases early with
  | nil => simp [takeElement?]
  | cons c early =>
      have taken := takeElement?_bracketed (List.cons_ne_nil c early) unclosed (late ++ ']' :: rest)
      simp only [List.cons_append, List.append_assoc] at taken ⊢
      rw [taken, Option.bind_some, behind]
      rfl

/-- An element that is closed too early is shown in brackets wherever it stands. -/
theorem Segment.shown_overclosed (closed : segment.element.Overclosed) :
    ∃ text, (∀ front, segment.element.shown front = '[' :: text ++ [']']) ∧
      ']' ∈ text ∧ '.' ∉ text ∧ '[' ∉ text := by
  cases segment with
  | dotted text nonempty undotted unopened =>
      have within : ']' ∈ lowerChars text := by
        simpa [Element.Overclosed, element, Element.dotted, lower] using closed
      have brackets : (dotted text nonempty undotted unopened).element.showsBrackets = true := by
        simp only [Element.showsBrackets, element, Element.dotted, lower, Bool.false_or,
          String.toList_ofList]
        exact Element.any_isDelimiter_iff.mpr (.inr (.inr within))
      refine ⟨lowerChars text, fun front => ?_, within, fun dot => ?_, fun opened => ?_⟩
      · rw [Element.shown, if_pos brackets]
        simp [element, Element.dotted, lower]
      · exact undotted (mem_of_mem_lowerAfter dot (by decide))
      · exact unopened (mem_of_mem_lowerAfter opened (by decide))
  | bracketed text nonempty unclosed => cases closed.1

theorem shown_ofSegments (segment : Segment) (segments : List Segment) :
    (ofSegments (segment :: segments)).shown =
      segment.element.shown true ++ segments.flatMap (·.element.shown false) := by
  simp [ofSegments, shown, List.flatMap_map]

theorem parse_of_elements?_eq_none (nonempty : cs ≠ []) (refused : elements? cs = none) :
    parse (String.ofList cs) = .error ⟨String.ofList cs⟩ := by
  rw [parse_eq (by simpa using nonempty), String.toList_ofList, refused]
  rfl

theorem parse_toString_of_clear (clear : ∀ s ∈ segments, ¬ s.element.Overclosed) :
    parse (toString (ofSegments segments)) = .ok (ofSegments segments) := by
  cases segments with
  | nil => rfl
  | cons segment segments =>
      have spelled := shown_append clear []
      rw [List.append_nil, List.flatMap_nil, List.append_nil] at spelled
      change parse (String.ofList (shown _)) = _
      rw [spelled, parse_written]
      simp [ofSegments]

theorem parse_toString_of_overclosed {before after : List Segment}
    (clear : ∀ s ∈ before, ¬ s.element.Overclosed) (closed : segment.element.Overclosed) :
    parse (toString (ofSegments (before ++ segment :: after))) =
      .error ⟨toString (ofSegments (before ++ segment :: after))⟩ := by
  rcases segment.shown_overclosed closed with ⟨text, spelled, within, undotted, unopened⟩
  have refused : elements? (segment.element.shown true ++ after.flatMap (·.element.shown false)) =
      none := by
    rw [spelled]
    simpa using elements?_overclosed within undotted unopened _
  apply parse_of_elements?_eq_none
  · cases before with
    | nil => simp [shown_ofSegments, spelled]
    | cons first before =>
        rw [shown_append clear]
        simp [written_ne_nil]
  · cases before with
    | nil => rw [List.nil_append, shown_ofSegments, refused]
    | cons first before =>
        have resumes : Resumes ((segment :: after).flatMap (·.element.shown false)) := by
          simp [Resumes, spelled]
        have continued :
            continued? ((segment :: after).flatMap (·.element.shown false)) = none := by
          rw [← refused, List.flatMap_cons, spelled, spelled]
          rfl
        rw [shown_append clear, List.map_cons, elements?_written_append _ _ resumes, continued]
        rfl

/-- A name that has been read and is shown is read again as the same name, element by element,
unless an element between dots has a closing bracket; what is shown is refused then. -/
theorem parse_shown {s : String} {n : Name} (read : parse s = .ok n) :
    parse (toString n) =
      if ∃ e ∈ n.elements, e.Overclosed then .error ⟨toString n⟩ else .ok n := by
  rcases parse_eq_ok_iff.mp read with ⟨segments, _, rfl⟩
  cases found : segments.find? (fun s => decide s.element.Overclosed) with
  | none =>
      have clear : ∀ s ∈ segments, ¬ s.element.Overclosed := by
        simpa using List.find?_eq_none.mp found
      rw [if_neg, parse_toString_of_clear clear]
      rintro ⟨e, listed, closed⟩
      rcases List.mem_map.mp listed with ⟨s, member, rfl⟩
      exact clear s member closed
  | some segment =>
      rcases List.find?_eq_some_iff_append.mp found with ⟨closed, before, after, rfl, clear⟩
      have closed : segment.element.Overclosed := by simpa using closed
      have clear : ∀ s ∈ before, ¬ s.element.Overclosed := by simpa using clear
      rw [if_pos, parse_toString_of_overclosed clear closed]
      exact ⟨segment.element, by simp [ofSegments], closed⟩

/-- A name with capitals, a hyphen, and a key whose capitals and dot are kept in brackets. -/
theorem parse_shown_keys :
    let n : Name := ⟨[.dotted "Hosts", .bracket "Some.Key", .dotted "Max-Age"]⟩
    parse "Hosts[Some.Key].Max-Age" = .ok n ∧ parse (toString n) = .ok n := by
  intro n
  have read : parse "Hosts[Some.Key].Max-Age" = .ok n := by decide +kernel
  have clear : ¬ ∃ e ∈ n.elements, e.Overclosed := by decide +kernel
  exact ⟨read, (parse_shown read).trans (if_neg clear)⟩

/-- A closing bracket between dots is read, but what is shown of it is not. -/
theorem closing_bracket_not_read_back :
    ∃ n, parse "a]b" = .ok n ∧ toString n = "[a]b]" ∧ ∀ m, parse (toString n) ≠ .ok m := by
  refine ⟨⟨[.dotted "a]b"]⟩, by decide +kernel, by decide +kernel, fun m read => ?_⟩
  have refused : parse (toString (Name.mk [.dotted "a]b"])) = .error ⟨"[a]b]"⟩ := by decide +kernel
  rw [refused] at read
  cases read

end Name
end PropertyBinding
