import Mathlib.Data.List.Forall2
import PropertyBinding.Validation.Basic
import PropertyBinding.Proofs.Name.Grammar

/-!
# Paths of nested validation errors

A value inside another reports its errors on paths of its own.  The value around it puts the
field and a dot in front of each path, and the property behind the error is found by reading the
whole path as a name.  So what was a name joined to another has become one text, and the text has
to be read as the joined name again.

It is, if the inner path starts with an element between dots.  An inner path that starts with a
bracket is set off by the bracket alone, and with the dot in front of it the whole path is no
name any more.  It is then taken as a single key, and the property that the error is about is
not found under the name that comes out.
-/

namespace PropertyBinding

/-! ## What is reported from inside -/

/-- A path as it is reported by the outermost of some fields, one inside the other. -/
def pathWithin (fields : List String) (path : String) : String :=
  fields.foldr (fun field inner => field ++ "." ++ inner) path

/-- The error is reported by one of the steps, or from inside the value that stands in the first
of some fields. -/
inductive Step.Reports : List Step → List String → FieldError → Prop
  | here {steps : List Step} {error : FieldError}
      (reported : ValidationError.field error ∈ Step.allErrors steps) : Reports steps [] error
  | nested {steps inner : List Step} {field : String} {fields : List String} {error : FieldError}
      (listed : Step.nested field inner ∈ steps) (reports : Reports inner fields error) :
      Reports steps (field :: fields) error

namespace Step

variable {steps inner : List Step} {step : Step} {field : String} {fields : List String}
  {error : FieldError}

theorem mem_allErrors {reported : ValidationError} (listed : step ∈ steps)
    (reports : reported ∈ step.errors) : reported ∈ allErrors steps := by
  induction steps with
  | nil => cases listed
  | cons first steps inductionHypothesis =>
      rw [allErrors, List.mem_append]
      rcases List.mem_cons.mp listed with rfl | later
      · exact .inl reports
      · exact .inr (inductionHypothesis later)

/-- One level: the field and a dot are put in front of the path. -/
theorem field_mem_allErrors_of_nested (listed : nested field inner ∈ steps)
    (reported : .field error ∈ allErrors inner) :
    .field { error with field := field ++ "." ++ error.field } ∈ allErrors steps := by
  apply mem_allErrors listed
  rw [errors]
  exact List.mem_map_of_mem reported

/-- All levels: an error keeps its message and its value, and its path tells the way to it. -/
theorem Reports.field_mem_allErrors (reports : Reports steps fields error) :
    .field { error with field := pathWithin fields error.field } ∈ allErrors steps := by
  induction reports with
  | here reported => exact reported
  | nested listed _ inductionHypothesis =>
      exact field_mem_allErrors_of_nested listed inductionHypothesis

end Step

/-! ## Reading a path again -/

namespace Name

variable {p x : String} {n m relative : Name} {fields : List String} {names : List Name}

/-- A path that is the text of a name other than the root. -/
def Reads (path : String) (n : Name) : Prop :=
  path ≠ "" ∧ parse path = .ok n

theorem Reads.exists_segments (reads : Reads p n) :
    ∃ segment segments, p.toList = written (segment :: segments) ∧
      n = ofSegments (segment :: segments) := by
  rcases parse_eq_ok_iff.mp reads.2 with ⟨segments, spelled, rfl⟩
  cases segments with
  | nil =>
      have empty : p = "" := String.toList_eq_nil_iff.mp spelled.symm
      exact absurd empty reads.1
  | cons segment segments => exact ⟨segment, segments, spelled.symm, rfl⟩

theorem Reads.size_pos (reads : Reads p n) : 0 < n.size := by
  rcases reads.exists_segments with ⟨segment, segments, _, rfl⟩
  exact Nat.succ_pos _

/-- The elements of a path that goes on behind a dot. -/
theorem Reads.elements?_dot (reads : Reads p n) (x : String) :
    elements? (p ++ "." ++ x).toList =
      (continued? ('.' :: x.toList)).map (n.elements ++ ·) := by
  rcases reads.exists_segments with ⟨segment, segments, spelled, rfl⟩
  have resumes : Resumes ('.' :: x.toList) := by simp [Resumes]
  have text : (p ++ "." ++ x).toList = written (segment :: segments) ++ '.' :: x.toList := by
    simp [spelled]
  rw [text, elements?_written_append segment segments resumes]
  rfl

/-- A text that starts with a bracket. -/
def Opens (x : String) : Prop :=
  x.toList.head? = some '['

instance : DecidablePred Opens :=
  fun x => inferInstanceAs (Decidable (x.toList.head? = some '['))

theorem append_dot_ne_empty (p x : String) : p ++ "." ++ x ≠ "" := by
  intro empty
  simpa using congrArg String.toList empty

/-- A dot and a bracket do not go together. -/
theorem Reads.parse_dot_of_opens (reads : Reads p n) (opens : Opens x) :
    parse (p ++ "." ++ x) = .error ⟨p ++ "." ++ x⟩ := by
  rcases List.head?_eq_some_iff.mp opens with ⟨cs, spelled⟩
  rw [parse_eq (append_dot_ne_empty p x), reads.elements?_dot, spelled]
  rfl

/-- Behind a dot a path is read as it would be on its own. -/
theorem Reads.parse_dot_of_not_opens (reads : Reads p n) (nonempty : x ≠ "") (plain : ¬ Opens x) :
    parse (p ++ "." ++ x) =
      ((parse x).map n.join).mapError fun _ => ⟨p ++ "." ++ x⟩ := by
  rw [parse_eq (append_dot_ne_empty p x), reads.elements?_dot, continued?_dot plain,
    parse_eq nonempty]
  cases elements? x.toList <;> rfl

theorem pathWithin_ne_empty (nonempty : x ≠ "") : pathWithin fields x ≠ "" := by
  cases fields with
  | nil => exact nonempty
  | cons field fields => exact append_dot_ne_empty field _

/-- What a path starts with is what its first part starts with. -/
theorem opens_pathWithin (reads : Reads p n) : Opens (pathWithin (p :: fields) x) ↔ Opens p := by
  rcases reads.exists_segments with ⟨segment, segments, spelled, _⟩
  have nonempty : p.toList ≠ [] := spelled ▸ written_ne_nil segment segments
  simp [Opens, pathWithin, List.head?_append_of_ne_nil _ nonempty]

/-- A part that starts with a bracket is the first one, and the path starts with it too, or it is
a later one. -/
theorem exists_opens_iff (reads : List.Forall₂ Reads fields names) (x : String) :
    (∃ part ∈ fields ++ [x], Opens part) ↔
      Opens (pathWithin fields x) ∨ ∃ part ∈ (fields ++ [x]).tail, Opens part := by
  cases reads with
  | nil => simp [pathWithin]
  | cons first later => rw [opens_pathWithin first]; simp

/-- The whole path is read as the names of its parts, one joined to the other, exactly if no part
behind the first starts with a bracket. -/
theorem parse_pathWithin (reads : List.Forall₂ Reads fields names) (last : Reads x relative) :
    parse (pathWithin fields x) =
      if ∃ part ∈ (fields ++ [x]).tail, Opens part then .error ⟨pathWithin fields x⟩
      else .ok (names.foldr join relative) := by
  induction reads with
  | nil => simpa [pathWithin] using last.2
  | @cons field n fields names first later inductionHypothesis =>
      have whole : pathWithin (field :: fields) x = field ++ "." ++ pathWithin fields x := rfl
      have condition : (∃ part ∈ (field :: fields ++ [x]).tail, Opens part) ↔
          Opens (pathWithin fields x) ∨ ∃ part ∈ (fields ++ [x]).tail, Opens part :=
        exists_opens_iff later x
      rw [whole]
      by_cases opens : Opens (pathWithin fields x)
      · rw [first.parse_dot_of_opens opens, if_pos (condition.mpr (.inl opens))]
      · have same := condition.trans (or_iff_right opens)
        rw [first.parse_dot_of_not_opens (pathWithin_ne_empty last.1) opens, inductionHypothesis]
        simp only [same]
        split <;> rfl

theorem foldl_join (n relative : Name) (names : List Name) :
    (names ++ [relative]).foldl join n = n.join (names.foldr join relative) := by
  induction names generalizing n with
  | nil => rfl
  | cons first names inductionHypothesis =>
      rw [List.cons_append, List.foldl_cons, inductionHypothesis]
      simp [join]

theorem size_join (a b : Name) : (a.join b).size = a.size + b.size := by
  simp [join, size]

theorem size_le_size_foldr_join (names : List Name) (relative : Name) :
    relative.size ≤ (names.foldr join relative).size := by
  induction names with
  | nil => exact Nat.le_refl _
  | cons first names inductionHypothesis =>
      rw [List.foldr_cons, size_join]
      omega

end Name

/-! ## The property behind an error -/

namespace ValidationFailure

open Name

variable {f : ValidationFailure} {n relative : Name} {origin : Origin} {steps : List Step}
  {fields : List String} {names : List Name} {error : FieldError} {path : String}

/-- The origin that is given for a name is the one of the first property used under it. -/
theorem originOf?_eq_some_iff : f.originOf? n = some origin ↔
    ∃ before used after, f.bound = before ++ used :: after ∧ used.name.Same n ∧
      used.origin = origin ∧ ∀ other ∈ before, ¬ other.name.Same n := by
  rw [originOf?, Option.map_eq_some_iff]
  constructor
  · rintro ⟨used, found, rfl⟩
    rcases List.find?_eq_some_iff_append.mp found with ⟨same, before, after, split, earlier⟩
    refine ⟨before, used, after, split, by simpa using same, rfl, fun other listed => ?_⟩
    simpa using earlier other listed
  · rintro ⟨before, used, after, split, same, rfl, earlier⟩
    refine ⟨used, ?_, rfl⟩
    rw [List.find?_eq_some_iff_append]
    exact ⟨by simpa using same, before, after, split, by simpa using earlier⟩

theorem ofKey_pathWithin (field : String) (fields : List String) (path : String) :
    Element.ofKey (pathWithin (field :: fields) path) =
      .bracket (pathWithin (field :: fields) path) := by
  have dot : '.' ∈ (pathWithin (field :: fields) path).toList := by simp [pathWithin]
  rw [Element.ofKey, if_pos (Element.any_isDelimiter_iff.mpr (.inl dot))]

/-- A path within fields names the property that the names of its parts lead to, or it is taken
as one key. -/
theorem propertyName_pathWithin (reads : List.Forall₂ Reads fields names)
    (last : Reads error.field relative) :
    f.propertyName { error with field := pathWithin fields error.field } =
      if ∃ part ∈ (fields ++ [error.field]).tail, Opens part then
        f.name.push (.bracket (pathWithin fields error.field))
      else (names ++ [relative]).foldl join f.name := by
  rw [propertyName, parse_pathWithin reads last]
  by_cases opens : ∃ part ∈ (fields ++ [error.field]).tail, Opens part
  · cases reads with
    | nil => simp at opens
    | cons first later =>
        rw [if_pos opens, if_pos opens, ← ofKey_pathWithin]
        rfl
  · rw [if_neg opens, if_neg opens, foldl_join]

/-- What a path is as one key is not what its parts lead to. -/
theorem not_same_push (reads : List.Forall₂ Reads fields names) (within : fields ≠ [])
    (last : Reads path relative) (e : Element) :
    ¬ (n.push e).Same ((names ++ [relative]).foldl join n) := by
  intro same
  cases reads with
  | nil => exact within rfl
  | @cons field first fields names readsFirst later =>
      have sizes := congrArg List.length same
      rw [length_key, length_key, foldl_join, size_join, List.foldr_cons, size_join] at sizes
      have pushed : (n.push e).size = n.size + 1 := by simp [push, size]
      have deeper := size_le_size_foldr_join names relative
      have positive := readsFirst.size_pos
      have positiveToo := last.size_pos
      omega

/-- An error on a path that some value reports, from inside as many fields as may be, is an error
of the whole.  It names the property that the field names and the path lead to from the root,
and then its origin is the one of the first property used under this name, exactly if no path
but the outermost starts with a bracket.  Otherwise it names another property, one element below
the root. -/
theorem propertyName_of_reports (name : Name) (bound : List Property)
    (reports : Step.Reports steps fields error) (reads : List.Forall₂ Reads fields names)
    (last : Reads error.field relative) :
    let f : ValidationFailure := ⟨name, Step.allErrors steps, bound⟩
    let reported : FieldError := { error with field := pathWithin fields error.field }
    let property := (names ++ [relative]).foldl join name
    .field reported ∈ f.errors ∧
    ((∀ part ∈ (fields ++ [error.field]).tail, ¬ Opens part) →
      f.propertyName reported = property ∧
      ∀ before used after, bound = before ++ used :: after → used.name.Same property →
        (∀ other ∈ before, ¬ other.name.Same property) →
        f.originOf? (f.propertyName reported) = some used.origin) ∧
    ((∃ part ∈ (fields ++ [error.field]).tail, Opens part) →
      f.propertyName reported = name.push (.bracket reported.field) ∧
      ¬ (f.propertyName reported).Same property) := by
  intro f reported property
  have named : f.propertyName reported = _ := propertyName_pathWithin reads last
  refine ⟨reports.field_mem_allErrors, fun plain => ?_, fun opens => ?_⟩
  · rw [if_neg (by simpa using plain)] at named
    refine ⟨named, fun before used after split same earlier => ?_⟩
    rw [named, originOf?_eq_some_iff]
    exact ⟨before, used, after, split, same, rfl, earlier⟩
  · rw [if_pos opens] at named
    refine ⟨named, ?_⟩
    rw [named]
    apply not_same_push reads _ last
    rintro rfl
    simp at opens

/-- An element of a list, two fields below the root, is found with its origin. -/
theorem propertyName_of_reports_element :
    let rejected : FieldError := ⟨"ports[0]", some "4", "at least five"⟩
    let steps := [Step.nested "server"
      [.nested "limits" [.rejectValue "ports[0]" "4" "at least five"]]]
    let property : Name := ⟨[.dotted "app", .dotted "server", .dotted "limits", .dotted "ports",
      .bracket "0"]⟩
    let origin : Origin := ⟨"test", "app.server.limits.ports[0]"⟩
    let f : ValidationFailure :=
      ⟨⟨[.dotted "app"]⟩, Step.allErrors steps, [⟨property, "4", origin⟩]⟩
    let reported : FieldError := { rejected with field := "server.limits.ports[0]" }
    .field reported ∈ f.errors ∧ f.propertyName reported = property ∧
      f.originOf? (f.propertyName reported) = some origin := by
  intro rejected steps property origin f reported
  have server : Reads "server" ⟨[.dotted "server"]⟩ := ⟨by decide, by decide +kernel⟩
  have limits : Reads "limits" ⟨[.dotted "limits"]⟩ := ⟨by decide, by decide +kernel⟩
  have ports : Reads "ports[0]" ⟨[.dotted "ports", .bracket "0"]⟩ := ⟨by decide, by decide +kernel⟩
  have reports : Step.Reports steps ["server", "limits"] rejected := by
    apply Step.Reports.nested List.mem_cons_self
    apply Step.Reports.nested List.mem_cons_self
    exact .here (by decide)
  have whole :=
    propertyName_of_reports f.name f.bound reports (.cons server (.cons limits .nil)) ports
  rcases whole with ⟨listed, found, _⟩
  have plain : ∀ part ∈ (["server", "limits"] ++ ["ports[0]"]).tail, ¬ Opens part := by decide
  rcases found plain with ⟨named, known⟩
  exact ⟨listed, named, known [] _ [] rfl rfl (by simp)⟩

/-- An element that is reported by the list itself is not found. -/
theorem element_of_list_not_found :
    let steps := [Step.nested "list" [.rejectValue "[0]" "4" "at least five"]]
    let property : Name := ⟨[.dotted "test", .dotted "list", .bracket "0"]⟩
    let f : ValidationFailure := ⟨⟨[.dotted "test"]⟩, Step.allErrors steps,
      [⟨property, "4", ⟨"s", "test.list[0]"⟩⟩]⟩
    let reported : FieldError := ⟨"list.[0]", some "4", "at least five"⟩
    Reads "list" ⟨[.dotted "list"]⟩ ∧ Reads "[0]" ⟨[.bracket "0"]⟩ ∧
      f.errors = [.field reported] ∧ ¬ (f.propertyName reported).Same property ∧
      f.originOf? (f.propertyName reported) = none := by
  intro steps property f reported
  exact ⟨⟨by decide, by decide +kernel⟩, ⟨by decide, by decide +kernel⟩, by decide +kernel,
    by decide +kernel, by decide +kernel⟩

end ValidationFailure
end PropertyBinding
