import PropertyBinding.Name.Basic

/-!
# Reading property names

A written name is empty, or it is an element followed by further ones.  An
element is a run of characters other than `.` and `[`, or `[`, a run of
characters other than `]`, and `]`; no run is empty.  After the first element, a
dotted element is preceded by `.` and a bracketed one by nothing.  `Name.parse`
reads a name from left to right and refuses every other text.
-/

namespace PropertyBinding

/-- A text that is no property name. -/
structure InvalidName where
  text : String
deriving DecidableEq, Repr

def InvalidName.message (e : InvalidName) : String :=
  "invalid configuration property name: '" ++ e.text ++ "'"

namespace Name

/-- A character that may stand in an element between dots. -/
def isDottedChar (c : Char) : Bool :=
  c != '.' && c != '['

def takeElement? : List Char → Option (Element × List Char)
  | '[' :: cs =>
    match cs.takeWhile (· != ']'), cs.dropWhile (· != ']') with
    | c :: body, _ :: rest => some (.bracket (String.ofList (c :: body)), rest)
    | _, _ => none
  | cs =>
    match cs.takeWhile isDottedChar with
    | [] => none
    | c :: body => some (.dotted (String.ofList (c :: body)), cs.dropWhile isDottedChar)

/-- An element takes up at least one character. -/
theorem length_of_takeElement? {cs rest : List Char} {e : Element}
    (h : takeElement? cs = some (e, rest)) : rest.length < cs.length := by
  have whole (p : Char → Bool) (l : List Char) :
      (l.takeWhile p).length + (l.dropWhile p).length = l.length := by
    rw [← List.length_append, List.takeWhile_append_dropWhile]
  unfold takeElement? at h
  split at h
  · split at h
    · rename_i cs _ _ _ _ _ _ _ after
      have parts := whole (· != ']') cs
      simp only [Option.some.injEq, Prod.mk.injEq] at h
      rw [after, List.length_cons] at parts
      rw [← h.2, List.length_cons]
      omega
    · cases h
  · split at h
    · cases h
    · rename_i taken
      have parts := whole isDottedChar cs
      simp only [Option.some.injEq, Prod.mk.injEq] at h
      rw [taken, List.length_cons] at parts
      rw [← h.2]
      omega

def elements? (cs : List Char) : Option (List Element) :=
  match _taken : takeElement? cs with
  | none => none
  | some (e, []) => some [e]
  | some (_, '.' :: '[' :: _) => none
  | some (e, '.' :: rest) => (elements? rest).map (e :: ·)
  | some (e, '[' :: rest) => (elements? ('[' :: rest)).map (e :: ·)
  | some _ => none
termination_by cs.length
decreasing_by
  all_goals
    have shorter := length_of_takeElement? _taken
    simp only [List.length_cons] at shorter ⊢
    omega

def ofChars? (cs : List Char) : Option Name :=
  if cs.isEmpty then some root else (elements? cs).map Name.mk

def parse (s : String) : Except InvalidName Name :=
  match ofChars? s.toList with
  | some n => .ok n
  | none => .error ⟨s⟩

end Name
end PropertyBinding
