import PropertyBinding.Toml.Scan

/-!
# Strings of documents

There are four kinds of strings.  A basic string stands between quotation marks
and has escapes, a literal string stands between apostrophes and has none, and
both have a form with three marks on each side that may run over several lines.
In the long forms a line break right after the opening marks is dropped, every
line break counts as a line feed, and up to two marks may stand right before the
closing ones.
-/

namespace PropertyBinding
namespace Toml

/-- The character with the code point given by hexadecimal digits. -/
def hexChar? (cs : List Char) : Option Char := do
  let values ← cs.mapM Number.hexValue?
  let code := values.foldl (fun n d => n * 16 + d) 0
  if code.isValidChar then some (Char.ofNat code) else none

/-- The character for an escape without the backslash, and the rest. -/
def takeEscape? : List Char → Option (Char × List Char)
  | 'b' :: cs => some ('\x08', cs)
  | 't' :: cs => some ('\t', cs)
  | 'n' :: cs => some ('\n', cs)
  | 'f' :: cs => some ('\x0c', cs)
  | 'r' :: cs => some ('\r', cs)
  | '"' :: cs => some ('"', cs)
  | '\\' :: cs => some ('\\', cs)
  | 'u' :: a :: b :: c :: d :: cs => (hexChar? [a, b, c, d]).map (·, cs)
  | 'U' :: a :: b :: c :: d :: e :: f :: g :: h :: cs =>
    (hexChar? [a, b, c, d, e, f, g, h]).map (·, cs)
  | _ => none

theorem length_of_takeEscape? {cs rest : List Char} {c : Char}
    (h : takeEscape? cs = some (c, rest)) : rest.length < cs.length := by
  unfold takeEscape? at h
  split at h <;> simp only [Option.some.injEq, Prod.mk.injEq, Option.map_eq_some_iff,
    reduceCtorEq] at h
  all_goals
    first
      | (obtain ⟨_, rfl⟩ := h; simp only [List.length_cons]; omega)
      | (obtain ⟨_, _, _, rfl⟩ := h; simp only [List.length_cons]; omega)

/-- The rest of a basic string after its opening mark. -/
def basicRest? : List Char → Option (List Char × List Char)
  | [] => none
  | '"' :: cs => some ([], cs)
  | '\\' :: cs =>
    match _escape : takeEscape? cs with
    | none => none
    | some (c, rest) => (basicRest? rest).map fun (body, rest) => (c :: body, rest)
  | c :: cs =>
    if Scan.isPlain c then (basicRest? cs).map fun (body, rest) => (c :: body, rest)
    else none
termination_by cs => cs.length
decreasing_by
  · have shorter := length_of_takeEscape? _escape
    simp only [List.length_cons]
    omega
  · simp only [List.length_cons]
    omega

/-- Skip spaces, tabs and line breaks. -/
def skipLines : List Char → List Char
  | ' ' :: cs => skipLines cs
  | '\t' :: cs => skipLines cs
  | '\n' :: cs => skipLines cs
  | '\r' :: '\n' :: cs => skipLines cs
  | cs => cs

theorem length_skipLines (cs : List Char) : (skipLines cs).length ≤ cs.length := by
  fun_induction skipLines cs <;> grind

/-- The text after a line break that a backslash joins to the next line: the
backslash may be followed by spaces before the break, and all blank space after
the break is skipped too. -/
def joinedLine? (cs : List Char) : Option (List Char) :=
  match cs.dropWhile Scan.isSpace with
  | '\n' :: rest => some (skipLines rest)
  | '\r' :: '\n' :: rest => some (skipLines rest)
  | _ => none

theorem length_of_joinedLine? {cs rest : List Char} (h : joinedLine? cs = some rest) :
    rest.length < cs.length := by
  have bound : (cs.dropWhile Scan.isSpace).length ≤ cs.length :=
    (List.dropWhile_sublist _).length_le
  unfold joinedLine? at h
  split at h
  · rename_i after start
    cases h
    have skipped := length_skipLines after
    rw [start, List.length_cons] at bound
    omega
  · rename_i after start
    cases h
    have skipped := length_skipLines after
    rw [start, List.length_cons, List.length_cons] at bound
    omega
  · cases h

/-- Split off the marks that stand right before three closing marks, at most
two, when the three marks themselves have been taken. -/
def extraMarks (mark : Char) : List Char → List Char × List Char
  | c :: d :: cs =>
    if c = mark then (if d = mark then ([c, d], cs) else ([c], d :: cs)) else ([], c :: d :: cs)
  | c :: cs => if c = mark then ([c], cs) else ([], c :: cs)
  | [] => ([], [])

/-- The rest of a long basic string after its opening marks. -/
def longBasicRest? : List Char → Option (List Char × List Char)
  | [] => none
  | '"' :: '"' :: '"' :: cs => some (extraMarks '"' cs)
  | '\\' :: cs =>
    match _joined : joinedLine? cs with
    | some rest => longBasicRest? rest
    | none =>
      match _escape : takeEscape? cs with
      | none => none
      | some (c, rest) => (longBasicRest? rest).map fun (body, rest) => (c :: body, rest)
  | '\r' :: '\n' :: cs => (longBasicRest? cs).map fun (body, rest) => ('\n' :: body, rest)
  | c :: cs =>
    if c = '\n' || Scan.isPlain c then
      (longBasicRest? cs).map fun (body, rest) => (c :: body, rest)
    else none
termination_by cs => cs.length
decreasing_by
  · have shorter := length_of_joinedLine? _joined
    simp only [List.length_cons]
    omega
  · have shorter := length_of_takeEscape? _escape
    simp only [List.length_cons]
    omega
  · simp only [List.length_cons]
    omega
  · simp only [List.length_cons]
    omega

/-- The rest of a literal string after its opening mark. -/
def literalRest? : List Char → Option (List Char × List Char)
  | [] => none
  | c :: cs =>
    if c = '\x27' then some ([], cs)
    else if Scan.isPlain c then (literalRest? cs).map fun (body, rest) => (c :: body, rest)
    else none

/-- The rest of a long literal string after its opening marks. -/
def longLiteralRest? : List Char → Option (List Char × List Char)
  | [] => none
  | '\x27' :: '\x27' :: '\x27' :: cs => some (extraMarks '\x27' cs)
  | '\r' :: '\n' :: cs => (longLiteralRest? cs).map fun (body, rest) => ('\n' :: body, rest)
  | c :: cs =>
    if c = '\n' || Scan.isPlain c then
      (longLiteralRest? cs).map fun (body, rest) => (c :: body, rest)
    else none

def dropBreak : List Char → List Char
  | '\n' :: cs => cs
  | '\r' :: '\n' :: cs => cs
  | cs => cs

/-- Make a text of the characters that a string has. -/
def asText (found : Option (List Char × List Char)) : Option (String × List Char) :=
  found.map fun (body, rest) => (String.ofList body, rest)

/-- Take a string on one line, of either kind. -/
def shortString : Scan String
  | '"' :: cs => asText (basicRest? cs)
  | '\x27' :: cs => asText (literalRest? cs)
  | _ => none

def anyString : Scan String
  | '"' :: '"' :: '"' :: cs => asText (longBasicRest? (dropBreak cs))
  | '\x27' :: '\x27' :: '\x27' :: cs => asText (longLiteralRest? (dropBreak cs))
  | cs => shortString cs

end Toml
end PropertyBinding
