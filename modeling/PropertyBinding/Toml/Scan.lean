import PropertyBinding.Number.Whole

/-!
# Scanning a document

A scanner takes something off the front of the remaining text or refuses it.
Where several readings of a text are tried, the first that is not refused
stands.  Blanks are spaces and tabs, a line ends with a line feed that a carriage
return may precede, and no other control character is allowed anywhere.
-/

namespace PropertyBinding
namespace Toml

/-- A scanner for something of type `α`. -/
abbrev Scan (α : Type) := StateT (List Char) Option α

namespace Scan

def rest : Scan (List Char) := get

/-- The next character, which is left in place. -/
def peek : Scan (Option Char) := return (← rest).head?

def next : Scan Char := do
  match ← rest with
  | [] => failure
  | c :: cs =>
    set cs
    return c

def char (c : Char) : Scan Unit := do
  if (← next) = c then pure () else failure

def word (w : String) : Scan Unit :=
  w.toList.forM char

/-- Take a given character if it comes next, and tell whether it did. -/
def optional (c : Char) : Scan Bool := do
  if (← peek) = some c then
    let _ ← next
    return true
  else
    return false

/-- Take the characters up to the first that is not of a kind. -/
def takeWhile (kind : Char → Bool) : Scan (List Char) := do
  let cs ← rest
  set (cs.dropWhile kind)
  return cs.takeWhile kind

/-- Take exactly `n` digits. -/
def digits : (n : Nat) → Scan (List Char)
  | 0 => return []
  | n + 1 => do
    let c ← next
    if Number.isDigit c then return c :: (← digits n) else failure

/-- Take a number of exactly `n` digits. -/
def number (n : Nat) : Scan Nat :=
  return Number.ofDigits (← digits n)

/-- The outcome of a scanner, or nothing, in which case nothing is taken. -/
def attempt (scan : Scan α) : Scan (Option α) :=
  (some <$> scan) <|> return none

def isSpace (c : Char) : Bool :=
  c == ' ' || c == '\t'

def spaces : Scan Unit := do
  let _ ← takeWhile isSpace

/-- A character allowed in a comment, and in every kind of string unless it has
a meaning there: a tab or no control character. -/
def isPlain (c : Char) : Bool :=
  c == '\t' || (' ' ≤ c && c != '\x7f')

def newline : Scan Unit := do
  let _ ← optional '\r'
  char '\n'

def atEnd : Scan Bool := return (← rest).isEmpty

/-- Take the end of a line or find the end of the text. -/
def lineEnd : Scan Unit := do
  if ← atEnd then pure () else newline

def comment : Scan Unit := do
  if ← optional '#' then
    let _ ← takeWhile isPlain

/-- Skip what may follow on a line, and its end. -/
def lineRest : Scan Unit := do
  spaces
  comment
  lineEnd

/-- Take items for as long as `item` finds one.  Each takes something off the
text, so the text bounds their number. -/
def many (item : Scan (Option α)) : Scan (List α) := fun cs =>
  match item cs with
  | none => none
  | some (none, rest) => some ([], rest)
  | some (some a, rest) =>
    if rest.length < cs.length then
      (many item rest).map fun (items, rest) => (a :: items, rest)
    else none
termination_by cs => cs.length

/-- What a whole text says to a scanner, which has to take all of it. -/
def ofWhole? (scan : Scan α) (s : String) : Option α :=
  match scan s.toList with
  | some (a, []) => some a
  | _ => none

end Scan
end Toml
end PropertyBinding
