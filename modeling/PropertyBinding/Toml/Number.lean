import PropertyBinding.Toml.Scan
import PropertyBinding.Toml.Value
import PropertyBinding.Number.Literal

/-!
# Numbers and times in documents

The digits of a number may be parted by single underscores.  A whole number has
no zero in front, unless it is written to the base 16, 8 or 2, and has to fit into
64 bits.  A number with a fraction or an exponent is a floating-point number, and
must not be too large for one.
-/

namespace PropertyBinding
namespace Toml

open Number

/-- Digits after the first, parted by underscores or not. -/
def moreDigits? (kind : Char → Bool) : List Char → Option (List Char × List Char)
  | [] => some ([], [])
  | '_' :: c :: cs =>
    if kind c then (moreDigits? kind cs).map fun (body, rest) => (c :: body, rest) else none
  | c :: cs =>
    if kind c then (moreDigits? kind cs).map fun (body, rest) => (c :: body, rest)
    else if c = '_' then none
    else some ([], c :: cs)

namespace Scan

/-- Take at least one digit of a kind, without the underscores. -/
def digitRun (kind : Char → Bool) : Scan (List Char) := do
  let c ← next
  if kind c then return c :: (← moreDigits? kind) else failure

/-- Take the digits of a whole number, of which a zero in front is the only one. -/
def wholeDigits : Scan (List Char) := do
  if ← optional '0' then return ['0'] else digitRun isDigit

/-- Take a sign, if any, and tell whether it is a minus. -/
def sign : Scan Bool := do
  if ← optional '-' then return true
  else
    let _ ← optional '+'
    return false

/-- The whole numbers that a document may contain. -/
def wholeType : WholeType := ⟨true, 64⟩

/-- A whole number, if it is in range. -/
def whole (n : Int) : Scan Value := do
  if wholeType.smallest ≤ n ∧ n ≤ wholeType.largest then return .whole n else failure

/-- A floating-point number, if it is not too large. -/
def float (negative : Bool) (d : DecimalText) : Scan Value := do
  let bits := BinaryFormat.double.withSign negative (d.bits .double)
  if bits = BinaryFormat.double.infinity then failure else return .float bits

/-- Take a whole number to another base than ten, after the mark of the base. -/
def based (base : Nat) : Scan Value := do
  let digits ← digitRun fun c => (hexValue? c).any (· < base)
  let size := (digits.filterMap hexValue?).foldl (fun n d => n * base + d) 0
  whole size

/-- Take an exponent, if one comes next. -/
def exponent? : Scan (Option Int) := do
  if ← optional 'e' <||> optional 'E' then
    let negative ← sign
    let size : Int := ofDigits (← digitRun isDigit)
    return some (if negative then -size else size)
  else
    return none

def decimal : Scan Value := do
  let negative ← sign
  match ← peek with
  | some 'i' =>
    word "inf"
    return .float (BinaryFormat.double.withSign negative BinaryFormat.double.infinity)
  | some 'n' =>
    word "nan"
    return .float (BinaryFormat.double.withSign negative BinaryFormat.double.nan)
  | _ =>
    let digits ← wholeDigits
    let part ← if ← optional '.' then some <$> digitRun isDigit else pure none
    let exponent ← exponent?
    if part.isSome || exponent.isSome then
      float negative ⟨digits, part.getD [], exponent.getD 0⟩
    else
      let size : Int := ofDigits digits
      whole (if negative then -size else size)

def anyNumber : Scan Value := do
  match ← rest with
  | '0' :: 'x' :: cs => set cs; based 16
  | '0' :: 'o' :: cs => set cs; based 8
  | '0' :: 'b' :: cs => set cs; based 2
  | _ => decimal

def date : Scan Date := do
  let year ← number 4
  char '-'
  let month ← number 2
  char '-'
  let d : Date := ⟨year, month, ← number 2⟩
  if d.isValid then return d else failure

/-- The nanoseconds in a fraction of a second, of which further digits are
dropped. -/
def nanoseconds (digits : List Char) : Nat :=
  ofDigits ((digits ++ List.replicate 9 '0').take 9)

def secondPart : Scan Nat := do
  char '.'
  let digits ← takeWhile isDigit
  if digits.isEmpty then failure else return nanoseconds digits

def time : Scan Time := do
  let hour ← number 2
  char ':'
  let minute ← number 2
  char ':'
  let second ← number 2
  let t : Time := ⟨hour, minute, second, (← attempt secondPart).getD 0⟩
  if t.isValid then return t else failure

def offset : Scan Offset := do
  if ← optional 'Z' <||> optional 'z' then return .universal
  else
    let mark ← next
    let hours ← number 2
    char ':'
    let minutes ← number 2
    if 23 < hours || 59 < minutes then failure
    let size : Int := hours * 60 + minutes
    if mark = '+' then return .minutes size
    else if mark = '-' then return .minutes (-size)
    else failure

def timeOfDate : Scan (Time × Option Offset) := do
  if ['T', 't', ' '].contains (← next) then return (← time, ← attempt offset) else failure

/-- Take a date, a time or both. -/
def datetime : Scan Datetime := do
  match ← attempt date with
  | some d =>
    match ← attempt timeOfDate with
    | some (t, offset) => return .both d t offset
    | none => return .date d
  | none => return .time (← time)

end Scan

/-- The date, the time or both that a text spells out and nothing else. -/
def Datetime.ofText? (s : String) : Option Datetime :=
  Scan.ofWhole? Scan.datetime s

end Toml
end PropertyBinding
