/-!
# Dates and times

A date, a time of day, or both, in the latter case with or without an offset
from universal time.  The written form puts `T` between date and time, writes
`Z` for universal time, and drops the zeros at the end of a fraction of a second.
-/

namespace PropertyBinding
namespace Toml

/-- A calendar date. -/
structure Date where
  year : Nat
  month : Nat
  day : Nat
deriving DecidableEq, Repr

/-- A time of day.  The fraction of a second is counted in nanoseconds. -/
structure Time where
  hour : Nat
  minute : Nat
  second : Nat
  nanosecond : Nat
deriving DecidableEq, Repr

/-- A distance from universal time. -/
inductive Offset where
  | universal
  | minutes (amount : Int)
deriving DecidableEq, Repr

/-- A date, a time or both. -/
inductive Datetime where
  | date (date : Date)
  | time (time : Time)
  | both (date : Date) (time : Time) (offset : Option Offset)
deriving DecidableEq, Repr

def padded (width n : Nat) : String :=
  let written := toString n
  String.ofList (List.replicate (width - written.length) '0') ++ written

namespace Date

def isLeapYear (year : Nat) : Bool :=
  year % 4 == 0 && (year % 100 != 0 || year % 400 == 0)

def daysIn (year month : Nat) : Nat :=
  if month = 2 then (if isLeapYear year then 29 else 28)
  else if month ∈ [4, 6, 9, 11] then 30
  else 31

def isValid (d : Date) : Bool :=
  1 ≤ d.month && d.month ≤ 12 && 1 ≤ d.day && d.day ≤ daysIn d.year d.month

def text (d : Date) : String :=
  padded 4 d.year ++ "-" ++ padded 2 d.month ++ "-" ++ padded 2 d.day

end Date

namespace Time

/-- A time of the clock, leap seconds included. -/
def isValid (t : Time) : Bool :=
  t.hour ≤ 23 && t.minute ≤ 59 && t.second ≤ 60

def text (t : Time) : String :=
  let clock := padded 2 t.hour ++ ":" ++ padded 2 t.minute ++ ":" ++ padded 2 t.second
  if t.nanosecond = 0 then clock
  else
    let digits := (padded 9 t.nanosecond).toList
    clock ++ "." ++ String.ofList (digits.reverse.dropWhile (· == '0')).reverse

end Time

namespace Offset

def text : Offset → String
  | universal => "Z"
  | minutes amount =>
    let size := amount.natAbs
    (if amount < 0 then "-" else "+") ++ padded 2 (size / 60) ++ ":" ++ padded 2 (size % 60)

end Offset

namespace Datetime

def text : Datetime → String
  | date d => d.text
  | time t => t.text
  | both d t offset => d.text ++ "T" ++ t.text ++ (offset.map Offset.text).getD ""

end Datetime

end Toml
end PropertyBinding
