import PropertyBinding.Number.Binary

/-!
# The shortest decimal text of a floating-point number

Of all decimal numbers that round to a given floating-point number, the one with
the fewest digits is written, of several such the nearest, and of two equally
near ones the greater.  The text is positional, whatever the size of the number.

`ShortestDigits.search` tries one, two, three, ... digits.  On the grid of the
decimals with that many digits only the two neighbours of the number can be the
nearest point, so only they are tested.
-/

namespace PropertyBinding
namespace Number

/-- A positive decimal number `digits * 10 ^ power`. -/
structure Decimal where
  digits : Nat
  power : Int
deriving DecidableEq, Repr

namespace Finite

/-- The quarter units of the last place in the number. -/
def quarters (x : Finite) : Nat :=
  4 * x.significand

/-- The quarter units of the least real number that rounds to this one. -/
def lowest (x : Finite) : Nat :=
  x.quarters - if x.narrow then 1 else 2

/-- The quarter units of the greatest real number that rounds to this one. -/
def highest (x : Finite) : Nat :=
  x.quarters + 2

/-- Whether the two bounds themselves round to this number, which they do when
its significand is even. -/
def closed (x : Finite) : Bool :=
  x.significand % 2 == 0

/-- The value as a ratio whose numerator counts quarter units: each quarter unit
stands for `unit.1 / unit.2`. -/
def unit (x : Finite) : Nat × Nat :=
  scaleRatio 2 (x.power - 2) 1 1

/-- Whether a decimal number rounds to this number. -/
def covers (x : Finite) (d : Decimal) : Bool :=
  let (num, den) := scaleRatio 10 d.power d.digits 1
  let here := num * x.unit.2
  let low := x.lowest * x.unit.1 * den
  let high := x.highest * x.unit.1 * den
  if x.closed then low ≤ here && here ≤ high else low < here && here < high

/-- The neighbours of the number on the grid of multiples of `10 ^ power`: the
last multiple that is not above it and the next one, with a flag that says
whether the upper one is at least as near. -/
def neighbours (x : Finite) (power : Int) : Decimal × Decimal × Bool :=
  let (num, den) := scaleRatio 10 (-power) (x.quarters * x.unit.1) x.unit.2
  let below := num / den
  (⟨below, power⟩, ⟨below + 1, power⟩, den ≤ 2 * (num % den))

/-- The nearest point of a grid that rounds to this number. -/
def onGrid? (x : Finite) (power : Int) : Option Decimal :=
  let (below, above, upward) := x.neighbours power
  let (first, second) := if upward then (above, below) else (below, above)
  if x.covers first then some first
  else if x.covers second then some second
  else none

/-- Search ever finer grids, `tries` of them, for a point that rounds to this
number. -/
def search (x : Finite) : (tries : Nat) → (power : Int) → Option Decimal
  | 0, _ => none
  | tries + 1, power => (x.onGrid? power).or (x.search tries (power - 1))

/-- The shortest decimal number that rounds to this one.  A hundred digits are
far more than any format needs, so the search finds one. -/
def shortest (x : Finite) : Decimal :=
  let order := decimalOrder (x.quarters * x.unit.1) x.unit.2
  (x.search 100 order).getD ⟨x.significand, 0⟩

end Finite

namespace Decimal

/-- The digits without the zeros at their end, and the power of ten that goes
with them. -/
def normal (d : Decimal) : List Char × Int :=
  let written := Nat.toDigits 10 d.digits
  let kept := (written.reverse.dropWhile (· == '0')).reverse
  (kept, d.power + (written.length - kept.length : Nat))

/-- The positional text, without an exponent and without a point that has
nothing but zeros behind it. -/
def positional (d : Decimal) : List Char :=
  let (digits, power) := d.normal
  match power with
  | .ofNat n => digits ++ List.replicate n '0'
  | .negSucc n =>
    let places := n + 1
    if places < digits.length then
      digits.take (digits.length - places) ++ '.' :: digits.drop (digits.length - places)
    else
      '0' :: '.' :: List.replicate (places - digits.length) '0' ++ digits

end Decimal

/-- The text of a floating-point number given by its bits. -/
def BinaryFormat.text (f : BinaryFormat) (bits : Nat) : String :=
  let sign := if f.isNegative bits then "-" else ""
  match f.magnitude bits with
  | .zero => sign ++ "0"
  | .finite x => sign ++ String.ofList x.shortest.positional
  | .infinite => sign ++ "inf"
  | .nan => "NaN"

end Number
end PropertyBinding
