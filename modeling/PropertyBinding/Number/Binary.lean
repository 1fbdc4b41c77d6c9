import PropertyBinding.Number.Whole

/-!
# Binary floating-point numbers

The interchange formats of binary floating-point numbers, with exact rational
arithmetic.  A number is kept as its bits.  `ofRatio` rounds a positive ratio to
the nearest number of the format, a tie going to the even neighbour, and
`magnitude` gives the value `significand * 2 ^ power` behind the bits.
-/

namespace PropertyBinding
namespace Number

/-- A binary format: the width of the fraction and of the exponent field. -/
structure BinaryFormat where
  fraction : Nat
  exponent : Nat
deriving DecidableEq, Repr

namespace BinaryFormat

def single : BinaryFormat := ⟨23, 8⟩

def double : BinaryFormat := ⟨52, 11⟩

def width (f : BinaryFormat) : Nat :=
  f.fraction + f.exponent + 1

/-- The name of the format: `f` and the number of bits. -/
def label (f : BinaryFormat) : String :=
  "f" ++ toString f.width

/-- The bits of positive infinity, which lie just above those of every finite
positive number. -/
def infinity (f : BinaryFormat) : Nat :=
  (Nat.pow 2 f.exponent - 1) * Nat.pow 2 f.fraction

/-- The bits of a number that is no number. -/
def nan (f : BinaryFormat) : Nat :=
  f.infinity + Nat.pow 2 (f.fraction - 1)

def signBit (f : BinaryFormat) : Nat :=
  Nat.pow 2 (f.width - 1)

/-- The exponent of the smallest positive number, `2 ^ leastExponent`. -/
def leastExponent (f : BinaryFormat) : Int :=
  2 - (Nat.pow 2 (f.exponent - 1) : Nat) - f.fraction

/-- Give the sign `negative` to the bits of a number without one. -/
def withSign (f : BinaryFormat) (negative : Bool) (bits : Nat) : Nat :=
  if negative then f.signBit + bits else bits

end BinaryFormat

/-- The ratio `num / den` times `base ^ power`, as numerator and denominator. -/
def scaleRatio (base : Nat) (power : Int) (num den : Nat) : Nat × Nat :=
  match power with
  | .ofNat n => (num * Nat.pow base n, den)
  | .negSucc n => (num, den * Nat.pow base (n + 1))

/-- The quotient rounded to the nearest whole number, a tie to the even one. -/
def roundHalfEven (num den : Nat) : Nat :=
  let quotient := num / den
  let rest := 2 * (num % den)
  if rest < den then quotient
  else if den < rest then quotient + 1
  else quotient + quotient % 2

/-- The greatest `n` with `2 ^ n ≤ num / den`. -/
def binaryOrder (num den : Nat) : Int :=
  let guess : Int := (Nat.log2 num : Int) - Nat.log2 den
  let (top, bottom) := scaleRatio 2 (-guess) num den
  if bottom ≤ top then guess else guess - 1

def digitCount (n : Nat) : Nat :=
  (Nat.toDigits 10 n).length

/-- The greatest `n` with `10 ^ n ≤ num / den`. -/
def decimalOrder (num den : Nat) : Int :=
  let guess : Int := (digitCount num : Int) - digitCount den
  let (top, bottom) := scaleRatio 10 (-guess) num den
  if bottom ≤ top then guess else guess - 1

namespace BinaryFormat

/-- The bits of the number of the format nearest to a positive ratio.

The exponent `q` of the last place is that of the ratio's own binade, but never
below that of the smallest positive number.  Neighbouring numbers have
neighbouring bits, so a carry out of the rounded significand moves to the next
binade by itself, and beyond the last binade to infinity. -/
def ofRatio (f : BinaryFormat) (num den : Nat) : Nat :=
  let q := max (binaryOrder num den - f.fraction) f.leastExponent
  let (top, bottom) := scaleRatio 2 (-q) num den
  let bits := (q - f.leastExponent).toNat * Nat.pow 2 f.fraction + roundHalfEven top bottom
  min bits f.infinity

/-- Powers of ten beyond this bound exceed every format in use. -/
def decimalBound : Int := 400

/-- The bits of the number nearest to `digits * 10 ^ power`. -/
def ofDecimal (f : BinaryFormat) (digits : Nat) (power : Int) : Nat :=
  if digits = 0 then 0
  else
    let order := digitCount digits + power
    if decimalBound < order then f.infinity
    else if order < -decimalBound then 0
    else
      let (num, den) := scaleRatio 10 power digits 1
      f.ofRatio num den

end BinaryFormat

/-- A finite positive number `significand * 2 ^ power` of a format.  It is
`narrow` when the numbers below it lie closer than those above. -/
structure Finite where
  significand : Nat
  power : Int
  narrow : Bool
deriving DecidableEq, Repr

/-- What bits without a sign stand for. -/
inductive Magnitude where
  | zero
  | finite (value : Finite)
  | infinite
  | nan
deriving DecidableEq, Repr

def BinaryFormat.isNegative (f : BinaryFormat) (bits : Nat) : Bool :=
  f.signBit ≤ bits

/-- The magnitude behind some bits, whatever their sign. -/
def BinaryFormat.magnitude (f : BinaryFormat) (bits : Nat) : Magnitude :=
  let bits := bits % f.signBit
  let field := bits / Nat.pow 2 f.fraction
  let fraction := bits % Nat.pow 2 f.fraction
  if bits = 0 then .zero
  else if bits = f.infinity then .infinite
  else if f.infinity < bits then .nan
  else if field = 0 then .finite ⟨fraction, f.leastExponent, false⟩
  else .finite ⟨Nat.pow 2 f.fraction + fraction, f.leastExponent + (field - 1 : Nat),
    fraction == 0 && 1 < field⟩

end Number
end PropertyBinding
