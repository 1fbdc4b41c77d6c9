/-!
# Whole numbers in text

Whole-number types are given by their width and by whether they are signed.  A
text is read from its first digit to its last, and the first thing that goes
wrong decides the error: a number that has left its range is too large even if
a character that is no digit follows.
-/

namespace PropertyBinding
namespace Number

/-- A decimal digit of the basic Latin set.  Digits of other scripts do not
count as digits anywhere in this library. -/
def isDigit (c : Char) : Bool :=
  '0' ≤ c && c ≤ '9'

def digitValue (c : Char) : Nat :=
  c.toNat - '0'.toNat

/-- The value of a hexadecimal digit. -/
def hexValue? (c : Char) : Option Nat :=
  if '0' ≤ c && c ≤ '9' then some (c.toNat - '0'.toNat)
  else if 'a' ≤ c && c ≤ 'f' then some (c.toNat - 'a'.toNat + 10)
  else if 'A' ≤ c && c ≤ 'F' then some (c.toNat - 'A'.toNat + 10)
  else none

def ofDigits (cs : List Char) : Nat :=
  Nat.ofDigitChars 10 cs 0

def allDigits (cs : List Char) : Bool :=
  !cs.isEmpty && cs.all isDigit

/-- A type of whole numbers that fit into a fixed number of bits. -/
structure WholeType where
  signed : Bool
  bits : Nat
deriving DecidableEq, Repr

namespace WholeType

def largest (t : WholeType) : Int :=
  (if t.signed then Nat.pow 2 (t.bits - 1) else Nat.pow 2 t.bits : Nat) - 1

def smallest (t : WholeType) : Int :=
  if t.signed then -(Nat.pow 2 (t.bits - 1) : Nat) else 0

/-- The name of the type: `i` or `u` and the number of bits. -/
def label (t : WholeType) : String :=
  (if t.signed then "i" else "u") ++ toString t.bits

end WholeType

/-- Why a text is no number of a whole-number type. -/
inductive WholeError where
  | empty
  | invalidDigit
  | tooLarge
  | tooSmall
deriving DecidableEq, Repr

def WholeError.message : WholeError → String
  | .empty => "cannot parse integer from empty string"
  | .invalidDigit => "invalid digit found in string"
  | .tooLarge => "number too large to fit in target type"
  | .tooSmall => "number too small to fit in target type"

namespace WholeType

/-- Read on from `value`, counting away from zero. -/
def readDigits (t : WholeType) (negative : Bool) (value : Int) :
    List Char → Except WholeError Int
  | [] => .ok value
  | c :: cs =>
    if isDigit c then
      let step : Int := digitValue c
      let next := if negative then value * 10 - step else value * 10 + step
      if t.largest < next then .error .tooLarge
      else if next < t.smallest then .error .tooSmall
      else t.readDigits negative next cs
    else
      .error .invalidDigit

/-- Read a number.  One plus sign may precede the digits, and for a signed type
one minus sign. -/
def read (t : WholeType) : List Char → Except WholeError Int
  | [] => .error .empty
  | '+' :: [] => .error .invalidDigit
  | '+' :: cs => t.readDigits false 0 cs
  | '-' :: cs =>
    if t.signed && !cs.isEmpty then t.readDigits true 0 cs else .error .invalidDigit
  | cs => t.readDigits false 0 cs

end WholeType

end Number
end PropertyBinding
