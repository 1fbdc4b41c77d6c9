import PropertyBinding.Number.Binary

/-!
# Floating-point numbers in text

A floating-point literal is a sign, if any, before `inf`, `infinity` or `nan` in
any letter case, or before a decimal number: digits with or without a point,
which may stand at either end of them, and an exponent, if any.  A number is
rounded once, from the exact decimal value.
-/

namespace PropertyBinding
namespace Number

/-- Why a text is no floating-point literal. -/
inductive LiteralError where
  | empty
  | invalid
deriving DecidableEq, Repr

def LiteralError.message : LiteralError → String
  | .empty => "cannot parse float from empty string"
  | .invalid => "invalid float literal"

/-- The leading sign, as whether it is a minus, and the rest. -/
def takeSign : List Char → Bool × List Char
  | '-' :: cs => (true, cs)
  | '+' :: cs => (false, cs)
  | cs => (false, cs)

/-- A number written with its digits on both sides of the point. -/
structure DecimalText where
  whole : List Char
  part : List Char
  exponent : Int
deriving DecidableEq, Repr

namespace DecimalText

/-- The exponent at the end of a number: nothing, or `e`, a sign, if any, and at
least one digit. -/
def readExponent : List Char → Option Int
  | [] => some 0
  | c :: cs =>
    if c = 'e' ∨ c = 'E' then
      let (negative, digits) := takeSign cs
      if allDigits digits then
        let size : Int := ofDigits digits
        some (if negative then -size else size)
      else none
    else none

def read (cs : List Char) : Option DecimalText :=
  let whole := cs.takeWhile isDigit
  let (part, rest) :=
    match cs.dropWhile isDigit with
    | '.' :: rest => (rest.takeWhile isDigit, rest.dropWhile isDigit)
    | rest => ([], rest)
  if whole.isEmpty && part.isEmpty then none
  else (readExponent rest).map fun exponent => ⟨whole, part, exponent⟩

def bits (f : BinaryFormat) (d : DecimalText) : Nat :=
  f.ofDecimal (ofDigits (d.whole ++ d.part)) (d.exponent - d.part.length)

end DecimalText

/-- Whether two texts agree when the case of basic Latin letters is ignored. -/
def sameWord (word : String) (cs : List Char) : Bool :=
  cs.map Char.toLower == word.toList

/-- Read a literal as the bits of a number of the format. -/
def BinaryFormat.read (f : BinaryFormat) (cs : List Char) : Except LiteralError Nat :=
  if cs.isEmpty then .error .empty
  else
    let (negative, rest) := takeSign cs
    match DecimalText.read rest with
    | some d => .ok (f.withSign negative (d.bits f))
    | none =>
      if sameWord "inf" rest || sameWord "infinity" rest then
        .ok (f.withSign negative f.infinity)
      else if sameWord "nan" rest then .ok (f.withSign negative f.nan)
      else .error .invalid

end Number
end PropertyBinding
