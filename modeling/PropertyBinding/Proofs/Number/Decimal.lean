import PropertyBinding.Name.Element
import PropertyBinding.Bind.Scalar

/-!
# Whole numbers are read as they are written

A whole number is written in decimal digits, with a minus sign in front if it is negative.
It is read back by any type in whose range it is.  That the number is in the range is
enough, although every number on the way has to be, too: as long as digits are read the
number moves away from zero.

Positions are written in the same way, so two positions are written alike only if they
are the same.
-/

namespace PropertyBinding
namespace Number

/-! ## Digits -/

theorem isDigit_of_isDigit {c : Char} (digit : c.isDigit = true) : isDigit c = true := by
  simpa [Char.isDigit, isDigit, Char.le_def] using digit

theorem toNat_of_isDigit {c : Char} (digit : isDigit c = true) : 48 ≤ c.toNat ∧ c.toNat ≤ 57 := by
  simpa [isDigit, Char.le_def, UInt32.le_iff_toNat_le] using digit

/-- The digits of a number. -/
theorem toList_toString (n : Nat) : (toString n).toList = Nat.toDigits 10 n := by
  rw [Nat.toString_eq_repr, Nat.repr_eq_ofList_toDigits, String.toList_ofList]

theorem isDigit_of_mem_toString {n : Nat} {c : Char} (member : c ∈ (toString n).toList) :
    isDigit c = true := by
  rw [toList_toString] at member
  exact isDigit_of_isDigit (Nat.isDigit_of_mem_toDigits (by decide) (by decide) member)

theorem toList_toString_ne_nil (n : Nat) : (toString n).toList ≠ [] := by
  rw [toList_toString]
  exact Nat.toDigits_ne_nil

@[simp] theorem ofDigits_toString (n : Nat) : ofDigits (toString n).toList = n := by
  rw [toList_toString]
  exact Nat.ofDigitChars_toDigits (by decide) (by decide)

theorem toString_injective {m n : Nat} (same : toString m = toString n) : m = n := by
  rw [← ofDigits_toString m, same, ofDigits_toString]

/-- Reading digits never goes back towards zero. -/
theorem le_ofDigitChars (cs : List Char) (value : Nat) :
    value ≤ Nat.ofDigitChars 10 cs value := by
  induction cs generalizing value with
  | nil => exact Nat.le_refl value
  | cons c rest inductionHypothesis =>
      rw [Nat.ofDigitChars_cons]
      have further := inductionHypothesis (10 * value + (c.toNat - '0'.toNat))
      omega

/-! ## Reading -/

/-- A number with a sign. -/
def withSign (negative : Bool) (value : Nat) : Int :=
  if negative then -(value : Int) else value

@[simp] theorem withSign_true (value : Nat) : withSign true value = -(value : Int) := rfl

@[simp] theorem withSign_false (value : Nat) : withSign false value = value := rfl

/-- The text of a number is that of its size, behind a minus sign if it is negative. -/
theorem toList_toString_int (n : Int) :
    (toString n).toList =
      if n < 0 then '-' :: (toString n.natAbs).toList else (toString n.natAbs).toList := by
  cases n with
  | ofNat n => rfl
  | negSucc n =>
      rw [if_pos (Int.negSucc_lt_zero n)]
      exact String.toList_append

/-- Numbers are written with nothing but digits and minus signs. -/
theorem eq_or_isDigit_of_mem_toString_int {n : Int} {c : Char}
    (member : c ∈ (toString n).toList) : c = '-' ∨ isDigit c = true := by
  rw [toList_toString_int] at member
  split at member
  · rcases List.mem_cons.mp member with minus | later
    · exact Or.inl minus
    · exact Or.inr (isDigit_of_mem_toString later)
  · exact Or.inr (isDigit_of_mem_toString member)

namespace WholeType

variable {t : WholeType} {cs : List Char}

theorem smallest_le_zero (t : WholeType) : t.smallest ≤ 0 := by
  unfold smallest
  split
  · exact Int.neg_nonpos_of_nonneg (Int.natCast_nonneg _)
  · exact Int.le_refl 0

theorem zero_le_largest (t : WholeType) : 0 ≤ t.largest := by
  have positive : ∀ n : Nat, 0 < Nat.pow 2 n := fun n => Nat.two_pow_pos n
  unfold largest
  have first := positive (t.bits - 1)
  have second := positive t.bits
  split <;> omega

/-- Digits are read to their number, in whatever direction, if it is in the range. -/
theorem readDigits_of_digits (digits : ∀ c ∈ cs, isDigit c = true) (negative : Bool) (value : Nat)
    (low : t.smallest ≤ withSign negative (Nat.ofDigitChars 10 cs value))
    (high : withSign negative (Nat.ofDigitChars 10 cs value) ≤ t.largest) :
    t.readDigits negative (withSign negative value) cs =
      .ok (withSign negative (Nat.ofDigitChars 10 cs value)) := by
  induction cs generalizing value with
  | nil => rfl
  | cons c rest inductionHypothesis =>
      rw [Nat.ofDigitChars_cons] at low high ⊢
      have next : (if negative = true then withSign negative value * 10 - (digitValue c : Int)
          else withSign negative value * 10 + (digitValue c : Int)) =
            withSign negative (10 * value + (c.toNat - '0'.toNat)) := by
        unfold withSign digitValue
        split <;> omega
      have further := le_ofDigitChars rest (10 * value + (c.toNat - '0'.toNat))
      have zero := t.smallest_le_zero
      have zeroToo := t.zero_le_largest
      have within : t.smallest ≤ withSign negative (10 * value + (c.toNat - '0'.toNat)) ∧
          withSign negative (10 * value + (c.toNat - '0'.toNat)) ≤ t.largest := by
        cases negative <;> simp only [withSign_true, withSign_false] at low high ⊢ <;> omega
      simp only [readDigits, digits c List.mem_cons_self, if_true, next]
      rw [if_neg (Int.not_lt.mpr within.2), if_neg (Int.not_lt.mpr within.1)]
      exact inductionHypothesis (fun d later => digits d (List.mem_cons_of_mem _ later)) _ low high

/-- A text that begins with a digit has no sign. -/
theorem read_of_digits (digits : ∀ c ∈ cs, isDigit c = true) (some : cs ≠ []) :
    t.read cs = t.readDigits false 0 cs := by
  cases cs with
  | nil => exact absurd rfl some
  | cons c rest =>
      have digit := digits c List.mem_cons_self
      have other : ∀ sign, isDigit sign = false → c ≠ sign := by
        rintro sign no rfl
        rw [no] at digit
        cases digit
      unfold read
      split
      · contradiction
      · rename_i same
        exact absurd (List.cons.inj same).1 (other '+' rfl)
      · rename_i same
        exact absurd (List.cons.inj same).1 (other '+' rfl)
      · rename_i same
        exact absurd (List.cons.inj same).1 (other '-' rfl)
      · rfl

/-- A number in the range of a type is read back from its text. -/
theorem read_toString {n : Int} (low : t.smallest ≤ n) (high : n ≤ t.largest) :
    t.read (toString n).toList = .ok n := by
  have digits : ∀ c ∈ (toString n.natAbs).toList, isDigit c = true :=
    fun _ => isDigit_of_mem_toString
  have size : Nat.ofDigitChars 10 (toString n.natAbs).toList 0 = n.natAbs := ofDigits_toString _
  have reads : ∀ negative, withSign negative n.natAbs = n →
      t.readDigits negative 0 (toString n.natAbs).toList = .ok n := by
    intro negative same
    have read := readDigits_of_digits (t := t) digits negative 0 (by rw [size, same]; exact low)
      (by rw [size, same]; exact high)
    rw [size, same] at read
    cases negative <;> exact read
  rw [toList_toString_int]
  by_cases negative : n < 0
  · have isSigned : t.signed = true := by
      cases signed : t.signed with
      | true => rfl
      | false =>
          rw [smallest, signed, if_neg Bool.false_ne_true] at low
          omega
    have some : (toString n.natAbs).toList.isEmpty = false :=
      List.isEmpty_eq_false_iff.mpr (toList_toString_ne_nil _)
    rw [if_pos negative]
    simp only [read, isSigned, some, Bool.not_false, Bool.and_self, if_true]
    exact reads true (by rw [withSign_true]; omega)
  · rw [if_neg negative, read_of_digits digits (toList_toString_ne_nil _)]
    exact reads false (by rw [withSign_false]; omega)

end WholeType
end Number

/-! ## Converting -/

namespace Text

theorem trimChars_of_not_blank {cs : List Char} (plain : ∀ c ∈ cs, isBlank c = false) :
    trimChars cs = cs := by
  have kept : ∀ cs : List Char, (∀ c ∈ cs, isBlank c = false) → cs.dropWhile isBlank = cs := by
    intro cs plain
    cases cs with
    | nil => rfl
    | cons c rest => rw [List.dropWhile_cons, plain c List.mem_cons_self, if_neg Bool.false_ne_true]
  rw [trimChars, kept cs plain, trimEndChars, kept cs.reverse, List.reverse_reverse]
  exact fun c member => plain c (List.mem_reverse.mp member)

theorem isBlank_of_isDigit {c : Char} (digit : Number.isDigit c = true) : isBlank c = false := by
  have range := Number.toNat_of_isDigit digit
  unfold isBlank
  simp only [Bool.or_eq_false_iff, Bool.and_eq_false_iff, decide_eq_false_iff_not,
    beq_eq_false_iff_ne]
  omega

end Text

open Number

namespace Conversion

/-- A number is converted back from its text. -/
theorem whole_toString {t : WholeType} {n : Int} (low : t.smallest ≤ n) (high : n ≤ t.largest) :
    whole t (toString n) = .ok n := by
  have plain : ∀ c ∈ (toString n).toList, Text.isBlank c = false := by
    intro c member
    rcases eq_or_isDigit_of_mem_toString_int member with rfl | digit
    · rfl
    · exact Text.isBlank_of_isDigit digit
  rw [whole, Text.trimChars_of_not_blank plain, WholeType.read_toString low high]
  rfl

theorem truth_toString (b : Bool) : truth (if b then "true" else "false") = .ok b := by
  cases b <;> rfl

end Conversion

/-! ## Positions -/

namespace Element

variable {e : Element} {n position : Nat}

/-- Of an element that consists of digits nothing is left out in the comparison. -/
theorem relaxed_of_allDigits (digits : allDigits e.text.toList = true) : e.relaxed = e.text := by
  have plain : ∀ c ∈ e.text.toList, (!isWordBreak c) = true := by
    intro c member
    have digit := List.all_eq_true.mp (Bool.and_eq_true_iff.mp digits).2 c member
    rw [Bool.not_eq_true']
    cases breaks : isWordBreak c with
    | false => rfl
    | true =>
        simp only [isWordBreak, Bool.or_eq_true, beq_iff_eq] at breaks
        rcases breaks with rfl | rfl <;> cases digit
  rw [relaxed, List.filter_eq_self.mpr plain, String.ofList_toList, ite_self]

theorem position?_eq_some_iff : e.position? = some position ↔
    allDigits e.text.toList = true ∧ ofDigits e.text.toList = position ∧
      position < positionBound := by
  unfold position?
  by_cases digits : allDigits e.text.toList = true
  · by_cases below : ofDigits e.text.toList < positionBound
    · simp only [digits, below, if_true, Option.some.injEq, true_and]
      exact ⟨fun same => ⟨same, same ▸ below⟩, fun same => same.1⟩
    · simp only [digits, below, if_true, if_false, reduceCtorEq, true_and, false_iff]
      exact fun ⟨same, within⟩ => below (same ▸ within)
  · rw [if_neg digits]
    simp only [digits, Bool.false_eq_true, reduceCtorEq, false_and]

/-- An element that is compared like a position denotes no other. -/
theorem position?_of_relaxed (same : e.relaxed = toString n)
    (found : e.position? = some position) : position = n := by
  rcases position?_eq_some_iff.mp found with ⟨digits, rfl, _⟩
  rw [← relaxed_of_allDigits digits, same, ofDigits_toString]

end Element
end PropertyBinding
