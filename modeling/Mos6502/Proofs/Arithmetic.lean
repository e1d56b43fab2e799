import Mos6502.Arithmetic

/-!
# Sums and differences as integers

What the carry and the overflow of a byte sum say about the integers that the bytes stand for.  The key facts: the
overflow of a sum and of a difference is set exactly when the signed result does not fit into a byte
(`overflow_addWithCarry`, `overflow_subtractWithCarry`), and the carry of a difference exactly when nothing is borrowed
(`carry_subtractWithCarry`).
-/

namespace Mos6502

/-- The number that a byte stands for in two's complement. -/
def signedValue (byte : Nat) : Int :=
  if byte < 128 then byte else byte - 256

/-! ### Single bytes -/

theorem isNegative_eq_testBit (b : UInt8) : isNegative b = b.toNat.testBit 7 := by
  revert b
  decide +kernel

theorem isNegative_xor (a b : UInt8) : isNegative (a ^^^ b) = (isNegative a ^^ isNegative b) := by
  rw [isNegative_eq_testBit, isNegative_eq_testBit, isNegative_eq_testBit, UInt8.toNat_xor, Nat.testBit_xor]

theorem isNegative_and (a b : UInt8) : isNegative (a &&& b) = (isNegative a && isNegative b) := by
  rw [isNegative_eq_testBit, isNegative_eq_testBit, isNegative_eq_testBit, UInt8.toNat_and, Nat.testBit_and]

theorem and_sign_bit_ne_zero (b : UInt8) : (b &&& 0x80 != 0) = isNegative b := by
  revert b
  decide +kernel

theorem isNegative_eq_decide (b : UInt8) : isNegative b = decide (128 ≤ b.toNat) := rfl

theorem isZero_eq_decide (b : UInt8) : isZero b = decide (b.toNat = 0) := by
  revert b
  decide +kernel

theorem toNat_complement (b : UInt8) : (~~~b).toNat = 255 - b.toNat := by
  revert b
  decide +kernel

theorem toNat_succ (b : UInt8) : (b + 1).toNat = (b.toNat + 1) % 256 :=
  UInt8.toNat_add b 1

theorem toNat_pred (b : UInt8) : (b - 1).toNat = (b.toNat + 255) % 256 := by
  revert b
  decide +kernel

theorem toNat_half (b : UInt8) : (b >>> 1).toNat = b.toNat / 2 := by
  rw [UInt8.toNat_shiftRight]
  exact Nat.shiftRight_eq_div_pow _ _

/-! ### Sums -/

theorem toNat_value_addWithCarry (a b : UInt8) (c : Bool) :
    (addWithCarry a b c).value.toNat = (a.toNat + b.toNat + c.toNat) % 256 := by
  simp only [addWithCarry, UInt8.toNat_ofNat']

theorem carry_addWithCarry (a b : UInt8) (c : Bool) :
    (addWithCarry a b c).carry = decide (255 < a.toNat + b.toNat + c.toNat) := rfl

/-- The overflow compares sign bits: both summands have one that the result has not. -/
theorem overflow_addWithCarry_eq_signs (a b : UInt8) (c : Bool) :
    (addWithCarry a b c).overflow =
      ((isNegative a ^^ isNegative (addWithCarry a b c).value) &&
        (isNegative b ^^ isNegative (addWithCarry a b c).value)) := by
  rw [← isNegative_xor, ← isNegative_xor, ← isNegative_and, ← and_sign_bit_ne_zero]
  rfl

/-- A sum overflows when the signed result is out of range. -/
theorem overflow_addWithCarry (a b : UInt8) (c : Bool) :
    (addWithCarry a b c).overflow =
      decide (signedValue a.toNat + signedValue b.toNat + c.toNat < -128 ∨
        127 < signedValue a.toNat + signedValue b.toNat + c.toNat) := by
  have ha := a.toNat_lt
  have hb := b.toNat_lt
  have hc := c.toNat_le
  rw [overflow_addWithCarry_eq_signs, isNegative_eq_decide, isNegative_eq_decide, isNegative_eq_decide,
    toNat_value_addWithCarry, Bool.eq_iff_iff]
  simp only [Bool.and_eq_true, bne_iff_ne, ne_eq, decide_eq_decide, decide_eq_true_eq]
  unfold signedValue
  split <;> split <;> omega

/-! ### Differences -/

theorem signedValue_complement (b : UInt8) : signedValue (~~~b).toNat = -1 - signedValue b.toNat := by
  have := b.toNat_lt
  rw [toNat_complement]
  unfold signedValue
  split <;> split <;> omega

theorem toNat_value_subtractWithCarry (a b : UInt8) (c : Bool) :
    ((subtractWithCarry a b c).value.toNat : Int) = (a.toNat - b.toNat - (1 - c.toNat)) % 256 := by
  have := b.toNat_lt
  rw [subtractWithCarry, toNat_value_addWithCarry, toNat_complement]
  omega

/-- A difference leaves the carry set when nothing is borrowed. -/
theorem carry_subtractWithCarry (a b : UInt8) (c : Bool) :
    (subtractWithCarry a b c).carry = decide ((0 : Int) ≤ a.toNat - b.toNat - (1 - c.toNat)) := by
  have := b.toNat_lt
  rw [subtractWithCarry, carry_addWithCarry, toNat_complement, decide_eq_decide]
  omega

/-- A difference overflows when the signed result is out of range. -/
theorem overflow_subtractWithCarry (a b : UInt8) (c : Bool) :
    (subtractWithCarry a b c).overflow =
      decide (signedValue a.toNat - signedValue b.toNat - (1 - c.toNat) < -128 ∨
        127 < signedValue a.toNat - signedValue b.toNat - (1 - c.toNat)) := by
  rw [subtractWithCarry, overflow_addWithCarry, signedValue_complement, decide_eq_decide]
  omega

/-! ### Comparisons -/

theorem carry_compareBytes (a b : UInt8) : (compareBytes a b).carry = decide (b.toNat ≤ a.toNat) := rfl

theorem zero_compareBytes (a b : UInt8) : (compareBytes a b).zero = decide (a.toNat = b.toNat) := by
  show (a == b) = _
  rw [Bool.eq_iff_iff, beq_iff_eq, decide_eq_true_eq]
  exact UInt8.toNat_inj.symm

theorem negative_compareBytes (a b : UInt8) :
    (compareBytes a b).negative = decide (128 ≤ (a.toNat + 256 - b.toNat) % 256) := by
  have := b.toNat_lt
  show isNegative (a - b) = _
  rw [isNegative_eq_decide, UInt8.toNat_sub, decide_eq_decide]
  omega

/-! ### Branches -/

theorem toNat_ofInt (n : Int) : (UInt16.ofInt n).toNat = (n % 65536).toNat := by
  rw [UInt16.ofInt, UInt16.toNat_ofNat']
  omega

/-- A branch counts its signed displacement from the instruction after it, modulo 65536. -/
theorem toNat_branchDestination (address : UInt16) (displacement : UInt8) :
    (branchDestination address displacement).toNat =
      ((address.toNat + 2 + signedValue displacement.toNat) % 65536).toNat := by
  have hs : decodeDisplacement displacement = signedValue displacement.toNat := rfl
  have h2 : (2 : UInt16).toNat = 2 := rfl
  rw [branchDestination, hs, UInt16.toNat_add, UInt16.toNat_add, toNat_ofInt, h2]
  omega

end Mos6502
