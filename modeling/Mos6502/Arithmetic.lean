/-!
# Arithmetic of bytes and words

Addition and subtraction of bytes with a carry, comparison, and the displacement byte of a branch.  A byte holds a
number modulo 256, a word a number modulo 65536.  A carry out of an addition says that the sum needs a ninth bit; a
carry out of a subtraction says that nothing had to be borrowed.
-/

namespace Mos6502

/-! ### Bytes -/

/-- A property of every byte is decided by trying all 256 of them. -/
instance decidableForallByte (p : UInt8 → Prop) [DecidablePred p] : Decidable (∀ b, p b) :=
  decidable_of_iff (∀ i : Fin 256, p (UInt8.ofNat i.val))
    ⟨fun h b => by simpa using h ⟨b.toNat, b.toNat_lt⟩, fun h i => h (UInt8.ofNat i.val)⟩

/-- The result of an addition: eight bits of the sum, the ninth bit, and whether the signed sum was out of range. -/
structure ByteSum where
  value : UInt8
  carry : Bool
  overflow : Bool
  deriving DecidableEq, Repr

/-- The sum of two bytes and a carry.  The signed sum is out of range exactly when both summands have a sign that the
result has not. -/
def addWithCarry (a b : UInt8) (carry : Bool) : ByteSum :=
  let total := a.toNat + b.toNat + carry.toNat
  let value := UInt8.ofNat total
  { value
    carry := 255 < total
    overflow := ((a ^^^ value) &&& (b ^^^ value) &&& 0x80) != 0 }

/-- The difference of two bytes and a borrow, which is a carry that is not set. -/
def subtractWithCarry (a b : UInt8) (carry : Bool) : ByteSum :=
  addWithCarry a (~~~b) carry

/-- The result of a comparison. -/
structure ByteComparison where
  carry : Bool
  zero : Bool
  negative : Bool
  deriving DecidableEq, Repr

/-- Whether a byte is zero. -/
def isZero (value : UInt8) : Bool :=
  value == 0

/-- Whether the sign bit of a byte is set. -/
def isNegative (value : UInt8) : Bool :=
  128 ≤ value

/-- A register compared with an operand, both unsigned; the sign is that of the difference. -/
def compareBytes (register operand : UInt8) : ByteComparison :=
  { carry := operand ≤ register
    zero := register == operand
    negative := isNegative (register - operand) }

/-! ### Words -/

/-- The word with the given low and high byte. -/
def word (low high : UInt8) : UInt16 :=
  UInt16.ofNat (low.toNat + 256 * high.toNat)

/-- The low byte of a word. -/
def lowByte (w : UInt16) : UInt8 :=
  UInt8.ofNat (w.toNat % 256)

/-- The high byte of a word. -/
def highByte (w : UInt16) : UInt8 :=
  UInt8.ofNat (w.toNat / 256)

theorem toNat_word (low high : UInt8) : (word low high).toNat = low.toNat + 256 * high.toNat := by
  have := low.toNat_lt
  have := high.toNat_lt
  simp only [word, UInt16.toNat_ofNat']
  omega

@[simp] theorem word_lowByte_highByte (w : UInt16) : word (lowByte w) (highByte w) = w := by
  have := w.toNat_lt
  apply UInt16.toNat.inj
  simp only [toNat_word, lowByte, highByte, UInt8.toNat_ofNat']
  omega

@[simp] theorem lowByte_word (low high : UInt8) : lowByte (word low high) = low := by
  have := low.toNat_lt
  apply UInt8.toNat.inj
  simp only [lowByte, toNat_word, UInt8.toNat_ofNat']
  omega

@[simp] theorem highByte_word (low high : UInt8) : highByte (word low high) = high := by
  have := low.toNat_lt
  have := high.toNat_lt
  apply UInt8.toNat.inj
  simp only [highByte, toNat_word, UInt8.toNat_ofNat']
  omega

/-! ### Branches -/

/-- The distance that a displacement byte stands for, in two's complement. -/
def decodeDisplacement (byte : UInt8) : Int :=
  if byte < 128 then byte.toNat else byte.toNat - 256

/-- The displacement byte of a distance, if one byte can hold it. -/
def encodeDisplacement? (distance : Int) : Option UInt8 :=
  if -128 ≤ distance ∧ distance ≤ 127 then some (UInt8.ofInt distance) else none

/-- Where a branch at an address goes: its displacement counts from the instruction after it. -/
def branchDestination (address : UInt16) (displacement : UInt8) : UInt16 :=
  address + 2 + UInt16.ofInt (decodeDisplacement displacement)

end Mos6502
