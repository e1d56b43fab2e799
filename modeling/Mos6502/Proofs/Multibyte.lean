import Mathlib.Data.Nat.Digits.Defs
import Mos6502.Proofs.Arithmetic

/-!
# Numbers of several bytes

Bytes in little-endian order stand for a number below a power of 256, and for a signed one in two's complement.  A
chain of byte sums goes from the least significant byte to the most significant one, and hands each carry on.  The key
facts: a chain of sums and its last carry make up the whole sum (`littleEndian_sums`), and the overflow of its last byte
tells whether the signed sum fits into the bytes (`overflow_sums`).  A chain of differences is a chain of sums with the
complement (`chain_subtractWithCarry`), so the same holds of it.
-/

namespace Mos6502

/-! ### Bytes in little-endian order -/

/-- The number that bytes stand for, the least significant first. -/
def littleEndian (bytes : List UInt8) : Nat :=
  Nat.ofDigits 256 (bytes.map UInt8.toNat)

/-- The given number of least significant bytes of a number. -/
def bytesOf : Nat → Nat → List UInt8
  | 0, _ => []
  | n + 1, x => UInt8.ofNat x :: bytesOf n (x / 256)

/-- The number that bytes stand for in two's complement. -/
def signedLittleEndian (bytes : List UInt8) : Int :=
  if 2 * littleEndian bytes < 256 ^ bytes.length then littleEndian bytes
  else littleEndian bytes - 256 ^ bytes.length

/-- Whether a number can be written in two's complement with the given number of bytes. -/
def FitsSigned (n : Nat) (x : Int) : Prop :=
  -256 ^ n ≤ 2 * x ∧ 2 * x < 256 ^ n

@[simp] theorem littleEndian_nil : littleEndian [] = 0 := rfl

@[simp] theorem littleEndian_cons (byte : UInt8) (bytes : List UInt8) :
    littleEndian (byte :: bytes) = byte.toNat + 256 * littleEndian bytes := by
  rw [littleEndian, List.map_cons, Nat.ofDigits_cons]
  rfl

theorem littleEndian_lt (bytes : List UInt8) : littleEndian bytes < 256 ^ bytes.length := by
  have hdigits : ∀ d ∈ bytes.map UInt8.toNat, d < 256 := by
    intro d hd
    obtain ⟨byte, -, rfl⟩ := List.mem_map.1 hd
    exact byte.toNat_lt
  have h := Nat.ofDigits_lt_base_pow_length (by decide) hdigits
  rwa [List.length_map] at h

theorem bytesOf_littleEndian (bytes : List UInt8) : bytesOf bytes.length (littleEndian bytes) = bytes := by
  induction bytes with
  | nil => rfl
  | cons byte bytes ih =>
    have hlt := byte.toNat_lt
    have hdiv : (byte.toNat + 256 * littleEndian bytes) / 256 = littleEndian bytes := by omega
    have hmod : UInt8.ofNat (byte.toNat + 256 * littleEndian bytes) = byte := by
      apply UInt8.toNat.inj
      rw [UInt8.toNat_ofNat']
      omega
    rw [List.length_cons, littleEndian_cons, bytesOf, hdiv, hmod, ih]

/-- Half of a power of 256 is a number, unless the power is one. -/
private theorem exists_half {bytes : List UInt8} (h : bytes ≠ []) :
    ∃ half : Nat, 256 ^ bytes.length = 2 * half ∧ (256 : Int) ^ bytes.length = 2 * half := by
  obtain ⟨n, hn⟩ : ∃ n, bytes.length = n + 1 := Nat.exists_eq_succ_of_ne_zero (by simpa using h)
  have hpow : 256 ^ bytes.length = 2 * (128 * 256 ^ n) := by
    rw [hn, Nat.pow_succ]
    omega
  exact ⟨_, hpow, by exact_mod_cast hpow⟩

theorem signedLittleEndian_singleton (byte : UInt8) : signedLittleEndian [byte] = signedValue byte.toNat := by
  unfold signedLittleEndian signedValue
  simp only [littleEndian_cons, littleEndian_nil, List.length_singleton]
  split <;> split <;> omega

/-- All bytes but the most significant one count as they are. -/
theorem signedLittleEndian_cons (byte : UInt8) {bytes : List UInt8} (h : bytes ≠ []) :
    signedLittleEndian (byte :: bytes) = byte.toNat + 256 * signedLittleEndian bytes := by
  have hlt := byte.toNat_lt
  obtain ⟨half, hpow, hcast⟩ := exists_half h
  unfold signedLittleEndian
  rw [littleEndian_cons, List.length_cons, Nat.pow_succ, Int.pow_succ, hpow, hcast]
  split <;> split <;> push_cast <;> omega

/-- A byte below the others does not change whether they fit. -/
private theorem fitsSigned_succ {bytes : List UInt8} (h : bytes ≠ []) (byte : UInt8) (x : Int) :
    FitsSigned (bytes.length + 1) (byte.toNat + 256 * x) ↔ FitsSigned bytes.length x := by
  have hlt := byte.toNat_lt
  obtain ⟨half, -, hcast⟩ := exists_half h
  unfold FitsSigned
  rw [Int.pow_succ, hcast]
  omega

/-! ### Complements -/

theorem littleEndian_complement (bytes : List UInt8) :
    littleEndian (bytes.map fun byte => ~~~byte) + littleEndian bytes + 1 = 256 ^ bytes.length := by
  induction bytes with
  | nil => rfl
  | cons byte bytes ih =>
    have hlt := byte.toNat_lt
    rw [List.map_cons, littleEndian_cons, littleEndian_cons, List.length_cons, Nat.pow_succ', ← ih, toNat_complement]
    omega

theorem signedLittleEndian_complement {bytes : List UInt8} (h : bytes ≠ []) :
    signedLittleEndian (bytes.map fun byte => ~~~byte) = -1 - signedLittleEndian bytes := by
  obtain ⟨half, hpow, hcast⟩ := exists_half h
  have hsum := littleEndian_complement bytes
  rw [hpow] at hsum
  unfold signedLittleEndian
  rw [List.length_map, hpow, hcast]
  split <;> split <;> omega

/-! ### Chains of sums -/

/-- The sums of bytes one after the other, each with the carry that the one before it leaves. -/
def chain (sum : UInt8 → UInt8 → Bool → ByteSum) (carry : Bool) : List UInt8 → List UInt8 → List ByteSum
  | a :: as, b :: bs => sum a b carry :: chain sum (sum a b carry).carry as bs
  | _, _ => []

/-- The carry that some sums leave when a carry has come in. -/
def carryOut (carry : Bool) (sums : List ByteSum) : Bool :=
  (sums.getLast?.map ByteSum.carry).getD carry

theorem carryOut_cons (carry : Bool) (s : ByteSum) (sums : List ByteSum) :
    carryOut carry (s :: sums) = carryOut s.carry sums := by
  unfold carryOut
  rw [List.getLast?_cons]
  cases sums.getLast? <;> rfl

theorem length_chain (sum : UInt8 → UInt8 → Bool → ByteSum) (carry : Bool) {a b : List UInt8}
    (h : a.length = b.length) : (chain sum carry a b).length = a.length := by
  induction a generalizing b carry with
  | nil => cases b <;> rfl
  | cons x a ih =>
    cases b with
    | nil => cases h
    | cons y b => rw [chain, List.length_cons, List.length_cons, ih _ (Nat.succ.inj h)]

/-- What a byte sum leaves out of the sum is its carry. -/
theorem toNat_value_add_carry (a b : UInt8) (carry : Bool) :
    (addWithCarry a b carry).value.toNat + 256 * (addWithCarry a b carry).carry.toNat =
      a.toNat + b.toNat + carry.toNat := by
  have ha := a.toNat_lt
  have hb := b.toNat_lt
  have hc := carry.toNat_le
  rw [toNat_value_addWithCarry, carry_addWithCarry]
  by_cases h : 255 < a.toNat + b.toNat + carry.toNat
  · rw [decide_eq_true h, Bool.toNat_true]
    omega
  · rw [decide_eq_false h, Bool.toNat_false]
    omega

/-- What a chain of sums leaves out of the whole sum is its last carry. -/
theorem littleEndian_sums (carry : Bool) {a b : List UInt8} (h : a.length = b.length) :
    littleEndian ((chain addWithCarry carry a b).map ByteSum.value) +
        256 ^ a.length * (carryOut carry (chain addWithCarry carry a b)).toNat =
      littleEndian a + littleEndian b + carry.toNat := by
  induction a generalizing b carry with
  | nil =>
    obtain rfl : b = [] := List.length_eq_zero_iff.1 h.symm
    simp [chain, carryOut]
  | cons x a ih =>
    cases b with
    | nil => cases h
    | cons y b =>
      have hfirst := toNat_value_add_carry x y carry
      have hrest := ih (addWithCarry x y carry).carry (Nat.succ.inj h)
      rw [chain, List.map_cons, carryOut_cons, littleEndian_cons, littleEndian_cons, littleEndian_cons,
        List.length_cons, Nat.pow_succ', Nat.mul_assoc]
      omega

/-- The last of a chain of sums overflows when the signed sum does not fit into the bytes. -/
theorem overflow_sums (carry : Bool) {a b : List UInt8} (h : a.length = b.length) (hne : a ≠ []) :
    ∃ last, (chain addWithCarry carry a b).getLast? = some last ∧
      (last.overflow = true ↔
        ¬FitsSigned a.length (signedLittleEndian a + signedLittleEndian b + carry.toNat)) := by
  induction a generalizing b carry with
  | nil => exact absurd rfl hne
  | cons x a ih =>
    cases b with
    | nil => cases h
    | cons y b =>
      by_cases ha : a = []
      · subst ha
        obtain rfl : b = [] := List.length_eq_zero_iff.1 (Nat.succ.inj h).symm
        refine ⟨addWithCarry x y carry, rfl, ?_⟩
        rw [overflow_addWithCarry, decide_eq_true_eq, signedLittleEndian_singleton, signedLittleEndian_singleton]
        unfold FitsSigned
        simp only [List.length_singleton]
        omega
      · -- the first byte is below the others, and its carry goes into their sum
        have hlength : a.length = b.length := Nat.succ.inj h
        have hb : b ≠ [] := by
          rintro rfl
          exact ha (List.length_eq_zero_iff.1 hlength)
        obtain ⟨last, hlast, hoverflow⟩ := ih (addWithCarry x y carry).carry hlength ha
        refine ⟨last, ?_, ?_⟩
        · rw [chain, List.getLast?_cons, hlast]
          rfl
        · have hfirst := toNat_value_add_carry x y carry
          have hsum : signedLittleEndian (x :: a) + signedLittleEndian (y :: b) + carry.toNat =
              (addWithCarry x y carry).value.toNat + 256 *
                (signedLittleEndian a + signedLittleEndian b + (addWithCarry x y carry).carry.toNat) := by
            rw [signedLittleEndian_cons x ha, signedLittleEndian_cons y hb]
            omega
          rw [hoverflow, hsum, List.length_cons, fitsSigned_succ ha]

/-- A chain of differences adds the complement. -/
theorem chain_subtractWithCarry (carry : Bool) (a b : List UInt8) :
    chain subtractWithCarry carry a b = chain addWithCarry carry a (b.map fun byte => ~~~byte) := by
  induction a generalizing b carry with
  | nil => cases b <;> rfl
  | cons x a ih =>
    cases b with
    | nil => rfl
    | cons y b =>
      rw [chain, List.map_cons, chain, ih]
      rfl

/-! ### Values, carries and overflows -/

private theorem length_values (sum : UInt8 → UInt8 → Bool → ByteSum) (carry : Bool) {a b : List UInt8}
    (h : a.length = b.length) : ((chain sum carry a b).map ByteSum.value).length = a.length := by
  rw [List.length_map, length_chain sum carry h]

theorem littleEndian_values_sums (carry : Bool) {a b : List UInt8} (h : a.length = b.length) :
    littleEndian ((chain addWithCarry carry a b).map ByteSum.value) =
      (littleEndian a + littleEndian b + carry.toNat) % 256 ^ a.length := by
  have hlt := littleEndian_lt ((chain addWithCarry carry a b).map ByteSum.value)
  rw [length_values _ _ h] at hlt
  rw [← littleEndian_sums carry h, Nat.add_mul_mod_self_left, Nat.mod_eq_of_lt hlt]

/-- A carry goes out of a chain of sums when the whole sum does not fit into the bytes. -/
theorem carryOut_sums (carry : Bool) {a b : List UInt8} (h : a.length = b.length) :
    carryOut carry (chain addWithCarry carry a b) = true ↔
      256 ^ a.length ≤ littleEndian a + littleEndian b + carry.toNat := by
  have hsum := littleEndian_sums carry h
  have hlt := littleEndian_lt ((chain addWithCarry carry a b).map ByteSum.value)
  rw [length_values _ _ h] at hlt
  cases hc : carryOut carry (chain addWithCarry carry a b) with
  | true =>
    rw [hc, Bool.toNat_true] at hsum
    exact iff_of_true rfl (by omega)
  | false =>
    rw [hc, Bool.toNat_false] at hsum
    exact iff_of_false Bool.false_ne_true (by omega)

private theorem length_complement {a b : List UInt8} (h : a.length = b.length) :
    a.length = (b.map fun byte => ~~~byte).length :=
  h.trans (List.length_map _).symm

theorem littleEndian_values_differences (carry : Bool) {a b : List UInt8} (h : a.length = b.length) :
    (littleEndian ((chain subtractWithCarry carry a b).map ByteSum.value) : Int) =
      (littleEndian a - littleEndian b - (1 - carry.toNat)) % 256 ^ a.length := by
  have hcomplement := littleEndian_complement b
  rw [← h] at hcomplement
  rw [chain_subtractWithCarry, littleEndian_values_sums carry (length_complement h), ← hcomplement]
  have hsum : ((littleEndian a + littleEndian (b.map fun byte => ~~~byte) + carry.toNat : Nat) : Int) =
      littleEndian a - littleEndian b - (1 - carry.toNat) + (256 ^ a.length : Nat) := by
    rw [← hcomplement]
    push_cast
    omega
  rw [Int.natCast_emod, hsum, hcomplement, Int.add_emod_right]
  push_cast
  rfl

/-- Nothing is borrowed in a chain of differences when the whole difference is not negative. -/
theorem carryOut_differences (carry : Bool) {a b : List UInt8} (h : a.length = b.length) :
    carryOut carry (chain subtractWithCarry carry a b) = true ↔
      littleEndian b + (1 - carry.toNat) ≤ littleEndian a := by
  have hcomplement := littleEndian_complement b
  have hc := carry.toNat_le
  rw [chain_subtractWithCarry, carryOut_sums carry (length_complement h), h, ← hcomplement]
  omega

/-- The last of a chain of differences overflows when the signed difference does not fit into the bytes. -/
theorem overflow_differences (carry : Bool) {a b : List UInt8} (h : a.length = b.length) (hne : a ≠ []) :
    ∃ last, (chain subtractWithCarry carry a b).getLast? = some last ∧
      (last.overflow = true ↔
        ¬FitsSigned a.length (signedLittleEndian a - signedLittleEndian b - (1 - carry.toNat))) := by
  have hb : b ≠ [] := by
    rintro rfl
    exact hne (List.length_eq_zero_iff.1 h)
  have hsum : signedLittleEndian a + signedLittleEndian (b.map fun byte => ~~~byte) + carry.toNat =
      signedLittleEndian a - signedLittleEndian b - (1 - carry.toNat) := by
    rw [signedLittleEndian_complement hb]
    omega
  rw [chain_subtractWithCarry, ← hsum]
  exact overflow_sums carry (length_complement h) hne

theorem carry_of_last {carry : Bool} {sums : List ByteSum} {last : ByteSum} (h : sums.getLast? = some last) :
    last.carry = carryOut carry sums := by
  rw [carryOut, h]
  rfl

/-- A chain of differences with the same bytes takes a chain of sums back. -/
theorem values_differences_sums {a b : List UInt8} (h : a.length = b.length) :
    (chain subtractWithCarry true ((chain addWithCarry false a b).map ByteSum.value) b).map ByteSum.value = a := by
  have hlength := length_values addWithCarry false h
  have hvalue : (littleEndian ((chain subtractWithCarry true ((chain addWithCarry false a b).map ByteSum.value)
      b).map ByteSum.value) : Int) = littleEndian a := by
    have hlt : (littleEndian a : Int) < 256 ^ a.length := by exact_mod_cast littleEndian_lt a
    rw [littleEndian_values_differences true (hlength.trans h), hlength, littleEndian_values_sums false h]
    push_cast
    rw [Int.sub_sub, Int.emod_sub_emod]
    simp only [Bool.toNat_false, Bool.toNat_true]
    have hdifference : (littleEndian a + littleEndian b + (0 : Nat) - (littleEndian b + (1 - (1 : Nat))) : Int) =
        littleEndian a := by omega
    rw [hdifference]
    exact Int.emod_eq_of_lt (by omega) hlt
  have hlength' := length_values subtractWithCarry true (hlength.trans h)
  rw [← bytesOf_littleEndian (List.map _ _), hlength', hlength, Int.ofNat_inj.1 hvalue, bytesOf_littleEndian]

/-- Chains of byte sums and differences compute with numbers of several bytes.  The sum and the difference come out
modulo their power of 256; the last carry tells whether the sum is too large, and whether nothing is borrowed; the last
overflow tells whether the signed result fits.  Subtracting what has been added gives the first number back. -/
theorem chain_computes (carry : Bool) {a b : List UInt8} (hlength : a.length = b.length) (hne : a ≠ []) :
    (chain addWithCarry carry a b).map ByteSum.value =
        bytesOf a.length ((littleEndian a + littleEndian b + carry.toNat) % 256 ^ a.length) ∧
    (∃ last, (chain addWithCarry carry a b).getLast? = some last ∧
      (last.carry = true ↔ 256 ^ a.length ≤ littleEndian a + littleEndian b + carry.toNat) ∧
      (last.overflow = true ↔
        ¬FitsSigned a.length (signedLittleEndian a + signedLittleEndian b + carry.toNat))) ∧
    (chain subtractWithCarry carry a b).map ByteSum.value =
        bytesOf a.length
          (((littleEndian a : Int) - littleEndian b - (1 - carry.toNat)) % 256 ^ a.length).toNat ∧
    (∃ last, (chain subtractWithCarry carry a b).getLast? = some last ∧
      (last.carry = true ↔ littleEndian b + (1 - carry.toNat) ≤ littleEndian a) ∧
      (last.overflow = true ↔
        ¬FitsSigned a.length (signedLittleEndian a - signedLittleEndian b - (1 - carry.toNat)))) ∧
    (chain subtractWithCarry true ((chain addWithCarry false a b).map ByteSum.value) b).map ByteSum.value = a := by
  refine ⟨?_, ?_, ?_, ?_, values_differences_sums hlength⟩
  · rw [← littleEndian_values_sums carry hlength, ← length_values addWithCarry carry hlength, bytesOf_littleEndian]
  · obtain ⟨last, hlast, hoverflow⟩ := overflow_sums carry hlength hne
    refine ⟨last, hlast, ?_, hoverflow⟩
    rw [carry_of_last hlast, carryOut_sums carry hlength]
  · rw [← littleEndian_values_differences carry hlength, Int.toNat_natCast,
      ← length_values subtractWithCarry carry hlength, bytesOf_littleEndian]
  · obtain ⟨last, hlast, hoverflow⟩ := overflow_differences carry hlength hne
    refine ⟨last, hlast, ?_, hoverflow⟩
    rw [carry_of_last hlast, carryOut_differences carry hlength]

/-- Two bytes: 0x7fff and 1 make 0x8000, which has no carry and is not the signed sum. -/
theorem chain_computes_two_bytes :
    ∃ last, (chain addWithCarry false [0xff, 0x7f] [0x01, 0x00]).getLast? = some last ∧
      last.carry = false ∧ last.overflow = true := by
  obtain ⟨-, ⟨last, hlast, hcarry, hoverflow⟩, -⟩ :=
    chain_computes false (show [0xff, 0x7f].length = [0x01, 0x00].length from rfl) (by decide)
  refine ⟨last, hlast, ?_, ?_⟩
  · rw [← Bool.not_eq_true, hcarry]
    decide
  · rw [hoverflow]
    unfold FitsSigned
    decide

end Mos6502
