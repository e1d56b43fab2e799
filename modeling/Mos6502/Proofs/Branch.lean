import Mos6502.Addressing
import Mos6502.Proofs.Arithmetic

/-!
# Displacements and destinations

A displacement byte and the distance that it stands for determine each other (`encodeDisplacement?_eq_some_iff`), and so do,
from a given branch, the distance and the destination (`branchDestination_eq_iff`), although the sums that lead to it are
taken modulo 65536.  Hence a destination is reached by at most one byte, which is found by encoding its distance
(`displacement_exact`).
-/

namespace Mos6502

/-- The distance from the instruction after a branch to a destination, as a signed word. -/
def branchDistance (address destination : UInt16) : Int :=
  (destination - address - 2).toInt16.toInt

variable {address destination : UInt16} {byte byte' : UInt8} {distance : Int}

/-! ### Bytes and distances -/

/-- A byte stands for the one distance in its range that it is equal to modulo 256. -/
theorem decodeDisplacement_eq_iff :
    decodeDisplacement byte = distance ↔ (-128 ≤ distance ∧ distance ≤ 127) ∧ (byte.toNat : Int) = distance % 256 := by
  have hlt := byte.toNat_lt
  have hdecode : decodeDisplacement byte = signedValue byte.toNat := rfl
  rw [hdecode]
  unfold signedValue
  split <;> omega

theorem ofInt_eq_iff : UInt8.ofInt distance = byte ↔ (byte.toNat : Int) = distance % 256 := by
  have hnonneg : 0 ≤ distance % 256 := Int.emod_nonneg _ (by decide)
  have hbyte : (UInt8.ofInt distance).toNat = (distance % 256).toNat := by
    rw [UInt8.ofInt, UInt8.toNat_ofNat']
    omega
  rw [← UInt8.toNat_inj, hbyte]
  omega

/-- A byte is the encoding of the distance that it stands for, and of no other. -/
theorem encodeDisplacement?_eq_some_iff : encodeDisplacement? distance = some byte ↔ decodeDisplacement byte = distance := by
  rw [decodeDisplacement_eq_iff, ← ofInt_eq_iff]
  unfold encodeDisplacement?
  split
  · rename_i hrange
    rw [Option.some_inj, and_iff_right hrange]
  · rename_i hrange
    simp [hrange]

theorem encodeDisplacement?_isSome : (encodeDisplacement? distance).isSome ↔ -128 ≤ distance ∧ distance ≤ 127 := by
  unfold encodeDisplacement?
  split <;> simp [*]

/-! ### Distances and destinations -/

/-- The distance is the signed word that leads from the instruction after the branch to the destination. -/
theorem branchDistance_eq_iff :
    branchDistance address destination = distance ↔
      (-32768 ≤ distance ∧ distance < 32768) ∧ (destination.toNat : Int) = (address.toNat + 2 + distance) % 65536 := by
  have haddress := address.toNat_lt
  have hdestination := destination.toNat_lt
  have htwo : (2 : UInt16).toNat = 2 := rfl
  have hword : branchDistance address destination = ((destination - address - 2).toNat : Int).bmod 65536 :=
    BitVec.toInt_eq_toNat_bmod _
  rw [hword, UInt16.toNat_sub, UInt16.toNat_sub, htwo, Int.bmod]
  split <;> omega

/-- A branch reaches the destination whose distance its displacement stands for. -/
theorem branchDestination_eq_iff :
    branchDestination address byte = destination ↔ decodeDisplacement byte = branchDistance address destination := by
  obtain ⟨hbounds, -⟩ : _ ∧ (byte.toNat : Int) = _ := decodeDisplacement_eq_iff.1 (Eq.refl (decodeDisplacement byte))
  have hdestination : (branchDestination address byte).toNat =
      ((address.toNat + 2 + decodeDisplacement byte) % 65536).toNat := toNat_branchDestination address byte
  rw [eq_comm (b := branchDistance address destination), branchDistance_eq_iff, ← UInt16.toNat_inj, hdestination]
  omega

/-- The distance to a destination can be encoded exactly if it is between -128 and 127.  The byte that encodes it leads to the
destination and is the only one that does, also as the operand of an instruction; if there is none, no byte leads there.
What a byte stands for is encoded by this byte. -/
theorem displacement_exact (address destination : UInt16) :
    let distance := branchDistance address destination
    ((∃ byte, encodeDisplacement? distance = some byte) ↔ -128 ≤ distance ∧ distance ≤ 127) ∧
    (∀ byte, encodeDisplacement? distance = some byte ↔
      branchDestination address byte = destination ∧
        ∀ byte', branchDestination address byte' = destination → byte' = byte) ∧
    (encodeDisplacement? distance = none ↔ ∀ byte, branchDestination address byte ≠ destination) ∧
    (∀ byte other m, encodeDisplacement? distance = some byte ↔
      (AddressingMode.relative address byte).effectiveAddress? other m = some destination) ∧
    ∀ byte, encodeDisplacement? (decodeDisplacement byte) = some byte := by
  intro distance
  -- the encoding and the sums that lead to the destination describe the same bytes
  have hreach : ∀ byte, encodeDisplacement? distance = some byte ↔ branchDestination address byte = destination :=
    fun byte => encodeDisplacement?_eq_some_iff.trans branchDestination_eq_iff.symm
  refine ⟨?_, ?_, ?_, ?_, fun byte => encodeDisplacement?_eq_some_iff.2 rfl⟩
  · rw [← Option.isSome_iff_exists]
    exact encodeDisplacement?_isSome
  · intro byte
    rw [hreach]
    refine ⟨fun hbyte => ⟨hbyte, ?_⟩, And.left⟩
    intro byte' hbyte'
    have hsame := (hreach byte').2 hbyte'
    rw [(hreach byte).2 hbyte] at hsame
    exact (Option.some.inj hsame).symm
  · rw [Option.eq_none_iff_forall_ne_some]
    exact forall_congr' fun byte => not_congr (hreach byte)
  · intro byte other m
    rw [hreach, AddressingMode.effectiveAddress?, Option.some_inj]

example : branchDistance 0x0010 0xfff0 = -34 ∧ branchDestination 0x0010 0xde = 0xfff0 := by decide

end Mos6502
