import Mos6502.Proofs.Memory.Flat

/-!
# Cells and ranges by 16-bit addresses

An access by a 64-bit address is refused outside the address space.  A single cell that a word designates is never
refused, and a range that starts at a word and ends inside the address space is read cell by cell
(`read_toUInt64`).
-/

namespace Mos6502

theorem toNat_add_ofNat {address : UInt16} {k : Nat} (h : address.toNat + k < memorySize) :
    (address + UInt16.ofNat k).toNat = address.toNat + k := by
  have hlt : address.toNat + k < 65536 := h
  have hk : k % 65536 = k := Nat.mod_eq_of_lt (by omega)
  rw [UInt16.toNat_add, UInt16.toNat_ofNat', hk]
  exact Nat.mod_eq_of_lt hlt

namespace Memory

variable (m : Memory)

theorem readByte_toUInt64 (address : UInt16) : m.readByte address.toUInt64 = .ok (m.get address) := by
  have hlt := address.toNat_lt
  unfold readByte get
  rw [UInt16.toNat_toUInt64, Vector.getElem?_eq_getElem hlt]

theorem mapM_readByte (addresses : List UInt16) :
    (addresses.map UInt16.toUInt64).mapM m.readByte = .ok (addresses.map m.get) := by
  induction addresses with
  | nil => rfl
  | cons address addresses ih =>
    rw [List.map_cons, List.mapM_cons, m.readByte_toUInt64, ih]
    rfl

theorem writeByte_toUInt64 (address : UInt16) (byte : UInt8) :
    m.writeByte address.toUInt64 byte = .ok (m.set address byte) := by
  have hlt := address.toNat_lt
  have hlimit : address.toUInt64 < sizeLimit := by
    rw [UInt64.lt_iff_toNat_lt, UInt16.toNat_toUInt64]
    exact hlt
  unfold writeByte
  rw [if_pos hlimit, UInt16.toNat_toUInt64]
  unfold set
  congr 2
  apply Vector.ext
  intro k hk
  simp [Vector.getElem_setIfInBounds, Vector.getElem_set]

theorem read_toUInt64 {address : UInt16} {length : Nat} (h : address.toNat + length ≤ memorySize) :
    m.read address.toUInt64 (UInt64.ofNat length) =
      .ok ((List.range length).map fun k => m.get (address + UInt16.ofNat k)) := by
  have hle : address.toNat + length ≤ 65536 := h
  have hstart : address.toUInt64.toNat = address.toNat := UInt16.toNat_toUInt64 address
  have hlength : (UInt64.ofNat length).toNat = length := by
    apply UInt64.toNat_ofNat_of_lt'
    show length < 18446744073709551616
    omega
  have hfits : address.toUInt64.toNat + (UInt64.ofNat length).toNat < UInt64.size := by
    rw [hstart, hlength]
    exact Nat.lt_of_le_of_lt h (by decide)
  rw [m.read_eq hfits, Flat.read, hstart, hlength, if_pos h]
  refine congrArg Except.ok (List.map_congr_left fun k hk => ?_)
  have hk' : address.toNat + k < memorySize := by
    have hlt := List.mem_range.1 hk
    show address.toNat + k < 65536
    omega
  rw [get_eq_flat, toNat_add_ofNat hk']

end Memory

end Mos6502
