import Mos6502.Arithmetic

/-!
# The memory

65536 byte cells, one for each word, and what happens to a stack cell once it has been pulled.  Reading and writing
one cell cannot fail.  The key facts: a cell reads as it was last written (`get_set_self`) and writing one cell
leaves the others alone (`get_set_ne`).
-/

namespace Mos6502

/-- What happens to a stack cell once it has been pulled: it keeps its value, or it is zeroed. -/
inductive PopPolicy where
  | preserve
  | clear
  deriving DecidableEq, Repr

/-- The name of a policy. -/
def PopPolicy.name : PopPolicy → String
  | .preserve => "preserve"
  | .clear => "clear"

/-- The number of cells. -/
abbrev memorySize : Nat := 65536

/-- The byte cells, by address. -/
abbrev Cells := Vector UInt8 memorySize

/-- Byte cells together with a policy for pulled stack cells. -/
structure Memory where
  cells : Cells
  popPolicy : PopPolicy
  deriving DecidableEq

/-- The cell that a stack pointer designates, in the page above the zero page. -/
def stackCell (pointer : UInt8) : UInt16 :=
  0x0100 + pointer.toUInt16

namespace Memory

/-- A memory of zeros. -/
def blank (popPolicy : PopPolicy) : Memory :=
  { cells := Vector.replicate memorySize 0, popPolicy }

/-- The byte at an address. -/
def get (m : Memory) (address : UInt16) : UInt8 :=
  have := address.toNat_lt
  m.cells[address.toNat]

/-- The memory with one byte replaced. -/
def set (m : Memory) (address : UInt16) (byte : UInt8) : Memory :=
  have := address.toNat_lt
  { m with cells := m.cells.set address.toNat byte }

/-- The word whose low byte is at the first address and whose high byte is at the second. -/
def getWord (m : Memory) (low high : UInt16) : UInt16 :=
  word (m.get low) (m.get high)

/-- The memory with a byte stored in a stack cell. -/
def push (m : Memory) (byte pointer : UInt8) : Memory :=
  m.set (stackCell pointer) byte

/-- The byte in a stack cell, and the memory once it has been pulled. -/
def pop (m : Memory) (pointer : UInt8) : UInt8 × Memory :=
  let byte := m.get (stackCell pointer)
  match m.popPolicy with
  | .preserve => (byte, m)
  | .clear => (byte, m.set (stackCell pointer) 0)

/-- The memory with every cell zeroed. -/
def zeroed (m : Memory) : Memory :=
  { m with cells := m.cells.map fun _ => 0 }

/-! ### Reading what was written -/

@[simp] theorem get_set_self (m : Memory) (address : UInt16) (byte : UInt8) :
    (m.set address byte).get address = byte := by
  simp [get, set]

theorem get_set_ne (m : Memory) {written address : UInt16} (h : address ≠ written) (byte : UInt8) :
    (m.set written byte).get address = m.get address := by
  have : written.toNat ≠ address.toNat := fun he => h (UInt16.toNat.inj he).symm
  simp [get, set, this]

theorem get_set (m : Memory) (written address : UInt16) (byte : UInt8) :
    (m.set written byte).get address = if address = written then byte else m.get address := by
  by_cases h : address = written
  · subst h
    simp
  · simp [get_set_ne m h, h]

@[simp] theorem popPolicy_set (m : Memory) (address : UInt16) (byte : UInt8) :
    (m.set address byte).popPolicy = m.popPolicy := rfl

theorem zeroed_eq (m : Memory) : m.zeroed = blank m.popPolicy := by
  unfold zeroed blank
  congr 1
  exact Vector.map_const

@[simp] theorem get_blank (popPolicy : PopPolicy) (address : UInt16) : (blank popPolicy).get address = 0 := by
  simp [get, blank]

end Memory

end Mos6502
