import Mos6502.Memory.Basic
import Mos6502.Text.Numeral

/-!
# Ranges of the memory

Access to runs of cells by 64-bit addresses and lengths, as callers outside the processor give them.  The end of a range
has to fit 64 bits: a sum, difference or product that does not is a fault (`checkedAdd`, `checkedSub`, `checkedMul`), and
nothing is decided about the range.  A `Window` is a part of the memory that can be read and not written.
-/

namespace Mos6502

/-- Why an access to the memory is refused. -/
inductive MemoryError where
  /-- A single byte outside the address space. -/
  | address (address : UInt64)
  | readOverflow (length address : UInt64)
  | writeOverflow (length address : UInt64)
  /-- A write through a window. -/
  | readOnly (address : UInt64)
  /-- A number that does not fit 64 bits, or a slice that is not inside the cells. -/
  | fault
  deriving DecidableEq, Repr

/-- The wording of a refusal. -/
def MemoryError.message : MemoryError → String
  | .address a => "address 0x" ++ hexAddress a.toNat ++ " is outside of the addressable space (0x0000 → 0xFFFF)"
  | .readOverflow n a => "could not READ " ++ toString n.toNat ++ " bytes at address 0x" ++ hexAddress a.toNat ++
      ", address max is 0xFFFF"
  | .writeOverflow n a => "could not WRITE " ++ toString n.toNat ++ " bytes at address 0x" ++ hexAddress a.toNat ++
      ", address max is 0xFFFF"
  | .readOnly a => "trying to write at address 0x" ++ hexAddress a.toNat ++ " through a read-only memory view"
  | .fault => "a number does not fit 64 bits"

/-- The memory size as a 64-bit number. -/
def sizeLimit : UInt64 := 65536

/-! ### Numbers of 64 bits -/

/-- A sum, if it fits 64 bits. -/
def checkedAdd (a b : UInt64) : Except MemoryError UInt64 :=
  if a.toNat + b.toNat < UInt64.size then .ok (a + b) else .error .fault

/-- A difference, if it is not negative. -/
def checkedSub (a b : UInt64) : Except MemoryError UInt64 :=
  if b ≤ a then .ok (a - b) else .error .fault

/-- A product, if it fits 64 bits. -/
def checkedMul (a b : UInt64) : Except MemoryError UInt64 :=
  if a.toNat * b.toNat < UInt64.size then .ok (a * b) else .error .fault

/-! ### Ranges of cells -/

namespace Cells

/-- The bytes from a start up to an end. -/
def slice (cells : Cells) (start stop : UInt64) : Except MemoryError (List UInt8) :=
  if start ≤ stop ∧ stop ≤ sizeLimit then .ok (cells.toArray.extract start.toNat stop.toNat).toList
  else .error .fault

/-- The cells with the given bytes stored one after the other; what would fall outside is dropped. -/
def storeFrom (cells : Cells) (start : Nat) : List UInt8 → Cells
  | [] => cells
  | byte :: rest => storeFrom (cells.setIfInBounds start byte) (start + 1) rest

end Cells

namespace Memory

/-- The bytes of a range. -/
def read (m : Memory) (address length : UInt64) : Except MemoryError (List UInt8) := do
  let stop ← checkedAdd address length
  if sizeLimit < stop then .error (.readOverflow length address)
  else Cells.slice m.cells address stop

/-- The memory with a range replaced. -/
def write (m : Memory) (address : UInt64) (bytes : List UInt8) : Except MemoryError Memory := do
  let length := UInt64.ofNat bytes.length
  let stop ← checkedAdd address length
  if sizeLimit < stop then .error (.writeOverflow length address)
  else .ok { m with cells := Cells.storeFrom m.cells address.toNat bytes }

/-- The byte at a 64-bit address. -/
def readByte (m : Memory) (address : UInt64) : Except MemoryError UInt8 :=
  match m.cells[address.toNat]? with
  | some byte => .ok byte
  | none => .error (.address address)

/-- The memory with the byte at a 64-bit address replaced. -/
def writeByte (m : Memory) (address : UInt64) (byte : UInt8) : Except MemoryError Memory :=
  if address < sizeLimit then .ok { m with cells := m.cells.setIfInBounds address.toNat byte }
  else .error (.address address)

/-- A blank memory that preserves pulled cells, with an image stored at an address. -/
def ofImage (address : UInt64) (image : List UInt8) : Except MemoryError Memory :=
  (blank .preserve).write address image

end Memory

/-! ### Windows -/

/-- A part of the memory that can be read and not written. -/
structure Window where
  start : UInt64
  length : UInt64
  deriving DecidableEq, Repr

/-- The window of the given length at an address. -/
def Window.of? (start length : UInt64) : Except MemoryError Window := do
  let stop ← checkedAdd start length
  if sizeLimit < stop then .error (.readOverflow length start)
  else .ok { start, length }

namespace Window

/-- The end of the window. -/
def stop (w : Window) : Except MemoryError UInt64 :=
  checkedAdd w.start w.length

/-- Whether an address lies in the window; the end is looked at only if the address is not before the start. -/
def contains (w : Window) (address : UInt64) : Except MemoryError Bool :=
  if w.start ≤ address then w.stop.map (address < ·) else .ok false

/-- The bytes of a range that lies in the window. -/
def read (w : Window) (m : Memory) (address length : UInt64) : Except MemoryError (List UInt8) :=
  if address < w.start then .error (.readOverflow length address)
  else do
    let stop ← checkedAdd address length
    if (← w.stop) < stop then .error (.readOverflow length address)
    else Cells.slice m.cells address stop

/-- All bytes of the window. -/
def snapshot (w : Window) (m : Memory) : Except MemoryError (List UInt8) := do
  Cells.slice m.cells w.start (← w.stop)

/-- The first and last address of the window and its length. -/
def text (w : Window) : Except MemoryError String := do
  let last ← checkedSub (← w.stop) 1
  return "MemoryView #0x" ++ hexAddress w.start.toNat ++ " → #0x" ++ hexAddress last.toNat ++ ", size = " ++
    toString w.length.toNat ++ " bytes"

end Window

end Mos6502
