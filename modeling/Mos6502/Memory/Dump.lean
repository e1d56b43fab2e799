import Mos6502.Memory.Range

/-!
# Hexadecimal dumps

A dump shows rows of sixteen bytes, each labelled with its address.  It begins at the row that holds the requested
start, and it is refused as a whole when one of its bytes cannot be read.
-/

namespace Mos6502

/-- The number of bytes in a row. -/
def rowLength : Nat := 16

/-- One row: the address, eight bytes, and the other bytes. -/
def dumpRow (address : Nat) (row : List UInt8) : String :=
  "#" ++ hexAddress address ++ ":  " ++ spacedHex (row.take 8) ++ "  " ++ spacedHex (row.drop 8)

/-- The bytes from an address on, in rows. -/
def dumpRows (address : Nat) (bytes : List UInt8) : List String :=
  match bytes with
  | [] => []
  | byte :: rest =>
    dumpRow address ((byte :: rest).take rowLength) ::
      dumpRows (address + rowLength) ((byte :: rest).drop rowLength)
  termination_by bytes.length
  decreasing_by simp only [List.length_drop, List.length_cons, rowLength]; omega

/-- The rows of a dump, where `read` gives the bytes of a range. -/
def dumpWith (read : UInt64 → UInt64 → Except MemoryError (List UInt8)) (start lines : UInt64) :
    Except MemoryError (List String) := do
  let base ← checkedSub start (start % 16)
  let length ← checkedMul 16 lines
  return dumpRows base.toNat (← read base length)

/-- Rows of the memory. -/
def Memory.dump (m : Memory) (start lines : UInt64) : Except MemoryError (List String) :=
  dumpWith m.read start lines

/-- Rows of a window. -/
def Window.dump (w : Window) (m : Memory) (start lines : UInt64) : Except MemoryError (List String) :=
  dumpWith (w.read m) start lines

end Mos6502
