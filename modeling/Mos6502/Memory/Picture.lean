import Mos6502.Memory.Basic

/-!
# The picture in memory

The cells from 0x0200 to 0x05FF are shown as a grid of 32 rows and 32 columns, one shade of grey a byte, from left to
right and from top to bottom.  An enlarged picture shows each cell as a square.
-/

namespace Mos6502

namespace Picture

/-- The number of rows and of columns. -/
def side : Nat := 32

/-- The cell at the top left. -/
def origin : UInt16 := 0x0200

/-- The grey of a byte as red, green and blue, white from 255 on. -/
def shade (byte intensity : UInt8) : UInt32 :=
  let level := min (byte.toNat * intensity.toNat) 255
  UInt32.ofNat (level * 0x10000 + level * 0x100 + level)

/-- The shades of one row of cells. -/
def row (m : Memory) (intensity : UInt8) (index : Nat) : List UInt32 :=
  (List.range side).map fun column => shade (m.get (origin + UInt16.ofNat (side * index + column))) intensity

/-- The shades of all cells, row after row. -/
def ofMemory (m : Memory) (intensity : UInt8) : List UInt32 :=
  (List.range side).flatMap (row m intensity)

/-- Each entry of a list a number of times. -/
def stretch (scale : Nat) (entries : List α) : List α :=
  entries.flatMap (List.replicate scale)

/-- A square of shades a cell, row after row. -/
def enlarged (m : Memory) (intensity : UInt8) (scale : Nat) : List UInt32 :=
  (stretch scale ((List.range side).map fun index => stretch scale (row m intensity index))).flatten

end Picture

end Mos6502
