import Mos6502.Processor.Basic
import Mos6502.Run.Schedule
import Mos6502.Text.Paint

/-!
# Snapshots

A box of fourteen lines that shows the registers in binary, the flags with their legend, the activity and schedule,
the top of the stack and the next instruction.  Values are painted when the snapshot is in colours; the text is the
same with and without them.
-/

namespace Mos6502

/-- The name and version of the program. -/
def productTitle : String := "emu6502 1.0.0"

namespace Snapshot

/-- The width of the column for labels. -/
def labelWidth : Nat := 5

/-- The width of the column for values. -/
def valueWidth : Nat := 17

/-- The width of the box. -/
def lineWidth : Nat := 57

/-- The text in a style if the snapshot is in colours. -/
def paint (colored : Bool) (style : Style) (text : String) : String :=
  if colored then style.paint text else text

/-- A line across the whole box. -/
def rule (fill : Char) : String :=
  "+" ++ repeated (lineWidth - 2) fill ++ "+"

/-- A line across the four columns. -/
def border (fill : Char) : String :=
  let half := repeated (labelWidth + 2) fill ++ "+" ++ repeated (valueWidth + 2) fill
  "+" ++ half ++ "+" ++ half ++ "+"

/-- A row of two labelled values. -/
def row (colored : Bool) (left right : String × String) : String :=
  let half (entry : String × String) : String :=
    fillTo labelWidth entry.1 ++ " | " ++ paint colored .green (fillTo valueWidth entry.2)
  "| " ++ half left ++ " | " ++ half right ++ " |"

/-- A row of one text. -/
def line (colored : Bool) (style : Style) (text : String) : String :=
  "| " ++ paint colored style (fillTo (lineWidth - 4) text) ++ " |"

/-- A word in binary, its bytes apart. -/
def binaryWord (w : UInt16) : String :=
  binaryByte (highByte w) ++ " " ++ binaryByte (lowByte w)

/-- The four cells at the top of the stack page, from the highest address down. -/
def stackText (m : Memory) : String :=
  "stack #0x01FF↓  " ++ spacedHex ([0x01ff, 0x01fe, 0x01fd, 0x01fc].map m.get)

/-- The next instruction. -/
def nextText (p : Processor) : String :=
  "next  " ++
    match p.peek? with
    | some i => i.text
    | none => "end of program"

/-- The lines of the snapshot. -/
def lines (colored : Bool) (p : Processor) (schedule : Schedule) : List String :=
  let r := p.registers
  [rule '=',
    line colored .boldWhite productTitle,
    border '=',
    row colored ("A", binaryByte r.accumulator) ("SP", binaryByte r.stackPointer),
    border '-',
    row colored ("X", binaryByte r.indexX) ("PC", binaryWord r.programCounter),
    border '-',
    row colored ("Y", binaryByte r.indexY) ("Flags", binaryByte r.status),
    row colored ("", "") ("", "NV-BDIZC"),
    border '=',
    line colored .yellow ("state: " ++ p.activity.text ++ "mode: " ++ schedule.text),
    line colored .plain (stackText p.memory),
    line colored (.palette 148) (nextText p),
    rule '=']

/-- The snapshot, its lines joined. -/
def render (colored : Bool) (p : Processor) (schedule : Schedule) : String :=
  "\n".intercalate (lines colored p schedule)

end Snapshot

end Mos6502
