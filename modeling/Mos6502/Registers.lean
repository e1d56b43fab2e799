import Mos6502.Memory.Basic
import Mos6502.Text.Numeral

/-!
# The register file

Accumulator, two index registers, status, program counter and stack pointer.  The stack grows downwards: a byte is
pushed into the cell that the stack pointer designates, and pulled from the one above it.  Setting a flag sets it
(`hasFlag_setFlag_self`) and leaves the others alone (`hasFlag_setFlag_ne`).
-/

namespace Mos6502

/-- The flags of the status register. -/
inductive Flag where
  | negative
  | overflow
  | break
  | decimal
  | interrupt
  | zero
  | carry
  deriving DecidableEq, Repr

/-- The bit of a flag. -/
def Flag.mask : Flag → UInt8
  | .negative => 0x80
  | .overflow => 0x40
  | .break => 0x10
  | .decimal => 0x08
  | .interrupt => 0x04
  | .zero => 0x02
  | .carry => 0x01

/-- Whether a flag is set in a status. -/
def hasFlag (status : UInt8) (flag : Flag) : Bool :=
  status &&& flag.mask == flag.mask

/-- A status with a flag set or cleared. -/
def setFlag (status : UInt8) (flag : Flag) (value : Bool) : UInt8 :=
  if value then status ||| flag.mask else status &&& ~~~flag.mask

/-- The letter of a flag, a capital if the flag is set. -/
def flagLetter (status : UInt8) (flag : Flag) : Char :=
  let letter := match flag with
    | .negative => 'n'
    | .overflow => 'v'
    | .break => 'b'
    | .decimal => 'd'
    | .interrupt => 'i'
    | .zero => 'z'
    | .carry => 'c'
  if hasFlag status flag then letter.toUpper else letter

/-- The letters of all flags from the highest bit to the lowest, with a dash for the bit without a meaning. -/
def statusText (status : UInt8) : String :=
  let letter := flagLetter status
  String.ofList [letter .negative, letter .overflow, '-', letter .break, letter .decimal, letter .interrupt,
    letter .zero, letter .carry]

/-- The status at the start: only the bit without a meaning is set. -/
def initialStatus : UInt8 := 0x20

/-- The register file. -/
structure Registers where
  accumulator : UInt8
  indexX : UInt8
  indexY : UInt8
  status : UInt8
  programCounter : UInt16
  stackPointer : UInt8
  deriving DecidableEq, Repr

/-- The registers of one byte that instructions load, store and count with. -/
inductive Register where
  | accumulator
  | indexX
  | indexY
  deriving DecidableEq, Repr

namespace Registers

/-- The registers at the start of a program. -/
def initial (programCounter : UInt16) : Registers :=
  { accumulator := 0, indexX := 0, indexY := 0, status := initialStatus, programCounter, stackPointer := 0xff }

/-- The value of a register. -/
def get (r : Registers) : Register → UInt8
  | .accumulator => r.accumulator
  | .indexX => r.indexX
  | .indexY => r.indexY

/-- The registers with one of them replaced. -/
def put (r : Registers) (register : Register) (value : UInt8) : Registers :=
  match register with
  | .accumulator => { r with accumulator := value }
  | .indexX => { r with indexX := value }
  | .indexY => { r with indexY := value }

/-- Whether a flag is set. -/
def has (r : Registers) (flag : Flag) : Bool :=
  hasFlag r.status flag

/-- The registers with a flag set or cleared. -/
def mark (r : Registers) (flag : Flag) (value : Bool) : Registers :=
  { r with status := setFlag r.status flag value }

/-- The registers with the zero and negative flags of a value. -/
def markValue (r : Registers) (value : UInt8) : Registers :=
  (r.mark .zero (isZero value)).mark .negative (isNegative value)

/-- The registers with the program counter moved on, modulo 65536. -/
def advance (r : Registers) (length : Nat) : Registers :=
  { r with programCounter := r.programCounter + UInt16.ofNat length }

/-- The registers in one line. -/
def text (r : Registers) : String :=
  "Registers [A:0x" ++ hexByte .lower r.accumulator ++ ", X:0x" ++ hexByte .lower r.indexX ++ ", Y:0x" ++
    hexByte .lower r.indexY ++ " | SP:0x" ++ hexByte .lower r.stackPointer ++ " PC:0x" ++
    hexWord .lower r.programCounter ++ " | " ++ statusText r.status ++ "]"

end Registers

/-! ### The stack -/

/-- Registers and memory, all that an instruction can read and change. -/
structure Machine where
  registers : Registers
  memory : Memory
  deriving DecidableEq

namespace Machine

/-- The machine with a byte pushed. -/
def push (m : Machine) (byte : UInt8) : Machine :=
  { memory := m.memory.push byte m.registers.stackPointer
    registers := { m.registers with stackPointer := m.registers.stackPointer - 1 } }

/-- The byte on top of the stack, and the machine without it. -/
def pull (m : Machine) : UInt8 × Machine :=
  let pointer := m.registers.stackPointer + 1
  let (byte, memory) := m.memory.pop pointer
  (byte, { memory, registers := { m.registers with stackPointer := pointer } })

/-- The machine with a word pushed, its high byte first. -/
def pushWord (m : Machine) (w : UInt16) : Machine :=
  (m.push (highByte w)).push (lowByte w)

/-- The word on top of the stack, and the machine without it. -/
def pullWord (m : Machine) : UInt16 × Machine :=
  let (low, m) := m.pull
  let (high, m) := m.pull
  (word low high, m)

end Machine

/-! ### Flags and the stack -/

private theorem or_and_distrib (a b c : UInt8) : (a ||| b) &&& c = (a &&& c) ||| (b &&& c) :=
  UInt8.eq_of_toBitVec_eq BitVec.and_or_distrib_right

theorem hasFlag_setFlag_self (status : UInt8) (flag : Flag) (value : Bool) :
    hasFlag (setFlag status flag value) flag = value := by
  cases value with
  | true =>
    have : (status ||| flag.mask) &&& flag.mask = flag.mask := by
      rw [or_and_distrib, UInt8.and_self]
      cases flag <;> revert status <;> decide +kernel
    simp [hasFlag, setFlag, this]
  | false =>
    have hm : ~~~flag.mask &&& flag.mask = 0 := by cases flag <;> decide
    have h0 : (0 : UInt8) ≠ flag.mask := by cases flag <;> decide
    simp [hasFlag, setFlag, UInt8.and_assoc, hm, h0]

theorem hasFlag_setFlag_ne (status : UInt8) {flag other : Flag} (h : other ≠ flag) (value : Bool) :
    hasFlag (setFlag status flag value) other = hasFlag status other := by
  have hm : flag.mask &&& other.mask = 0 := by
    cases flag <;> cases other <;> first | exact absurd rfl h | decide
  have hn : ~~~flag.mask &&& other.mask = other.mask := by
    cases flag <;> cases other <;> first | exact absurd rfl h | decide
  cases value with
  | true => simp [hasFlag, setFlag, or_and_distrib, hm]
  | false => simp [hasFlag, setFlag, UInt8.and_assoc, hn]

@[simp] theorem length_statusText (status : UInt8) : (statusText status).length = 8 := by
  simp only [statusText, String.length_ofList, List.length_cons, List.length_nil]

end Mos6502
