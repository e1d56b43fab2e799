import Mos6502.Instruction

/-!
# Execution of an instruction

What each operation does to registers and memory, and what it reports.  An operation is an `Action`: it changes the
machine step by step, and keeps what it has done if it fails.  It fails only when it needs an operand that its
addressing mode does not have.  What an instruction reports is a list of fields, each with the value that was read or
that a register has afterwards.
-/

namespace Mos6502

/-- One field of the report of an instruction. -/
inductive Field where
  /-- A register with the value it was given. -/
  | register (register : Register) (value : UInt8)
  | stackPointer (value : UInt8)
  | programCounter (value : UInt16)
  | status (value : UInt8)
  /-- A byte read from memory or stored there. -/
  | operand (value : UInt8)
  /-- A byte changed in place. -/
  | result (value : UInt8)
  | unknownOpcode (opcode : UInt8)
  deriving DecidableEq, Repr

/-- The letter of a register. -/
def Register.letter : Register → String
  | .accumulator => "A"
  | .indexX => "X"
  | .indexY => "Y"

/-- A field as it is printed. -/
def Field.text : Field → String
  | .register r value => "[" ++ r.letter ++ "=0x" ++ hexByte .lower value ++ "]"
  | .stackPointer value => "[SP=0x" ++ hexByte .lower value ++ "]"
  | .programCounter value => "[CP=0x" ++ hexWord .upper value ++ "]"
  | .status value => "[S=" ++ statusText value ++ "]"
  | .operand value => "(0x" ++ hexByte .lower value ++ ")"
  | .result value => "0x" ++ hexByte .lower value
  | .unknownOpcode opcode => "unknown opcode 0x" ++ hexByte .lower opcode

/-- What an executed instruction did. -/
structure TraceLine where
  instruction : Instruction
  /-- The effective address. -/
  target : Option UInt16
  fields : List Field
  deriving DecidableEq, Repr

namespace TraceLine

/-- The fields one after the other. -/
def outcome (line : TraceLine) : String :=
  String.join (line.fields.map Field.text)

/-- The line of the trace: the columns of the instruction, its effective address, and the outcome. -/
def text (line : TraceLine) : String :=
  line.instruction.columns ++ line.instruction.mode.resolvedText line.target ++ "  " ++ line.outcome

end TraceLine

/-- Why an instruction cannot be executed. -/
inductive ExecutionError where
  | missingOperand (mnemonic : Mnemonic) (address : UInt16)
  deriving DecidableEq, Repr

/-- The wording of a failure. -/
def ExecutionError.message : ExecutionError → String
  | .missingOperand mnemonic address => mnemonic.text ++ " at #0x" ++ hexWord .upper address ++
      " needs an operand, its addressing mode provides none"

/-! ### Actions -/

/-- What is done to a machine.  An action that fails keeps what it has done until then. -/
abbrev Action := EStateM ExecutionError Machine

namespace Action

/-- The registers. -/
def registers : Action Registers := do
  return (← get).registers

/-- Changes the registers. -/
def update (change : Registers → Registers) : Action Unit :=
  modify fun m => { m with registers := change m.registers }

/-- The byte at an address. -/
def readByte (address : UInt16) : Action UInt8 := do
  return (← get).memory.get address

/-- Stores a byte at an address. -/
def writeByte (address : UInt16) (byte : UInt8) : Action Unit :=
  modify fun m => { m with memory := m.memory.set address byte }

/-- Pushes a byte. -/
def push (byte : UInt8) : Action Unit :=
  modify fun m => m.push byte

/-- Pushes a word, its high byte first. -/
def pushWord (w : UInt16) : Action Unit :=
  modify fun m => m.pushWord w

/-- Pulls a byte. -/
def pull : Action UInt8 :=
  modifyGet fun m => m.pull

/-- Pulls a word, its low byte first. -/
def pullWord : Action UInt16 :=
  modifyGet fun m => m.pullWord

/-- Sets or clears a flag. -/
def mark (flag : Flag) (value : Bool) : Action Unit :=
  update fun r => r.mark flag value

/-- Gives a register a value, and marks whether that is zero or negative. -/
def assign (register : Register) (value : UInt8) : Action Unit :=
  update fun r => (r.put register value).markValue value

/-- Moves the program counter to an address, and reports it. -/
def goTo (address : UInt16) : Action (List Field) := do
  update fun r => { r with programCounter := address }
  return [.programCounter address]

/-! ### Actions on a given machine -/

variable {α β : Type} (m : Machine)

theorem bind_apply (action : Action α) (next : α → Action β) :
    (action >>= next) m =
      match action m with
      | .ok value m => next value m
      | .error e m => .error e m := by
  simp only [bind, EStateM.bind]
  cases action m <;> rfl

@[simp] theorem registers_apply : registers m = .ok m.registers m := rfl

@[simp] theorem update_apply (change : Registers → Registers) :
    update change m = .ok () { m with registers := change m.registers } := rfl

@[simp] theorem readByte_apply (address : UInt16) : readByte address m = .ok (m.memory.get address) m := rfl

@[simp] theorem writeByte_apply (address : UInt16) (byte : UInt8) :
    writeByte address byte m = .ok () { m with memory := m.memory.set address byte } := rfl

@[simp] theorem push_apply (byte : UInt8) : push byte m = .ok () (m.push byte) := rfl

@[simp] theorem pushWord_apply (w : UInt16) : pushWord w m = .ok () (m.pushWord w) := rfl

@[simp] theorem pull_apply : pull m = .ok m.pull.1 m.pull.2 := rfl

@[simp] theorem pullWord_apply : pullWord m = .ok m.pullWord.1 m.pullWord.2 := rfl

@[simp] theorem mark_apply (flag : Flag) (value : Bool) :
    mark flag value m = .ok () { m with registers := m.registers.mark flag value } := rfl

@[simp] theorem assign_apply (register : Register) (value : UInt8) :
    assign register value m =
      .ok () { m with registers := (m.registers.put register value).markValue value } := rfl

@[simp] theorem goTo_apply (address : UInt16) :
    goTo address m =
      .ok [.programCounter address] { m with registers := { m.registers with programCounter := address } } := rfl

end Action

namespace Instruction

open Mos6502.Action (registers update readByte writeByte mark goTo)

/-- The effective address of the operand. -/
def operandAddress (i : Instruction) : Action UInt16 := do
  match i.mode.effectiveAddress? i.address (← get) with
  | some address => return address
  | none => throw (.missingOperand i.mnemonic i.address)

/-- Moves the program counter behind the instruction. -/
def next (i : Instruction) : Action Unit :=
  update fun r => r.advance i.size

@[simp] theorem operandAddress_apply (i : Instruction) (m : Machine) :
    i.operandAddress m =
      match i.mode.effectiveAddress? i.address m with
      | some address => .ok address m
      | none => .error (.missingOperand i.mnemonic i.address) m := by
  unfold operandAddress
  rw [Action.bind_apply]
  dsimp only [get, getThe, MonadStateOf.get]
  show (match i.mode.effectiveAddress? i.address m with
    | some address => pure address
    | none => throw (.missingOperand i.mnemonic i.address) : Action UInt16) m = _
  cases i.mode.effectiveAddress? i.address m <;> rfl

@[simp] theorem next_apply (i : Instruction) (m : Machine) :
    i.next m = .ok () { m with registers := m.registers.advance i.size } := rfl

/-! ### Operations -/

/-- Loads a byte into a register. -/
def load (i : Instruction) (destination : Register) : Action (List Field) := do
  let byte ← readByte (← i.operandAddress)
  Action.assign destination byte
  i.next
  return [.register destination byte, .status (← registers).status]

/-- Stores a register. -/
def store (i : Instruction) (source : Register) : Action (List Field) := do
  let address ← i.operandAddress
  let byte := (← registers).get source
  writeByte address byte
  i.next
  return [.operand byte]

/-- Gives a register a function of a register. -/
def assign (i : Instruction) (destination source : Register) (change : UInt8 → UInt8) : Action (List Field) := do
  let byte := change ((← registers).get source)
  Action.assign destination byte
  i.next
  return [.register destination byte, .status (← registers).status]

/-- Replaces a byte in memory by a function of it. -/
def replace (i : Instruction) (change : UInt8 → UInt8) : Action (List Field) := do
  let address ← i.operandAddress
  let byte := change (← readByte address)
  writeByte address byte
  update fun r => r.markValue byte
  i.next
  return [.result byte, .status (← registers).status]

/-- Gives the accumulator a sum or difference with the operand, and marks its flags. -/
def accumulate (i : Instruction) (sum : UInt8 → UInt8 → Bool → ByteSum) : Action (List Field) := do
  let byte ← readByte (← i.operandAddress)
  let r ← registers
  let s := sum r.accumulator byte (r.has .carry)
  mark .carry s.carry
  mark .overflow s.overflow
  Action.assign .accumulator s.value
  i.next
  return [.operand byte, .register .accumulator s.value, .status (← registers).status]

/-- Leaves the accumulator the bits that it shares with the operand. -/
def intersect (i : Instruction) : Action (List Field) := do
  let byte ← readByte (← i.operandAddress)
  let value := (← registers).accumulator &&& byte
  Action.assign .accumulator value
  i.next
  return [.operand byte, .register .accumulator value, .status (← registers).status]

/-- Tests the operand: zero if it shares no bit with the accumulator, and its two highest bits. -/
def test (i : Instruction) : Action (List Field) := do
  let byte ← readByte (← i.operandAddress)
  mark .zero (isZero ((← registers).accumulator &&& byte))
  mark .overflow (byte.toNat.testBit 6)
  mark .negative (isNegative byte)
  i.next
  return [.operand byte, .status (← registers).status]

/-- Compares a register with the operand. -/
def compare (i : Instruction) (register : Register) : Action (List Field) := do
  let byte ← readByte (← i.operandAddress)
  let c := compareBytes ((← registers).get register) byte
  mark .carry c.carry
  mark .zero c.zero
  mark .negative c.negative
  i.next
  return [.operand byte, .status (← registers).status]

/-- Replaces the accumulator or a byte in memory by its half, and gives the byte before. -/
def halve (i : Instruction) : Action UInt8 := do
  match i.mode with
  | .accumulator =>
    let byte := (← registers).accumulator
    update fun r => r.put .accumulator (byte >>> 1)
    return byte
  | _ =>
    let address ← i.operandAddress
    let byte ← readByte address
    writeByte address (byte >>> 1)
    return byte

/-- Shifts the accumulator or a byte in memory to the right; the bit that falls out is the carry. -/
def shiftRight (i : Instruction) : Action (List Field) := do
  let byte ← i.halve
  mark .carry (byte.toNat.testBit 0)
  update fun r => r.markValue (byte >>> 1)
  i.next
  return [.result (byte >>> 1), .status (← registers).status]

/-- Goes to the operand if a flag has a value, and to the next instruction otherwise. -/
def branch (i : Instruction) (flag : Flag) (value : Bool) : Action (List Field) := do
  if (← registers).has flag = value then goTo (← i.operandAddress)
  else
    i.next
    return [.programCounter (← registers).programCounter]

/-- Goes to the operand. -/
def jump (i : Instruction) : Action (List Field) := do
  goTo (← i.operandAddress)

/-- Goes to the operand after the address of the instruction's last byte has been pushed. -/
def call (i : Instruction) : Action (List Field) := do
  let address ← i.operandAddress
  Action.pushWord (i.address + UInt16.ofNat i.mode.kind.operandLength)
  let fields ← goTo address
  return fields ++ [.stackPointer (← registers).stackPointer]

/-- Goes behind the address that is pulled. -/
def ret : Action (List Field) := do
  let fields ← goTo ((← Action.pullWord) + 1)
  return fields ++ [.stackPointer (← registers).stackPointer]

/-- Pushes the accumulator. -/
def pushAccumulator (i : Instruction) : Action (List Field) := do
  Action.push (← registers).accumulator
  i.next
  return [.stackPointer (← registers).stackPointer]

/-- Pulls the accumulator. -/
def pullAccumulator (i : Instruction) : Action (List Field) := do
  let byte ← Action.pull
  Action.assign .accumulator byte
  i.next
  let r ← registers
  return [.register .accumulator byte, .stackPointer r.stackPointer, .status r.status]

/-- Sets or clears the carry. -/
def setCarry (i : Instruction) (value : Bool) : Action (List Field) := do
  mark .carry value
  i.next
  return [.status (← registers).status]

/-- Pushes the address two bytes on and the status with the break flag, which is set from then on. -/
def interrupt (i : Instruction) : Action (List Field) := do
  Action.pushWord (i.address + 2)
  mark .break true
  Action.push (← registers).status
  i.next
  let r ← registers
  return [.programCounter r.programCounter, .stackPointer r.stackPointer, .status r.status]

/-- Only goes to the next instruction. -/
def skip (i : Instruction) (fields : List Field) : Action (List Field) := do
  i.next
  return fields

/-- What an instruction does, and its report. -/
def perform (i : Instruction) : Action (List Field) :=
  match i.mnemonic with
  | .lda => i.load .accumulator
  | .ldx => i.load .indexX
  | .ldy => i.load .indexY
  | .sta => i.store .accumulator
  | .stx => i.store .indexX
  | .sty => i.store .indexY
  | .tax => i.assign .indexX .accumulator id
  | .tay => i.assign .indexY .accumulator id
  | .txa => i.assign .accumulator .indexX id
  | .tya => i.assign .accumulator .indexY id
  | .inx => i.assign .indexX .indexX (· + 1)
  | .iny => i.assign .indexY .indexY (· + 1)
  | .dex => i.assign .indexX .indexX (· - 1)
  | .dey => i.assign .indexY .indexY (· - 1)
  | .inc => i.replace (· + 1)
  | .dec => i.replace (· - 1)
  | .and => i.intersect
  | .bit => i.test
  | .lsr => i.shiftRight
  | .adc => i.accumulate addWithCarry
  | .sbc => i.accumulate subtractWithCarry
  | .cmp => i.compare .accumulator
  | .cpx => i.compare .indexX
  | .cpy => i.compare .indexY
  | .bcc => i.branch .carry false
  | .bcs => i.branch .carry true
  | .beq => i.branch .zero true
  | .bne => i.branch .zero false
  | .bpl => i.branch .negative false
  | .bmi => i.branch .negative true
  | .jmp => i.jump
  | .jsr => i.call
  | .rts => ret
  | .pha => i.pushAccumulator
  | .pla => i.pullAccumulator
  | .sec => i.setCarry true
  | .clc => i.setCarry false
  | .brk => i.interrupt
  | .nop => i.skip []
  | .unknown => i.skip [.unknownOpcode i.opcode]

/-- Executes an instruction. -/
def execute (i : Instruction) : Action TraceLine := do
  let target := i.mode.effectiveAddress? i.address (← get)
  let fields ← i.perform
  return { instruction := i, target, fields }

end Instruction

end Mos6502
