import Mos6502.Registers
import Mos6502.Text.Column

/-!
# Addressing modes

How an instruction says where its operand is.  A mode carries the bytes that follow the opcode; its effective
address is computed from them, from the index registers and, for the indirect modes, from the memory.  Zero page
indexing and both bytes of a zero page pointer stay in the zero page; every other sum is taken modulo 65536.
-/

namespace Mos6502

/-- The addressing modes without their operands. -/
inductive ModeKind where
  | implied
  | accumulator
  | immediate
  | zeroPage
  | zeroPageX
  | zeroPageY
  /-- A pointer in the zero page, found by adding X to the operand. -/
  | indexedIndirect
  /-- A pointer in the zero page, to which Y is added. -/
  | indirectIndexed
  | absolute
  | absoluteX
  | absoluteY
  | indirect
  | relative
  deriving DecidableEq, Repr

/-- The number of bytes that follow the opcode. -/
def ModeKind.operandLength : ModeKind → Nat
  | .implied | .accumulator => 0
  | .absolute | .absoluteX | .absoluteY | .indirect => 2
  | _ => 1

/-- An addressing mode with its operand.  A relative operand is a displacement from the branch at `base`. -/
inductive AddressingMode where
  | implied
  | accumulator
  | immediate (value : UInt8)
  | zeroPage (address : UInt8)
  | zeroPageX (address : UInt8)
  | zeroPageY (address : UInt8)
  | indexedIndirect (pointer : UInt8)
  | indirectIndexed (pointer : UInt8)
  | absolute (address : UInt16)
  | absoluteX (address : UInt16)
  | absoluteY (address : UInt16)
  | indirect (pointer : UInt16)
  | relative (base : UInt16) (displacement : UInt8)
  deriving DecidableEq, Repr

namespace AddressingMode

/-- The mode of a kind with the bytes after the opcode at `base`; bytes that the kind does not need are ignored. -/
def ofOperands (kind : ModeKind) (base : UInt16) (low high : UInt8) : AddressingMode :=
  match kind with
  | .implied => .implied
  | .accumulator => .accumulator
  | .immediate => .immediate low
  | .zeroPage => .zeroPage low
  | .zeroPageX => .zeroPageX low
  | .zeroPageY => .zeroPageY low
  | .indexedIndirect => .indexedIndirect low
  | .indirectIndexed => .indirectIndexed low
  | .absolute => .absolute (word low high)
  | .absoluteX => .absoluteX (word low high)
  | .absoluteY => .absoluteY (word low high)
  | .indirect => .indirect (word low high)
  | .relative => .relative base low

/-- The kind of a mode. -/
def kind : AddressingMode → ModeKind
  | .implied => .implied
  | .accumulator => .accumulator
  | .immediate _ => .immediate
  | .zeroPage _ => .zeroPage
  | .zeroPageX _ => .zeroPageX
  | .zeroPageY _ => .zeroPageY
  | .indexedIndirect _ => .indexedIndirect
  | .indirectIndexed _ => .indirectIndexed
  | .absolute _ => .absolute
  | .absoluteX _ => .absoluteX
  | .absoluteY _ => .absoluteY
  | .indirect _ => .indirect
  | .relative _ _ => .relative

/-- The bytes that follow the opcode in memory. -/
def operands : AddressingMode → List UInt8
  | .implied | .accumulator => []
  | .immediate b | .zeroPage b | .zeroPageX b | .zeroPageY b | .indexedIndirect b | .indirectIndexed b
  | .relative _ b => [b]
  | .absolute w | .absoluteX w | .absoluteY w | .indirect w => [lowByte w, highByte w]

/-- The word at a pointer in the zero page, where its high byte is too. -/
def zeroPageWord (m : Memory) (pointer : UInt8) : UInt16 :=
  m.getWord pointer.toUInt16 (pointer + 1).toUInt16

/-- Where the operand of an instruction at `address` is, if its mode has one: an immediate operand is the byte after
the opcode, a relative one stands for the destination of the branch. -/
def effectiveAddress? (mode : AddressingMode) (address : UInt16) (m : Machine) : Option UInt16 :=
  let x := m.registers.indexX
  let y := m.registers.indexY
  match mode with
  | .implied | .accumulator => none
  | .immediate _ => some (address + 1)
  | .zeroPage a => some a.toUInt16
  | .zeroPageX a => some (a + x).toUInt16
  | .zeroPageY a => some (a + y).toUInt16
  | .indexedIndirect p => some (zeroPageWord m.memory (p + x))
  | .indirectIndexed p => some (zeroPageWord m.memory p + y.toUInt16)
  | .absolute a => some a
  | .absoluteX a => some (a + x.toUInt16)
  | .absoluteY a => some (a + y.toUInt16)
  | .indirect p => some (m.memory.getWord p (p + 1))
  | .relative base displacement => some (branchDestination base displacement)

/-- The mode in assembly language. -/
def text : AddressingMode → String
  | .implied => ""
  | .accumulator => "A"
  | .immediate b => "#$" ++ hexByte .lower b
  | .zeroPage b => "$" ++ hexByte .lower b
  | .zeroPageX b => "$" ++ hexByte .lower b ++ ",X"
  | .zeroPageY b => "$" ++ hexByte .lower b ++ ",Y"
  | .indexedIndirect b => "($" ++ hexByte .lower b ++ ",X)"
  | .indirectIndexed b => "($" ++ hexByte .lower b ++ "),Y"
  | .absolute w => "$" ++ hexWord .upper w
  | .absoluteX w => "$" ++ hexWord .upper w ++ ",X"
  | .absoluteY w => "$" ++ hexWord .upper w ++ ",Y"
  | .indirect w => "($" ++ hexWord .upper w ++ ")"
  | .relative base displacement => "$" ++ hexWord .upper (branchDestination base displacement)

/-- The mode in a column of nine characters, followed by a column for the address it resolves to. -/
def resolvedText (mode : AddressingMode) (target : Option UInt16) : String :=
  fillTo 9 mode.text ++
    match target with
    | some address => "(#0x" ++ hexWord .upper address ++ ")"
    | none => "         "

@[simp] theorem kind_ofOperands (kind : ModeKind) (base : UInt16) (low high : UInt8) :
    (ofOperands kind base low high).kind = kind := by
  cases kind <;> rfl

theorem length_operands (mode : AddressingMode) : mode.operands.length = mode.kind.operandLength := by
  cases mode <;> rfl

end AddressingMode

end Mos6502
