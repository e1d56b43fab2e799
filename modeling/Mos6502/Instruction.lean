import Mos6502.Addressing

/-!
# Instructions

The mnemonics, the table of the supported opcodes, and decoding.  Decoding is total: an opcode that is not in the
table is the unknown instruction, which has no operand.  The operands of a decoded instruction have the length that
its opcode asks for (`length_operands_decode`).
-/

namespace Mos6502

/-- The operations.  The unknown one stands for every opcode that is not supported. -/
inductive Mnemonic where
  | adc | and | bcc | bcs | beq | bit | bmi | bne | bpl | brk | clc | cmp | cpx | cpy | dec | dex | dey | inc | inx
  | iny | jmp | jsr | lda | ldx | ldy | lsr | nop | pha | pla | rts | sbc | sec | sta | stx | sty | tax | tay | txa
  | tya | unknown
  deriving DecidableEq, Repr

namespace Mnemonic

/-- The name in assembly language. -/
def text : Mnemonic → String
  | .adc => "ADC" | .and => "AND" | .bcc => "BCC" | .bcs => "BCS" | .beq => "BEQ" | .bit => "BIT" | .bmi => "BMI"
  | .bne => "BNE" | .bpl => "BPL" | .brk => "BRK" | .clc => "CLC" | .cmp => "CMP" | .cpx => "CPX" | .cpy => "CPY"
  | .dec => "DEC" | .dex => "DEX" | .dey => "DEY" | .inc => "INC" | .inx => "INX" | .iny => "INY" | .jmp => "JMP"
  | .jsr => "JSR" | .lda => "LDA" | .ldx => "LDX" | .ldy => "LDY" | .lsr => "LSR" | .nop => "NOP" | .pha => "PHA"
  | .pla => "PLA" | .rts => "RTS" | .sbc => "SBC" | .sec => "SEC" | .sta => "STA" | .stx => "STX" | .sty => "STY"
  | .tax => "TAX" | .tay => "TAY" | .txa => "TXA" | .tya => "TYA" | .unknown => "???"

/-- Every mnemonic. -/
def all : List Mnemonic :=
  [.adc, .and, .bcc, .bcs, .beq, .bit, .bmi, .bne, .bpl, .brk, .clc, .cmp, .cpx, .cpy, .dec, .dex, .dey, .inc, .inx,
    .iny, .jmp, .jsr, .lda, .ldx, .ldy, .lsr, .nop, .pha, .pla, .rts, .sbc, .sec, .sta, .stx, .sty, .tax, .tay, .txa,
    .tya, .unknown]

/-- The mnemonic with a given name. -/
def ofText? (name : String) : Option Mnemonic :=
  all.find? fun mnemonic => mnemonic.text == name

end Mnemonic

/-! ### The opcode table -/

/-- The supported opcodes of each mnemonic, with the addressing mode that each selects. -/
def opcodeGroups : List (Mnemonic × List (UInt8 × ModeKind)) :=
  [(.nop, [(0xea, .implied)]),
    (.lda, [(0xa9, .immediate), (0xa5, .zeroPage), (0xb5, .zeroPageX), (0xad, .absolute), (0xbd, .absoluteX),
      (0xb9, .absoluteY), (0xa1, .indexedIndirect), (0xb1, .indirectIndexed)]),
    (.ldx, [(0xa2, .immediate), (0xa6, .zeroPage), (0xb6, .zeroPageY), (0xae, .absolute), (0xbe, .absoluteY)]),
    (.ldy, [(0xa0, .immediate), (0xa4, .zeroPage), (0xb4, .zeroPageX), (0xac, .absolute), (0xbc, .absoluteX)]),
    (.sta, [(0x85, .zeroPage), (0x95, .zeroPageX), (0x8d, .absolute), (0x9d, .absoluteX), (0x99, .absoluteY),
      (0x81, .indexedIndirect), (0x91, .indirectIndexed)]),
    (.stx, [(0x86, .zeroPage), (0x96, .zeroPageY), (0x8e, .absolute)]),
    (.sty, [(0x84, .zeroPage), (0x94, .zeroPageX), (0x8c, .absolute)]),
    (.tax, [(0xaa, .implied)]), (.txa, [(0x8a, .implied)]), (.tay, [(0xa8, .implied)]), (.tya, [(0x98, .implied)]),
    (.inx, [(0xe8, .implied)]), (.iny, [(0xc8, .implied)]), (.dex, [(0xca, .implied)]), (.dey, [(0x88, .implied)]),
    (.inc, [(0xe6, .zeroPage), (0xf6, .zeroPageX), (0xee, .absolute), (0xfe, .absoluteX)]),
    (.dec, [(0xc6, .zeroPage), (0xd6, .zeroPageX), (0xce, .absolute), (0xde, .absoluteX)]),
    (.and, [(0x29, .immediate), (0x25, .zeroPage), (0x35, .zeroPageX), (0x2d, .absolute), (0x3d, .absoluteX),
      (0x39, .absoluteY), (0x21, .indexedIndirect), (0x31, .indirectIndexed)]),
    (.bit, [(0x24, .zeroPage), (0x2c, .absolute)]),
    (.lsr, [(0x4a, .accumulator), (0x46, .zeroPage), (0x56, .zeroPageX), (0x4e, .absolute), (0x5e, .absoluteX)]),
    (.adc, [(0x69, .immediate), (0x65, .zeroPage), (0x75, .zeroPageX), (0x6d, .absolute), (0x7d, .absoluteX),
      (0x79, .absoluteY), (0x61, .indexedIndirect), (0x71, .indirectIndexed)]),
    (.sbc, [(0xe9, .immediate), (0xe5, .zeroPage), (0xf5, .zeroPageX), (0xed, .absolute), (0xfd, .absoluteX),
      (0xf9, .absoluteY), (0xe1, .indexedIndirect), (0xf1, .indirectIndexed)]),
    (.cmp, [(0xc9, .immediate), (0xc5, .zeroPage), (0xd5, .zeroPageX), (0xcd, .absolute), (0xdd, .absoluteX),
      (0xd9, .absoluteY), (0xc1, .indexedIndirect), (0xd1, .indirectIndexed)]),
    (.cpx, [(0xe0, .immediate), (0xe4, .zeroPage), (0xec, .absolute)]),
    (.cpy, [(0xc0, .immediate), (0xc4, .zeroPage), (0xcc, .absolute)]),
    (.bcc, [(0x90, .relative)]), (.bcs, [(0xb0, .relative)]), (.beq, [(0xf0, .relative)]), (.bne, [(0xd0, .relative)]),
    (.bpl, [(0x10, .relative)]), (.bmi, [(0x30, .relative)]),
    (.jmp, [(0x4c, .absolute), (0x6c, .indirect)]), (.jsr, [(0x20, .absolute)]), (.rts, [(0x60, .implied)]),
    (.pha, [(0x48, .implied)]), (.pla, [(0x68, .implied)]),
    (.sec, [(0x38, .implied)]), (.clc, [(0x18, .implied)]), (.brk, [(0x00, .implied)])]

/-- What an opcode stands for. -/
structure Operation where
  mnemonic : Mnemonic
  kind : ModeKind
  deriving DecidableEq, Repr

/-- The operation of the opcodes that are not supported. -/
def Operation.unknown : Operation :=
  { mnemonic := .unknown, kind := .implied }

/-- The supported opcodes with their operations. -/
def opcodeTable : List (UInt8 × Operation) :=
  opcodeGroups.flatMap fun (mnemonic, opcodes) => opcodes.map fun (opcode, kind) => (opcode, { mnemonic, kind })

/-- The operations of all 256 opcodes, in order. -/
def operations : Vector Operation 256 :=
  Vector.ofFn fun i => (opcodeTable.lookup (UInt8.ofNat i.val)).getD .unknown

/-- The operation of an opcode. -/
def operation (opcode : UInt8) : Operation :=
  have := opcode.toNat_lt
  operations[opcode.toNat]

/-- Whether an opcode is supported. -/
def isSupported (opcode : UInt8) : Bool :=
  (operation opcode).mnemonic != .unknown

/-- The supported opcodes in ascending order. -/
def supportedOpcodes : List UInt8 :=
  ((List.range 256).map UInt8.ofNat).filter isSupported

/-- An operation is looked up in the table of the supported opcodes. -/
theorem operation_eq_lookup (opcode : UInt8) : operation opcode = (opcodeTable.lookup opcode).getD .unknown := by
  simp [operation, operations]

-- from here on an opcode is looked up; unfolding the operations of all of them would be of no help
attribute [irreducible] operation

/-! ### Decoding -/

/-- A decoded instruction: where it is, its opcode, what it does, and its operand. -/
structure Instruction where
  address : UInt16
  opcode : UInt8
  mnemonic : Mnemonic
  mode : AddressingMode
  deriving DecidableEq, Repr

namespace Instruction

/-- The instruction at an address with the given opcode; of the two bytes after it those are used that the opcode asks
for. -/
def decode (address : UInt16) (opcode low high : UInt8) : Instruction :=
  let op := operation opcode
  { address, opcode, mnemonic := op.mnemonic, mode := .ofOperands op.kind address low high }

/-- The number of bytes of the instruction. -/
def size (i : Instruction) : Nat :=
  1 + i.mode.kind.operandLength

/-- The bytes of the instruction, in parentheses. -/
def byteText (i : Instruction) : String :=
  "(" ++ spacedHex (i.opcode :: i.mode.operands) ++ ")"

/-- The columns for the address, the bytes and the mnemonic. -/
def columns (i : Instruction) : String :=
  "#0x" ++ hexWord .upper i.address ++ ": " ++ fillTo 14 i.byteText ++ fillTo 4 i.mnemonic.text ++ " "

/-- The instruction in one line of fixed columns. -/
def text (i : Instruction) : String :=
  i.columns ++ fillTo 15 i.mode.text

theorem length_operands_decode (address : UInt16) (opcode low high : UInt8) :
    (decode address opcode low high).mode.operands.length = (operation opcode).kind.operandLength := by
  simp [decode, AddressingMode.length_operands]

end Instruction

end Mos6502
