import Mathlib.Logic.Function.Basic
import Mos6502.Instruction
import Mos6502.Proofs.Arithmetic

/-!
# A reference instruction set

The instruction set a second time, as a data sheet gives it: registers and bytes are natural numbers, flags are truth
values, the memory is a function, and every width is a remainder.  The opcodes are set out in the usual square of
sixteen by sixteen, and one line for each mnemonic says what it leaves.  Only the names of mnemonics and addressing
modes are shared with the instructions that are executed.
-/

namespace Mos6502

namespace Reference

/-! ### The state -/

/-- The flags, and the bit without a meaning. -/
structure Flags where
  negative : Bool
  overflow : Bool
  unused : Bool
  brk : Bool
  decimal : Bool
  interrupt : Bool
  zero : Bool
  carry : Bool
  deriving DecidableEq

/-- Registers and memory; `clears` says that a pulled cell is zeroed. -/
structure State where
  a : Nat
  x : Nat
  y : Nat
  flags : Flags
  pc : Nat
  sp : Nat
  cell : Nat → Nat
  clears : Bool

namespace Flags

/-- The flags in one byte. -/
def byte (f : Flags) : Nat :=
  128 * f.negative.toNat + 64 * f.overflow.toNat + 32 * f.unused.toNat + 16 * f.brk.toNat + 8 * f.decimal.toNat +
    4 * f.interrupt.toNat + 2 * f.zero.toNat + f.carry.toNat

/-- The flags with the sign and zero of a byte. -/
def of (f : Flags) (value : Nat) : Flags :=
  { f with negative := 128 ≤ value, zero := value = 0 }

end Flags

/-! ### The opcodes -/

/-- The supported opcodes, a row for each high digit, found by the low digit. -/
def square : List (List (Nat × Mnemonic × ModeKind)) :=
  [[(0x0, .brk, .implied)],
    [(0x0, .bpl, .relative), (0x8, .clc, .implied)],
    [(0x0, .jsr, .absolute), (0x1, .and, .indexedIndirect), (0x4, .bit, .zeroPage), (0x5, .and, .zeroPage),
      (0x9, .and, .immediate), (0xc, .bit, .absolute), (0xd, .and, .absolute)],
    [(0x0, .bmi, .relative), (0x1, .and, .indirectIndexed), (0x5, .and, .zeroPageX), (0x8, .sec, .implied),
      (0x9, .and, .absoluteY), (0xd, .and, .absoluteX)],
    [(0x6, .lsr, .zeroPage), (0x8, .pha, .implied), (0xa, .lsr, .accumulator), (0xc, .jmp, .absolute),
      (0xe, .lsr, .absolute)],
    [(0x6, .lsr, .zeroPageX), (0xe, .lsr, .absoluteX)],
    [(0x0, .rts, .implied), (0x1, .adc, .indexedIndirect), (0x5, .adc, .zeroPage), (0x8, .pla, .implied),
      (0x9, .adc, .immediate), (0xc, .jmp, .indirect), (0xd, .adc, .absolute)],
    [(0x1, .adc, .indirectIndexed), (0x5, .adc, .zeroPageX), (0x9, .adc, .absoluteY), (0xd, .adc, .absoluteX)],
    [(0x1, .sta, .indexedIndirect), (0x4, .sty, .zeroPage), (0x5, .sta, .zeroPage), (0x6, .stx, .zeroPage),
      (0x8, .dey, .implied), (0xa, .txa, .implied), (0xc, .sty, .absolute), (0xd, .sta, .absolute),
      (0xe, .stx, .absolute)],
    [(0x0, .bcc, .relative), (0x1, .sta, .indirectIndexed), (0x4, .sty, .zeroPageX), (0x5, .sta, .zeroPageX),
      (0x6, .stx, .zeroPageY), (0x8, .tya, .implied), (0x9, .sta, .absoluteY), (0xd, .sta, .absoluteX)],
    [(0x0, .ldy, .immediate), (0x1, .lda, .indexedIndirect), (0x2, .ldx, .immediate), (0x4, .ldy, .zeroPage),
      (0x5, .lda, .zeroPage), (0x6, .ldx, .zeroPage), (0x8, .tay, .implied), (0x9, .lda, .immediate),
      (0xa, .tax, .implied), (0xc, .ldy, .absolute), (0xd, .lda, .absolute), (0xe, .ldx, .absolute)],
    [(0x0, .bcs, .relative), (0x1, .lda, .indirectIndexed), (0x4, .ldy, .zeroPageX), (0x5, .lda, .zeroPageX),
      (0x6, .ldx, .zeroPageY), (0x9, .lda, .absoluteY), (0xc, .ldy, .absoluteX), (0xd, .lda, .absoluteX),
      (0xe, .ldx, .absoluteY)],
    [(0x0, .cpy, .immediate), (0x1, .cmp, .indexedIndirect), (0x4, .cpy, .zeroPage), (0x5, .cmp, .zeroPage),
      (0x6, .dec, .zeroPage), (0x8, .iny, .implied), (0x9, .cmp, .immediate), (0xa, .dex, .implied),
      (0xc, .cpy, .absolute), (0xd, .cmp, .absolute), (0xe, .dec, .absolute)],
    [(0x0, .bne, .relative), (0x1, .cmp, .indirectIndexed), (0x5, .cmp, .zeroPageX), (0x6, .dec, .zeroPageX),
      (0x9, .cmp, .absoluteY), (0xd, .cmp, .absoluteX), (0xe, .dec, .absoluteX)],
    [(0x0, .cpx, .immediate), (0x1, .sbc, .indexedIndirect), (0x4, .cpx, .zeroPage), (0x5, .sbc, .zeroPage),
      (0x6, .inc, .zeroPage), (0x8, .inx, .implied), (0x9, .sbc, .immediate), (0xa, .nop, .implied),
      (0xc, .cpx, .absolute), (0xd, .sbc, .absolute), (0xe, .inc, .absolute)],
    [(0x0, .beq, .relative), (0x1, .sbc, .indirectIndexed), (0x5, .sbc, .zeroPageX), (0x6, .inc, .zeroPageX),
      (0x9, .sbc, .absoluteY), (0xd, .sbc, .absoluteX), (0xe, .inc, .absoluteX)]]

/-- What an opcode stands for; the others are unknown and have no operand. -/
def entry (opcode : Nat) : Mnemonic × ModeKind :=
  ((square.getD (opcode / 16) []).lookup (opcode % 16)).getD (.unknown, .implied)

/-- The number of bytes of an instruction. -/
def length : ModeKind → Nat
  | .implied | .accumulator => 1
  | .absolute | .absoluteX | .absoluteY | .indirect => 3
  | _ => 2

namespace State

/-! ### Operands -/

/-- A byte behind the opcode. -/
def operand (s : State) (k : Nat) : Nat :=
  s.cell ((s.pc + k) % 65536)

/-- Both bytes behind the opcode, low byte first. -/
def operandWord (s : State) : Nat :=
  s.operand 1 + 256 * s.operand 2

/-- The word at a pointer in the zero page, which it does not leave. -/
def zeroPageWord (s : State) (pointer : Nat) : Nat :=
  s.cell (pointer % 256) + 256 * s.cell ((pointer + 1) % 256)

/-- The address of the operand; nothing is read there if there is none. -/
def address (s : State) : ModeKind → Nat
  | .implied | .accumulator => 0
  | .immediate => (s.pc + 1) % 65536
  | .zeroPage => s.operand 1
  | .zeroPageX => (s.operand 1 + s.x) % 256
  | .zeroPageY => (s.operand 1 + s.y) % 256
  | .indexedIndirect => s.zeroPageWord (s.operand 1 + s.x)
  | .indirectIndexed => (s.zeroPageWord (s.operand 1) + s.y) % 65536
  | .absolute => s.operandWord
  | .absoluteX => (s.operandWord + s.x) % 65536
  | .absoluteY => (s.operandWord + s.y) % 65536
  | .indirect => s.cell s.operandWord + 256 * s.cell ((s.operandWord + 1) % 65536)
  | .relative => ((s.pc + 2 + signedValue (s.operand 1)) % 65536).toNat

/-- The value of the operand. -/
def value (s : State) : ModeKind → Nat
  | .immediate => s.operand 1
  | kind => s.cell (s.address kind)

/-- The address behind the instruction. -/
def next (s : State) (kind : ModeKind) : Nat :=
  (s.pc + length kind) % 65536

/-! ### Effects -/

/-- A byte stored. -/
def store (s : State) (address value : Nat) : State :=
  { s with cell := Function.update s.cell address value }

/-- A byte pushed. -/
def push (s : State) (value : Nat) : State :=
  { s.store (256 + s.sp) value with sp := (s.sp + 255) % 256 }

/-- A word pushed, high byte first. -/
def pushWord (s : State) (value : Nat) : State :=
  (s.push (value / 256)).push (value % 256)

/-- The byte on top of the stack. -/
def top (s : State) : Nat :=
  s.cell (256 + (s.sp + 1) % 256)

/-- The top of the stack pulled. -/
def pop (s : State) : State :=
  { (if s.clears then s.store (256 + (s.sp + 1) % 256) 0 else s) with sp := (s.sp + 1) % 256 }

/-- The accumulator and a byte added with the carry. -/
def add (s : State) (value : Nat) : State :=
  let sum := s.a + value + s.flags.carry.toNat
  let signed := signedValue s.a + signedValue value + s.flags.carry.toNat
  { s with
    a := sum % 256
    flags := { s.flags.of (sum % 256) with carry := 255 < sum, overflow := signed < -128 ∨ 127 < signed } }

/-- A byte subtracted from the accumulator; no carry is a borrow. -/
def subtract (s : State) (value : Nat) : State :=
  let difference : Int := s.a - value - (1 - s.flags.carry.toNat)
  let signed := signedValue s.a - signedValue value - (1 - s.flags.carry.toNat)
  { s with
    a := (difference % 256).toNat
    flags :=
      { s.flags.of (difference % 256).toNat with
        carry := 0 ≤ difference, overflow := signed < -128 ∨ 127 < signed } }

/-- A register compared with a byte. -/
def compare (s : State) (register value : Nat) : State :=
  { s with
    flags :=
      { s.flags with
        carry := value ≤ register, zero := register = value, negative := 128 ≤ (register + 256 - value) % 256 } }

/-- A branch. -/
def branch (s : State) (kind : ModeKind) (condition : Bool) : State :=
  { s with pc := if condition then s.address kind else s.next kind }

/-- What each mnemonic leaves. -/
def effect (s : State) (kind : ModeKind) (mnemonic : Mnemonic) : State :=
  let v := s.value kind
  let next := s.next kind
  match mnemonic with
  | .lda => { s with a := v, flags := s.flags.of v, pc := next }
  | .ldx => { s with x := v, flags := s.flags.of v, pc := next }
  | .ldy => { s with y := v, flags := s.flags.of v, pc := next }
  | .sta => { s.store (s.address kind) s.a with pc := next }
  | .stx => { s.store (s.address kind) s.x with pc := next }
  | .sty => { s.store (s.address kind) s.y with pc := next }
  | .tax => { s with x := s.a, flags := s.flags.of s.a, pc := next }
  | .tay => { s with y := s.a, flags := s.flags.of s.a, pc := next }
  | .txa => { s with a := s.x, flags := s.flags.of s.x, pc := next }
  | .tya => { s with a := s.y, flags := s.flags.of s.y, pc := next }
  | .inx => { s with x := (s.x + 1) % 256, flags := s.flags.of ((s.x + 1) % 256), pc := next }
  | .iny => { s with y := (s.y + 1) % 256, flags := s.flags.of ((s.y + 1) % 256), pc := next }
  | .dex => { s with x := (s.x + 255) % 256, flags := s.flags.of ((s.x + 255) % 256), pc := next }
  | .dey => { s with y := (s.y + 255) % 256, flags := s.flags.of ((s.y + 255) % 256), pc := next }
  | .inc => { s.store (s.address kind) ((v + 1) % 256) with flags := s.flags.of ((v + 1) % 256), pc := next }
  | .dec => { s.store (s.address kind) ((v + 255) % 256) with flags := s.flags.of ((v + 255) % 256), pc := next }
  | .and => { s with a := s.a &&& v, flags := s.flags.of (s.a &&& v), pc := next }
  | .bit =>
    { s with
      flags := { s.flags with zero := s.a &&& v = 0, overflow := v / 64 % 2 = 1, negative := 128 ≤ v }, pc := next }
  | .lsr =>
    if kind = .accumulator then
      { s with a := s.a / 2, flags := { s.flags.of (s.a / 2) with carry := s.a % 2 = 1 }, pc := next }
    else
      { s.store (s.address kind) (v / 2) with
        flags := { s.flags.of (v / 2) with carry := v % 2 = 1 }, pc := next }
  | .adc => { s.add v with pc := next }
  | .sbc => { s.subtract v with pc := next }
  | .cmp => { s.compare s.a v with pc := next }
  | .cpx => { s.compare s.x v with pc := next }
  | .cpy => { s.compare s.y v with pc := next }
  | .bcc => s.branch kind !s.flags.carry
  | .bcs => s.branch kind s.flags.carry
  | .bne => s.branch kind !s.flags.zero
  | .beq => s.branch kind s.flags.zero
  | .bpl => s.branch kind !s.flags.negative
  | .bmi => s.branch kind s.flags.negative
  | .jmp => { s with pc := s.address kind }
  | .jsr => { s.pushWord ((s.pc + 2) % 65536) with pc := s.address kind }
  | .rts => { s.pop.pop with pc := (s.top + 256 * s.pop.top + 1) % 65536 }
  | .pha => { s.push s.a with pc := next }
  | .pla => { s.pop with a := s.top, flags := s.flags.of s.top, pc := next }
  | .sec => { s with flags := { s.flags with carry := true }, pc := next }
  | .clc => { s with flags := { s.flags with carry := false }, pc := next }
  | .brk =>
    let flags := { s.flags with brk := true }
    { (s.pushWord ((s.pc + 2) % 65536)).push flags.byte with flags, pc := next }
  | .nop | .unknown => { s with pc := next }

/-- The state after the instruction at the program counter. -/
def step (s : State) : State :=
  s.effect (entry (s.cell s.pc)).2 (entry (s.cell s.pc)).1

/-- Whether an interval holds the whole instruction at the program counter. -/
def Inside (s : State) (start stop : Nat) : Prop :=
  start ≤ s.pc ∧ s.pc + length (entry (s.cell s.pc)).2 ≤ stop

end State

end Reference

end Mos6502
