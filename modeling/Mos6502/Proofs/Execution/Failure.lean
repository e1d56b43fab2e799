import Mos6502.Proofs.Memory.Access
import Mos6502.Proofs.Processor.Tick

/-!
# Instructions that fail

An instruction fails exactly if its addressing mode has no operand and its operation needs one; it then names itself,
and has changed nothing (`execute_eq_error_iff`).  The table of the opcodes pairs no operation with such a mode, and the
cells that an instruction is fetched from can always be read, so a processor never fails.

Which operations need an operand is written down here mnemonic by mnemonic (`Mnemonic.needsOperand`), apart from the
kinds of work that the proofs go by.
-/

namespace Mos6502

/-! ### Operations that need an operand -/

/-- Whether an operation cannot do without an operand: a shift can if its mode is that of the accumulator, and a branch
if it is not taken. -/
def Mnemonic.needsOperand (mnemonic : Mnemonic) (mode : AddressingMode) (r : Registers) : Bool :=
  match mnemonic with
  | .lda | .ldx | .ldy | .sta | .stx | .sty | .inc | .dec | .and | .bit | .adc | .sbc | .cmp | .cpx | .cpy | .jmp
  | .jsr => true
  | .lsr => mode != .accumulator
  | .bcc => !r.has .carry
  | .bcs => r.has .carry
  | .beq => r.has .zero
  | .bne => !r.has .zero
  | .bpl => !r.has .negative
  | .bmi => r.has .negative
  | .tax | .tay | .txa | .tya | .inx | .iny | .dex | .dey | .rts | .pha | .pla | .sec | .clc | .brk | .nop
  | .unknown => false

theorem AddressingMode.operandLength_eq_zero_iff (mode : AddressingMode) :
    mode.kind.operandLength = 0 ↔ mode = .implied ∨ mode = .accumulator := by
  cases mode <;> simp [kind, ModeKind.operandLength]

namespace Instruction

variable {i : Instruction} {m m' : Machine}

theorem lacksOperand_iff (r : Registers) :
    i.lacksOperand r = true ↔
      (i.mode = .implied ∨ i.mode = .accumulator) ∧ i.mnemonic.needsOperand i.mode r = true := by
  have hkind : (i.mode.kind != .accumulator) = (i.mode != .accumulator) := by
    rw [Bool.eq_iff_iff, bne_iff_ne, bne_iff_ne, ne_eq, kind_eq_accumulator_iff]
  unfold lacksOperand
  rw [Bool.and_eq_true, beq_iff_eq, AddressingMode.operandLength_eq_zero_iff, hkind]
  refine and_congr_right fun _ => ?_
  cases i.mnemonic <;> simp [Mnemonic.work, Mnemonic.needsOperand]

/-- An instruction that lacks its operand is refused before it has changed anything. -/
theorem perform_of_lacksOperand (h : i.lacksOperand m.registers = true) :
    i.perform m = .error (.missingOperand i.mnemonic i.address) m := by
  unfold lacksOperand at h
  rw [Bool.and_eq_true, beq_iff_eq] at h
  obtain ⟨hlength, hwork⟩ := h
  have htarget : i.target? m = none := (target?_eq_none_iff i m).2 hlength
  rw [perform_eq_carryOut]
  cases hw : i.mnemonic.work <;> rw [hw] at hwork
  case load | store | replace | accumulate | intersect | test | compare | jump | call =>
    simp only [carryOut, load_apply, store_apply, replace_apply, accumulate_apply, intersect_apply, test_apply,
      compare_apply, jump_apply, call_apply, atOperand_none htarget]
  case shiftRight =>
    have hmode : i.mode ≠ .accumulator := by
      rw [bne_iff_ne, ne_eq, kind_eq_accumulator_iff] at hwork
      exact hwork
    rw [carryOut, shiftRight_apply m hmode, atOperand_none htarget]
  case branch flag value =>
    rw [beq_iff_eq] at hwork
    rw [carryOut, branch_apply, if_pos hwork, atOperand_none htarget]
  -- all other work needs no operand
  all_goals cases hwork

theorem execute_eq_error_iff {e : ExecutionError} :
    i.execute m = .error e m' ↔
      i.lacksOperand m.registers = true ∧ e = .missingOperand i.mnemonic i.address ∧ m' = m := by
  rw [execute_apply]
  cases h : i.lacksOperand m.registers with
  | true =>
    rw [perform_of_lacksOperand h]
    constructor
    · intro he
      obtain ⟨h1, h2⟩ := EStateM.Result.error.inj he
      exact ⟨rfl, h1.symm, h2.symm⟩
    · rintro ⟨-, rfl, rfl⟩
      rfl
  | false =>
    obtain ⟨fields, n, hp⟩ := exists_perform h
    rw [hp]
    constructor
    · intro he
      cases he
    · rintro ⟨hf, -⟩
      cases hf

end Instruction

/-! ### Fetching -/

namespace Processor

variable (p : Processor)

/-- The operand byte with a number, zero if the instruction has fewer operand bytes. -/
def fetchOperand (length k : Nat) : Except MemoryError UInt8 :=
  if k < length then p.memory.readByte (p.registers.programCounter + 1 + UInt16.ofNat k).toUInt64 else .ok 0

/-- The next instruction, fetched byte by byte; each of these accesses could be refused. -/
def fetch : Except MemoryError (Option Instruction) := do
  let address := p.registers.programCounter
  if !p.region.holds address 1 then return none
  let opcode ← p.memory.readByte address.toUInt64
  let length := (operation opcode).kind.operandLength
  if !p.region.holds address (1 + length) then return none
  let low ← p.fetchOperand length 0
  let high ← p.fetchOperand length 1
  return some (.decode address opcode low high)

theorem fetchOperand_eq (length k : Nat) :
    p.fetchOperand length k =
      .ok (if k < length then p.memory.get (p.registers.programCounter + 1 + UInt16.ofNat k) else 0) := by
  unfold fetchOperand
  rw [Memory.readByte_toUInt64]
  split <;> rfl

theorem fetch_eq_ok : p.fetch = .ok p.peek? := by
  unfold fetch peek?
  dsimp only
  cases h1 : p.region.holds p.registers.programCounter 1 with
  | false => rfl
  | true =>
    rw [Memory.readByte_toUInt64]
    simp only [bind, Except.bind, fetchOperand_eq]
    cases p.region.holds p.registers.programCounter
        (1 + (operation (p.memory.get p.registers.programCounter)).kind.operandLength) with
    | false => rfl
    | true => rfl

/-- Every processor ticks. -/
theorem exists_tick : ∃ tick q, p.tick = .ok tick q :=
  ⟨_, _, p.tick_eq_ticked⟩

end Processor

/-- An instruction fails exactly if its mode has no operand and its operation needs one; the failure names the
instruction, and registers and memory are as before.  The cells that an instruction reads and writes are never refused,
no opcode stands for an instruction that fails, and so a processor fetches and ticks without a failure. -/
theorem execute_fails_iff :
    (∀ (i : Instruction) (m m' : Machine) (e : ExecutionError),
      i.execute m = .error e m' ↔
        ((i.mode = .implied ∨ i.mode = .accumulator) ∧ i.mnemonic.needsOperand i.mode m.registers = true) ∧
          e = .missingOperand i.mnemonic i.address ∧ m' = m) ∧
    (∀ (memory : Memory) (address : UInt16) (byte : UInt8),
      memory.readByte address.toUInt64 = .ok (memory.get address) ∧
        memory.writeByte address.toUInt64 byte = .ok (memory.set address byte)) ∧
    (∀ (address : UInt16) (opcode low high : UInt8) (r : Registers),
      ¬(((Instruction.decode address opcode low high).mode = .implied ∨
          (Instruction.decode address opcode low high).mode = .accumulator) ∧
        (operation opcode).mnemonic.needsOperand (Instruction.decode address opcode low high).mode r = true)) ∧
    ∀ p : Processor, p.fetch = .ok p.peek? ∧ ∃ tick q, p.tick = .ok tick q := by
  refine ⟨?_, ?_, ?_, ?_⟩
  · intro i m m' e
    rw [Instruction.execute_eq_error_iff, Instruction.lacksOperand_iff]
  · intro memory address byte
    exact ⟨memory.readByte_toUInt64 address, memory.writeByte_toUInt64 address byte⟩
  · intro address opcode low high r hneeds
    have hlacks := (Instruction.lacksOperand_iff r).2 hneeds
    rw [Instruction.lacksOperand_decode] at hlacks
    cases hlacks
  · intro p
    exact ⟨p.fetch_eq_ok, p.exists_tick⟩

end Mos6502
