import Mos6502.Execution

/-!
# What the operations do

Forty mnemonics share eighteen kinds of work.  For each kind one lemma says what it does to a machine and what it
reports, at the effective address of the operand where it needs one; what follows about all instructions is proved by
cases of the kind of work (`perform_eq_carryOut`), and no other module opens an operation.
-/

namespace Mos6502

/-- What an operation does, with all that tells the members of a family apart. -/
inductive Work where
  | load (destination : Register)
  | store (source : Register)
  | assign (destination source : Register) (change : UInt8 → UInt8)
  | replace (change : UInt8 → UInt8)
  | accumulate (sum : UInt8 → UInt8 → Bool → ByteSum)
  | intersect
  | test
  | compare (register : Register)
  | shiftRight
  | branch (flag : Flag) (value : Bool)
  | jump
  | call
  | ret
  | pushAccumulator
  | pullAccumulator
  | setCarry (value : Bool)
  | interrupt
  | skip (report : UInt8 → List Field)

/-- The work of a mnemonic. -/
def Mnemonic.work : Mnemonic → Work
  | .lda => .load .accumulator
  | .ldx => .load .indexX
  | .ldy => .load .indexY
  | .sta => .store .accumulator
  | .stx => .store .indexX
  | .sty => .store .indexY
  | .tax => .assign .indexX .accumulator id
  | .tay => .assign .indexY .accumulator id
  | .txa => .assign .accumulator .indexX id
  | .tya => .assign .accumulator .indexY id
  | .inx => .assign .indexX .indexX (· + 1)
  | .iny => .assign .indexY .indexY (· + 1)
  | .dex => .assign .indexX .indexX (· - 1)
  | .dey => .assign .indexY .indexY (· - 1)
  | .inc => .replace (· + 1)
  | .dec => .replace (· - 1)
  | .adc => .accumulate addWithCarry
  | .sbc => .accumulate subtractWithCarry
  | .and => .intersect
  | .bit => .test
  | .cmp => .compare .accumulator
  | .cpx => .compare .indexX
  | .cpy => .compare .indexY
  | .lsr => .shiftRight
  | .bcc => .branch .carry false
  | .bcs => .branch .carry true
  | .beq => .branch .zero true
  | .bne => .branch .zero false
  | .bpl => .branch .negative false
  | .bmi => .branch .negative true
  | .jmp => .jump
  | .jsr => .call
  | .rts => .ret
  | .pha => .pushAccumulator
  | .pla => .pullAccumulator
  | .sec => .setCarry true
  | .clc => .setCarry false
  | .brk => .interrupt
  | .nop => .skip fun _ => []
  | .unknown => .skip fun opcode => [.unknownOpcode opcode]

/-! ### The operations of the table -/

/-- What holds of the operations in the table and of the unknown one holds of the operation of every opcode. -/
theorem operation_cases {p : Operation → Prop} (table : ∀ e ∈ opcodeTable, p e.2) (unknown : p .unknown)
    (opcode : UInt8) : p (operation opcode) := by
  rw [operation_eq_lookup]
  rcases h : opcodeTable.lookup opcode with _ | op
  · exact unknown
  · obtain ⟨l₁, l₂, hl, -⟩ := List.lookup_eq_some_iff.1 h
    exact table (opcode, op) (by rw [hl]; simp)

/-- Whether an operation has the operand that it needs in every state of the flags. -/
def Operation.isComplete (op : Operation) : Bool :=
  op.kind.operandLength != 0 ||
    match op.mnemonic.work with
    | .assign .. | .ret | .pushAccumulator | .pullAccumulator | .setCarry _ | .interrupt | .skip _ => true
    | .shiftRight => op.kind == .accumulator
    | _ => false

/-- The table pairs no operation with a mode that lacks its operand. -/
theorem isComplete_operation (opcode : UInt8) : (operation opcode).isComplete = true :=
  operation_cases (p := fun op => op.isComplete = true) (by decide) rfl opcode

namespace Instruction

/-- An instruction does a piece of work. -/
def carryOut (i : Instruction) : Work → Action (List Field)
  | .load destination => i.load destination
  | .store source => i.store source
  | .assign destination source change => i.assign destination source change
  | .replace change => i.replace change
  | .accumulate sum => i.accumulate sum
  | .intersect => i.intersect
  | .test => i.test
  | .compare register => i.compare register
  | .shiftRight => i.shiftRight
  | .branch flag value => i.branch flag value
  | .jump => i.jump
  | .call => i.call
  | .ret => ret
  | .pushAccumulator => i.pushAccumulator
  | .pullAccumulator => i.pullAccumulator
  | .setCarry value => i.setCarry value
  | .interrupt => i.interrupt
  | .skip report => i.skip (report i.opcode)

theorem perform_eq_carryOut (i : Instruction) : i.perform = i.carryOut i.mnemonic.work := by
  unfold perform
  cases i.mnemonic <;> rfl

/-! ### The operand -/

/-- The effective address of an instruction on a machine. -/
def target? (i : Instruction) (m : Machine) : Option UInt16 :=
  i.mode.effectiveAddress? i.address m

/-- What is done at the effective address; an instruction without one is refused, and nothing has been changed. -/
def atOperand {α : Type} (i : Instruction) (m : Machine)
    (act : UInt16 → EStateM.Result ExecutionError Machine α) : EStateM.Result ExecutionError Machine α :=
  match i.target? m with
  | some address => act address
  | none => .error (.missingOperand i.mnemonic i.address) m

theorem atOperand_some {α : Type} {i : Instruction} {m : Machine} {a : UInt16} (h : i.target? m = some a)
    (act : UInt16 → EStateM.Result ExecutionError Machine α) : i.atOperand m act = act a := by
  unfold atOperand
  rw [h]

theorem atOperand_none {α : Type} {i : Instruction} {m : Machine} (h : i.target? m = none)
    (act : UInt16 → EStateM.Result ExecutionError Machine α) :
    i.atOperand m act = .error (.missingOperand i.mnemonic i.address) m := by
  unfold atOperand
  rw [h]

/-- What succeeds at the effective address has one. -/
theorem exists_target {α : Type} {i : Instruction} {m m' : Machine} {value : α} {values : UInt16 → α}
    {results : UInt16 → Machine} (h : (i.atOperand m fun a => .ok (values a) (results a)) = .ok value m') :
    ∃ a, i.target? m = some a ∧ value = values a ∧ m' = results a := by
  rcases ha : i.target? m with _ | a
  · rw [atOperand_none ha] at h
    cases h
  · rw [atOperand_some ha] at h
    obtain ⟨hv, hm⟩ := EStateM.Result.ok.inj h
    exact ⟨a, rfl, hv.symm, hm.symm⟩

theorem operandAddress_bind {α : Type} (i : Instruction) (m : Machine) (next : UInt16 → Action α) :
    (i.operandAddress >>= next) m = i.atOperand m fun a => next a m := by
  rw [Action.bind_apply, operandAddress_apply]
  unfold atOperand target?
  cases i.mode.effectiveAddress? i.address m <;> rfl

end Instruction

/-! ### Registers and machines after an operation -/

namespace Registers

/-- The registers with a value given to one of them, and marked. -/
def assign (r : Registers) (register : Register) (value : UInt8) : Registers :=
  (r.put register value).markValue value

/-- The registers after a sum or a difference. -/
def total (r : Registers) (s : ByteSum) : Registers :=
  ((r.mark .carry s.carry).mark .overflow s.overflow).assign .accumulator s.value

/-- The registers after the test of a byte. -/
def test (r : Registers) (byte : UInt8) : Registers :=
  ((r.mark .zero (isZero (r.accumulator &&& byte))).mark .overflow (byte.toNat.testBit 6)).mark .negative
    (isNegative byte)

/-- The registers after a comparison. -/
def compare (r : Registers) (c : ByteComparison) : Registers :=
  ((r.mark .carry c.carry).mark .zero c.zero).mark .negative c.negative

/-- The registers after a byte has been halved. -/
def halve (r : Registers) (byte : UInt8) : Registers :=
  (r.mark .carry (byte.toNat.testBit 0)).markValue (byte >>> 1)

/-- The registers with the program counter at an address. -/
def goTo (r : Registers) (address : UInt16) : Registers :=
  { r with programCounter := address }

end Registers

/-- The machine with a return address and the status pushed, and the break flag set. -/
def Machine.interrupt (m : Machine) (address : UInt16) : Machine :=
  let pushed := m.pushWord address
  let marked := { pushed with registers := pushed.registers.mark .break true }
  marked.push marked.registers.status

namespace Instruction

variable (i : Instruction) (m : Machine)

/-! ### Loads, stores and transfers -/

theorem load_apply (d : Register) :
    i.load d m = i.atOperand m fun a =>
      .ok [.register d (m.memory.get a), .status (m.registers.assign d (m.memory.get a)).status]
        { m with registers := (m.registers.assign d (m.memory.get a)).advance i.size } :=
  i.operandAddress_bind m _

theorem store_apply (s : Register) :
    i.store s m = i.atOperand m fun a =>
      .ok [.operand (m.registers.get s)]
        { registers := m.registers.advance i.size, memory := m.memory.set a (m.registers.get s) } :=
  i.operandAddress_bind m _

theorem assign_apply (d s : Register) (change : UInt8 → UInt8) :
    i.assign d s change m =
      .ok [.register d (change (m.registers.get s)), .status (m.registers.assign d (change (m.registers.get s))).status]
        { m with registers := (m.registers.assign d (change (m.registers.get s))).advance i.size } := rfl

theorem replace_apply (change : UInt8 → UInt8) :
    i.replace change m = i.atOperand m fun a =>
      .ok [.result (change (m.memory.get a)), .status (m.registers.markValue (change (m.memory.get a))).status]
        { registers := (m.registers.markValue (change (m.memory.get a))).advance i.size
          memory := m.memory.set a (change (m.memory.get a)) } :=
  i.operandAddress_bind m _

/-! ### Arithmetic and logic -/

theorem accumulate_apply (sum : UInt8 → UInt8 → Bool → ByteSum) :
    i.accumulate sum m = i.atOperand m fun a =>
      .ok [.operand (m.memory.get a),
          .register .accumulator (sum m.registers.accumulator (m.memory.get a) (m.registers.has .carry)).value,
          .status (m.registers.total (sum m.registers.accumulator (m.memory.get a) (m.registers.has .carry))).status]
        { m with
          registers :=
            (m.registers.total (sum m.registers.accumulator (m.memory.get a) (m.registers.has .carry))).advance
              i.size } :=
  i.operandAddress_bind m _

theorem intersect_apply :
    i.intersect m = i.atOperand m fun a =>
      .ok [.operand (m.memory.get a), .register .accumulator (m.registers.accumulator &&& m.memory.get a),
          .status (m.registers.assign .accumulator (m.registers.accumulator &&& m.memory.get a)).status]
        { m with
          registers :=
            (m.registers.assign .accumulator (m.registers.accumulator &&& m.memory.get a)).advance i.size } :=
  i.operandAddress_bind m _

theorem test_apply :
    i.test m = i.atOperand m fun a =>
      .ok [.operand (m.memory.get a), .status (m.registers.test (m.memory.get a)).status]
        { m with registers := (m.registers.test (m.memory.get a)).advance i.size } :=
  i.operandAddress_bind m _

theorem compare_apply (r : Register) :
    i.compare r m = i.atOperand m fun a =>
      .ok [.operand (m.memory.get a),
          .status (m.registers.compare (compareBytes (m.registers.get r) (m.memory.get a))).status]
        { m with
          registers := (m.registers.compare (compareBytes (m.registers.get r) (m.memory.get a))).advance i.size } :=
  i.operandAddress_bind m _

theorem shiftRight_accumulator {i : Instruction} (h : i.mode = .accumulator) :
    i.shiftRight m =
      .ok [.result (m.registers.accumulator >>> 1),
          .status ((m.registers.put .accumulator (m.registers.accumulator >>> 1)).halve m.registers.accumulator).status]
        { m with
          registers :=
            ((m.registers.put .accumulator (m.registers.accumulator >>> 1)).halve m.registers.accumulator).advance
              i.size } := by
  unfold shiftRight halve
  rw [h]
  rfl

theorem shiftRight_apply {i : Instruction} (h : i.mode ≠ .accumulator) :
    i.shiftRight m = i.atOperand m fun a =>
      .ok [.result (m.memory.get a >>> 1), .status (m.registers.halve (m.memory.get a)).status]
        { registers := (m.registers.halve (m.memory.get a)).advance i.size
          memory := m.memory.set a (m.memory.get a >>> 1) } := by
  have hh : i.halve = do
      let a ← i.operandAddress
      let byte ← Action.readByte a
      Action.writeByte a (byte >>> 1)
      return byte := by
    unfold halve
    split
    · rename_i hm
      exact absurd hm h
    · rfl
  unfold shiftRight
  rw [hh, Action.bind_apply, operandAddress_bind]
  unfold atOperand
  cases i.target? m <;> rfl

/-! ### Branches, jumps and subroutines -/

theorem branch_apply (flag : Flag) (value : Bool) :
    i.branch flag value m =
      if m.registers.has flag = value then
        i.atOperand m fun a => .ok [.programCounter a] { m with registers := m.registers.goTo a }
      else
        .ok [.programCounter (m.registers.advance i.size).programCounter]
          { m with registers := m.registers.advance i.size } := by
  unfold branch
  rw [Action.bind_apply, Action.registers_apply]
  by_cases h : m.registers.has flag = value
  · simp only [h, ↓reduceIte]
    exact i.operandAddress_bind m _
  · simp only [h, ↓reduceIte]
    rfl

theorem jump_apply :
    i.jump m = i.atOperand m fun a => .ok [.programCounter a] { m with registers := m.registers.goTo a } :=
  i.operandAddress_bind m _

theorem call_apply :
    i.call m = i.atOperand m fun a =>
      .ok [.programCounter a,
          .stackPointer (m.pushWord (i.address + UInt16.ofNat i.mode.kind.operandLength)).registers.stackPointer]
        { m.pushWord (i.address + UInt16.ofNat i.mode.kind.operandLength) with
          registers := (m.pushWord (i.address + UInt16.ofNat i.mode.kind.operandLength)).registers.goTo a } :=
  i.operandAddress_bind m _

theorem ret_apply :
    ret m =
      .ok [.programCounter (m.pullWord.1 + 1), .stackPointer m.pullWord.2.registers.stackPointer]
        { m.pullWord.2 with registers := m.pullWord.2.registers.goTo (m.pullWord.1 + 1) } := rfl

/-! ### The stack and the status -/

theorem pushAccumulator_apply :
    i.pushAccumulator m =
      .ok [.stackPointer (m.push m.registers.accumulator).registers.stackPointer]
        { m.push m.registers.accumulator with
          registers := (m.push m.registers.accumulator).registers.advance i.size } := rfl

theorem pullAccumulator_apply :
    i.pullAccumulator m =
      .ok [.register .accumulator m.pull.1, .stackPointer m.pull.2.registers.stackPointer,
          .status (m.pull.2.registers.assign .accumulator m.pull.1).status]
        { m.pull.2 with registers := (m.pull.2.registers.assign .accumulator m.pull.1).advance i.size } := rfl

theorem setCarry_apply (value : Bool) :
    i.setCarry value m =
      .ok [.status (m.registers.mark .carry value).status]
        { m with registers := (m.registers.mark .carry value).advance i.size } := rfl

theorem interrupt_apply :
    i.interrupt m =
      .ok [.programCounter ((m.interrupt (i.address + 2)).registers.advance i.size).programCounter,
          .stackPointer (m.interrupt (i.address + 2)).registers.stackPointer,
          .status (m.interrupt (i.address + 2)).registers.status]
        { m.interrupt (i.address + 2) with registers := (m.interrupt (i.address + 2)).registers.advance i.size } := rfl

theorem skip_apply (fields : List Field) :
    i.skip fields m = .ok fields { m with registers := m.registers.advance i.size } := rfl

/-! ### Instructions that lack their operand -/

theorem target?_isSome : (i.target? m).isSome = decide (0 < i.mode.kind.operandLength) := by
  unfold target?
  cases i.mode <;> rfl

theorem target?_eq_none_iff : i.target? m = none ↔ i.mode.kind.operandLength = 0 := by
  rw [← Option.not_isSome_iff_eq_none, target?_isSome, decide_eq_true_eq]
  omega

/-- Whether an operation needs an operand that its addressing mode does not have.  A branch needs one only if it is
taken, a shift only if it is not one of the accumulator. -/
def lacksOperand (i : Instruction) (r : Registers) : Bool :=
  i.mode.kind.operandLength == 0 &&
    match i.mnemonic.work with
    | .load _ | .store _ | .replace _ | .accumulate _ | .intersect | .test | .compare _ | .jump | .call => true
    | .branch flag value => r.has flag == value
    | .shiftRight => i.mode.kind != .accumulator
    | _ => false

theorem kind_eq_accumulator_iff : i.mode.kind = .accumulator ↔ i.mode = .accumulator := by
  cases i.mode <;> simp [AddressingMode.kind]

private theorem exists_atOperand {i : Instruction} {m : Machine} (h : 0 < i.mode.kind.operandLength)
    (fields : UInt16 → List Field) (result : UInt16 → Machine) :
    ∃ f m', (i.atOperand m fun a => .ok (fields a) (result a)) = .ok f m' := by
  rcases ha : i.target? m with _ | a
  · rw [target?_eq_none_iff] at ha
    omega
  · exact ⟨_, _, atOperand_some ha _⟩

/-- An instruction that does not lack its operand is carried out. -/
theorem exists_perform {i : Instruction} {m : Machine} (h : i.lacksOperand m.registers = false) :
    ∃ fields m', i.perform m = .ok fields m' := by
  unfold lacksOperand at h
  rw [perform_eq_carryOut]
  by_cases hl : i.mode.kind.operandLength = 0
  · -- no operand: only the work that does without one is not lacking it
    cases hw : i.mnemonic.work with
    | assign | ret | pushAccumulator | pullAccumulator | setCarry | interrupt | skip => exact ⟨_, _, rfl⟩
    | shiftRight =>
      rw [hw, hl] at h
      have hm : i.mode = .accumulator := by simpa [kind_eq_accumulator_iff] using h
      exact ⟨_, _, shiftRight_accumulator m hm⟩
    | branch flag value =>
      rw [hw, hl] at h
      have hf : m.registers.has flag ≠ value := by simpa using h
      rw [carryOut, branch_apply]
      simp only [hf, ↓reduceIte]
      exact ⟨_, _, rfl⟩
    | _ =>
      rw [hw, hl] at h
      simp at h
  · -- an operand: there is an effective address for all work
    replace hl : 0 < i.mode.kind.operandLength := by omega
    have hm : i.mode ≠ .accumulator := by
      intro hm
      rw [hm] at hl
      exact absurd hl (by decide)
    cases i.mnemonic.work with
    | assign | ret | pushAccumulator | pullAccumulator | setCarry | interrupt | skip => exact ⟨_, _, rfl⟩
    | load d => rw [carryOut, load_apply]; exact exists_atOperand hl _ _
    | store s => rw [carryOut, store_apply]; exact exists_atOperand hl _ _
    | replace change => rw [carryOut, replace_apply]; exact exists_atOperand hl _ _
    | accumulate sum => rw [carryOut, accumulate_apply]; exact exists_atOperand hl _ _
    | intersect => rw [carryOut, intersect_apply]; exact exists_atOperand hl _ _
    | test => rw [carryOut, test_apply]; exact exists_atOperand hl _ _
    | compare r => rw [carryOut, compare_apply]; exact exists_atOperand hl _ _
    | shiftRight => rw [carryOut, shiftRight_apply m hm]; exact exists_atOperand hl _ _
    | jump => rw [carryOut, jump_apply]; exact exists_atOperand hl _ _
    | call => rw [carryOut, call_apply]; exact exists_atOperand hl _ _
    | branch flag value =>
      rw [carryOut, branch_apply]
      split
      · exact exists_atOperand hl _ _
      · exact ⟨_, _, rfl⟩

/-- A decoded instruction never lacks its operand. -/
theorem lacksOperand_decode (address : UInt16) (opcode low high : UInt8) (r : Registers) :
    (decode address opcode low high).lacksOperand r = false := by
  have h := isComplete_operation opcode
  unfold lacksOperand decode
  simp only [AddressingMode.kind_ofOperands]
  unfold Operation.isComplete at h
  generalize operation opcode = op at h
  by_cases hl : op.kind.operandLength = 0
  · simp only [hl, bne_self_eq_false, Bool.false_or, BEq.rfl, Bool.true_and] at h ⊢
    cases hw : op.mnemonic.work <;> simp_all
  · simp [hl]

/-! ### Whole instructions -/

/-- The report of an instruction beside what it does. -/
theorem execute_apply :
    i.execute m =
      match i.perform m with
      | .ok fields m' => .ok { instruction := i, target := i.target? m, fields } m'
      | .error e m' => .error e m' := by
  unfold execute
  rw [Action.bind_apply]
  show (i.perform >>= fun fields => pure (TraceLine.mk i (i.target? m) fields)) m = _
  rw [Action.bind_apply]
  cases i.perform m <;> rfl

/-- An instruction that succeeds has been carried out, and its report names it and its effective address. -/
theorem exists_perform_of_execute {i : Instruction} {m m' : Machine} {line : TraceLine}
    (h : i.execute m = .ok line m') :
    ∃ fields, i.perform m = .ok fields m' ∧ line = { instruction := i, target := i.target? m, fields } := by
  rw [execute_apply] at h
  cases hp : i.perform m with
  | error e m'' =>
    rw [hp] at h
    cases h
  | ok fields m'' =>
    rw [hp] at h
    obtain ⟨hl, hm⟩ := EStateM.Result.ok.inj h
    exact ⟨fields, by rw [hm], hl.symm⟩

end Instruction

end Mos6502
