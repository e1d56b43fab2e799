import Mos6502.Proofs.Processor.Tick
import Mos6502.Proofs.Reference.View

/-!
# Ticks follow the reference

One tick of a running processor, with the next instruction inside its region, leaves exactly the registers and the
memory that the reference instruction set gives (`exists_tick_view`).  Opcodes are compared with the square of the
reference (`entry_toNat`), effective addresses mode by mode (`toNat_effectiveAddress`), and what an instruction leaves
family by family (`view_perform`).
-/

namespace Mos6502

namespace Reference

/-! ### Opcodes -/

private theorem entry_of_mem : ∀ e ∈ opcodeTable, entry e.1.toNat = (e.2.mnemonic, e.2.kind) := by
  decide +kernel

private theorem entry_eq_unknown_or_mem :
    ∀ n < 256, entry n = (.unknown, .implied) ∨ n ∈ opcodeTable.map fun e => e.1.toNat := by
  decide +kernel

/-- The square of the reference holds the operation of every opcode. -/
theorem entry_toNat (opcode : UInt8) :
    entry opcode.toNat = ((operation opcode).mnemonic, (operation opcode).kind) := by
  rw [operation_eq_lookup]
  rcases h : opcodeTable.lookup opcode with _ | op
  · -- the square holds no opcode that the table lacks
    rcases entry_eq_unknown_or_mem opcode.toNat opcode.toNat_lt with he | hm
    · exact he
    · obtain ⟨e, he, hopcode⟩ := List.mem_map.1 hm
      have hne := List.lookup_eq_none_iff.1 h e he
      rw [UInt8.toNat.inj hopcode] at hne
      simp at hne
  · obtain ⟨l₁, l₂, hl, -⟩ := List.lookup_eq_some_iff.1 h
    exact entry_of_mem (opcode, op) (by rw [hl]; simp)

private theorem kind_of_call (p : Processor) (h : p.fetched.mnemonic = .jsr) : p.fetched.mode.kind = .absolute := by
  rw [Processor.mnemonic_fetched] at h
  rw [Processor.kind_fetched]
  exact operation_cases (p := fun op => op.mnemonic = .jsr → op.kind = .absolute) (by decide) (by decide) _ h

theorem length_eq (kind : ModeKind) : length kind = 1 + kind.operandLength := by
  cases kind <;> rfl

/-! ### Effective addresses -/

section

variable (m : Machine)

private theorem toNat_operand (k : Nat) :
    (m.memory.get (m.registers.programCounter + UInt16.ofNat k)).toNat = (view m).operand k := by
  have h : (m.registers.programCounter + UInt16.ofNat k).toNat = (m.registers.programCounter.toNat + k) % 65536 := by
    rw [UInt16.toNat_add, UInt16.toNat_ofNat']
    omega
  rw [← cell_toNat, h]
  rfl

private theorem toNat_getWord (low high : UInt16) :
    (m.memory.getWord low high).toNat = (view m).cell low.toNat + 256 * (view m).cell high.toNat := by
  rw [Memory.getWord, toNat_word, ← cell_toNat, ← cell_toNat]
  rfl

private theorem toNat_operandWord :
    (word (m.memory.get (m.registers.programCounter + 1)) (m.memory.get (m.registers.programCounter + 2))).toNat =
      (view m).operandWord := by
  rw [toNat_word]
  unfold State.operandWord
  rw [← toNat_operand, ← toNat_operand]
  rfl

private theorem toNat_zeroPageWord {pointer : UInt8} {n : Nat} (h : pointer.toNat = n % 256) :
    (AddressingMode.zeroPageWord m.memory pointer).toNat = (view m).zeroPageWord n := by
  have hs : (pointer + 1).toUInt16.toNat = (n + 1) % 256 := by
    rw [UInt8.toNat_toUInt16, UInt8.toNat_add, h]
    show (n % 256 + 1) % 256 = _
    omega
  unfold AddressingMode.zeroPageWord State.zeroPageWord
  rw [toNat_getWord, hs, UInt8.toNat_toUInt16, h]

private theorem toNat_indexed (base : UInt16) (index : UInt8) :
    (base + index.toUInt16).toNat = (base.toNat + index.toNat) % 65536 := by
  rw [UInt16.toNat_add, UInt8.toNat_toUInt16]

/-- The effective address of the bytes after the opcode is the one of the reference. -/
theorem toNat_effectiveAddress (kind : ModeKind) {a : UInt16}
    (h : (AddressingMode.ofOperands kind m.registers.programCounter
        (m.memory.get (m.registers.programCounter + 1))
        (m.memory.get (m.registers.programCounter + 2))).effectiveAddress? m.registers.programCounter m = some a) :
    a.toNat = (view m).address kind := by
  have h1 : (m.memory.get (m.registers.programCounter + 1)).toNat = (view m).operand 1 := toNat_operand m 1
  have hw := toNat_operandWord m
  cases kind <;> simp only [AddressingMode.ofOperands, AddressingMode.effectiveAddress?, Option.some.injEq,
    reduceCtorEq] at h <;> subst h <;> unfold State.address <;> dsimp only
  case immediate => exact UInt16.toNat_add _ _
  case zeroPage => rw [UInt8.toNat_toUInt16, h1]
  case zeroPageX =>
    rw [UInt8.toNat_toUInt16, UInt8.toNat_add, h1]
    rfl
  case zeroPageY =>
    rw [UInt8.toNat_toUInt16, UInt8.toNat_add, h1]
    rfl
  case indexedIndirect =>
    apply toNat_zeroPageWord
    rw [UInt8.toNat_add, h1]
    rfl
  case indirectIndexed =>
    -- the pointer is a byte, so it is in the zero page already
    rw [toNat_indexed, toNat_zeroPageWord m (n := (view m).operand 1)]
    · rfl
    · rw [← h1, Nat.mod_eq_of_lt (UInt8.toNat_lt _)]
  case absolute => exact hw
  case absoluteX =>
    rw [toNat_indexed, hw]
    rfl
  case absoluteY =>
    rw [toNat_indexed, hw]
    rfl
  case indirect =>
    rw [toNat_getWord, UInt16.toNat_add, hw]
    rfl
  case relative =>
    rw [toNat_branchDestination, h1]
    rfl

/-! ### Instructions at the program counter -/

/-- An instruction that stands at the program counter of a machine, with its operand as the reference finds it. -/
structure IsNext (i : Instruction) (m : Machine) : Prop where
  address_eq : i.address = m.registers.programCounter
  toNat_target : ∀ {a}, i.target? m = some a → a.toNat = (view m).address i.mode.kind

/-- The instruction that a processor fetches stands at its program counter. -/
theorem isNext_fetched (p : Processor) : IsNext p.fetched p.toMachine := by
  refine ⟨rfl, ?_⟩
  intro a h
  rw [Processor.fetched, Instruction.decode, AddressingMode.kind_ofOperands]
  exact toNat_effectiveAddress p.toMachine _ h

variable {m} {m' : Machine} {i : Instruction} {fields report : List Field}

private theorem value_eq_cell (s : State) (kind : ModeKind) : s.value kind = s.cell (s.address kind) := by
  cases kind <;> rfl

private theorem IsNext.toNat_value (hi : IsNext i m) {a : UInt16} (h : i.target? m = some a) :
    (m.memory.get a).toNat = (view m).value i.mode.kind := by
  rw [value_eq_cell, ← hi.toNat_target h, ← cell_toNat]
  rfl

private theorem view_advance_size (m : Machine) (i : Instruction) :
    view { m with registers := m.registers.advance i.size } =
      { view m with pc := (view m).next i.mode.kind } := by
  rw [view_advance, State.next, length_eq]
  rfl

/-! ### Families of instructions -/

private theorem view_load (hi : IsNext i m) {d : Register} (h : i.load d m = .ok fields m') :
    view m' = { ((view m).put d ((view m).value i.mode.kind)).marked ((view m).value i.mode.kind) with
      pc := (view m).next i.mode.kind } := by
  rw [Instruction.load_apply] at h
  obtain ⟨a, ha, -, rfl⟩ := Instruction.exists_target h
  rw [view_advance_size { m with registers := m.registers.assign d (m.memory.get a) }, view_assign, hi.toNat_value ha]
  cases d <;> rfl

private theorem view_store (hi : IsNext i m) {r : Register} (h : i.store r m = .ok fields m') :
    view m' = { (view m).store ((view m).address i.mode.kind) ((view m).get r) with
      pc := (view m).next i.mode.kind } := by
  rw [Instruction.store_apply] at h
  obtain ⟨a, ha, -, rfl⟩ := Instruction.exists_target h
  rw [view_advance_size { m with memory := m.memory.set a (m.registers.get r) }, view_set, hi.toNat_target ha, toNat_get]
  rfl

private theorem view_assignment {d r : Register} (change : UInt8 → UInt8) (n : Nat → Nat)
    (hn : ∀ b, (change b).toNat = n b.toNat) (h : i.assign d r change m = .ok fields m') :
    view m' = { ((view m).put d (n ((view m).get r))).marked (n ((view m).get r)) with
      pc := (view m).next i.mode.kind } := by
  rw [Instruction.assign_apply] at h
  obtain ⟨-, rfl⟩ := EStateM.Result.ok.inj h
  rw [view_advance_size { m with registers := m.registers.assign d (change (m.registers.get r)) }, view_assign, hn,
    toNat_get]
  cases d <;> rfl

private theorem view_replace (hi : IsNext i m) (change : UInt8 → UInt8) (n : Nat → Nat)
    (hn : ∀ b, (change b).toNat = n b.toNat) (h : i.replace change m = .ok fields m') :
    view m' = { ((view m).store ((view m).address i.mode.kind) (n ((view m).value i.mode.kind))).marked
        (n ((view m).value i.mode.kind)) with
      pc := (view m).next i.mode.kind } := by
  rw [Instruction.replace_apply] at h
  obtain ⟨a, ha, -, rfl⟩ := Instruction.exists_target h
  rw [view_advance_size ⟨m.registers.markValue (change (m.memory.get a)), m.memory.set a (change (m.memory.get a))⟩,
    view_markValue { m with memory := m.memory.set a (change (m.memory.get a)) }, view_set, hn, hi.toNat_target ha,
    hi.toNat_value ha]
  rfl

private theorem view_intersect (hi : IsNext i m) (h : i.intersect m = .ok fields m') :
    view m' = (view m).effect i.mode.kind .and := by
  rw [Instruction.intersect_apply] at h
  obtain ⟨a, ha, -, rfl⟩ := Instruction.exists_target h
  rw [view_advance_size { m with registers := m.registers.assign .accumulator _ }, view_assign, UInt8.toNat_and,
    hi.toNat_value ha]
  rfl

private theorem view_test (hi : IsNext i m) (h : i.test m = .ok fields m') :
    view m' = (view m).effect i.mode.kind .bit := by
  rw [Instruction.test_apply] at h
  obtain ⟨a, ha, -, rfl⟩ := Instruction.exists_target h
  have hz : isZero (m.registers.accumulator &&& m.memory.get a) =
      decide ((view m).a &&& (view m).value i.mode.kind = 0) := by
    rw [isZero_eq_decide, UInt8.toNat_and, hi.toNat_value ha]
    rfl
  have hv : (m.memory.get a).toNat.testBit 6 = decide ((view m).value i.mode.kind / 64 % 2 = 1) := by
    rw [Nat.testBit_eq_decide_div_mod_eq, hi.toNat_value ha]
  have hn : isNegative (m.memory.get a) = decide (128 ≤ (view m).value i.mode.kind) := by
    rw [isNegative_eq_decide, hi.toNat_value ha]
  rw [view_advance_size { m with registers := m.registers.test (m.memory.get a) }, Registers.test, hz, hv, hn]
  rw [view_mark { m with registers := (m.registers.mark .zero _).mark .overflow _ },
    view_mark { m with registers := m.registers.mark .zero _ }, view_mark]
  rfl

private theorem view_compare (hi : IsNext i m) {r : Register} (h : i.compare r m = .ok fields m') :
    view m' = { (view m).compare ((view m).get r) ((view m).value i.mode.kind) with
      pc := (view m).next i.mode.kind } := by
  rw [Instruction.compare_apply] at h
  obtain ⟨a, ha, -, rfl⟩ := Instruction.exists_target h
  have hc := carry_compareBytes (m.registers.get r) (m.memory.get a)
  have hz := zero_compareBytes (m.registers.get r) (m.memory.get a)
  have hn := negative_compareBytes (m.registers.get r) (m.memory.get a)
  simp only [toNat_get, hi.toNat_value ha] at hc hz hn
  rw [view_advance_size { m with registers := m.registers.compare _ }, Registers.compare, hc, hz, hn]
  rw [view_mark { m with registers := (m.registers.mark .carry _).mark .zero _ },
    view_mark { m with registers := m.registers.mark .carry _ }, view_mark]
  rfl

private theorem view_total (s : ByteSum) :
    view { m with registers := m.registers.total s } =
      { view m with
        a := s.value.toNat
        flags := { (view m).flags.of s.value.toNat with carry := s.carry, overflow := s.overflow } } := by
  unfold Registers.total
  rw [view_assign { m with registers := (m.registers.mark .carry s.carry).mark .overflow s.overflow },
    view_mark { m with registers := m.registers.mark .carry s.carry }, view_mark]
  rfl

private theorem view_accumulate (hi : IsNext i m) {sum : UInt8 → UInt8 → Bool → ByteSum}
    {total : State → Nat → State}
    (hs : ∀ b, view { m with registers := m.registers.total (sum m.registers.accumulator b (m.registers.has .carry)) } =
      total (view m) b.toNat)
    (h : i.accumulate sum m = .ok fields m') :
    view m' = { total (view m) ((view m).value i.mode.kind) with pc := (view m).next i.mode.kind } := by
  rw [Instruction.accumulate_apply] at h
  obtain ⟨a, ha, -, rfl⟩ := Instruction.exists_target h
  rw [← hi.toNat_value ha, ← hs]
  exact view_advance_size { m with registers := m.registers.total _ } i

/-- An addition is that of the reference. -/
theorem view_add (b : UInt8) :
    view { m with registers := m.registers.total (addWithCarry m.registers.accumulator b (m.registers.has .carry)) } =
      (view m).add b.toNat := by
  rw [view_total, toNat_value_addWithCarry, carry_addWithCarry, overflow_addWithCarry, has_eq_get]
  rfl

/-- A subtraction is that of the reference. -/
theorem view_subtract (b : UInt8) :
    view { m with
        registers := m.registers.total (subtractWithCarry m.registers.accumulator b (m.registers.has .carry)) } =
      (view m).subtract b.toNat := by
  have hv := toNat_value_subtractWithCarry m.registers.accumulator b (m.registers.has .carry)
  have ht : (subtractWithCarry m.registers.accumulator b (m.registers.has .carry)).value.toNat =
      (((m.registers.accumulator.toNat - b.toNat - (1 - (m.registers.has .carry).toNat)) % 256 : Int)).toNat := by
    omega
  rw [view_total, carry_subtractWithCarry, overflow_subtractWithCarry, ht, has_eq_get]
  rfl

private theorem view_halve (byte : UInt8) :
    view { m with registers := m.registers.halve byte } =
      { view m with flags := { (view m).flags.of (byte.toNat / 2) with carry := byte.toNat % 2 = 1 } } := by
  have hc : byte.toNat.testBit 0 = decide (byte.toNat % 2 = 1) := Nat.testBit_zero _
  unfold Registers.halve
  rw [view_markValue { m with registers := m.registers.mark .carry _ }, view_mark, hc, toNat_half]
  rfl

private theorem view_shiftRight (hi : IsNext i m) (h : i.shiftRight m = .ok fields m') :
    view m' = (view m).effect i.mode.kind .lsr := by
  have hk := i.kind_eq_accumulator_iff
  unfold State.effect
  by_cases hm : i.mode = .accumulator
  · -- the accumulator is shifted in place, and no cell is written
    rw [Instruction.shiftRight_accumulator m hm] at h
    obtain ⟨-, rfl⟩ := EStateM.Result.ok.inj h
    rw [view_advance_size { m with registers := _ },
      view_halve (m := { m with registers := m.registers.put .accumulator _ }), view_put, toNat_half]
    dsimp only
    rw [if_pos (hk.2 hm)]
    rfl
  · rw [Instruction.shiftRight_apply m hm] at h
    obtain ⟨a, ha, -, rfl⟩ := Instruction.exists_target h
    rw [view_advance_size ⟨m.registers.halve (m.memory.get a), m.memory.set a (m.memory.get a >>> 1)⟩,
      view_halve (m := { m with memory := m.memory.set a (m.memory.get a >>> 1) }), view_set, toNat_half,
      hi.toNat_target ha, hi.toNat_value ha]
    dsimp only
    rw [if_neg (mt hk.1 hm)]
    rfl

private theorem view_branch (hi : IsNext i m) {flag : Flag} {value : Bool} (h : i.branch flag value m = .ok fields m') :
    view m' = (view m).branch i.mode.kind ((view m).flags.get flag == value) := by
  rw [Instruction.branch_apply, has_eq_get] at h
  unfold State.branch
  by_cases hf : (view m).flags.get flag = value
  · rw [if_pos hf] at h
    obtain ⟨a, ha, -, rfl⟩ := Instruction.exists_target h
    rw [view_goTo, hi.toNat_target ha, if_pos (beq_iff_eq.2 hf)]
  · rw [if_neg hf] at h
    obtain ⟨-, rfl⟩ := EStateM.Result.ok.inj h
    rw [view_advance_size, if_neg (mt beq_iff_eq.1 hf)]

private theorem view_jump (hi : IsNext i m) (h : i.jump m = .ok fields m') :
    view m' = { view m with pc := (view m).address i.mode.kind } := by
  rw [Instruction.jump_apply] at h
  obtain ⟨a, ha, -, rfl⟩ := Instruction.exists_target h
  rw [view_goTo, hi.toNat_target ha]

private theorem view_call (hi : IsNext i m) (hk : i.mode.kind = .absolute) (h : i.call m = .ok fields m') :
    view m' = (view m).effect i.mode.kind .jsr := by
  rw [Instruction.call_apply] at h
  obtain ⟨a, ha, -, rfl⟩ := Instruction.exists_target h
  rw [view_goTo, view_pushWord, hi.toNat_target ha, hk, hi.address_eq, UInt16.toNat_add]
  rfl

private theorem view_ret (h : Instruction.ret m = .ok fields m') : view m' = (view m).effect i.mode.kind .rts := by
  rw [Instruction.ret_apply] at h
  obtain ⟨-, rfl⟩ := EStateM.Result.ok.inj h
  rw [view_goTo, view_pullWord, UInt16.toNat_add, toNat_pullWord]
  rfl

private theorem view_pushAccumulator (h : i.pushAccumulator m = .ok fields m') :
    view m' = (view m).effect i.mode.kind .pha := by
  rw [Instruction.pushAccumulator_apply] at h
  obtain ⟨-, rfl⟩ := EStateM.Result.ok.inj h
  rw [view_advance_size, view_push]
  rfl

private theorem view_pullAccumulator (h : i.pullAccumulator m = .ok fields m') :
    view m' = (view m).effect i.mode.kind .pla := by
  rw [Instruction.pullAccumulator_apply] at h
  obtain ⟨-, rfl⟩ := EStateM.Result.ok.inj h
  have hs : { (view m).pop with flags := (view m).flags, pc := (view m).pc } = (view m).pop := by
    unfold State.pop
    split <;> rfl
  rw [view_advance_size { m.pull.2 with registers := _ }, view_assign, toNat_pull, view_pull, ← hs]
  rfl

private theorem view_setCarry {value : Bool} (h : i.setCarry value m = .ok fields m') :
    view m' = { view m with flags := { (view m).flags with carry := value }, pc := (view m).next i.mode.kind } := by
  rw [Instruction.setCarry_apply] at h
  obtain ⟨-, rfl⟩ := EStateM.Result.ok.inj h
  rw [view_advance_size { m with registers := _ }, view_mark]
  rfl

private theorem view_interruption (hi : IsNext i m) (h : i.interrupt m = .ok fields m') :
    view m' = (view m).effect i.mode.kind .brk := by
  rw [Instruction.interrupt_apply] at h
  obtain ⟨-, rfl⟩ := EStateM.Result.ok.inj h
  have ha : (i.address + 2).toNat = ((view m).pc + 2) % 65536 := by
    rw [hi.address_eq]
    exact UInt16.toNat_add _ _
  rw [view_advance_size, view_interrupt, ha]
  rfl

private theorem view_skip (h : i.skip report m = .ok fields m') :
    view m' = { view m with pc := (view m).next i.mode.kind } := by
  rw [Instruction.skip_apply] at h
  obtain ⟨-, rfl⟩ := EStateM.Result.ok.inj h
  exact view_advance_size m i

/-! ### Any instruction -/

/-- An instruction at the program counter leaves what the reference gives for its mnemonic. -/
theorem view_perform (hi : IsNext i m) (hk : i.mnemonic = .jsr → i.mode.kind = .absolute)
    (h : i.perform m = .ok fields m') : view m' = (view m).effect i.mode.kind i.mnemonic := by
  rw [Instruction.perform_eq_carryOut] at h
  cases hm : i.mnemonic <;> rw [hm] at h hk
  case lda | ldx | ldy => exact view_load hi h
  case sta | stx | sty => exact view_store hi h
  case tax | tay | txa | tya => exact view_assignment id id (fun _ => rfl) h
  case inx | iny => exact view_assignment (· + 1) (fun n => (n + 1) % 256) toNat_succ h
  case dex | dey => exact view_assignment (· - 1) (fun n => (n + 255) % 256) toNat_pred h
  case inc => exact view_replace hi (· + 1) (fun n => (n + 1) % 256) toNat_succ h
  case dec => exact view_replace hi (· - 1) (fun n => (n + 255) % 256) toNat_pred h
  case adc => exact view_accumulate hi view_add h
  case sbc => exact view_accumulate hi view_subtract h
  case and => exact view_intersect hi h
  case bit => exact view_test hi h
  case cmp | cpx | cpy => exact view_compare hi h
  case lsr => exact view_shiftRight hi h
  case bcc | bcs | bne | beq | bpl | bmi =>
    rw [view_branch hi h]
    exact congrArg ((view m).branch i.mode.kind) (by simp [Flags.get])
  case jmp => exact view_jump hi h
  case jsr => exact view_call hi (hk rfl) h
  case rts => exact view_ret h
  case pha => exact view_pushAccumulator h
  case pla => exact view_pullAccumulator h
  case sec | clc => exact view_setCarry h
  case brk => exact view_interruption hi h
  case nop | unknown => exact view_skip h

/-! ### A tick -/

/-- What the processor fetches is what the reference finds at the program counter. -/
theorem entry_fetched (p : Processor) :
    entry ((view p.toMachine).cell (view p.toMachine).pc) = (p.fetched.mnemonic, p.fetched.mode.kind) := by
  have h : (view p.toMachine).cell (view p.toMachine).pc = (p.memory.get p.registers.programCounter).toNat :=
    cell_toNat p.memory p.registers.programCounter
  rw [h, entry_toNat, Processor.mnemonic_fetched, Processor.kind_fetched]

theorem isFetchable_iff_inside (p : Processor) :
    p.isFetchable = true ↔ (view p.toMachine).Inside p.region.start p.region.stop := by
  unfold Processor.isFetchable Region.holds State.Inside
  rw [entry_fetched, length_eq, Bool.and_eq_true, decide_eq_true_eq, decide_eq_true_eq]
  rfl

/-- One tick of a running processor, with the next instruction inside its region, executes one instruction and leaves
the registers and the memory of the reference, and the region as it was. -/
theorem exists_tick_view {p : Processor} (hrun : p.activity = .running)
    (hin : (view p.toMachine).Inside p.region.start p.region.stop) :
    ∃ tick q, p.tick = .ok tick q ∧ tick.count = 1 ∧ q.region = p.region ∧
      view q.toMachine = (view p.toMachine).step := by
  have hf := (isFetchable_iff_inside p).2 hin
  obtain ⟨hne, -⟩ | ⟨-, hno, -⟩ | ⟨line, m, -, -, he, ht⟩ := p.tick_cases
  · exact absurd hrun hne
  · rw [hf] at hno
    cases hno
  · have hv : view m = (view p.toMachine).step := by
      obtain ⟨fields, hp, -⟩ := Instruction.exists_perform_of_execute he
      rw [State.step, entry_fetched]
      exact view_perform (isNext_fetched p) (kind_of_call p) hp
    rcases ht with ⟨-, ht⟩ | ⟨-, ht⟩
    · exact ⟨_, _, ht, rfl, rfl, hv⟩
    · exact ⟨_, _, ht, rfl, rfl, hv⟩

/-- INX at the start of an otherwise empty memory leaves one in X. -/
theorem exists_tick_inx :
    ∃ tick q, ({ Processor.ofMemory ((Memory.blank .clear).set programStart 0xe8) with activity := .running } :
      Processor).tick = .ok tick q ∧ q.registers.indexX.toNat = 1 ∧ q.registers.programCounter.toNat = 0x0601 := by
  have hc : cell ((Memory.blank .clear).set programStart 0xe8) programStart.toNat = 0xe8 := by
    rw [cell_toNat, Memory.get_set_self]
    rfl
  generalize (Memory.blank .clear).set programStart 0xe8 = memory at hc
  have hin : (view (Processor.ofMemory memory).toMachine).Inside 0 65536 := by
    show 0 ≤ programStart.toNat ∧ programStart.toNat + length (entry (cell memory programStart.toNat)).2 ≤ 65536
    rw [hc]
    decide
  have hs : (view (Processor.ofMemory memory).toMachine).step =
      (view (Processor.ofMemory memory).toMachine).effect .implied .inx := by
    show State.effect _ (entry (cell memory programStart.toNat)).2 (entry (cell memory programStart.toNat)).1 = _
    rw [hc]
    rfl
  obtain ⟨tick, q, ht, -, -, hv⟩ :=
    exists_tick_view (p := { Processor.ofMemory memory with activity := .running }) rfl hin
  exact ⟨tick, q, ht, congrArg State.x (hv.trans hs), congrArg State.pc (hv.trans hs)⟩

end

end Reference

end Mos6502
