import Mos6502.Proofs.Memory.Flat
import Mos6502.Proofs.Processor.Tick
import Mos6502.Proofs.Registers

/-!
# The status of a reachable processor

A processor is orderly if the bit without a meaning is set, the decimal and interrupt flags are clear, the break flag
is set exactly at a breakpoint, and the program region lies in the address space.  Every processor that requests lead
to is orderly (`isOrderly_foldl_handle`), because no instruction but BRK touches a control bit
(`control_perform`).  So a tick stops at a breakpoint exactly if the opcode 0x00 comes next
(`breakpoint_iff_opcode_zero`).
-/

namespace Mos6502

/-! ### Instructions -/

namespace Instruction

variable {i : Instruction} {m m' : Machine} {fields : List Field}

private theorem control_carryOut {w : Work} (hw : w ≠ .interrupt) (h : i.carryOut w m = .ok fields m') :
    m'.registers.control = m.registers.control := by
  cases w <;> rw [carryOut] at h
  case load | store | replace | accumulate | intersect | test | compare | jump | call =>
    simp only [load_apply, store_apply, replace_apply, accumulate_apply, intersect_apply, test_apply, compare_apply,
      jump_apply, call_apply] at h
    obtain ⟨a, -, -, rfl⟩ := exists_target h
    simp
  -- no operand is needed
  case assign | ret | pushAccumulator | pullAccumulator | skip =>
    simp only [assign_apply, ret_apply, pushAccumulator_apply, pullAccumulator_apply, skip_apply] at h
    obtain ⟨-, rfl⟩ := EStateM.Result.ok.inj h
    simp
  case shiftRight =>
    by_cases hm : i.mode = .accumulator
    · rw [shiftRight_accumulator m hm] at h
      obtain ⟨-, rfl⟩ := EStateM.Result.ok.inj h
      simp
    · rw [shiftRight_apply m hm] at h
      obtain ⟨a, -, -, rfl⟩ := exists_target h
      simp
  case branch flag value =>
    rw [branch_apply] at h
    split at h
    · obtain ⟨a, -, -, rfl⟩ := exists_target h
      simp
    · obtain ⟨-, rfl⟩ := EStateM.Result.ok.inj h
      simp
  case setCarry value =>
    obtain ⟨-, rfl⟩ := EStateM.Result.ok.inj h
    exact Registers.control_mark rfl m.registers value
  case interrupt => exact absurd rfl hw

/-- An interrupt sets the break flag; no other instruction touches a control bit. -/
theorem control_perform (h : i.perform m = .ok fields m') :
    m'.registers.control = if i.mnemonic = .brk then m.registers.control ||| 0x10 else m.registers.control := by
  rw [perform_eq_carryOut] at h
  by_cases hb : i.mnemonic = .brk
  · rw [hb, Mnemonic.work, carryOut, interrupt_apply] at h
    obtain ⟨-, rfl⟩ := EStateM.Result.ok.inj h
    rw [if_pos hb, Registers.control_advance, Machine.control_interrupt]
  · have hw : i.mnemonic.work ≠ .interrupt := by
      intro hw
      cases hm : i.mnemonic <;> simp [hm, Mnemonic.work] at hw hb
    rw [if_neg hb]
    exact control_carryOut hw h

end Instruction

/-- BRK is the operation of the opcode 0x00 and of no other. -/
theorem mnemonic_eq_brk_iff (opcode : UInt8) : (operation opcode).mnemonic = .brk ↔ opcode = 0 := by
  constructor
  · intro h
    rw [operation_eq_lookup] at h
    rcases hl : opcodeTable.lookup opcode with _ | op
    · rw [hl] at h
      cases h
    · rw [hl] at h
      obtain ⟨l₁, l₂, he, -⟩ := List.lookup_eq_some_iff.1 hl
      have hall : ∀ e ∈ opcodeTable, e.2.mnemonic = .brk → e.1 = 0 := by decide
      exact hall (opcode, op) (by rw [he]; simp) h
  · intro h
    rw [h, operation_eq_lookup]
    decide

namespace Processor

/-! ### Orderly processors -/

/-- What holds of the status and the program region of every processor that requests lead to. -/
structure IsOrderly (p : Processor) : Prop where
  unused : p.registers.status.toNat.testBit 5 = true
  decimal : p.registers.has .decimal = false
  interrupt : p.registers.has .interrupt = false
  break_iff : p.registers.has .break = true ↔ p.activity = .breakpoint
  start_le : p.region.start ≤ p.region.stop
  stop_le : p.region.stop ≤ memorySize

/-- The control bits of a processor that is at a breakpoint or not. -/
def controlAt (activity : Activity) : UInt8 :=
  if activity = .breakpoint then 0x30 else 0x20

private theorem control_eq_iff (r : Registers) (atBreakpoint : Bool) :
    r.control = (if atBreakpoint then 0x30 else 0x20) ↔
      r.status.toNat.testBit 5 = true ∧ r.has .decimal = false ∧ r.has .interrupt = false ∧
        r.has .break = atBreakpoint := by
  obtain ⟨_, _, _, status, _, _⟩ := r
  unfold Registers.control Registers.has
  dsimp only
  -- only the status matters, and it has 256 values
  revert status
  cases atBreakpoint <;> decide +kernel

/-- The flags of an orderly processor in one equation. -/
theorem isOrderly_iff (p : Processor) :
    p.IsOrderly ↔
      p.registers.control = controlAt p.activity ∧ p.region.start ≤ p.region.stop ∧ p.region.stop ≤ memorySize := by
  have h := control_eq_iff p.registers (decide (p.activity = .breakpoint))
  have hc : controlAt p.activity = if decide (p.activity = .breakpoint) then 0x30 else 0x20 := by
    unfold controlAt
    by_cases hb : p.activity = .breakpoint <;> simp [hb]
  have hbool : (p.registers.has .break = true ↔ p.activity = .breakpoint) ↔
      p.registers.has .break = decide (p.activity = .breakpoint) := by
    rw [Bool.eq_iff_iff (b := decide _), decide_eq_true_eq]
  rw [hc, h]
  constructor
  · rintro ⟨h5, hd, hi, hb, hle, hstop⟩
    exact ⟨⟨h5, hd, hi, hbool.1 hb⟩, hle, hstop⟩
  · rintro ⟨⟨h5, hd, hi, hb⟩, hle, hstop⟩
    exact ⟨h5, hd, hi, hbool.2 hb, hle, hstop⟩

/-- A reset processor is a fresh one whose memory is blank. -/
theorem reset_eq (p : Processor) : p.reset = ofMemory (.blank p.memory.popPolicy) := by
  rw [reset, Memory.zeroed_eq]
  rfl

theorem isOrderly_ofMemory (memory : Memory) : (ofMemory memory).IsOrderly := by
  have hc : initialStatus &&& 0x3c = 0x20 := by decide
  exact (isOrderly_iff _).2 ⟨hc, Nat.zero_le _, Nat.le_refl _⟩

variable {p q : Processor}

/-! ### Ticks -/

/-- What an instruction of an orderly running processor leaves in the control bits tells whether it was BRK. -/
private theorem control_execute (h : p.IsOrderly) (hrun : p.activity = .running) {line : TraceLine} {m : Machine}
    (he : p.fetched.execute p.toMachine = .ok line m) :
    m.registers.control = if p.memory.get p.registers.programCounter = 0 then 0x30 else 0x20 := by
  have hc : p.registers.control = 0x20 := by
    rw [((isOrderly_iff p).1 h).1, hrun]
    rfl
  obtain ⟨fields, hp, -⟩ := Instruction.exists_perform_of_execute he
  rw [Instruction.control_perform hp, hc]
  simp only [mnemonic_fetched, mnemonic_eq_brk_iff]
  rfl

private theorem has_break_of_control {r : Registers} {c : Prop} [Decidable c]
    (h : r.control = if c then 0x30 else 0x20) : r.has .break = decide c := by
  refine ((control_eq_iff r (decide c)).1 ?_).2.2.2
  simpa using h

/-- A tick leaves a processor orderly, and stops at a breakpoint if it was the opcode 0x00 that it executed. -/
theorem tick_of_isOrderly (h : p.IsOrderly) (hrun : p.activity = .running) (hf : p.isFetchable = true) :
    ∃ line m, m.registers.control = (if p.memory.get p.registers.programCounter = 0 then 0x30 else 0x20) ∧
      p.tick =
        if p.memory.get p.registers.programCounter = 0 then
          .ok (.breakpoint line) { p with toMachine := m, activity := .breakpoint }
        else .ok (.executed line) { p with toMachine := m } := by
  obtain ⟨hne, -⟩ | ⟨-, hno, -⟩ | ⟨line, m, -, -, he, ht⟩ := p.tick_cases
  · exact absurd hrun hne
  · rw [hf] at hno
    cases hno
  · have hc := control_execute h hrun he
    have hb := has_break_of_control hc
    refine ⟨line, m, hc, ?_⟩
    by_cases h0 : p.memory.get p.registers.programCounter = 0
    · rw [if_pos h0]
      rcases ht with ⟨-, ht⟩ | ⟨hn, -⟩
      · exact ht
      · rw [hb, decide_eq_false_iff_not] at hn
        exact absurd h0 hn
    · rw [if_neg h0]
      rcases ht with ⟨hn, -⟩ | ⟨-, ht⟩
      · rw [hb, decide_eq_true_eq] at hn
        exact absurd hn h0
      · exact ht

/-- A tick leaves a processor orderly. -/
theorem isOrderly_tick (h : p.IsOrderly) {tick : Tick} (ht : p.tick = .ok tick q) : q.IsOrderly := by
  have hp := (isOrderly_iff p).1 h
  obtain ⟨-, he⟩ | ⟨hrun, -, he⟩ | ⟨-, -, hrun, hf, -⟩ := p.tick_cases
  · rw [he] at ht
    obtain ⟨-, rfl⟩ := EStateM.Result.ok.inj ht
    exact h
  · rw [he] at ht
    obtain ⟨-, rfl⟩ := EStateM.Result.ok.inj ht
    rw [hrun] at hp
    exact (isOrderly_iff _).2 hp
  · obtain ⟨line, m, hc, he⟩ := tick_of_isOrderly h hrun hf
    rw [he] at ht
    by_cases h0 : p.memory.get p.registers.programCounter = 0
    · rw [if_pos h0] at ht hc
      obtain ⟨-, rfl⟩ := EStateM.Result.ok.inj ht
      exact (isOrderly_iff _).2 ⟨hc, hp.2⟩
    · rw [if_neg h0] at ht hc
      obtain ⟨-, rfl⟩ := EStateM.Result.ok.inj ht
      refine (isOrderly_iff _).2 ⟨?_, hp.2⟩
      show m.registers.control = controlAt p.activity
      rw [hc, hrun]
      rfl

/-- The opcode 0x00 has no operand: the region holds it as soon as it holds its address. -/
theorem isFetchable_of_opcode_zero (h0 : p.memory.get p.registers.programCounter = 0) :
    p.isFetchable = p.region.holds p.registers.programCounter 1 := by
  have hk : (operation 0).kind = .implied := by
    rw [operation_eq_lookup]
    decide
  rw [isFetchable_eq, h0, hk]
  rfl

/-- A running orderly processor stops at a breakpoint exactly if the opcode 0x00 comes next in its region. -/
theorem breakpoint_iff_opcode_zero (h : p.IsOrderly) (hrun : p.activity = .running) :
    (∃ line q, p.tick = .ok (.breakpoint line) q) ↔
      p.memory.get p.registers.programCounter = 0 ∧ p.region.start ≤ p.registers.programCounter.toNat ∧
        p.registers.programCounter.toNat < p.region.stop := by
  constructor
  · rintro ⟨line, q, ht⟩
    obtain ⟨hne, -⟩ | ⟨-, -, he⟩ | ⟨-, -, -, hf, -⟩ := p.tick_cases
    · exact absurd hrun hne
    · rw [he] at ht
      cases (EStateM.Result.ok.inj ht).1
    · obtain ⟨line', m, -, he⟩ := tick_of_isOrderly h hrun hf
      by_cases h0 : p.memory.get p.registers.programCounter = 0
      · rw [isFetchable_of_opcode_zero h0, Region.holds_iff_bounds] at hf
        exact ⟨h0, hf⟩
      · rw [he, if_neg h0] at ht
        cases (EStateM.Result.ok.inj ht).1
  · rintro ⟨h0, hstart, hstop⟩
    have hf : p.isFetchable = true := by
      rw [isFetchable_of_opcode_zero h0, Region.holds_iff_bounds]
      exact ⟨hstart, hstop⟩
    obtain ⟨line, m, -, he⟩ := tick_of_isOrderly h hrun hf
    rw [if_pos h0] at he
    exact ⟨line, _, he⟩

/-! ### Requests -/

/-- What can be asked of a processor from outside: all but giving a register a value.  The length of a program fits
into 64 bits. -/
inductive Request where
  | load (address : UInt16) (program : { bytes : List UInt8 // bytes.length < UInt64.size })
  | start
  | tick
  | execute (fuel : Nat)
  | resume
  | reset
  /-- A direct write: any memory takes the place of the one there. -/
  | store (memory : Memory)

/-- The state of a processor when an operation has ended, whether it failed or not. -/
def settled {ε α : Type} : EStateM.Result ε Processor α → Processor
  | .ok _ q => q
  | .error _ q => q

/-- The processor after a request, as the request leaves it whether it is granted or refused. -/
def handle (p : Processor) : Request → Processor
  | .load address program => settled (install address program.val p)
  | .start => p.start
  | .tick => settled p.tick
  | .execute fuel => settled (p.execute fuel)
  | .resume => p.resume?.getD p
  | .reset => p.reset
  | .store memory => { p with memory }

theorem settled_execute (p : Processor) (fuel : Nat) :
    settled (p.execute fuel) = settled (p.start.runFor fuel []) := by
  unfold execute
  cases p.start.runFor fuel [] <;> rfl

/-- What ticks keep, a run keeps; without fuel it is left between two ticks. -/
theorem runFor_keeps {P : Processor → Prop} (hkeep : ∀ q, P q → P q.ticked.2) (fuel : Nat) (lines : List TraceLine)
    (h : P p) : P (settled (p.runFor fuel lines)) := by
  induction fuel generalizing p lines with
  | zero => exact h
  | succ fuel ih =>
    by_cases hrun : p.activity = .running
    · rw [runFor_succ hrun]
      exact ih _ (hkeep p h)
    · rw [runFor_of_not_running hrun]
      exact h

/-- A program that is stored ends inside the address space. -/
theorem stop_le_of_write {memory memory' : Memory} {address : UInt16} {program : List UInt8}
    (hlength : program.length < UInt64.size) (hw : memory.write address.toUInt64 program = .ok memory') :
    address.toNat + program.length ≤ memorySize := by
  have hflat := memory.write_exact address.toUInt64 hlength
  rw [hw, Flat.write, UInt16.toNat_toUInt64] at hflat
  split at hflat
  · split at hflat
    · assumption
    · cases hflat
  · cases hflat

private theorem get_bind_apply {ε α : Type} (f : Processor → EStateM ε Processor α) (p : Processor) :
    (get >>= f) p = f p p := rfl

/-- A program is installed as a whole, or it is refused and nothing is changed. -/
theorem install_cases (p : Processor) (address : UInt16) {program : List UInt8}
    (hlength : program.length < UInt64.size) :
    (∃ e, p.memory.write address.toUInt64 program = .error e ∧ install address program p = .error e p) ∨
      ∃ memory, p.memory.write address.toUInt64 program = .ok memory ∧
        address.toNat + program.length ≤ memorySize ∧
        install address program p = .ok () { p with
          memory
          region := { start := address.toNat, stop := address.toNat + program.length }
          registers := { p.registers with programCounter := address } } := by
  unfold install
  rcases hw : p.memory.write address.toUInt64 program with e | memory
  · refine Or.inl ⟨e, rfl, ?_⟩
    rw [get_bind_apply, hw]
    rfl
  · refine Or.inr ⟨memory, rfl, stop_le_of_write hlength hw, ?_⟩
    rw [get_bind_apply, hw]
    rfl

private theorem isOrderly_load (h : p.IsOrderly) {address : UInt16} {program : List UInt8}
    (hlength : program.length < UInt64.size) : (settled (install address program p)).IsOrderly := by
  have hp := (isOrderly_iff p).1 h
  obtain ⟨e, -, he⟩ | ⟨memory, -, hstop, he⟩ := p.install_cases address hlength
  · rw [he]
    exact h
  · rw [he]
    exact (isOrderly_iff _).2 ⟨hp.1, Nat.le_add_right _ _, hstop⟩

private theorem isOrderly_start (h : p.IsOrderly) : p.start.IsOrderly := by
  have hp := (isOrderly_iff p).1 h
  unfold start
  split
  · rename_i hi
    rw [hi] at hp
    exact (isOrderly_iff _).2 hp
  · exact h

private theorem isOrderly_resume? (h : p.IsOrderly) (hr : p.resume? = some q) : q.IsOrderly := by
  have hp := (isOrderly_iff p).1 h
  by_cases hb : p.activity = .breakpoint
  · rw [resume?_of_breakpoint hb] at hr
    cases hr
    refine (isOrderly_iff _).2 ⟨?_, hp.2⟩
    show (p.registers.mark .break false).control = controlAt .running
    rw [Registers.control_mark_break, hp.1, hb]
    decide
  · rw [resume?_of_ne hb] at hr
    cases hr

private theorem isOrderly_execute (h : p.IsOrderly) (fuel : Nat) : (settled (p.execute fuel)).IsOrderly := by
  rw [settled_execute]
  exact runFor_keeps (fun q hq => isOrderly_tick hq q.tick_eq_ticked) fuel [] (isOrderly_start h)

/-- A request leaves a processor orderly. -/
theorem isOrderly_handle (h : p.IsOrderly) (request : Request) : (p.handle request).IsOrderly := by
  cases request with
  | load address program => exact isOrderly_load h program.property
  | start => exact isOrderly_start h
  | tick =>
    show (settled p.tick).IsOrderly
    rw [tick_eq_ticked]
    exact isOrderly_tick h (tick_eq_ticked p)
  | execute fuel => exact isOrderly_execute h fuel
  | resume =>
    show (p.resume?.getD p).IsOrderly
    rcases hr : p.resume? with _ | q
    · exact h
    · exact isOrderly_resume? h hr
  | reset =>
    show p.reset.IsOrderly
    rw [reset_eq]
    exact isOrderly_ofMemory _
  | store memory => exact (isOrderly_iff _).2 ((isOrderly_iff p).1 h)

theorem isOrderly_foldl_handle (h : p.IsOrderly) (requests : List Request) : (requests.foldl handle p).IsOrderly := by
  induction requests generalizing p with
  | nil => exact h
  | cons request requests ih => exact ih (isOrderly_handle h request)

/-- Resuming an orderly processor clears the break flag and touches nothing else in the registers. -/
theorem registers_handle_resume (h : p.IsOrderly) :
    (p.handle .resume).registers = { p.registers with status := p.registers.status &&& 0xef } := by
  show (p.resume?.getD p).registers = _
  by_cases hb : p.activity = .breakpoint
  · rw [resume?_of_breakpoint hb]
    rfl
  · have hn : p.registers.has .break = false := by
      rw [← Bool.not_eq_true, h.break_iff]
      exact hb
    have hs : ∀ s : UInt8, hasFlag s .break = false → s &&& 0xef = s := by decide +kernel
    rw [resume?_of_ne hb, hs _ hn]
    rfl

/-- The processor that requests lead to from the start. -/
def reached (memory : Memory) (requests : List Request) : Processor :=
  requests.foldl handle (.ofMemory memory)

/-- Whatever is asked of a processor, it stays orderly; so a tick of it stops at a breakpoint exactly if the opcode
0x00 comes next in its region, and resuming it touches the break flag only. -/
theorem isOrderly_reached (memory : Memory) (requests : List Request) :
    (reached memory requests).IsOrderly ∧
      ((reached memory requests).activity = .running →
        ((∃ line q, (reached memory requests).tick = .ok (.breakpoint line) q) ↔
          (reached memory requests).memory.get (reached memory requests).registers.programCounter = 0 ∧
            (reached memory requests).region.start ≤ (reached memory requests).registers.programCounter.toNat ∧
            (reached memory requests).registers.programCounter.toNat < (reached memory requests).region.stop)) ∧
      ((reached memory requests).handle .resume).registers =
        { (reached memory requests).registers with status := (reached memory requests).registers.status &&& 0xef } := by
  have h : (reached memory requests).IsOrderly := isOrderly_foldl_handle (isOrderly_ofMemory memory) requests
  exact ⟨h, breakpoint_iff_opcode_zero h, registers_handle_resume h⟩

/-- A processor with an empty memory stops at a breakpoint as soon as it is started. -/
theorem breakpoint_of_blank :
    ∃ line q, (reached (.blank .preserve) [.start]).tick = .ok (.breakpoint line) q := by
  have hs : ∀ memory, reached memory [.start] = { ofMemory memory with activity := .running } := fun _ => rfl
  have h0 := Memory.get_blank .preserve programStart
  have hi := (isOrderly_reached (.blank .preserve) [.start]).2.1
  rw [hs] at hi ⊢
  exact (hi rfl).2 ⟨h0, by decide, by decide⟩

end Processor

end Mos6502
