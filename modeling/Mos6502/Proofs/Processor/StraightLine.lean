import Mathlib.Data.Nat.Find
import Mos6502.Proofs.Processor.Confinement

/-!
# Straight line code ends

An instruction that does not transfer control moves the program counter behind itself (`programCounter_perform`),
whatever it stores.  In a region that is not the whole address space the program counter then never comes back: each
step goes up, or leaves the region (`step_straight`).  So as long as no control is transferred, a processor executes no
more instructions than its region has cells (`exists_not_isFetchable`).  In the whole address space there is nothing to
leave, and the program counter goes around.
-/

namespace Mos6502

/-! ### Transfers of control -/

/-- Whether an operation goes elsewhere than behind its instruction: a jump, a call or a return does, and a branch if
it is taken. -/
def Mnemonic.transfers (mnemonic : Mnemonic) (r : Registers) : Bool :=
  match mnemonic with
  | .jmp | .jsr | .rts => true
  | .bcc => !r.has .carry
  | .bcs => r.has .carry
  | .beq => r.has .zero
  | .bne => !r.has .zero
  | .bpl => !r.has .negative
  | .bmi => r.has .negative
  | .lda | .ldx | .ldy | .sta | .stx | .sty | .tax | .tay | .txa | .tya | .inx | .iny | .dex | .dey | .inc | .dec
  | .and | .bit | .lsr | .adc | .sbc | .cmp | .cpx | .cpy | .pha | .pla | .sec | .clc | .brk | .nop | .unknown => false

/-- The same for a kind of work. -/
def Work.transfers (work : Work) (r : Registers) : Bool :=
  match work with
  | .jump | .call | .ret => true
  | .branch flag value => r.has flag == value
  | _ => false

theorem Mnemonic.transfers_work (mnemonic : Mnemonic) (r : Registers) :
    mnemonic.work.transfers r = mnemonic.transfers r := by
  cases mnemonic <;> simp [transfers, work, Work.transfers]

namespace Registers

variable (r : Registers)

@[simp] theorem programCounter_advance (length : Nat) :
    (r.advance length).programCounter = r.programCounter + UInt16.ofNat length := rfl

@[simp] theorem programCounter_assign (register : Register) (value : UInt8) :
    (r.assign register value).programCounter = r.programCounter := by
  cases register <;> rfl

@[simp] theorem programCounter_markValue (value : UInt8) :
    (r.markValue value).programCounter = r.programCounter := rfl

@[simp] theorem programCounter_total (s : ByteSum) : (r.total s).programCounter = r.programCounter := rfl

@[simp] theorem programCounter_test (byte : UInt8) : (r.test byte).programCounter = r.programCounter := rfl

@[simp] theorem programCounter_compare (c : ByteComparison) : (r.compare c).programCounter = r.programCounter := rfl

theorem advance_advance (length length' : Nat) : (r.advance length).advance length' = r.advance (length + length') := by
  unfold advance
  rw [UInt16.ofNat_add, ← UInt16.add_assoc]

end Registers

namespace Instruction

variable {i : Instruction} {m m' : Machine} {fields : List Field}

private theorem programCounter_carryOut {w : Work} (h : i.carryOut w m = .ok fields m')
    (ht : w.transfers m.registers = false) :
    m'.registers.programCounter = m.registers.programCounter + UInt16.ofNat i.size := by
  cases w <;> rw [carryOut] at h
  case jump | call | ret => cases ht
  case load | store | replace | accumulate | intersect | test | compare =>
    simp only [load_apply, store_apply, replace_apply, accumulate_apply, intersect_apply, test_apply,
      compare_apply] at h
    obtain ⟨a, -, -, rfl⟩ := exists_target h
    simp
  -- no operand is needed
  case assign =>
    rw [assign_apply] at h
    obtain ⟨-, rfl⟩ := EStateM.Result.ok.inj h
    simp
  case pushAccumulator | pullAccumulator | setCarry | interrupt | skip =>
    simp only [pushAccumulator_apply, pullAccumulator_apply, setCarry_apply, interrupt_apply, skip_apply] at h
    obtain ⟨-, rfl⟩ := EStateM.Result.ok.inj h
    rfl
  case shiftRight =>
    by_cases hm : i.mode = .accumulator
    · rw [shiftRight_accumulator m hm] at h
      obtain ⟨-, rfl⟩ := EStateM.Result.ok.inj h
      rfl
    · rw [shiftRight_apply m hm] at h
      obtain ⟨a, -, -, rfl⟩ := exists_target h
      rfl
  case branch flag value =>
    have ht : m.registers.has flag ≠ value := beq_eq_false_iff_ne.1 ht
    rw [branch_apply, if_neg ht] at h
    obtain ⟨-, rfl⟩ := EStateM.Result.ok.inj h
    rfl

/-- An instruction that does not transfer control moves the program counter behind itself. -/
theorem programCounter_perform (h : i.perform m = .ok fields m') (ht : i.mnemonic.transfers m.registers = false) :
    m'.registers.programCounter = m.registers.programCounter + UInt16.ofNat i.size := by
  rw [perform_eq_carryOut] at h
  rw [← Mnemonic.transfers_work] at ht
  exact programCounter_carryOut h ht

end Instruction

theorem Region.eq_full_iff {region : Region} : region = .full ↔ region.start = 0 ∧ region.stop = memorySize :=
  Region.mk.injEq _ _ _ _ ▸ Iff.rfl

namespace Processor

variable {p : Processor}

/-! ### Steps -/

/-- The first steps of a processor execute no instruction that transfers control. -/
def IsStraight (p : Processor) (n : Nat) : Prop :=
  ∀ k < n, ∀ line, (p.tickAt k).line? = some line → line.instruction.mnemonic.transfers (p.after k).registers = false

/-- A step of a running processor whose region holds the next instruction executes it; the processor runs on, for a
breakpoint is resumed. -/
theorem step_execute (hrun : p.activity = .running) (hf : p.isFetchable = true) :
    ∃ line m, p.fetched.execute p.toMachine = .ok line m ∧ p.step.1.line? = some line ∧
      p.step.2.activity = .running ∧ p.step.2.region = p.region ∧
      p.step.2.registers.programCounter = m.registers.programCounter := by
  obtain ⟨hne, -⟩ | ⟨-, hno, -⟩ | ⟨line, m, -, -, he, ⟨-, ht⟩ | ⟨-, ht⟩⟩ := p.tick_cases
  · exact absurd hrun hne
  · rw [hf] at hno
    cases hno
  · rw [step_of_breakpoint ht, resume?_of_breakpoint rfl]
    exact ⟨line, m, he, rfl, rfl, rfl, rfl⟩
  · rw [step_of_executed ht]
    exact ⟨line, m, he, rfl, hrun, rfl, rfl⟩

/-- A step of a running processor without a transfer of control goes up in the address space, unless it leaves the
region. -/
theorem step_straight (hrun : p.activity = .running) (hf : p.isFetchable = true) (hs : p.IsStraight 1)
    (hstop : p.region.stop ≤ memorySize) (hfull : p.region ≠ .full) (hf' : p.step.2.isFetchable = true) :
    p.registers.programCounter.toNat < p.step.2.registers.programCounter.toNat := by
  obtain ⟨line, m, he, hline, -, hregion, hpc⟩ := step_execute hrun hf
  obtain ⟨fields, hp, rfl⟩ := Instruction.exists_perform_of_execute he
  have hnext := Instruction.programCounter_perform hp (hs 0 Nat.one_pos _ hline)
  have hend := (Region.holds_iff_bounds.1 hf).2
  have hstart := (Region.holds_iff_bounds.1 hf').1
  have hsize := size_fetched p
  rw [hpc, hnext, hregion] at hstart
  rw [hpc, hnext]
  by_cases hturn : p.registers.programCounter.toNat + p.fetched.size < memorySize
  · rw [toNat_add_ofNat hturn]
    omega
  · -- the instruction ends with the address space, and the region holds the address zero
    refine absurd ?_ hfull
    have hsize64 : memorySize = 65536 := rfl
    have hzero : (p.registers.programCounter + UInt16.ofNat p.fetched.size).toNat = 0 := by
      rw [UInt16.toNat_add, UInt16.toNat_ofNat']
      omega
    exact Region.eq_full_iff.2 ⟨by omega, by omega⟩

/-! ### Runs -/

/-- A processor keeps running in its region as long as the region holds the next instruction, and executes one at each
step. -/
theorem after_of_isFetchable (hrun : p.activity = .running) {n : Nat} (hf : ∀ k < n, (p.after k).isFetchable = true) :
    (p.after n).activity = .running ∧ (p.after n).region = p.region := by
  induction n with
  | zero => exact ⟨hrun, rfl⟩
  | succ n ih =>
    obtain ⟨hr, hregion⟩ := ih fun k hk => hf k (Nat.lt_succ_of_lt hk)
    obtain ⟨-, -, -, -, hr', hregion', -⟩ := step_execute hr (hf n n.lt_succ_self)
    rw [after_succ]
    exact ⟨hr', hregion'.trans hregion⟩

/-- The program counter is at least as far from the start of the region as there have been steps. -/
theorem start_add_le (hrun : p.activity = .running) (hstop : p.region.stop ≤ memorySize) (hfull : p.region ≠ .full)
    {n : Nat} (hs : p.IsStraight n) (hf : ∀ k ≤ n, (p.after k).isFetchable = true) :
    p.region.start + n ≤ (p.after n).registers.programCounter.toNat := by
  induction n with
  | zero => exact (Region.holds_iff_bounds.1 (hf 0 (Nat.le_refl _))).1
  | succ n ih =>
    have hn := ih (fun k hk => hs k (Nat.lt_succ_of_lt hk)) fun k hk => hf k (Nat.le_succ_of_le hk)
    obtain ⟨hr, hregion⟩ := after_of_isFetchable hrun (n := n) fun k hk => hf k (by omega)
    have hs' : (p.after n).IsStraight 1 := by
      intro k hk line hl
      obtain rfl : k = 0 := by omega
      exact hs n n.lt_succ_self line hl
    have hup := step_straight hr (hf n n.le_succ) hs' (hregion ▸ hstop) (hregion ▸ hfull)
      (by rw [← after_succ]; exact hf (n + 1) (Nat.le_refl _))
    rw [after_succ]
    omega

/-- A straight run comes to an instruction that the region does not hold. -/
theorem exists_not_isFetchable (hrun : p.activity = .running) (hstop : p.region.stop ≤ memorySize)
    (hfull : p.region ≠ .full) (hs : p.IsStraight (p.region.stop - p.region.start)) :
    ∃ n ≤ p.region.stop - p.region.start,
      (∀ k < n, (p.after k).isFetchable = true) ∧ (p.after n).isFetchable = false := by
  by_cases hf : ∀ k ≤ p.region.stop - p.region.start, (p.after k).isFetchable = true
  · -- the program counter would be at the end of the region
    exfalso
    have hle := start_add_le hrun hstop hfull hs hf
    have hlast := Region.holds_iff_bounds.1 (hf _ (Nat.le_refl _))
    have hsize := size_fetched (p.after (p.region.stop - p.region.start))
    rw [(after_of_isFetchable hrun fun k hk => hf k (Nat.le_of_lt hk)).2] at hlast
    omega
  · have hex : ∃ k, k ≤ p.region.stop - p.region.start ∧ (p.after k).isFetchable = false := by
      simpa using hf
    obtain ⟨hle, hn⟩ := Nat.find_spec hex
    refine ⟨Nat.find hex, hle, ?_, hn⟩
    intro k hk
    have hmin := Nat.find_min hex hk
    rw [not_and, Bool.not_eq_false] at hmin
    exact hmin (by omega)

/-- Where the region holds the next instructions, each of the steps has a line, and the next one ends the program. -/
theorem tickAt_of_isFetchable (hrun : p.activity = .running) {n : Nat} (hf : ∀ k < n, (p.after k).isFetchable = true) :
    (∀ k < n, ((p.tickAt k).line?).isSome = true) ∧
      ((p.after n).isFetchable = false → p.tickAt n = .endOfProgram (p.after n).registers.programCounter) := by
  constructor
  · intro k hk
    have hr := (after_of_isFetchable hrun fun j hj => hf j (Nat.lt_trans hj hk)).1
    obtain ⟨line, -, -, hline, -⟩ := step_execute hr (hf k hk)
    rw [tickAt, hline]
    rfl
  · intro hn
    exact tickAt_of_tick (tick_halt (after_of_isFetchable hrun hf).1 hn)

/-! ### Running to the end -/

/-- A run whose steps come to the end of the program is over with that, or before at a breakpoint. -/
theorem exists_runFor (hrun : p.activity = .running) {n : Nat} (hf : ∀ k < n, (p.after k).isFetchable = true)
    (hn : (p.after n).isFetchable = false) :
    ∃ lines q, (q.activity = .halted ∨ q.activity = .breakpoint) ∧ lines.length ≤ n ∧
      ∀ fuel > n, ∀ before, p.runFor fuel before = .ok (lines ++ before) q := by
  -- after an instruction that stops at no breakpoint, the rest is a run of the processor that it leaves
  induction n generalizing p with
  | zero =>
    refine ⟨[], { p with activity := .halted }, Or.inl rfl, Nat.le_refl _, ?_⟩
    intro fuel hfuel before
    obtain ⟨fuel, rfl⟩ := Nat.exists_eq_succ_of_ne_zero (Nat.pos_iff_ne_zero.1 hfuel)
    rw [runFor_succ hrun, ticked_of_tick (tick_halt hrun hn)]
    exact runFor_of_not_running (by simp) _ _
  | succ n ih =>
    obtain ⟨hne, -⟩ | ⟨-, hno, -⟩ | ⟨line, m, -, -, -, ⟨-, ht⟩ | ⟨-, ht⟩⟩ := p.tick_cases
    · exact absurd hrun hne
    · have h0 := hf 0 n.succ_pos
      rw [after_zero, hno] at h0
      cases h0
    · refine ⟨[line], { p with toMachine := m, activity := .breakpoint }, Or.inr rfl, by simp, ?_⟩
      intro fuel hfuel before
      obtain ⟨fuel, rfl⟩ := Nat.exists_eq_succ_of_ne_zero (Nat.ne_zero_of_lt hfuel)
      rw [runFor_succ hrun, ticked_of_tick ht]
      exact runFor_of_not_running (by simp) _ _
    · have hstep := congrArg Prod.snd (step_of_executed ht)
      obtain ⟨lines, q, hq, hlength, hrunFor⟩ := ih (p := { p with toMachine := m }) hrun
        (by
          intro k hk
          have hk' := hf (k + 1) (Nat.succ_lt_succ hk)
          rw [after_succ_step, hstep] at hk'
          exact hk')
        (by
          rw [after_succ_step, hstep] at hn
          exact hn)
      refine ⟨lines ++ [line], q, hq, by simp; omega, ?_⟩
      intro fuel hfuel before
      obtain ⟨fuel, rfl⟩ := Nat.exists_eq_succ_of_ne_zero (Nat.ne_zero_of_lt hfuel)
      rw [runFor_succ hrun, ticked_of_tick ht, hrunFor fuel (by omega), List.append_assoc]
      rfl

/-! ### Memories of NOPs -/

private theorem exists_nops : ∃ memory : Memory, ∀ a, memory.get a = 0xea :=
  ⟨{ cells := Vector.replicate memorySize 0xea, popPolicy := .preserve }, fun a => by simp [Memory.get]⟩

private theorem operation_nop : operation 0xea = { mnemonic := .nop, kind := .implied } := by
  rw [operation_eq_lookup]
  decide

/-- NOP moves the program counter on and changes nothing else. -/
theorem tick_nop (hrun : p.activity = .running) (hget : p.memory.get p.registers.programCounter = 0xea)
    (hb : p.registers.has .break = false) (hh : p.region.holds p.registers.programCounter 1 = true) :
    ∃ line, line.instruction.mnemonic = .nop ∧
      p.tick = .ok (.executed line) { p with registers := p.registers.advance 1 } := by
  have hi : p.fetched.mnemonic = .nop := by rw [mnemonic_fetched, hget, operation_nop]
  have hsize : p.fetched.size = 1 := by
    rw [size_fetched, hget, operation_nop]
    rfl
  have hf : p.isFetchable = true := by
    rw [isFetchable, hsize]
    exact hh
  have he : p.fetched.execute p.toMachine =
      .ok { instruction := p.fetched, target := p.fetched.target? p.toMachine, fields := [] }
        { p.toMachine with registers := p.registers.advance 1 } := by
    rw [Instruction.execute_apply, Instruction.perform_eq_carryOut, hi, ← hsize]
    rfl
  refine ⟨{ instruction := p.fetched, target := p.fetched.target? p.toMachine, fields := [] }, hi, ?_⟩
  rw [tick_execute hrun hf he]
  exact if_neg (by rw [Bool.not_eq_true]; exact hb)

/-- In a memory of NOPs the program counter moves on by one at each step, as long as the region holds it. -/
theorem after_nops (hrun : p.activity = .running) (hget : ∀ a, p.memory.get a = 0xea)
    (hb : p.registers.has .break = false) {n : Nat}
    (hh : ∀ k < n, p.region.holds (p.registers.advance k).programCounter 1 = true) :
    p.after n = { p with registers := p.registers.advance n } ∧
      ∀ k < n, ∃ line, line.instruction.mnemonic = .nop ∧ p.tickAt k = .executed line := by
  induction n with
  | zero =>
    have h0 : p.registers.advance 0 = p.registers := by simp [Registers.advance]
    rw [h0]
    exact ⟨rfl, fun k hk => absurd hk (Nat.not_lt_zero k)⟩
  | succ n ih =>
    obtain ⟨hafter, hlines⟩ := ih fun k hk => hh k (Nat.lt_succ_of_lt hk)
    obtain ⟨line, hl, ht⟩ := tick_nop (p := p.after n) (by rw [hafter]; exact hrun) (by rw [hafter]; exact hget _)
      (by rw [hafter]; exact hb) (by rw [hafter]; exact hh n n.lt_succ_self)
    constructor
    · rw [after_succ, step_of_executed ht, hafter, ← Registers.advance_advance]
    · intro k hk
      obtain rfl | hk := Nat.eq_or_lt_of_le (Nat.le_of_lt_succ hk)
      · exact ⟨line, hl, tickAt_of_tick ht⟩
      · exact hlines k hk

/-- Only a running processor executes an instruction, and it runs on. -/
theorem step_of_fst_executed {line : TraceLine} (h : p.step.1 = .executed line) :
    p.activity = .running ∧ p.ticked = p.step := by
  have hs : ∀ {tick q}, p.tick = .ok tick q → tick = .executed line := by
    intro tick q ht
    rw [fst_step, ticked_of_tick ht] at h
    exact h
  obtain ⟨-, ht⟩ | ⟨-, -, ht⟩ | ⟨line', m, hrun, -, -, ⟨-, ht⟩ | ⟨-, ht⟩⟩ := p.tick_cases
  · cases hs ht
  · cases hs ht
  · cases hs ht
  · exact ⟨hrun, by rw [ticked_of_tick ht, step_of_executed ht]⟩

/-- A processor that executes an instruction at every step and meets no breakpoint never stops. -/
theorem runFor_of_executed (h : ∀ n, ∃ line, p.tickAt n = .executed line) (fuel : Nat) (before : List TraceLine) :
    ∃ lines, p.runFor fuel before = .ok lines (p.after fuel) := by
  induction fuel generalizing p before with
  | zero => exact ⟨before, rfl⟩
  | succ fuel ih =>
    obtain ⟨line, h0⟩ := h 0
    obtain ⟨hrun, hstep⟩ := step_of_fst_executed (p := p) h0
    rw [runFor_succ hrun, after_succ_step, hstep]
    apply ih
    intro n
    rw [← tickAt_succ]
    exact h (n + 1)

/-- A program that covers the whole address space need not end though nothing transfers control: in a memory of NOPs
the program counter goes around. -/
private theorem endless_of_nops {memory : Memory} (hget : ∀ a, memory.get a = 0xea) (n : Nat) :
    (∃ line, (ofMemory memory).start.tickAt n = .executed line ∧ line.instruction.mnemonic = .nop) ∧
      ((ofMemory memory).start.after n).registers.programCounter = programStart + UInt16.ofNat n ∧
      ∃ lines q, (ofMemory memory).execute n = .ok lines q ∧ q.activity = .running := by
  have hnops : ∀ n, (ofMemory memory).start.after n =
      { (ofMemory memory).start with registers := (ofMemory memory).start.registers.advance n } ∧
      ∀ k < n, ∃ line, line.instruction.mnemonic = .nop ∧ (ofMemory memory).start.tickAt k = .executed line := by
    intro n
    have hb : (ofMemory memory).start.registers.has .break = false :=
      show hasFlag initialStatus .break = false by decide
    refine after_nops rfl hget hb ?_
    intro k _
    rw [Region.holds_iff_bounds]
    exact ⟨Nat.zero_le _, ((Registers.advance _ k).programCounter).toNat_lt⟩
  obtain ⟨line, hl, ht⟩ := (hnops (n + 1)).2 n n.lt_succ_self
  refine ⟨⟨line, ht, hl⟩, ?_, ?_⟩
  · rw [(hnops n).1]
    rfl
  · have hexecuted : ∀ k, ∃ line, (ofMemory memory).start.tickAt k = .executed line := by
      intro k
      obtain ⟨line, -, ht⟩ := (hnops (k + 1)).2 k k.lt_succ_self
      exact ⟨line, ht⟩
    obtain ⟨lines, hrunFor⟩ := runFor_of_executed hexecuted n []
    refine ⟨lines.reverse, (ofMemory memory).start.after n, ?_, ?_⟩
    · rw [execute, hrunFor]
    · rw [(hnops n).1]
      rfl

/-- Straight line code ends.  The program region of every processor lies in the address space; if it is not the whole
of it, a processor that is started, and resumed at each breakpoint, comes to the end of its program after at most as
many instructions as the region has cells, unless one of them transfers control, and a run of it on its own is over.
In the whole address space that is false. -/
theorem straight_line_ends :
    (∀ (memory : Memory) (influences : List Influence),
      (influences.foldl influence (.ofMemory memory)).region.stop ≤ memorySize) ∧
    (∀ p : Processor, p.activity = .idle ∨ p.activity = .running → p.region.stop ≤ memorySize → p.region ≠ .full →
      p.start.IsStraight (p.region.stop - p.region.start) →
        (∃ n ≤ p.region.stop - p.region.start, (∀ k < n, ((p.start.tickAt k).line?).isSome = true) ∧
          p.start.tickAt n = .endOfProgram (p.start.after n).registers.programCounter) ∧
        ∃ lines q, (q.activity = .halted ∨ q.activity = .breakpoint) ∧
          lines.length ≤ p.region.stop - p.region.start ∧
          ∀ fuel > p.region.stop - p.region.start, p.execute fuel = .ok lines q) ∧
    ∃ memory : Memory, (ofMemory memory).start.region = .full ∧ ∀ n,
      (ofMemory memory).start.IsStraight n ∧ (∃ line, (ofMemory memory).start.tickAt n = .executed line) ∧
        ((ofMemory memory).start.after n).registers.programCounter = programStart + UInt16.ofNat n ∧
        ∃ lines q, (ofMemory memory).execute n = .ok lines q ∧ q.activity = .running := by
  refine ⟨stop_region_le, ?_, ?_⟩
  · intro p hp hstop hfull hs
    have hrun := activity_start hp
    rw [← p.region_start] at hstop hfull hs ⊢
    obtain ⟨n, hle, hf, hn⟩ := exists_not_isFetchable hrun hstop hfull hs
    obtain ⟨hlines, hend⟩ := tickAt_of_isFetchable hrun hf
    obtain ⟨lines, q, hq, hlength, hrunFor⟩ := exists_runFor hrun hf hn
    refine ⟨⟨n, hle, hlines, hend hn⟩, lines.reverse, q, hq, by rw [List.length_reverse]; omega, ?_⟩
    intro fuel hfuel
    rw [execute, hrunFor fuel (by omega), List.append_nil]
  · obtain ⟨memory, hget⟩ := exists_nops
    refine ⟨memory, rfl, ?_⟩
    intro n
    obtain ⟨⟨line, ht, -⟩, hpc, hexecute⟩ := endless_of_nops hget n
    refine ⟨?_, ⟨line, ht⟩, hpc, hexecute⟩
    intro k _ line hline
    obtain ⟨⟨line', ht', hl'⟩, -⟩ := endless_of_nops hget k
    rw [ht'] at hline
    cases hline
    rw [hl']
    rfl

/-- Two NOPs in a program of two bytes, and then its end. -/
theorem straight_line_ends_of_two_nops :
    ∃ memory : Memory, memory.get 0x0600 = 0xea ∧ memory.get 0x0601 = 0xea ∧
      ∃ n ≤ 2, ∃ address,
        tickAt { ofMemory memory with activity := .running, region := { start := 0x0600, stop := 0x0602 } } n =
          .endOfProgram address := by
  obtain ⟨memory, hget⟩ := exists_nops
  refine ⟨memory, hget _, hget _, ?_⟩
  generalize hp : ({ ofMemory memory with activity := .running, region := ⟨0x0600, 0x0602⟩ } : Processor) = p
  obtain ⟨hrun, hregion, hmemory, hregisters⟩ : p.activity = .running ∧ p.region = ⟨0x0600, 0x0602⟩ ∧
      p.memory = memory ∧ p.registers = .initial 0x0600 := by
    rw [← hp]
    exact ⟨rfl, rfl, rfl, rfl⟩
  have hstart : p.start = p := by simp [start, hrun]
  have hlines := (after_nops (n := 2) hrun (by rw [hmemory]; exact hget) (by rw [hregisters]; decide) (by
    rw [hregion, hregisters]
    intro k hk
    obtain rfl | rfl : k = 0 ∨ k = 1 := by omega
    · decide
    · decide)).2
  obtain ⟨⟨n, hn, -, hend⟩, -⟩ := straight_line_ends.2.1 p (Or.inr hrun) (by rw [hregion]; decide)
    (by rw [hregion]; decide) (by
      rw [hregion, hstart]
      intro k hk line hline
      obtain ⟨line', hl', ht'⟩ := hlines k hk
      rw [ht'] at hline
      cases hline
      rw [hl']
      rfl)
  rw [hregion] at hn
  rw [hstart] at hend
  exact ⟨n, hn, _, hend⟩

end Processor

end Mos6502
