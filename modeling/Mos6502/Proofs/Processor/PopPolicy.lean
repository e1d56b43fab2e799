import Mos6502.Proofs.Execution.Footprint
import Mos6502.Proofs.Processor.Tick

/-!
# Policies for pulled cells

Two processors that differ only in what happens to pulled stack cells run alike as long as no tick consults a stale
cell, one that was pulled and has not been written since (`tick_withPolicy`).  One tick keeps the agreement of two
processors outside the stale cells (`tick_agree`), where it drops the cells that it writes from them and adds those
that it pulls.
-/

namespace Mos6502

namespace Processor

/-! ### The cells of a tick -/

/-- Whether the next tick executes an instruction. -/
def executes (p : Processor) : Bool :=
  p.isRunning && p.isFetchable

/-- The cells that a tick fetches from: the opcode's if the region holds it, and the operand's if the region holds the
whole instruction. -/
def fetchedCells (p : Processor) : List UInt16 :=
  let address := p.registers.programCounter
  if p.isRunning && p.region.holds address 1 then
    address :: if p.isFetchable then [address + 1, address + 2].take p.fetched.mode.kind.operandLength else []
  else []

/-- The cells whose bytes a tick takes into account: those it fetches from, and those that the instruction reads. -/
def consultedCells (p : Processor) : List UInt16 :=
  p.fetchedCells ++ if p.executes then p.fetched.readCells p.toMachine else []

/-- The stack cells that a tick pulls. -/
def pulledCells (p : Processor) : List UInt16 :=
  if p.executes then Instruction.pulledCells p.registers p.fetched.mnemonic.work else []

/-- The cells that a tick writes. -/
def writtenCells (p : Processor) : List UInt16 :=
  if p.executes then p.fetched.writtenCells p.toMachine p.fetched.mnemonic.work else []

/-- The cells that the first ticks have pulled and not written again since. -/
def stale (p : Processor) : Nat → Set UInt16
  | 0 => ∅
  | n + 1 => staleAfter (p.stale n) (p.after n).writtenCells (p.after n).pulledCells

/-! ### Agreement -/

/-- Two processors that are equal but for the memory in a set of cells, and for the policy. -/
structure AgreeOutside (s : Set UInt16) (p q : Processor) : Prop where
  machine : p.toMachine.AgreeOutside s q.toMachine
  activity : p.activity = q.activity
  region : p.region = q.region

variable {s : Set UInt16} {p q : Processor}

private theorem resume_agree (h : AgreeOutside s p q) : AgreeOutside s (p.resume?.getD p) (q.resume?.getD q) := by
  by_cases hb : p.activity = .breakpoint
  · rw [resume?_of_breakpoint hb, resume?_of_breakpoint (h.activity ▸ hb)]
    refine ⟨⟨?_, h.machine.memory⟩, rfl, h.region⟩
    show p.registers.mark .break false = q.registers.mark .break false
    rw [h.machine.registers]
  · rw [resume?_of_ne hb, resume?_of_ne (h.activity ▸ hb)]
    exact h

private theorem isFetchable_agree (h : AgreeOutside s p q) (hrun : p.activity = .running)
    (hc : ∀ a ∈ p.fetchedCells, a ∉ s) : p.isFetchable = q.isFetchable := by
  rw [isFetchable_eq, isFetchable_eq, ← h.machine.registers, ← h.region]
  cases h1 : p.region.holds p.registers.programCounter 1 with
  | false =>
    -- neither region holds the opcode, so its cell need not agree
    have hn : ∀ length, p.region.holds p.registers.programCounter (1 + length) = false :=
      fun length => Region.holds_eq_false_of_le (Nat.le_add_right 1 length) h1
    rw [hn, hn]
  | true =>
    have ho : p.memory.get p.registers.programCounter = q.memory.get p.registers.programCounter := by
      apply h.machine.memory
      apply hc
      simp [fetchedCells, isRunning, hrun, h1]
    rw [ho]

private theorem fetched_agree (h : AgreeOutside s p q) (hrun : p.activity = .running) (hf : p.isFetchable = true)
    (hc : ∀ a ∈ p.fetchedCells, a ∉ s) : p.fetched = q.fetched := by
  have h1 : p.region.holds p.registers.programCounter 1 = true := by
    rw [isFetchable_eq] at hf
    exact Region.holds_of_le (Nat.le_add_right 1 _) hf
  have hcells : p.fetchedCells = p.registers.programCounter ::
      [p.registers.programCounter + 1, p.registers.programCounter + 2].take
        (operation (p.memory.get p.registers.programCounter)).kind.operandLength := by
    simp [fetchedCells, isRunning, hrun, h1, hf, kind_fetched]
  rw [hcells] at hc
  have ho := h.machine.memory _ (hc p.registers.programCounter (by simp))
  unfold fetched
  rw [← h.machine.registers, ← ho]
  apply Instruction.decode_congr
  · intro hl
    obtain ⟨k, hk⟩ := Nat.exists_eq_succ_of_ne_zero (Nat.pos_iff_ne_zero.1 hl)
    apply h.machine.memory
    apply hc
    simp [hk]
  · intro hl
    obtain ⟨k, hk⟩ := Nat.exists_eq_add_of_le hl
    apply h.machine.memory
    apply hc
    rw [hk, Nat.add_comm]
    simp

private theorem executes_eq_false_of_ne (h : p.activity ≠ .running) : p.executes = false := by
  simp [executes, isRunning, h]

/-- A tick that consults no stale cell does the same to two processors that agree on the others. -/
theorem tick_agree (h : AgreeOutside s p q) (hc : ∀ a ∈ p.consultedCells, a ∉ s) :
    ∃ tick p' q', p.tick = .ok tick p' ∧ q.tick = .ok tick q' ∧
      AgreeOutside (staleAfter s p.writtenCells p.pulledCells) p' q' := by
  have hfetch : ∀ a ∈ p.fetchedCells, a ∉ s := fun a ha => hc a (List.mem_append_left _ ha)
  by_cases hrun : p.activity = .running
  · have hrun' : q.activity = .running := h.activity ▸ hrun
    have hfq := isFetchable_agree h hrun hfetch
    cases hf : p.isFetchable with
    | false =>
      have he : p.executes = false := by simp [executes, hf]
      rw [hf] at hfq
      rw [writtenCells, pulledCells, he, tick_halt hrun hf, tick_halt hrun' hfq.symm, ← h.machine.registers]
      refine ⟨_, _, _, rfl, rfl, ?_⟩
      simp only [Bool.false_eq_true, ↓reduceIte, staleAfter_nil]
      exact ⟨⟨h.machine.registers, h.machine.memory⟩, rfl, h.region⟩
    | true =>
      have he : p.executes = true := by simp [executes, isRunning, hrun, hf]
      rw [hf] at hfq
      have hi := fetched_agree h hrun hf hfetch
      have hread : ∀ a ∈ p.fetched.readCells p.toMachine, a ∉ s := by
        intro a ha
        apply hc
        rw [consultedCells, he, if_pos rfl]
        exact List.mem_append_right _ ha
      obtain ⟨line, m, hx⟩ := p.exists_execute
      obtain ⟨fields, hp, hline⟩ := Instruction.exists_perform_of_execute hx
      obtain ⟨ht, n, hn, hagree⟩ := Instruction.perform_agree h.machine hread hp
      have hx' : q.fetched.execute q.toMachine = .ok line n := by
        rw [Instruction.execute_apply, ← hi, hn, hline, ht]
      rw [writtenCells, pulledCells, he, if_pos rfl, if_pos rfl, tick_execute hrun hf hx,
        tick_execute hrun' hfq.symm hx', ← hagree.registers]
      by_cases hb : m.registers.has .break = true
      · rw [if_pos hb, if_pos hb]
        exact ⟨_, _, _, rfl, rfl, hagree, rfl, h.region⟩
      · rw [if_neg hb, if_neg hb]
        exact ⟨_, _, _, rfl, rfl, hagree, h.activity, h.region⟩
  · have he := executes_eq_false_of_ne hrun
    rw [writtenCells, pulledCells, he, tick_inactive hrun, tick_inactive (h.activity ▸ hrun), ← h.activity]
    refine ⟨_, _, _, rfl, rfl, ?_⟩
    simp only [Bool.false_eq_true, ↓reduceIte, staleAfter_nil]
    exact h

/-- So does a step. -/
theorem step_agree (h : AgreeOutside s p q) (hc : ∀ a ∈ p.consultedCells, a ∉ s) :
    AgreeOutside (staleAfter s p.writtenCells p.pulledCells) p.step.2 q.step.2 := by
  obtain ⟨tick, p', q', hp, hq, ha⟩ := tick_agree h hc
  unfold step
  rw [ticked_of_tick hp, ticked_of_tick hq]
  cases tick with
  | breakpoint line => exact resume_agree ha
  | executed line => exact ha
  | endOfProgram address => exact ha
  | inactive activity => exact ha

/-- As long as no stale cell is consulted, two processors that agree keep agreeing outside the stale cells. -/
theorem after_agree (h : AgreeOutside ∅ p q) {n : Nat}
    (hc : ∀ k < n, ∀ a ∈ (p.after k).consultedCells, a ∉ p.stale k) :
    AgreeOutside (p.stale n) (p.after n) (q.after n) := by
  -- the stale cells grow and shrink with the steps, so the set in the agreement is the one of the last step
  induction n with
  | zero => exact h
  | succ n ih =>
    rw [after_succ, after_succ, stale]
    refine step_agree (ih ?_) (hc n (Nat.lt_succ_self n))
    intro k hk
    exact hc k (Nat.lt_succ_of_lt hk)

/-! ### Two policies -/

/-- The processor with another policy for pulled cells. -/
def withPolicy (p : Processor) (policy : PopPolicy) : Processor :=
  { p with memory := { p.memory with popPolicy := policy } }

/-- Under two policies a processor returns the same ticks and keeps equal registers, activities and regions, and equal
memories outside the stale cells, as long as no tick consults a stale cell. -/
theorem tick_withPolicy (p : Processor) (policy policy' : PopPolicy) (n : Nat)
    (hc : ∀ k < n, ∀ a ∈ ((p.withPolicy policy).after k).consultedCells, a ∉ (p.withPolicy policy).stale k) :
    (∀ k < n, ∃ tick q q', ((p.withPolicy policy).after k).tick = .ok tick q ∧
      ((p.withPolicy policy').after k).tick = .ok tick q') ∧
    ∀ k ≤ n, AgreeOutside ((p.withPolicy policy).stale k) ((p.withPolicy policy).after k)
      ((p.withPolicy policy').after k) := by
  have h0 : AgreeOutside ∅ (p.withPolicy policy) (p.withPolicy policy') := ⟨⟨rfl, fun _ _ => rfl⟩, rfl, rfl⟩
  have hrun : ∀ k ≤ n, AgreeOutside ((p.withPolicy policy).stale k) ((p.withPolicy policy).after k)
      ((p.withPolicy policy').after k) := by
    intro k hk
    apply after_agree h0
    intro j hj
    exact hc j (Nat.lt_of_lt_of_le hj hk)
  refine ⟨?_, hrun⟩
  intro k hk
  obtain ⟨tick, q, q', hq, hq', -⟩ := tick_agree (hrun k (Nat.le_of_lt hk)) (hc k hk)
  exact ⟨tick, q, q', hq, hq'⟩

/-- What a step leaves that executes PLA while the break flag is clear. -/
theorem step_pullAccumulator {p : Processor} (hrun : p.activity = .running) (hf : p.isFetchable = true)
    (hw : p.fetched.mnemonic = .pla) (hb : p.registers.has .break = false) :
    p.step.2 =
      { p with
        memory := p.pull.2.memory
        registers := (p.pull.2.registers.assign .accumulator p.pull.1).advance p.fetched.size } := by
  obtain ⟨line, hx⟩ : ∃ line, p.fetched.execute p.toMachine =
      .ok line { p.pull.2 with
        registers := (p.pull.2.registers.assign .accumulator p.pull.1).advance p.fetched.size } := by
    rw [Instruction.execute_apply, Instruction.perform_eq_carryOut, hw, Mnemonic.work, Instruction.carryOut,
      Instruction.pullAccumulator_apply]
    exact ⟨_, rfl⟩
  have hb' : ((p.pull.2.registers.assign .accumulator p.pull.1).advance p.fetched.size).has .break = false := by
    show hasFlag (setFlag (setFlag p.registers.status .zero _) .negative _) .break = false
    rw [hasFlag_setFlag_ne _ (by decide), hasFlag_setFlag_ne _ (by decide)]
    exact hb
  have ht := tick_execute hrun hf hx
  rw [hb', if_neg Bool.false_ne_true] at ht
  rw [step, ticked_of_tick ht]

/-- PLA and NOP run alike under both policies: the cell that PLA pulls is stale when NOP is executed. -/
theorem tick_withPolicy_pull :
    ∃ tick q q',
      ((withPolicy { ofMemory (((Memory.blank .preserve).set 0x0600 0x68).set 0x0601 0xea) with activity := .running }
        .preserve).after 1).tick = .ok tick q ∧
      ((withPolicy { ofMemory (((Memory.blank .preserve).set 0x0600 0x68).set 0x0601 0xea) with activity := .running }
        .clear).after 1).tick = .ok tick q' := by
  have hpull : (((Memory.blank .preserve).set 0x0600 0x68).set 0x0601 0xea).get 0x0600 = 0x68 := by
    rw [Memory.get_set_ne _ (by decide), Memory.get_set_self]
  have hskip : (((Memory.blank .preserve).set 0x0600 0x68).set 0x0601 0xea).get 0x0601 = 0xea := by
    rw [Memory.get_set_self]
  generalize ((Memory.blank .preserve).set 0x0600 0x68).set 0x0601 0xea = memory at hpull hskip ⊢
  have h68 : operation 0x68 = { mnemonic := .pla, kind := .implied } := by
    rw [operation_eq_lookup]
    decide
  have hea : operation 0xea = { mnemonic := .nop, kind := .implied } := by
    rw [operation_eq_lookup]
    decide
  have hi : (withPolicy { ofMemory memory with activity := .running } .preserve).fetched =
      { address := 0x0600, opcode := 0x68, mnemonic := .pla, mode := .implied } := by
    show Instruction.decode 0x0600 (memory.get 0x0600) _ _ = _
    rw [hpull, Instruction.decode, h68]
    rfl
  have hf : (withPolicy { ofMemory memory with activity := .running } .preserve).isFetchable = true := by
    rw [isFetchable, hi]
    rfl
  have h1 : (withPolicy { ofMemory memory with activity := .running } .preserve).after 1 = _ :=
    step_pullAccumulator rfl hf (by rw [hi]) (show hasFlag initialStatus .break = false by decide)
  have hj : ((withPolicy { ofMemory memory with activity := .running } .preserve).after 1).fetched =
      { address := 0x0601, opcode := 0xea, mnemonic := .nop, mode := .implied } := by
    rw [h1, hi]
    show Instruction.decode 0x0601 (memory.get 0x0601) _ _ = _
    rw [hskip, Instruction.decode, hea]
    rfl
  refine (tick_withPolicy { ofMemory memory with activity := .running } .preserve .clear 2 ?_).1 1 (by decide)
  intro k hk a ha hs
  obtain rfl | rfl : k = 0 ∨ k = 1 := by omega
  · exact hs
  · have hstale : a = 0x0100 := by
      rcases hs with hs | hs
      · unfold pulledCells at hs
        split at hs
        · rw [after_zero, hi] at hs
          have hc : a = stackCell (0xff + 1) := List.mem_singleton.1 hs
          rw [hc]
          decide
        · cases hs
      · exact absurd hs.1 id
    have hfetch : a = 0x0601 := by
      have hpc : ((withPolicy { ofMemory memory with activity := .running } .preserve).after
          1).registers.programCounter = 0x0601 := by
        rw [h1, hi]
        rfl
      simp only [consultedCells, fetchedCells, hj, hpc, AddressingMode.kind, ModeKind.operandLength,
        Instruction.readCells, AddressingMode.pointerCells, Mnemonic.work, Instruction.operandCells,
        Instruction.pulledCells, List.take_zero, List.append_nil, ite_self] at ha
      split at ha
      · exact List.mem_singleton.1 ha
      · cases ha
    rw [hstale] at hfetch
    exact absurd hfetch (by decide)

end Processor

end Mos6502
