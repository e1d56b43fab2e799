import Mathlib.Logic.Function.Iterate
import Mos6502.Processor.Basic
import Mos6502.Proofs.Execution.Operation

/-!
# Ticks

What one tick can do, said once (`tick_cases`): nothing if the processor is not running, halt if the region does not
hold the next instruction, and execute that instruction otherwise.  A tick never fails (`tick_eq_ticked`).  A step is a
tick after which a breakpoint is resumed at once; a run of the processor alone is an iteration of steps.
-/

namespace Mos6502

namespace AddressingMode

/-- Bytes that the kind does not need do not matter. -/
theorem ofOperands_congr {kind : ModeKind} {low high low' high' : UInt8} (base : UInt16)
    (hl : 0 < kind.operandLength → low = low') (hh : 1 < kind.operandLength → high = high') :
    ofOperands kind base low high = ofOperands kind base low' high' := by
  cases kind <;> simp_all [ofOperands, ModeKind.operandLength]

end AddressingMode

namespace Instruction

@[simp] theorem size_decode (address : UInt16) (opcode low high : UInt8) :
    (decode address opcode low high).size = 1 + (operation opcode).kind.operandLength := by
  simp [size, decode]

theorem decode_congr {address : UInt16} {opcode low high low' high' : UInt8}
    (hl : 0 < (operation opcode).kind.operandLength → low = low')
    (hh : 1 < (operation opcode).kind.operandLength → high = high') :
    decode address opcode low high = decode address opcode low' high' := by
  simp only [decode, AddressingMode.ofOperands_congr address hl hh]

end Instruction

theorem Region.holds_iff_bounds {region : Region} {address : UInt16} {length : Nat} :
    region.holds address length = true ↔
      region.start ≤ address.toNat ∧ address.toNat + length ≤ region.stop := by
  rw [holds, Bool.and_eq_true, decide_eq_true_eq, decide_eq_true_eq]

theorem Region.holds_of_le {region : Region} {address : UInt16} {length length' : Nat} (h : length' ≤ length)
    (hr : region.holds address length = true) : region.holds address length' = true := by
  rw [holds_iff_bounds] at hr ⊢
  omega

theorem Region.holds_eq_false_of_le {region : Region} {address : UInt16} {length length' : Nat} (h : length ≤ length')
    (hr : region.holds address length = false) : region.holds address length' = false := by
  rw [← Bool.not_eq_true] at hr ⊢
  intro hl
  exact hr (Region.holds_of_le h hl)

namespace Processor

/-! ### The next instruction -/

/-- The instruction at the program counter, whether the region holds it or not. -/
def fetched (p : Processor) : Instruction :=
  .decode p.registers.programCounter (p.memory.get p.registers.programCounter)
    (p.memory.get (p.registers.programCounter + 1)) (p.memory.get (p.registers.programCounter + 2))

/-- Whether the region holds the whole instruction at the program counter. -/
def isFetchable (p : Processor) : Bool :=
  p.region.holds p.registers.programCounter p.fetched.size

theorem mnemonic_fetched (p : Processor) :
    p.fetched.mnemonic = (operation (p.memory.get p.registers.programCounter)).mnemonic := rfl

theorem kind_fetched (p : Processor) :
    p.fetched.mode.kind = (operation (p.memory.get p.registers.programCounter)).kind := by
  rw [fetched, Instruction.decode, AddressingMode.kind_ofOperands]

theorem isFetchable_eq (p : Processor) :
    p.isFetchable =
      p.region.holds p.registers.programCounter
        (1 + (operation (p.memory.get p.registers.programCounter)).kind.operandLength) := by
  rw [isFetchable, fetched, Instruction.size_decode]

theorem peek?_eq (p : Processor) : p.peek? = if p.isFetchable then some p.fetched else none := by
  unfold peek?
  rw [isFetchable_eq]
  dsimp only
  by_cases h : p.region.holds p.registers.programCounter
      (1 + (operation (p.memory.get p.registers.programCounter)).kind.operandLength) = true
  · have h1 : p.region.holds p.registers.programCounter 1 = true := Region.holds_of_le (by omega) h
    rw [if_pos h1, if_pos h, if_pos h]
    refine congrArg some (Instruction.decode_congr ?_ ?_)
    · intro hl
      rw [if_pos hl]
      exact congrArg p.memory.get (UInt16.add_zero _)
    · intro hh
      rw [if_pos hh, UInt16.add_assoc]
      rfl
  · rw [if_neg h, if_neg h, ite_self]

/-- The next instruction can always be carried out. -/
theorem exists_execute (p : Processor) : ∃ line m, p.fetched.execute p.toMachine = .ok line m := by
  obtain ⟨fields, m, h⟩ :=
    Instruction.exists_perform (m := p.toMachine) (Instruction.lacksOperand_decode _ _ _ _ p.registers)
  rw [Instruction.execute_apply, fetched, h]
  exact ⟨_, _, rfl⟩

/-! ### One tick -/

/-- What a tick leads to. -/
def ticked (p : Processor) : Tick × Processor :=
  match p.tick with
  | .ok tick q => (tick, q)
  | .error _ q => (.inactive q.activity, q)

theorem ticked_of_tick {p q : Processor} {t : Tick} (h : p.tick = .ok t q) : p.ticked = (t, q) := by
  rw [ticked, h]

theorem tick_inactive {p : Processor} (h : p.activity ≠ .running) :
    p.tick = .ok (.inactive p.activity) p := by
  simp [tick, isRunning, h]

theorem tick_halt {p : Processor} (h : p.activity = .running) (hf : p.isFetchable = false) :
    p.tick = .ok (.endOfProgram p.registers.programCounter) { p with activity := .halted } := by
  simp [tick, isRunning, h, peek?_eq, hf]

theorem tick_execute {p : Processor} (h : p.activity = .running) (hf : p.isFetchable = true)
    {line : TraceLine} {m : Machine} (he : p.fetched.execute p.toMachine = .ok line m) :
    p.tick =
      if m.registers.has .break then .ok (.breakpoint line) { p with toMachine := m, activity := .breakpoint }
      else .ok (.executed line) { p with toMachine := m } := by
  simp [tick, isRunning, h, peek?_eq, hf, he]

/-- All that a tick can do. -/
theorem tick_cases (p : Processor) :
    (p.activity ≠ .running ∧ p.tick = .ok (.inactive p.activity) p) ∨
    (p.activity = .running ∧ p.isFetchable = false ∧
      p.tick = .ok (.endOfProgram p.registers.programCounter) { p with activity := .halted }) ∨
    ∃ line m, p.activity = .running ∧ p.isFetchable = true ∧ p.fetched.execute p.toMachine = .ok line m ∧
      ((m.registers.has .break = true ∧
          p.tick = .ok (.breakpoint line) { p with toMachine := m, activity := .breakpoint }) ∨
        (m.registers.has .break = false ∧ p.tick = .ok (.executed line) { p with toMachine := m })) := by
  by_cases h : p.activity = .running
  · right
    cases hf : p.isFetchable with
    | false => exact Or.inl ⟨h, rfl, tick_halt h hf⟩
    | true =>
      obtain ⟨line, m, he⟩ := p.exists_execute
      refine Or.inr ⟨line, m, h, rfl, he, ?_⟩
      rw [tick_execute h hf he]
      cases m.registers.has .break with
      | true => exact Or.inl ⟨rfl, rfl⟩
      | false => exact Or.inr ⟨rfl, rfl⟩
  · exact Or.inl ⟨h, tick_inactive h⟩

/-- A tick never fails. -/
theorem tick_eq_ticked (p : Processor) : p.tick = .ok p.ticked.1 p.ticked.2 := by
  rcases p.tick_cases with ⟨-, h⟩ | ⟨-, -, h⟩ | ⟨line, m, -, -, -, ⟨-, h⟩ | ⟨-, h⟩⟩ <;>
    rw [ticked_of_tick h, h]

/-! ### Steps -/

/-- One tick; a processor at a breakpoint is resumed at once. -/
def step (p : Processor) : Tick × Processor :=
  match p.ticked with
  | (.breakpoint line, q) => (.breakpoint line, q.resume?.getD q)
  | result => result

/-- The processor after some steps. -/
def after (p : Processor) (n : Nat) : Processor :=
  (fun q => q.step.2)^[n] p

/-- The tick of a step; the first has number zero. -/
def tickAt (p : Processor) (n : Nat) : Tick :=
  (p.after n).step.1

@[simp] theorem after_zero (p : Processor) : p.after 0 = p := rfl

theorem after_succ (p : Processor) (n : Nat) : p.after (n + 1) = (p.after n).step.2 :=
  Function.iterate_succ_apply' _ n p

theorem after_succ_step (p : Processor) (n : Nat) : p.after (n + 1) = p.step.2.after n :=
  Function.iterate_succ_apply _ n p

theorem tickAt_succ (p : Processor) (n : Nat) : p.tickAt (n + 1) = p.step.2.tickAt n := by
  rw [tickAt, after_succ_step, tickAt]

theorem fst_step (p : Processor) : p.step.1 = p.ticked.1 := by
  unfold step
  split
  · rename_i h
    rw [h]
  · rfl

theorem step_of_executed {p q : Processor} {line : TraceLine} (h : p.tick = .ok (.executed line) q) :
    p.step = (.executed line, q) := by
  rw [step, ticked_of_tick h]

theorem step_of_breakpoint {p q : Processor} {line : TraceLine} (h : p.tick = .ok (.breakpoint line) q) :
    p.step = (.breakpoint line, q.resume?.getD q) := by
  rw [step, ticked_of_tick h]

theorem tickAt_of_tick {p q : Processor} {n : Nat} {tick : Tick} (h : (p.after n).tick = .ok tick q) :
    p.tickAt n = tick := by
  rw [tickAt, fst_step, ticked_of_tick h]

/-- A processor that is idle or running runs once it is started. -/
theorem activity_start {p : Processor} (h : p.activity = .idle ∨ p.activity = .running) :
    p.start.activity = .running := by
  unfold start
  obtain h | h := h
  · rw [if_pos h]
  · rw [if_neg (by rw [h]; decide)]
    exact h

/-- The resumed processor: at a breakpoint the break flag is cleared and the processor runs on. -/
theorem resume?_of_breakpoint {p : Processor} (h : p.activity = .breakpoint) :
    p.resume? = some { p with registers := p.registers.mark .break false, activity := .running } := by
  simp [resume?, h]

theorem resume?_of_ne {p : Processor} (h : p.activity ≠ .breakpoint) : p.resume? = none := by
  simp [resume?, h]

/-! ### Runs -/

theorem runFor_of_not_running {p : Processor} (h : p.activity ≠ .running) (fuel : Nat) (lines : List TraceLine) :
    p.runFor fuel lines = .ok lines p := by
  cases fuel with
  | zero => rfl
  | succ fuel => simp [runFor, isRunning, h]

theorem runFor_succ {p : Processor} (h : p.activity = .running) (fuel : Nat) (lines : List TraceLine) :
    p.runFor (fuel + 1) lines = p.ticked.2.runFor fuel (p.ticked.1.line?.toList ++ lines) := by
  rw [runFor, tick_eq_ticked]
  simp [isRunning, h]

end Processor

end Mos6502
