import Mos6502.Proofs.Memory.Flat
import Mos6502.Proofs.Processor.Status

/-!
# The life of a processor

A processor meets a sequence of demands (`Demand`).  An execution is a start and then ticks, so a sequence of demands is
one of single moves (`foldl_moves`), and a move either leaves the activity alone or shifts it in one of five ways
(`activity_respond`).  A processor that has halted stays so until it is reset (`foldl_respond_of_halted`), and a reset
leaves nothing of what was before but the policy for pulled cells, which no demand changes (`popPolicy_foldl_respond`).
-/

namespace Mos6502

/-! ### The policy for pulled cells -/

namespace Instruction

variable {i : Instruction} {m m' : Machine} {fields : List Field}

private theorem popPolicy_carryOut {w : Work} (h : i.carryOut w m = .ok fields m') :
    m'.memory.popPolicy = m.memory.popPolicy := by
  cases w <;> rw [carryOut] at h
  case load | store | replace | accumulate | intersect | test | compare | jump | call =>
    simp only [load_apply, store_apply, replace_apply, accumulate_apply, intersect_apply, test_apply, compare_apply,
      jump_apply, call_apply] at h
    obtain ⟨a, -, -, rfl⟩ := exists_target h
    rfl
  -- no operand is needed
  case assign | pushAccumulator | setCarry | interrupt | skip =>
    simp only [assign_apply, pushAccumulator_apply, setCarry_apply, interrupt_apply, skip_apply] at h
    obtain ⟨-, rfl⟩ := EStateM.Result.ok.inj h
    rfl
  case ret =>
    rw [ret_apply] at h
    obtain ⟨-, rfl⟩ := EStateM.Result.ok.inj h
    exact (m.pull.2.popPolicy_pull).trans m.popPolicy_pull
  case pullAccumulator =>
    rw [pullAccumulator_apply] at h
    obtain ⟨-, rfl⟩ := EStateM.Result.ok.inj h
    exact m.popPolicy_pull
  case shiftRight =>
    by_cases hm : i.mode = .accumulator
    · rw [shiftRight_accumulator m hm] at h
      obtain ⟨-, rfl⟩ := EStateM.Result.ok.inj h
      rfl
    · rw [shiftRight_apply m hm] at h
      obtain ⟨a, -, -, rfl⟩ := exists_target h
      rfl
  case branch flag value =>
    rw [branch_apply] at h
    split at h
    · obtain ⟨a, -, -, rfl⟩ := exists_target h
      rfl
    · obtain ⟨-, rfl⟩ := EStateM.Result.ok.inj h
      rfl

/-- No instruction changes what becomes of pulled cells. -/
theorem popPolicy_perform (h : i.perform m = .ok fields m') : m'.memory.popPolicy = m.memory.popPolicy := by
  rw [perform_eq_carryOut] at h
  exact popPolicy_carryOut h

end Instruction

namespace Memory

variable {m m' : Memory} {bytes : List UInt8}

theorem popPolicy_write {address : UInt64} (h : m.write address bytes = .ok m') : m'.popPolicy = m.popPolicy := by
  unfold write at h
  dsimp only at h
  rw [checkedAdd_bind] at h
  split at h
  · split at h
    · cases h
    · cases h
      rfl
  · cases h

/-- A write is refused exactly if its range does not end inside the address space. -/
theorem write_eq_error_iff (m : Memory) (address : UInt16) (hlength : bytes.length < UInt64.size) :
    (∃ e, m.write address.toUInt64 bytes = .error e) ↔ memorySize < address.toNat + bytes.length := by
  constructor
  · rintro ⟨e, he⟩
    by_contra hle
    have hend : address.toUInt64.toNat + bytes.length ≤ memorySize := Nat.le_of_not_lt hle
    have hw := write_eq (m := m) (Nat.lt_of_le_of_lt hend (by decide))
    rw [he, Flat.write, if_pos hend] at hw
    cases hw
  · intro hlt
    rcases hw : m.write address.toUInt64 bytes with e | m'
    · exact ⟨e, rfl⟩
    · have hle := Processor.stop_le_of_write hlength hw
      omega

end Memory

/-! ### Demands -/

/-- What is demanded of a processor. -/
inductive Demand where
  | load (address : UInt16) (program : { bytes : List UInt8 // bytes.length < UInt64.size })
  | start
  | tick
  | resume
  /-- At most as many ticks as there is fuel. -/
  | execute (fuel : Nat)
  | peek
  | reset

/-- The demands that shift the activity of a processor. -/
inductive Shift : Demand → Activity → Activity → Prop where
  | start : Shift .start .idle .running
  | halt : Shift .tick .running .halted
  | stop : Shift .tick .running .breakpoint
  | resume : Shift .resume .breakpoint .running
  | reset (activity : Activity) : Shift .reset activity .idle

namespace Processor

/-- The processor after a demand; looking at the next instruction leaves it as it is. -/
def respond (p : Processor) : Demand → Processor
  | .load address program => p.handle (.load address program)
  | .start => p.handle .start
  | .tick => p.handle .tick
  | .resume => p.handle .resume
  | .execute fuel => p.handle (.execute fuel)
  | .peek => p
  | .reset => p.handle .reset

/-- The number of ticks that a run makes. -/
def ticksMade (p : Processor) : Nat → Nat
  | 0 => 0
  | fuel + 1 => if p.activity = .running then p.ticked.2.ticksMade fuel + 1 else 0

/-- The single moves of a demand: an execution is a start and then ticks. -/
def parts (p : Processor) : Demand → List Demand
  | .execute fuel => .start :: List.replicate (p.start.ticksMade fuel) .tick
  | demand => [demand]

/-- The single moves of a sequence of demands. -/
def moves (p : Processor) : List Demand → List Demand
  | [] => []
  | demand :: demands => p.parts demand ++ (p.respond demand).moves demands

variable {p : Processor}

theorem respond_tick (p : Processor) : p.respond .tick = p.ticked.2 := by
  show settled p.tick = _
  rw [tick_eq_ticked]
  rfl

/-! ### Moves -/

private theorem settled_runFor (p : Processor) (fuel : Nat) (lines : List TraceLine) :
    settled (p.runFor fuel lines) = (List.replicate (p.ticksMade fuel) Demand.tick).foldl respond p := by
  induction fuel generalizing p lines with
  | zero => rfl
  | succ fuel ih =>
    by_cases h : p.activity = .running
    · rw [runFor_succ h, ih, ticksMade, if_pos h, List.replicate_succ, List.foldl_cons, respond_tick]
    · rw [runFor_of_not_running h, ticksMade, if_neg h]
      rfl

theorem foldl_parts (p : Processor) (demand : Demand) : (p.parts demand).foldl respond p = p.respond demand := by
  cases demand with
  | execute fuel =>
    show _ = settled (p.execute fuel)
    rw [settled_execute, settled_runFor]
    rfl
  | _ => rfl

theorem foldl_moves (p : Processor) (demands : List Demand) :
    (p.moves demands).foldl respond p = demands.foldl respond p := by
  induction demands generalizing p with
  | nil => rfl
  | cons demand demands ih => rw [moves, List.foldl_append, foldl_parts, ih, List.foldl_cons]

private theorem mem_parts {demand move : Demand} (h : move ∈ p.parts demand) :
    (∀ fuel, move ≠ .execute fuel) ∧
      (move = demand ∨ ∃ fuel, demand = .execute fuel ∧ (move = .start ∨ move = .tick)) := by
  cases demand with
  | execute fuel =>
    rw [parts, List.mem_cons, List.mem_replicate] at h
    obtain rfl | ⟨-, rfl⟩ := h
    · exact ⟨by simp, Or.inr ⟨fuel, rfl, Or.inl rfl⟩⟩
    · exact ⟨by simp, Or.inr ⟨fuel, rfl, Or.inr rfl⟩⟩
  | _ =>
    obtain rfl := List.mem_singleton.1 h
    exact ⟨by simp, Or.inl rfl⟩

/-- A move is a demand, or a start or a tick that is part of an execution. -/
theorem mem_moves {demands : List Demand} {move : Demand} (h : move ∈ p.moves demands) :
    (∀ fuel, move ≠ .execute fuel) ∧
      (move ∈ demands ∨ ∃ fuel, .execute fuel ∈ demands ∧ (move = .start ∨ move = .tick)) := by
  induction demands generalizing p with
  | nil => cases h
  | cons demand demands ih =>
    rw [moves, List.mem_append] at h
    obtain h | h := h
    · obtain ⟨hne, rfl | ⟨fuel, rfl, hmove⟩⟩ := mem_parts h
      · exact ⟨hne, Or.inl List.mem_cons_self⟩
      · exact ⟨hne, Or.inr ⟨fuel, List.mem_cons_self, hmove⟩⟩
    · obtain ⟨hne, hmem | ⟨fuel, hmem, hmove⟩⟩ := ih h
      · exact ⟨hne, Or.inl (List.mem_cons_of_mem _ hmem)⟩
      · exact ⟨hne, Or.inr ⟨fuel, List.mem_cons_of_mem _ hmem, hmove⟩⟩

/-- All that a single move does to the activity. -/
theorem activity_respond {move : Demand} (h : ∀ fuel, move ≠ .execute fuel) :
    (p.respond move).activity = p.activity ∨ Shift move p.activity (p.respond move).activity := by
  cases move with
  | load address program =>
    left
    show (settled (install address program.val p)).activity = _
    obtain ⟨e, -, he⟩ | ⟨memory, -, -, he⟩ := p.install_cases address program.property
    all_goals
      rw [he]
      rfl
  | start =>
    show p.start.activity = _ ∨ Shift _ _ p.start.activity
    unfold start
    split
    · rename_i hi
      rw [hi]
      exact Or.inr .start
    · exact Or.inl rfl
  | tick =>
    rw [respond_tick]
    obtain ⟨-, ht⟩ | ⟨hrun, -, ht⟩ | ⟨line, m, hrun, -, -, ⟨-, ht⟩ | ⟨-, ht⟩⟩ := p.tick_cases
    all_goals rw [ticked_of_tick ht]
    · exact Or.inl rfl
    · rw [hrun]
      exact Or.inr .halt
    · rw [hrun]
      exact Or.inr .stop
    · exact Or.inl rfl
  | resume =>
    show (p.resume?.getD p).activity = _ ∨ Shift _ _ (p.resume?.getD p).activity
    by_cases hb : p.activity = .breakpoint
    · rw [resume?_of_breakpoint hb, hb]
      exact Or.inr .resume
    · rw [resume?_of_ne hb]
      exact Or.inl rfl
  | execute fuel => exact absurd rfl (h fuel)
  | peek => exact Or.inl rfl
  | reset => exact Or.inr (.reset _)

/-! ### Halted processors -/

theorem execute_of_stopped (h : p.activity = .halted ∨ p.activity = .breakpoint) (fuel : Nat) :
    p.execute fuel = .ok [] p := by
  have hidle : p.activity ≠ .idle := by
    intro hi
    simp [hi] at h
  have hrun : p.activity ≠ .running := by
    intro hr
    simp [hr] at h
  have hstart : p.start = p := if_neg hidle
  rw [execute, hstart, runFor_of_not_running hrun]
  rfl

/-- A halted processor pays no attention to any demand but a reset and the load of a program. -/
theorem respond_of_halted (h : p.activity = .halted) {demand : Demand} (hr : demand ≠ .reset)
    (hl : ∀ address program, demand ≠ .load address program) : p.respond demand = p := by
  cases demand with
  | load address program => exact absurd rfl (hl address program)
  | start =>
    show p.start = p
    exact if_neg (by rw [h]; decide)
  | tick =>
    show settled p.tick = p
    rw [tick_inactive (by rw [h]; decide)]
    rfl
  | resume =>
    show p.resume?.getD p = p
    rw [resume?_of_ne (by rw [h]; decide)]
    rfl
  | execute fuel =>
    show settled (p.execute fuel) = p
    rw [execute_of_stopped (Or.inl h)]
    rfl
  | peek => rfl
  | reset => exact absurd rfl hr

/-- Loading a program does not wake a halted processor. -/
theorem activity_respond_of_halted (h : p.activity = .halted) {demand : Demand} (hr : demand ≠ .reset) :
    (p.respond demand).activity = .halted := by
  cases demand with
  | load address program =>
    have hne : ∀ fuel, Demand.load address program ≠ .execute fuel := by simp
    obtain he | hs := activity_respond (p := p) hne
    · exact he.trans h
    · cases hs
  | _ =>
    rw [respond_of_halted h hr (by simp)]
    exact h

theorem foldl_respond_of_halted (h : p.activity = .halted) {demands : List Demand}
    (hr : ∀ demand ∈ demands, demand ≠ .reset) :
    (demands.foldl respond p).activity = .halted ∧
      ((∀ demand ∈ demands, ∀ address program, demand ≠ .load address program) → demands.foldl respond p = p) := by
  induction demands generalizing p with
  | nil => exact ⟨h, fun _ => rfl⟩
  | cons demand demands ih =>
    obtain ⟨hdemand, hdemands⟩ := List.forall_mem_cons.1 hr
    rw [List.foldl_cons]
    refine ⟨(ih (activity_respond_of_halted h hdemand) hdemands).1, ?_⟩
    intro hl
    obtain ⟨hldemand, hldemands⟩ := List.forall_mem_cons.1 hl
    rw [respond_of_halted h hdemand hldemand]
    exact (ih h hdemands).2 hldemands

/-! ### Resets -/

/-- No demand changes what becomes of pulled cells. -/
theorem popPolicy_move {move : Demand} (h : ∀ fuel, move ≠ .execute fuel) :
    (p.respond move).memory.popPolicy = p.memory.popPolicy := by
  cases move with
  | load address program =>
    show (settled (install address program.val p)).memory.popPolicy = _
    obtain ⟨e, -, he⟩ | ⟨memory, hw, -, he⟩ := p.install_cases address program.property
    · rw [he]
      rfl
    · rw [he]
      exact Memory.popPolicy_write hw
  | start =>
    show p.start.memory.popPolicy = _
    unfold start
    split <;> rfl
  | tick =>
    rw [respond_tick]
    obtain ⟨-, ht⟩ | ⟨-, -, ht⟩ | ⟨line, m, -, -, he, ⟨-, ht⟩ | ⟨-, ht⟩⟩ := p.tick_cases
    all_goals rw [ticked_of_tick ht]
    all_goals
      obtain ⟨fields, hp, -⟩ := Instruction.exists_perform_of_execute he
      exact Instruction.popPolicy_perform hp
  | resume =>
    show (p.resume?.getD p).memory.popPolicy = _
    unfold resume?
    split <;> rfl
  | execute fuel => exact absurd rfl (h fuel)
  | peek => rfl
  | reset => rfl

theorem popPolicy_foldl_respond (p : Processor) (demands : List Demand) :
    (demands.foldl respond p).memory.popPolicy = p.memory.popPolicy := by
  rw [← foldl_moves]
  have hmoves : ∀ move ∈ p.moves demands, ∀ fuel, move ≠ .execute fuel := fun _ h => (mem_moves h).1
  -- the moves are made one after the other, from whatever processor each of them meets
  generalize p.moves demands = moves at hmoves ⊢
  induction moves generalizing p with
  | nil => rfl
  | cons move moves ih =>
    obtain ⟨hmove, hmoves⟩ := List.forall_mem_cons.1 hmoves
    rw [List.foldl_cons, ih _ hmoves, popPolicy_move hmove]

/-! ### Sequences of demands -/

/-- The life of a processor.  Whatever is demanded of it, its activity shifts by single moves, in the five ways of
`Shift` and no other; a move is a demand, or part of an execution.  Only a running processor ticks, only one at a
breakpoint resumes, and one that has halted pays attention to a reset and to loads only, which leave it halted.  A load
that is refused changes nothing.  A reset processor is like a fresh one with the same policy for pulled cells. -/
theorem lifecycle_of_demands :
    (∀ (p : Processor) (demands : List Demand), (p.moves demands).foldl respond p = demands.foldl respond p ∧
      ∀ before move later, p.moves demands = before ++ move :: later →
        (move ∈ demands ∨ ∃ fuel, .execute fuel ∈ demands ∧ (move = .start ∨ move = .tick)) ∧
        (((before.foldl respond p).respond move).activity = (before.foldl respond p).activity ∨
          Shift move (before.foldl respond p).activity ((before.foldl respond p).respond move).activity)) ∧
    (∀ p : Processor,
      (p.resume?.isSome = true ↔ p.activity = .breakpoint) ∧
      (p.activity = .breakpoint → (p.respond .resume).activity = .running) ∧
      (p.activity ≠ .running → p.tick = .ok (.inactive p.activity) p) ∧
      (p.activity = .halted ∨ p.activity = .breakpoint → ∀ fuel, p.execute fuel = .ok [] p)) ∧
    (∀ (p : Processor) (demands : List Demand), p.activity = .halted → (∀ demand ∈ demands, demand ≠ .reset) →
      (demands.foldl respond p).activity = .halted ∧
        ((∀ demand ∈ demands, ∀ address program, demand ≠ .load address program) → demands.foldl respond p = p)) ∧
    (∀ (p : Processor) (address : UInt16) (program : { bytes : List UInt8 // bytes.length < UInt64.size }),
      ((∃ e, p.load address program.val = .error e) ↔ memorySize < address.toNat + program.val.length) ∧
        (∀ e q, install address program.val p = .error e q → q = p) ∧
        ((∃ e, p.load address program.val = .error e) → p.respond (.load address program) = p)) ∧
    ∀ (p : Processor) (demands : List Demand),
      (demands.foldl respond p).respond .reset = .ofMemory (.blank p.memory.popPolicy) := by
  refine ⟨?_, ?_, fun _ _ h => foldl_respond_of_halted h, ?_, ?_⟩
  · intro p demands
    refine ⟨p.foldl_moves demands, ?_⟩
    intro before move later hsplit
    have hmem : move ∈ p.moves demands := by
      rw [hsplit]
      simp
    obtain ⟨hne, horigin⟩ := mem_moves hmem
    exact ⟨horigin, activity_respond hne⟩
  · intro p
    refine ⟨?_, ?_, tick_inactive, execute_of_stopped⟩
    · simp [resume?]
    · intro hb
      show (p.resume?.getD p).activity = _
      rw [resume?_of_breakpoint hb]
      rfl
  · intro p address program
    obtain ⟨e, hw, he⟩ | ⟨memory, hw, hend, he⟩ := p.install_cases address program.property
    · have hload : p.load address program.val = .error e := by
        rw [load, he]
      refine ⟨iff_of_true ⟨e, hload⟩ ?_, ?_, ?_⟩
      · exact (p.memory.write_eq_error_iff address program.property).1 ⟨e, hw⟩
      · intro e' q hq
        rw [he] at hq
        exact (EStateM.Result.error.inj hq).2.symm
      · intro _
        show settled (install address program.val p) = p
        rw [he]
        rfl
    · have hload : ¬∃ e, p.load address program.val = .error e := by
        rw [load, he]
        simp
      refine ⟨iff_of_false hload (Nat.not_lt_of_le hend), ?_, fun h => absurd h hload⟩
      intro e q hq
      rw [he] at hq
      cases hq
  · intro p demands
    show (demands.foldl respond p).reset = _
    rw [reset_eq, popPolicy_foldl_respond]

/-- A processor that has come to the end of an empty program is not woken. -/
theorem lifecycle_of_empty_program :
    ∃ p : Processor,
      [Demand.load 0x0600 ⟨[], by decide⟩, .start, .tick].foldl respond (.ofMemory (.blank .preserve)) = p ∧
        p.activity = .halted ∧ [Demand.start, .tick, .resume, .execute 5, .peek].foldl respond p = p := by
  generalize Memory.blank .preserve = memory
  have hf : isFetchable { ofMemory memory with
      activity := .running, region := { start := 0x0600, stop := 0x0600 } } = false := by
    rw [isFetchable_eq, ← Bool.not_eq_true, Region.holds_iff_bounds]
    rintro ⟨-, hend⟩
    have hend : 0x0600 + (1 + _) ≤ 0x0600 := hend
    omega
  have htick : respond { ofMemory memory with activity := .running, region := { start := 0x0600, stop := 0x0600 } }
      .tick = { ofMemory memory with activity := .halted, region := { start := 0x0600, stop := 0x0600 } } := by
    rw [respond_tick, ticked_of_tick (tick_halt rfl hf)]
  refine ⟨{ ofMemory memory with activity := .halted, region := { start := 0x0600, stop := 0x0600 } }, htick, rfl, ?_⟩
  exact (lifecycle_of_demands.2.2.1 _ [.start, .tick, .resume, .execute 5, .peek] rfl (by simp)).2 (by simp)

end Processor

end Mos6502
