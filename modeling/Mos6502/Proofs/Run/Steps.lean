import Mos6502.Proofs.Processor.Status
import Mos6502.Proofs.Run.Command
import Mos6502.Proofs.Run.Record
import Mos6502.Run.Rehearsal

/-!
# Runs are steps

However a run is scheduled, paced, commanded and stopped, it makes the steps of its processor, one after the other, and
shows their lines.  The invariant of the cycles is that the processor has made exactly the steps that were counted and
shown (`Ongoing`); each end of a cycle keeps it or accounts for the last tick (`Ended`).
-/

namespace Mos6502

namespace Run

variable {σ : Type} {p : Processor} {r : Run} {log : List Event} {n : Nat}

/-! ### Lines -/

/-- The record shows exactly the lines of the first steps, and each of these steps has a line. -/
def Shows (p : Processor) (n : Nat) (log : List Event) : Prop :=
  (log.filterMap Event.line?).map some = (List.range n).map fun k => (p.tickAt k).line?

private theorem shows_answer (h : Shows p n log) {e : Event} (he : e.line? = none) : Shows p n (log ++ [e]) := by
  unfold Shows
  rw [List.filterMap_append, List.filterMap_cons_none he, List.filterMap_nil, List.append_nil]
  exact h

private theorem shows_line (h : Shows p n log) {tick : Tick} {line : TraceLine} (ht : p.tickAt n = tick)
    (hl : tick.line? = some line) : Shows p (n + 1) (log ++ [.observed tick]) := by
  have he : (Event.observed tick).line? = some line := hl
  unfold Shows
  rw [List.filterMap_append, List.filterMap_cons_some he, List.filterMap_nil, List.map_append, h, List.range_succ,
    List.map_append, List.map_singleton, List.map_singleton, ht, hl]

private theorem line?_ne_none (h : Shows p n log) {k : Nat} (hk : k < n) : (p.tickAt k).line? ≠ none := by
  intro hn
  have hm : none ∈ (List.range n).map fun k => (p.tickAt k).line? :=
    List.mem_map.2 ⟨k, List.mem_range.2 hk, hn⟩
  rw [← h] at hm
  obtain ⟨line, -, hl⟩ := List.mem_map.1 hm
  cases hl

/-! ### The invariant -/

/-- What holds of a run and its record before each cycle. -/
structure Ongoing (p : Processor) (r : Run) (log : List Event) : Prop where
  processor : r.processor = p.after r.ticks
  running : r.processor.activity = .running
  random : r.randomAddress = none
  shows : Shows p r.ticks log
  unanswered : Event.resume .quit ∉ log

/-- What holds of a run and its record in the end: the run was told to quit at a breakpoint, which is not resumed; or it
halted where the program ends; or the processor is as its steps left it. -/
structure Ended (p : Processor) (r : Run) (reason : RunEnd) (log : List Event) : Prop where
  shows : Shows p r.ticks log
  processor :
    (Event.resume .quit ∈ log ∧ reason ≠ .endOfProgram ∧ r.processor.activity = .breakpoint ∧
        r.processor.registers.has .break = true ∧ r.processor.resume? = some (p.after r.ticks)) ∨
      (Event.resume .quit ∉ log ∧ reason = .endOfProgram ∧ (p.tickAt r.ticks).line? = none ∧
        r.processor = { p.after r.ticks with activity := .halted }) ∨
      (Event.resume .quit ∉ log ∧ reason ≠ .endOfProgram ∧ r.processor = p.after r.ticks)

/-- What holds of a run after a cycle; it never fails. -/
def Accounts (p : Processor) : Progress → List Event → Prop
  | .going r, log => Ongoing p r log
  | .over r reason, log => Ended p r reason log
  | .failed _ _, _ => False

private theorem ended_of_ongoing (h : Ongoing p r log) {reason : RunEnd} (hr : reason ≠ .endOfProgram) :
    Ended p r reason log :=
  ⟨h.shows, Or.inr (Or.inr ⟨h.unanswered, hr, h.processor⟩)⟩

/-- An answer that is not to quit at a breakpoint is recorded, and changes nothing but the schedule. -/
private theorem ongoing_answer (h : Ongoing p r log) {e : Event} (hl : e.line? = none) (hq : e ≠ .resume .quit)
    {r' : Run} (hp : r'.processor = r.processor) (ht : r'.ticks = r.ticks)
    (ha : r'.randomAddress = r.randomAddress) : Ongoing p r' (log ++ [e]) := by
  refine ⟨?_, ?_, ?_, ?_, ?_⟩
  · rw [hp, ht]
    exact h.processor
  · rw [hp]
    exact h.running
  · rw [ha]
    exact h.random
  · rw [ht]
    exact shows_answer h.shows hl
  · rw [List.mem_append, List.mem_singleton, not_or]
    exact ⟨h.unanswered, Ne.symm hq⟩

/-! ### Cycles -/

variable (host : Host (StateM σ))

private theorem tick_of_processor {tick : Tick} {q : Processor} (h : r.processor.tick = .ok tick q) :
    r.tick = .ok tick { r with processor := q, ticks := r.ticks + tick.count } := by
  rw [Run.tick, h]

private theorem settle_executed {line : TraceLine} (h : Ongoing p r log) :
    Ensures log (settle host.recorded r (.executed line)) (Accounts p) := by
  unfold settle
  dsimp only
  split
  · refine Ensures.bind (delay_ensures host _) ?_
    rintro passed log' rfl
    split
    · exact Ensures.pure h
    · exact Ensures.pure (ended_of_ongoing h (by decide))
  · exact Ensures.pure h

/-- At a breakpoint the run is told to go on, and the processor is resumed, or to quit, and it is not. -/
private theorem settle_breakpoint {line : TraceLine} (ha : r.processor.activity = .breakpoint)
    (hb : r.processor.registers.has .break = true) (hresume : r.processor.resume?.getD r.processor = p.after r.ticks)
    (hrandom : r.randomAddress = none) (hs : Shows p r.ticks log) (hu : Event.resume .quit ∉ log) :
    Ensures log (settle host.recorded r (.breakpoint line)) (Accounts p) := by
  have hgoing : Ongoing p r.resume log := by
    refine ⟨hresume, ?_, hrandom, hs, hu⟩
    show (r.processor.resume?.getD r.processor).activity = .running
    rw [Processor.resume?_of_breakpoint ha]
    rfl
  refine Ensures.bind (waitForResume_ensures host _) ?_
  rintro command log' rfl
  cases ho : r.obey? command with
  | none =>
    rw [eq_quit_of_obey? ho]
    refine Ensures.mono (quit_ensures host r) ?_
    rintro progress log' ⟨reason, rfl, hreason, rfl⟩
    refine ⟨shows_answer hs rfl, Or.inl ⟨?_, hreason, ha, hb, ?_⟩⟩
    · exact List.mem_append_right _ (List.mem_singleton_self _)
    · rw [Processor.resume?_of_breakpoint ha, ← hresume, Processor.resume?_of_breakpoint ha]
      rfl
  | some r' =>
    obtain ⟨hne, rfl⟩ := obey?_eq_some_iff.1 ho
    refine Ensures.pure (ongoing_answer hgoing rfl ?_ rfl rfl rfl)
    intro he
    cases he
    exact hne rfl

private theorem advance_accounts (h : Ongoing p r log) :
    Ensures log (advance host.recorded r) (Accounts p) := by
  refine Ensures.bind (randomize_ensures host h.random) ?_
  rintro r' log' ⟨rfl, rfl⟩
  have hp := h.processor
  have hu : ∀ tick, Event.resume .quit ∉ log' ++ [Event.observed tick] := by
    intro tick
    rw [List.mem_append, List.mem_singleton, not_or]
    exact ⟨h.unanswered, by simp⟩
  obtain ⟨hne, -⟩ | ⟨-, -, ht⟩ | ⟨line, m, -, -, -, ⟨hb, ht⟩ | ⟨-, ht⟩⟩ := r'.processor.tick_cases
  · exact absurd h.running hne
  · -- the program ends: nothing is counted, and the processor halts
    rw [tick_of_processor ht]
    refine Ensures.bind (observe_ensures host _ _ _) ?_
    rintro _ log'' rfl
    have hn : p.tickAt r'.ticks = .endOfProgram r'.processor.registers.programCounter := by
      apply Processor.tickAt_of_tick
      rw [← hp]
      exact ht
    refine Ensures.pure ⟨shows_answer h.shows rfl, Or.inr (Or.inl ⟨hu _, rfl, ?_, ?_⟩)⟩
    · show (p.tickAt r'.ticks).line? = none
      rw [hn]
      rfl
    · show { r'.processor with activity := .halted } = { p.after r'.ticks with activity := .halted }
      rw [hp]
  · -- a breakpoint: the step is complete only once it is resumed
    rw [tick_of_processor ht]
    refine Ensures.bind (observe_ensures host _ _ _) ?_
    rintro _ log'' rfl
    have hn : p.tickAt r'.ticks = .breakpoint line := Processor.tickAt_of_tick (hp ▸ ht)
    refine settle_breakpoint host rfl hb ?_ h.random (shows_line h.shows hn rfl) (hu _)
    show _ = p.after (r'.ticks + 1)
    rw [Processor.after_succ, ← hp, Processor.step_of_breakpoint ht]
  · -- any other instruction: the tick is the whole step
    rw [tick_of_processor ht]
    refine Ensures.bind (observe_ensures host _ _ _) ?_
    rintro _ log'' rfl
    have hn : p.tickAt r'.ticks = .executed line := Processor.tickAt_of_tick (hp ▸ ht)
    refine settle_executed host ⟨?_, h.running, h.random, shows_line h.shows hn rfl, hu _⟩
    show _ = p.after (r'.ticks + 1)
    rw [Processor.after_succ, ← hp, Processor.step_of_executed ht]

private theorem cycle_accounts (h : Ongoing p r log) : Ensures log (cycle host.recorded r) (Accounts p) := by
  refine Ensures.bind (isStopped_ensures host) ?_
  rintro raised log' rfl
  split
  · exact Ensures.pure (ended_of_ongoing h (by decide))
  · split
    · refine Ensures.bind (waitForStep_ensures host _) ?_
      rintro command log'' rfl
      have hstep : ∀ r' : Run, r'.processor = r.processor → r'.ticks = r.ticks → r'.randomAddress = r.randomAddress →
          Ongoing p r' (log' ++ [.step command]) := fun r' => ongoing_answer h rfl (by simp)
      cases ho : r.obey? command with
      | none =>
        refine Ensures.mono (quit_ensures host r) ?_
        rintro progress log'' ⟨reason, rfl, hreason, rfl⟩
        exact ended_of_ongoing (hstep r rfl rfl rfl) hreason
      | some r' =>
        obtain ⟨-, rfl⟩ := obey?_eq_some_iff.1 ho
        have hongoing := hstep { r with schedule := r.schedule.told r.continuePace command } rfl rfl rfl
        refine Ensures.bind (isStopped_ensures host) ?_
        rintro raised log'' rfl
        split
        · exact Ensures.pure (ended_of_ongoing hongoing (by decide))
        · exact advance_accounts host hongoing
    · exact advance_accounts host h

private theorem cycles_accounts (fuel : Nat) (h : Ongoing p r log) :
    Ensures log (cycles host.recorded fuel r) (Accounts p) := by
  induction fuel generalizing r log with
  | zero => exact Ensures.pure h
  | succ fuel ih =>
    refine Ensures.bind (cycle_accounts host h) ?_
    intro progress log' ha
    cases progress with
    -- a run that goes on is as one before its first cycle; all others are accounted for already
    | going r => exact ih ha
    | «over» r reason => exact Ensures.pure ha
    | failed r error => exact Ensures.pure ha

/-! ### Whole runs -/

private theorem ongoing_start (hp : p.activity = .idle ∨ p.activity = .running) (schedule : Schedule) (pace : Pace) :
    Ongoing p.start (ofProcessor p schedule pace none).start [] :=
  ⟨rfl, Processor.activity_start hp, rfl, rfl, by simp⟩

/-- The number of steps to the end of the program does not depend on the run. -/
private theorem ticks_unique {n₁ n₂ : Nat} {log₁ log₂ : List Event} (h₁ : Shows p n₁ log₁) (h₂ : Shows p n₂ log₂)
    (hn₁ : (p.tickAt n₁).line? = none) (hn₂ : (p.tickAt n₂).line? = none) : n₁ = n₂ := by
  rcases Nat.lt_trichotomy n₁ n₂ with hlt | heq | hgt
  · exact absurd hn₁ (line?_ne_none h₂ hlt)
  · exact heq
  · exact absurd hn₂ (line?_ne_none h₁ hgt)

private theorem ended_unique {r₁ r₂ : Run} {log₁ log₂ : List Event} (h₁ : Ended p r₁ .endOfProgram log₁)
    (h₂ : Ended p r₂ .endOfProgram log₂) :
    r₁.ticks = r₂.ticks ∧ r₁.processor = r₂.processor ∧
      log₁.filterMap Event.line? = log₂.filterMap Event.line? := by
  obtain ⟨hs₁, ⟨-, hne, -⟩ | ⟨-, -, hn₁, hq₁⟩ | ⟨-, hne, -⟩⟩ := h₁
  · exact absurd rfl hne
  · obtain ⟨hs₂, ⟨-, hne, -⟩ | ⟨-, -, hn₂, hq₂⟩ | ⟨-, hne, -⟩⟩ := h₂
    · exact absurd rfl hne
    · have ht := ticks_unique hs₁ hs₂ hn₁ hn₂
      refine ⟨ht, by rw [hq₁, hq₂, ht], ?_⟩
      unfold Shows at hs₁ hs₂
      rw [← ht, ← hs₁] at hs₂
      exact ((List.map_inj_right fun _ _ => Option.some.inj).1 hs₂).symm
    · exact absurd rfl hne
  · exact absurd rfl hne

/-- Scheduling does not change what is executed.  Whatever the surroundings and the schedule, a run that is over has
made the steps of its processor that it counts and shown their lines; two runs of a processor to the end of its program
count the same ticks, show the same lines and leave the same processor. -/
theorem play_ended (hp : p.activity = .idle ∨ p.activity = .running) :
    (∀ {σ : Type} (host : Host (StateM σ)) (w w' : σ) (fuel : Nat) (schedule : Schedule) (pace : Pace) (r : Run)
        (reason : RunEnd),
      play host fuel (ofProcessor p schedule pace none) w = (.over r reason, w') →
        ∃ log, play host.recorded fuel (ofProcessor p schedule pace none) (w, []) = (.over r reason, (w', log)) ∧
          Ended p.start r reason log) ∧
    ∀ {σ₁ σ₂ : Type} (host₁ : Host (StateM σ₁)) (host₂ : Host (StateM σ₂)) (w₁ w₁' : σ₁) (w₂ w₂' : σ₂)
        (fuel₁ fuel₂ : Nat) (schedule₁ schedule₂ : Schedule) (pace₁ pace₂ : Pace) (r₁ r₂ : Run)
        (log₁ log₂ : List Event),
      play host₁.recorded fuel₁ (ofProcessor p schedule₁ pace₁ none) (w₁, []) =
          (.over r₁ .endOfProgram, (w₁', log₁)) →
        play host₂.recorded fuel₂ (ofProcessor p schedule₂ pace₂ none) (w₂, []) =
          (.over r₂ .endOfProgram, (w₂', log₂)) →
        r₁.ticks = r₂.ticks ∧ r₁.processor = r₂.processor ∧
          log₁.filterMap Event.line? = log₂.filterMap Event.line? := by
  have hended : ∀ {σ : Type} (host : Host (StateM σ)) (w w' : σ) (fuel : Nat) (schedule : Schedule) (pace : Pace)
      (r : Run) (reason : RunEnd) (log : List Event),
      play host.recorded fuel (ofProcessor p schedule pace none) (w, []) = (.over r reason, (w', log)) →
        Ended p.start r reason log := by
    intro σ host w w' fuel schedule pace r reason log h
    have ha := cycles_accounts host fuel (ongoing_start hp schedule pace) w
    unfold play at h
    rw [h] at ha
    exact ha
  constructor
  · intro σ host w w' fuel schedule pace r reason h
    obtain ⟨log, hlog⟩ := play_recorded host fuel (ofProcessor p schedule pace none) w []
    rw [h] at hlog
    exact ⟨log, hlog, hended host w w' fuel schedule pace r reason log hlog⟩
  · intro σ₁ σ₂ host₁ host₂ w₁ w₁' w₂ w₂' fuel₁ fuel₂ schedule₁ schedule₂ pace₁ pace₂ r₁ r₂ log₁ log₂ h₁ h₂
    exact ended_unique (hended host₁ w₁ w₁' fuel₁ schedule₁ pace₁ r₁ _ log₁ h₁)
      (hended host₂ w₂ w₂' fuel₂ schedule₂ pace₂ r₂ _ log₂ h₂)

/-- A program that starts with BRK, told to quit at the breakpoint: one line is shown, and it is not resumed. -/
theorem play_quit_at_breakpoint :
    ∃ r w' log,
      play Rehearsal.host.recorded 1
          (ofProcessor (.ofMemory (.blank .preserve)) (.free .unlimited) .unlimited none)
          (.ofScript (.scripted [.quit] false) { atTick := none, atWait := none, after := none } false [], []) =
        (.over r .quit, (w', log)) ∧
      (log.filterMap Event.line?).length = 1 ∧ r.processor.activity = .breakpoint := by
  have h0 : (Memory.blank .preserve).get programStart = 0 := Memory.get_blank _ _
  generalize Memory.blank .preserve = memory at h0 ⊢
  have hf : (Processor.ofMemory memory).start.isFetchable = true := by
    rw [Processor.isFetchable_of_opcode_zero h0]
    rfl
  obtain ⟨line, m, -, ht⟩ := Processor.tick_of_isOrderly
    (Processor.isOrderly_handle (Processor.isOrderly_ofMemory memory) .start) rfl hf
  have hr := tick_of_processor (r := (ofProcessor (.ofMemory memory) (.free .unlimited) .unlimited none).start)
    (ht.trans (if_pos h0))
  obtain ⟨r, w', hplay, hn, ha⟩ : ∃ r w', play Rehearsal.host 1
      (ofProcessor (.ofMemory memory) (.free .unlimited) .unlimited none)
      (.ofScript (.scripted [.quit] false) { atTick := none, atWait := none, after := none } false []) =
        (.over r .quit, w') ∧ r.ticks = 1 ∧ r.processor.activity = .breakpoint := by
    unfold play
    generalize hrun : (ofProcessor (.ofMemory memory) (.free .unlimited) .unlimited none).start = run at hr ⊢
    have hs : run.schedule = .free .unlimited := by rw [← hrun]; rfl
    have ha : run.randomAddress = none := by rw [← hrun]; rfl
    have hn : run.ticks = 0 := by rw [← hrun]; rfl
    refine ⟨{ run with
      processor := { (Processor.ofMemory memory).start with toMachine := m, activity := .breakpoint }, ticks := 1 }, ?_⟩
    simp [cycles, cycle, advance, randomize, settle, quit, bind_state, map_state, pure_state, hr, hs, ha, hn,
      Rehearsal.host, Rehearsal.isStopped, Rehearsal.ofScript, Rehearsal.observe, Rehearsal.wait, Rehearsal.answer,
      StopScript.afterTick, StopScript.afterWait, obey?, Tick.count, Processor.handle]
  obtain ⟨log, hlog, hended⟩ := (play_ended (Or.inl rfl)).1 Rehearsal.host _ _ _ _ _ _ _ hplay
  have hs := congrArg List.length hended.shows
  rw [List.length_map, List.length_map, List.length_range, hn] at hs
  exact ⟨r, w', log, hlog, hs, ha⟩

end Run

end Mos6502
