import Mos6502.Proofs.Run.Channel

/-!
# The conversation of a run

Every cycle that makes a tick was granted a step if the run was stepwise, shows that tick once, and asks for a command
if the tick is a breakpoint; nothing else is asked.  The schedule in force is known from the answers so far
(`inForce`): a stepwise run becomes free at the first answer to continue, and no other answer changes a schedule.
-/

namespace Mos6502

open Call

variable {σ : Type}

/-- The answers among some calls. -/
def Call.answers (calls : List Call) : List Command :=
  calls.filterMap answer?

namespace Schedule

/-- The schedule after some calls: a stepwise run that was told to continue runs freely. -/
def inForce (schedule : Schedule) (pace : Pace) (calls : List Call) : Schedule :=
  if schedule = .stepwise ∧ .continue ∈ answers calls then .free pace else schedule

/-- Whether a call may be made under a schedule: only a stepwise run waits for steps, and an observer is shown the
schedule itself. -/
def Allows (schedule : Schedule) : Call → Prop
  | .step _ _ => schedule = .stepwise
  | .observe _ _ shown => shown = schedule
  | _ => True

/-- Every call is made under the schedule in force. -/
def Heeds (schedule : Schedule) (pace : Pace) (calls : List Call) : Prop :=
  ∀ before call after, calls = before ++ call :: after → (schedule.inForce pace before).Allows call

variable {schedule : Schedule} {pace : Pace} {calls calls' : List Call} {call : Call}

theorem inForce_append :
    schedule.inForce pace (calls ++ calls') = (schedule.inForce pace calls).inForce pace calls' := by
  have hanswers : answers (calls ++ calls') = answers calls ++ answers calls' := List.filterMap_append
  unfold inForce
  rw [hanswers]
  by_cases hs : schedule = .stepwise
  · by_cases hc : Command.continue ∈ answers calls
    · simp [hs, hc]
    · simp [hs, hc]
  · simp [hs]

theorem inForce_nil : schedule.inForce pace [] = schedule :=
  if_neg fun h => by simp [answers] at h

theorem inForce_answer {command : Command} (h : call.answer? = some command) :
    schedule.inForce pace [call] = schedule.told pace command := by
  unfold inForce told answers
  rw [List.filterMap_cons_some h, List.filterMap_nil]
  simp only [List.mem_singleton, eq_comm (a := Command.continue)]

theorem inForce_silent (h : call.answer? = none) : schedule.inForce pace [call] = schedule := by
  unfold inForce answers
  rw [List.filterMap_cons_none h, List.filterMap_nil]
  exact if_neg fun h => by simp at h

theorem heeds_nil : schedule.Heeds pace [] := by
  intro before call after h
  simp at h

theorem heeds_cons_iff :
    schedule.Heeds pace (call :: calls) ↔
      schedule.Allows call ∧ (schedule.inForce pace [call]).Heeds pace calls := by
  constructor
  · intro h
    constructor
    · have hcall := h [] call calls rfl
      rw [inForce_nil] at hcall
      exact hcall
    · intro before call' after hc
      have hcall := h (call :: before) call' after (by rw [hc, List.cons_append])
      rw [← List.singleton_append, inForce_append] at hcall
      exact hcall
  · rintro ⟨hcall, hcalls⟩ before call' after hc
    rw [eq_comm, List.append_eq_cons_iff] at hc
    obtain ⟨rfl, hc⟩ | ⟨before', rfl, hc⟩ := hc
    · cases hc
      rw [inForce_nil]
      exact hcall
    · rw [← List.singleton_append, inForce_append]
      exact hcalls before' call' after hc

theorem heeds_append (h : schedule.Heeds pace calls) (h' : (schedule.inForce pace calls).Heeds pace calls') :
    schedule.Heeds pace (calls ++ calls') := by
  induction calls generalizing schedule with
  | nil =>
    rw [inForce_nil] at h'
    exact h'
  | cons call calls ih =>
    obtain ⟨hcall, hcalls⟩ := heeds_cons_iff.1 h
    rw [← List.singleton_append, inForce_append] at h'
    exact heeds_cons_iff.2 ⟨hcall, ih hcalls h'⟩

/-- Looks, pauses and random bytes do not matter to the schedule. -/
theorem inForce_talk : schedule.inForce pace (talk calls) = schedule.inForce pace calls := by
  have hanswers : answers (talk calls) = answers calls := by
    unfold answers talk
    rw [List.filterMap_filter]
    congr 1
    funext call
    cases call <;> rfl
  unfold inForce
  rw [hanswers]

theorem heeds_of_talk (h : schedule.Heeds pace (talk calls)) : schedule.Heeds pace calls := by
  induction calls generalizing schedule with
  | nil => exact h
  | cons call calls ih =>
    cases ht : call.isTalk with
    | true =>
      unfold talk at h
      rw [List.filter_cons_of_pos ht] at h
      obtain ⟨hcall, hcalls⟩ := heeds_cons_iff.1 h
      exact heeds_cons_iff.2 ⟨hcall, ih hcalls⟩
    | false =>
      unfold talk at h
      rw [List.filter_cons_of_neg (by simp [ht])] at h
      have hsilent : call.answer? = none := by cases call <;> first | rfl | cases ht
      have hallows : schedule.Allows call := by cases call <;> trivial
      refine heeds_cons_iff.2 ⟨hallows, ?_⟩
      rw [inForce_silent hsilent]
      exact ih h

end Schedule

namespace Run

variable {r r' : Run} {tick : Tick} {steps waits calls : List Call} {progress : Progress}

/-! ### The schedule -/

private theorem grant_heeds (hg : Grant r steps r') :
    r.schedule.Heeds r.continuePace steps ∧ r'.schedule = r.schedule.inForce r.continuePace steps ∧
      r'.continuePace = r.continuePace := by
  cases hg with
  | free _ => exact ⟨Schedule.heeds_nil, Schedule.inForce_nil.symm, rfl⟩
  | step hs ho =>
    obtain ⟨-, rfl⟩ := obey?_eq_some_iff.1 ho
    exact ⟨Schedule.heeds_cons_iff.2 ⟨hs, Schedule.heeds_nil⟩, (Schedule.inForce_answer rfl).symm, rfl⟩

private theorem sequel_heeds (hs : Sequel r tick waits progress) :
    r.schedule.Heeds r.continuePace waits ∧ progress.last.schedule = r.schedule.inForce r.continuePace waits ∧
      progress.last.continuePace = r.continuePace := by
  cases hs with
  | quit =>
    refine ⟨Schedule.heeds_cons_iff.2 ⟨trivial, Schedule.heeds_nil⟩, ?_, rfl⟩
    rw [Schedule.inForce_answer rfl]
    exact (if_neg (by simp)).symm
  | resume ho =>
    obtain ⟨-, rfl⟩ := obey?_eq_some_iff.1 ho
    exact ⟨Schedule.heeds_cons_iff.2 ⟨trivial, Schedule.heeds_nil⟩, (Schedule.inForce_answer rfl).symm, rfl⟩
  | _ => exact ⟨Schedule.heeds_nil, Schedule.inForce_nil.symm, rfl⟩

private theorem turn_heeds (h : Turn r calls progress) :
    r.schedule.Heeds r.continuePace calls ∧ progress.last.schedule = r.schedule.inForce r.continuePace calls ∧
      progress.last.continuePace = r.continuePace := by
  cases h with
  | stopped => exact ⟨Schedule.heeds_nil, Schedule.inForce_nil.symm, rfl⟩
  | quit hs =>
    refine ⟨Schedule.heeds_cons_iff.2 ⟨hs, Schedule.heeds_nil⟩, ?_, rfl⟩
    rw [Schedule.inForce_answer rfl]
    exact (if_neg (by simp)).symm
  | held hs ho => exact grant_heeds (Grant.step hs ho)
  | @tick r₁ r₂ r₃ tick steps waits _ hg hd ht hs =>
    obtain ⟨hsteps, hschedule₁, hpace₁⟩ := grant_heeds hg
    obtain ⟨hwaits, hschedule, hpace⟩ := sequel_heeds hs
    obtain ⟨hschedule₃, hpace₃⟩ : r₃.schedule = r₁.schedule ∧ r₃.continuePace = r₁.continuePace := by
      rw [tick_eq_ok] at ht
      obtain ⟨-, rfl⟩ := EStateM.Result.ok.inj ht
      obtain rfl | ⟨address, byte, -, rfl⟩ := hd <;> exact ⟨rfl, rfl⟩
    rw [hschedule₃, hschedule₁] at hwaits hschedule
    rw [hpace₃, hpace₁] at hwaits hschedule hpace
    have hshown : ∀ {s : Schedule}, s.inForce r.continuePace [.observe r₃.processor tick r₃.schedule] = s :=
      Schedule.inForce_silent rfl
    refine ⟨Schedule.heeds_append hsteps (Schedule.heeds_cons_iff.2 ⟨?_, ?_⟩), ?_, hpace⟩
    · exact hschedule₃.trans hschedule₁
    · rw [hshown]
      exact hwaits
    · rw [hschedule, ← List.singleton_append, Schedule.inForce_append, Schedule.inForce_append, hshown]

section Courses

variable {host : Host (StateM σ)} {w w' : σ} {laps : List (Lap σ)}

private theorem lap_heeds (host : Host (StateM σ)) (r : Run) (w : σ) :
    r.schedule.Heeds r.continuePace ((lap host r w).trace.map Prod.fst) ∧
      (lap host r w).after.last.schedule =
        r.schedule.inForce r.continuePace ((lap host r w).trace.map Prod.fst) ∧
      (lap host r w).after.last.continuePace = r.continuePace := by
  obtain ⟨hheeds, hschedule, hpace⟩ := turn_heeds (lap_turn host r w)
  rw [Schedule.inForce_talk] at hschedule
  exact ⟨Schedule.heeds_of_talk hheeds, hschedule, hpace⟩

private theorem course_heeds (hc : Course host r w laps progress w') :
    r.schedule.Heeds r.continuePace (callsOf laps) ∧
      progress.last.schedule = r.schedule.inForce r.continuePace (callsOf laps) ∧
      ∀ before lap after, laps = before ++ lap :: after →
        lap.before.schedule = r.schedule.inForce r.continuePace (callsOf before) := by
  induction hc with
  | cut r w => exact ⟨Schedule.heeds_nil, Schedule.inForce_nil.symm, by simp⟩
  | @last r w _ =>
    obtain ⟨hheeds, hschedule, -⟩ := lap_heeds host r w
    rw [callsOf_cons, show callsOf ([] : List (Lap σ)) = [] from rfl, List.append_nil]
    refine ⟨hheeds, hschedule, ?_⟩
    intro before lap' after hl
    rw [eq_comm, List.append_eq_singleton_iff] at hl
    obtain ⟨rfl, hl⟩ | ⟨-, hl⟩ := hl
    · cases hl
      exact Schedule.inForce_nil.symm
    · cases hl
  | @next r r' w w' laps progress h _ ih =>
    obtain ⟨hheeds, hschedule, hpace⟩ := lap_heeds host r w
    obtain ⟨hrest, hend, hbefore⟩ := ih
    rw [h] at hschedule hpace
    have hr' : r'.schedule = _ := hschedule
    have hpace' : r'.continuePace = _ := hpace
    rw [hr', hpace'] at hrest hend
    rw [callsOf_cons]
    refine ⟨Schedule.heeds_append hheeds hrest, hend.trans Schedule.inForce_append.symm, ?_⟩
    intro before lap' after hl
    rw [eq_comm, List.append_eq_cons_iff] at hl
    obtain ⟨rfl, hl⟩ | ⟨before', rfl, hl⟩ := hl
    · cases hl
      exact Schedule.inForce_nil.symm
    · rw [callsOf_cons, Schedule.inForce_append, hbefore before' lap' after hl, hr', hpace']

/-! ### Waits and ticks -/

/-- What is asked before a tick: one step if the run is stepwise. -/
def Asked (r : Run) (asked : List Call) : Prop :=
  if r.schedule = .stepwise then ∃ command, command ≠ .quit ∧ asked = [.step r.processor command] else asked = []

/-- What is asked after a tick: once to resume if it is a breakpoint. -/
def AskedAfter (q : Processor) : Tick → List Call → Prop
  | .breakpoint _, asked => ∃ command, asked = [.resume q command]
  | _, asked => asked = []

/-- A cycle makes no tick and is the last one, or it makes one tick, which is shown once, after what is asked before
it and before what is asked after it. -/
def Converses (r : Run) (calls : List Call) (progress : Progress) : Prop :=
  (∃ r' reason, progress = .over r' reason ∧ r'.processor = r.processor ∧ r'.ticks = r.ticks ∧
    (calls = [] ∨ r.schedule = .stepwise ∧ ∃ command, calls = [.step r.processor command])) ∨
  ∃ p tick q schedule asked asked',
    (p = r.processor ∨ ∃ address byte, r.randomAddress = some address ∧ p = (r.poke address byte).processor) ∧
    p.tick = .ok tick q ∧ calls = asked ++ .observe q tick schedule :: asked' ∧ Asked r asked ∧
    AskedAfter q tick asked' ∧ (progress.last.processor = q ∨ progress.last.processor = q.resume?.getD q)

private theorem grant_asked (hg : Grant r steps r') : Asked r steps := by
  unfold Asked
  cases hg with
  | free hs =>
    rw [if_neg hs]
  | step hs ho =>
    rw [if_pos hs]
    exact ⟨_, (obey?_eq_some_iff.1 ho).1, rfl⟩

private theorem sequel_asked (hs : Sequel r tick waits progress) :
    AskedAfter r.processor tick waits ∧ (progress.last.processor = r.processor ∨
      progress.last.processor = r.processor.resume?.getD r.processor) := by
  cases hs with
  | quit => exact ⟨⟨_, rfl⟩, Or.inl rfl⟩
  | resume ho =>
    obtain ⟨-, rfl⟩ := obey?_eq_some_iff.1 ho
    exact ⟨⟨_, rfl⟩, Or.inr rfl⟩
  | _ => exact ⟨rfl, Or.inl rfl⟩

private theorem turn_converses (h : Turn r calls progress) : Converses r calls progress := by
  cases h with
  | stopped => exact Or.inl ⟨_, _, rfl, rfl, rfl, Or.inl rfl⟩
  | quit hs => exact Or.inl ⟨_, _, rfl, rfl, rfl, Or.inr ⟨hs, _, rfl⟩⟩
  | held hs ho =>
    obtain ⟨-, rfl⟩ := obey?_eq_some_iff.1 ho
    exact Or.inl ⟨_, _, rfl, rfl, rfl, Or.inr ⟨hs, _, rfl⟩⟩
  | @tick r₁ r₂ r₃ tick steps waits _ hg hd ht hs =>
    obtain ⟨hasked, hlast⟩ := sequel_asked hs
    exact Or.inr ⟨r₂.processor, tick, r₃.processor, r₃.schedule, steps, waits, processor_drawn hg hd,
      (eq_of_tick ht).1, rfl, grant_asked hg, hasked, hlast⟩

private theorem course_converses (hc : Course host r w laps progress w') :
    ∀ lap ∈ laps, Converses lap.before (talk (lap.trace.map Prod.fst)) lap.after := by
  induction hc with
  | cut r w => simp
  | @last r w _ =>
    intro lap' hm
    rw [List.mem_singleton.1 hm]
    exact turn_converses (lap_turn host r w)
  | @next r _ w _ _ _ _ _ ih =>
    intro lap' hm
    obtain rfl | hm := List.mem_cons.1 hm
    · exact turn_converses (lap_turn host r w)
    · exact ih lap' hm

end Courses

/-! ### The protocol -/

/-- The waits of a run take some commands in their order: one that does not find the signal raised takes the first
command that no earlier wait took, or is answered to quit if there is none; any other takes none. -/
def TakesInOrder (host : Host (StateM σ)) (stopped : σ → Bool) (queue : σ → List Command → Prop) (fuel : Nat) (r : Run)
    (w : σ) (commands : List Command) : Prop :=
  ∃ progress w' trace, play host.traced fuel r (w, []) = (progress, (w', trace)) ∧
    queue w' (commands.drop (Trace.taken stopped trace)) ∧
    ∀ before call w₁ after command, trace = before ++ (call, w₁) :: after → call.answer? = some command →
      (stopped w₁ = true → command = .quit ∧ queue w₁ (commands.drop (Trace.taken stopped before))) ∧
      (stopped w₁ = false → command = commands[Trace.taken stopped before]?.getD .quit ∧
        queue w₁ (commands.drop (Trace.taken stopped before + 1)))

private theorem takesInOrder_of_channel {host : Host (StateM σ)} {stopped : σ → Bool}
    {queue : σ → List Command → Prop} {w : σ} {commands : List Command} (hc : host.Channel stopped queue) (fuel : Nat)
    (r : Run) (hq : queue w commands) :
    TakesInOrder host stopped queue fuel r w commands := by
  obtain ⟨trace, h⟩ := exists_play_traced host fuel r w
  obtain ⟨-, htrace, hcourse⟩ := play_course host h
  have hpath := course_path host hcourse
  rw [← htrace] at hpath
  obtain ⟨hend, htakes⟩ := Host.path_takes hc hq hpath
  refine ⟨_, _, trace, h, hend, ?_⟩
  intro before call w₁ after command ht hcall
  obtain ⟨hs, hquit, hq₁⟩ | ⟨hs, hcommand, hq₁⟩ := htakes before call w₁ after command ht hcall
  · refine ⟨fun _ => ⟨hquit, hq₁⟩, fun hs' => ?_⟩
    rw [hs] at hs'
    cases hs'
  · refine ⟨fun hs' => ?_, fun _ => ⟨?_, ?_⟩⟩
    · rw [hs] at hs'
      cases hs'
    · rw [hcommand, List.getElem?_drop]
      rfl
    · rw [← List.drop_drop]
      exact hq₁

/-- The conversation of a run.

In any surroundings, a run has a trace that is the trace of its laps, one for each cycle.  A lap makes no tick and is
the last one, or it makes one tick of the processor, which is shown once: if the run was stepwise, one step was asked
for just before and was not refused, and if the tick is a breakpoint, the command to resume is asked for once just
after it; nothing else is asked.  Every call is made under the schedule in force, which is the first one until a
stepwise run is told to continue, and free with its pace from then on; the run counts the lines that were shown.

Commands that were given beforehand are taken in their order, in any surroundings that get a channel for their waits
and in the scripted world. -/
theorem play_protocol (fuel : Nat) (r : Run) :
    (∀ {σ : Type} (host : Host (StateM σ)) (w : σ), ∃ progress w' trace,
      play host fuel r w = (progress, w') ∧ play host.traced fuel r (w, []) = (progress, (w', trace)) ∧
      trace = (laps host fuel r.start w).flatMap Lap.trace ∧
      (∀ before lap after, laps host fuel r.start w = before ++ lap :: after →
        lap.before.schedule = r.schedule.inForce r.continuePace (callsOf before) ∧
          Converses lap.before (talk (lap.trace.map Prod.fst)) lap.after) ∧
      r.schedule.Heeds r.continuePace (trace.map Prod.fst) ∧
      progress.last.schedule = r.schedule.inForce r.continuePace (trace.map Prod.fst) ∧
      progress.last.ticks = (lines (trace.map Prod.fst)).length) ∧
    (∀ {σ : Type} (host : Host (StateM σ)) (stopped : σ → Bool) (idle : StateM σ Unit) (w : σ)
        (commands : List Command), host.Signal stopped →
      TakesInOrder (host.commanded idle) (fun w => stopped w.1) (fun w left => w.2 = left) fuel r (w, commands)
        commands) ∧
    ∀ (w : Rehearsal) (commands : List Command), w.HasLeft commands →
      TakesInOrder Rehearsal.host Rehearsal.isStopped Rehearsal.HasLeft fuel r w commands := by
  refine ⟨?_, ?_, ?_⟩
  · intro σ host w
    obtain ⟨trace, h⟩ := exists_play_traced host fuel r w
    obtain ⟨-, htrace, hc⟩ := play_course host h
    obtain ⟨hheeds, hschedule, hbefore⟩ := course_heeds hc
    have hcount := course_count hc
    refine ⟨_, _, trace, rfl, h, htrace, ?_, ?_, ?_, ?_⟩
    · intro before lap after hl
      refine ⟨hbefore before lap after hl, course_converses hc lap ?_⟩
      rw [hl]
      exact List.mem_append_right _ List.mem_cons_self
    · rw [htrace]
      exact hheeds
    · rw [htrace]
      exact hschedule
    · rw [htrace]
      exact hcount.trans (Nat.zero_add _)
  · intro σ host stopped idle w commands hs
    exact takesInOrder_of_channel (Host.commanded_channel hs idle) fuel r rfl
  · intro w commands hw
    exact takesInOrder_of_channel Rehearsal.channel fuel r hw

/-- Two commands for a stepwise run in the scripted world, from a channel and from its own operator. -/
theorem play_protocol_of_two_commands :
    Rehearsal.host.Signal Rehearsal.isStopped ∧
      TakesInOrder (Rehearsal.host.commanded (pure ())) (fun w => w.1.isStopped) (fun w left => w.2 = left) 2
        (ofProcessor (.ofMemory (.blank .preserve)) .stepwise .unlimited none)
        (.ofScript .automatic { atTick := none, atWait := none, after := none } false [], [.step, .quit])
        [.step, .quit] ∧
      TakesInOrder Rehearsal.host Rehearsal.isStopped Rehearsal.HasLeft 2
        (ofProcessor (.ofMemory (.blank .preserve)) .stepwise .unlimited none)
        (.ofScript (.scripted [.step, .quit] false) { atTick := none, atWait := none, after := none } false [])
        [.step, .quit] := by
  obtain ⟨-, hchannel, hscripted⟩ :=
    play_protocol 2 (ofProcessor (.ofMemory (.blank .preserve)) .stepwise .unlimited none)
  exact ⟨Rehearsal.signal, hchannel Rehearsal.host Rehearsal.isStopped (pure ()) _ _ Rehearsal.signal,
    hscripted _ _ ⟨false, rfl⟩⟩

end Run

end Mos6502
