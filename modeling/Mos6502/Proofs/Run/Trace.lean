import Mos6502.Proofs.Run.Command
import Mos6502.Proofs.Run.Simulation

/-!
# Traces of runs

A trace is all that a run asks of its surroundings, call by call, with the answers and the world after each call.
Keeping a trace does not change a run (`exists_play_traced`).

The inductive predicates `DelayTrace`, `DrawTrace`, `SettleTrace`, `AdvanceTrace` and `CycleTrace` list what the parts
of a cycle can ask and what they lead to; `cycle_traces` shows that a cycle does nothing else.  A run is a course of
laps, one for each cycle (`laps`, `Course`), and what holds of its trace is proved by cases of the predicates and by
induction along the course.
-/

namespace Mos6502

/-- One call of a run to its surroundings, with what it showed and what it was answered. -/
inductive Call where
  | look (raised : Bool)
  | step (processor : Processor) (answer : Command)
  | resume (processor : Processor) (answer : Command)
  | observe (processor : Processor) (tick : Tick) (schedule : Schedule)
  | pause (nanoseconds : Nat)
  | random (byte : UInt8)

/-- Calls, each with the world after it. -/
abbrev Trace (σ : Type) := List (Call × σ)

variable {σ α β : Type}

namespace Host

variable (host : Host (StateM σ))

/-- An action whose call is added to a trace. -/
def note (x : StateM σ α) (call : α → Call) : StateM (σ × Trace σ) α :=
  fun (w, trace) =>
    let (a, w) := x w
    (a, (w, trace ++ [(call a, w)]))

/-- The same surroundings with a trace of all calls. -/
def traced : Host (StateM (σ × Trace σ)) where
  isStopped := note host.isStopped .look
  waitForStep p := note (host.waitForStep p) (.step p)
  waitForResume p := note (host.waitForResume p) (.resume p)
  observe p tick schedule := note (host.observe p tick schedule) fun _ => .observe p tick schedule
  pause nanoseconds := note (host.pause nanoseconds) fun _ => .pause nanoseconds
  randomByte := note host.randomByte .random

/-- Whether the surroundings give the answer of a call in one world and leave another. -/
def Answers (w : σ) : Call → σ → Prop
  | .look raised, w' => host.isStopped w = (raised, w')
  | .step p command, w' => host.waitForStep p w = (command, w')
  | .resume p command, w' => host.waitForResume p w = (command, w')
  | .observe p tick schedule, w' => host.observe p tick schedule w = ((), w')
  | .pause nanoseconds, w' => host.pause nanoseconds w = ((), w')
  | .random byte, w' => host.randomByte w = (byte, w')

/-- A trace that the surroundings answer from one world to another. -/
inductive Path : σ → Trace σ → σ → Prop where
  | nil (w : σ) : Path w [] w
  | cons {w w₁ w₂ : σ} {call : Call} {trace : Trace σ} :
    host.Answers w call w₁ → Path w₁ trace w₂ → Path w ((call, w₁) :: trace) w₂

variable {host}

theorem path_cons_iff {w w₁ w₂ : σ} {call : Call} {trace : Trace σ} :
    host.Path w ((call, w₁) :: trace) w₂ ↔ host.Answers w call w₁ ∧ host.Path w₁ trace w₂ := by
  constructor
  · intro h
    cases h with
    | cons ha ht => exact ⟨ha, ht⟩
  · rintro ⟨ha, ht⟩
    exact Path.cons ha ht

theorem path_nil_iff {w w' : σ} : host.Path w [] w' ↔ w = w' := by
  constructor
  · intro h
    cases h
    rfl
  · rintro rfl
    exact Path.nil w

theorem path_append_iff {w w₂ : σ} {trace trace' : Trace σ} :
    host.Path w (trace ++ trace') w₂ ↔ ∃ w₁, host.Path w trace w₁ ∧ host.Path w₁ trace' w₂ := by
  induction trace generalizing w with
  | nil => simp [path_nil_iff]
  | cons e trace ih =>
    obtain ⟨call, w₁⟩ := e
    simp [path_cons_iff, ih, and_assoc]

end Host

/-! ### What an action asks -/

/-- Whatever the world, an action adds to the trace calls that its surroundings answer, and these stand in a relation to
its result. -/
def Traces (host : Host (StateM σ)) (x : StateM (σ × Trace σ) α) (rel : Trace σ → α → Prop) : Prop :=
  ∀ w trace, ∃ trace', (x (w, trace)).2.2 = trace ++ trace' ∧ host.Path w trace' (x (w, trace)).2.1 ∧
    rel trace' (x (w, trace)).1

namespace Traces

variable {host : Host (StateM σ)} {rel : Trace σ → α → Prop} {rel' : Trace σ → β → Prop}

theorem pure {value : α} (h : rel [] value) : Traces host (Pure.pure value) rel := by
  intro w trace
  exact ⟨[], (List.append_nil trace).symm, Host.Path.nil w, h⟩

theorem bind {x : StateM (σ × Trace σ) α} {f : α → StateM (σ × Trace σ) β} (hx : Traces host x rel)
    (hf : ∀ a trace, rel trace a → Traces host (f a) fun trace' => rel' (trace ++ trace')) :
    Traces host (x >>= f) rel' := by
  intro w trace
  obtain ⟨t₁, he₁, hp₁, hr₁⟩ := hx w trace
  obtain ⟨t₂, he₂, hp₂, hr₂⟩ := hf _ _ hr₁ (x (w, trace)).2.1 (x (w, trace)).2.2
  refine ⟨t₁ ++ t₂, ?_, Host.path_append_iff.2 ⟨_, hp₁, hp₂⟩, hr₂⟩
  rw [bind_state, ← List.append_assoc, ← he₁]
  exact he₂

theorem map {x : StateM (σ × Trace σ) α} {f : α → β} (hx : Traces host x fun trace a => rel' trace (f a)) :
    Traces host (f <$> x) rel' :=
  hx

theorem mono {x : StateM (σ × Trace σ) α} {rel'' : Trace σ → α → Prop} (hx : Traces host x rel)
    (h : ∀ trace a, rel trace a → rel'' trace a) : Traces host x rel'' := by
  intro w trace
  obtain ⟨trace', he, hp, hr⟩ := hx w trace
  exact ⟨trace', he, hp, h _ _ hr⟩

/-- A single call. -/
theorem note {x : StateM σ α} {call : α → Call} (h : ∀ w, host.Answers w (call (x w).1) (x w).2) :
    Traces host (Host.note x call) fun trace a => ∃ w, trace = [(call a, w)] := by
  intro w trace
  exact ⟨_, rfl, Host.Path.cons (h w) (Host.Path.nil _), _, rfl⟩

end Traces

namespace Run

/-! ### The parts of a cycle -/

/-- The calls of a delay, and whether it passed without the stop signal. -/
inductive DelayTrace : Nat → Trace σ → Bool → Prop where
  | passed {raised : Bool} {w : σ} : DelayTrace 0 [(.look raised, w)] (!raised)
  | cut {remaining : Nat} {w : σ} (h : remaining ≠ 0) : DelayTrace remaining [(.look true, w)] false
  | slice {remaining : Nat} {w w' : σ} {trace : Trace σ} {passed : Bool} (h : remaining ≠ 0)
      (rest : DelayTrace (remaining - nextPause remaining) trace passed) :
    DelayTrace remaining ((.look false, w) :: (.pause (nextPause remaining), w') :: trace) passed

/-- The random byte that is drawn before a tick, and the run with it. -/
inductive DrawTrace : Run → Trace σ → Run → Prop where
  | nothing {r : Run} (h : r.randomAddress = none ∨ r.processor.peek? = none) : DrawTrace r [] r
  | byte {r : Run} {address : UInt16} {byte : UInt8} {w : σ} (h : r.randomAddress = some address)
      (hp : r.processor.peek?.isSome = true) : DrawTrace r [(.random byte, w)] (r.poke address byte)

/-- The end of a run that is told to quit while the signal is raised or not. -/
def quitReason (raised : Bool) : RunEnd :=
  if raised then .stopped else .quit

/-- The calls after a tick, and what they lead to. -/
inductive SettleTrace : Run → Tick → Trace σ → Progress → Prop where
  | endOfProgram {r : Run} {address : UInt16} : SettleTrace r (.endOfProgram address) [] (.over r .endOfProgram)
  | inactive {r : Run} {activity : Activity} : SettleTrace r (.inactive activity) [] (.over r .stopped)
  | quit {r : Run} {line : TraceLine} {raised : Bool} {w w' : σ} :
    SettleTrace r (.breakpoint line) [(.resume r.processor .quit, w), (.look raised, w')] (.over r (quitReason raised))
  | resume {r r' : Run} {line : TraceLine} {command : Command} {w : σ} (h : r.obey? command = some r') :
    SettleTrace r (.breakpoint line) [(.resume r.processor command, w)] (.going r'.resume)
  | passed {r : Run} {line : TraceLine} {nanoseconds : Nat} {trace : Trace σ}
      (hs : r.schedule = .free (.every nanoseconds)) (h : DelayTrace nanoseconds trace true) :
    SettleTrace r (.executed line) trace (.going r)
  | cut {r : Run} {line : TraceLine} {nanoseconds : Nat} {trace : Trace σ}
      (hs : r.schedule = .free (.every nanoseconds)) (h : DelayTrace nanoseconds trace false) :
    SettleTrace r (.executed line) trace (.over r .stopped)
  | atOnce {r : Run} {line : TraceLine} (hs : ∀ nanoseconds, r.schedule ≠ .free (.every nanoseconds)) :
    SettleTrace r (.executed line) [] (.going r)

/-- The calls around a tick, and what they lead to. -/
inductive AdvanceTrace : Run → Trace σ → Progress → Prop where
  | tick {r r₁ r₂ : Run} {tick : Tick} {draw trace : Trace σ} {w : σ} {progress : Progress}
      (hd : DrawTrace r draw r₁) (ht : r₁.tick = .ok tick r₂) (hs : SettleTrace r₂ tick trace progress) :
    AdvanceTrace r (draw ++ (.observe r₂.processor tick r₂.schedule, w) :: trace) progress

/-- The calls of a cycle, and what they lead to. -/
inductive CycleTrace : Run → Trace σ → Progress → Prop where
  | stopped {r : Run} {w : σ} : CycleTrace r [(.look true, w)] (.over r .stopped)
  | quit {r : Run} {raised : Bool} {w w₁ w₂ : σ} (hs : r.schedule = .stepwise) :
    CycleTrace r [(.look false, w), (.step r.processor .quit, w₁), (.look raised, w₂)] (.over r (quitReason raised))
  | held {r r' : Run} {command : Command} {w w₁ w₂ : σ} (hs : r.schedule = .stepwise)
      (ho : r.obey? command = some r') :
    CycleTrace r [(.look false, w), (.step r.processor command, w₁), (.look true, w₂)] (.over r' .stopped)
  | step {r r' : Run} {command : Command} {w w₁ w₂ : σ} {trace : Trace σ} {progress : Progress}
      (hs : r.schedule = .stepwise) (ho : r.obey? command = some r') (ha : AdvanceTrace r' trace progress) :
    CycleTrace r ((.look false, w) :: (.step r.processor command, w₁) :: (.look false, w₂) :: trace) progress
  | free {r : Run} {w : σ} {trace : Trace σ} {progress : Progress} (hs : r.schedule ≠ .stepwise)
      (ha : AdvanceTrace r trace progress) : CycleTrace r ((.look false, w) :: trace) progress

variable (host : Host (StateM σ))

private theorem look_traces : Traces host host.traced.isStopped fun trace raised => ∃ w, trace = [(.look raised, w)] :=
  Traces.note fun _ => rfl

private theorem step_traces (p : Processor) :
    Traces host (host.traced.waitForStep p) fun trace command => ∃ w, trace = [(.step p command, w)] :=
  Traces.note fun _ => rfl

private theorem resume_traces (p : Processor) :
    Traces host (host.traced.waitForResume p) fun trace command => ∃ w, trace = [(.resume p command, w)] :=
  Traces.note fun _ => rfl

private theorem observe_traces (p : Processor) (tick : Tick) (schedule : Schedule) :
    Traces host (host.traced.observe p tick schedule) fun trace _ => ∃ w, trace = [(.observe p tick schedule, w)] :=
  Traces.note fun _ => rfl

private theorem pause_traces (nanoseconds : Nat) :
    Traces host (host.traced.pause nanoseconds) fun trace _ => ∃ w, trace = [(.pause nanoseconds, w)] :=
  Traces.note fun _ => rfl

private theorem random_traces :
    Traces host host.traced.randomByte fun trace byte => ∃ w, trace = [(.random byte, w)] :=
  Traces.note fun _ => rfl

theorem delay_traces (remaining : Nat) : Traces host (delay host.traced remaining) (DelayTrace remaining) := by
  induction remaining using Nat.strongRecOn with
  | ind remaining ih =>
    unfold delay
    split
    · rename_i hz
      subst hz
      refine ((look_traces host).mono ?_).map
      rintro _ raised ⟨w, rfl⟩
      exact DelayTrace.passed
    · rename_i hne
      refine (look_traces host).bind ?_
      rintro raised _ ⟨w, rfl⟩
      cases raised with
      | true => exact Traces.pure (DelayTrace.cut hne)
      | false =>
        refine (pause_traces host _).bind ?_
        rintro _ _ ⟨w', rfl⟩
        exact (ih _ (sub_nextPause_lt hne)).mono fun trace passed h => DelayTrace.slice hne h

private theorem quit_traces (r : Run) :
    Traces host (quit host.traced r) fun trace progress =>
      ∃ raised w, trace = [(.look raised, w)] ∧ progress = .over r (quitReason raised) := by
  refine (look_traces host).bind ?_
  rintro raised _ ⟨w, rfl⟩
  exact Traces.pure ⟨raised, w, rfl, rfl⟩

private theorem randomize_traces (r : Run) : Traces host (randomize host.traced r) (DrawTrace r) := by
  unfold randomize
  split
  · rename_i hn
    exact Traces.pure (DrawTrace.nothing (Or.inl hn))
  · rename_i address ha
    split
    · rename_i hp
      refine ((random_traces host).mono ?_).map
      rintro _ byte ⟨w, rfl⟩
      exact DrawTrace.byte ha hp
    · rename_i hp
      exact Traces.pure (DrawTrace.nothing (Or.inr (by simpa using hp)))

private theorem settle_traces (r : Run) (tick : Tick) :
    Traces host (settle host.traced r tick) (SettleTrace r tick) := by
  unfold settle
  cases tick with
  | endOfProgram address => exact Traces.pure SettleTrace.endOfProgram
  | inactive activity => exact Traces.pure SettleTrace.inactive
  | breakpoint line =>
    refine (resume_traces host _).bind ?_
    rintro command _ ⟨w, rfl⟩
    cases ho : r.obey? command with
    | some r' => exact Traces.pure (SettleTrace.resume ho)
    | none =>
      rw [eq_quit_of_obey? ho]
      refine (quit_traces host r).mono ?_
      rintro _ _ ⟨raised, w', rfl, rfl⟩
      exact SettleTrace.quit
  | executed line =>
    dsimp only
    split
    · rename_i nanoseconds hs
      refine (delay_traces host _).bind ?_
      rintro passed trace hd
      cases passed with
      | true => exact Traces.pure (by simpa using SettleTrace.passed hs hd)
      | false => exact Traces.pure (by simpa using SettleTrace.cut hs hd)
    · rename_i hs
      exact Traces.pure (SettleTrace.atOnce hs)

private theorem advance_traces (r : Run) : Traces host (advance host.traced r) (AdvanceTrace r) := by
  refine (randomize_traces host r).bind ?_
  intro r₁ draw hd
  have ht := tick_eq_ok r₁
  rw [ht]
  refine (observe_traces host _ _ _).bind ?_
  rintro _ _ ⟨w, rfl⟩
  refine (settle_traces host _ _).mono ?_
  intro trace progress hs
  exact AdvanceTrace.tick hd ht hs

/-- All that a cycle can ask, and what it leads to. -/
theorem cycle_traces (r : Run) : Traces host (cycle host.traced r) (CycleTrace r) := by
  refine (look_traces host).bind ?_
  rintro raised _ ⟨w, rfl⟩
  cases raised with
  | true => exact Traces.pure CycleTrace.stopped
  | false =>
    by_cases hs : r.schedule = .stepwise
    · rw [if_neg Bool.false_ne_true, if_pos hs]
      refine (step_traces host _).bind ?_
      rintro command _ ⟨w₁, rfl⟩
      cases ho : r.obey? command with
      | none =>
        rw [eq_quit_of_obey? ho]
        refine (quit_traces host r).mono ?_
        rintro _ _ ⟨raised, w₂, rfl, rfl⟩
        exact CycleTrace.quit hs
      | some r' =>
        refine (look_traces host).bind ?_
        rintro raised _ ⟨w₂, rfl⟩
        cases raised with
        | true => exact Traces.pure (CycleTrace.held hs ho)
        | false => exact (advance_traces host r').mono fun trace progress ha => CycleTrace.step hs ho ha
    · rw [if_neg Bool.false_ne_true, if_neg hs]
      exact (advance_traces host r).mono fun trace progress ha => CycleTrace.free hs ha

/-! ### Courses -/

/-- One cycle of a run, with its trace. -/
structure Lap (σ : Type) where
  before : Run
  trace : Trace σ
  after : Progress
  /-- The world after the cycle. -/
  world : σ

/-- The cycle that a run makes in a world. -/
def lap (r : Run) (w : σ) : Lap σ :=
  let (progress, (w, trace)) := cycle host.traced r (w, [])
  { before := r, trace, after := progress, world := w }

/-- The cycles of a run, `fuel` at most. -/
def laps : Nat → Run → σ → List (Lap σ)
  | 0, _, _ => []
  | fuel + 1, r, w =>
    lap host r w :: match (lap host r w).after with
      | .going r' => laps fuel r' (lap host r w).world
      | _ => []

theorem lap_trace (r : Run) (w : σ) :
    CycleTrace r (lap host r w).trace (lap host r w).after ∧
      host.Path w (lap host r w).trace (lap host r w).world := by
  obtain ⟨trace, he, hp, hr⟩ := cycle_traces host r w []
  have ht : (lap host r w).trace = trace := he
  rw [ht]
  exact ⟨hr, hp⟩

private theorem note_append (x : StateM σ α) (call : α → Call) (trace : Trace σ) :
    Alike (fun (s s' : σ × Trace σ) => s.1 = s'.1 ∧ s.2 = trace ++ s'.2) (Host.note x call) (Host.note x call) := by
  rintro ⟨w, _⟩ ⟨v, trace'⟩ ⟨hw, ht⟩
  dsimp only at hw ht
  subst hw ht
  exact ⟨rfl, rfl, List.append_assoc _ _ _⟩

/-- What the trace was before a cycle does not matter to it. -/
theorem cycle_traced (r : Run) (w : σ) (trace : Trace σ) :
    cycle host.traced r (w, trace) =
      ((lap host r w).after, ((lap host r w).world, trace ++ (lap host r w).trace)) := by
  have h : Host.Alike (fun (s s' : σ × Trace σ) => s.1 = s'.1 ∧ s.2 = trace ++ s'.2) host.traced host.traced :=
    ⟨note_append _ _ _, fun _ => note_append _ _ _, fun _ => note_append _ _ _, fun _ _ _ => note_append _ _ _,
      fun _ => note_append _ _ _, note_append _ _ _⟩
  obtain ⟨hp, hw, ht⟩ := cycle_alike h r (w, trace) (w, []) ⟨rfl, (List.append_nil trace).symm⟩
  exact Prod.ext hp (Prod.ext hw ht)

/-- The laps of a run from a world on, and what they lead to. -/
inductive Course : Run → σ → List (Lap σ) → Progress → σ → Prop where
  | cut (r : Run) (w : σ) : Course r w [] (.going r) w
  | last {r : Run} {w : σ} (h : ∀ r', (lap host r w).after ≠ .going r') :
    Course r w [lap host r w] (lap host r w).after (lap host r w).world
  | next {r r' : Run} {w w' : σ} {laps : List (Lap σ)} {progress : Progress} (h : (lap host r w).after = .going r')
      (rest : Course r' (lap host r w).world laps progress w') : Course r w (lap host r w :: laps) progress w'

theorem course_path {r : Run} {w w' : σ} {laps : List (Lap σ)} {progress : Progress}
    (hc : Course host r w laps progress w') : host.Path w (laps.flatMap Lap.trace) w' := by
  induction hc with
  | cut r w => exact Host.Path.nil w
  | last _ =>
    rw [List.flatMap_singleton]
    exact (lap_trace host _ _).2
  | next _ _ ih =>
    rw [List.flatMap_cons]
    exact Host.path_append_iff.2 ⟨_, (lap_trace host _ _).2, ih⟩

private theorem cycles_course (fuel : Nat) (r : Run) (w : σ) (trace : Trace σ) :
    ∃ progress w', Course host r w (laps host fuel r w) progress w' ∧
      cycles host.traced fuel r (w, trace) = (progress, (w', trace ++ (laps host fuel r w).flatMap Lap.trace)) := by
  induction fuel generalizing r w trace with
  | zero => exact ⟨_, _, Course.cut r w, by simp [cycles, laps, pure_state]⟩
  | succ fuel ih =>
    unfold cycles laps
    rw [bind_state, cycle_traced]
    dsimp only
    cases hafter : (lap host r w).after with
    | going r' =>
      obtain ⟨progress, w', hc, he⟩ := ih r' (lap host r w).world (trace ++ (lap host r w).trace)
      refine ⟨progress, w', Course.next hafter hc, ?_⟩
      show cycles host.traced fuel r' _ = _
      rw [he, List.flatMap_cons, List.append_assoc]
    | «over» r' reason =>
      refine ⟨_, _, hafter ▸ Course.last (by simp [hafter]), ?_⟩
      simp [pure_state]
    | failed r' e =>
      refine ⟨_, _, hafter ▸ Course.last (by simp [hafter]), ?_⟩
      simp [pure_state]

/-- A run makes its laps and asks what they ask, and the trace changes nothing. -/
theorem play_course {fuel : Nat} {r : Run} {w w' : σ} {progress : Progress} {trace : Trace σ}
    (h : play host.traced fuel r (w, []) = (progress, (w', trace))) :
    play host fuel r w = (progress, w') ∧ trace = (laps host fuel r.start w).flatMap Lap.trace ∧
      Course host r.start w (laps host fuel r.start w) progress w' := by
  have hshadow : Host.Alike (fun (s : σ × Trace σ) v => s.1 = v) host.traced host := by
    refine ⟨?_, fun p => ?_, fun p => ?_, fun p tick schedule => ?_, fun nanoseconds => ?_, ?_⟩ <;>
      exact fun _ _ hw => hw ▸ ⟨rfl, rfl⟩
  obtain ⟨hp, hw⟩ := play_alike hshadow fuel r (w, []) w rfl
  obtain ⟨progress', v, hc, he⟩ := cycles_course host fuel r.start w []
  unfold play at h hp hw ⊢
  rw [h] at hp hw
  rw [he] at h
  cases h
  exact ⟨Prod.ext hp.symm hw.symm, rfl, hc⟩

/-- Every run has a trace. -/
theorem exists_play_traced (fuel : Nat) (r : Run) (w : σ) :
    ∃ trace, play host.traced fuel r (w, []) = ((play host fuel r w).1, ((play host fuel r w).2, trace)) := by
  have h : play host.traced fuel r (w, []) = ((play host.traced fuel r (w, [])).1,
      ((play host.traced fuel r (w, [])).2.1, (play host.traced fuel r (w, [])).2.2)) := rfl
  rw [(play_course host h).1]
  exact ⟨_, h⟩

end Run

end Mos6502
