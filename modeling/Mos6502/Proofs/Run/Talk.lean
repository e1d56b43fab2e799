import Mos6502.Proofs.Processor.Tick
import Mos6502.Proofs.Run.Trace

/-!
# What a cycle says

Without the looks at the stop signal, the pauses and the random bytes, a cycle is a turn of a conversation (`Turn`): the
step that was granted, the tick that was shown, and the command at a breakpoint.  The turns of a run count its
instructions, and they tell whether its processor was running.
-/

namespace Mos6502

namespace Call

/-- Whether a call is a wait or shows a tick. -/
def isTalk : Call → Bool
  | .step _ _ | .resume _ _ | .observe _ _ _ => true
  | .look _ | .pause _ | .random _ => false

/-- The tick that a call shows. -/
def tick? : Call → Option Tick
  | .observe _ tick _ => some tick
  | _ => none

/-- The answer to a wait. -/
def answer? : Call → Option Command
  | .step _ command | .resume _ command => some command
  | _ => none

/-- The waits and the ticks among some calls. -/
def talk (calls : List Call) : List Call :=
  calls.filter isTalk

/-- The ticks that some calls show. -/
def shown (calls : List Call) : List Tick :=
  calls.filterMap tick?

/-- The lines that some calls show. -/
def lines (calls : List Call) : List TraceLine :=
  (shown calls).filterMap Tick.line?

theorem talk_append (calls calls' : List Call) : talk (calls ++ calls') = talk calls ++ talk calls' :=
  List.filter_append ..

theorem shown_append (calls calls' : List Call) : shown (calls ++ calls') = shown calls ++ shown calls' :=
  List.filterMap_append

theorem lines_append (calls calls' : List Call) : lines (calls ++ calls') = lines calls ++ lines calls' := by
  unfold lines
  rw [shown_append, List.filterMap_append]

theorem shown_talk (calls : List Call) : shown (talk calls) = shown calls := by
  unfold shown talk
  rw [List.filterMap_filter]
  congr 1
  funext call
  cases call <;> rfl

theorem lines_talk (calls : List Call) : lines (talk calls) = lines calls := by
  unfold lines
  rw [shown_talk]

end Call

namespace Run

open Call

variable {σ : Type} {r r' r₁ r₂ : Run} {tick : Tick} {calls steps waits : List Call} {trace : Trace σ}
  {progress : Progress}

/-! ### Turns -/

/-- What is asked before a tick, and the run that makes it. -/
inductive Grant : Run → List Call → Run → Prop where
  | free {r : Run} (hs : r.schedule ≠ .stepwise) : Grant r [] r
  | step {r r' : Run} {command : Command} (hs : r.schedule = .stepwise) (ho : r.obey? command = some r') :
    Grant r [.step r.processor command] r'

/-- The run itself, or with a byte stored at its random address. -/
def Drawn (r r' : Run) : Prop :=
  r' = r ∨ ∃ address byte, r.randomAddress = some address ∧ r' = r.poke address byte

/-- What is asked after a tick, and what it leads to. -/
inductive Sequel : Run → Tick → List Call → Progress → Prop where
  | endOfProgram {r : Run} {address : UInt16} : Sequel r (.endOfProgram address) [] (.over r .endOfProgram)
  | inactive {r : Run} {activity : Activity} : Sequel r (.inactive activity) [] (.over r .stopped)
  | quit {r : Run} {line : TraceLine} {reason : RunEnd} :
    Sequel r (.breakpoint line) [.resume r.processor .quit] (.over r reason)
  | resume {r r' : Run} {line : TraceLine} {command : Command} (ho : r.obey? command = some r') :
    Sequel r (.breakpoint line) [.resume r.processor command] (.going r'.resume)
  | next {r : Run} {line : TraceLine} : Sequel r (.executed line) [] (.going r)
  | cut {r : Run} {line : TraceLine} : Sequel r (.executed line) [] (.over r .stopped)

/-- What a cycle says, and what it leads to. -/
inductive Turn : Run → List Call → Progress → Prop where
  | stopped {r : Run} : Turn r [] (.over r .stopped)
  | quit {r : Run} {reason : RunEnd} (hs : r.schedule = .stepwise) :
    Turn r [.step r.processor .quit] (.over r reason)
  | held {r r' : Run} {command : Command} (hs : r.schedule = .stepwise) (ho : r.obey? command = some r') :
    Turn r [.step r.processor command] (.over r' .stopped)
  | tick {r r₁ r₂ r₃ : Run} {tick : Tick} {steps waits : List Call} {progress : Progress} (hg : Grant r steps r₁)
      (hd : Drawn r₁ r₂) (ht : r₂.tick = .ok tick r₃) (hs : Sequel r₃ tick waits progress) :
    Turn r (steps ++ .observe r₃.processor tick r₃.schedule :: waits) progress

theorem delay_talk {remaining : Nat} {passed : Bool} (hd : DelayTrace remaining trace passed) :
    talk (trace.map Prod.fst) = [] := by
  induction hd with
  | passed => rfl
  | cut _ => rfl
  | slice _ _ ih => exact ih

theorem draw_talk (hd : DrawTrace r trace r') : talk (trace.map Prod.fst) = [] ∧ Drawn r r' := by
  cases hd with
  | nothing _ => exact ⟨rfl, Or.inl rfl⟩
  | byte ha _ => exact ⟨rfl, Or.inr ⟨_, _, ha, rfl⟩⟩

private theorem settle_sequel (hs : SettleTrace r tick trace progress) :
    Sequel r tick (talk (trace.map Prod.fst)) progress := by
  cases hs with
  | endOfProgram => exact Sequel.endOfProgram
  | inactive => exact Sequel.inactive
  | quit => exact Sequel.quit
  | resume ho => exact Sequel.resume ho
  | passed _ hd =>
    rw [delay_talk hd]
    exact Sequel.next
  | cut _ hd =>
    rw [delay_talk hd]
    exact Sequel.cut
  | atOnce _ => exact Sequel.next

private theorem advance_turn (hg : Grant r steps r') (ha : AdvanceTrace r' trace progress) :
    Turn r (steps ++ talk (trace.map Prod.fst)) progress := by
  cases ha with
  | tick hd ht hs =>
    obtain ⟨hnil, hdrawn⟩ := draw_talk hd
    rw [List.map_append, talk_append, hnil]
    exact Turn.tick hg hdrawn ht (settle_sequel hs)

/-- A cycle says no more than a turn. -/
theorem cycle_turn (hc : CycleTrace r trace progress) : Turn r (talk (trace.map Prod.fst)) progress := by
  cases hc with
  | stopped => exact Turn.stopped
  | quit hs => exact Turn.quit hs
  | held hs ho => exact Turn.held hs ho
  | step hs ho ha => exact advance_turn (Grant.step hs ho) ha
  | free hs ha => exact advance_turn (Grant.free hs) ha

/-! ### Instructions -/

private theorem grant_frame (hg : Grant r steps r') :
    r'.processor = r.processor ∧ r'.ticks = r.ticks ∧ r'.randomAddress = r.randomAddress ∧ shown steps = [] := by
  cases hg with
  | free _ => exact ⟨rfl, rfl, rfl, rfl⟩
  | step _ ho =>
    obtain ⟨-, rfl⟩ := obey?_eq_some_iff.1 ho
    exact ⟨rfl, rfl, rfl, rfl⟩

/-- The processor that makes the tick of a turn. -/
theorem processor_drawn (hg : Grant r steps r₁) (hd : Drawn r₁ r₂) :
    r₂.processor = r.processor ∨ ∃ address byte, r.randomAddress = some address ∧
      r₂.processor = (r.poke address byte).processor := by
  obtain ⟨hp, -, ha, -⟩ := grant_frame hg
  obtain rfl | ⟨address, byte, hr, rfl⟩ := hd
  · exact Or.inl hp
  · refine Or.inr ⟨address, byte, ha ▸ hr, ?_⟩
    unfold poke
    rw [hp]

private theorem activity_drawn (hg : Grant r steps r₁) (hd : Drawn r₁ r₂) :
    r₂.processor.activity = r.processor.activity := by
  obtain h | ⟨address, byte, -, h⟩ := processor_drawn hg hd
  · rw [h]
  · rw [h]
    rfl

private theorem ticks_drawn (hg : Grant r steps r₁) (hd : Drawn r₁ r₂) : r₂.ticks = r.ticks := by
  rw [← (grant_frame hg).2.1]
  obtain rfl | ⟨address, byte, -, rfl⟩ := hd <;> rfl

private theorem sequel_frame (hs : Sequel r tick waits progress) :
    progress.last.ticks = r.ticks ∧ shown waits = [] := by
  cases hs with
  | resume ho =>
    obtain ⟨-, rfl⟩ := obey?_eq_some_iff.1 ho
    exact ⟨rfl, rfl⟩
  | _ => exact ⟨rfl, rfl⟩

private theorem shown_turn {q : Processor} {schedule : Schedule} (hg : Grant r steps r₁)
    (hs : Sequel r₂ tick waits progress) : shown (steps ++ .observe q tick schedule :: waits) = [tick] := by
  rw [shown_append, (grant_frame hg).2.2.2, List.nil_append]
  show tick :: shown waits = [tick]
  rw [(sequel_frame hs).2]

theorem eq_of_tick (ht : r.tick = .ok tick r') :
    r.processor.tick = .ok tick r'.processor ∧ r'.ticks = r.ticks + tick.line?.toList.length := by
  rw [tick_eq_ok] at ht
  cases ht
  refine ⟨r.processor.tick_eq_ticked, ?_⟩
  cases r.processor.ticked.1 <;> rfl

private theorem tick_running {p q : Processor} (ht : p.tick = .ok tick q) (hr : p.activity = .running) :
    (∀ activity, tick ≠ .inactive activity) ∧ (∀ line, tick = .breakpoint line → q.activity = .breakpoint) ∧
      ∀ line, tick = .executed line → q.activity = .running := by
  obtain ⟨hne, -⟩ | ⟨-, -, ht'⟩ | ⟨line, m, -, -, -, ⟨-, ht'⟩ | ⟨-, ht'⟩⟩ := p.tick_cases
  · exact absurd hr hne
  all_goals
    rw [ht] at ht'
    cases ht'
    simp [hr]

/-- A run counts the lines that it shows. -/
theorem turn_count (h : Turn r calls progress) : progress.last.ticks = r.ticks + (lines calls).length := by
  cases h with
  | stopped => rfl
  | quit _ => rfl
  | held _ ho =>
    obtain ⟨-, rfl⟩ := obey?_eq_some_iff.1 ho
    rfl
  | @tick r₁ r₂ r₃ tick steps waits _ hg hd ht hs =>
    rw [(sequel_frame hs).1, (eq_of_tick ht).2, ticks_drawn hg hd, lines, shown_turn hg hs]
    cases tick <;> rfl

/-- A running processor runs on as long as the run goes on. -/
theorem turn_running (h : Turn r calls progress) (hr : r.processor.activity = .running) :
    (∀ activity, .inactive activity ∉ shown calls) ∧
      ∀ r', progress = .going r' → r'.processor.activity = .running := by
  cases h with
  | stopped => exact ⟨by simp [shown], by simp⟩
  | quit _ => exact ⟨by simp [shown, tick?], by simp⟩
  | held _ _ => exact ⟨by simp [shown, tick?], by simp⟩
  | @tick r₁ r₂ r₃ tick steps waits _ hg hd ht hs =>
    obtain ⟨hne, hgoing⟩ := tick_running (eq_of_tick ht).1 ((activity_drawn hg hd).trans hr)
    rw [shown_turn hg hs]
    refine ⟨fun activity hm => hne activity (List.mem_singleton.1 hm).symm, ?_⟩
    rintro r' rfl
    cases hs with
    | @resume r₄ line command ho =>
      obtain ⟨-, rfl⟩ := obey?_eq_some_iff.1 ho
      show (r₃.processor.resume?.getD r₃.processor).activity = .running
      rw [Processor.resume?_of_breakpoint (hgoing.1 line rfl)]
      rfl
    | @next line => exact hgoing.2 line rfl

/-- A processor that is not running ends the run as it is. -/
theorem turn_inactive (h : Turn r calls progress) (hr : r.processor.activity ≠ .running) :
    lines calls = [] ∧ ∃ r' reason, progress = .over r' reason ∧ (r'.processor = r.processor ∨
      ∃ address byte, r.randomAddress = some address ∧ r'.processor = (r.poke address byte).processor) := by
  cases h with
  | stopped => exact ⟨rfl, _, _, rfl, Or.inl rfl⟩
  | quit _ => exact ⟨rfl, _, _, rfl, Or.inl rfl⟩
  | held _ ho =>
    obtain ⟨-, rfl⟩ := obey?_eq_some_iff.1 ho
    exact ⟨rfl, _, _, rfl, Or.inl rfl⟩
  | @tick r₁ r₂ r₃ tick steps waits _ hg hd ht hs =>
    have hr₂ : r₂.processor.activity ≠ .running := by
      rw [activity_drawn hg hd]
      exact hr
    obtain ⟨rfl, hq⟩ := EStateM.Result.ok.inj ((eq_of_tick ht).1.symm.trans (Processor.tick_inactive hr₂))
    rw [lines, shown_turn hg hs]
    cases hs
    refine ⟨rfl, _, _, rfl, ?_⟩
    rw [hq]
    exact processor_drawn hg hd

/-! ### Courses -/

variable {host : Host (StateM σ)} {w w' : σ} {laps : List (Lap σ)}

/-- The calls of some laps. -/
def callsOf (laps : List (Lap σ)) : List Call :=
  (laps.flatMap Lap.trace).map Prod.fst

theorem callsOf_cons (lap : Lap σ) (laps : List (Lap σ)) :
    callsOf (lap :: laps) = lap.trace.map Prod.fst ++ callsOf laps := by
  unfold callsOf
  rw [List.flatMap_cons, List.map_append]

theorem lap_turn (host : Host (StateM σ)) (r : Run) (w : σ) :
    Turn r (talk ((lap host r w).trace.map Prod.fst)) (lap host r w).after :=
  cycle_turn (lap_trace host r w).1

private theorem lap_count (host : Host (StateM σ)) (r : Run) (w : σ) :
    (lap host r w).after.last.ticks = r.ticks + (lines ((lap host r w).trace.map Prod.fst)).length := by
  rw [← lines_talk]
  exact turn_count (lap_turn host r w)

theorem course_count (hc : Course host r w laps progress w') :
    progress.last.ticks = r.ticks + (lines (callsOf laps)).length := by
  induction hc with
  | cut r w => rfl
  | @last r w _ =>
    rw [callsOf_cons, lines_append, List.length_append, lap_count host r w]
    rfl
  | @next r r' w w' laps progress h rest ih =>
    have hlap := lap_count host r w
    rw [h] at hlap
    rw [ih, callsOf_cons, lines_append, List.length_append, ← Nat.add_assoc, ← hlap]
    rfl

theorem course_running (hc : Course host r w laps progress w') (hr : r.processor.activity = .running) :
    ∀ activity, .inactive activity ∉ shown (callsOf laps) := by
  induction hc with
  | cut r w => simp [callsOf, shown]
  | @last r w _ =>
    obtain ⟨hlap, -⟩ := turn_running (lap_turn host r w) hr
    rw [shown_talk] at hlap
    intro activity hm
    rw [callsOf_cons, shown_append, List.mem_append] at hm
    obtain hm | hm := hm
    · exact hlap activity hm
    · simp [callsOf, shown] at hm
  | @next r r' w w' laps progress h rest ih =>
    obtain ⟨hlap, hgoing⟩ := turn_running (lap_turn host r w) hr
    rw [shown_talk] at hlap
    intro activity hm
    rw [callsOf_cons, shown_append, List.mem_append] at hm
    obtain hm | hm := hm
    · exact hlap activity hm
    · exact ih (hgoing r' h) activity hm

/-- A run whose processor is not running executes nothing. -/
theorem course_inactive (hc : Course host r w laps progress w') (hr : r.processor.activity ≠ .running) :
    lines (callsOf laps) = [] ∧ (progress.last.processor = r.processor ∨
      ∃ address byte, r.randomAddress = some address ∧
        progress.last.processor = (r.poke address byte).processor) := by
  cases hc with
  | cut => exact ⟨rfl, Or.inl rfl⟩
  | last _ =>
    obtain ⟨hlines, r', reason, hafter, hp⟩ := turn_inactive (lap_turn host r w) hr
    rw [lines_talk] at hlines
    rw [callsOf_cons, lines_append, hlines, hafter]
    exact ⟨rfl, hp⟩
  | next h _ =>
    obtain ⟨-, r', reason, hafter, -⟩ := turn_inactive (lap_turn host r w) hr
    rw [hafter] at h
    cases h

end Run

end Mos6502
