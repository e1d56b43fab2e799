import Mos6502.Proofs.Run.Windup

/-!
# Stopping and quitting

The trace of a run that is over tells why (`Ending`): its last call is a look at the raised signal, a look after the
answer to quit, or the observer's call for a tick that executed nothing.  With what follows the stop signal, this is
all there is to the end of a run (`play_stops`).
-/

namespace Mos6502

variable {σ : Type}

namespace Run

open Call

variable {host : Host (StateM σ)} {stopped : σ → Bool} {r r' : Run} {w w' : σ} {trace : Trace σ} {progress : Progress}

/-! ### Why a run is over -/

/-- Every tick that was shown executed an instruction. -/
def AllExecuted (calls : List Call) : Prop :=
  ∀ tick ∈ shown calls, tick.line? ≠ none

/-- The trace of a run that is over, with the reason. -/
inductive Ending : Trace σ → RunEnd → Prop where
  | raised (before : Trace σ) (w : σ) (h : AllExecuted (before.map Prod.fst)) :
    Ending (before ++ [(.look true, w)]) .stopped
  | quit (before : Trace σ) {call : Call} {w w' : σ} (h : AllExecuted (before.map Prod.fst))
      (hq : call.answer? = some .quit) : Ending (before ++ [(call, w), (.look false, w')]) .quit
  | endOfProgram (before : Trace σ) {p : Processor} {address : UInt16} {schedule : Schedule} {w : σ}
      (h : AllExecuted (before.map Prod.fst)) :
    Ending (before ++ [(.observe p (.endOfProgram address) schedule, w)]) .endOfProgram
  | inactive (before : Trace σ) {p : Processor} {activity : Activity} {schedule : Schedule} {w : σ}
      (h : AllExecuted (before.map Prod.fst)) :
    Ending (before ++ [(.observe p (.inactive activity) schedule, w)]) .stopped

/-- What a trace leads to; a run never fails. -/
def Concludes (trace : Trace σ) : Progress → Prop
  | .going _ => AllExecuted (trace.map Prod.fst)
  | .over _ reason => Ending trace reason
  | .failed _ _ => False

private theorem allExecuted_append {calls calls' : List Call} :
    AllExecuted (calls ++ calls') ↔ AllExecuted calls ∧ AllExecuted calls' := by
  simp only [AllExecuted, shown_append, List.forall_mem_append]

private theorem allExecuted_of_shown {calls : List Call} (h : shown calls = []) : AllExecuted calls := by
  intro tick ht
  rw [h] at ht
  cases ht

private theorem allExecuted_of_talk {calls : List Call} (h : talk calls = []) : AllExecuted calls := by
  apply allExecuted_of_shown
  rw [← shown_talk, h]
  rfl

private theorem ending_append (before : Trace σ) {reason : RunEnd} (hb : AllExecuted (before.map Prod.fst))
    (he : Ending trace reason) : Ending (before ++ trace) reason := by
  have happend : ∀ {trace : Trace σ}, AllExecuted (trace.map Prod.fst) →
      AllExecuted ((before ++ trace).map Prod.fst) := by
    intro trace h
    rw [List.map_append]
    exact allExecuted_append.2 ⟨hb, h⟩
  cases he with
  | raised trace w h =>
    rw [← List.append_assoc]
    exact Ending.raised _ w (happend h)
  | quit trace h hq =>
    rw [← List.append_assoc]
    exact Ending.quit _ (happend h) hq
  | endOfProgram trace h =>
    rw [← List.append_assoc]
    exact Ending.endOfProgram _ (happend h)
  | inactive trace h =>
    rw [← List.append_assoc]
    exact Ending.inactive _ (happend h)

private theorem concludes_append (before : Trace σ) (hb : AllExecuted (before.map Prod.fst))
    (hc : Concludes trace progress) : Concludes (before ++ trace) progress := by
  cases progress with
  | going r =>
    unfold Concludes
    rw [List.map_append]
    exact allExecuted_append.2 ⟨hb, hc⟩
  | «over» r reason => exact ending_append before hb hc
  | failed r e => exact hc

private theorem delay_ending {remaining : Nat} {passed : Bool} (hd : DelayTrace remaining trace passed) :
    passed = false → Ending trace .stopped := by
  induction hd with
  | @passed raised w =>
    intro h
    obtain rfl : raised = true := by simpa using h
    exact Ending.raised [] w (allExecuted_of_shown rfl)
  | @cut _ w _ => exact fun _ => Ending.raised [] w (allExecuted_of_shown rfl)
  | @slice _ w w' _ _ _ _ ih =>
    exact fun h => ending_append [(.look false, w), (.pause _, w')] (allExecuted_of_shown rfl) (ih h)

private theorem quit_ending (before : Trace σ) {call : Call} {v v' : σ} (raised : Bool)
    (hb : AllExecuted (before.map Prod.fst)) (hq : call.answer? = some .quit) :
    Ending (before ++ [(call, v), (.look raised, v')]) (quitReason raised) := by
  cases raised with
  | false => exact Ending.quit before hb hq
  | true =>
    rw [List.append_cons]
    refine Ending.raised _ v' ?_
    rw [List.map_append]
    refine allExecuted_append.2 ⟨hb, ?_⟩
    cases call with
    | observe p tick schedule => cases hq
    | _ => exact allExecuted_of_shown rfl

private theorem settle_concludes {p : Processor} {tick : Tick} {schedule : Schedule} {v : σ}
    (hst : SettleTrace r tick trace progress) : Concludes ((.observe p tick schedule, v) :: trace) progress := by
  have hline : ∀ {line : TraceLine}, tick.line? = some line → AllExecuted [.observe p tick schedule] := by
    intro line hl tick' ht
    rw [List.mem_singleton.1 ht, hl]
    simp
  cases hst with
  | endOfProgram => exact Ending.endOfProgram [] (allExecuted_of_shown rfl)
  | inactive => exact Ending.inactive [] (allExecuted_of_shown rfl)
  | @quit line raised => exact quit_ending [_] raised (hline rfl) rfl
  | resume _ => exact allExecuted_append.2 ⟨hline rfl, allExecuted_of_shown rfl⟩
  | passed _ hd => exact allExecuted_append.2 ⟨hline rfl, allExecuted_of_talk (delay_talk hd)⟩
  | cut _ hd => exact ending_append [_] (hline rfl) (delay_ending hd rfl)
  | atOnce _ => exact hline rfl

private theorem advance_concludes (ha : AdvanceTrace r trace progress) : Concludes trace progress := by
  cases ha with
  | tick hd _ hst => exact concludes_append _ (allExecuted_of_talk (draw_talk hd).1) (settle_concludes hst)

private theorem cycle_concludes (hc : CycleTrace r trace progress) : Concludes trace progress := by
  cases hc with
  | @stopped w => exact Ending.raised [] w (allExecuted_of_shown rfl)
  | @quit raised w _ _ _ => exact quit_ending [(.look false, w)] raised (allExecuted_of_shown rfl) rfl
  | @held _ _ w w₁ w₂ _ _ => exact Ending.raised [(.look false, w), (.step _ _, w₁)] w₂ (allExecuted_of_shown rfl)
  | @step _ _ w w₁ w₂ _ _ _ _ ha =>
    exact concludes_append [(.look false, w), (.step _ _, w₁), (.look false, w₂)] (allExecuted_of_shown rfl)
      (advance_concludes ha)
  | @free w _ _ _ ha => exact concludes_append [(.look false, w)] (allExecuted_of_shown rfl) (advance_concludes ha)

theorem course_concludes {laps : List (Lap σ)} (hc : Course host r w laps progress w') :
    Concludes (laps.flatMap Lap.trace) progress := by
  induction hc with
  | cut r w => exact allExecuted_of_shown rfl
  | @last r w _ =>
    rw [List.flatMap_singleton]
    exact cycle_concludes (lap_trace host r w).1
  | @next r r' w w' laps progress h _ ih =>
    have hlap := cycle_concludes (lap_trace host r w).1
    rw [h] at hlap
    rw [List.flatMap_cons]
    exact concludes_append _ hlap ih

private theorem lines_short {calls : List Call} (h : Short calls) : lines calls = [] := by
  obtain rfl | rfl := h <;> rfl

private theorem lines_windup {call : Call} {calls : List Call} (h : Windup call calls) : lines calls = [] := by
  obtain h | ⟨p, line, schedule, command, rest, -, rfl, h⟩ := h
  · exact lines_short h
  · show lines rest = []
    exact lines_short h

private theorem shown_of_answer {call : Call} {command : Command} (h : call.answer? = some command) :
    shown [call] = [] := by
  cases call with
  | observe p tick schedule => cases h
  | _ => rfl

private theorem ending_endOfProgram_iff {reason : RunEnd} (he : Ending trace reason) :
    reason = .endOfProgram ↔ ∃ address, (shown (trace.map Prod.fst)).getLast? = some (.endOfProgram address) := by
  have hexecuted : AllExecuted (trace.map Prod.fst) →
      ¬∃ address, (shown (trace.map Prod.fst)).getLast? = some (.endOfProgram address) := by
    rintro h ⟨address, hl⟩
    exact h _ (List.mem_of_getLast? hl) rfl
  cases he with
  | raised before w h =>
    refine iff_of_false (by decide) (hexecuted ?_)
    rw [List.map_append]
    exact allExecuted_append.2 ⟨h, allExecuted_of_shown rfl⟩
  | quit before h hq =>
    refine iff_of_false (by decide) (hexecuted ?_)
    rw [List.append_cons, List.map_append, List.map_append]
    exact allExecuted_append.2
      ⟨allExecuted_append.2 ⟨h, allExecuted_of_shown (shown_of_answer hq)⟩, allExecuted_of_shown rfl⟩
  | @endOfProgram before p address schedule w h =>
    refine iff_of_true rfl ⟨address, ?_⟩
    rw [List.map_append, shown_append]
    exact List.getLast?_concat
  | inactive before h =>
    refine iff_of_false (by decide) ?_
    rintro ⟨address, hl⟩
    rw [List.map_append, shown_append] at hl
    cases List.getLast?_concat.symm.trans hl

private theorem ending_quit_iff {reason : RunEnd} (hs : host.Signal stopped) (hp : host.Path w trace w')
    (he : Ending trace reason) :
    reason = .quit ↔ ∃ before call w₁ w₂, trace = before ++ [(call, w₁), (.look false, w₂)] ∧
      call.answer? = some .quit ∧ stopped w₁ = false := by
  constructor
  · rintro rfl
    cases he with
    | @quit before call w₁ w₂ h hq =>
      refine ⟨before, call, w₁, w₂, rfl, hq, ?_⟩
      obtain ⟨v, -, hp⟩ := Host.path_append_iff.1 hp
      obtain ⟨-, hp⟩ := Host.path_cons_iff.1 hp
      exact (hs.eq_of_look (Host.path_cons_iff.1 hp).1).1
  · rintro ⟨before', call', w₁', w₂', ht, -, -⟩
    -- no other trace ends with a look that does not find the signal raised
    cases he with
    | quit before h hq => rfl
    | _ =>
      rw [List.append_cons before'] at ht
      cases (List.append_inj' ht rfl).2

private theorem ending_stopped (hs : host.Signal stopped) (hp : host.Path w trace w') (he : Ending trace .stopped) :
    stopped w' = true ∨ ∃ activity, .inactive activity ∈ shown (trace.map Prod.fst) := by
  cases he with
  | raised before v h =>
    obtain ⟨v₁, -, hp⟩ := Host.path_append_iff.1 hp
    obtain ⟨ha, hnil⟩ := Host.path_cons_iff.1 hp
    rw [← Host.path_nil_iff.1 hnil]
    exact Or.inl (hs.eq_of_look ha).2
  | @inactive before p activity schedule v h =>
    refine Or.inr ⟨activity, ?_⟩
    rw [List.map_append, shown_append]
    exact List.mem_append_right _ (List.mem_singleton_self _)

private theorem start_activity_iff :
    r.start.processor.activity ≠ .running ↔ r.processor.activity = .halted ∨ r.processor.activity = .breakpoint := by
  unfold start Processor.start
  split
  · rename_i h
    simp [h]
  · cases h : r.processor.activity <;> simp_all

private theorem processor_start (h : r.processor.activity = .halted ∨ r.processor.activity = .breakpoint) :
    r.start.processor = r.processor := by
  unfold start Processor.start
  obtain h | h := h <;> simp [h]

private theorem cycles_succ_of_going {fuel : Nat} (h : cycles host fuel r w = (.going r', w')) :
    cycles host (fuel + 1) r w = cycle host r' w' := by
  induction fuel generalizing r w with
  | zero =>
    cases h
    rw [cycles, bind_state]
    generalize cycle host r' w' = result
    obtain ⟨progress, v⟩ := result
    cases progress <;> rfl
  | succ fuel ih =>
    rw [cycles, bind_state] at h ⊢
    generalize cycle host r w = result at h ⊢
    obtain ⟨progress, v⟩ := result
    cases progress with
    | going r => exact ih h
    | «over» r reason => cases h
    | failed r e => cases h

private theorem cycles_succ_of_over {fuel : Nat} {reason : RunEnd}
    (h : cycles host fuel r w = (.over r' reason, w')) : cycles host (fuel + 1) r w = (.over r' reason, w') := by
  induction fuel generalizing r w with
  | zero => cases h
  | succ fuel ih =>
    rw [cycles, bind_state] at h ⊢
    generalize cycle host r w = result at h ⊢
    obtain ⟨progress, v⟩ := result
    cases progress with
    | going r => exact ih h
    | «over» r reason => exact h
    | failed r e => exact h

/-- While the signal is raised a cycle ends the run. -/
private theorem cycle_of_raised (hs : host.Signal stopped) (h : stopped w = true) :
    cycle host r w = (.over r .stopped, (host.isStopped w).2) := by
  have hl : (host.isStopped w).1 = true := (hs.look w).1.trans h
  rw [cycle, bind_state, hl]
  rfl

/-- Whatever a run has been told, it stops when the signal is raised and quits when it is told to before.

The signal may be raised at first, in a wait, in a call of the observer or in a pause.  From then on the run executes
nothing and waits for no step: only the command at the breakpoint just shown is still asked for, the run is over with
one more cycle, and it counts the instructions up to that moment.  The reason of a run that is over is that the last
tick found no instruction, that its last answer was to quit while the signal was not raised, or that it was stopped;
a run is stopped by the signal, or because its processor was halted or at a breakpoint from the beginning.  Such a
processor executes nothing. -/
theorem play_stops {fuel : Nat} (hs : host.Signal stopped)
    (h : play host.traced fuel r (w, []) = (progress, (w', trace))) :
    play host fuel r w = (progress, w') ∧ (∀ r' e, progress ≠ .failed r' e) ∧
    (stopped w = true → Short (trace.map Prod.fst) ∧ progress.last.ticks = 0) ∧
    (∀ before call w₁ after, trace = before ++ (call, w₁) :: after → stopped w₁ = true →
      Windup call (after.map Prod.fst) ∧
        progress.last.ticks = (lines ((before ++ [(call, w₁)]).map Prod.fst)).length) ∧
    (stopped w = true ∨ (∃ e ∈ trace, stopped e.2 = true) →
      ∃ r' reason w'', play host (fuel + 1) r w = (.over r' reason, w'')) ∧
    (∀ r' reason, progress = .over r' reason →
      (reason = .endOfProgram ↔ ∃ address, (shown (trace.map Prod.fst)).getLast? = some (.endOfProgram address)) ∧
      (reason = .quit ↔ ∃ before call w₁ w₂, trace = before ++ [(call, w₁), (.look false, w₂)] ∧
        call.answer? = some .quit ∧ stopped w₁ = false) ∧
      (reason = .stopped →
        stopped w' = true ∨ r.processor.activity = .halted ∨ r.processor.activity = .breakpoint)) ∧
    (r.processor.activity = .halted ∨ r.processor.activity = .breakpoint →
      lines (trace.map Prod.fst) = [] ∧ progress.last.ticks = 0 ∧
        (progress.last.processor = r.processor ∨ ∃ address byte, r.randomAddress = some address ∧
          progress.last.processor = (r.poke address byte).processor)) := by
  obtain ⟨hplay, rfl, hc⟩ := play_course host h
  have hpath := course_path host hc
  have hcount := course_count hc
  have hconcludes := course_concludes hc
  obtain ⟨hbrief, hshort⟩ := course_brief hs hc
  refine ⟨hplay, ?_, ?_, ?_, ?_, ?_, ?_⟩
  · rintro r' e rfl
    exact hconcludes
  · intro hw
    refine ⟨hshort hw, ?_⟩
    rw [hcount, lines_short (hshort hw)]
    rfl
  · intro before call w₁ after ht hw₁
    have hwindup := hbrief before call w₁ after ht hw₁
    refine ⟨hwindup, ?_⟩
    rw [hcount, callsOf, ht, List.append_cons, List.map_append, lines_append, lines_windup hwindup, List.append_nil]
    exact Nat.zero_add _
  · intro hraised
    have hw' : stopped w' = true := by
      obtain hw | ⟨e, he, hw⟩ := hraised
      · exact hs.path_mono hpath hw
      · exact hs.raised_of_mem hpath he hw
    cases progress with
    | going r' => exact ⟨r', .stopped, _, (cycles_succ_of_going hplay).trans (cycle_of_raised hs hw')⟩
    | «over» r' reason => exact ⟨r', reason, w', cycles_succ_of_over hplay⟩
    | failed r' e => exact hconcludes.elim
  · rintro r' reason rfl
    refine ⟨ending_endOfProgram_iff hconcludes, ending_quit_iff hs hpath hconcludes, ?_⟩
    rintro rfl
    obtain hw' | ⟨activity, hm⟩ := ending_stopped hs hpath hconcludes
    · exact Or.inl hw'
    · exact Or.inr (start_activity_iff.1 fun hr => course_running hc hr activity hm)
  · intro hr
    obtain ⟨hlines, hp⟩ := course_inactive hc (start_activity_iff.2 hr)
    refine ⟨hlines, ?_, ?_⟩
    · rw [hcount, hlines]
      rfl
    · have hstart := processor_start hr
      obtain hp | ⟨address, byte, ha, hp⟩ := hp
      · exact Or.inl (hp.trans hstart)
      · refine Or.inr ⟨address, byte, ha, ?_⟩
        rw [hp, poke, hstart]
        rfl

/-- The signal is raised while a stepwise run waits for its first step. -/
theorem play_stops_at_first_wait :
    ∃ r w w', play Rehearsal.host.traced 1 (ofProcessor (.ofMemory (.blank .preserve)) .stepwise .unlimited none)
        (.ofScript (.scripted [.step] false) { atTick := none, atWait := some 1, after := none } false [], []) =
          (.over r .stopped, (w', [(.look false, w), (.step r.processor .quit, w'), (.look true, w')])) ∧
      Rehearsal.isStopped w' = true ∧ Windup (.step r.processor .quit) [.look true] ∧ r.ticks = 0 := by
  obtain ⟨r, w, w', h, hw'⟩ : ∃ r w w', play Rehearsal.host.traced 1
      (ofProcessor (.ofMemory (.blank .preserve)) .stepwise .unlimited none)
      (.ofScript (.scripted [.step] false) { atTick := none, atWait := some 1, after := none } false [], []) =
        (.over r .stopped, (w', [(.look false, w), (.step r.processor .quit, w'), (.look true, w')])) ∧
      Rehearsal.isStopped w' = true := ⟨_, _, _, rfl, rfl⟩
  obtain ⟨-, -, -, hraised, -⟩ := play_stops Rehearsal.signal h
  obtain ⟨hwindup, hticks⟩ := hraised [_] _ _ _ rfl hw'
  exact ⟨r, w, w', h, hw', hwindup, hticks⟩

end Run

end Mos6502
