import Mos6502.Proofs.Processor.Confinement
import Mos6502.Proofs.Run.Talk
import Mos6502.Run.Rehearsal

/-!
# Random bytes

A run with a random address draws a byte and stores it there whenever the processor sees an instruction that it could
fetch.  It draws one byte for every tick that executes an instruction, but not only for these: the byte is drawn in vain
(`Processor.Wastes`) if the processor is not running, or if the byte is stored at the program counter and the opcode that
it makes has operands outside the region.

The draw and the tick of every cycle are a `Round`.  A run that executes nothing more changes the memory by one wasted
byte at most (`Rests`), and by nothing at all if the random address lies outside the region of a processor that is idle or
running when it is handed over (`play_draws`).
-/

namespace Mos6502

namespace Call

/-- The byte that a call draws. -/
def byte? : Call → Option UInt8
  | .random byte => some byte
  | _ => none

/-- Whether a call draws a byte or shows a tick. -/
def isMark : Call → Bool
  | .random _ | .observe _ _ _ => true
  | _ => false

/-- The bytes that some calls draw. -/
def drawn (calls : List Call) : List UInt8 :=
  calls.filterMap byte?

/-- The draws and the ticks among some calls. -/
def marks (calls : List Call) : List Call :=
  calls.filter isMark

theorem drawn_append (calls calls' : List Call) : drawn (calls ++ calls') = drawn calls ++ drawn calls' :=
  List.filterMap_append

theorem marks_append (calls calls' : List Call) : marks (calls ++ calls') = marks calls ++ marks calls' :=
  List.filter_append ..

theorem lines_observe (p : Processor) (tick : Tick) (schedule : Schedule) :
    lines [.observe p tick schedule] = tick.line?.toList := by
  show [tick].filterMap Tick.line? = _
  cases h : tick.line? <;> simp [h]

private theorem filterMap_marks {α : Type} (f : Call → Option α) (h : ∀ call, call.isMark = false → f call = none)
    (calls : List Call) : (marks calls).filterMap f = calls.filterMap f := by
  unfold marks
  rw [List.filterMap_filter]
  congr 1
  funext call
  cases hc : call.isMark with
  | true => rfl
  | false => exact (h call hc).symm

theorem drawn_marks (calls : List Call) : drawn (marks calls) = drawn calls := by
  refine filterMap_marks byte? ?_ calls
  intro call hc
  cases call <;> first | rfl | cases hc

theorem lines_marks (calls : List Call) : lines (marks calls) = lines calls := by
  have hshown : shown (marks calls) = shown calls := by
    refine filterMap_marks tick? ?_ calls
    intro call hc
    cases call <;> first | rfl | cases hc
  unfold lines
  rw [hshown]

end Call

namespace Processor

variable {p q : Processor} {address : UInt16} {byte : UInt8} {tick : Tick}

/-- The processor with a byte stored at an address. -/
def store (p : Processor) (address : UInt16) (byte : UInt8) : Processor :=
  { p with memory := p.memory.set address byte }

/-- Whether no instruction is executed once a byte has been stored at an address. -/
def Wastes (p : Processor) (address : UInt16) (byte : UInt8) : Prop :=
  p.activity ≠ .running ∨
    (address = p.registers.programCounter ∧
      p.region.holds address (1 + (operation byte).kind.operandLength) = false)

private theorem isFetchable_of_isSome (hp : p.peek?.isSome = true) : p.isFetchable = true := by
  rw [peek?_eq] at hp
  by_contra hf
  rw [if_neg hf] at hp
  cases hp

private theorem isFetchable_store (hp : p.peek?.isSome = true) (ha : p.activity = .running) :
    (p.store address byte).isFetchable = false ↔ p.Wastes address byte := by
  have hf := isFetchable_of_isSome hp
  rw [isFetchable_eq] at hf ⊢
  show p.region.holds p.registers.programCounter
    (1 + (operation ((p.memory.set address byte).get p.registers.programCounter)).kind.operandLength) = false ↔ _
  unfold Wastes
  by_cases hpc : address = p.registers.programCounter
  · subst hpc
    rw [Memory.get_set_self]
    simp [ha]
  · rw [Memory.get_set_ne _ (Ne.symm hpc), hf]
    simp [ha, hpc]

/-- A tick has a line if the processor is running and the region holds the next instruction, and leaves the memory as it
is if not. -/
theorem line?_cases (ht : p.tick = .ok tick q) :
    (tick.line? = none ∧ (p.activity ≠ .running ∨ p.isFetchable = false) ∧ q.memory = p.memory) ∨
      ∃ line, tick.line? = some line ∧ p.activity = .running ∧ p.isFetchable = true := by
  obtain ⟨ha, ht'⟩ | ⟨-, hf, ht'⟩ | ⟨line, m, ha, hf, -, ⟨-, ht'⟩ | ⟨-, ht'⟩⟩ := p.tick_cases <;>
    rw [ht] at ht' <;> cases ht'
  · exact Or.inl ⟨rfl, Or.inl ha, rfl⟩
  · exact Or.inl ⟨rfl, Or.inr hf, rfl⟩
  · exact Or.inr ⟨line, rfl, ha, hf⟩
  · exact Or.inr ⟨line, rfl, ha, hf⟩

theorem memory_of_line? (ht : p.tick = .ok tick q) (hl : tick.line? = none) : q.memory = p.memory := by
  obtain ⟨-, -, hm⟩ | ⟨line, hline, -⟩ := line?_cases ht
  · exact hm
  · rw [hl] at hline
    cases hline

theorem line?_of_peek? (hp : p.peek? = none) (ht : p.tick = .ok tick q) : tick.line? = none := by
  obtain ⟨hl, -⟩ | ⟨line, -, -, hf⟩ := line?_cases ht
  · exact hl
  · rw [peek?_eq, if_pos hf] at hp
    cases hp

/-- A tick after a draw executes no instruction exactly if the byte is wasted. -/
theorem line?_eq_none_iff (hp : p.peek?.isSome = true) (ht : (p.store address byte).tick = .ok tick q) :
    tick.line? = none ↔ p.Wastes address byte := by
  obtain ⟨hl, hstill, -⟩ | ⟨line, hl, ha, hf⟩ := line?_cases ht
  · refine iff_of_true hl ?_
    by_cases ha : p.activity = .running
    · exact (isFetchable_store hp ha).1 (hstill.resolve_left (not_not_intro ha))
    · exact Or.inl ha
  · refine iff_of_false (by simp [hl]) ?_
    rw [← isFetchable_store hp ha, hf]
    exact Bool.noConfusion

end Processor

namespace Run

open Call

variable {σ : Type} {host : Host (StateM σ)} {address? : Option UInt16} {p : Processor} {memory : Memory}
  {r r' : Run} {w w' : σ} {tick : Tick} {calls : List Call} {trace : Trace σ}
  {progress : Progress}

/-! ### Rounds -/

/-- The draw and the tick of a cycle that finds a processor, and the memory after it. -/
inductive Round (address? : Option UInt16) (p : Processor) : List Call → Memory → Prop where
  | silent : Round address? p [] p.memory
  | plain {q : Processor} {tick : Tick} {schedule : Schedule} (ha : address? = none) (ht : p.tick = .ok tick q) :
    Round address? p [.observe q tick schedule] q.memory
  | outside {q : Processor} {tick : Tick} {schedule : Schedule} (hp : p.peek? = none) (ht : p.tick = .ok tick q)
      (hl : tick.line? = none) : Round address? p [.observe q tick schedule] q.memory
  | drawn {q : Processor} {tick : Tick} {schedule : Schedule} {address : UInt16} {byte : UInt8}
      (ha : address? = some address) (hp : p.peek?.isSome = true) (ht : (p.store address byte).tick = .ok tick q)
      (hl : tick.line? = none ↔ p.Wastes address byte) :
    Round address? p [.random byte, .observe q tick schedule] q.memory

private theorem delay_marks {remaining : Nat} {passed : Bool} (hd : DelayTrace remaining trace passed) :
    marks (trace.map Prod.fst) = [] := by
  induction hd with
  | passed => rfl
  | cut _ => rfl
  | slice _ _ ih => exact ih

private theorem resume_frame (r : Run) :
    r.resume.processor.memory = r.processor.memory ∧ r.resume.processor.region = r.processor.region := by
  unfold resume Processor.resume?
  split <;> exact ⟨rfl, rfl⟩

private theorem settle_marks (hs : SettleTrace r tick trace progress) :
    marks (trace.map Prod.fst) = [] ∧ progress.last.processor.memory = r.processor.memory := by
  cases hs with
  | endOfProgram => exact ⟨rfl, rfl⟩
  | inactive => exact ⟨rfl, rfl⟩
  | quit => exact ⟨rfl, rfl⟩
  | resume ho =>
    obtain ⟨-, rfl⟩ := obey?_eq_some_iff.1 ho
    exact ⟨rfl, (resume_frame _).1⟩
  | passed _ hd => exact ⟨delay_marks hd, rfl⟩
  | cut _ hd => exact ⟨delay_marks hd, rfl⟩
  | atOnce _ => exact ⟨rfl, rfl⟩

private theorem advance_round (ha : AdvanceTrace r trace progress) :
    Round r.randomAddress r.processor (marks (trace.map Prod.fst)) progress.last.processor.memory := by
  cases ha with
  | @tick r₁ r₂ tick draw rest v _ hd ht hs =>
    obtain ⟨hrest, hmemory⟩ := settle_marks hs
    have htick := (eq_of_tick ht).1
    have hmarks : marks ((draw ++ (.observe r₂.processor tick r₂.schedule, v) :: rest).map Prod.fst) =
        marks (draw.map Prod.fst) ++ [.observe r₂.processor tick r₂.schedule] := by
      rw [List.map_append, marks_append]
      show _ ++ .observe r₂.processor tick r₂.schedule :: marks (rest.map Prod.fst) = _
      rw [hrest]
    rw [hmarks, hmemory]
    cases hd with
    | nothing h =>
      obtain h | h := h
      · exact Round.plain h htick
      · exact Round.outside h htick (Processor.line?_of_peek? h htick)
    | byte h hp => exact Round.drawn h hp htick (Processor.line?_eq_none_iff hp htick)

/-- Every cycle is a round. -/
theorem cycle_round (hc : CycleTrace r trace progress) :
    Round r.randomAddress r.processor (marks (trace.map Prod.fst)) progress.last.processor.memory := by
  cases hc with
  | stopped => exact Round.silent
  | quit _ => exact Round.silent
  | held _ ho =>
    obtain ⟨-, rfl⟩ := obey?_eq_some_iff.1 ho
    exact Round.silent
  | step _ ho ha =>
    obtain ⟨-, rfl⟩ := obey?_eq_some_iff.1 ho
    have hround := advance_round ha
    exact hround
  | free _ ha =>
    have hround := advance_round ha
    exact hround

/-! ### Cycles without an instruction -/

/-- The bytes drawn from a processor on while it executes nothing, and the memory in the end: nothing is stored, or one
byte that is wasted. -/
def Rests (address? : Option UInt16) (p : Processor) (bytes : List UInt8) (memory : Memory) : Prop :=
  (bytes = [] ∧ memory = p.memory) ∨
    ∃ address byte, address? = some address ∧ p.peek?.isSome = true ∧ p.Wastes address byte ∧ bytes = [byte] ∧
      memory = p.memory.set address byte

/-- Whether no byte is ever wasted by a processor and those that follow it in a run. -/
def IsSafe (address? : Option UInt16) (p : Processor) : Prop :=
  p.activity = .running ∧ ∀ address, address? = some address → p.region.holds address 1 = false

private theorem round_rests (h : Round address? p calls memory) (hl : lines calls = []) :
    Rests address? p (drawn calls) memory := by
  cases h with
  | silent => exact Or.inl ⟨rfl, rfl⟩
  | @plain q tick _ _ ht =>
    rw [lines_observe, Option.toList_eq_nil_iff] at hl
    exact Or.inl ⟨rfl, Processor.memory_of_line? ht hl⟩
  | outside _ ht hline => exact Or.inl ⟨rfl, Processor.memory_of_line? ht hline⟩
  | @drawn q tick schedule address byte ha hp ht hw =>
    have hline : lines [.observe q tick schedule] = [] := hl
    rw [lines_observe, Option.toList_eq_nil_iff] at hline
    exact Or.inr ⟨address, byte, ha, hp, hw.1 hline, rfl, Processor.memory_of_line? ht hline⟩

private theorem not_wastes {address : UInt16} (hsafe : IsSafe address? p) (ha : address? = some address)
    (hp : p.peek?.isSome = true) (byte : UInt8) : ¬p.Wastes address byte := by
  obtain ⟨hrunning, houtside⟩ := hsafe
  rintro (hne | ⟨rfl, -⟩)
  · exact hne hrunning
  · have hheld : p.region.holds p.registers.programCounter 1 = true :=
      Region.holds_of_le (Nat.le_add_right 1 _) (p.isFetchable_eq ▸ Processor.isFetchable_of_isSome hp)
    rw [houtside _ ha] at hheld
    cases hheld

private theorem round_count (h : Round address? p calls memory) (hsafe : IsSafe address? p) :
    (drawn calls).length = if address?.isSome then (lines calls).length else 0 := by
  cases h with
  | silent => exact (ite_self 0).symm
  | plain ha _ =>
    rw [ha]
    rfl
  | outside _ _ hl =>
    rw [lines_observe, hl]
    exact (ite_self 0).symm
  | @drawn q tick schedule address byte ha hp _ hw =>
    obtain ⟨line, hline⟩ := Option.ne_none_iff_exists'.1 fun hn => not_wastes hsafe ha hp byte (hw.1 hn)
    have hlines : lines [.random byte, .observe q tick schedule] = [line] := by
      show lines [.observe q tick schedule] = [line]
      rw [lines_observe, hline]
      rfl
    rw [hlines, ha]
    rfl

/-! ### Courses -/

/-- Whether a run has the random address and the program region of another. -/
def SameGround (r r' : Run) : Prop :=
  r'.randomAddress = r.randomAddress ∧ r'.processor.region = r.processor.region

private theorem SameGround.trans {r'' : Run} (h : SameGround r r') (h' : SameGround r' r'') : SameGround r r'' :=
  ⟨h'.1.trans h.1, h'.2.trans h.2⟩

private theorem grant_sameGround (hg : Grant r calls r') : SameGround r r' := by
  cases hg with
  | free _ => exact ⟨rfl, rfl⟩
  | step _ ho =>
    obtain ⟨-, rfl⟩ := obey?_eq_some_iff.1 ho
    exact ⟨rfl, rfl⟩

private theorem drawn_sameGround (hd : Drawn r r') : SameGround r r' := by
  obtain rfl | ⟨address, byte, -, rfl⟩ := hd
  · exact ⟨rfl, rfl⟩
  · exact ⟨rfl, rfl⟩

private theorem tick_sameGround (ht : r.tick = .ok tick r') : SameGround r r' := by
  have hregion := Processor.region_tick (eq_of_tick ht).1
  rw [tick_eq_ok] at ht
  cases ht
  exact ⟨rfl, hregion⟩

private theorem sequel_sameGround (hs : Sequel r tick calls progress) : SameGround r progress.last := by
  cases hs with
  | resume ho =>
    obtain ⟨-, rfl⟩ := obey?_eq_some_iff.1 ho
    exact ⟨rfl, (resume_frame _).2⟩
  | _ => exact ⟨rfl, rfl⟩

private theorem turn_sameGround (h : Turn r calls progress) : SameGround r progress.last := by
  cases h with
  | stopped => exact ⟨rfl, rfl⟩
  | quit _ => exact ⟨rfl, rfl⟩
  | held _ ho =>
    obtain ⟨-, rfl⟩ := obey?_eq_some_iff.1 ho
    exact ⟨rfl, rfl⟩
  | tick hg hd ht hs =>
    exact (grant_sameGround hg).trans ((drawn_sameGround hd).trans ((tick_sameGround ht).trans (sequel_sameGround hs)))

/-- The run after some laps. -/
def standing (r : Run) : List (Lap σ) → Run
  | [] => r
  | lap :: laps => standing lap.after.last laps

section

variable {laps : List (Lap σ)}

private theorem lap_round (host : Host (StateM σ)) (r : Run) (w : σ) :
    Round r.randomAddress r.processor (marks ((lap host r w).trace.map Prod.fst))
      (lap host r w).after.last.processor.memory :=
  cycle_round (lap_trace host r w).1

/-- Safety is kept as long as the run goes on. -/
private theorem isSafe_lap (h : (lap host r w).after = .going r') (hsafe : IsSafe r.randomAddress r.processor) :
    IsSafe r'.randomAddress r'.processor := by
  have hturn := lap_turn host r w
  rw [h] at hturn
  obtain ⟨haddress, hregion⟩ := turn_sameGround hturn
  refine ⟨(turn_running hturn hsafe.1).2 r' rfl, ?_⟩
  rw [show r'.randomAddress = r.randomAddress from haddress, show r'.processor.region = r.processor.region from hregion]
  exact hsafe.2

private theorem lines_turn (h : Turn r calls (.going r')) : lines calls ≠ [] := by
  cases h with
  | @tick r₁ r₂ r₃ tick steps waits _ hg hd ht hs =>
    obtain ⟨line, hline⟩ : ∃ line, tick.line? = some line := by cases hs <;> exact ⟨_, rfl⟩
    rw [lines_append, ← List.singleton_append, lines_append, lines_observe, hline]
    simp

/-- A run whose laps show no line is over after one of them. -/
theorem course_rests (hc : Course host r w laps progress w') (hl : lines (callsOf laps) = []) :
    Rests r.randomAddress r.processor (drawn (callsOf laps)) progress.last.processor.memory := by
  cases hc with
  | cut => exact Or.inl ⟨rfl, rfl⟩
  | last _ =>
    rw [callsOf_cons, lines_append, List.append_eq_nil_iff] at hl
    have hrests := round_rests (lap_round host r w) ((lines_marks _).trans hl.1)
    rw [drawn_marks] at hrests
    rw [callsOf_cons, drawn_append, show drawn (callsOf ([] : List (Lap σ))) = [] from rfl, List.append_nil]
    exact hrests
  | next h _ =>
    rw [callsOf_cons, lines_append, List.append_eq_nil_iff] at hl
    have hturn := lap_turn host r w
    rw [h] at hturn
    exact absurd ((lines_talk _).trans hl.1) (lines_turn hturn)

/-- The laps that are left after some laps are a course from where these lead, if any are left. -/
theorem course_append {before after : List (Lap σ)} (hc : Course host r w (before ++ after) progress w') :
    (after = [] ∧ standing r before = progress.last) ∨
      ∃ w₁, Course host (standing r before) w₁ after progress w' ∧ SameGround r (standing r before) ∧
        (IsSafe r.randomAddress r.processor →
          IsSafe (standing r before).randomAddress (standing r before).processor) := by
  induction before generalizing r w with
  | nil => exact Or.inr ⟨w, hc, ⟨rfl, rfl⟩, id⟩
  | cons l before ih =>
    rw [List.cons_append] at hc
    generalize hlaps : l :: (before ++ after) = laps at hc
    cases hc with
    | cut => cases hlaps
    | last _ =>
      obtain ⟨rfl, hnil⟩ := List.cons.inj hlaps
      obtain ⟨rfl, rfl⟩ := List.append_eq_nil_iff.1 hnil
      exact Or.inl ⟨rfl, rfl⟩
    | @next _ r' _ _ laps' _ h rest =>
      obtain ⟨rfl, rfl⟩ := List.cons.inj hlaps
      have hground := turn_sameGround (lap_turn host r w)
      have hstanding : standing r (lap host r w :: before) = standing r' before := by
        show standing (lap host r w).after.last before = standing r' before
        rw [h]
        rfl
      rw [h] at hground
      rw [hstanding]
      obtain hend | ⟨w₁, hc', hground', hsafe'⟩ := ih rest
      · exact Or.inl hend
      · exact Or.inr ⟨w₁, hc', hground.trans hground', fun hsafe => hsafe' (isSafe_lap h hsafe)⟩

private theorem course_lap {l : Lap σ} (hc : Course host r w laps progress w') (hl : l ∈ laps) :
    ∃ r' w₁, l = lap host r' w₁ ∧ SameGround r r' ∧
      (IsSafe r.randomAddress r.processor → IsSafe r'.randomAddress r'.processor) := by
  obtain ⟨before, after, rfl⟩ := List.append_of_mem hl
  obtain ⟨hnil, -⟩ | ⟨w₁, hc', hground, hsafe⟩ := course_append hc
  · cases hnil
  · refine ⟨standing r before, w₁, ?_, hground, hsafe⟩
    cases hc' <;> rfl

theorem course_rounds (hc : Course host r w laps progress w') :
    ∀ l ∈ laps, Round r.randomAddress l.before.processor (marks (l.trace.map Prod.fst))
      l.after.last.processor.memory := by
  intro l hl
  obtain ⟨r', w₁, rfl, hground, -⟩ := course_lap hc hl
  rw [← hground.1]
  exact lap_round host r' w₁

/-- From a safe processor on, one byte is drawn for each line that is shown. -/
theorem course_draws (hc : Course host r w laps progress w') (hsafe : IsSafe r.randomAddress r.processor) :
    ∀ l ∈ laps, (drawn (l.trace.map Prod.fst)).length =
      if r.randomAddress.isSome then (lines (l.trace.map Prod.fst)).length else 0 := by
  intro l hl
  obtain ⟨r', w₁, rfl, hground, hkept⟩ := course_lap hc hl
  have hcount := round_count (lap_round host r' w₁) (hkept hsafe)
  rw [drawn_marks, lines_marks, hground.1] at hcount
  exact hcount

theorem course_append_rests {before after : List (Lap σ)} (hc : Course host r w (before ++ after) progress w')
    (hl : lines (callsOf after) = []) :
    Rests r.randomAddress (standing r before).processor (drawn (callsOf after)) progress.last.processor.memory ∧
      (IsSafe r.randomAddress r.processor → drawn (callsOf after) = [] ∧
        progress.last.processor.memory = (standing r before).processor.memory) := by
  obtain ⟨rfl, hlast⟩ | ⟨w₁, hc', hground, hkept⟩ := course_append hc
  · rw [hlast]
    exact ⟨Or.inl ⟨rfl, rfl⟩, fun _ => ⟨rfl, rfl⟩⟩
  · have hrests := course_rests hc' hl
    refine ⟨hground.1 ▸ hrests, ?_⟩
    intro hsafe
    obtain hnone | ⟨address, byte, ha, hp, hwastes, -⟩ := hrests
    · exact hnone
    · exact absurd hwastes (not_wastes (hkept hsafe) ha hp byte)

end

private theorem isSafe_start (ha : r.processor.activity = .idle ∨ r.processor.activity = .running)
    (hr : ∀ address, r.randomAddress = some address → r.processor.region.holds address 1 = false) :
    IsSafe r.start.randomAddress r.start.processor := by
  obtain h | h := ha
  · have hstart : r.start.processor = { r.processor with activity := .running } := if_pos h
    exact ⟨by rw [hstart], by rw [hstart]; exact hr⟩
  · have hstart : r.start.processor = r.processor := if_neg (by rw [h]; decide)
    exact ⟨by rw [hstart]; exact h, by rw [hstart]; exact hr⟩

/-- The draws and the ticks of a run, cycle by cycle, and what happens to its memory while no instruction is executed:
before the first, after the last, and in a run that executes none.  If the processor is idle or running when it is
handed over, and the random address lies outside its region, a byte is drawn for each instruction that is executed and
for nothing else, and the memory rests. -/
theorem play_draws (host : Host (StateM σ)) (fuel : Nat) (r : Run) (w : σ) :
    ∃ progress w' trace, play host fuel r w = (progress, w') ∧
      play host.traced fuel r (w, []) = (progress, (w', trace)) ∧
      trace = (laps host fuel r.start w).flatMap Lap.trace ∧
      (∀ lap ∈ laps host fuel r.start w, Round r.randomAddress lap.before.processor
        (marks (lap.trace.map Prod.fst)) lap.after.last.processor.memory) ∧
      (∀ before after, laps host fuel r.start w = before ++ after → lines (callsOf after) = [] →
        Rests r.randomAddress (standing r.start before).processor (drawn (callsOf after))
          progress.last.processor.memory) ∧
      (r.processor.activity = .idle ∨ r.processor.activity = .running →
        (∀ address, r.randomAddress = some address → r.processor.region.holds address 1 = false) →
        (∀ lap ∈ laps host fuel r.start w, (drawn (lap.trace.map Prod.fst)).length =
          if r.randomAddress.isSome then (lines (lap.trace.map Prod.fst)).length else 0) ∧
        (∀ before after, laps host fuel r.start w = before ++ after → lines (callsOf after) = [] →
          drawn (callsOf after) = [] ∧
            progress.last.processor.memory = (standing r.start before).processor.memory)) := by
  obtain ⟨trace, h⟩ := exists_play_traced host fuel r w
  obtain ⟨-, htrace, hc⟩ := play_course host h
  have hrounds := course_rounds hc
  refine ⟨_, _, trace, rfl, h, htrace, hrounds, ?_, ?_⟩
  · intro before after hsplit hl
    rw [hsplit] at hc
    exact (course_append_rests hc hl).1
  · intro ha hr
    have hsafe := isSafe_start ha hr
    have hdraws := course_draws hc hsafe
    refine ⟨hdraws, ?_⟩
    intro before after hsplit hl
    rw [hsplit] at hc
    exact (course_append_rests hc hl).2 hsafe

/-- A wasted byte in the scripted world: the run is over before it has executed anything, and the byte is stored. -/
private theorem play_wasting {p : Processor} {address : UInt16} {byte : UInt8} (hp : p.start.peek?.isSome = true)
    (hw : p.start.Wastes address byte) :
    ∃ r reason w, play Rehearsal.host 1 (ofProcessor p (.free .unlimited) .unlimited (some address))
        (.ofScript .automatic { atTick := none, atWait := none, after := none } false [byte]) = (.over r reason, w) ∧
      r.ticks = 0 ∧ r.processor.memory.get address = byte := by
  have ht := (p.start.store address byte).tick_eq_ticked
  generalize (p.start.store address byte).ticked.1 = tick at ht
  generalize (p.start.store address byte).ticked.2 = q at ht
  have hl := (Processor.line?_eq_none_iff hp ht).2 hw
  have hq : q.memory.get address = byte := by
    rw [Processor.memory_of_line? ht hl]
    exact Memory.get_set_self _ _ _
  let run := (ofProcessor p (.free .unlimited) .unlimited (some address)).start
  obtain ⟨r, htick, hticks, hr⟩ : ∃ r, (run.poke address byte).tick = .ok tick r ∧ r.ticks = tick.count ∧
      r.processor = q := by
    refine ⟨{ run.poke address byte with processor := q, ticks := run.ticks + tick.count }, ?_, ?_, rfl⟩
    · have ht' : (run.poke address byte).processor.tick = .ok tick q := ht
      rw [Run.tick, ht']
      rfl
    · exact Nat.zero_add _
  rw [← hr] at hq
  let script : StopScript := { atTick := none, atWait := none, after := none }
  have hrandom : randomize Rehearsal.host run (.ofScript .automatic script false [byte]) =
      (run.poke address byte, .ofScript .automatic script false []) := by
    show (if run.processor.peek?.isSome then run.poke address <$> Rehearsal.host.randomByte else pure run)
      (.ofScript .automatic script false [byte]) = _
    rw [show run.processor.peek?.isSome = true from hp]
    rfl
  have hcycle : cycle Rehearsal.host run (.ofScript .automatic script false [byte]) =
      settle Rehearsal.host r tick
        ((Rehearsal.ofScript .automatic script false []).observe r.processor tick r.schedule) := by
    show advance Rehearsal.host run (.ofScript .automatic script false [byte]) = _
    unfold advance
    rw [bind_state, hrandom]
    dsimp only
    rw [htick]
    rfl
  -- of the ticks without an instruction, one ends the program and the other stops the run
  obtain ⟨reason, hsettle, hcount⟩ : ∃ reason, (∀ w, settle Rehearsal.host r tick w = (.over r reason, w)) ∧
      tick.count = 0 := by
    cases tick with
    | executed line => cases hl
    | breakpoint line => cases hl
    | endOfProgram a => exact ⟨.endOfProgram, fun _ => rfl, rfl⟩
    | inactive activity => exact ⟨.stopped, fun _ => rfl, rfl⟩
  refine ⟨r, reason, (Rehearsal.ofScript .automatic script false []).observe r.processor tick r.schedule, ?_,
    hticks.trans hcount, hq⟩
  show cycles Rehearsal.host 1 run (.ofScript .automatic script false [byte]) = _
  unfold cycles
  rw [bind_state, hcycle, hsettle]
  rfl

/-- Two bytes that are wasted: by a processor at a breakpoint, and as the opcode of an instruction of three bytes in a
program of one byte. -/
theorem exists_wasted_byte :
    (∃ r reason w, play Rehearsal.host 1
        (ofProcessor { Processor.ofMemory (.blank .preserve) with activity := .breakpoint } (.free .unlimited)
          .unlimited (some 0x01fc))
        (.ofScript .automatic { atTick := none, atWait := none, after := none } false [0x55]) =
          (.over r reason, w) ∧
      r.ticks = 0 ∧ r.processor.memory.get 0x01fc = 0x55) ∧
    (∃ r reason w, play Rehearsal.host 1
        (ofProcessor { Processor.ofMemory (.blank .preserve) with region := { start := 0x0600, stop := 0x0601 } }
          (.free .unlimited) .unlimited (some programStart))
        (.ofScript .automatic { atTick := none, atWait := none, after := none } false [0xad]) =
          (.over r reason, w) ∧
      r.ticks = 0 ∧ r.processor.memory.get programStart = 0xad) ∧
    ∀ address, (Memory.blank .preserve).get address = 0 := by
  have h0 : ∀ address, (Memory.blank .preserve).get address = 0 := Memory.get_blank _
  refine ⟨?_, ?_, h0⟩
  · generalize Memory.blank .preserve = memory at h0 ⊢
    apply play_wasting
    · show ({ Processor.ofMemory memory with activity := .breakpoint } : Processor).peek?.isSome = true
      rw [Processor.peek?_eq, Processor.isFetchable_of_opcode_zero (h0 _)]
      rfl
    · refine Or.inl ?_
      show Activity.breakpoint ≠ .running
      decide
  · have hkind : (operation 0xad).kind = .absolute := by
      rw [operation_eq_lookup]
      decide
    generalize Memory.blank .preserve = memory at h0 ⊢
    apply play_wasting
    · show ({ Processor.ofMemory memory with
          activity := .running, region := { start := 0x0600, stop := 0x0601 } } : Processor).peek?.isSome = true
      rw [Processor.peek?_eq, Processor.isFetchable_of_opcode_zero (h0 _)]
      rfl
    · refine Or.inr ⟨rfl, ?_⟩
      rw [hkind]
      rfl

end Run

end Mos6502
