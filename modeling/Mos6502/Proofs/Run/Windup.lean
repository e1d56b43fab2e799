import Mos6502.Proofs.Run.Signal
import Mos6502.Proofs.Run.Talk

/-!
# After the stop signal

Once the stop signal has been raised, a run shows nothing more and waits for no further step: at most it asks for the
command at the breakpoint that it has just shown, and looks at the signal once more (`Windup`).  What is shown of a
part of a cycle is that its trace is brief if all that follows it is (`Continues`).
-/

namespace Mos6502

variable {σ : Type}

namespace Run

open Call

variable {host : Host (StateM σ)} {stopped : σ → Bool} {r r' : Run} {w w' : σ} {trace rest : Trace σ}
  {progress : Progress}

/-- Nothing, or one look at the raised signal. -/
def Short (calls : List Call) : Prop :=
  calls = [] ∨ calls = [.look true]

/-- The calls that may follow one during which the signal was raised: the wait at the breakpoint that was just shown,
and a look at the signal. -/
def Windup (call : Call) (calls : List Call) : Prop :=
  Short calls ∨ ∃ p line schedule command rest, call = .observe p (.breakpoint line) schedule ∧
    calls = .resume p command :: rest ∧ Short rest

/-- A trace in which only a windup follows when the signal has been raised. -/
def Brief (stopped : σ → Bool) (trace : Trace σ) : Prop :=
  ∀ before call w after, trace = before ++ (call, w) :: after → stopped w = true → Windup call (after.map Prod.fst)

theorem brief_nil : Brief stopped [] := by
  intro before call w after h
  simp at h

theorem brief_cons_iff {call : Call} :
    Brief stopped ((call, w) :: trace) ↔
      (stopped w = true → Windup call (trace.map Prod.fst)) ∧ Brief stopped trace := by
  constructor
  · intro h
    refine ⟨h [] call w trace rfl, ?_⟩
    intro before call' v after he
    exact h ((call, w) :: before) call' v after (by rw [he, List.cons_append])
  · rintro ⟨hw, ht⟩ before call' v after he
    rw [eq_comm, List.append_eq_cons_iff] at he
    obtain ⟨rfl, he⟩ | ⟨before', rfl, he⟩ := he
    · cases he
      exact hw
    · exact ht before' call' v after he

theorem brief_singleton (call : Call) (w : σ) : Brief stopped [(call, w)] :=
  brief_cons_iff.2 ⟨fun _ => Or.inl (Or.inl rfl), brief_nil⟩

/-- What may follow the trace of a part of a run: nothing if the run is over there, and only a look if the signal is
raised. -/
structure Continues (stopped : σ → Bool) (ended : Prop) (w : σ) (rest : Trace σ) : Prop where
  brief : Brief stopped rest
  short : stopped w = true → Short (rest.map Prod.fst)
  nil : ended → rest = []

variable (hs : host.Signal stopped)
include hs

private theorem delay_raised {remaining : Nat} {passed : Bool} (hd : DelayTrace remaining trace passed)
    (hp : host.Path w trace w') (h : stopped w = true) : trace.map Prod.fst = [.look true] ∧ passed = false := by
  cases hd with
  | passed =>
    have hl := (hs.eq_of_look (Host.path_cons_iff.1 hp).1).1
    rw [h] at hl
    subst hl
    exact ⟨rfl, rfl⟩
  | cut _ => exact ⟨rfl, rfl⟩
  | slice _ _ =>
    have hl := (hs.eq_of_look (Host.path_cons_iff.1 hp).1).1
    rw [h] at hl
    cases hl

private theorem delay_brief {remaining : Nat} {passed : Bool} (hd : DelayTrace remaining trace passed)
    (hp : host.Path w trace w') (hrest : Continues stopped (passed = false) w' rest) :
    Brief stopped (trace ++ rest) := by
  induction hd generalizing w with
  | @passed raised v =>
    obtain ⟨ha, hv⟩ := Host.path_cons_iff.1 hp
    refine brief_cons_iff.2 ⟨?_, hrest.brief⟩
    intro h
    have hl := (hs.eq_of_look ha).2
    rw [h] at hl
    subst hl
    rw [hrest.nil rfl]
    exact Or.inl (Or.inl rfl)
  | cut _ =>
    refine brief_cons_iff.2 ⟨?_, hrest.brief⟩
    intro _
    rw [hrest.nil rfl]
    exact Or.inl (Or.inl rfl)
  | @slice remaining v v' delays passed hne hdelay ih =>
    obtain ⟨ha, hp⟩ := Host.path_cons_iff.1 hp
    obtain ⟨hb, hp⟩ := Host.path_cons_iff.1 hp
    refine brief_cons_iff.2 ⟨?_, brief_cons_iff.2 ⟨?_, ih hp hrest⟩⟩
    · intro h
      rw [(hs.eq_of_look ha).2] at h
      cases h
    · -- the signal was raised during the pause, so the next look ends the delay
      intro h
      obtain ⟨ht, hpassed⟩ := delay_raised hs hdelay hp h
      show Windup _ ((delays ++ rest).map Prod.fst)
      rw [hrest.nil hpassed, List.append_nil, ht]
      exact Or.inl (Or.inr rfl)

private theorem brief_last {call : Call} {raised : Bool} (ha : host.Answers w (.look raised) w') :
    Brief stopped [(call, w), (.look raised, w')] := by
  refine brief_cons_iff.2 ⟨?_, brief_singleton _ _⟩
  intro h
  rw [(hs.eq_of_look ha).1] at h
  subst h
  exact Or.inl (Or.inr rfl)

private theorem settle_brief {tick : Tick} (schedule : Schedule) (hst : SettleTrace r tick trace progress)
    (hp : host.Path w trace w') (hrest : Continues stopped (∀ r', progress ≠ .going r') w' rest) :
    (stopped w = true → Windup (.observe r.processor tick schedule) ((trace ++ rest).map Prod.fst)) ∧
      Brief stopped (trace ++ rest) := by
  cases hst with
  | endOfProgram =>
    rw [hrest.nil (by simp)]
    exact ⟨fun _ => Or.inl (Or.inl rfl), brief_nil⟩
  | inactive =>
    rw [hrest.nil (by simp)]
    exact ⟨fun _ => Or.inl (Or.inl rfl), brief_nil⟩
  | @quit line raised v v' =>
    obtain ⟨ha, hp⟩ := Host.path_cons_iff.1 hp
    obtain ⟨hl, -⟩ := hs.eq_of_look (Host.path_cons_iff.1 hp).1
    rw [hrest.nil (by simp)]
    refine ⟨?_, brief_last hs (Host.path_cons_iff.1 hp).1⟩
    intro h
    have hraised : raised = true := hl.symm.trans (hs.mono ha h)
    subst hraised
    exact Or.inr ⟨_, line, schedule, .quit, _, rfl, rfl, Or.inr rfl⟩
  | @resume r' line command v ho =>
    obtain ⟨ha, hv⟩ := Host.path_cons_iff.1 hp
    rw [Host.path_nil_iff] at hv
    subst hv
    refine ⟨?_, brief_cons_iff.2 ⟨fun h => Or.inl (hrest.short h), hrest.brief⟩⟩
    intro h
    exact Or.inr ⟨_, line, schedule, command, _, rfl, rfl, hrest.short (hs.mono ha h)⟩
  | passed _ hd =>
    refine ⟨?_, delay_brief hs hd hp ⟨hrest.brief, hrest.short, by simp⟩⟩
    intro h
    obtain ⟨-, hfalse⟩ := delay_raised hs hd hp h
    cases hfalse
  | cut _ hd =>
    have hnil := hrest.nil (by simp)
    refine ⟨?_, delay_brief hs hd hp ⟨hrest.brief, hrest.short, fun _ => hnil⟩⟩
    intro h
    obtain ⟨ht, -⟩ := delay_raised hs hd hp h
    rw [hnil, List.append_nil, ht]
    exact Or.inl (Or.inr rfl)
  | atOnce _ =>
    rw [Host.path_nil_iff] at hp
    subst hp
    exact ⟨fun h => Or.inl (hrest.short h), hrest.brief⟩

private theorem advance_brief (ha : AdvanceTrace r trace progress) (hp : host.Path w trace w')
    (h : stopped w = false) (hrest : Continues stopped (∀ r', progress ≠ .going r') w' rest) :
    Brief stopped (trace ++ rest) := by
  cases ha with
  | @tick r₁ r₂ tick draw after v progress hd ht hst =>
    obtain ⟨v₁, hdraw, hp⟩ := Host.path_append_iff.1 hp
    obtain ⟨hobserve, hp⟩ := Host.path_cons_iff.1 hp
    obtain ⟨hwindup, hbrief⟩ := settle_brief hs r₂.schedule hst hp hrest
    have htick : Brief stopped ((.observe r₂.processor tick r₂.schedule, v) :: (after ++ rest)) :=
      brief_cons_iff.2 ⟨hwindup, hbrief⟩
    rw [List.append_assoc]
    cases hd with
    | nothing _ => exact htick
    | byte _ _ =>
      refine brief_cons_iff.2 ⟨?_, htick⟩
      intro hv
      rw [hs.eq_of_random (Host.path_cons_iff.1 hdraw).1, h] at hv
      cases hv

private theorem cycle_raised (hc : CycleTrace r trace progress) (hp : host.Path w trace w') (h : stopped w = true) :
    trace.map Prod.fst = [.look true] ∧ progress = .over r .stopped := by
  cases hc with
  | stopped => exact ⟨rfl, rfl⟩
  | _ =>
    have hl := (hs.eq_of_look (Host.path_cons_iff.1 hp).1).1
    rw [h] at hl
    cases hl

/-- Nothing has to be shown about a look at which the signal is not raised. -/
private theorem windup_look {calls : List Call} (ha : host.Answers w (.look false) w') (h : stopped w' = true) :
    Windup (.look false) calls := by
  rw [(hs.eq_of_look ha).2] at h
  cases h

private theorem cycle_brief (hc : CycleTrace r trace progress) (hp : host.Path w trace w')
    (hrest : Continues stopped (∀ r', progress ≠ .going r') w' rest) : Brief stopped (trace ++ rest) := by
  cases hc with
  | stopped =>
    rw [hrest.nil (by simp)]
    exact brief_singleton _ _
  | quit _ =>
    obtain ⟨ha, hp⟩ := Host.path_cons_iff.1 hp
    obtain ⟨-, hp⟩ := Host.path_cons_iff.1 hp
    rw [hrest.nil (by simp)]
    exact brief_cons_iff.2 ⟨windup_look hs ha, brief_last hs (Host.path_cons_iff.1 hp).1⟩
  | held _ _ =>
    obtain ⟨ha, hp⟩ := Host.path_cons_iff.1 hp
    obtain ⟨-, hp⟩ := Host.path_cons_iff.1 hp
    rw [hrest.nil (by simp)]
    exact brief_cons_iff.2 ⟨windup_look hs ha, brief_last hs (Host.path_cons_iff.1 hp).1⟩
  | step _ _ hadvance =>
    obtain ⟨ha, hp⟩ := Host.path_cons_iff.1 hp
    obtain ⟨-, hp⟩ := Host.path_cons_iff.1 hp
    obtain ⟨ha₂, hp⟩ := Host.path_cons_iff.1 hp
    obtain ⟨hbefore, hafter⟩ := hs.eq_of_look ha₂
    refine brief_cons_iff.2 ⟨windup_look hs ha, brief_cons_iff.2 ⟨?_, brief_cons_iff.2 ⟨windup_look hs ha₂, ?_⟩⟩⟩
    · intro h
      rw [hbefore] at h
      cases h
    · exact advance_brief hs hadvance hp hafter hrest
  | free _ hadvance =>
    obtain ⟨ha, hp⟩ := Host.path_cons_iff.1 hp
    exact brief_cons_iff.2 ⟨windup_look hs ha, advance_brief hs hadvance hp (hs.eq_of_look ha).2 hrest⟩

/-- After the signal has been raised there is only a windup, and a run that starts while it is raised only looks. -/
theorem course_brief {laps : List (Lap σ)} (hc : Course host r w laps progress w') :
    Brief stopped (laps.flatMap Lap.trace) ∧ (stopped w = true → Short (callsOf laps)) := by
  induction hc with
  | cut r w => exact ⟨brief_nil, fun _ => Or.inl rfl⟩
  | @last r w hlast =>
    obtain ⟨hcycle, hp⟩ := lap_trace host r w
    rw [callsOf, List.flatMap_singleton, ← List.append_nil (lap host r w).trace]
    refine ⟨cycle_brief hs hcycle hp ⟨brief_nil, fun _ => Or.inl rfl, fun _ => rfl⟩, ?_⟩
    intro h
    rw [List.append_nil]
    exact Or.inr (cycle_raised hs hcycle hp h).1
  | @next r r' w w' laps progress h rest ih =>
    obtain ⟨hcycle, hp⟩ := lap_trace host r w
    obtain ⟨hbrief, hshort⟩ := ih
    rw [List.flatMap_cons]
    refine ⟨cycle_brief hs hcycle hp ⟨hbrief, hshort, fun hne => absurd h (hne r')⟩, ?_⟩
    intro hw
    rw [(cycle_raised hs hcycle hp hw).2] at h
    cases h

end Run

end Mos6502
