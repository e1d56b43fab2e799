import Mos6502.Run.Basic

/-!
# Runs in related worlds

Two surroundings whose calls give the same answers in related worlds, and keep the worlds related, drive a run alike
(`play_alike`).  A run knows its surroundings by their answers only.
-/

namespace Mos6502

variable {σ τ α β : Type}

theorem pure_state (value : α) (w : σ) : (pure value : StateM σ α) w = (value, w) := rfl

theorem bind_state (x : StateM σ α) (f : α → StateM σ β) (w : σ) : (x >>= f) w = f (x w).1 (x w).2 := rfl

theorem map_state (f : α → β) (x : StateM σ α) (w : σ) : (f <$> x) w = (f (x w).1, (x w).2) := rfl

/-- Two actions that give the same answer in related worlds, and keep the worlds related. -/
def Alike (R : σ → τ → Prop) (x : StateM σ α) (y : StateM τ α) : Prop :=
  ∀ w v, R w v → (x w).1 = (y v).1 ∧ R (x w).2 (y v).2

namespace Alike

variable {R : σ → τ → Prop}

theorem pure (value : α) : Alike R (Pure.pure value) (Pure.pure value) :=
  fun _ _ h => ⟨rfl, h⟩

theorem bind {x : StateM σ α} {y : StateM τ α} {f : α → StateM σ β} {g : α → StateM τ β} (hx : Alike R x y)
    (hf : ∀ a, Alike R (f a) (g a)) : Alike R (x >>= f) (y >>= g) := by
  intro w v h
  obtain ⟨ha, hw⟩ := hx w v h
  rw [bind_state, bind_state, ← ha]
  exact hf _ _ _ hw

theorem map {x : StateM σ α} {y : StateM τ α} (hx : Alike R x y) (f : α → β) : Alike R (f <$> x) (f <$> y) := by
  intro w v h
  obtain ⟨ha, hw⟩ := hx w v h
  exact ⟨congrArg f ha, hw⟩

end Alike

/-- Surroundings that answer alike. -/
structure Host.Alike (R : σ → τ → Prop) (host : Host (StateM σ)) (host' : Host (StateM τ)) : Prop where
  isStopped : Mos6502.Alike R host.isStopped host'.isStopped
  waitForStep : ∀ p, Mos6502.Alike R (host.waitForStep p) (host'.waitForStep p)
  waitForResume : ∀ p, Mos6502.Alike R (host.waitForResume p) (host'.waitForResume p)
  observe : ∀ p tick schedule, Mos6502.Alike R (host.observe p tick schedule) (host'.observe p tick schedule)
  pause : ∀ nanoseconds, Mos6502.Alike R (host.pause nanoseconds) (host'.pause nanoseconds)
  randomByte : Mos6502.Alike R host.randomByte host'.randomByte

namespace Run

variable {R : σ → τ → Prop} {host : Host (StateM σ)} {host' : Host (StateM τ)}

private theorem delay_alike (h : Host.Alike R host host') (remaining : Nat) :
    Alike R (delay host remaining) (delay host' remaining) := by
  induction remaining using Nat.strongRecOn with
  | ind remaining ih =>
    unfold delay
    split
    · exact h.isStopped.map _
    · rename_i hne
      refine h.isStopped.bind ?_
      intro raised
      split
      · exact Alike.pure _
      · refine (h.pause _).bind ?_
        intro _
        exact ih _ (sub_nextPause_lt hne)

private theorem quit_alike (h : Host.Alike R host host') (r : Run) : Alike R (quit host r) (quit host' r) :=
  h.isStopped.bind fun _ => Alike.pure _

private theorem randomize_alike (h : Host.Alike R host host') (r : Run) :
    Alike R (randomize host r) (randomize host' r) := by
  unfold randomize
  split
  · exact Alike.pure _
  · split
    · exact h.randomByte.map _
    · exact Alike.pure _

private theorem settle_alike (h : Host.Alike R host host') (r : Run) (tick : Tick) :
    Alike R (settle host r tick) (settle host' r tick) := by
  unfold settle
  cases tick with
  | endOfProgram address => exact Alike.pure _
  | inactive activity => exact Alike.pure _
  | breakpoint line =>
    refine (h.waitForResume _).bind ?_
    intro command
    cases r.obey? command with
    | none => exact quit_alike h r
    | some r => exact Alike.pure _
  | executed line =>
    dsimp only
    split
    · refine (delay_alike h _).bind ?_
      intro passed
      split
      · exact Alike.pure _
      · exact Alike.pure _
    · exact Alike.pure _

private theorem advance_alike (h : Host.Alike R host host') (r : Run) : Alike R (advance host r) (advance host' r) := by
  refine (randomize_alike h r).bind ?_
  intro r
  cases r.tick with
  | error e r => exact Alike.pure _
  | ok tick r => exact (h.observe _ _ _).bind fun _ => settle_alike h r tick

theorem cycle_alike (h : Host.Alike R host host') (r : Run) : Alike R (cycle host r) (cycle host' r) := by
  refine h.isStopped.bind ?_
  intro raised
  split
  · exact Alike.pure _
  · split
    · refine (h.waitForStep _).bind ?_
      intro command
      cases r.obey? command with
      | none => exact quit_alike h r
      | some r =>
        refine h.isStopped.bind ?_
        intro raised
        split
        · exact Alike.pure _
        · exact advance_alike h r
    · exact advance_alike h r

theorem cycles_alike (h : Host.Alike R host host') (fuel : Nat) (r : Run) :
    Alike R (cycles host fuel r) (cycles host' fuel r) := by
  induction fuel generalizing r with
  | zero => exact Alike.pure _
  | succ fuel ih =>
    refine (cycle_alike h r).bind ?_
    intro progress
    cases progress with
    | going r => exact ih r
    | «over» r reason => exact Alike.pure _
    | failed r error => exact Alike.pure _

/-- A run goes the same way in surroundings that answer alike. -/
theorem play_alike (h : Host.Alike R host host') (fuel : Nat) (r : Run) :
    Alike R (play host fuel r) (play host' fuel r) :=
  cycles_alike h fuel r.start

end Run

end Mos6502
