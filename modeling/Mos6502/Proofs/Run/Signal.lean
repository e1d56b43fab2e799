import Mos6502.Proofs.Run.Trace
import Mos6502.Run.Rehearsal

/-!
# The stop signal

What a run can rely on of the stop signal (`Host.Signal`): a look tells whether it is raised, it can be raised in a
wait, in a call of the observer or in a pause, and it is never lowered.  The scripted world has such a signal.
-/

namespace Mos6502

variable {σ : Type}

/-- In which worlds of some surroundings the stop signal is raised. -/
structure Host.Signal (host : Host (StateM σ)) (stopped : σ → Bool) : Prop where
  look : ∀ w, (host.isStopped w).1 = stopped w ∧ stopped (host.isStopped w).2 = stopped w
  step : ∀ p w, stopped w = true → stopped (host.waitForStep p w).2 = true
  resume : ∀ p w, stopped w = true → stopped (host.waitForResume p w).2 = true
  observe : ∀ p tick schedule w, stopped w = true → stopped (host.observe p tick schedule w).2 = true
  pause : ∀ nanoseconds w, stopped w = true → stopped (host.pause nanoseconds w).2 = true
  random : ∀ w, stopped (host.randomByte w).2 = stopped w

namespace Host.Signal

variable {host : Host (StateM σ)} {stopped : σ → Bool} {w w' : σ} {call : Call} {trace : Trace σ}

theorem eq_of_look (hs : host.Signal stopped) {raised : Bool} (ha : host.Answers w (.look raised) w') :
    stopped w = raised ∧ stopped w' = raised := by
  have hl := hs.look w
  rw [show host.isStopped w = (raised, w') from ha] at hl
  exact ⟨hl.1.symm, hl.2.trans hl.1.symm⟩

theorem eq_of_random (hs : host.Signal stopped) {byte : UInt8} (ha : host.Answers w (.random byte) w') :
    stopped w' = stopped w := by
  have hr := hs.random w
  rw [show host.randomByte w = (byte, w') from ha] at hr
  exact hr

/-- The signal is never lowered. -/
theorem mono (hs : host.Signal stopped) (ha : host.Answers w call w') (h : stopped w = true) : stopped w' = true := by
  cases call with
  | look raised =>
    obtain ⟨h1, h2⟩ := hs.eq_of_look ha
    rw [h2, ← h1, h]
  | random byte => rw [hs.eq_of_random ha, h]
  | step p command =>
    have hm := hs.step p w h
    rw [show host.waitForStep p w = (command, w') from ha] at hm
    exact hm
  | resume p command =>
    have hm := hs.resume p w h
    rw [show host.waitForResume p w = (command, w') from ha] at hm
    exact hm
  | observe p tick schedule =>
    have hm := hs.observe p tick schedule w h
    rw [show host.observe p tick schedule w = ((), w') from ha] at hm
    exact hm
  | pause nanoseconds =>
    have hm := hs.pause nanoseconds w h
    rw [show host.pause nanoseconds w = ((), w') from ha] at hm
    exact hm

theorem path_mono (hs : host.Signal stopped) (hp : host.Path w trace w') (h : stopped w = true) :
    stopped w' = true := by
  induction hp with
  | nil => exact h
  | cons ha _ ih => exact ih (hs.mono ha h)

theorem raised_of_mem (hs : host.Signal stopped) (hp : host.Path w trace w') {e : Call × σ} (he : e ∈ trace)
    (h : stopped e.2 = true) : stopped w' = true := by
  obtain ⟨before, after, rfl⟩ := List.append_of_mem he
  obtain ⟨v, -, hp⟩ := path_append_iff.1 hp
  exact hs.path_mono (path_cons_iff.1 hp).2 h

end Host.Signal

namespace Rehearsal

private theorem isStopped_mono {w w' : Rehearsal} (h : w.isStopped = true)
    (hr : w.raised = true → w'.raised = true) (hs : w'.script.after = w.script.after) (hc : w.clock ≤ w'.clock) :
    w'.isStopped = true := by
  unfold isStopped at h ⊢
  rw [Bool.or_eq_true, Option.any_eq_true] at h ⊢
  rw [hs]
  obtain h | ⟨time, ht, hle⟩ := h
  · exact Or.inl (hr h)
  · refine Or.inr ⟨time, ht, ?_⟩
    rw [decide_eq_true_eq] at hle ⊢
    omega

private theorem answer_isStopped (w : Rehearsal) (wait : Wait) (h : w.isStopped = true) :
    (w.answer wait).2.isStopped = true := by
  unfold answer
  cases w.operator with
  | automatic => cases wait <;> exact h
  | scripted commands keptOpen =>
    rw [h]
    exact h

private theorem wait_isStopped (w : Rehearsal) (kind : Wait) (p : Processor) (h : w.isStopped = true) :
    (w.wait kind p).2.isStopped = true := by
  apply answer_isStopped
  exact isStopped_mono h (fun hr => by simp [hr]) rfl (Nat.le_refl _)

/-- The script raises the signal in calls of the observer, in waits and after some time, and never lowers it. -/
theorem signal : host.Signal isStopped := by
  refine ⟨fun _ => ⟨rfl, rfl⟩, fun p w => wait_isStopped w .step p, fun p w => wait_isStopped w .resume p, ?_, ?_, ?_⟩
  · intro p tick schedule w h
    exact isStopped_mono h (fun hr => by simp [host, observe, hr]) rfl (Nat.le_refl _)
  · intro nanoseconds w h
    exact isStopped_mono h id rfl (Nat.le_add_right _ _)
  · intro w
    show (w.draw).2.isStopped = w.isStopped
    unfold draw
    split <;> rfl

end Rehearsal

end Mos6502
