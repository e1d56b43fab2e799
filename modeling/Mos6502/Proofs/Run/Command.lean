import Mos6502.Proofs.Processor.Tick
import Mos6502.Run.Basic

/-!
# What a run is told

A command that is not to quit changes nothing of a run but its schedule (`obey?_eq_some_iff`), and the schedule only
from stepwise to free.  A tick of a run never fails.
-/

namespace Mos6502

/-- The schedule after a command: a stepwise run that is told to continue runs freely. -/
def Schedule.told (schedule : Schedule) (pace : Pace) (command : Command) : Schedule :=
  if schedule = .stepwise ∧ command = .continue then .free pace else schedule

namespace Run

variable {r r' : Run} {command : Command}

theorem eq_quit_of_obey? (h : r.obey? command = none) : command = .quit := by
  cases command with
  | quit => rfl
  | step => cases h
  | «continue» => cases h

theorem obey?_eq_some_iff :
    r.obey? command = some r' ↔
      command ≠ .quit ∧ r' = { r with schedule := r.schedule.told r.continuePace command } := by
  cases command with
  | quit => simp [obey?]
  | step =>
    have hs : r.schedule.told r.continuePace .step = r.schedule := if_neg (by simp)
    rw [hs]
    constructor
    · rintro ⟨⟩
      exact ⟨by simp, rfl⟩
    · rintro ⟨-, rfl⟩
      rfl
  | «continue» =>
    have hs : r.release = { r with schedule := r.schedule.told r.continuePace .continue } := by
      unfold release Schedule.told
      by_cases h : r.schedule = .stepwise
      · rw [if_pos h, if_pos ⟨h, rfl⟩]
      · rw [if_neg h, if_neg fun hc => h hc.1]
    rw [← hs]
    simp [obey?, eq_comm]

/-- A tick of a run is a tick of its processor. -/
theorem tick_eq_ok (r : Run) :
    r.tick = .ok r.processor.ticked.1
      { r with processor := r.processor.ticked.2, ticks := r.ticks + r.processor.ticked.1.count } := by
  rw [Run.tick, Processor.tick_eq_ticked]

end Run

end Mos6502
