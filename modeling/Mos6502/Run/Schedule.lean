import Mos6502.Text.Duration

/-!
# Schedules

Either every tick waits for a command, or the processor runs freely, as fast as it can or with a fixed interval
between two ticks.
-/

namespace Mos6502

/-- How long a free run waits between two ticks. -/
inductive Pace where
  | unlimited
  /-- One tick in so many nanoseconds. -/
  | every (nanoseconds : Nat)
  deriving DecidableEq, Repr

/-- The pace for a number of ticks per second, rounded down to whole nanoseconds; zero is as fast as possible. -/
def Pace.ofFrequency (frequency : UInt32) : Pace :=
  if frequency = 0 then .unlimited else .every (1000000000 / frequency.toNat)

/-- What a tick waits for. -/
inductive Schedule where
  | stepwise
  | free (pace : Pace)
  deriving DecidableEq, Repr

/-- The schedule in words. -/
def Schedule.text : Schedule → String
  | .stepwise => "step"
  | .free .unlimited => "free"
  | .free (.every nanoseconds) => "free (" ++ durationText nanoseconds ++ "/tick)"

end Mos6502
