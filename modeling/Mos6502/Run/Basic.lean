import Mos6502.Processor.Basic
import Mos6502.Run.Schedule

/-!
# Runs

A `Run` is a processor that is driven with a schedule.  It meets its surroundings only through a `Host`: the stop
signal, the commands that it waits for, the observer of every tick, the pauses between ticks and the random bytes.  A
host works in any monad, so that the same run can be played with a scripted world or on a terminal.

One cycle looks at the stop signal, waits for a command if the schedule is stepwise, makes one tick, and then waits
again: at a breakpoint for the command to resume, in a paced free run for the time between two ticks to pass.
-/

namespace Mos6502

/-- What a waiting run is told. -/
inductive Command where
  | step
  | continue
  | quit
  deriving DecidableEq, Repr

/-- Why a run is over. -/
inductive RunEnd where
  | endOfProgram
  | stopped
  | quit
  deriving DecidableEq, Repr

/-- The surroundings of a run. -/
structure Host (m : Type → Type) where
  /-- Whether the stop signal is raised. -/
  isStopped : m Bool
  /-- The command for the next tick of a stepwise run. -/
  waitForStep : Processor → m Command
  /-- The command at a breakpoint. -/
  waitForResume : Processor → m Command
  /-- Called after every tick, with the processor after it and the schedule in force. -/
  observe : Processor → Tick → Schedule → m Unit
  /-- Lets some nanoseconds pass. -/
  pause : Nat → m Unit
  randomByte : m UInt8

/-- The longest pause without a look at the stop signal, in nanoseconds. -/
def longestPause : Nat := 10000000

/-- The next pause of a delay of which so many nanoseconds remain. -/
def nextPause (remaining : Nat) : Nat :=
  min remaining longestPause

/-- A pause is no longer than what remains, so what it leaves is a difference of nanoseconds. -/
theorem nextPause_le (remaining : Nat) : nextPause remaining ≤ remaining :=
  Nat.min_le_left _ _

theorem nextPause_pos {remaining : Nat} (h : remaining ≠ 0) : 0 < nextPause remaining := by
  unfold nextPause longestPause
  omega

/-- Every pause leaves less to wait for. -/
theorem sub_nextPause_lt {remaining : Nat} (h : remaining ≠ 0) : remaining - nextPause remaining < remaining :=
  Nat.sub_lt_of_pos_le (nextPause_pos h) (nextPause_le remaining)

/-- Lets some nanoseconds pass in pauses, and tells whether they passed without the stop signal. -/
@[specialize] def delay [Monad m] (host : Host m) (remaining : Nat) : m Bool :=
  if remaining = 0 then (! ·) <$> host.isStopped
  else do
    if ← host.isStopped then pure false
    else
      host.pause (nextPause remaining)
      delay host (remaining - nextPause remaining)
  termination_by remaining
  decreasing_by exact sub_nextPause_lt ‹_›

/-- A processor with its schedule. -/
structure Run where
  processor : Processor
  schedule : Schedule
  /-- The pace of a stepwise run that is told to continue. -/
  continuePace : Pace
  /-- Where a random byte is stored before every tick that executes an instruction. -/
  randomAddress : Option UInt16
  /-- The instructions executed so far. -/
  ticks : Nat

/-- What a cycle leads to. -/
inductive Progress where
  | going (run : Run)
  | over (run : Run) (reason : RunEnd)
  | failed (run : Run) (error : ExecutionError)

/-- The run as it is in the end. -/
def Progress.last : Progress → Run
  | .going r | .over r _ | .failed r _ => r

namespace Run

/-- A run that has not begun. -/
def ofProcessor (processor : Processor) (schedule : Schedule) (continuePace : Pace) (randomAddress : Option UInt16) :
    Run :=
  { processor, schedule, continuePace, randomAddress, ticks := 0 }

/-- The run at its beginning. -/
def start (r : Run) : Run :=
  { r with processor := r.processor.start, ticks := 0 }

/-- A stepwise run goes on freely; any other keeps its schedule. -/
def release (r : Run) : Run :=
  if r.schedule = .stepwise then { r with schedule := .free r.continuePace } else r

/-- The run after a command, nothing if the command is to quit. -/
def obey? (r : Run) : Command → Option Run
  | .step => some r
  | .continue => some r.release
  | .quit => none

/-- The run with a byte stored at an address. -/
def poke (r : Run) (address : UInt16) (byte : UInt8) : Run :=
  { r with processor := { r.processor with memory := r.processor.memory.set address byte } }

/-- One tick of the processor; the executed instructions are counted. -/
def tick (r : Run) : EStateM.Result ExecutionError Run Tick :=
  match r.processor.tick with
  | .error e processor => .error e { r with processor }
  | .ok tick processor => .ok tick { r with processor, ticks := r.ticks + tick.count }

/-- The run with its processor going on from a breakpoint. -/
def resume (r : Run) : Run :=
  { r with processor := r.processor.resume?.getD r.processor }

variable {m : Type → Type} [Monad m] (host : Host m)

/-- The end of a run that was told to quit, unless the stop signal is raised. -/
@[specialize] def quit (r : Run) : m Progress := do
  pure (.over r (if ← host.isStopped then .stopped else .quit))

/-- The random byte is stored if the next tick has an instruction. -/
@[specialize] def randomize (r : Run) : m Run :=
  match r.randomAddress with
  | none => pure r
  | some address => if r.processor.peek?.isSome then r.poke address <$> host.randomByte else pure r

/-- What follows a tick. -/
@[specialize] def settle (r : Run) (tick : Tick) : m Progress :=
  match tick with
  | .endOfProgram _ => pure (.over r .endOfProgram)
  | .inactive _ => pure (.over r .stopped)
  | .breakpoint _ => do
    match r.obey? (← host.waitForResume r.processor) with
    | none => quit host r
    | some r => pure (.going r.resume)
  | .executed _ =>
    match r.schedule with
    | .free (.every nanoseconds) => do
      if ← delay host nanoseconds then pure (.going r) else pure (.over r .stopped)
    | _ => pure (.going r)

/-- One tick, observed. -/
@[specialize] def advance (r : Run) : m Progress := do
  let r ← randomize host r
  match r.tick with
  | .error e r => pure (.failed r e)
  | .ok tick r => do
    host.observe r.processor tick r.schedule
    settle host r tick

/-- One cycle. -/
@[specialize] def cycle (r : Run) : m Progress := do
  if ← host.isStopped then pure (.over r .stopped)
  else if r.schedule = .stepwise then do
    match r.obey? (← host.waitForStep r.processor) with
    | none => quit host r
    | some r => if ← host.isStopped then pure (.over r .stopped) else advance host r
  else advance host r

/-- Cycles until the run is over, `fuel` at most. -/
@[specialize] def cycles : Nat → Run → m Progress
  | 0, r => pure (.going r)
  | fuel + 1, r => do
    match ← cycle host r with
    | .going r => cycles fuel r
    | progress => pure progress

/-- A whole run from its beginning, of `fuel` cycles at most. -/
@[specialize] def play (fuel : Nat) (r : Run) : m Progress :=
  cycles host fuel r.start

end Run

end Mos6502
