import Mos6502.Run.Basic

/-!
# Rehearsed runs

A scripted world for a run: commands that were given beforehand, and the moments at which the stop signal is raised.
The world records what the run waited for and what it showed to its observer.  Time passes only in pauses and in
waiting for a command that never comes.
-/

namespace Mos6502

/-- Who answers the waits of a run. -/
inductive Operator where
  /-- Steps are granted and breakpoints resumed right away. -/
  | automatic
  /-- The commands in their order, each taken once.  When they are used up the answer is to quit: at once, or when the
  stop signal is raised if more commands could come. -/
  | scripted (commands : List Command) (keptOpen : Bool)
  deriving DecidableEq, Repr

/-- What a run waits for. -/
inductive Wait where
  | step
  | resume
  deriving DecidableEq, Repr

/-- When the stop signal is raised. -/
structure StopScript where
  /-- In a call of the observer: the next one is the first. -/
  atTick : Option Nat
  /-- At the beginning of a wait: the next one is the first. -/
  atWait : Option Nat
  /-- After some nanoseconds. -/
  after : Option Nat
  deriving DecidableEq, Repr

namespace StopScript

/-- The script that is left after a call of the observer. -/
def afterTick (s : StopScript) : StopScript :=
  { s with atTick := s.atTick.map Nat.pred }

/-- The script that is left after a wait has begun. -/
def afterWait (s : StopScript) : StopScript :=
  { s with atWait := s.atWait.map Nat.pred }

end StopScript

/-- A scripted world and its record. -/
structure Rehearsal where
  operator : Operator
  script : StopScript
  /-- Whether the stop signal has been raised by the script, its time limit apart. -/
  raised : Bool
  /-- The nanoseconds that have passed. -/
  clock : Nat
  /-- The random bytes to come; after them all are zero. -/
  dice : List UInt8
  /-- The waits with program counter and activity, the latest first. -/
  waits : List (Wait × UInt16 × Activity)
  /-- The ticks with activity and schedule, the latest first. -/
  observed : List (Tick × Activity × Schedule)

namespace Rehearsal

/-- A world at the beginning of a run. -/
def ofScript (operator : Operator) (script : StopScript) (raised : Bool) (dice : List UInt8) : Rehearsal :=
  { operator, script, raised, clock := 0, dice, waits := [], observed := [] }

/-- Whether the stop signal is raised. -/
def isStopped (w : Rehearsal) : Bool :=
  w.raised || w.script.after.any (· ≤ w.clock)

/-- The answer to a wait, after the wait has been recorded. -/
def answer (w : Rehearsal) (wait : Wait) : Command × Rehearsal :=
  match w.operator with
  | .automatic =>
    match wait with
    | .step => (.step, w)
    | .resume => (.continue, w)
  | .scripted commands keptOpen =>
    if w.isStopped then (.quit, w)
    else
      match commands with
      | command :: rest => (command, { w with operator := .scripted rest keptOpen })
      | [] => (.quit, if keptOpen then { w with clock := max w.clock (w.script.after.getD w.clock) } else w)

/-- A wait. -/
def wait (w : Rehearsal) (wait : Wait) (p : Processor) : Command × Rehearsal :=
  { w with
    waits := (wait, p.registers.programCounter, p.activity) :: w.waits
    raised := w.raised || w.script.atWait == some 1
    script := w.script.afterWait }.answer wait

/-- A call of the observer. -/
def observe (w : Rehearsal) (p : Processor) (tick : Tick) (schedule : Schedule) : Rehearsal :=
  { w with
    observed := (tick, p.activity, schedule) :: w.observed
    raised := w.raised || w.script.atTick == some 1
    script := w.script.afterTick }

/-- The next random byte. -/
def draw (w : Rehearsal) : UInt8 × Rehearsal :=
  match w.dice with
  | [] => (0, w)
  | byte :: dice => (byte, { w with dice })

/-- The scripted world as the surroundings of a run. -/
def host : Host (StateM Rehearsal) where
  isStopped := fun w => (w.isStopped, w)
  waitForStep p := fun w => w.wait .step p
  waitForResume p := fun w => w.wait .resume p
  observe p tick schedule := fun w => ((), w.observe p tick schedule)
  pause nanoseconds := fun w => ((), { w with clock := w.clock + nanoseconds })
  randomByte := fun w => w.draw

end Rehearsal

end Mos6502
