import Mos6502.Execution
import Mos6502.Memory.Range

/-!
# The processor

A machine together with the region of memory that holds the program, and whether it is running.  One tick fetches,
decodes and executes one instruction.  A tick that finds the next instruction not entirely inside the region ends the
program; a tick after which the break flag is set stops at a breakpoint until the processor is told to resume.
-/

namespace Mos6502

/-- Whether the processor executes instructions. -/
inductive Activity where
  | idle
  | running
  | halted
  | breakpoint
  deriving DecidableEq, Repr

/-- The name of an activity. -/
def Activity.text : Activity → String
  | .idle => "idle"
  | .running => "running"
  | .halted => "halted"
  | .breakpoint => "breakpoint"

/-- The addresses from `start` up to `stop`, which is not one of them. -/
structure Region where
  start : Nat
  stop : Nat
  deriving DecidableEq, Repr

namespace Region

/-- The whole address space. -/
def full : Region :=
  { start := 0, stop := memorySize }

/-- Whether the region holds a number of bytes from an address on. -/
def holds (region : Region) (address : UInt16) (length : Nat) : Bool :=
  region.start ≤ address.toNat && address.toNat + length ≤ region.stop

end Region

/-- A machine with its program and its activity. -/
structure Processor extends Machine where
  activity : Activity
  region : Region
  deriving DecidableEq

/-- Where programs start unless another address is given. -/
def programStart : UInt16 := 0x0600

/-- What a tick did. -/
inductive Tick where
  | executed (line : TraceLine)
  | breakpoint (line : TraceLine)
  | endOfProgram (address : UInt16)
  | inactive (activity : Activity)
  deriving DecidableEq, Repr

/-- The line of the instruction that a tick executed. -/
def Tick.line? : Tick → Option TraceLine
  | .executed line | .breakpoint line => some line
  | .endOfProgram _ | .inactive _ => none

/-- The number of instructions that a tick executed. -/
def Tick.count : Tick → Nat
  | .executed _ | .breakpoint _ => 1
  | .endOfProgram _ | .inactive _ => 0

namespace Processor

/-- An idle processor whose program is the whole memory. -/
def ofMemory (memory : Memory) : Processor :=
  { registers := .initial programStart, memory, activity := .idle, region := .full }

/-- Copies a program to an address, makes it the program region, and makes its first instruction the next one.  What has
been done when the copy is refused stays done. -/
def install (address : UInt16) (program : List UInt8) : EStateM MemoryError Processor Unit := do
  match (← get).memory.write address.toUInt64 program with
  | .error e => throw e
  | .ok memory => modify fun p => { p with memory }
  modify fun p => { p with region := { start := address.toNat, stop := address.toNat + program.length } }
  modify fun p => { p with registers := { p.registers with programCounter := address } }

/-- The processor with a program installed, for callers that have no use for the one that refuses it. -/
def load (p : Processor) (address : UInt16) (program : List UInt8) : Except MemoryError Processor :=
  match install address program p with
  | .ok () q => .ok q
  | .error e _ => .error e

/-- Whether the processor executes instructions. -/
def isRunning (p : Processor) : Bool :=
  p.activity == .running

/-- An idle processor starts to run. -/
def start (p : Processor) : Processor :=
  if p.activity = .idle then { p with activity := .running } else p

/-- A processor at a breakpoint runs on; nothing for any other. -/
def resume? (p : Processor) : Option Processor :=
  if p.activity = .breakpoint then
    some { p with registers := p.registers.mark .break false, activity := .running }
  else none

/-- The processor with zeroed memory and the registers, region and activity of the start. -/
def reset (p : Processor) : Processor :=
  { p with memory := p.memory.zeroed, registers := .initial programStart, region := .full, activity := .idle }

/-- The next instruction, if the program region holds all of it. -/
def peek? (p : Processor) : Option Instruction :=
  let address := p.registers.programCounter
  if p.region.holds address 1 then
    let opcode := p.memory.get address
    let length := (operation opcode).kind.operandLength
    if p.region.holds address (1 + length) then
      let operand (k : Nat) : UInt8 := if k < length then p.memory.get (address + 1 + UInt16.ofNat k) else 0
      some (.decode address opcode (operand 0) (operand 1))
    else none
  else none

/-- One tick.  If the instruction fails, the processor is left as the instruction left it. -/
def tick (p : Processor) : EStateM.Result ExecutionError Processor Tick :=
  if p.isRunning then
    match p.peek? with
    | none => .ok (.endOfProgram p.registers.programCounter) { p with activity := .halted }
    | some i =>
      match i.execute p.toMachine with
      | .error e machine => .error e { p with toMachine := machine }
      | .ok line machine =>
        if machine.registers.has .break then
          .ok (.breakpoint line) { p with toMachine := machine, activity := .breakpoint }
        else .ok (.executed line) { p with toMachine := machine }
  else .ok (.inactive p.activity) p

/-- Ticks until the processor is no longer running, `fuel` at most, with the lines of the executed instructions, the
latest first. -/
def runFor (fuel : Nat) (p : Processor) (lines : List TraceLine) :
    EStateM.Result ExecutionError Processor (List TraceLine) :=
  match fuel with
  | 0 => .ok lines p
  | fuel + 1 =>
    if p.isRunning then
      match p.tick with
      | .error e p => .error e p
      | .ok tick p => runFor fuel p (tick.line?.toList ++ lines)
    else .ok lines p

/-- The processor is started and runs to the end of its program or to a breakpoint; `fuel` bounds the ticks. -/
def execute (fuel : Nat) (p : Processor) : EStateM.Result ExecutionError Processor (List TraceLine) :=
  match runFor fuel p.start [] with
  | .error e p => .error e p
  | .ok lines p => .ok lines.reverse p

end Processor

end Mos6502
