import Mos6502.CommandLine.Arguments
import Mos6502.Configuration.Document
import Mos6502.Image
import Mos6502.Monitor.Dialogue
import Mos6502.Processor.Snapshot
import Mos6502.Run.Basic

/-!
# Sessions

A session on the command line: the arguments and the files they name are made into a run, the run is played, and its
end is reported.  A session can be played as a whole when all its input is known (`play`); on a terminal the same
parts are used one after the other.
-/

namespace Mos6502

namespace CommandLine

/-- The files that can be read, by their names. -/
abbrev Files := String → Option (List UInt8)

/-- Why a session cannot go on. -/
inductive Failure where
  /-- The configuration file cannot be read or is malformed. -/
  | configurationFile (path : String)
  | image (error : ImageError)
  | configuration (error : ConfigurationError)
  /-- The image does not fit at its address. -/
  | loading (path : String) (address : UInt16)
  | execution (error : ExecutionError)
  deriving DecidableEq, Repr

/-- The report of a failure. -/
def Failure.message : Failure → String
  | .configurationFile path => "loading configuration '" ++ path ++ "'"
  | .image e => e.message
  | .configuration e => e.message
  | .loading path address => "loading '" ++ path ++ "' at #0x" ++ hexWord .upper address
  | .execution e => "instruction failed: " ++ e.message

/-- The layer that a configuration file gives; no file gives an empty one. -/
def fileLayer (files : Files) : Option String → Except Failure Configuration
  | none => .ok .empty
  | some path =>
    let text? := (files path).bind fun bytes => String.fromUTF8? (ByteArray.mk bytes.toArray)
    match text?.bind Configuration.ofText? with
    | some c => .ok c
    | none => .error (.configurationFile path)

/-- The configuration of a session: the interactive one, the file, and the arguments. -/
def configurationOf (files : Files) (a : Arguments) : Except Failure Configuration :=
  (fileLayer files a.configuration).map fun file => .ofLayers [.interactive, file, a.layer]

/-- The memory with the presets stored. -/
def storePresets (m : Memory) (presets : List (UInt16 × UInt8)) : Memory :=
  presets.foldl (fun m (address, byte) => m.set address byte) m

/-- The processor with the image loaded and the presets stored. -/
def boot (c : Configuration) (path : String) (image : List UInt8) : Except Failure Processor := do
  let address ← c.effectiveLoadAddress.mapError .configuration
  let p ← ((Processor.ofMemory (.blank c.effectivePopPolicy)).load address image).mapError fun _ =>
    .loading path address
  let presets ← c.effectivePresets.mapError .configuration
  pure { p with memory := storePresets p.memory presets }

/-- The configuration and the processor of a session. -/
def prepare (files : Files) (path : String) (a : Arguments) : Except Failure (Configuration × Processor) := do
  let c ← configurationOf files a
  let image ← (readImage path (files path)).mapError .image
  let p ← boot c path image
  pure (c, p)

/-- The run of a session.  Only a stepwise run can be told to continue. -/
def runOf (c : Configuration) (p : Processor) : Except Failure Run := do
  let randomAddress ← c.effectiveRandomAddress.mapError .configuration
  let continuePace := match c.schedule with
    | .stepwise => Pace.ofFrequency c.effectiveFrequency
    | .free _ => .unlimited
  pure (.ofProcessor p c.schedule continuePace randomAddress)

/-! ### What a session prints -/

/-- The first line. -/
def welcomeText : String :=
  Style.green.paint "Welcome in emu6502 version 1.0.0" ++ "\n"

/-- What a tick did, in one line. -/
def tickText : Tick → String
  | .executed line | .breakpoint line => line.text
  | .endOfProgram address => "end of program at #0x" ++ hexWord .upper address
  | .inactive activity => "processor " ++ activity.text

/-- The state after a tick, on a cleared screen. -/
def diagnosticsText (p : Processor) (tick : Tick) (schedule : Schedule) : String :=
  "\x1b[2J\x1b[H" ++ Snapshot.render true p schedule ++ "\n" ++ (Style.palette 240).paint (tickText tick) ++ "\n"

/-- Why a run is over, in words. -/
def reasonText : RunEnd → String
  | .endOfProgram => "end of program"
  | .stopped => "interrupted"
  | .quit => "quit"

/-- The last line. -/
def farewellText (ticks : Nat) (reason : RunEnd) : String :=
  toString ticks ++ " ticks executed, " ++ reasonText reason ++ ".\n"

/-- The list of the options. -/
def helpText : String :=
  "Usage: emu6502 [OPTIONS] <ROM>\n\n" ++
  "  -c, --config <CONFIG>              configuration file, options take precedence over it\n" ++
  "  -m, --mode <MODE>                  step or free\n" ++
  "  -f, --frequency <FREQUENCY>        ticks per second in free mode, 0 for as many as possible\n" ++
  "      --no-diagnostics               do not show the processor after each tick\n" ++
  "  -d, --display                      show the display\n" ++
  "  -l, --load-address <LOAD_ADDRESS>  address where the image is loaded\n" ++
  "  -v, --verbose                      log more\n" ++
  "  -h, --help                         this help\n" ++
  "  -V, --version                      the version\n"

/-! ### Playing a session -/

/-- A terminal whose input is known. -/
structure Terminal where
  input : List Monitor.Line
  /-- What has been printed, the latest first. -/
  printed : List String
  /-- The random bytes to come; after them all are zero. -/
  dice : List UInt8

namespace Terminal

/-- The terminal after something has been printed. -/
def print (t : Terminal) (text : String) : Terminal :=
  { t with printed := text :: t.printed }

/-- All that has been printed. -/
def output (t : Terminal) : String :=
  String.join t.printed.reverse

/-- Reads lines up to the first that drives the run. -/
def converse (t : Terminal) (p : Processor) : Command × Terminal :=
  let d := Monitor.converse p t.input
  (d.command, d.printed.foldl (fun t line => t.print (line ++ "\n")) { t with input := d.rest })

/-- The next random byte. -/
def draw (t : Terminal) : UInt8 × Terminal :=
  match t.dice with
  | [] => (0, t)
  | byte :: dice => (byte, { t with dice })

/-- The terminal as the surroundings of a run.  A free run resumes at every breakpoint; any other asks the monitor. -/
def host (free diagnostics : Bool) : Host (StateM Terminal) where
  isStopped := pure false
  waitForStep p := if free then pure .step else fun t => t.converse p
  waitForResume p :=
    if free then pure .continue else fun t => (t.print (Monitor.breakpointText p ++ "\n")).converse p
  observe p tick schedule := if diagnostics then modify (·.print (diagnosticsText p tick schedule)) else pure ()
  pause _ := pure ()
  randomByte := fun t => t.draw

end Terminal

/-- The end of a session. -/
structure Ending where
  exitCode : Nat
  output : String
  failure : Option Failure
  deriving DecidableEq, Repr

/-- The end of a run on a terminal. -/
def endingOf (t : Terminal) : Progress → Ending
  | .over r reason => { exitCode := 0, output := (t.print (farewellText r.ticks reason)).output, failure := none }
  | .failed _ e => { exitCode := 1, output := t.output, failure := some (.execution e) }
  | .going _ => { exitCode := 0, output := t.output, failure := none }

/-- A run from a prepared processor on a terminal, of `fuel` ticks at most. -/
def playRun (fuel : Nat) (c : Configuration) (p : Processor) (t : Terminal) : Ending :=
  let t := t.print welcomeText
  match runOf c p with
  | .error e => { exitCode := 1, output := t.output, failure := some e }
  | .ok r =>
    let (progress, t) := r.play (Terminal.host (c.effectiveMode = .free) c.effectiveDiagnostics) fuel t
    endingOf t progress

/-- A whole session, of `fuel` ticks at most. -/
def play (fuel : Nat) (files : Files) (arguments : List String) (t : Terminal) : Ending :=
  match Invocation.ofArguments arguments with
  | .misuse => { exitCode := 2, output := "", failure := none }
  | .help => { exitCode := 0, output := helpText, failure := none }
  | .version => { exitCode := 0, output := productTitle ++ "\n", failure := none }
  | .run image a =>
    match prepare files image a with
    | .error e => { exitCode := 1, output := "", failure := some e }
    | .ok (c, p) => playRun fuel c p t

end CommandLine

end Mos6502
