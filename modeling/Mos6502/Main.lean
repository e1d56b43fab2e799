import Mos6502.CommandLine.Session

/-!
# The program

The command line on a real terminal: it reads the files, prints what a session prints, asks the monitor for commands
and lets the pauses of a paced run pass.
-/

namespace Mos6502

namespace CommandLine

/-- The bytes of a file, if it can be read. -/
def readFile? (path : String) : IO (Option (List UInt8)) := do
  try
    return some (← IO.FS.readBinFile path).toList
  catch _ =>
    return none

/-- The next line of the input, nothing at its end. -/
def readLine? : IO (Option Monitor.Line) := do
  let input ← IO.getStdin
  if ← input.isTty then
    let output ← IO.getStdout
    output.putStr "\x1b[1;38;5;148m>> \x1b[0m"
    output.flush
  try
    return (Monitor.Line.ofBytes (← input.getLine).toUTF8.toList).head?
  catch _ =>
    return some .undecodable

/-- Reads lines up to the first that drives the run. -/
partial def converseAloud (p : Processor) : IO Command := do
  match ← readLine? with
  | none => return .quit
  | some line =>
    match line with
    | .undecodable =>
      IO.println Monitor.undecodableText
      return .quit
    | .text text =>
      match Monitor.replyTo p text with
      | .drive command => return command
      | .print lines =>
        for line in lines do IO.println line
        converseAloud p

/-- The terminal as the surroundings of a run. -/
def terminalHost (free diagnostics : Bool) : Host IO where
  isStopped := pure false
  waitForStep p := if free then pure .step else converseAloud p
  waitForResume p := do
    if free then return .continue
    IO.println (Monitor.breakpointText p)
    converseAloud p
  observe p tick schedule := do
    if diagnostics then
      IO.print (diagnosticsText p tick schedule)
      (← IO.getStdout).flush
  pause nanoseconds := IO.sleep (UInt32.ofNat ((nanoseconds + 999999) / 1000000))
  randomByte := UInt8.ofNat <$> IO.rand 0 255

/-- Cycles until the run is over. -/
partial def runAloud (host : Host IO) (r : Run) : IO Progress := do
  match ← r.cycle host with
  | .going r => runAloud host r
  | progress => return progress

/-- Reports a failure. -/
def report (failure : Failure) : IO UInt32 := do
  IO.eprintln ("Error: " ++ failure.message)
  return 1

/-- Plays a session on the terminal. -/
def playAloud (image : String) (a : Arguments) : IO UInt32 := do
  let imageBytes ← readFile? image
  let configurationBytes ← match a.configuration with
    | some path => readFile? path
    | none => pure none
  let files : Files := fun path => if some path = a.configuration then configurationBytes else imageBytes
  match prepare files image a with
  | .error e => report e
  | .ok (c, p) =>
    IO.print welcomeText
    match runOf c p with
    | .error e => report e
    | .ok r =>
      match ← runAloud (terminalHost (c.effectiveMode = .free) c.effectiveDiagnostics) r.start with
      | .failed _ e => report (.execution e)
      | .over r reason =>
        IO.print (farewellText r.ticks reason)
        return 0
      | .going _ => return 0

end CommandLine

end Mos6502

open Mos6502.CommandLine in
/-- Runs a program image. -/
def main (arguments : List String) : IO UInt32 := do
  match Invocation.ofArguments arguments with
  | .misuse =>
    IO.eprint helpText
    return 2
  | .help =>
    IO.print helpText
    return 0
  | .version =>
    IO.println Mos6502.productTitle
    return 0
  | .run image a => playAloud image a
