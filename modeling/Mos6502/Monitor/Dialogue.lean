import Mos6502.Memory.Dump
import Mos6502.Monitor.Command
import Mos6502.Run.Basic
import Mos6502.Text.Erasure
import Mos6502.Text.Paint

/-!
# The dialogue with the monitor

How the monitor answers a line: a command that drives the run ends the dialogue, any other prints something and the
next line is read.  The end of the input is a command to quit, and so is a line that cannot be decoded.
-/

namespace Mos6502

namespace Monitor

/-- A line of the input. -/
inductive Line where
  | text (text : String)
  /-- Bytes that are not text in UTF-8. -/
  | undecodable
  deriving DecidableEq, Repr

/-- The lines of the input, without what is erased in them; the last one may have no line break. -/
def Line.ofBytes (bytes : List UInt8) : List Line :=
  let pieces := bytes.splitOn 10
  let decode (last : Bool) (piece : List UInt8) : Line :=
    let piece := if !last && piece.getLast? = some 13 then piece.dropLast else piece
    match String.fromUTF8? (ByteArray.mk piece.toArray) with
    | some decoded => .text (withoutErased decoded)
    | none => .undecodable
  let unfinished := (pieces.getLast?.filter (!·.isEmpty)).toList
  pieces.dropLast.map (decode false) ++ unfinished.map (decode true)

/-- What a line leads to. -/
inductive Reply where
  /-- The run goes on. -/
  | drive (command : Mos6502.Command)
  /-- Some lines are printed. -/
  | print (lines : List String)
  deriving DecidableEq, Repr

/-- A message about an error. -/
def errorText (message : String) : String :=
  Style.red.paint "Error" ++ ": " ++ message

/-- The message about a line that is no command, with a mark under the place where reading stopped. -/
def syntaxErrorLines (e : SyntaxError) : List String :=
  let expected := "[" ++ ", ".intercalate (e.expected.map Expectation.name) ++ "]"
  ["   " ++ String.ofList (List.replicate e.offset ' ') ++ "↑",
    errorText "could not parse the command",
    (Style.palette 240).paint ("hint: expected " ++ expected)]

/-- What is printed about a line that is no command. -/
def CommandError.lines : CommandError → List String
  | .malformed e => syntaxErrorLines e
  | .address text => [errorText (Hexadecimal.refusal text)]
  | .length text => [errorText ("cannot parse '" ++ text ++ "' as a number of lines")]

/-- The list of the commands. -/
def helpLines : List String :=
  [Style.green.paint "Available commands:",
    "    (empty), step, s        execute the next instruction",
    "    continue, c             leave single step mode and run freely",
    "    registers, r            show the registers",
    "    memory, m ADDR [LINES]  hexadecimal dump of LINES × 16 bytes",
    "    help, h, ?              this help",
    "    quit, q                 stop the program",
    "          Example: " ++ (Style.palette 130).paint "memory #0x0200 8"]

/-- The answer to a command. -/
def Command.reply (p : Processor) : Command → Reply
  | .step => .drive .step
  | .continue => .drive .continue
  | .quit => .drive .quit
  | .registers => .print [p.registers.text]
  | .memory address lines =>
    match p.memory.dump address.toUInt64 lines with
    | .ok rows => .print rows
    | .error e => .print [errorText e.message]
  | .help => .print helpLines

/-- The answer to the text of a line. -/
def replyTo (p : Processor) (text : String) : Reply :=
  match Command.parse text with
  | .ok command => command.reply p
  | .error e => .print e.lines

/-- The message about input that cannot be decoded. -/
def undecodableText : String :=
  errorText "stream did not contain valid UTF-8"

/-- The message at a breakpoint. -/
def breakpointText (p : Processor) : String :=
  Style.yellow.paint ("breakpoint, next instruction at #0x" ++ hexWord .upper p.registers.programCounter)

/-- The end of a dialogue: the command, the lines that are left, and what was printed. -/
structure Dialogue where
  command : Mos6502.Command
  rest : List Line
  printed : List String

/-- Reads lines up to the first that drives the run. -/
def converse (p : Processor) : List Line → Dialogue
  | [] => { command := .quit, rest := [], printed := [] }
  | .undecodable :: rest => { command := .quit, rest, printed := [undecodableText] }
  | .text text :: rest =>
    match replyTo p text with
    | .drive command => { command, rest, printed := [] }
    | .print lines =>
      let later := converse p rest
      { later with printed := lines ++ later.printed }

end Monitor

end Mos6502
