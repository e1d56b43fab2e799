import Mos6502.Hexadecimal

/-!
# Monitor commands

The language of the monitor.  A line holds one keyword or none; `memory` is followed by an address and perhaps by a
number of lines.  Blanks between the parts are optional.  A token takes as many characters as it can: an address has
at most four digits, so a fifth one starts the number of lines.  A line that does not fit is reported with the place
where reading stopped and with what could have followed there.  Only when the whole line fits are its tokens given
their values.
-/

namespace Mos6502

namespace Monitor

/-- The commands of the monitor. -/
inductive Command where
  | step
  | continue
  | quit
  | registers
  | memory (address : UInt16) (lines : UInt64)
  | help
  deriving DecidableEq, Repr

/-- The keywords. -/
inductive Keyword where
  | step
  | continue
  | quit
  | registers
  | memory
  | help
  deriving DecidableEq, Repr

/-- The spellings of a keyword, the longest first. -/
def Keyword.spellings : Keyword → List String
  | .step => ["step", "s"]
  | .continue => ["continue", "c"]
  | .quit => ["quit", "q"]
  | .registers => ["registers", "r"]
  | .memory => ["memory", "m"]
  | .help => ["help", "h", "?"]

/-- Every keyword. -/
def Keyword.all : List Keyword :=
  [.step, .continue, .quit, .registers, .memory, .help]

/-- What can follow at some place of a line. -/
inductive Expectation where
  | endOfLine
  | address
  | length
  | keyword (keyword : Keyword)
  /-- A whole line. -/
  | sentence
  deriving DecidableEq, Repr

/-- The name of an expectation in a report. -/
def Expectation.name : Expectation → String
  | .endOfLine => "EOI"
  | .address => "address"
  | .length => "length"
  | .keyword .step => "step_cmd"
  | .keyword .continue => "continue_cmd"
  | .keyword .quit => "quit_cmd"
  | .keyword .registers => "registers_cmd"
  | .keyword .memory => "memory_cmd"
  | .keyword .help => "help_cmd"
  | .sentence => "sentence"

/-- Where reading a line stopped, and what could have followed there. -/
structure SyntaxError where
  offset : Nat
  expected : List Expectation
  deriving DecidableEq, Repr

/-- Why a line is no command. -/
inductive CommandError where
  | malformed (error : SyntaxError)
  /-- An address that is no hexadecimal literal. -/
  | address (text : String)
  /-- A number of lines that is no 64-bit number. -/
  | length (text : String)
  deriving DecidableEq, Repr

/-- A place in a line: what is left, and how much has been read. -/
structure Place where
  offset : Nat
  rest : List Char

namespace Place

/-- The place some characters further on. -/
def skip (p : Place) (count : Nat) : Place :=
  { offset := p.offset + count, rest := p.rest.drop count }

/-- The characters at the front that satisfy a condition, at most `limit` of them. -/
def run (p : Place) (limit : Nat) (condition : Char → Bool) : List Char :=
  (p.rest.take limit).takeWhile condition

/-- The place after the blanks. -/
def skipBlanks (p : Place) : Place :=
  p.skip (p.rest.takeWhile fun c => c == ' ' || c == '\t').length

/-- Whether a text is at the front. -/
def startsWith (p : Place) (text : String) : Bool :=
  text.toList.isPrefixOf p.rest

/-- The text from a place to a later one. -/
def textTo (p later : Place) : String :=
  String.ofList (p.rest.take (later.offset - p.offset))

/-- The first of some texts that is at the front, as the place after it. -/
def after? (p : Place) (texts : List String) : Option Place :=
  (texts.find? p.startsWith).map fun text => p.skip text.length

end Place

/-! ### Tokens -/

/-- The keyword at the front. -/
def keyword? (p : Place) : Option (Keyword × Place) :=
  Keyword.all.findSome? fun keyword => (p.after? keyword.spellings).map (keyword, ·)

/-- The place after one or more digits at the front, `limit` of them at most. -/
def afterDigits? (base limit : Nat) (p : Place) : Option Place :=
  let digits := p.run limit fun c => (digitValue? base c).isSome
  if digits.isEmpty then none else some (p.skip digits.length)

/-- An address: one to four hexadecimal digits, perhaps with a prefix. -/
def address? (p : Place) : Option (String × Place) :=
  (afterDigits? 16 4 ((p.after? ["#0x", "0x", "$"]).getD p)).map fun later => (p.textTo later, later)

/-- A number of lines: one to three decimal digits. -/
def length? (p : Place) : Option (String × Place) :=
  (afterDigits? 10 3 p).map fun later => (p.textTo later, later)

/-! ### Commands -/

/-- The number of lines of a dump unless one is given. -/
def defaultLines : UInt64 := 4

/-- The number of lines that a text stands for. -/
def lineCount (text : String) : Except CommandError UInt64 :=
  match (numeral? 10 text.toList).filter (· < UInt64.size) with
  | some lines => .ok (UInt64.ofNat lines)
  | none => .error (.length text)

/-- The command to dump memory from its arguments as they are written. -/
def Command.ofArguments (address : String) (length : Option String) : Except CommandError Command :=
  match Hexadecimal.parse? address with
  | none => .error (.address address)
  | some value =>
    match length with
    | none => .ok (.memory value defaultLines)
    | some text => (lineCount text).map (.memory value)

/-- The command if the line is over, and a report of what was expected otherwise. -/
def finish (p : Place) (expected : List Expectation) (command : Except CommandError Command) :
    Except CommandError Command :=
  if p.rest.isEmpty then command else .error (.malformed { offset := p.offset, expected })

/-- The command to dump memory; its arguments are at the front. -/
def memoryCommand (p : Place) : Except CommandError Command :=
  match address? p with
  | none => .error (.malformed { offset := p.offset, expected := [.address] })
  | some (address, p) =>
    let p := p.skipBlanks
    match length? p with
    | none => finish p [.endOfLine, .length] (Command.ofArguments address none)
    | some (length, p) => finish p.skipBlanks [.endOfLine] (Command.ofArguments address (some length))

/-- What is expected where no keyword is: a whole line at its beginning, and its parts after blanks. -/
def missingKeyword (p : Place) : SyntaxError :=
  { offset := p.offset
    expected := if p.offset = 0 then [.sentence] else .endOfLine :: Keyword.all.map .keyword }

/-- The command of a line; an empty line is a step. -/
def Command.parse (line : String) : Except CommandError Command :=
  let p : Place := { offset := 0, rest := line.toList }
  let p := p.skipBlanks
  match keyword? p with
  | none => if p.rest.isEmpty then .ok .step else .error (.malformed (missingKeyword p))
  | some (keyword, p) =>
    let p := p.skipBlanks
    match keyword with
    | .step => finish p [.endOfLine] (.ok .step)
    | .continue => finish p [.endOfLine] (.ok .continue)
    | .quit => finish p [.endOfLine] (.ok .quit)
    | .registers => finish p [.endOfLine] (.ok .registers)
    | .memory => memoryCommand p
    | .help => finish p [.endOfLine] (.ok .help)

end Monitor

end Mos6502
