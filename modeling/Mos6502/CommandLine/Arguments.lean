import Mos6502.Configuration.Basic

/-!
# Command line arguments

The arguments name the program image and may set options.  An option is written with its long name, followed by its
value or by an equals sign and its value, or with its letter, followed by its value or joined with it.  Letters of
options without a value may be joined.  After `--` everything is the name of a file.  Each option may be given once.
-/

namespace Mos6502

namespace CommandLine

/-- The arguments of a run. -/
structure Arguments where
  image : Option String
  configuration : Option String
  mode : Option Mode
  frequency : Option UInt32
  loadAddress : Option String
  quiet : Bool
  display : Bool
  verbose : Bool
  deriving DecidableEq, Repr

/-- What the command line asks for. -/
inductive Invocation where
  | run (image : String) (arguments : Arguments)
  | help
  | version
  | misuse
  deriving DecidableEq, Repr

/-- The options with a value. -/
inductive ValueOption where
  | configuration
  | mode
  | frequency
  | loadAddress
  deriving DecidableEq, Repr

/-- The options without a value. -/
inductive Switch where
  | quiet
  | display
  | verbose
  | help
  | version
  deriving DecidableEq, Repr

/-- The option with a long name. -/
def longOption? : String → Option (ValueOption ⊕ Switch)
  | "config" => some (.inl .configuration)
  | "mode" => some (.inl .mode)
  | "frequency" => some (.inl .frequency)
  | "load-address" => some (.inl .loadAddress)
  | "no-diagnostics" => some (.inr .quiet)
  | "display" => some (.inr .display)
  | "verbose" => some (.inr .verbose)
  | "help" => some (.inr .help)
  | "version" => some (.inr .version)
  | _ => none

/-- The option with a letter. -/
def letterOption? : Char → Option (ValueOption ⊕ Switch)
  | 'c' => some (.inl .configuration)
  | 'm' => some (.inl .mode)
  | 'f' => some (.inl .frequency)
  | 'l' => some (.inl .loadAddress)
  | 'd' => some (.inr .display)
  | 'v' => some (.inr .verbose)
  | 'h' => some (.inr .help)
  | 'V' => some (.inr .version)
  | _ => none

/-- The number of a frequency: decimal digits, perhaps with a sign. -/
def frequency? (text : String) : Option UInt32 :=
  let (negative, digits) := match text.toList with
    | '+' :: digits => (false, digits)
    | '-' :: digits => (true, digits)
    | digits => (false, digits)
  if digits.isEmpty then none
  else
    ((numeral? 10 digits).filter fun value => value < UInt32.size && (!negative || value == 0)).map UInt32.ofNat

namespace Arguments

/-- No arguments. -/
def none : Arguments :=
  { image := .none, configuration := .none, mode := .none, frequency := .none, loadAddress := .none, quiet := false,
    display := false, verbose := false }

/-- The arguments with the name of a file, which is not empty and given once. -/
def setImage? (a : Arguments) (path : String) : Option Arguments :=
  if a.image.isSome || path.isEmpty then .none else some { a with image := some path }

/-- The arguments with the value of an option, if it is a value of that option and the first one. -/
def setValue? (a : Arguments) (option : ValueOption) (value : String) : Option Arguments :=
  match option with
  | .configuration =>
    if a.configuration.isSome || value.isEmpty then .none else some { a with configuration := some value }
  | .mode =>
    if a.mode.isSome then .none
    else ([Mode.step, Mode.free].find? fun mode => mode.name == value).map fun mode => { a with mode := some mode }
  | .frequency =>
    if a.frequency.isSome then .none else (frequency? value).map fun n => { a with frequency := some n }
  | .loadAddress =>
    if a.loadAddress.isSome then .none else some { a with loadAddress := some value }

/-- The options of the arguments as the highest layer of the configuration. -/
def layer (a : Arguments) : Configuration :=
  { Configuration.empty with
    mode := a.mode
    frequency := a.frequency
    diagnostics := if a.quiet then some false else .none
    loadAddress := a.loadAddress
    display := if a.display then some { DisplayOptions.empty with enabled := some true } else .none }

end Arguments

/-- The arguments with an option without a value, or what such an option asks for by itself. -/
def setSwitch (a : Arguments) : Switch → Except Invocation Arguments
  | .quiet => if a.quiet then .error .misuse else .ok { a with quiet := true }
  | .display => if a.display then .error .misuse else .ok { a with display := true }
  | .verbose => if a.verbose then .error .misuse else .ok { a with verbose := true }
  | .help => .error .help
  | .version => .error .version

/-- Whether an argument is written like an option. -/
def looksLikeOption (argument : String) : Bool :=
  argument.startsWith "-" && argument != "-"

/-- The letters of an argument that begins with one dash.  An option with a value takes the letters after its own as the
value; the last letter may be such an option without them, which then takes the next argument. -/
def readLetters (a : Arguments) : List Char → Except Invocation (Arguments × Option ValueOption)
  | [] => .ok (a, none)
  | letter :: more =>
    match letterOption? letter with
    | none => .error .misuse
    | some (.inr switch) =>
      match setSwitch a switch with
      | .ok a => readLetters a more
      | .error i => .error i
    | some (.inl option) =>
      let set (value : List Char) : Except Invocation (Arguments × Option ValueOption) :=
        match a.setValue? option (String.ofList value) with
        | some a => .ok (a, none)
        | none => .error .misuse
      match more with
      | [] => .ok (a, some option)
      | '=' :: value => set value
      | value => set value

/-- An argument that begins with two dashes. -/
def readLong (a : Arguments) (chars : List Char) : Except Invocation (Arguments × Option ValueOption) :=
  let name := String.ofList (chars.takeWhile (· != '='))
  let value := chars.dropWhile (· != '=')
  match longOption? name, value with
  | some (.inr switch), [] => (setSwitch a switch).map (·, none)
  | some (.inl option), [] => .ok (a, some option)
  | some (.inl option), _ :: value =>
    match a.setValue? option (String.ofList value) with
    | some a => .ok (a, none)
    | none => .error .misuse
  | _, _ => .error .misuse

/-- An argument that is an option. -/
def readOption (a : Arguments) (argument : String) : Except Invocation (Arguments × Option ValueOption) :=
  match argument.toList with
  | '-' :: '-' :: chars => readLong a chars
  | chars => readLetters a (chars.drop 1)

/-- The rest of the arguments, where `filesOnly` tells that only names of files follow. -/
def readFrom (a : Arguments) (filesOnly : Bool) : List String → Except Invocation Arguments
  | [] => .ok a
  | argument :: rest =>
    if filesOnly || !looksLikeOption argument then
      match a.setImage? argument with
      | some a => readFrom a filesOnly rest
      | none => .error .misuse
    else if argument == "--" then readFrom a true rest
    else
      match readOption a argument, rest with
      | .error i, _ => .error i
      | .ok (a, none), rest => readFrom a false rest
      | .ok (_, some _), [] => .error .misuse
      | .ok (a, some option), value :: rest =>
        if looksLikeOption value then .error .misuse
        else
          match a.setValue? option value with
          | some a => readFrom a false rest
          | none => .error .misuse

/-- What a list of arguments asks for. -/
def Invocation.ofArguments (arguments : List String) : Invocation :=
  match readFrom .none false arguments with
  | .error i => i
  | .ok a =>
    match a.image with
    | some image => .run image a
    | none => .misuse

end CommandLine

end Mos6502
