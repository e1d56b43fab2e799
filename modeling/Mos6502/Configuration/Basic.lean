import Mos6502.Hexadecimal
import Mos6502.Memory.Basic
import Mos6502.Processor.Basic
import Mos6502.Run.Schedule

/-!
# Configurations

A configuration sets some of the options of a run and leaves the others open.  Configurations are layered: what a
later layer sets hides what an earlier one sets, one option at a time.  Addresses and values are kept as they are
written and read when they are used.
-/

namespace Mos6502

/-- The two ways to run a program. -/
inductive Mode where
  | step
  | free
  deriving DecidableEq, Repr

/-- The name of a mode. -/
def Mode.name : Mode → String
  | .step => "step"
  | .free => "free"

/-- A byte that is stored before the run, as it is written. -/
structure Preset where
  address : String
  value : String
  deriving DecidableEq, Repr

/-- The options of the display. -/
structure DisplayOptions where
  enabled : Option Bool
  scale : Option UInt64
  intensity : Option UInt8
  framesPerSecond : Option UInt32
  deriving DecidableEq, Repr

/-- The options of a run. -/
structure Configuration where
  mode : Option Mode
  frequency : Option UInt32
  diagnostics : Option Bool
  loadAddress : Option String
  popPolicy : Option PopPolicy
  randomAddress : Option String
  presets : Option (List Preset)
  display : Option DisplayOptions
  deriving DecidableEq, Repr

/-- Why an option cannot be used. -/
inductive ConfigurationError where
  | hexadecimal (text : String)
  | byteOverflow (text : String)
  deriving DecidableEq, Repr

/-- The wording of an error. -/
def ConfigurationError.message : ConfigurationError → String
  | .hexadecimal text => Hexadecimal.refusal text
  | .byteOverflow text => "value '" ++ text ++ "' does not fit in one byte"

/-- The value of a literal in a configuration. -/
def readHexadecimal (text : String) : Except ConfigurationError UInt16 :=
  match Hexadecimal.parse? text with
  | some value => .ok value
  | none => .error (.hexadecimal text)

/-- The address and the byte of a preset; the address is read first. -/
def Preset.read (p : Preset) : Except ConfigurationError (UInt16 × UInt8) := do
  let address ← readHexadecimal p.address
  let value ← readHexadecimal p.value
  if value.toNat < 256 then pure (address, value.toUInt8) else throw (.byteOverflow p.value)

namespace DisplayOptions

/-- Options that set nothing. -/
def empty : DisplayOptions :=
  { enabled := none, scale := none, intensity := none, framesPerSecond := none }

/-- The options of two layers, the second over the first. -/
def merge (lower upper : DisplayOptions) : DisplayOptions :=
  { enabled := upper.enabled.or lower.enabled
    scale := upper.scale.or lower.scale
    intensity := upper.intensity.or lower.intensity
    framesPerSecond := upper.framesPerSecond.or lower.framesPerSecond }

/-- The display is off unless it is enabled. -/
def isEnabled (d : DisplayOptions) : Bool :=
  d.enabled.getD false

/-- The side of a cell in pixels, one at least. -/
def effectiveScale (d : DisplayOptions) : UInt64 :=
  max 1 (d.scale.getD 10)

/-- The factor from a byte to its grey. -/
def effectiveIntensity (d : DisplayOptions) : UInt8 :=
  d.intensity.getD 16

/-- The frames per second, one at least. -/
def effectiveFramesPerSecond (d : DisplayOptions) : UInt32 :=
  max 1 (d.framesPerSecond.getD 16)

end DisplayOptions

namespace Configuration

/-- The configuration that sets nothing. -/
def empty : Configuration :=
  { mode := none, frequency := none, diagnostics := none, loadAddress := none, popPolicy := none,
    randomAddress := none, presets := none, display := none }

/-- The lowest layer of an interactive run: a random byte at 0x00fe, and 0x64 stored at 0x00ff. -/
def interactive : Configuration :=
  { empty with
    randomAddress := some "0x00fe"
    presets := some [{ address := "0x00ff", value := "0x64" }] }

/-- The options of two layers, the second over the first. -/
def merge (lower upper : Configuration) : Configuration :=
  { mode := upper.mode.or lower.mode
    frequency := upper.frequency.or lower.frequency
    diagnostics := upper.diagnostics.or lower.diagnostics
    loadAddress := upper.loadAddress.or lower.loadAddress
    popPolicy := upper.popPolicy.or lower.popPolicy
    randomAddress := upper.randomAddress.or lower.randomAddress
    presets := upper.presets.or lower.presets
    display := Option.merge DisplayOptions.merge lower.display upper.display }

/-- The layers from the lowest to the highest in one configuration. -/
def ofLayers : List Configuration → Configuration
  | [] => empty
  | lowest :: others => others.foldl merge lowest

/-! ### Effective values -/

/-- Programs run step by step unless the mode is set. -/
def effectiveMode (c : Configuration) : Mode :=
  c.mode.getD .step

/-- The ticks per second, zero for as many as possible. -/
def effectiveFrequency (c : Configuration) : UInt32 :=
  c.frequency.getD 0

/-- Whether the state is shown after each tick. -/
def effectiveDiagnostics (c : Configuration) : Bool :=
  c.diagnostics.getD true

/-- Pulled stack cells keep their value unless the policy is set. -/
def effectivePopPolicy (c : Configuration) : PopPolicy :=
  c.popPolicy.getD .preserve

/-- The schedule that mode and frequency give. -/
def schedule (c : Configuration) : Schedule :=
  match c.effectiveMode with
  | .step => .stepwise
  | .free => .free (.ofFrequency c.effectiveFrequency)

/-- Where the program is loaded. -/
def effectiveLoadAddress (c : Configuration) : Except ConfigurationError UInt16 :=
  match c.loadAddress with
  | some text => readHexadecimal text
  | none => .ok programStart

/-- Where random bytes are stored, if anywhere. -/
def effectiveRandomAddress (c : Configuration) : Except ConfigurationError (Option UInt16) :=
  match c.randomAddress with
  | some text => (readHexadecimal text).map some
  | none => .ok none

/-- The bytes that are stored before the run; the first preset that cannot be read is the error. -/
def effectivePresets (c : Configuration) : Except ConfigurationError (List (UInt16 × UInt8)) :=
  (c.presets.getD []).mapM Preset.read

/-- The options of the display. -/
def effectiveDisplay (c : Configuration) : DisplayOptions :=
  c.display.getD .empty

end Configuration

end Mos6502
