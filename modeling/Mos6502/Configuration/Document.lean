import Mos6502.Configuration.Basic
import Mos6502.Text.Blank
import Mos6502.Yaml.Document

/-!
# Configuration documents

A configuration is written as a YAML mapping.  Keys without a meaning are ignored, a key with a meaning may be given
once only, and an option that is null stays open.
-/

namespace Mos6502

namespace Yaml

/-- What is read of the value of a key, nothing if the key is not given; it may not be given twice. -/
def Document.readField (read : Node → Reader α) (entries : List (String × Node)) (key : String) : Reader (Option α) :=
  match entries.filter fun entry => entry.1 == key with
  | [] => return none
  | [entry] => some <$> read entry.2
  | _ => failure

/-- What is read of the value of a key, nothing if the key is not given or its value is null. -/
def Document.readOptionField (d : Document) (read : Node → Reader α) (entries : List (String × Node)) (key : String) :
    Reader (Option α) := do
  return (← readField (d.readOption read) entries key).join

end Yaml

open Yaml (Document Node Reader)

/-- The mode with a name. -/
def Mode.ofName? (name : String) : Option Mode :=
  [Mode.step, Mode.free].find? fun mode => mode.name == name

/-- The policy with a name. -/
def PopPolicy.ofName? (name : String) : Option PopPolicy :=
  [PopPolicy.preserve, PopPolicy.clear].find? fun policy => policy.name == name

/-- The preset of a mapping, which must give both fields; a null there is text like any other. -/
def Preset.ofNode (d : Document) (node : Node) : Reader Preset := do
  let entries ← d.readEntries node
  let address ← Document.readField (d.read Node.text?) entries "address"
  let value ← Document.readField (d.read Node.text?) entries "value"
  match address, value with
  | some address, some value => return { address, value }
  | _, _ => failure

/-- The options of the display in a mapping. -/
def DisplayOptions.ofNode (d : Document) (node : Node) : Reader DisplayOptions := do
  let entries ← d.readEntries node
  let number (limit : Nat) := d.readOptionField (d.read (Node.number? limit)) entries
  let enabled ← d.readOptionField (d.read Node.truth?) entries "enabled"
  let scale ← number UInt64.size "scale"
  let intensity ← number UInt8.size "intensity"
  let framesPerSecond ← number UInt32.size "fps"
  return {
    enabled
    scale := scale.map UInt64.ofNat
    intensity := intensity.map UInt8.ofNat
    framesPerSecond := framesPerSecond.map UInt32.ofNat }

namespace Configuration

/-- The configuration in a mapping. -/
def ofNode (d : Document) (node : Node) : Reader Configuration := do
  let entries ← d.readEntries node
  let text := d.readOptionField (d.read Node.text?) entries
  let mode ← d.readOptionField (d.read fun node => node.name?.bind Mode.ofName?) entries "mode"
  let frequency ← d.readOptionField (d.read (Node.number? UInt32.size)) entries "frequency"
  let diagnostics ← d.readOptionField (d.read Node.truth?) entries "diagnostics"
  let loadAddress ← text "load_address"
  let popPolicy ← d.readOptionField (d.read fun node => node.name?.bind PopPolicy.ofName?) entries "pop_policy"
  let randomAddress ← text "random_byte_address"
  let presets ← d.readOptionField (fun node => do (← d.read Node.items? node).mapM (Preset.ofNode d)) entries "presets"
  let display ← d.readOptionField (DisplayOptions.ofNode d) entries "display"
  return {
    mode, diagnostics, loadAddress, popPolicy, randomAddress, presets, display
    frequency := frequency.map UInt32.ofNat }

/-- The configuration that a text is, if it is well formed; a text of blanks sets nothing. -/
def ofText? (text : String) : Option Configuration :=
  if (trimBlanks text.toList).isEmpty then some empty
  else (Document.ofText? text).bind fun d => d.readRoot empty (ofNode d)

end Configuration

end Mos6502
