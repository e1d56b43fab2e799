/-!
# YAML tokens

What a YAML text is made of once its lines and columns have been understood: brackets around collections, marks before
keys, values and items, and the scalars with their anchors and tags.
-/

namespace Mos6502

namespace Yaml

/-- How a scalar is written. -/
inductive ScalarForm where
  | plain
  | singleQuoted
  | doubleQuoted
  /-- A block that keeps its line breaks. -/
  | literal
  /-- A block whose lines are joined. -/
  | folded
  deriving DecidableEq, Repr

/-- A tag, by its bytes: the octets of an address can be written as such. -/
abbrev Tag := List UInt8

/-- A token.  The end of the text has none. -/
inductive Token where
  | versionDirective (major minor : Nat)
  /-- What a handle of tags stands for. -/
  | tagDirective (handle : String) (expansion : Tag)
  | documentStart
  | documentEnd
  | blockSequenceStart
  | blockMappingStart
  | blockEnd
  | flowSequenceStart
  | flowSequenceEnd
  | flowMappingStart
  | flowMappingEnd
  /-- The dash before an item. -/
  | blockEntry
  /-- The comma between items. -/
  | flowEntry
  | key
  | value
  | reference (name : String)
  | anchor (name : String)
  /-- A tag with its handle, which is empty if the tag is written in full. -/
  | tag (handle : String) (suffix : Tag)
  | scalar (form : ScalarForm) (text : String)
  deriving DecidableEq, Repr

end Yaml

end Mos6502
