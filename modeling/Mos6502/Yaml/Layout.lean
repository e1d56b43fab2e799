import Mos6502.Yaml.Scalar.Block
import Mos6502.Yaml.Scalar.Plain
import Mos6502.Yaml.Scalar.Quoted
import Mos6502.Yaml.Tag

/-!
# The layout of a YAML text

Turns a text into tokens.  Indentation opens and closes the collections of a block: each open one has a margin, the
least column of what is nested in it, and everything left of a margin closes its collection.  What precedes a colon is
found to be a key only when the colon is met.  A place where a key may start is therefore remembered, one for the block
and one for each open flow collection; it is forgotten on the next line and after 1024 bytes.
-/

namespace Mos6502

namespace Yaml

/-- A place where a key may have started. -/
structure KeyStart where
  /-- Whether nothing but a key can stand there. -/
  required : Bool
  /-- The number of tokens before it. -/
  position : Nat
  start : Cursor

/-- The longest distance in bytes from the start of a key to its colon. -/
def longestKey : Nat := 1024

/-- Whether a colon at a place comes too late for a key. -/
def KeyStart.isStale (k : KeyStart) (c : Cursor) : Bool :=
  k.start.line < c.line || k.start.offset + longestKey < c.offset

/-- A text that has been turned into tokens up to a place. -/
structure Layout where
  cursor : Cursor
  /-- The tokens so far; in one slot with each the marks that were put before it later. -/
  slots : Array (List Token)
  /-- The margins of the open block collections, innermost first. -/
  margins : List Nat
  /-- Where a key of the innermost flow collection, or of the block, may have started. -/
  key : Option KeyStart
  /-- The same for the collections around it, innermost first: one for each open flow collection. -/
  outer : List (Option KeyStart)
  /-- Whether a key may start here. -/
  keyAllowed : Bool

namespace Layout

/-- The beginning of a text. -/
def ofChars (chars : List Char) : Layout :=
  { cursor := .ofChars chars, slots := #[], margins := [], key := none, outer := [], keyAllowed := true }

/-- Whether the place is in a flow collection. -/
def inFlow (l : Layout) : Bool :=
  !l.outer.isEmpty

/-- The margin of the innermost block collection. -/
def margin (l : Layout) : Nat :=
  l.margins.headD 0

/-- The layout with a token. -/
def push (l : Layout) (token : Token) : Layout :=
  { l with slots := l.slots.push [token] }

/-- The layout with a token of some characters on one line. -/
def take (l : Layout) (token : Token) (length : Nat) : Layout :=
  { l with slots := l.slots.push [token], cursor := l.cursor.skip length }

/-! ### Indentation -/

/-- Opens a block collection in a column right of the margin; `opening` is its token. -/
def indent (l : Layout) (opening : Token) : Layout :=
  if !l.inFlow && l.margin ≤ l.cursor.column then
    { l.push opening with margins := (l.cursor.column + 1) :: l.margins }
  else l

/-- Closes the block collections with a margin beyond a limit. -/
def dedent (l : Layout) (limit : Nat) : Layout :=
  if l.inFlow then l
  else
    let closed := l.margins.takeWhile (limit < ·)
    { l with
      slots := closed.foldl (fun slots _ => slots.push [.blockEnd]) l.slots
      margins := l.margins.drop closed.length }

/-! ### Keys -/

/-- Forgets the start of the innermost key, which must not be required. -/
def dropKey (l : Layout) : Option Layout :=
  if l.key.any KeyStart.required then none else some { l with key := none }

/-- Forgets every start of a key that comes too late for a colon here; none of them may be required. -/
def dropStaleKeys (l : Layout) : Option Layout :=
  let stale (key : Option KeyStart) : Bool := key.any (·.isStale l.cursor)
  let keep (key : Option KeyStart) : Option KeyStart := if stale key then none else key
  if (l.key :: l.outer).any fun key => stale key && key.any KeyStart.required then none
  else some { l with key := keep l.key, outer := l.outer.map keep }

/-- Remembers that a key may start here, if it may. -/
def startKey (l : Layout) : Option Layout :=
  if l.keyAllowed then
    l.dropKey.map fun l =>
      { l with
        key := some
          { required := !l.inFlow && l.margin == l.cursor.column + 1
            position := l.slots.size
            start := l.cursor } }
  else some l

/-- Marks the key that started at a place, and opens a block mapping there if it is right of the margin. -/
def markKey (l : Layout) (k : KeyStart) : Layout :=
  let opens := !l.inFlow && l.margin ≤ k.start.column
  let marks : List Token := if opens then [.blockMappingStart, .key] else [.key]
  { l with
    slots := l.slots.modify k.position (marks ++ ·)
    margins := if opens then (k.start.column + 1) :: l.margins else l.margins
    key := none
    keyAllowed := false }

/-! ### The tokens -/

/-- Passes blanks, comments and line breaks.  Tabs are blanks only where no key may start. -/
def skipBlanks (fuel : Nat) (l : Layout) : Layout :=
  match fuel with
  | 0 => l
  | fuel + 1 =>
    let c := l.cursor
    let c := if c.column == 0 && c.isAt (· == '\ufeff') then c.skip 1 else c
    let c := c.skipWhile fun char => char == ' ' || (char == '\t' && (l.inFlow || !l.keyAllowed))
    let c := c.skipComment
    match c.break? with
    | some (_, c) => skipBlanks fuel { l with cursor := c, keyAllowed := l.keyAllowed || !l.inFlow }
    | none => { l with cursor := c }

/-- A directive, which closes all block collections. -/
def directive (fuel : Nat) (l : Layout) : Option Layout :=
  ((l.dedent 0).dropKey).bind fun l =>
    (directive? fuel l.cursor).map fun (token, cursor) => { l.push token with cursor, keyAllowed := false }

/-- The marker of a document, which closes all block collections. -/
def marker (l : Layout) (token : Token) : Option Layout :=
  ((l.dedent 0).dropKey).map fun l => { l.take token 3 with keyAllowed := false }

/-- The opening bracket of a flow collection, which may be a key as a whole. -/
def openFlow (l : Layout) (token : Token) : Option Layout :=
  l.startKey.map fun l => { l.take token 1 with key := none, outer := l.key :: l.outer, keyAllowed := true }

/-- The closing bracket of a flow collection. -/
def closeFlow (l : Layout) (token : Token) : Option Layout :=
  l.dropKey.map fun l =>
    let (key, outer) := match l.outer with
      | key :: outer => (key, outer)
      | [] => (l.key, [])
    { l.take token 1 with key, outer, keyAllowed := false }

/-- The comma in a flow collection. -/
def comma (l : Layout) : Option Layout :=
  l.dropKey.map fun l => { l.take .flowEntry 1 with keyAllowed := true }

/-- The dash before an item; in a block it must stand where a key may. -/
def dash (l : Layout) : Option Layout :=
  if !l.inFlow && !l.keyAllowed then none
  else ((l.indent .blockSequenceStart).dropKey).map fun l => { l.take .blockEntry 1 with keyAllowed := true }

/-- The mark before a key that is not found by its colon. -/
def questionMark (l : Layout) : Option Layout :=
  if !l.inFlow && !l.keyAllowed then none
  else ((l.indent .blockMappingStart).dropKey).map fun l => { l.take .key 1 with keyAllowed := !l.inFlow }

/-- The colon before a value. -/
def colon (l : Layout) : Option Layout :=
  match l.key with
  | some k => some ((l.markKey k).take .value 1)
  | none =>
    if !l.inFlow && !l.keyAllowed then none
    else some { (l.indent .blockMappingStart).take .value 1 with keyAllowed := !l.inFlow }

/-- The name of an anchor, after its sign. -/
def anchor (l : Layout) (token : String → Token) : Option Layout :=
  l.startKey.bind fun l =>
    let name := (l.cursor.skip 1).takeWhile isWordChar
    let c := l.cursor.skip (name.length + 1)
    let isFollower (char : Char) : Bool := ['?', ':', ',', ']', '\x7d', '%', '@', '\x60'].contains char
    if !name.isEmpty && (c.atGap || c.isAt isFollower) then
      some { l.push (token (String.ofList name)) with cursor := c, keyAllowed := false }
    else none

/-- A tag. -/
def tag (fuel : Nat) (l : Layout) : Option Layout :=
  l.startKey.bind fun l =>
    (tag? fuel l.inFlow l.cursor).map fun (token, cursor) => { l.push token with cursor, keyAllowed := false }

/-- A scalar that was read; a key may follow it on a later line. -/
def scalar (l : Layout) (form : ScalarForm) (read : Option ScalarRead) : Option Layout :=
  read.map fun r => { l.push (.scalar form r.text) with cursor := r.cursor, keyAllowed := r.fresh }

/-- A block scalar. -/
def block (fuel : Nat) (l : Layout) (literal : Bool) : Option Layout :=
  l.dropKey.bind fun l => l.scalar (if literal then .literal else .folded) (block? fuel literal l.margin l.cursor)

/-- A quoted scalar. -/
def quoted (fuel : Nat) (l : Layout) (double : Bool) : Option Layout :=
  l.startKey.bind fun l => l.scalar (if double then .doubleQuoted else .singleQuoted) (quoted? fuel double l.cursor)

/-- A plain scalar. -/
def plain (fuel : Nat) (l : Layout) : Option Layout :=
  if startsPlain l.inFlow l.cursor.rest then
    l.startKey.bind fun l => l.scalar .plain (plain? fuel l.inFlow l.margin l.cursor)
  else none

/-- The next token, at a place that is not blank.  The fuel must exceed the number of characters that are left. -/
def token (fuel : Nat) (l : Layout) : Option Layout :=
  let c := l.cursor
  let alone := startsGap c.rest.tail
  if c.column == 0 && c.isAt (· == '%') then l.directive fuel
  else if c.column == 0 && startsMarker '-' c.rest then l.marker .documentStart
  else if c.column == 0 && startsMarker '.' c.rest then l.marker .documentEnd
  else
    match c.rest.head? with
    | some '[' => l.openFlow .flowSequenceStart
    | some '\x7b' => l.openFlow .flowMappingStart
    | some ']' => l.closeFlow .flowSequenceEnd
    | some '\x7d' => l.closeFlow .flowMappingEnd
    | some ',' => l.comma
    | some '-' => if alone then l.dash else l.plain fuel
    | some '?' => if l.inFlow || alone then l.questionMark else l.plain fuel
    | some ':' => if l.inFlow || alone then l.colon else l.plain fuel
    | some '*' => l.anchor .reference
    | some '&' => l.anchor .anchor
    | some '!' => l.tag fuel
    | some '|' => if l.inFlow then none else l.block fuel true
    | some '>' => if l.inFlow then none else l.block fuel false
    | some '\'' => l.quoted fuel false
    | some '"' => l.quoted fuel true
    | _ => l.plain fuel

/-- The tokens of the rest of a text, in slots.  The fuel must exceed the number of characters that are left. -/
def finish (fuel : Nat) (l : Layout) : Option (Array (List Token)) :=
  match fuel with
  | 0 => none
  | fuel + 1 =>
    ((l.skipBlanks (fuel + 1)).dropStaleKeys).bind fun l =>
      if l.cursor.atEnd then (l.dedent 0).dropKey.map Layout.slots
      else ((l.dedent (l.cursor.column + 1)).token (fuel + 1)).bind (finish fuel)

end Layout

/-- The tokens of a text. -/
def tokens? (chars : List Char) : Option (List Token) :=
  ((Layout.ofChars chars).finish (chars.length + 1)).map fun slots => slots.toList.flatten

end Yaml

end Mos6502
