import Mos6502.Yaml.Node

/-!
# Nodes from tokens

Builds the node of a document from its tokens.  References are resolved to the numbers of anchors on the way, so an
anchor must come before the references to it; a name may be given to a later node again.
-/

namespace Mos6502

namespace Yaml

/-- A node with an anchor. -/
structure Target where
  anchor : Nat
  /-- The number of parts of the document before the node. -/
  position : Nat
  node : Node

/-- The tokens that are left, and what is known from those before. -/
structure Building where
  tokens : List Token
  /-- What the handles of tags stand for. -/
  handles : List (String × Tag)
  /-- The numbers that the names of anchors stand for. -/
  names : List (String × Nat)
  /-- The number of parts so far: scalars, references, and beginnings and ends of collections. -/
  size : Nat
  targets : List Target

/-- A step of building, which fails where the tokens are malformed. -/
abbrev Builder := StateT Building Option

namespace Builder

/-- The next token, nothing at the end. -/
def peek : Builder (Option Token) := do
  return (← get).tokens.head?

/-- Passes the next token. -/
def pass : Builder Unit :=
  modify fun b => { b with tokens := b.tokens.tail }

/-- Whether the next token is a given one, which is passed then. -/
def passIf (token : Token) : Builder Bool := do
  if (← peek) = some token then
    pass
    return true
  else return false

/-- Whether the next item or entry of a flow collection may start: there is a comma before each but the first. -/
def separated (first : Bool) : Builder Bool := do
  if first then return true
  else passIf .flowEntry

/-- Counts a part. -/
def count : Builder Unit :=
  modify fun b => { b with size := b.size + 1 }

/-- The number of an anchor that is met.  It is the number of different names before it, also if the name is given
again; a later anchor with the same number takes the place of an earlier one. -/
def declare (name : String) : Builder Nat := do
  let b ← get
  let number := b.names.length
  let others := b.names.filter fun entry => entry.1 != name
  set { b with names := (name, number) :: others }
  return number

/-- The number that a name stands for. -/
def resolve (name : String) : Builder Nat := do
  match (← get).names.lookup name with
  | some number => return number
  | none => failure

/-- The tag with a handle and a suffix. -/
def fullTag (handle : String) (suffix : Tag) : Builder Tag := do
  if handle.isEmpty then return suffix
  match (← get).handles.lookup handle with
  | some expansion => return expansion ++ suffix
  | none => failure

/-- The tag at the front, if there is one. -/
def tag? : Builder (Option Tag) := do
  match ← peek with
  | some (.tag handle suffix) =>
    pass
    return some (← fullTag handle suffix)
  | _ => return none

/-- The name of the anchor at the front, if there is one. -/
def anchorName? : Builder (Option String) := do
  match ← peek with
  | some (.anchor name) =>
    pass
    return some name
  | _ => return none

/-- The anchor and the tag of a node, in any order. -/
def marks : Builder (Option String × Option Tag) := do
  match ← anchorName? with
  | some name => return (some name, ← tag?)
  | none =>
    let tag ← tag?
    let name ← if tag.isSome then anchorName? else pure none
    return (name, tag)

/-- Builds a node in its place: its anchor is declared before its content is built and can be referred to from then
on. -/
def placed (name : Option String) (tag : Option Tag) (build : Properties → Builder Node) : Builder Node := do
  match name with
  | none => build { anchor := none, tag }
  | some name =>
    let position := (← get).size
    let anchor ← declare name
    let node ← build { anchor := some anchor, tag }
    modify fun b => { b with targets := { anchor, position, node } :: b.targets }
    return node

/-- A scalar. -/
def scalar (form : ScalarForm) (text : String) (p : Properties) : Builder Node := do
  count
  return .scalar p form text

/-- A node where nothing is written. -/
def absent : Builder Node :=
  scalar .plain "" .none

/-- A collection, counted at its beginning and its end. -/
def collection (content : Builder Node) : Builder Node := do
  count
  let node ← content
  count
  return node

/-- A node, or an absent one if the next token is one of those that follow a node. -/
def orAbsent (followers : List Token) (node : Builder Node) : Builder Node := do
  match ← peek with
  | some token => if followers.contains token then absent else node
  | none => node

mutual

/-- A node.  Collections of a block can start only where `block` says so, and a sequence that is not indented only
where `loose` does. -/
def node (fuel : Nat) (block loose : Bool) : Builder Node :=
  match fuel with
  | 0 => failure
  | fuel + 1 => do
    match ← peek with
    | some (.reference name) =>
      pass
      count
      return .reference (← resolve name)
    | _ =>
      let (name, tag) ← marks
      match ← peek with
      | some (.scalar form text) =>
        pass
        placed name tag (scalar form text)
      | some .flowSequenceStart =>
        pass
        placed name tag fun p => collection (.sequence p <$> flowItems fuel true [])
      | some .flowMappingStart =>
        pass
        placed name tag fun p => collection (.mapping p <$> flowEntries fuel true [])
      | next =>
        if block && next = some .blockSequenceStart then
          pass
          placed name tag fun p => collection (.sequence p <$> blockItems fuel [])
        else if block && next = some .blockMappingStart then
          pass
          placed name tag fun p => collection (.mapping p <$> blockEntries fuel [])
        else if loose && next = some .blockEntry then
          placed name tag fun p => collection (.sequence p <$> looseItems fuel [])
        else if name.isSome || tag.isSome then placed name tag (scalar .plain "")
        else failure

/-- The items of a block sequence after those in `done`, latest first. -/
def blockItems (fuel : Nat) (done : List Node) : Builder (List Node) :=
  match fuel with
  | 0 => failure
  | fuel + 1 => do
    if ← passIf .blockEntry then
      let item ← orAbsent [.blockEntry, .blockEnd] (node fuel true false)
      blockItems fuel (item :: done)
    else if ← passIf .blockEnd then return done.reverse
    else failure

/-- The items of a block sequence that is not indented. -/
def looseItems (fuel : Nat) (done : List Node) : Builder (List Node) :=
  match fuel with
  | 0 => failure
  | fuel + 1 => do
    if ← passIf .blockEntry then
      let item ← orAbsent [.blockEntry, .key, .value, .blockEnd] (node fuel true false)
      looseItems fuel (item :: done)
    else return done.reverse

/-- The entries of a block mapping after those in `done`, latest first. -/
def blockEntries (fuel : Nat) (done : List (Node × Node)) : Builder (List (Node × Node)) :=
  match fuel with
  | 0 => failure
  | fuel + 1 => do
    if ← passIf .key then
      let key ← orAbsent [.key, .value, .blockEnd] (node fuel true true)
      let value ←
        if ← passIf .value then orAbsent [.key, .value, .blockEnd] (node fuel true true)
        else absent
      blockEntries fuel ((key, value) :: done)
    else if ← passIf .blockEnd then return done.reverse
    else failure

/-- The items of a flow sequence after those in `done`, latest first.  An item with a key is a mapping of one entry. -/
def flowItems (fuel : Nat) (first : Bool) (done : List Node) : Builder (List Node) :=
  match fuel with
  | 0 => failure
  | fuel + 1 => do
    if ← passIf .flowSequenceEnd then return done.reverse
    else if !(← separated first) then failure
    else if ← passIf .key then
      let item ← collection (flowPair fuel)
      flowItems fuel false (item :: done)
    else if ← passIf .flowSequenceEnd then return done.reverse
    else
      let item ← node fuel false false
      flowItems fuel false (item :: done)

/-- The only entry of a mapping in a flow sequence.  The token after a key that is left out is lost. -/
def flowPair (fuel : Nat) : Builder Node :=
  match fuel with
  | 0 => failure
  | fuel + 1 => do
    let next ← peek
    let key ←
      if next = some .value || next = some .flowEntry || next = some .flowSequenceEnd then
        pass
        absent
      else node fuel false false
    let value ←
      if ← passIf .value then orAbsent [.flowEntry, .flowSequenceEnd] (node fuel false false)
      else absent
    return .mapping .none [(key, value)]

/-- The entries of a flow mapping after those in `done`, latest first.  A key may have no value. -/
def flowEntries (fuel : Nat) (first : Bool) (done : List (Node × Node)) : Builder (List (Node × Node)) :=
  match fuel with
  | 0 => failure
  | fuel + 1 => do
    if ← passIf .flowMappingEnd then return done.reverse
    else if !(← separated first) then failure
    else if ← passIf .key then
      let key ← orAbsent [.value, .flowEntry, .flowMappingEnd] (node fuel false false)
      let value ←
        if ← passIf .value then orAbsent [.flowEntry, .flowMappingEnd] (node fuel false false)
        else absent
      flowEntries fuel false ((key, value) :: done)
    else if ← passIf .flowMappingEnd then return done.reverse
    else
      let key ← node fuel false false
      let value ← absent
      flowEntries fuel false ((key, value) :: done)

end

end Builder

end Yaml

end Mos6502
