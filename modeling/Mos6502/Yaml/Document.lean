import Mos6502.Yaml.Grammar
import Mos6502.Yaml.Layout

/-!
# YAML documents

A text with at most one document, and the nodes that its references name.  Reading follows references; how many may be
followed is bounded by the size of the document, so that a small one cannot stand for a huge value.
-/

namespace Mos6502

namespace Yaml

/-- A document. -/
structure Document where
  /-- Its node, nothing in a text without a document. -/
  root : Option Node
  /-- The number of its parts. -/
  size : Nat
  targets : List Target

namespace Builder

/-- The handles that need no directive. -/
def commonHandles : List (String × Tag) :=
  [("!", [33]), ("!!", coreTag "")]

/-- Whether a version of the language can be read. -/
def isReadable (major minor : Nat) : Bool :=
  major == 1 && (minor == 1 || minor == 2)

/-- The directives before a document: one version at most, and each handle once. -/
def directives (fuel : Nat) (versioned : Bool) (handles : List (String × Tag)) : Builder Unit :=
  match fuel with
  | 0 => failure
  | fuel + 1 => do
    match ← peek with
    | some (.versionDirective major minor) =>
      if versioned || !isReadable major minor then failure
      pass
      directives fuel true handles
    | some (.tagDirective handle expansion) =>
      if (handles.lookup handle).isSome then failure
      pass
      directives fuel versioned ((handle, expansion) :: handles)
    | _ => modify fun b => { b with handles := handles ++ commonHandles }

/-- Passes the ends of documents. -/
def ends (fuel : Nat) : Builder Unit :=
  match fuel with
  | 0 => failure
  | fuel + 1 => do
    if ← passIf .documentEnd then ends fuel

/-- The node of the only document, if there is one.  Directives need the marker of a document after them. -/
def root (fuel : Nat) : Builder (Option Node) := do
  match ← peek with
  | none => return none
  | some first =>
    directives fuel false []
    let isMarked ← passIf .documentStart
    let isDirective := match first with
      | .versionDirective _ _ | .tagDirective _ _ => true
      | _ => false
    if isDirective && !isMarked then failure
    let next ← peek
    let isEmpty := match next with
      | none | some .documentStart | some .documentEnd | some (.versionDirective _ _) | some (.tagDirective _ _) => true
      | _ => false
    let node ← if isMarked && isEmpty then absent else node fuel true false
    ends fuel
    if (← peek).isSome then failure
    return some node

end Builder

/-- Whether a character may stand in a document. -/
def isAllowed (c : Char) : Bool :=
  c == '\t' || c == '\n' || c == '\r' || (' ' ≤ c && c ≤ '~') || c == '\u0085' ||
    ('\u00a0' ≤ c && c != '\ufffe' && c != '\uffff')

/-- The document of a text, nothing if the text is malformed. -/
def Document.ofText? (text : String) : Option Document :=
  let chars := text.toList
  if !chars.all isAllowed then none
  else
    (tokens? chars).bind fun tokens =>
      let start : Building := { tokens, handles := [], names := [], size := 0, targets := [] }
      ((Builder.root (4 * tokens.length + 4)).run start).map fun (root, b) =>
        { root, size := b.size, targets := b.targets }

/-! ### Reading a document -/

/-- A step of reading, which fails where the document does not have the form that is asked for.  The state is the number
of references that may still be followed. -/
abbrev Reader := StateT Nat Option

namespace Document

/-- The number of references that may be followed for each part of a document. -/
def referencesPerPart : Nat := 100

/-- The node with an anchor: of several the last one. -/
def target? (d : Document) (anchor : Nat) : Option Node :=
  let later (best : Option Target) (target : Target) : Option Target :=
    match best with
    | some b => if b.position < target.position then some target else best
    | none => some target
  ((d.targets.filter (·.anchor == anchor)).foldl later none).map Target.node

/-- A node, or the one that it refers to. -/
def follow (d : Document) : Node → Reader Node
  | .reference anchor => do
    match ← get with
    | 0 => failure
    | left + 1 =>
      set left
      match d.target? anchor with
      | some node => return node
      | none => failure
  | node => return node

/-- What a view shows of a node. -/
def read (d : Document) (view? : Node → Option α) (node : Node) : Reader α := do
  match view? (← d.follow node) with
  | some value => return value
  | none => failure

/-- What is read of a node unless it is null. -/
def readOption (d : Document) (read : Node → Reader α) (node : Node) : Reader (Option α) := do
  let node ← d.follow node
  match node.isNull? with
  | some true => return none
  | some false => some <$> read node
  | none => failure

/-- The entries of a mapping by the texts of their keys. -/
def readEntries (d : Document) (node : Node) : Reader (List (String × Node)) := do
  let entries ← d.read Node.entries? node
  entries.mapM fun (key, value) => return (← d.read Node.text? key, value)

/-- What is read of a whole document, where `empty` is the value of a text without one. -/
def readRoot (d : Document) (empty : α) (read : Node → Reader α) : Option α :=
  match d.root with
  | none => some empty
  | some node => ((read node).run (referencesPerPart * d.size)).map Prod.fst

end Document

end Yaml

end Mos6502
