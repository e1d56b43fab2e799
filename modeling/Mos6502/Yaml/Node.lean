import Mos6502.Text.Numeral
import Mos6502.Yaml.Token

/-!
# YAML nodes

What a YAML document holds: scalars, sequences and mappings, each perhaps with a tag and an anchor, and references to
anchored nodes.  Whether a scalar stands for a null, a truth value or a number depends on how it is written: a plain one
may, whatever its tag, and a literal block only with the tag of that type.
-/

namespace Mos6502

namespace Yaml

/-- What a node can be marked with. -/
structure Properties where
  /-- The number by which references name the node. -/
  anchor : Option Nat
  tag : Option Tag

/-- No marks. -/
def Properties.none : Properties :=
  { anchor := .none, tag := .none }

/-- A node of a document. -/
inductive Node where
  /-- The node with an anchor. -/
  | reference (anchor : Nat)
  | scalar (properties : Properties) (form : ScalarForm) (text : String)
  | sequence (properties : Properties) (items : List Node)
  | mapping (properties : Properties) (entries : List (Node × Node))

/-- The tag of a type of the language itself. -/
def coreTag (name : String) : Tag :=
  ("tag:yaml.org,2002:" ++ name).toUTF8.toList

/-- The name that a tag gives after its exclamation mark; the mark alone is its own name. -/
def localName? : Tag → Option String
  | 33 :: name => String.fromUTF8? (ByteArray.mk (if name.isEmpty then [33] else name).toArray)
  | _ => none

/-- Whether a text is one of the words for null. -/
def isNullWord (text : String) : Bool :=
  text == "~" || text == "null" || text == "Null" || text == "NULL"

/-- The truth value of a word. -/
def truthOfWord? (text : String) : Option Bool :=
  if text == "true" || text == "True" || text == "TRUE" then some true
  else if text == "false" || text == "False" || text == "FALSE" then some false
  else none

/-- The number that one or more digits stand for. -/
def naturalOfDigits? (base : Nat) (digits : List Char) : Option Nat :=
  if digits.isEmpty then none else numeral? base digits

/-- The number that characters stand for: decimal without leading zeros, or in base sixteen, eight or two after the
sign of that base, and with a plus before it or not. -/
def natural? (chars : List Char) : Option Nat :=
  let unsigned := if chars.head? = some '+' then chars.tail else chars
  match unsigned with
  | '0' :: 'x' :: digits => naturalOfDigits? 16 digits
  | '0' :: 'o' :: digits => naturalOfDigits? 8 digits
  | '0' :: 'b' :: digits => naturalOfDigits? 2 digits
  | ['0'] => some 0
  | '0' :: _ => none
  | digits => naturalOfDigits? 10 digits

namespace Node

/-- The text of a scalar. -/
def text? : Node → Option String
  | .scalar _ _ text => some text
  | _ => none

/-- The text of a scalar that may stand for a value of a type of the language itself. -/
def valueText? (typeName : String) : Node → Option String
  | .scalar _ .plain text => some text
  | .scalar p .literal text => if p.tag = some (coreTag typeName) then some text else none
  | _ => none

/-- The truth value of a scalar. -/
def truth? (node : Node) : Option Bool :=
  (node.valueText? "bool").bind truthOfWord?

/-- The number of a scalar, below a limit. -/
def number? (limit : Nat) (node : Node) : Option Nat :=
  (node.valueText? "int").bind fun text => (natural? text.toList).filter (· < limit)

/-- The name that a node stands for: that of its tag, if it has a tag with a name and no value, and otherwise the text
of a scalar. -/
def name? : Node → Option String
  | .scalar p form text =>
    match p.tag.bind localName? with
    | some name => if form = .plain && (text.isEmpty || isNullWord text) then some name else none
    | none => some text
  | _ => none

/-- Whether a node stands for no value; nothing if it has the tag of null and is no null. -/
def isNull? : Node → Option Bool
  | .scalar p .plain text =>
    match p.tag with
    | none => some (text.isEmpty || isNullWord text)
    | some tag => if tag = coreTag "null" then if isNullWord text then some true else none else some false
  | _ => some false

/-- The items of a sequence; a scalar where nothing is written has none. -/
def items? : Node → Option (List Node)
  | .sequence _ items => some items
  | .scalar _ .plain text => if text.isEmpty then some [] else none
  | _ => none

/-- The entries of a mapping; a scalar where nothing is written has none. -/
def entries? : Node → Option (List (Node × Node))
  | .mapping _ entries => some entries
  | .scalar _ .plain text => if text.isEmpty then some [] else none
  | _ => none

end Node

end Yaml

end Mos6502
