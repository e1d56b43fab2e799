import Mos6502.Text.Numeral
import Mos6502.Yaml.Cursor
import Mos6502.Yaml.Token

/-!
# Tags and directives

A tag names the type of a node: in full between angle brackets, or with a handle that stands for its beginning.  Its
characters are those of an address, where a percent sign starts an octet of a character.  A directive is a line before
a document: the version of the language, or what a handle stands for.
-/

namespace Mos6502

namespace Yaml

/-! ### Addresses -/

/-- Whether a character may stand in a tag; the punctuation of flow collections only in one written in full. -/
def isTagChar (full : Bool) (c : Char) : Bool :=
  isWordChar c || ";/?:@&=+$.%!~*'()".toList.contains c || (full && (c == ',' || c == '[' || c == ']'))

/-- The octet at a place, written as a percent sign and two hexadecimal digits. -/
def octet? (c : Cursor) : Option (UInt8 × Cursor) :=
  match c.rest with
  | '%' :: high :: low :: _ => (numeral? 16 [high, low]).map fun value => (UInt8.ofNat value, c.skip 3)
  | _ => none

/-- The number of octets of a character after its first one. -/
def followers? (octet : UInt8) : Option Nat :=
  if octet < 0x80 then some 0
  else if octet &&& 0xe0 == 0xc0 then some 1
  else if octet &&& 0xf0 == 0xe0 then some 2
  else if octet &&& 0xf8 == 0xf0 then some 3
  else none

/-- Some octets that do not begin a character, added to `done`, latest first. -/
def followingOctets (count : Nat) (done : Tag) (c : Cursor) : Option (Tag × Cursor) :=
  match count with
  | 0 => some (done, c)
  | count + 1 =>
    (octet? c).bind fun (octet, c) =>
      if octet &&& 0xc0 == 0x80 then followingOctets count (octet :: done) c else none

/-- The characters of an address after those in `done`, latest first.  The fuel must exceed the number of characters
that are left. -/
def addressFrom (fuel : Nat) (full : Bool) (done : Tag) (c : Cursor) : Option (Tag × Cursor) :=
  match fuel with
  | 0 => none
  | fuel + 1 =>
    match c.rest.head? with
    | some '%' =>
      (octet? c).bind fun (octet, c) =>
        (followers? octet).bind fun count =>
          (followingOctets count (octet :: done) c).bind fun (done, c) => addressFrom fuel full done c
    | some char =>
      if isTagChar full char then addressFrom fuel full (char.toUInt8 :: done) (c.skip 1)
      else some (done.reverse, c)
    | none => some (done.reverse, c)

/-- The address at a place after a given beginning; it ends before a zero octet. -/
def address? (fuel : Nat) (full : Bool) (beginning : List Char) (c : Cursor) : Option (Tag × Cursor) :=
  (addressFrom fuel full (beginning.map Char.toUInt8).reverse c).map fun (tag, c) =>
    (tag.takeWhile (· != 0), c)

/-- The address at a place, which is not empty. -/
def someAddress? (fuel : Nat) (full : Bool) (c : Cursor) : Option (Tag × Cursor) :=
  if c.isAt (isTagChar full) then address? fuel full [] c else none

/-! ### Tags -/

/-- The exclamation mark at a place with the word after it, and the mark after that if there is one. -/
def tagHandle (c : Cursor) : List Char × Cursor :=
  let word := (c.skip 1).takeWhile isWordChar
  let after := c.skip (word.length + 1)
  if after.isAt (· == '!') then ('!' :: word ++ ['!'], after.skip 1) else ('!' :: word, after)

/-- The handle and the suffix of the tag at a place. -/
def tagParts? (fuel : Nat) (c : Cursor) : Option ((String × Tag) × Cursor) :=
  if (c.skip 1).isAt (· == '<') then
    (someAddress? fuel true (c.skip 2)).bind fun (tag, c) =>
      if c.isAt (· == '>') then some (("", tag), c.skip 1) else none
  else
    let (handle, after) := tagHandle c
    if 1 < handle.length && handle.getLast? == some '!' then
      (someAddress? fuel false after).map fun (suffix, c) => ((String.ofList handle, suffix), c)
    else
      (address? fuel false handle.tail after).map fun (suffix, c) =>
        (if suffix.isEmpty then ("", [33]) else ("!", suffix), c)

/-- The tag at a place, which ends before a blank, or in a flow collection before a comma. -/
def tag? (fuel : Nat) (flow : Bool) (c : Cursor) : Option (Token × Cursor) :=
  (tagParts? fuel c).bind fun ((handle, suffix), c) =>
    if c.atGap || (flow && c.isAt (· == ',')) then some (.tag handle suffix, c) else none

/-! ### Directives -/

/-- A number of at most nine digits. -/
def versionNumber? (c : Cursor) : Option (Nat × Cursor) :=
  let digits := c.takeWhile Char.isDigit
  if digits.isEmpty || 9 < digits.length then none
  else (numeral? 10 digits).map (·, c.skip digits.length)

/-- A version, as two numbers with a point between them. -/
def version? (c : Cursor) : Option (Token × Cursor) :=
  (versionNumber? c).bind fun (major, c) =>
    if c.isAt (· == '.') then
      (versionNumber? (c.skip 1)).map fun (minor, c) => (.versionDirective major minor, c)
    else none

/-- A handle and what it stands for. -/
def handleMeaning? (fuel : Nat) (c : Cursor) : Option (Token × Cursor) :=
  if !c.isAt (· == '!') then none
  else
    let (handle, c) := tagHandle c
    if handle.getLast? == some '!' && c.isAt isSeparator then
      (someAddress? fuel true (c.skipWhile isSeparator)).bind fun (expansion, c) =>
        if c.atGap then some (.tagDirective (String.ofList handle) expansion, c) else none
    else none

/-- The directive at a place, and the beginning of the next line. -/
def directive? (fuel : Nat) (c : Cursor) : Option (Token × Cursor) :=
  let name := (c.skip 1).takeWhile isWordChar
  let c := c.skip (name.length + 1)
  let read := if name = "YAML".toList then some version? else if name = "TAG".toList then some (handleMeaning? fuel)
    else none
  read.bind fun read? =>
    if !c.atGap then none
    else
      (read? (c.skipWhile isSeparator)).bind fun (token, c) =>
        let c := (c.skipWhile isSeparator).skipComment
        if c.atLineEnd then some (token, (c.break?.map Prod.snd).getD c) else none

end Yaml

end Mos6502
