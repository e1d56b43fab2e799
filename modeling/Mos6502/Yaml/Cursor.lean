/-!
# Places in a YAML text

A `Cursor` is a place in a text, with its line and column and the number of bytes before it.  Line breaks are the line
feed, the carriage return with or without a line feed, the next line character, and the separators of lines and of
paragraphs.  The separators are kept in scalars, all other line breaks become line feeds.
-/

namespace Mos6502

namespace Yaml

/-- Whether a character separates words on a line. -/
def isSeparator (c : Char) : Bool :=
  c == ' ' || c == '\t'

/-- Whether a line break starts with a character. -/
def isBreak (c : Char) : Bool :=
  c == '\n' || c == '\r' || c == '\u0085' || c == '\u2028' || c == '\u2029'

/-- Whether a character is a letter or digit of ASCII, a dash or an underscore. -/
def isWordChar (c : Char) : Bool :=
  c.isAlphanum || c == '-' || c == '_'

/-- Whether a text starts with a blank or a line break, or is at its end. -/
def startsGap : List Char → Bool
  | [] => true
  | c :: _ => isSeparator c || isBreak c

/-- Whether a text starts with three given characters that stand alone. -/
def startsMarker (mark : Char) : List Char → Bool
  | a :: b :: c :: rest => a == mark && b == mark && c == mark && startsGap rest
  | _ => false

/-- The punctuation of flow collections. -/
def isFlowMark (c : Char) : Bool :=
  c == ',' || c == '[' || c == ']' || c == '\x7b' || c == '\x7d'

/-- A place in a text: what is left, and where that starts. -/
structure Cursor where
  rest : List Char
  /-- The number of bytes before the place. -/
  offset : Nat
  line : Nat
  column : Nat

namespace Cursor

/-- The beginning of a text. -/
def ofChars (chars : List Char) : Cursor :=
  { rest := chars, offset := 0, line := 0, column := 0 }

/-- Whether nothing is left. -/
def atEnd (c : Cursor) : Bool :=
  c.rest.isEmpty

/-- Whether the next character satisfies a condition. -/
def isAt (c : Cursor) (condition : Char → Bool) : Bool :=
  c.rest.head?.any condition

/-- Whether a blank, a line break or the end is next. -/
def atGap (c : Cursor) : Bool :=
  startsGap c.rest

/-- Whether a line break or the end is next. -/
def atLineEnd (c : Cursor) : Bool :=
  c.rest.head?.all isBreak

/-- Whether the start or the end of a document is marked here. -/
def atMarker (c : Cursor) : Bool :=
  c.column == 0 && (startsMarker '-' c.rest || startsMarker '.' c.rest)

/-- The cursor some characters further on the same line. -/
def skip (c : Cursor) (count : Nat) : Cursor :=
  { c with
    rest := c.rest.drop count
    offset := (c.rest.take count).foldl (fun offset char => offset + char.utf8Size) c.offset
    column := c.column + count }

/-- The characters from here on that satisfy a condition, up to the first that does not. -/
def takeWhile (c : Cursor) (condition : Char → Bool) : List Char :=
  c.rest.takeWhile condition

/-- The cursor after the characters that satisfy a condition. -/
def skipWhile (c : Cursor) (condition : Char → Bool) : Cursor :=
  c.skip (c.takeWhile condition).length

/-- The cursor at the end of the line, if a comment starts here. -/
def skipComment (c : Cursor) : Cursor :=
  if c.isAt (· == '#') then c.skipWhile (!isBreak ·) else c

/-- The line break at the cursor, as the character that stands for it, and the beginning of the next line. -/
def break? (c : Cursor) : Option (Char × Cursor) :=
  let next (rest : List Char) (length : Nat) : Cursor :=
    { rest, offset := c.offset + length, line := c.line + 1, column := 0 }
  match c.rest with
  | '\r' :: '\n' :: rest => some ('\n', next rest 2)
  | char :: rest =>
    if char == '\u2028' || char == '\u2029' then some (char, next rest char.utf8Size)
    else if isBreak char then some ('\n', next rest char.utf8Size)
    else none
  | [] => none

end Cursor

end Yaml

end Mos6502
