import Mos6502.Text.Numeral
import Mos6502.Yaml.Scalar.Gap

/-!
# Quoted scalars

Between single quotes a quote is written twice and everything else stands for itself.  Between double quotes a
backslash starts an escape, and before a line break it joins the lines.  Neither may hold the marker of a document.
-/

namespace Mos6502

namespace Yaml

/-- The character that a letter after a backslash stands for. -/
def escaped? : Char → Option Char
  | '0' => some '\x00'
  | 'a' => some '\x07'
  | 'b' => some '\x08'
  | 't' => some '\t'
  | '\t' => some '\t'
  | 'n' => some '\n'
  | 'v' => some '\x0b'
  | 'f' => some '\x0c'
  | 'r' => some '\r'
  | 'e' => some '\x1b'
  | ' ' => some ' '
  | '"' => some '"'
  | '/' => some '/'
  | '\\' => some '\\'
  | 'N' => some '\u0085'
  | '_' => some '\u00a0'
  | 'L' => some '\u2028'
  | 'P' => some '\u2029'
  | _ => none

/-- The number of hexadecimal digits after a letter that writes a character by its number. -/
def digitCount? : Char → Option Nat
  | 'x' => some 2
  | 'u' => some 4
  | 'U' => some 8
  | _ => none

/-- The character whose number the first digits of a text give. -/
def charOfDigits? (count : Nat) (text : List Char) : Option Char :=
  let digits := text.take count
  if digits.length = count then
    (numeral? 16 digits).bind fun value => if value.isValidChar then some (Char.ofNat value) else none
  else none

/-- The character of an escape after its backslash, and the length of the escape from there. -/
def escape? : List Char → Option (Char × Nat)
  | [] => none
  | letter :: rest =>
    match digitCount? letter with
    | some count => (charOfDigits? count rest).map (·, count + 1)
    | none => (escaped? letter).map (·, 1)

/-- The characters up to the next gap or quote, after those in `done`, latest first; also whether a line break was
passed that a backslash joins. -/
def quotedRun (fuel : Nat) (double : Bool) (done : List Char) (c : Cursor) : Option (List Char × Cursor × Bool) :=
  match fuel with
  | 0 => none
  | fuel + 1 =>
    match c.rest with
    | [] => some (done, c, false)
    | char :: rest =>
      if isSeparator char || isBreak char then some (done, c, false)
      else if double && char == '"' then some (done, c, false)
      else if double && char == '\\' then
        match (c.skip 1).break? with
        | some (_, next) => some (done, next, true)
        | none =>
          (escape? rest).bind fun (meaning, length) => quotedRun fuel double (meaning :: done) (c.skip (length + 1))
      else if !double && char == '\'' then
        if rest.head? = some '\'' then quotedRun fuel double ('\'' :: done) (c.skip 2) else some (done, c, false)
      else quotedRun fuel double (char :: done) (c.skip 1)

/-- The rest of a quoted scalar, whose characters so far are in `done`, latest first.  The fuel must exceed the number
of characters that are left. -/
def quotedFrom (fuel : Nat) (double : Bool) (done : List Char) (c : Cursor) : Option ScalarRead :=
  match fuel with
  | 0 => none
  | fuel + 1 =>
    if c.atMarker || c.atEnd then none
    else
      (quotedRun (fuel + 1) double done c).bind fun (done, c, joined) =>
        if c.isAt (· == if double then '"' else '\'') then
          some { text := String.ofList done.reverse, cursor := c.skip 1, fresh := false }
        else
          (gapFrom (fuel + 1) 0 joined [] c).bind fun gap =>
            quotedFrom fuel double ((if joined then gap.breaks else gap.text).reverse ++ done) gap.cursor

/-- The quoted scalar at a place. -/
def quoted? (fuel : Nat) (double : Bool) (c : Cursor) : Option ScalarRead :=
  quotedFrom fuel double [] (c.skip 1)

end Yaml

end Mos6502
