import Mos6502.Yaml.Scalar.Gap

/-!
# Plain scalars

A scalar without quotes.  It ends before a comment, before a colon that is followed by a blank, and in a block at a
line that is not indented enough; in a flow collection it also ends at the punctuation of the collection, where a
colon must not touch that punctuation.
-/

namespace Mos6502

namespace Yaml

/-- Whether a plain scalar can start with a text. -/
def startsPlain (flow : Bool) : List Char → Bool
  | [] => false
  | '-' :: rest => !rest.head?.any isSeparator
  | c :: rest =>
    if c == '?' || c == ':' then !flow && !startsGap rest
    else !(startsGap [c] || isFlowMark c || ['#', '&', '*', '!', '|', '>', '\'', '"', '%', '@', '\x60'].contains c)

/-- The characters of a word after those in `done`, latest first. -/
def plainWord (flow : Bool) (done : List Char) : List Char → Option (List Char)
  | [] => some done
  | c :: rest =>
    if startsGap [c] || (flow && isFlowMark c) then some done
    else if c == ':' then
      if flow && rest.head?.any (fun next => isFlowMark next || next == '?') then none
      else if startsGap rest then some done
      else plainWord flow (c :: done) rest
    else plainWord flow (c :: done) rest

/-- A plain scalar with the given characters, latest first. -/
def ScalarRead.ofPlain (done : List Char) (fresh : Bool) (cursor : Cursor) : ScalarRead :=
  { text := String.ofList done.reverse, cursor, fresh }

/-- The rest of a plain scalar.  Its characters so far are in `done` and those of the gap after them in `between`, both
latest first.  The fuel must exceed the number of characters that are left. -/
def plainFrom (fuel : Nat) (flow : Bool) (margin : Nat) (done between : List Char) (fresh : Bool) (c : Cursor) :
    Option ScalarRead :=
  match fuel with
  | 0 => none
  | fuel + 1 =>
    if c.atMarker || c.isAt (· == '#') then some (.ofPlain done fresh c)
    else
      (plainWord flow [] c.rest).bind fun word =>
        if word.isEmpty then some (.ofPlain done fresh c)
        else
          let done := word ++ (between ++ done)
          let c := c.skip word.length
          if c.isAt (fun char => isSeparator char || isBreak char) then
            (gapFrom fuel margin false [] c).bind fun gap =>
              let fresh := !gap.breaks.isEmpty
              if !flow && gap.cursor.column < margin then some (.ofPlain done fresh gap.cursor)
              else plainFrom fuel flow margin done gap.text.reverse fresh gap.cursor
          else some (.ofPlain done false c)

/-- The plain scalar at a place; its further lines in a block are indented to the margin at least. -/
def plain? (fuel : Nat) (flow : Bool) (margin : Nat) (c : Cursor) : Option ScalarRead :=
  plainFrom fuel flow margin [] [] false c

end Yaml

end Mos6502
