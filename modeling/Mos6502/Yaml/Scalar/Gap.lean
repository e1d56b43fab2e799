import Mos6502.Yaml.Cursor

/-!
# Gaps in scalars

The blanks and line breaks between two words of a scalar.  Blanks on one line are kept.  One line break counts as a
blank, of several the first is dropped; but a separator of lines or paragraphs keeps all of them.  Blanks beside a
line break are dropped.
-/

namespace Mos6502

namespace Yaml

/-- What is read of a scalar: its text, and the place after it. -/
structure ScalarRead where
  text : String
  cursor : Cursor
  /-- Whether the place is on a later line than the end of the text. -/
  fresh : Bool

/-- A gap with the place after it. -/
structure Gap where
  blanks : List Char
  breaks : List Char
  cursor : Cursor

/-- What a gap counts for. -/
def Gap.text (g : Gap) : List Char :=
  match g.breaks with
  | [] => g.blanks
  | ['\n'] => [' ']
  | '\n' :: more => more
  | breaks => breaks

/-- Whether a tab is among blanks that start in a column, left of a margin. -/
def tabBefore (margin column : Nat) (blanks : List Char) : Bool :=
  blanks.contains '\t' && column + (blanks.takeWhile (· == ' ')).length < margin

/-- The gap at a place after some line breaks, latest first.  On a new line no tab may be left of the margin; `fresh`
tells that a new line has begun.  The fuel must exceed the number of characters that are left. -/
def gapFrom (fuel margin : Nat) (fresh : Bool) (breaks : List Char) (c : Cursor) : Option Gap :=
  match fuel with
  | 0 => none
  | fuel + 1 =>
    let blanks := c.takeWhile isSeparator
    if fresh && tabBefore margin c.column blanks then none
    else
      let c := c.skip blanks.length
      match c.break? with
      | some (mark, c) => gapFrom fuel margin true (mark :: breaks) c
      | none => some { blanks := if fresh then [] else blanks, breaks := breaks.reverse, cursor := c }

end Yaml

end Mos6502
