import Mos6502.Text.Numeral
import Mos6502.Yaml.Scalar.Gap

/-!
# Block scalars

A scalar on indented lines of its own, after a header.  Its indentation is given in the header or is that of its first
line.  A literal block keeps its line breaks; in a folded one a line break between two lines that are not indented
further counts as a blank.  The header also says which line breaks at the end belong to the text: one, none or all.
-/

namespace Mos6502

namespace Yaml

/-- The line breaks that are kept at the end of a block. -/
inductive Chomping where
  | one
  | none
  | all
  deriving DecidableEq, Repr

/-- The header of a block scalar. -/
structure BlockHeader where
  chomping : Chomping
  /-- The indentation further than that of the surrounding block, if it is given. -/
  increment : Option Nat

/-- The digit of an indentation, which is not zero. -/
def increment? (c : Char) : Option Nat :=
  (digitValue? 10 c).filter (0 < ·)

/-- The chomping that a sign stands for. -/
def chomping? : Char → Option Chomping
  | '+' => some .all
  | '-' => some .none
  | _ => none

/-- The header at the front of a text, and its length. -/
def blockHeader : List Char → BlockHeader × Nat
  | a :: b :: _ =>
    match chomping? a, increment? a with
    | some chomping, _ =>
      match increment? b with
      | some increment => ({ chomping, increment := some increment }, 2)
      | none => ({ chomping, increment := none }, 1)
    | none, some increment =>
      match chomping? b with
      | some chomping => ({ chomping, increment := some increment }, 2)
      | none => ({ chomping := .one, increment := some increment }, 1)
    | none, none => ({ chomping := .one, increment := none }, 0)
  | [a] => ({ chomping := (chomping? a).getD .one, increment := increment? a },
      if (chomping? a).isSome || (increment? a).isSome then 1 else 0)
  | [] => ({ chomping := .one, increment := none }, 0)

/-- The line breaks before the next line with content, latest first, with the place after its indentation and the
widest indentation met.  An indentation of zero is not known yet. -/
def blockBreaks (fuel indent widest : Nat) (breaks : List Char) (c : Cursor) : Option (List Char × Nat × Cursor) :=
  match fuel with
  | 0 => none
  | fuel + 1 =>
    let spaces := (c.takeWhile (· == ' ')).length
    let c := c.skip (if indent = 0 then spaces else min spaces (indent - c.column))
    let widest := max widest c.column
    if (indent = 0 || c.column < indent) && c.isAt (· == '\t') then none
    else
      match c.break? with
      | some (mark, c) => blockBreaks fuel indent widest (mark :: breaks) c
      | none => some (breaks, widest, c)

/-- The line breaks between two lines of a block, as they count for the text: the first of them, and the others. -/
def blockJoint (folds : Bool) (first : Option Char) (others : List Char) : List Char :=
  if folds && first = some '\n' then if others.isEmpty then [' '] else others
  else first.toList ++ others

/-- The rest of a block.  The text so far is in `done` and the line breaks after it in `first` and `others`; `done` and
`others` have the latest first.  `further` tells that the last line was indented further.  The fuel must exceed the
number of characters that are left. -/
def blockFrom (fuel : Nat) (literal : Bool) (chomping : Chomping) (indent : Nat) (done : List Char)
    (first : Option Char) (others : List Char) (further : Bool) (c : Cursor) : Option (String × Cursor) :=
  match fuel with
  | 0 => none
  | fuel + 1 =>
    if c.column == indent && !c.atEnd then
      let blank := c.isAt isSeparator
      let joint := blockJoint (!literal && !further && !blank) first others.reverse
      let line := c.takeWhile (!isBreak ·)
      let c := c.skip line.length
      let (first, c) := match c.break? with
        | some (mark, c) => (some mark, c)
        | none => (none, c)
      (blockBreaks fuel indent 0 [] c).bind fun (others, _, c) =>
        blockFrom fuel literal chomping indent (line.reverse ++ (joint.reverse ++ done)) first others blank c
    else
      let tail := match chomping with
        | .none => []
        | .one => first.toList
        | .all => first.toList ++ others.reverse
      some (String.ofList (done.reverse ++ tail), c)

/-- The block scalar at a place, where the surrounding block has a margin. -/
def block? (fuel : Nat) (literal : Bool) (margin : Nat) (c : Cursor) : Option ScalarRead :=
  let c := c.skip 1
  let (header, length) := blockHeader c.rest
  let c := ((c.skip length).skipWhile isSeparator).skipComment
  if !c.atLineEnd then none
  else
    let c := (c.break?.map Prod.snd).getD c
    let given := header.increment.map (margin - 1 + ·)
    (blockBreaks fuel (given.getD 0) 0 [] c).bind fun (breaks, widest, c) =>
      let indent := given.getD (max (max widest margin) 1)
      (blockFrom fuel literal header.chomping indent [] none breaks false c).map fun (text, cursor) =>
        { text, cursor, fresh := true }

end Yaml

end Mos6502
