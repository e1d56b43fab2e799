/-!
# Terminal colours

Text painted with a style is enclosed in the escape sequence that selects the style and the one that resets it.
The plain style adds nothing.
-/

namespace Mos6502

/-- The styles used on a terminal. -/
inductive Style where
  | plain
  | red
  | green
  | yellow
  | boldWhite
  /-- An entry of the palette of 256 colours. -/
  | palette (index : UInt8)
  deriving DecidableEq, Repr

namespace Style

/-- The parameters of the escape sequence that selects a style, if it needs one. -/
def code? : Style → Option String
  | .plain => none
  | .red => some "31"
  | .green => some "32"
  | .yellow => some "33"
  | .boldWhite => some "1;37"
  | .palette index => some ("38;5;" ++ toString index.toNat)

/-- The text in a style. -/
def paint (style : Style) (text : String) : String :=
  match style.code? with
  | none => text
  | some code => "\x1b[" ++ code ++ "m" ++ text ++ "\x1b[0m"

@[simp] theorem paint_plain (text : String) : plain.paint text = text := rfl

end Style

end Mos6502
