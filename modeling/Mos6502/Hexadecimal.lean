import Mos6502.Arithmetic
import Mos6502.Text.Blank
import Mos6502.Text.Numeral

/-!
# Hexadecimal literals

A 16-bit value as one writes it: one to four hexadecimal digits of either case, with one of the prefixes `#0x`, `0x`
and `$` or none, and white space around all of it.  Fewer than four digits are filled with zeros on the left, so that
they are the two bytes of a word.
-/

namespace Mos6502

namespace Hexadecimal

/-- The characters after a prefix, if they have one. -/
def dropPrefix : List Char → List Char
  | '#' :: '0' :: 'x' :: rest => rest
  | '0' :: 'x' :: rest => rest
  | '$' :: rest => rest
  | chars => chars

/-- The word that four digits stand for. -/
def wordOfDigits? (digits : List Char) : Option UInt16 :=
  match bytesOfHex? digits with
  | some [high, low] => some (word low high)
  | _ => none

/-- The value of a literal. -/
def parse? (text : String) : Option UInt16 :=
  let digits := dropPrefix (trimBlanks text.toList)
  if digits.length = 0 ∨ 4 < digits.length then none
  else wordOfDigits? (List.replicate (4 - digits.length) '0' ++ digits)

/-- The wording for a text that is no literal. -/
def refusal (text : String) : String :=
  "'" ++ text ++ "' is not a valid hexadecimal value"

end Hexadecimal

end Mos6502
