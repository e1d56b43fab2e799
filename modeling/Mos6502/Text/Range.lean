/-!
# Ranges of characters

Sets of characters, given as the ranges that make them up.
-/

namespace Mos6502

/-- Whether a character is in one of some ranges, given by their first and last codes. -/
def inRanges (ranges : List (Nat × Nat)) (c : Char) : Bool :=
  ranges.any fun (first, last) => first ≤ c.toNat && c.toNat ≤ last

end Mos6502
