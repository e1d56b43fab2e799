/-!
# Durations

A number of nanoseconds in the largest unit that it fills at least once, with the fraction that is left and no zeros
at its end.
-/

namespace Mos6502

/-- The digits of a fraction of `unit`, a power of ten, without zeros at the end. -/
def fractionDigits (unit fraction : Nat) : List Char :=
  let width := (Nat.toDigits 10 unit).length - 1
  let digits := Nat.toDigits 10 fraction
  let filled := List.replicate (width - digits.length) '0' ++ digits
  (filled.reverse.dropWhile (· == '0')).reverse

/-- A number of nanoseconds in units of `unit` nanoseconds. -/
def unitText (nanoseconds unit : Nat) (symbol : String) : String :=
  let fraction := fractionDigits unit (nanoseconds % unit)
  toString (nanoseconds / unit) ++ (if fraction.isEmpty then "" else "." ++ String.ofList fraction) ++ symbol

/-- A number of nanoseconds. -/
def durationText (nanoseconds : Nat) : String :=
  if 1000000000 ≤ nanoseconds then unitText nanoseconds 1000000000 "s"
  else if 1000000 ≤ nanoseconds then unitText nanoseconds 1000000 "ms"
  else if 1000 ≤ nanoseconds then unitText nanoseconds 1000 "µs"
  else unitText nanoseconds 1 "ns"

end Mos6502
