/-!
# Numerals of fixed width

Bytes are written with two hexadecimal digits and words with four; a byte in binary has eight digits.  Addresses
outside the address space are written with as many digits as they need, four at least.  Numerals are read back digit
by digit.  The key facts are the lengths: `length_hexByte`, `length_hexWord` and `length_binaryByte`.
-/

namespace Mos6502

/-- The case of the letters in a hexadecimal numeral. -/
inductive LetterCase where
  | lower
  | upper
  deriving DecidableEq, Repr

/-- The digit of a value below sixteen. -/
def hexDigit (case : LetterCase) (value : Nat) : Char :=
  match case with
  | .lower => value.digitChar
  | .upper => value.digitChar.toUpper

/-- A byte as two hexadecimal digits. -/
def hexByte (case : LetterCase) (byte : UInt8) : String :=
  String.ofList [hexDigit case (byte.toNat / 16), hexDigit case (byte.toNat % 16)]

/-- A word as four hexadecimal digits, the high byte first. -/
def hexWord (case : LetterCase) (word : UInt16) : String :=
  hexByte case (UInt8.ofNat (word.toNat / 256)) ++ hexByte case (UInt8.ofNat (word.toNat % 256))

/-- A number in upper case hexadecimal, filled with zeros up to four digits. -/
def hexAddress (value : Nat) : String :=
  let digits := (Nat.toDigits 16 value).map Char.toUpper
  String.ofList (List.replicate (4 - digits.length) '0' ++ digits)

/-- A byte as eight binary digits, the highest bit first. -/
def binaryByte (byte : UInt8) : String :=
  String.ofList ([7, 6, 5, 4, 3, 2, 1, 0].map fun i => if byte.toNat.testBit i then '1' else '0')

/-- The bytes in lower case hexadecimal, two digits each and nothing between them. -/
def hexBytes (bytes : List UInt8) : String :=
  String.join (bytes.map (hexByte .lower))

/-- The bytes in lower case hexadecimal, separated by blanks. -/
def spacedHex (bytes : List UInt8) : String :=
  " ".intercalate (bytes.map (hexByte .lower))

/-- The value of a digit in a base up to sixteen. -/
def digitValue? (base : Nat) (c : Char) : Option Nat :=
  let value? :=
    if '0' ≤ c ∧ c ≤ '9' then some (c.toNat - '0'.toNat)
    else if 'a' ≤ c ∧ c ≤ 'f' then some (c.toNat - 'a'.toNat + 10)
    else if 'A' ≤ c ∧ c ≤ 'F' then some (c.toNat - 'A'.toNat + 10)
    else none
  value?.filter (· < base)

/-- The number that digits stand for, if all characters are digits. -/
def numeral? (base : Nat) (digits : List Char) : Option Nat :=
  digits.foldlM (fun total c => (digitValue? base c).map (base * total + ·)) 0

/-- The bytes that pairs of hexadecimal digits stand for, the high digit first. -/
def bytesOfHex? : List Char → Option (List UInt8)
  | [] => some []
  | [_] => none
  | high :: low :: rest =>
    match numeral? 16 [high, low], bytesOfHex? rest with
    | some value, some bytes => some (UInt8.ofNat value :: bytes)
    | _, _ => none

@[simp] theorem length_hexByte (case : LetterCase) (byte : UInt8) : (hexByte case byte).length = 2 := by
  simp [hexByte]

@[simp] theorem length_hexWord (case : LetterCase) (word : UInt16) : (hexWord case word).length = 4 := by
  simp [hexWord]

@[simp] theorem length_binaryByte (byte : UInt8) : (binaryByte byte).length = 8 := by
  simp [binaryByte]

end Mos6502
