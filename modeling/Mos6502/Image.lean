import Mos6502.Memory.Basic

/-!
# Program images

A program image is a file of bytes that are copied to memory as they are.  It holds at least one byte and not more
than the memory.
-/

namespace Mos6502

/-- Why a file cannot be used as a program image. -/
inductive ImageError where
  | unreadable (path : String)
  | empty (path : String)
  | tooLarge (path : String) (length : Nat)
  deriving DecidableEq, Repr

/-- The wording of an error. -/
def ImageError.message : ImageError → String
  | .unreadable path => "cannot read '" ++ path ++ "': No such file or directory (os error 2)"
  | .empty path => "'" ++ path ++ "' is empty"
  | .tooLarge path length => "'" ++ path ++ "' is " ++ toString length ++ " bytes long, it does not fit in memory"

/-- The program image that a file holds, where the file may not exist. -/
def readImage (path : String) (contents : Option (List UInt8)) : Except ImageError (List UInt8) :=
  match contents with
  | none => .error (.unreadable path)
  | some bytes =>
    if bytes.isEmpty then .error (.empty path)
    else if memorySize < bytes.length then .error (.tooLarge path bytes.length)
    else .ok bytes

end Mos6502
