import Mos6502.Text.Cluster

/-!
# Erasures

Text in which a backspace takes the cluster before it away.
-/

namespace Mos6502

namespace Erasure

/-- What was typed so far, its characters latest first, and the sizes of its clusters that can be erased. -/
structure Typed where
  chars : List Char
  sizes : List UInt8

/-- The character that erases. -/
def backspace : Char := '\x08'

/-- Removes characters of a given number of bytes from the front. -/
def dropBytes : Nat → List Char → List Char
  | _, [] => []
  | 0, chars => chars
  | bytes, c :: rest => dropBytes (bytes - c.utf8Size) rest

/-- Types a cluster.  Its size is kept in one byte, and so much is removed when it is erased. -/
def Typed.type (t : Typed) (cluster : List Char) : Typed :=
  if cluster = [backspace] then
    match t.sizes with
    | [] => t
    | size :: sizes => { chars := dropBytes size.toNat t.chars, sizes }
  else
    { chars := cluster.reverse ++ t.chars
      sizes := UInt8.ofNat (String.ofList cluster).utf8ByteSize :: t.sizes }

end Erasure

open Erasure in
/-- The text that is left after its erasures. -/
def withoutErased (text : String) : String :=
  let typed := (clusters text.toList).foldl Typed.type { chars := [], sizes := [] }
  String.ofList typed.chars.reverse

end Mos6502
