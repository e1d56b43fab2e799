/-!
# Columns

Text that is filled with blanks on its right up to a given width.  Text wider than its column is kept whole, so a
column never loses a character (`length_fillTo`).
-/

namespace Mos6502

/-- The text followed by the blanks that bring it to the given width. -/
def fillTo (width : Nat) (text : String) : String :=
  text ++ String.ofList (List.replicate (width - text.length) ' ')

/-- The text a given number of times. -/
def repeated (count : Nat) (char : Char) : String :=
  String.ofList (List.replicate count char)

@[simp] theorem length_fillTo (width : Nat) (text : String) :
    (fillTo width text).length = max width text.length := by
  simp [fillTo]
  omega

@[simp] theorem length_repeated (count : Nat) (char : Char) : (repeated count char).length = count := by
  simp [repeated]

end Mos6502
