import Mos6502.Proofs.Text.Numeral
import Mos6502.Proofs.Text.Trim
import Mos6502.Text.Column

/-!
# Rows of columns

A row puts texts into columns of fixed widths, each filled with blanks.  A text that fits its column stands where the
widths before it say (`column_row`), and if it has no blanks at its ends it can be told from its column.  So rows of
such texts are the same only if the texts are, whatever follows them (`row_append_inj`).
-/

namespace Mos6502

/-- The characters of a text from `first` on, `width` of them at most. -/
def column (text : String) (first width : Nat) : String :=
  String.ofList ((text.toList.drop first).take width)

/-- The character that columns are filled with. -/
def isFill (c : Char) : Bool :=
  c == ' '

/-- A text none of whose characters could be filling. -/
def IsSolid (text : String) : Prop :=
  ∀ c ∈ text.toList, ¬isFill c

instance : DecidablePred IsSolid := fun text =>
  decidable_of_iff (text.toList.all fun c => !isFill c) (by simp [IsSolid])

/-- A text that fits a column of some width and can be told from it. -/
@[ext] structure Cell where
  width : Nat
  text : String
  length_le : text.length ≤ width
  trim_eq : trim isFill text.toList = text.toList

/-- A text without blanks fits every column that is wide enough. -/
def Cell.ofSolid (width : Nat) (text : String) (hlength : text.length ≤ width) (hsolid : IsSolid text) : Cell where
  width
  text
  length_le := hlength
  trim_eq := trim_eq_self_of_forall hsolid

/-- The text in its column. -/
def Cell.filled (cell : Cell) : String :=
  fillTo cell.width cell.text

/-- The columns one after the other. -/
def row (cells : List Cell) : String :=
  String.join (cells.map Cell.filled)

variable {cells cells' before after : List Cell} {cell : Cell} {rest rest' text text' first : String} {width : Nat}

/-! ### Filling -/

theorem fillTo_succ (h : text.length ≤ width) : fillTo (width + 1) text = fillTo width text ++ " " := by
  have hsub : width + 1 - text.length = width - text.length + 1 := by omega
  unfold fillTo
  rw [hsub, List.replicate_succ', String.ofList_append, String.append_assoc]

theorem fillTo_of_length_eq (h : text.length = width) : fillTo width text = text := by
  unfold fillTo
  rw [h, Nat.sub_self]
  exact String.append_empty

/-- Without the blanks at the ends a column is its text. -/
theorem trim_fillTo (h : trim isFill text.toList = text.toList) (width : Nat) :
    trim isFill (fillTo width text).toList = text.toList := by
  have hfill : ∀ c ∈ List.replicate (width - text.length) ' ', isFill c := by
    intro c hc
    rw [List.eq_of_mem_replicate hc]
    rfl
  have htrim := @trim_append isFill text.toList [] _ (List.forall_mem_nil _) hfill
  rw [List.nil_append, h] at htrim
  rw [fillTo, String.toList_append, String.toList_ofList]
  exact htrim

@[simp] theorem Cell.length_filled (cell : Cell) : cell.filled.length = cell.width := by
  rw [filled, length_fillTo]
  exact Nat.max_eq_left cell.length_le

theorem Cell.filled_injective {cell' : Cell} (hwidth : cell.width = cell'.width) (h : cell.filled = cell'.filled) :
    cell = cell' := by
  refine Cell.ext hwidth (String.toList_injective ?_)
  rw [← trim_fillTo cell.trim_eq cell.width, ← trim_fillTo cell'.trim_eq cell'.width]
  exact congrArg (fun text => trim isFill text.toList) h

/-! ### Rows -/

@[simp] theorem row_nil : row [] = "" := rfl

@[simp] theorem row_cons (cell : Cell) (cells : List Cell) : row (cell :: cells) = cell.filled ++ row cells := by
  simp [row]

@[simp] theorem length_row (cells : List Cell) : (row cells).length = (cells.map Cell.width).sum := by
  induction cells with
  | nil => rfl
  | cons cell cells ih => rw [row_cons, String.length_append, Cell.length_filled, ih, List.map_cons, List.sum_cons]

theorem column_append_left (h : first.length = width) (rest : String) : column (first ++ rest) 0 width = first := by
  unfold column
  rw [List.drop_zero, String.toList_append, ← h, ← String.length_toList, List.take_left, String.ofList_toList]

theorem column_append_right (first rest : String) (start width : Nat) :
    column (first ++ rest) (first.length + start) width = column rest start width := by
  unfold column
  rw [String.toList_append, ← String.length_toList, List.drop_append, Nat.add_sub_cancel_left,
    List.drop_eq_nil_of_le (Nat.le_add_right _ _), List.nil_append]

/-- A column stands behind those before it. -/
theorem column_row (before : List Cell) (cell : Cell) (after : List Cell) (rest : String) :
    column (row (before ++ cell :: after) ++ rest) (before.map Cell.width).sum cell.width = cell.filled := by
  induction before with
  | nil =>
    rw [List.nil_append, row_cons, String.append_assoc]
    exact column_append_left cell.length_filled _
  | cons c before ih =>
    rw [List.cons_append, row_cons, String.append_assoc, List.map_cons, List.sum_cons, ← c.length_filled,
      column_append_right]
    exact ih

/-- Rows of the same widths that begin a text are the same. -/
theorem row_append_inj (hwidths : cells.map Cell.width = cells'.map Cell.width)
    (h : row cells ++ rest = row cells' ++ rest') : cells = cells' ∧ rest = rest' := by
  induction cells generalizing cells' with
  | nil =>
    obtain rfl : cells' = [] := List.map_eq_nil_iff.1 hwidths.symm
    exact ⟨rfl, (append_inj_of_length rfl h).2⟩
  | cons cell cells ih =>
    cases cells' with
    | nil => cases hwidths
    | cons cell' cells' =>
      obtain ⟨hwidth, hwidths⟩ := List.cons.inj hwidths
      rw [row_cons, row_cons, String.append_assoc, String.append_assoc] at h
      obtain ⟨hfilled, h⟩ := append_inj_of_length (by rw [cell.length_filled, cell'.length_filled, hwidth]) h
      obtain ⟨rfl, hrest⟩ := ih hwidths h
      exact ⟨by rw [Cell.filled_injective hwidth hfilled], hrest⟩

/-! ### Numerals in columns -/

theorem isSolid_of_isDigit {base : Nat} (h : ∀ c ∈ text.toList, IsDigit base c) : IsSolid text := by
  intro c hc hfill
  obtain rfl : c = ' ' := by simpa [isFill] using hfill
  exact absurd (List.mem_of_mem_take (h ' ' hc)) (by decide)

@[simp] theorem isSolid_hexByte (case : LetterCase) (byte : UInt8) : IsSolid (hexByte case byte) :=
  isSolid_of_isDigit (isDigit_hexByte case byte)

@[simp] theorem isSolid_hexWord (case : LetterCase) (w : UInt16) : IsSolid (hexWord case w) :=
  isSolid_of_isDigit (isDigit_hexWord case w)

@[simp] theorem isSolid_append {a b : String} : IsSolid (a ++ b) ↔ IsSolid a ∧ IsSolid b := by
  unfold IsSolid
  rw [String.toList_append, List.forall_mem_append]

theorem spacedHex_cons_cons (byte next : UInt8) (bytes : List UInt8) :
    spacedHex (byte :: next :: bytes) = hexByte .lower byte ++ (" " ++ spacedHex (next :: bytes)) := by
  simp [spacedHex, String.append_assoc]

theorem length_spacedHex (bytes : List UInt8) : (spacedHex bytes).length = 3 * bytes.length - 1 := by
  induction bytes with
  | nil => rfl
  | cons byte bytes ih =>
    cases bytes with
    | nil => exact length_hexByte .lower byte
    | cons next bytes =>
      have hblank : " ".length = 1 := rfl
      rw [spacedHex_cons_cons, String.length_append, String.length_append, ih, length_hexByte, hblank]
      simp only [List.length_cons]
      omega

theorem spacedHex_injective {bytes bytes' : List UInt8} (h : spacedHex bytes = spacedHex bytes') : bytes = bytes' := by
  have hlength : bytes.length = bytes'.length := by
    have hlength := congrArg String.length h
    rw [length_spacedHex, length_spacedHex] at hlength
    omega
  induction bytes generalizing bytes' with
  | nil => exact (List.length_eq_zero_iff.1 hlength.symm).symm
  | cons byte bytes ih =>
    cases bytes' with
    | nil => cases hlength
    | cons byte' bytes' =>
      have htail : bytes.length = bytes'.length := Nat.succ.inj hlength
      cases bytes with
      | nil =>
        obtain rfl : bytes' = [] := List.length_eq_zero_iff.1 htail.symm
        rw [hexByte_injective h]
      | cons next bytes =>
        cases bytes' with
        | nil => cases htail
        | cons next' bytes' =>
          rw [spacedHex_cons_cons, spacedHex_cons_cons] at h
          obtain ⟨hbyte, h⟩ := append_inj_of_length (by rw [length_hexByte, length_hexByte]) h
          rw [hexByte_injective hbyte, ih (append_inj_of_length rfl h).2 htail]

end Mos6502
