import Mos6502.Proofs.Memory.Flat
import Mos6502.Proofs.Text.Column
import Mos6502.Proofs.Text.Word

/-!
# What a dump tells

A dump is read back word by word: the first word of a row is its label, and each other word is a byte (`words_dumpRow`).
So the rows tell where they are and what was read, and nothing is lost in them (`shows_dumpRows`).  A dump of the memory
is refused exactly if its last row is beyond the memory, and one of a window if a row of it, the first one counted from its
label, is not in the window (`dump_exact`).
-/

namespace Mos6502

/-! ### Reading a dump -/

/-- The byte that a word of two hexadecimal digits stands for. -/
def byteOfWord? : List Char → Option UInt8
  | [high, low] => (numeral? 16 [high, low]).map UInt8.ofNat
  | _ => none

/-- The bytes of a row, which are the words after its label. -/
def readRow? (row : String) : Option (List UInt8) :=
  ((wordsBy isFill row.toList).drop 1).mapM byteOfWord?

/-- The bytes of all rows. -/
def readRows? (rows : List String) : Option (List UInt8) :=
  (rows.mapM readRow?).map List.flatten

/-- The label of the row at an address. -/
def rowLabel (address : Nat) : String :=
  "#" ++ hexWord .upper (UInt16.ofNat address) ++ ":"

variable {address lines : Nat} {bytes : List UInt8} {rows : List String}

/-! ### One row -/

theorem byteOfWord?_hexByte (case : LetterCase) (byte : UInt8) : byteOfWord? (hexByte case byte).toList = some byte := by
  have hread := numeral?_hexByte case byte
  rw [hexByte, String.toList_ofList] at hread ⊢
  rw [byteOfWord?, hread, Option.map_some, UInt8.ofNat_toNat]

theorem wordsBy_of_isSolid {text : String} (hpos : 0 < text.length) (h : IsSolid text) :
    wordsBy isFill text.toList = [text.toList] := by
  refine wordsBy_eq_singleton ?_ h
  intro hnil
  rw [← String.length_toList, hnil] at hpos
  exact absurd hpos (by decide)

theorem wordsBy_append_blank (before after : String) :
    wordsBy isFill (before ++ (" " ++ after)).toList = wordsBy isFill before.toList ++ wordsBy isFill after.toList := by
  rw [String.toList_append, String.toList_append]
  exact wordsBy_append_cons rfl before.toList after.toList

theorem wordsBy_append_blanks (before after : String) :
    wordsBy isFill (before ++ ("  " ++ after)).toList = wordsBy isFill before.toList ++ wordsBy isFill after.toList := by
  rw [String.toList_append, String.toList_append, ← wordsBy_cons (c := ' ') rfl after.toList]
  exact wordsBy_append_cons rfl before.toList (' ' :: after.toList)

theorem wordsBy_spacedHex (bytes : List UInt8) :
    wordsBy isFill (spacedHex bytes).toList = bytes.map fun byte => (hexByte .lower byte).toList := by
  have hbyte : ∀ byte : UInt8, wordsBy isFill (hexByte .lower byte).toList = [(hexByte .lower byte).toList] := by
    intro byte
    exact wordsBy_of_isSolid (by rw [length_hexByte]; decide) (isSolid_hexByte .lower byte)
  induction bytes with
  | nil => rfl
  | cons byte bytes ih =>
    cases bytes with
    | nil => exact hbyte byte
    | cons next bytes =>
      rw [spacedHex_cons_cons, wordsBy_append_blank, hbyte, ih]
      rfl

theorem isSolid_rowLabel (address : Nat) : IsSolid (rowLabel address) := by
  simp only [rowLabel, isSolid_append, isSolid_hexWord]
  decide

theorem length_rowLabel (address : Nat) : (rowLabel address).length = 6 := by
  rw [rowLabel, String.length_append, String.length_append, length_hexWord]
  rfl

theorem dumpRow_eq (h : address < 65536) (row : List UInt8) :
    dumpRow address row =
      rowLabel address ++ ("  " ++ (spacedHex (row.take 8) ++ ("  " ++ spacedHex (row.drop 8)))) := by
  rw [dumpRow, hexAddress_eq_hexWord h, rowLabel]
  simp only [String.append_assoc]
  rfl

/-- The words of a row are its label and its bytes. -/
theorem words_dumpRow (h : address < 65536) (row : List UInt8) :
    wordsBy isFill (dumpRow address row).toList =
      (rowLabel address).toList :: row.map fun byte => (hexByte .lower byte).toList := by
  rw [dumpRow_eq h, wordsBy_append_blanks, wordsBy_append_blanks, wordsBy_spacedHex, wordsBy_spacedHex,
    wordsBy_of_isSolid (by rw [length_rowLabel]; decide) (isSolid_rowLabel address), ← List.map_append,
    List.take_append_drop]
  rfl

theorem readRow?_dumpRow (h : address < 65536) (row : List UInt8) : readRow? (dumpRow address row) = some row := by
  unfold readRow?
  rw [words_dumpRow h, List.drop_one, List.tail_cons]
  induction row with
  | nil => rfl
  | cons byte row ih =>
    rw [List.map_cons, List.mapM_cons, byteOfWord?_hexByte, ih]
    rfl

theorem column_dumpRow (h : address < 65536) (row : List UInt8) : column (dumpRow address row) 0 6 = rowLabel address := by
  rw [dumpRow_eq h]
  exact column_append_left (length_rowLabel address) _

/-! ### All rows -/

theorem readRows?_cons (row : String) (rows : List String) :
    readRows? (row :: rows) = (readRow? row).bind fun bytes => (readRows? rows).map (bytes ++ ·) := by
  unfold readRows?
  rw [List.mapM_cons]
  cases readRow? row with
  | none => rfl
  | some bytes => cases rows.mapM readRow? <;> rfl

theorem dumpRows_of_ne_nil (address : Nat) (h : bytes ≠ []) :
    dumpRows address bytes = dumpRow address (bytes.take 16) :: dumpRows (address + 16) (bytes.drop 16) := by
  obtain ⟨byte, rest, rfl⟩ := List.exists_cons_of_ne_nil h
  rw [dumpRows]
  rfl

/-- Each row is labelled with its own address and holds sixteen bytes. -/
structure Shows (rows : List String) (address lines : Nat) (bytes : List UInt8) : Prop where
  length_eq : rows.length = lines
  label : ∀ i < lines, ∃ row, rows[i]? = some row ∧ column row 0 6 = rowLabel (address + 16 * i)
  bytes_eq : readRows? rows = some bytes

theorem shows_dumpRows (hlength : bytes.length = 16 * lines) (hend : address + 16 * lines ≤ 65536) :
    Shows (dumpRows address bytes) address lines bytes := by
  induction lines generalizing address bytes with
  | zero =>
    obtain rfl : bytes = [] := List.length_eq_zero_iff.1 hlength
    rw [dumpRows]
    exact ⟨rfl, by simp, rfl⟩
  | succ lines ih =>
    have hne : bytes ≠ [] := by
      rintro rfl
      simp at hlength
    have haddress : address < 65536 := by omega
    have hrest : (bytes.drop 16).length = 16 * lines := by
      rw [List.length_drop]
      omega
    have hnext : address + 16 + 16 * lines ≤ 65536 := by omega
    obtain ⟨hrows, hlabels, hbytes⟩ := ih hrest hnext
    -- the other rows are those of a dump that begins sixteen bytes further
    rw [dumpRows_of_ne_nil address hne]
    refine ⟨by rw [List.length_cons, hrows], ?_, ?_⟩
    · intro i hi
      cases i with
      | zero => exact ⟨_, rfl, column_dumpRow haddress _⟩
      | succ i =>
        obtain ⟨row, hrow, hlabel⟩ := hlabels i (by omega)
        refine ⟨row, hrow, hlabel.trans ?_⟩
        congr 1
        omega
    · rw [readRows?_cons, readRow?_dumpRow haddress, Option.bind_some, hbytes, Option.map_some, List.take_append_drop]

/-! ### Dumps of the memory and of windows -/

/-- A dump begins at the row that holds its start.  It is refused exactly if it does not end inside the memory, with the
range that it would have read; otherwise it has as many rows as lines were asked for, each labelled with its address, and
they tell what is read from this range.  A window gives the same dump if the range lies in it, and refuses any other. -/
theorem dump_exact (m : Memory) {start lines : UInt64} (h : start.toNat + 16 * lines.toNat < UInt64.size)
    {first length : UInt64} {w : Window} (hw : Window.of? first length = .ok w) :
    let base := start.toNat / 16 * 16
    let stop := base + 16 * lines.toNat
    let refusal := MemoryError.readOverflow (UInt64.ofNat (16 * lines.toNat)) (UInt64.ofNat base)
    (stop ≤ 65536 → ∃ rows bytes, m.dump start lines = .ok rows ∧
      m.read (UInt64.ofNat base) (UInt64.ofNat (16 * lines.toNat)) = .ok bytes ∧ Shows rows base lines.toNat bytes) ∧
    (65536 < stop → m.dump start lines = .error refusal) ∧
    (w.start.toNat ≤ base ∧ stop ≤ w.start.toNat + w.length.toNat →
      ∃ rows, m.dump start lines = .ok rows ∧ w.dump m start lines = .ok rows) ∧
    (¬(w.start.toNat ≤ base ∧ stop ≤ w.start.toNat + w.length.toNat) → w.dump m start lines = .error refusal) := by
  intro base stop refusal
  have hbase : (UInt64.ofNat base).toNat = base := toNat_base start
  have hlength : (UInt64.ofNat (16 * lines.toNat)).toNat = 16 * lines.toNat :=
    UInt64.toNat_ofNat_of_lt' (Nat.lt_of_le_of_lt (Nat.le_add_left _ _) h)
  have hfits : base + 16 * lines.toNat < UInt64.size := by omega
  have hlimit : w.start.toNat + w.length.toNat ≤ 65536 := Window.isInside_of_eq_ok hw
  have hread : m.read (UInt64.ofNat base) (UInt64.ofNat (16 * lines.toNat)) = _ :=
    m.read_eq (by rw [hbase, hlength]; exact hfits)
  have hdump : m.dump start lines = _ := (m.dump_eq start lines).trans (if_pos hfits)
  have hview : w.dump m start lines = _ :=
    (Window.dump_eq hlimit m start lines).trans (if_pos ⟨by omega, Or.inr hfits⟩)
  rw [Flat.read, hbase, hlength] at hread hdump
  rw [Flat.readWithin, hbase, hlength] at hview
  -- both dumps are the rows of one range of cells, which the memory and the window refuse on different conditions
  rw [hdump, hview, hread]
  refine ⟨?_, ?_, ?_, ?_⟩
  · intro hstop
    rw [if_pos hstop]
    exact ⟨_, _, rfl, rfl, shows_dumpRows (by rw [Flat.range, List.length_map, List.length_range]) hstop⟩
  · intro hstop
    rw [if_neg (Nat.not_le.2 hstop)]
    rfl
  · intro hinside
    rw [if_pos (show stop ≤ 65536 by omega), if_pos hinside]
    exact ⟨_, rfl, rfl⟩
  · intro hinside
    rw [if_neg hinside]
    rfl

/-- The last row of the memory, and a window that begins one byte after it. -/
theorem dump_exact_at_end :
    let m := Memory.blank .preserve
    (∃ row, m.dump 0xfff5 1 = .ok [row] ∧ column row 0 6 = "#FFF0:") ∧
    ({ start := 0xfff1, length := 15 } : Window).dump m 0xfff5 1 = .error (.readOverflow 16 0xfff0) := by
  intro m
  have hw : Window.of? 0xfff1 15 = .ok { start := 0xfff1, length := 15 } := rfl
  have hsize : (0xfff5 : UInt64).toNat + 16 * (1 : UInt64).toNat < UInt64.size := by decide
  obtain ⟨hmemory, -, -, hwindow⟩ := dump_exact m hsize hw
  obtain ⟨rows, bytes, hrows, -, hlength, hlabel, -⟩ := hmemory (by decide)
  obtain ⟨row, hrow, hfirst⟩ := hlabel 0 (by decide)
  obtain ⟨row', rfl⟩ := List.length_eq_one_iff.1 hlength
  obtain rfl : row' = row := Option.some.inj hrow
  exact ⟨⟨row', hrows, hfirst⟩, hwindow (by decide)⟩

end Mos6502
