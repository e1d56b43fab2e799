import Mos6502.Proofs.Arithmetic
import Mos6502.Proofs.Processor.Confinement
import Mos6502.Proofs.Text.Column
import Mos6502.Proofs.Text.Form

/-!
# Lines of the trace

A line of the trace is a row of five columns, 48 characters wide, and the outcome.  Each column is read on its own, by its
form and its digits (`TraceLine.InColumns`).  Nothing is lost in a line: the columns tell the address, the bytes and the
effective address, and the bytes tell the instruction, as it is decoded from them (`eq_of_bytes`).  So two lines with the
same text are of the same instruction, which has the same effective address and the same outcome (`trace_text`).  The text
of an instruction alone is a row of 43 characters.
-/

namespace Mos6502

/-! ### Forms of columns -/

/-- The names of the mnemonics. -/
def mnemonicNames : List (Mnemonic × String) :=
  [(.lda, "LDA"), (.ldx, "LDX"), (.ldy, "LDY"), (.sta, "STA"), (.stx, "STX"), (.sty, "STY"),
    (.tax, "TAX"), (.tay, "TAY"), (.txa, "TXA"), (.tya, "TYA"),
    (.pha, "PHA"), (.pla, "PLA"), (.jsr, "JSR"), (.rts, "RTS"), (.jmp, "JMP"), (.brk, "BRK"),
    (.bcc, "BCC"), (.bcs, "BCS"), (.beq, "BEQ"), (.bne, "BNE"), (.bmi, "BMI"), (.bpl, "BPL"),
    (.adc, "ADC"), (.sbc, "SBC"), (.cmp, "CMP"), (.cpx, "CPX"), (.cpy, "CPY"),
    (.inc, "INC"), (.inx, "INX"), (.iny, "INY"), (.dec, "DEC"), (.dex, "DEX"), (.dey, "DEY"),
    (.and, "AND"), (.bit, "BIT"), (.lsr, "LSR"), (.clc, "CLC"), (.sec, "SEC"), (.nop, "NOP"),
    (.unknown, "???")]

namespace ModeKind

/-- The form of an operand in its column. -/
def form : ModeKind → String
  | .implied => "         "
  | .accumulator => "A        "
  | .immediate => "#$..     "
  | .zeroPage => "$..      "
  | .zeroPageX => "$..,X    "
  | .zeroPageY => "$..,Y    "
  | .indexedIndirect => "($..,X)  "
  | .indirectIndexed => "($..),Y  "
  | .absolute => "$....    "
  | .absoluteX => "$....,X  "
  | .absoluteY => "$....,Y  "
  | .indirect => "($....)  "
  | .relative => "$....    "

/-- The case of the letters in an operand: small ones in a byte, capitals in a word. -/
def letterCase : ModeKind → LetterCase
  | .absolute | .absoluteX | .absoluteY | .indirect | .relative => .upper
  | _ => .lower

/-- The form of the bytes of an instruction in their column. -/
def byteForm (kind : ModeKind) : String :=
  match kind.operandLength with
  | 0 => "(..)          "
  | 1 => "(.. ..)       "
  | _ => "(.. .. ..)    "

end ModeKind

/-- The number of some bytes, the high byte first. -/
def byteNumber (bytes : List UInt8) : Nat :=
  bytes.foldl (fun n byte => 256 * n + byte.toNat) 0

/-- The number that an operand tells: that of its bytes, which stand with the low byte first, or the destination of a
branch. -/
def Instruction.told (i : Instruction) : Nat :=
  let operand := byteNumber i.mode.operands.reverse
  if i.mode.kind = .relative then ((i.address.toNat + 2 + signedValue operand) % 65536).toNat else operand

/-! ### Texts in columns -/

namespace AddressingMode

theorem length_text_le (mode : AddressingMode) : mode.text.length ≤ 9 := by
  cases mode <;> simp [text] <;> decide

theorem isSolid_text (mode : AddressingMode) : IsSolid mode.text := by
  cases mode <;> simp [text] <;> decide

theorem length_operands_le (mode : AddressingMode) : mode.operands.length ≤ 2 := by
  cases mode <;> simp [operands]

end AddressingMode

namespace Mnemonic

theorem length_text (mnemonic : Mnemonic) : mnemonic.text.length = 3 := by
  cases mnemonic <;> rfl

theorem isSolid_text (mnemonic : Mnemonic) : IsSolid mnemonic.text := by
  cases mnemonic <;> decide

end Mnemonic

namespace Instruction

theorem byteText_eq (i : Instruction) : i.byteText = "(" ++ spacedHex i.bytes ++ ")" := rfl

theorem length_byteText_le (i : Instruction) : i.byteText.length ≤ 14 := by
  have hbytes : i.bytes.length = i.mode.operands.length + 1 := rfl
  have hoperands := i.mode.length_operands_le
  have hleft : "(".length = 1 := rfl
  have hright : ")".length = 1 := rfl
  rw [byteText_eq, String.length_append, String.length_append, length_spacedHex, hbytes, hleft, hright]
  omega

/-- The parentheses keep the blanks between the bytes inside. -/
theorem trim_byteText (i : Instruction) : trim isFill i.byteText.toList = i.byteText.toList := by
  rw [byteText_eq, String.toList_append, String.toList_append]
  refine trim_eq_self ?_ ?_
  · simp [isFill]
  · intro c hc
    rw [List.getLast?_append_of_ne_nil _ (by decide)] at hc
    obtain rfl : ')' = c := Option.some.inj hc
    decide

theorem byteText_injective {i j : Instruction} (h : i.byteText = j.byteText) : i.bytes = j.bytes := by
  have hchars := congrArg String.toList h
  rw [byteText_eq, byteText_eq, String.toList_append, String.toList_append, String.toList_append,
    String.toList_append] at hchars
  exact spacedHex_injective (String.toList_injective (List.append_cancel_left (List.append_cancel_right hchars)))

/-! ### The row of an instruction -/

def addressCell (i : Instruction) : Cell :=
  .ofSolid 9 ("#0x" ++ hexWord .upper i.address ++ ":") (by simp; decide) (by simp; decide)

def byteCell (i : Instruction) : Cell where
  width := 14
  text := i.byteText
  length_le := i.length_byteText_le
  trim_eq := i.trim_byteText

-- the blank that separates the mnemonic from the operand counts as filling
def mnemonicCell (i : Instruction) : Cell :=
  .ofSolid 5 i.mnemonic.text (by rw [i.mnemonic.length_text]; decide) i.mnemonic.isSolid_text

def modeCell (i : Instruction) (width : Nat) (h : 9 ≤ width) : Cell :=
  .ofSolid width i.mode.text (Nat.le_trans i.mode.length_text_le h) i.mode.isSolid_text

/-- The columns of an instruction, its mode in one of the given width. -/
def cells (i : Instruction) (width : Nat) (h : 9 ≤ width) : List Cell :=
  [i.addressCell, i.byteCell, i.mnemonicCell, i.modeCell width h]

theorem filled_addressCell (i : Instruction) : i.addressCell.filled = "#0x" ++ hexWord .upper i.address ++ ": " := by
  have hlength : ("#0x" ++ hexWord .upper i.address ++ ":").length = 8 := by
    rw [String.length_append, String.length_append, length_hexWord]
    rfl
  show fillTo 9 ("#0x" ++ hexWord .upper i.address ++ ":") = _
  rw [fillTo_succ (Nat.le_of_eq hlength), fillTo_of_length_eq hlength, String.append_assoc]
  rfl

theorem filled_mnemonicCell (i : Instruction) : i.mnemonicCell.filled = i.mnemonic.text ++ "  " := by
  have hlength := i.mnemonic.length_text
  show fillTo 5 i.mnemonic.text = _
  rw [fillTo_succ (by omega), fillTo_succ (by omega), fillTo_of_length_eq hlength, String.append_assoc]
  rfl

theorem columns_eq_row (i : Instruction) : i.columns = row [i.addressCell, i.byteCell, i.mnemonicCell] := by
  have hmnemonic : i.mnemonicCell.filled = fillTo 4 i.mnemonic.text ++ " " :=
    fillTo_succ (Nat.le_trans (Nat.le_of_eq i.mnemonic.length_text) (by decide))
  simp only [row_cons, row_nil, filled_addressCell, hmnemonic, columns, String.append_assoc]
  rfl

theorem text_eq_row (i : Instruction) : i.text = row (i.cells 15 (by decide)) := by
  have hmode : (i.modeCell 15 (by decide)).filled = fillTo 15 i.mode.text := rfl
  simp only [text, columns_eq_row, cells, row_cons, row_nil, hmode, String.append_assoc,
    String.append_empty]

/-! ### Decoded instructions -/

/-- An instruction that some bytes are decoded to. -/
def IsDecoded (i : Instruction) : Prop :=
  ∃ address opcode low high, i = decode address opcode low high

variable {i j : Instruction}

/-- The branch of a decoded instruction is displaced from its own address. -/
theorem base_eq_address (hi : i.IsDecoded) {base : UInt16} {displacement : UInt8}
    (hmode : i.mode = .relative base displacement) : base = i.address := by
  obtain ⟨address, opcode, low, high, rfl⟩ := hi
  unfold decode AddressingMode.ofOperands at hmode
  dsimp only at hmode
  split at hmode
  case h_13 =>
    cases hmode
    rfl
  all_goals cases hmode

/-- A decoded instruction is determined by its address and its bytes. -/
theorem eq_of_bytes (hi : i.IsDecoded) (hj : j.IsDecoded) (haddress : i.address = j.address) (hbytes : i.bytes = j.bytes) :
    i = j := by
  obtain ⟨address, opcode, low, high, rfl⟩ := hi
  obtain ⟨address', opcode', low', high', rfl⟩ := hj
  obtain rfl : address = address' := haddress
  obtain ⟨hopcode, hoperands⟩ := List.cons.inj hbytes
  obtain rfl : opcode = opcode' := hopcode
  simp only [decode, AddressingMode.operands_ofOperands] at hoperands
  refine decode_congr ?_ ?_
  · intro hpos
    have hlow := congrArg (·[0]?) hoperands
    simpa [List.getElem?_take_of_lt hpos] using hlow
  · intro htwo
    have hhigh := congrArg (·[1]?) hoperands
    simpa [List.getElem?_take_of_lt htwo] using hhigh

/-- The columns of a decoded instruction determine it. -/
theorem eq_of_cells {width : Nat} {h : 9 ≤ width} (hi : i.IsDecoded) (hj : j.IsDecoded)
    (hcells : i.cells width h = j.cells width h) : i = j := by
  obtain ⟨haddress, hcells⟩ := List.cons.inj hcells
  have hbytes := congrArg Cell.text (List.cons.inj hcells).1
  refine eq_of_bytes hi hj ?_ (byteText_injective hbytes)
  have htext : "#0x" ++ hexWord .upper i.address ++ ":" = "#0x" ++ hexWord .upper j.address ++ ":" :=
    congrArg Cell.text haddress
  exact eq_of_append_hexWord htext

theorem map_width_cells (i : Instruction) (width : Nat) (h : 9 ≤ width) :
    (i.cells width h).map Cell.width = [9, 14, 5, width] := rfl

theorem length_cells (i : Instruction) (width : Nat) (h : 9 ≤ width) : (i.cells width h).length = 4 := rfl

theorem length_text (i : Instruction) : i.text.length = 43 := by
  rw [text_eq_row, length_row, map_width_cells]
  rfl

theorem eq_of_text (hi : i.IsDecoded) (hj : j.IsDecoded) (h : i.text = j.text) : i = j := by
  rw [text_eq_row, text_eq_row] at h
  have hwidths := (i.map_width_cells 15 (by decide)).trans (j.map_width_cells 15 (by decide)).symm
  exact eq_of_cells hi hj (row_append_inj hwidths (congrArg (· ++ "") h)).1

/-! ### Reading the columns -/

theorem fits_address (i : Instruction) : Fits .upper "#0x....: " i.address.toNat i.addressCell.filled := by
  have hword := fits_hexWord .upper (show '.' ∉ "#0x".toList by decide) i.address
  have hfilled := hword.append_text (show '.' ∉ ": ".toList by decide)
  rw [filled_addressCell]
  exact hfilled

theorem fits_bytes (i : Instruction) :
    Fits .lower i.mode.kind.byteForm (byteNumber i.bytes) (fillTo 14 i.byteText) := by
  have hblank : '.' ∉ " ".toList := by decide
  have hclose : '.' ∉ ")".toList := by decide
  have hopcode := (fits_text .lower (show '.' ∉ "(".toList by decide)).append_hexByte i.opcode
  have hsingle : ∀ byte, spacedHex [byte] = hexByte .lower byte := fun _ => rfl
  have hle := i.mode.length_operands_le
  rw [byteText_eq, bytes, ModeKind.byteForm, ← i.mode.length_operands]
  generalize i.mode.operands = operands at hle ⊢
  obtain _ | ⟨low, _ | ⟨high, _ | ⟨_, _⟩⟩⟩ := operands
  · exact (hopcode.append_text hclose).fill 14
  · have hlow := (hopcode.append_text hblank).append_hexByte low
    have h := (hlow.append_text hclose).fill 14
    rw [spacedHex_cons_cons, hsingle]
    simp only [String.append_assoc] at h ⊢
    exact h
  · have hlow := (hopcode.append_text hblank).append_hexByte low
    have hhigh := (hlow.append_text hblank).append_hexByte high
    have h := (hhigh.append_text hclose).fill 14
    rw [spacedHex_cons_cons, spacedHex_cons_cons, hsingle]
    simp only [String.append_assoc] at h ⊢
    exact h
  · simp at hle

theorem fits_mode (hi : i.IsDecoded) :
    Fits i.mode.kind.letterCase i.mode.kind.form i.told (fillTo 9 i.mode.text) := by
  have hsingle : ∀ byte, byteNumber [byte].reverse = byte.toNat := fun byte => Nat.zero_add byte.toNat
  have hpair : ∀ w, byteNumber [lowByte w, highByte w].reverse = w.toNat := by
    intro w
    have hw := toNat_word (lowByte w) (highByte w)
    rw [word_lowByte_highByte] at hw
    show 256 * (256 * 0 + (highByte w).toNat) + (lowByte w).toNat = w.toNat
    omega
  have hbyte : ∀ {before : String}, '.' ∉ before.toList → ∀ byte,
      Fits .lower (before ++ "..") (byteNumber [byte].reverse) (before ++ hexByte .lower byte) :=
    fun h byte => hsingle byte ▸ fits_hexByte .lower h byte
  have hword : ∀ {before : String}, '.' ∉ before.toList → ∀ w,
      Fits .upper (before ++ "....") (byteNumber [lowByte w, highByte w].reverse) (before ++ hexWord .upper w) :=
    fun h w => hpair w ▸ fits_hexWord .upper h w
  have hdollar : '.' ∉ "$".toList := by decide
  have hparen : '.' ∉ "($".toList := by decide
  have hx : '.' ∉ ",X".toList := by decide
  have hy : '.' ∉ ",Y".toList := by decide
  have hbase := @base_eq_address i hi
  unfold told
  generalize i.mode = mode at hbase ⊢
  cases mode with
  | implied => exact (fits_text .lower (show '.' ∉ "".toList by decide)).fill 9
  | accumulator => exact (fits_text .lower (show '.' ∉ "A".toList by decide)).fill 9
  | immediate b => exact (hbyte (show '.' ∉ "#$".toList by decide) b).fill 9
  | zeroPage b => exact (hbyte hdollar b).fill 9
  | zeroPageX b => exact ((hbyte hdollar b).append_text hx).fill 9
  | zeroPageY b => exact ((hbyte hdollar b).append_text hy).fill 9
  | indexedIndirect b => exact ((hbyte hparen b).append_text (show '.' ∉ ",X)".toList by decide)).fill 9
  | indirectIndexed b => exact ((hbyte hparen b).append_text (show '.' ∉ "),Y".toList by decide)).fill 9
  | absolute w => exact (hword hdollar w).fill 9
  | absoluteX w => exact ((hword hdollar w).append_text hx).fill 9
  | absoluteY w => exact ((hword hdollar w).append_text hy).fill 9
  | indirect w => exact ((hword hparen w).append_text (show '.' ∉ ")".toList by decide)).fill 9
  | relative base displacement =>
    obtain rfl := hbase rfl
    have h := (fits_hexWord .upper hdollar (branchDestination i.address displacement)).fill 9
    rw [toNat_branchDestination, ← hsingle displacement] at h
    exact h

end Instruction

theorem Mnemonic.lookup_name (mnemonic : Mnemonic) : mnemonicNames.lookup mnemonic = some mnemonic.text := by
  cases mnemonic <;> rfl

/-! ### The row of a line -/

namespace TraceLine

/-- An effective address as it is printed, and nothing where there is none. -/
def targetText : Option UInt16 → String
  | some address => "(#0x" ++ hexWord .upper address ++ ")"
  | none => ""

theorem length_targetText_some (address : UInt16) : (targetText (some address)).length = 9 := by
  rw [targetText, String.length_append, String.length_append, length_hexWord]
  rfl

theorem fillTo_targetText_some (address : UInt16) :
    fillTo 11 (targetText (some address)) = targetText (some address) ++ "  " := by
  have hlength := length_targetText_some address
  rw [fillTo_succ (by omega), fillTo_succ (by omega), fillTo_of_length_eq hlength, String.append_assoc]
  rfl

theorem length_targetText_le (target : Option UInt16) : (targetText target).length ≤ 11 := by
  cases target with
  | none => decide
  | some address =>
    rw [length_targetText_some]
    decide

theorem isSolid_targetText (target : Option UInt16) : IsSolid (targetText target) := by
  cases target with
  | none => decide
  | some address =>
    simp only [targetText, isSolid_append, isSolid_hexWord, and_true]
    decide

theorem targetText_injective {target target' : Option UInt16} (h : targetText target = targetText target') :
    target = target' := by
  have hne : ∀ address : UInt16, targetText (some address) ≠ targetText none := by
    intro address h
    have hzero := (length_targetText_some address).symm.trans (congrArg String.length h)
    cases hzero
  cases target with
  | none =>
    cases target' with
    | none => rfl
    | some address' => exact absurd h.symm (hne address')
  | some address =>
    cases target' with
    | none => exact absurd h (hne address)
    | some address' => rw [eq_of_append_hexWord h]

variable {line line' : TraceLine}

def targetCell (line : TraceLine) : Cell :=
  .ofSolid 11 (targetText line.target) (length_targetText_le line.target) (isSolid_targetText line.target)

/-- The columns of a line. -/
def cells (line : TraceLine) : List Cell :=
  line.instruction.cells 9 (Nat.le_refl 9) ++ [line.targetCell]

theorem map_width_cells (line : TraceLine) : line.cells.map Cell.width = [9, 14, 5, 9, 11] := rfl

theorem resolvedText_eq (mode : AddressingMode) (target : Option UInt16) :
    mode.resolvedText target ++ "  " = fillTo 9 mode.text ++ fillTo 11 (targetText target) := by
  unfold AddressingMode.resolvedText
  rw [String.append_assoc]
  cases target with
  | none => rfl
  | some address =>
    rw [fillTo_targetText_some]
    rfl

/-- The effective address in its column. -/
theorem fits_target (line : TraceLine) :
    match line.target with
    | some address => Fits .upper "(#0x....)  " address.toNat line.targetCell.filled
    | none => line.targetCell.filled = "           " := by
  cases htarget : line.target with
  | none =>
    show fillTo 11 (targetText line.target) = _
    rw [htarget]
    rfl
  | some address =>
    have hword := fits_hexWord .upper (show '.' ∉ "(#0x".toList by decide) address
    have hclosed := hword.append_text (show '.' ∉ ")".toList by decide)
    have hfilled := hclosed.append_text (show '.' ∉ "  ".toList by decide)
    show Fits .upper _ _ (fillTo 11 (targetText line.target))
    rw [htarget, fillTo_targetText_some]
    exact hfilled

theorem text_eq_row (line : TraceLine) : line.text = row line.cells ++ line.outcome := by
  have hmode : (line.instruction.modeCell 9 (Nat.le_refl 9)).filled = fillTo 9 line.instruction.mode.text := rfl
  have htarget : line.targetCell.filled = fillTo 11 (targetText line.target) := rfl
  rw [text, @String.append_assoc line.instruction.columns, resolvedText_eq, Instruction.columns_eq_row]
  simp only [cells, Instruction.cells, List.cons_append, List.nil_append, row_cons, row_nil, hmode, htarget,
    String.append_assoc, String.append_empty]

/-- Each part of a line in its column, and the outcome after them. -/
structure InColumns (line : TraceLine) : Prop where
  address : Fits .upper "#0x....: " line.instruction.address.toNat (column line.text 0 9)
  bytes : Fits .lower line.instruction.mode.kind.byteForm
    (byteNumber (line.instruction.opcode :: line.instruction.mode.operands)) (column line.text 9 14)
  mnemonic : ∃ name, mnemonicNames.lookup line.instruction.mnemonic = some name ∧ column line.text 23 5 = name ++ "  "
  operand : Fits line.instruction.mode.kind.letterCase line.instruction.mode.kind.form line.instruction.told
    (column line.text 28 9)
  target : match line.target with
    | some address => Fits .upper "(#0x....)  " address.toNat (column line.text 37 11)
    | none => column line.text 37 11 = "           "
  outcome : ∃ header, header.length = 48 ∧ line.text = header ++ line.outcome

theorem inColumns (hline : line.instruction.IsDecoded) : line.InColumns := by
  let i := line.instruction
  let mode := i.modeCell 9 (Nat.le_refl 9)
  have hcolumn : ∀ before cell after, line.cells = before ++ cell :: after →
      column line.text (before.map Cell.width).sum cell.width = cell.filled := by
    intro before cell after h
    rw [text_eq_row, h]
    exact column_row before cell after line.outcome
  obtain ⟨hfirst, hsecond, hthird, hfourth, hfifth⟩ :
      column line.text 0 9 = i.addressCell.filled ∧ column line.text 9 14 = i.byteCell.filled ∧
      column line.text 23 5 = i.mnemonicCell.filled ∧ column line.text 28 9 = mode.filled ∧
      column line.text 37 11 = line.targetCell.filled :=
    ⟨hcolumn [] i.addressCell [i.byteCell, i.mnemonicCell, mode, line.targetCell] rfl,
      hcolumn [i.addressCell] i.byteCell [i.mnemonicCell, mode, line.targetCell] rfl,
      hcolumn [i.addressCell, i.byteCell] i.mnemonicCell [mode, line.targetCell] rfl,
      hcolumn [i.addressCell, i.byteCell, i.mnemonicCell] mode [line.targetCell] rfl,
      hcolumn [i.addressCell, i.byteCell, i.mnemonicCell, mode] line.targetCell [] rfl⟩
  refine ⟨hfirst ▸ i.fits_address, hsecond ▸ i.fits_bytes, ⟨i.mnemonic.text, i.mnemonic.lookup_name, ?_⟩,
    hfourth ▸ Instruction.fits_mode hline, ?_, row line.cells, length_row _, text_eq_row line⟩
  · rw [hthird]
    exact i.filled_mnemonicCell
  · rw [hfifth]
    exact line.fits_target

theorem eq_of_text (hline : line.instruction.IsDecoded) (hline' : line'.instruction.IsDecoded) (h : line.text = line'.text) :
    line.instruction = line'.instruction ∧ line.target = line'.target ∧ line.outcome = line'.outcome := by
  rw [text_eq_row, text_eq_row] at h
  obtain ⟨hcells, houtcome⟩ := row_append_inj (line.map_width_cells.trans line'.map_width_cells.symm) h
  obtain ⟨hinstruction, htarget⟩ := List.append_inj hcells
    ((line.instruction.length_cells 9 (Nat.le_refl 9)).trans (line'.instruction.length_cells 9 (Nat.le_refl 9)).symm)
  have htext : targetText line.target = targetText line'.target := congrArg Cell.text (List.cons.inj htarget).1
  exact ⟨Instruction.eq_of_cells hline hline' hinstruction, targetText_injective htext, houtcome⟩

end TraceLine

/-! ### Lines of ticks -/

namespace Processor

/-- A line that a tick of a processor gives. -/
def IsTraced (line : TraceLine) : Prop :=
  ∃ (p q : Processor) (tick : Tick), p.tick = .ok tick q ∧ tick.line? = some line

theorem isDecoded_fetched (p : Processor) : p.fetched.IsDecoded :=
  ⟨_, _, _, _, rfl⟩

/-- The line of a tick is about the instruction that was fetched. -/
theorem instruction_of_tick {p q : Processor} {tick : Tick} {line : TraceLine} (h : p.tick = .ok tick q)
    (hline : tick.line? = some line) : line.instruction = p.fetched := by
  have hfetched : ∀ {line : TraceLine} {m : Machine}, p.fetched.execute p.toMachine = .ok line m →
      line.instruction = p.fetched := by
    intro line m he
    obtain ⟨fields, -, rfl⟩ := Instruction.exists_perform_of_execute he
    rfl
  obtain ⟨-, ht⟩ | ⟨-, -, ht⟩ | ⟨line', m, -, -, he, ⟨-, ht⟩ | ⟨-, ht⟩⟩ := p.tick_cases
  all_goals
    rw [ht] at h
    obtain ⟨rfl, -⟩ := EStateM.Result.ok.inj h
    cases hline
  · exact hfetched he
  · exact hfetched he

/-- A running processor whose region holds the next instruction gives a line about it. -/
theorem exists_traced {p : Processor} (hrun : p.activity = .running) (hf : p.isFetchable = true) :
    ∃ line, IsTraced line ∧ line.instruction = p.fetched ∧ line.target = p.fetched.target? p.toMachine := by
  obtain ⟨line, m, he⟩ := p.exists_execute
  have htick := tick_execute hrun hf he
  obtain ⟨fields, -, rfl⟩ := Instruction.exists_perform_of_execute he
  split at htick
  · exact ⟨_, ⟨p, _, _, htick, rfl⟩, rfl, rfl⟩
  · exact ⟨_, ⟨p, _, _, htick, rfl⟩, rfl, rfl⟩

/-- The lines of ticks have their parts in fixed columns, and two of them with the same text are of the same instruction
with the same effective address and the same outcome.  The text of a decoded instruction has 43 characters and
determines it. -/
theorem trace_text {line line' : TraceLine} (hline : IsTraced line) (hline' : IsTraced line') {i j : Instruction}
    (hi : i.IsDecoded) (hj : j.IsDecoded) :
    line.InColumns ∧
    (line.text = line'.text →
      line.instruction = line'.instruction ∧ line.target = line'.target ∧ line.outcome = line'.outcome) ∧
    i.text.length = 43 ∧ (i.text = j.text → i = j) := by
  have hdecoded : ∀ {line : TraceLine}, IsTraced line → line.instruction.IsDecoded := by
    rintro line ⟨p, q, tick, h, hline⟩
    rw [instruction_of_tick h hline]
    exact p.isDecoded_fetched
  exact ⟨TraceLine.inColumns (hdecoded hline), TraceLine.eq_of_text (hdecoded hline) (hdecoded hline'), i.length_text,
    Instruction.eq_of_text hi hj⟩

/-- Wherever the address space holds an instruction, there is a line about it. -/
private theorem exists_traced_of_decode {memory : Memory} {r : Registers} {i : Instruction}
    (hi : .decode r.programCounter (memory.get r.programCounter) (memory.get (r.programCounter + 1))
      (memory.get (r.programCounter + 2)) = i)
    (hend : r.programCounter.toNat + i.size ≤ memorySize) :
    ∃ line, IsTraced line ∧ line.instruction = i ∧ line.target = i.target? { memory, registers := r } := by
  have hf : isFetchable { ofMemory memory with activity := .running, registers := r } = true := by
    subst hi
    exact Region.holds_iff_bounds.2 ⟨Nat.zero_le _, hend⟩
  obtain ⟨line, hline, hinstruction, htarget⟩ := exists_traced rfl hf
  exact ⟨line, hline, hinstruction.trans hi, htarget.trans (congrArg (fun i => Instruction.target? i _) hi)⟩

/-- The line of a load from the zero page and that of a store behind a base have their operands and effective addresses
in the columns, and are different texts. -/
theorem trace_text_of_load_of_store :
    ∃ line line', IsTraced line ∧ IsTraced line' ∧
      column line.text 23 5 = "LDA  " ∧ Fits .lower "$..      " 0x10 (column line.text 28 9) ∧
      Fits .upper "(#0x....)  " 0x0010 (column line.text 37 11) ∧
      column line'.text 23 5 = "STA  " ∧ Fits .upper "$....,X  " 0x0200 (column line'.text 28 9) ∧
      Fits .upper "(#0x....)  " 0x0205 (column line'.text 37 11) ∧
      line.text ≠ line'.text := by
  obtain ⟨memory, h0, h1, h2, h3, h4⟩ : ∃ memory : Memory, memory.get 0x0600 = 0xa5 ∧ memory.get 0x0601 = 0x10 ∧
      memory.get 0x0602 = 0x9d ∧ memory.get 0x0603 = 0x00 ∧ memory.get 0x0604 = 0x02 :=
    ⟨(((((Memory.blank .preserve).set 0x0600 0xa5).set 0x0601 0x10).set 0x0602 0x9d).set 0x0603 0x00).set 0x0604 0x02,
      by simp [Memory.get_set]⟩
  let r := Registers.initial 0x0600
  let r' : Registers := { Registers.initial 0x0602 with indexX := 5 }
  let i : Instruction := { address := 0x0600, opcode := 0xa5, mnemonic := .lda, mode := .zeroPage 0x10 }
  let i' : Instruction := { address := 0x0602, opcode := 0x9d, mnemonic := .sta, mode := .absoluteX 0x0200 }
  have hload : operation 0xa5 = { mnemonic := .lda, kind := .zeroPage } := by
    rw [operation_eq_lookup]
    decide
  have hstore : operation 0x9d = { mnemonic := .sta, kind := .absoluteX } := by
    rw [operation_eq_lookup]
    decide
  have hi : .decode r.programCounter (memory.get r.programCounter) (memory.get (r.programCounter + 1))
      (memory.get (r.programCounter + 2)) = i := by
    show Instruction.decode 0x0600 (memory.get 0x0600) (memory.get 0x0601) (memory.get 0x0602) = i
    rw [h0, h1, h2, Instruction.decode, hload]
    rfl
  have hi' : .decode r'.programCounter (memory.get r'.programCounter) (memory.get (r'.programCounter + 1))
      (memory.get (r'.programCounter + 2)) = i' := by
    show Instruction.decode 0x0602 (memory.get 0x0602) (memory.get 0x0603) (memory.get 0x0604) = i'
    rw [h2, h3, h4, Instruction.decode, hstore]
    rfl
  obtain ⟨line, hline, hinstruction, htarget⟩ := exists_traced_of_decode hi (by decide)
  obtain ⟨line', hline', hinstruction', htarget'⟩ := exists_traced_of_decode hi' (by decide)
  obtain ⟨⟨-, -, ⟨name, hname, hmnemonic⟩, hoperand, hshown, -⟩, hinjective, -⟩ :=
    trace_text hline hline' ⟨_, _, _, _, hi.symm⟩ ⟨_, _, _, _, hi'.symm⟩
  obtain ⟨⟨-, -, ⟨name', hname', hmnemonic'⟩, hoperand', hshown', -⟩, -⟩ :=
    trace_text hline' hline ⟨_, _, _, _, hi'.symm⟩ ⟨_, _, _, _, hi.symm⟩
  rw [hinstruction] at hname hoperand
  rw [hinstruction'] at hname' hoperand'
  rw [htarget] at hshown
  rw [htarget'] at hshown'
  obtain rfl : "LDA" = name := Option.some.inj hname
  obtain rfl : "STA" = name' := Option.some.inj hname'
  refine ⟨line, line', hline, hline', hmnemonic, hoperand, hshown, hmnemonic', hoperand', hshown', ?_⟩
  intro htext
  have h : i = i' := hinstruction.symm.trans ((hinjective htext).1.trans hinstruction')
  exact absurd (congrArg Instruction.opcode h) (by decide)

end Processor

end Mos6502
