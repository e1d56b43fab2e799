import Mathlib.Data.List.Forall2
import Mos6502.Processor.Snapshot
import Mos6502.Proofs.Execution.Failure
import Mos6502.Proofs.Processor.TraceLine
import Mos6502.Proofs.Text.Paint

/-!
# The box of a snapshot

Every text in a snapshot is printed and fits its column, whatever the registers, the memory, the region and the activity
are, so the snapshot is a box of fourteen lines of 57 characters.  The columns for schedules have room for all of them that
can be set up by a frequency (`Schedule.IsSettable`).  In colours the snapshot is the same text with escape sequences
(`render_box`).
-/

namespace Mos6502

/-! ### Schedules -/

/-- A schedule that can be set up: step by step, as fast as possible, or with a number of ticks per second. -/
inductive Schedule.IsSettable : Schedule → Prop where
  | stepwise : IsSettable .stepwise
  | unlimited : IsSettable (.free .unlimited)
  | frequency (ticks : UInt32) : IsSettable (.free (.ofFrequency ticks))

namespace Schedule

variable {s : Schedule}

theorem isPrinted_text (s : Schedule) : IsPrinted s.text := by
  unfold text
  split
  · decide
  · decide
  · rw [isPrinted_append, isPrinted_append]
    exact ⟨⟨by decide, isPrinted_durationText _⟩, by decide⟩

theorem length_text_le (h : s.IsSettable) : s.text.length ≤ 27 := by
  cases h with
  | stepwise => decide
  | unlimited => decide
  | frequency ticks =>
    unfold Pace.ofFrequency
    split
    · decide
    · have hpace : 1000000000 / ticks.toNat < 1000 * 1000000000 :=
        Nat.lt_of_le_of_lt (Nat.div_le_self _ _) (by decide)
      have hduration := length_durationText_le hpace
      have hbefore : "free (".length = 6 := rfl
      have hafter : "/tick)".length = 6 := rfl
      show ("free (" ++ _ ++ "/tick)").length ≤ 27
      rw [String.length_append, String.length_append, hbefore, hafter]
      omega

end Schedule

/-! ### Parts of the processor -/

theorem Activity.isPrinted_text (activity : Activity) : IsPrinted activity.text := by
  cases activity <;> decide

theorem Activity.length_text_le (activity : Activity) : activity.text.length ≤ 10 := by
  cases activity <;> decide

theorem AddressingMode.isPrinted_text (mode : AddressingMode) : IsPrinted mode.text := by
  cases mode <;> simp [text] <;> decide

theorem Mnemonic.isPrinted_text (mnemonic : Mnemonic) : IsPrinted mnemonic.text := by
  cases mnemonic <;> decide

theorem Instruction.isPrinted_text (i : Instruction) : IsPrinted i.text := by
  simp only [text, columns, byteText, isPrinted_append, isPrinted_fillTo, isPrinted_hexWord, isPrinted_spacedHex,
    i.mode.isPrinted_text, i.mnemonic.isPrinted_text, and_true]
  decide

namespace Snapshot

variable {style : Style} {left right : String × String} {text label : String} {fill : Char}

/-- A row of the box, without colours and in colours. -/
structure IsRow (plain painted : String) : Prop where
  isPrinted : IsPrinted plain
  length_eq : plain.length = lineWidth
  fades : Fades painted plain

/-- A label and a value that fit their columns. -/
structure FitsHalf (entry : String × String) : Prop where
  label : IsPrinted entry.1
  value : IsPrinted entry.2
  length_label : entry.1.length ≤ labelWidth
  length_value : entry.2.length ≤ valueWidth

/-! ### Rows -/

theorem isRow_of_isPrinted (h : IsPrinted text) (hlength : text.length = lineWidth) : IsRow text text :=
  ⟨h, hlength, h.fades⟩

theorem isRow_rule (h : ¬isControl fill) : IsRow (rule fill) (rule fill) := by
  apply isRow_of_isPrinted
  · rw [rule, isPrinted_append, isPrinted_append]
    exact ⟨⟨by decide, isPrinted_replicate _ h⟩, by decide⟩
  · rw [rule, String.length_append, String.length_append, length_repeated]
    rfl

theorem isRow_border (h : ¬isControl fill) : IsRow (border fill) (border fill) := by
  have hfill : ∀ count, IsPrinted (repeated count fill) := fun count => isPrinted_replicate count h
  apply isRow_of_isPrinted
  · simp only [border, isPrinted_append, hfill, and_true, true_and]
    decide
  · simp only [border, String.length_append, length_repeated]
    rfl

theorem isRow_row (hleft : FitsHalf left) (hright : FitsHalf right) : IsRow (row false left right) (row true left right) := by
  have hopen : IsPrinted "| " := by decide
  have hbar : IsPrinted " | " := by decide
  have hclose : IsPrinted " |" := by decide
  refine ⟨?_, ?_, ?_⟩
  · simp only [row, paint, isPrinted_append, isPrinted_fillTo, hleft.label, hleft.value, hright.label, hright.value,
      hopen, hbar, hclose, Bool.false_eq_true, if_false, and_true]
  · simp only [row, paint, String.length_append, length_fillTo, Bool.false_eq_true, if_false,
      Nat.max_eq_left hleft.length_label, Nat.max_eq_left hleft.length_value, Nat.max_eq_left hright.length_label,
      Nat.max_eq_left hright.length_value]
    rfl
  · have hhalf : ∀ {entry : String × String}, FitsHalf entry →
        Fades (fillTo labelWidth entry.1 ++ " | " ++ Style.green.paint (fillTo valueWidth entry.2))
          (fillTo labelWidth entry.1 ++ " | " ++ fillTo valueWidth entry.2) := by
      intro entry h
      have hlabel : IsPrinted (fillTo labelWidth entry.1) := (isPrinted_fillTo _).2 h.label
      exact (hlabel.fades.append hbar.fades).append (fades_paint .green ((isPrinted_fillTo _).2 h.value))
    exact (((hopen.fades.append (hhalf hleft)).append hbar.fades).append (hhalf hright)).append hclose.fades

theorem isRow_line (style : Style) (h : IsPrinted text) (hlength : text.length ≤ 53) :
    IsRow (line false style text) (line true style text) := by
  have hopen : IsPrinted "| " := by decide
  have hclose : IsPrinted " |" := by decide
  have hwidth : text.length ≤ lineWidth - 4 := hlength
  refine ⟨?_, ?_, ?_⟩
  · simp only [line, paint, isPrinted_append, isPrinted_fillTo, h, hopen, hclose, Bool.false_eq_true, if_false, and_true]
  · simp only [line, paint, String.length_append, length_fillTo, Bool.false_eq_true, if_false, Nat.max_eq_left hwidth]
    rfl
  · exact (hopen.fades.append (fades_paint style ((isPrinted_fillTo _).2 h))).append hclose.fades

/-! ### What stands in the rows -/

theorem fitsHalf_byte (hlabel : IsPrinted label) (hlength : label.length ≤ labelWidth) (byte : UInt8) :
    FitsHalf (label, binaryByte byte) :=
  ⟨hlabel, isPrinted_binaryByte byte, hlength, by rw [length_binaryByte]; decide⟩

theorem fitsHalf_word (hlabel : IsPrinted label) (hlength : label.length ≤ labelWidth) (w : UInt16) :
    FitsHalf (label, binaryWord w) := by
  refine ⟨hlabel, ?_, hlength, ?_⟩
  · simp only [binaryWord, isPrinted_append, isPrinted_binaryByte, and_true, true_and]
    decide
  · simp only [binaryWord, String.length_append, length_binaryByte]
    decide

theorem isPrinted_activity (p : Processor) (s : Schedule) :
    IsPrinted ("state: " ++ p.activity.text ++ "mode: " ++ s.text) := by
  simp only [isPrinted_append, p.activity.isPrinted_text, s.isPrinted_text, and_true]
  decide

theorem length_activity_le (p : Processor) {s : Schedule} (h : s.IsSettable) :
    ("state: " ++ p.activity.text ++ "mode: " ++ s.text).length ≤ 50 := by
  have hstate : "state: ".length = 7 := rfl
  have hmode : "mode: ".length = 6 := rfl
  have hactivity := p.activity.length_text_le
  have hschedule := Schedule.length_text_le h
  simp only [String.length_append, hstate, hmode]
  omega

theorem isPrinted_stackText (m : Memory) : IsPrinted (stackText m) := by
  have hlabel : IsPrinted "stack #0x01FF↓  " := by decide
  unfold stackText
  rw [isPrinted_append]
  exact ⟨hlabel, isPrinted_spacedHex _⟩

theorem length_stackText (m : Memory) : (stackText m).length = 27 := by
  have hlabel : "stack #0x01FF↓  ".length = 16 := rfl
  unfold stackText
  rw [String.length_append, length_spacedHex, List.length_map, hlabel]
  rfl

theorem isPrinted_nextText (p : Processor) : IsPrinted (nextText p) := by
  rw [nextText, isPrinted_append]
  refine ⟨by decide, ?_⟩
  split
  · exact Instruction.isPrinted_text _
  · decide

theorem length_nextText_le (p : Processor) : (nextText p).length ≤ 49 := by
  have hlabel : "next  ".length = 6 := rfl
  rw [nextText, String.length_append, hlabel]
  split
  · rw [Instruction.length_text]
  · decide

/-! ### The box -/

theorem forall₂_isRow (p : Processor) {s : Schedule} (h : s.IsSettable) :
    List.Forall₂ IsRow (lines false p s) (lines true p s) := by
  have hrule : IsRow (rule '=') (rule '=') := isRow_rule (by decide)
  have hthick : IsRow (border '=') (border '=') := isRow_border (by decide)
  have hthin : IsRow (border '-') (border '-') := isRow_border (by decide)
  have hlegend : FitsHalf ("", "NV-BDIZC") := ⟨by decide, by decide, by decide, by decide⟩
  have hblank : FitsHalf ("", "") := ⟨by decide, by decide, by decide, by decide⟩
  have hactivity := length_activity_le p h
  have hnext := length_nextText_le p
  -- only the rows with values depend on the processor and the schedule
  simp only [lines, List.forall₂_cons, List.forall₂_nil_left_iff, and_true]
  refine ⟨hrule, isRow_line _ (by decide) (by decide), hthick, ?_, hthin, ?_, hthin, ?_, isRow_row hblank hlegend, hthick,
    ?_, ?_, ?_, hrule⟩
  · exact isRow_row (fitsHalf_byte (by decide) (by decide) _) (fitsHalf_byte (by decide) (by decide) _)
  · exact isRow_row (fitsHalf_byte (by decide) (by decide) _) (fitsHalf_word (by decide) (by decide) _)
  · exact isRow_row (fitsHalf_byte (by decide) (by decide) _) (fitsHalf_byte (by decide) (by decide) _)
  · exact isRow_line _ (isPrinted_activity p s) (by omega)
  · exact isRow_line _ (isPrinted_stackText _) (by rw [length_stackText]; decide)
  · exact isRow_line _ (isPrinted_nextText p) (by omega)

/-- The lines without colours are printed and as wide as the box, and those in colours fade to them. -/
theorem lines_in_box (p : Processor) {s : Schedule} (h : s.IsSettable) :
    (∀ l ∈ lines false p s, IsPrinted l ∧ l.length = lineWidth) ∧
      List.Forall₂ (fun plain painted => Fades painted plain) (lines false p s) (lines true p s) :=
  (List.forall₂_and_left (lines false p s) (lines true p s)).1
    ((forall₂_isRow p h).imp fun _ _ hrow => ⟨And.intro hrow.isPrinted hrow.length_eq, hrow.fades⟩)

/-- The lines are printed, so the breaks between them are the only ones in the text. -/
theorem linesOf_render (p : Processor) {s : Schedule} (h : s.IsSettable) :
    linesOf (render false p s) = lines false p s :=
  linesOf_intercalate (List.cons_ne_nil _ _) fun l hl => ((lines_in_box p h).1 l hl).1

/-- The snapshot when each access to the memory could be refused: the bytes of the next instruction and the cells at the
top of the stack. -/
def attempt (colored : Bool) (p : Processor) (s : Schedule) : Except MemoryError String := do
  let next ← p.fetch
  let cells ← [0x01ff, 0x01fe, 0x01fd, 0x01fc].mapM p.memory.readByte
  return "\n".intercalate ((lines colored p s).take 11 ++
    [line colored .plain ("stack #0x01FF↓  " ++ spacedHex cells),
      line colored (.palette 148) ("next  " ++ (next.map Instruction.text).getD "end of program"), rule '='])

theorem nextText_eq (p : Processor) : nextText p = "next  " ++ (p.peek?.map Instruction.text).getD "end of program" := by
  unfold nextText
  cases p.peek? <;> rfl

theorem attempt_eq_ok (colored : Bool) (p : Processor) (s : Schedule) : attempt colored p s = .ok (render colored p s) := by
  have hcells : [0x01ff, 0x01fe, 0x01fd, 0x01fc].mapM p.memory.readByte =
      .ok ([0x01ff, 0x01fe, 0x01fd, 0x01fc].map p.memory.get) :=
    p.memory.mapM_readByte [0x01ff, 0x01fe, 0x01fd, 0x01fc]
  have hrender : render colored p s = "\n".intercalate ((lines colored p s).take 11 ++
      [line colored .plain (stackText p.memory), line colored (.palette 148) (nextText p), rule '=']) := rfl
  rw [hrender, nextText_eq]
  unfold attempt stackText
  rw [p.fetch_eq_ok, hcells]
  rfl

/-- A snapshot can always be made.  It has fourteen lines of 57 characters, and in colours it is the same text with escape
sequences in it. -/
theorem render_box (p : Processor) {s : Schedule} (h : s.IsSettable) :
    (∀ colored, attempt colored p s = .ok (render colored p s)) ∧
    (linesOf (render false p s)).length = 14 ∧ (∀ l ∈ linesOf (render false p s), l.length = 57) ∧
    withoutEscapes (render true p s).toList = (render false p s).toList := by
  obtain ⟨hplain, hfades⟩ := lines_in_box p h
  have hlines := linesOf_render p h
  refine ⟨fun colored => attempt_eq_ok colored p s, ?_, ?_, ?_⟩
  · rw [hlines]
    rfl
  · rw [hlines]
    exact fun l hl => (hplain l hl).2
  · exact withoutEscapes_of_fades (fades_intercalate (by decide) hfades.flip)

/-- A processor that has not started, a third of a second a tick. -/
theorem render_box_of_blank :
    let p := Processor.ofMemory (.blank .preserve)
    let s := Schedule.free (.ofFrequency 3)
    s.text = "free (333.333333ms/tick)" ∧ (linesOf (render false p s)).length = 14 ∧
      withoutEscapes (render true p s).toList = (render false p s).toList := by
  intro p s
  obtain ⟨-, hlength, -, hfades⟩ := render_box p (.frequency 3)
  exact ⟨by decide, hlength, hfades⟩

end Snapshot

end Mos6502
