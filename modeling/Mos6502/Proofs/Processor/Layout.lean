import Mathlib.Data.List.Infix
import Mos6502.Proofs.Processor.Snapshot

/-!
# Where the labels of a snapshot stand

All labels of a snapshot but one have a fixed line and column (`fixedLabels`), whatever is shown beside them.  The label of
the schedule follows the name of the activity immediately, so its column depends on the length of this name, and on nothing
else (`labels_stay`).
-/

namespace Mos6502

/-- The number of characters before a text first stands among others. -/
def placeIn? (label : List Char) : List Char → Option Nat
  | [] => if label = [] then some 0 else none
  | c :: rest => if label <+: c :: rest then some 0 else (placeIn? label rest).map (· + 1)

/-- The column in which a text first stands in a line. -/
def columnOf? (label line : String) : Option Nat :=
  placeIn? label.toList line.toList

/-! ### The first place of a text -/

variable {before others chars : List Char} {c : Char} {label text : String} {left right : String × String}

theorem placeIn?_append_self (chars rest : List Char) : placeIn? chars (chars ++ rest) = some 0 := by
  cases chars with
  | nil => cases rest <;> simp [placeIn?]
  | cons c chars =>
    rw [List.cons_append, placeIn?, if_pos]
    exact List.prefix_append (c :: chars) rest

/-- What follows a text does not change where it first stands. -/
theorem placeIn?_append (h : placeIn? chars (before ++ chars) = some before.length) (rest : List Char) :
    placeIn? chars (before ++ (chars ++ rest)) = some before.length := by
  induction before with
  | nil => exact placeIn?_append_self chars rest
  | cons c before ih =>
    rw [List.cons_append, placeIn?] at h ⊢
    split at h
    · cases h
    · rename_i hprefix
      obtain ⟨place, hplace, hlength⟩ := Option.map_eq_some_iff.1 h
      obtain rfl : place = before.length := Nat.succ.inj hlength
      have hle : chars.length ≤ (c :: (before ++ chars)).length := by
        simp only [List.length_cons, List.length_append]
        omega
      have hafter : ¬chars <+: c :: (before ++ (chars ++ rest)) := by
        rw [← List.append_assoc, ← List.cons_append, List.isPrefix_append_of_length hle]
        exact hprefix
      rw [if_neg hafter, ih hplace]
      rfl

/-- A text first stands behind characters that do not contain its first one. -/
theorem placeIn?_of_not_mem (h : c ∉ before) : placeIn? (c :: others) (before ++ c :: others) = some before.length := by
  induction before with
  | nil => simpa using placeIn?_append_self (c :: others) []
  | cons d before ih =>
    rw [List.mem_cons, not_or] at h
    have hprefix : ¬c :: others <+: d :: (before ++ c :: others) := fun hp => h.1 (List.cons_prefix_cons.1 hp).1
    rw [List.cons_append, placeIn?, if_neg hprefix, ih h.2]
    rfl

theorem columnOf?_append {before : String} (h : columnOf? label (before ++ label) = some before.length) (rest : String) :
    columnOf? label (before ++ (label ++ rest)) = some before.length := by
  unfold columnOf? at h ⊢
  rw [String.toList_append, ← String.length_toList] at h
  rw [String.toList_append, String.toList_append, ← String.length_toList]
  exact placeIn?_append h rest.toList

theorem columnOf?_of_not_mem {before : String} (hlabel : label.toList = c :: others) (h : c ∉ before.toList) :
    columnOf? label (before ++ label) = some before.length := by
  unfold columnOf?
  rw [String.toList_append, hlabel, ← String.length_toList]
  exact placeIn?_of_not_mem h

/-! ### Lines and rows -/

theorem not_mem_fillTo {width : Nat} (h : c ∉ text.toList) (hfill : c ≠ ' ') : c ∉ (fillTo width text).toList := by
  rw [fillTo, String.toList_append, String.toList_ofList, List.mem_append, not_or]
  exact ⟨h, fun hc => hfill (List.eq_of_mem_replicate hc)⟩

theorem not_mem_binaryByte (hzero : c ≠ '0') (hone : c ≠ '1') (byte : UInt8) : c ∉ (binaryByte byte).toList := by
  rw [binaryByte, String.toList_ofList, List.mem_map]
  rintro ⟨i, -, hc⟩
  split at hc
  · exact hone hc.symm
  · exact hzero hc.symm

namespace Snapshot

/-- A label in a line stands where the text before it ends, if it does not stand there earlier. -/
theorem columnOf?_line {first rest : String} (style : Style) (htext : text = first ++ label ++ rest)
    (h : columnOf? label ("| " ++ first ++ label) = some (2 + first.length)) :
    columnOf? label (line false style text) = some (2 + first.length) := by
  have hlength : ("| " ++ first).length = 2 + first.length := by
    rw [String.length_append]
    rfl
  rw [← hlength] at h ⊢
  simp only [htext, line, paint, fillTo, Bool.false_eq_true, if_false, String.append_assoc]
  rw [← String.append_assoc]
  exact columnOf?_append h _

theorem columnOf?_left (h : columnOf? label ("| " ++ label) = some 2) (value : String) (right : String × String) :
    columnOf? label (row false (label, value) right) = some 2 := by
  simp only [row, paint, fillTo, Bool.false_eq_true, if_false, String.append_assoc]
  exact columnOf?_append h _

/-- A label on the right stands in its column if its first character is not to be found on the left. -/
theorem columnOf?_right (hleft : FitsHalf left) (hlabel : label.toList = c :: others) (hc : c ∉ left.1.toList)
    (hvalue : c ∉ left.2.toList) (hfill : c ≠ ' ' ∧ c ≠ '|') (value : String) :
    columnOf? label (row false left (label, value)) = some 30 := by
  let before := "| " ++ fillTo labelWidth left.1 ++ " | " ++ fillTo valueWidth left.2 ++ " | "
  have hlength : before.length = 30 := by
    simp only [before, String.length_append, length_fillTo, Nat.max_eq_left hleft.length_label,
      Nat.max_eq_left hleft.length_value]
    rfl
  have hbefore : c ∉ before.toList := by
    simp only [before, String.toList_append, List.mem_append, not_mem_fillTo hc hfill.1, not_mem_fillTo hvalue hfill.1]
    simp [hfill]
  have hcolumn : fillTo labelWidth label = label ++ String.ofList (List.replicate (labelWidth - label.length) ' ') := rfl
  obtain ⟨rest, hrow⟩ : ∃ rest, row false left (label, value) = before ++ (label ++ rest) := by
    refine ⟨String.ofList (List.replicate (labelWidth - label.length) ' ') ++ (" | " ++ (fillTo valueWidth value ++ " |")), ?_⟩
    simp only [before, row, paint, hcolumn, Bool.false_eq_true, if_false, String.append_assoc]
  rw [hrow, ← hlength]
  exact columnOf?_append (columnOf?_of_not_mem hlabel hbefore) rest

/-! ### The labels -/

/-- A label with its line and its column, both counted from zero. -/
structure Label where
  text : String
  line : Nat
  column : Nat
  deriving DecidableEq

/-- The labels that never move. -/
def fixedLabels : List Label :=
  [⟨"A", 3, 2⟩, ⟨"SP", 3, 30⟩, ⟨"X", 5, 2⟩, ⟨"PC", 5, 30⟩, ⟨"Y", 7, 2⟩, ⟨"Flags", 7, 30⟩, ⟨"NV-BDIZC", 8, 38⟩,
    ⟨"state:", 10, 2⟩, ⟨"stack", 11, 2⟩, ⟨"next", 12, 2⟩]

/-- The column in which a label first stands in a line of a text. -/
def labelColumn? (text : String) (line : Nat) (label : String) : Option Nat :=
  (linesOf text)[line]?.bind (columnOf? label)

theorem labelColumn?_of_lines (p : Processor) {s : Schedule} (h : s.IsSettable) {number column : Nat} {line : String}
    (hline : (lines false p s)[number]? = some line) (hcolumn : columnOf? label line = some column) :
    labelColumn? (render false p s) number label = some column := by
  rw [labelColumn?, linesOf_render p h, hline]
  exact hcolumn

/-- A label beside a byte begins with a letter that is not in the label of the byte. -/
theorem columnOf?_right_of_byte {name : String} (hname : IsPrinted name ∧ name.length ≤ labelWidth)
    (hlabel : label.toList = c :: others) (hc : c ∉ name.toList ∧ c ≠ '0' ∧ c ≠ '1' ∧ c ≠ ' ' ∧ c ≠ '|') (byte : UInt8)
    (value : String) : columnOf? label (row false (name, binaryByte byte) (label, value)) = some 30 := by
  obtain ⟨hleft, hzero, hone, hfill⟩ := hc
  exact columnOf?_right (fitsHalf_byte hname.1 hname.2 byte) hlabel hleft (not_mem_binaryByte hzero hone byte) hfill value

theorem column_of_fixedLabels (p : Processor) {s : Schedule} (h : s.IsSettable) {label : Label} (hlabel : label ∈ fixedLabels) :
    labelColumn? (render false p s) label.line label.text = some label.column := by
  simp only [fixedLabels, List.mem_cons, List.not_mem_nil, or_false] at hlabel
  rcases hlabel with rfl | rfl | rfl | rfl | rfl | rfl | rfl | rfl | rfl | rfl
  -- three rows of registers, the legend, and the lines of the activity, the stack and the next instruction
  · exact labelColumn?_of_lines p h rfl (columnOf?_left (by decide) _ _)
  · exact labelColumn?_of_lines p h rfl (columnOf?_right_of_byte (by decide) rfl (by decide) _ _)
  · exact labelColumn?_of_lines p h rfl (columnOf?_left (by decide) _ _)
  · exact labelColumn?_of_lines p h rfl (columnOf?_right_of_byte (by decide) rfl (by decide) _ _)
  · exact labelColumn?_of_lines p h rfl (columnOf?_left (by decide) _ _)
  · exact labelColumn?_of_lines p h rfl (columnOf?_right_of_byte (by decide) rfl (by decide) _ _)
  · exact labelColumn?_of_lines p h rfl (by decide)
  · have htext : "state: " ++ p.activity.text ++ "mode: " ++ s.text =
        "" ++ "state:" ++ (" " ++ p.activity.text ++ "mode: " ++ s.text) := by
      have hlabel : "state: " = "state:" ++ " " := rfl
      simp only [hlabel, String.append_assoc, String.empty_append]
    exact labelColumn?_of_lines p h rfl (columnOf?_line .yellow htext (by decide))
  · obtain ⟨cells, hstack⟩ : ∃ cells, stackText p.memory = "stack #0x01FF↓  " ++ cells := ⟨_, rfl⟩
    have htext : stackText p.memory = "" ++ "stack" ++ (" #0x01FF↓  " ++ cells) := by
      rw [hstack, ← String.append_assoc]
      rfl
    exact labelColumn?_of_lines p h rfl (columnOf?_line .plain htext (by decide))
  · obtain ⟨instruction, hnext⟩ : ∃ instruction, nextText p = "next  " ++ instruction := ⟨_, rfl⟩
    have htext : nextText p = "" ++ "next" ++ ("  " ++ instruction) := by
      rw [hnext, ← String.append_assoc]
      rfl
    exact labelColumn?_of_lines p h rfl (columnOf?_line (.palette 148) htext (by decide))

/-- The label of the schedule stands behind the name of the activity, which is not filled up. -/
theorem column_mode (p : Processor) {s : Schedule} (h : s.IsSettable) :
    labelColumn? (render false p s) 10 "mode:" = some (9 + p.activity.text.length) := by
  have htext : "state: " ++ p.activity.text ++ "mode: " ++ s.text =
      "state: " ++ p.activity.text ++ "mode:" ++ (" " ++ s.text) := by
    have hlabel : "mode: " = "mode:" ++ " " := rfl
    simp only [hlabel, String.append_assoc]
  have hlength : 2 + ("state: " ++ p.activity.text).length = 9 + p.activity.text.length := by
    have hstate : "state: ".length = 7 := rfl
    rw [String.length_append, hstate]
    omega
  have hcolumn : columnOf? "mode:" ("| " ++ ("state: " ++ p.activity.text) ++ "mode:") =
      some (2 + ("state: " ++ p.activity.text).length) := by
    cases p.activity <;> decide
  rw [← hlength]
  exact labelColumn?_of_lines p h rfl (columnOf?_line .yellow htext hcolumn)

theorem activity_eq_of_length {a a' : Activity} (h : a.text.length = a'.text.length) : a = a' := by
  revert h
  cases a <;> cases a' <;> decide

/-- The line of the activity begins with its name, and the label and text of the schedule without a gap. -/
theorem activity_line (p : Processor) {s : Schedule} (h : s.IsSettable) :
    ∃ rest, (linesOf (render false p s))[10]? = some ("| state: " ++ p.activity.text ++ "mode: " ++ s.text ++ rest) := by
  rw [linesOf_render p h]
  refine ⟨String.ofList (List.replicate (53 - ("state: " ++ p.activity.text ++ "mode: " ++ s.text).length) ' ') ++ " |", ?_⟩
  show some (line false .yellow ("state: " ++ p.activity.text ++ "mode: " ++ s.text)) = _
  have hopen : "| state: " = "| " ++ "state: " := rfl
  simp only [line, paint, fillTo, hopen, Bool.false_eq_true, if_false, String.append_assoc]
  rfl

/-- Two snapshots, of any processors and schedules, have the same labels in the same places, except that the label of the
schedule follows the name of the activity immediately: it stands in one place only if the activity is the same. -/
theorem labels_stay (p p' : Processor) {s s' : Schedule} (h : s.IsSettable) (h' : s'.IsSettable) :
    (∀ label ∈ fixedLabels, labelColumn? (render false p s) label.line label.text = some label.column ∧
      labelColumn? (render false p' s') label.line label.text = some label.column) ∧
    labelColumn? (render false p s) 10 "mode:" = some (9 + p.activity.text.length) ∧
    (labelColumn? (render false p s) 10 "mode:" = labelColumn? (render false p' s') 10 "mode:" ↔ p.activity = p'.activity) ∧
    ∃ rest, (linesOf (render false p s))[10]? = some ("| state: " ++ p.activity.text ++ "mode: " ++ s.text ++ rest) := by
  refine ⟨fun label hlabel => ⟨column_of_fixedLabels p h hlabel, column_of_fixedLabels p' h' hlabel⟩, column_mode p h, ?_,
    activity_line p h⟩
  rw [column_mode p h, column_mode p' h', Option.some.injEq, Nat.add_left_cancel_iff]
  exact ⟨activity_eq_of_length, fun hactivity => by rw [hactivity]⟩

/-- A processor that has not started, stepwise and at a third of a second a tick. -/
theorem labels_stay_of_blank :
    let p := Processor.ofMemory (.blank .preserve)
    let s := Schedule.free (.ofFrequency 3)
    labelColumn? (render false p s) 7 "Flags" = some 30 ∧ labelColumn? (render false p .stepwise) 7 "Flags" = some 30 ∧
      labelColumn? (render false p s) 10 "mode:" = some 13 := by
  intro p s
  obtain ⟨hfixed, hmode, -⟩ := labels_stay p p (.frequency 3) .stepwise
  obtain ⟨hflags, hflags'⟩ := hfixed ⟨"Flags", 7, 30⟩ (by decide)
  have hidle : 9 + p.activity.text.length = 13 := by decide
  exact ⟨hflags, hflags', hidle ▸ hmode⟩

/-- The label of the schedule moves by three columns when an idle processor starts. -/
theorem mode_label_moves :
    let p := Processor.ofMemory (.blank .preserve)
    labelColumn? (render false p .stepwise) 10 "mode:" = some 13 ∧
      labelColumn? (render false p.start .stepwise) 10 "mode:" = some 16 := by
  intro p
  have hidle : 9 + p.activity.text.length = 13 := by decide
  have hrunning : 9 + p.start.activity.text.length = 16 := by decide
  exact ⟨hidle ▸ column_mode p .stepwise, hrunning ▸ column_mode p.start .stepwise⟩

end Snapshot

end Mos6502
