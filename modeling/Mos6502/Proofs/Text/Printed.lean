import Mos6502.Proofs.Text.Column
import Mos6502.Text.Duration

/-!
# Printed texts

A printed text has no control characters, so it stays on one line: printed texts that are joined by line breaks are the
lines of what they are joined to (`linesOf_intercalate`).  Numerals, durations and filled columns are printed, and how wide
a duration below a thousand seconds can be is bounded (`length_durationText_le`).
-/

namespace Mos6502

/-- Whether a character controls the terminal instead of being shown. -/
def isControl (c : Char) : Bool :=
  c.toNat < 32

/-- A text without control characters. -/
def IsPrinted (text : String) : Prop :=
  ∀ c ∈ text.toList, ¬isControl c

instance : DecidablePred IsPrinted := fun text =>
  decidable_of_iff (text.toList.all fun c => !isControl c) (by simp [IsPrinted])

/-- The lines of a text. -/
def linesOf (text : String) : List String :=
  (text.toList.splitOn '\n').map String.ofList

variable {text : String} {lines : List String} {base n unit : Nat} {c : Char}

theorem isPrinted_ofList {chars : List Char} : IsPrinted (String.ofList chars) ↔ ∀ c ∈ chars, ¬isControl c := by
  rw [IsPrinted, String.toList_ofList]

@[simp] theorem isPrinted_append {a b : String} : IsPrinted (a ++ b) ↔ IsPrinted a ∧ IsPrinted b := by
  unfold IsPrinted
  rw [String.toList_append, List.forall_mem_append]

theorem IsPrinted.not_mem (h : IsPrinted text) (hc : isControl c) : c ∉ text.toList :=
  fun hmem => h c hmem hc

theorem linesOf_intercalate (hne : lines ≠ []) (h : ∀ line ∈ lines, IsPrinted line) :
    linesOf ("\n".intercalate lines) = lines := by
  -- a line break is a control character, so none is inside a line
  have hbreak : ∀ chars ∈ lines.map String.toList, '\n' ∉ chars := by
    intro chars hchars
    obtain ⟨line, hline, rfl⟩ := List.mem_map.1 hchars
    exact (h line hline).not_mem rfl
  have hsplit := List.splitOn_intercalate '\n' hbreak (by simpa using hne)
  unfold linesOf
  rw [String.toList_intercalate]
  show (List.splitOn '\n' (['\n'].intercalate (lines.map String.toList))).map String.ofList = lines
  rw [hsplit, List.map_map]
  exact List.map_id'' (fun line => String.ofList_toList) lines

/-! ### Columns and numerals -/

theorem isPrinted_replicate (count : Nat) (hc : ¬isControl c) : IsPrinted (String.ofList (List.replicate count c)) := by
  rw [isPrinted_ofList]
  intro c' hc'
  rwa [List.eq_of_mem_replicate hc']

@[simp] theorem isPrinted_fillTo (width : Nat) : IsPrinted (fillTo width text) ↔ IsPrinted text := by
  rw [fillTo, isPrinted_append, and_iff_left (isPrinted_replicate _ (by decide))]

theorem not_isControl_of_isDigit (h : IsDigit 16 c) : ¬isControl c :=
  h.of_codes (P := (¬isControl ·)) (by decide +kernel)

theorem isPrinted_of_isDigit (hbase : base ≤ 16) (h : ∀ c ∈ text.toList, IsDigit base c) : IsPrinted text :=
  fun c hc => not_isControl_of_isDigit ((h c hc).mono hbase)

@[simp] theorem isPrinted_hexByte (case : LetterCase) (byte : UInt8) : IsPrinted (hexByte case byte) :=
  isPrinted_of_isDigit (Nat.le_refl 16) (isDigit_hexByte case byte)

@[simp] theorem isPrinted_hexWord (case : LetterCase) (w : UInt16) : IsPrinted (hexWord case w) :=
  isPrinted_of_isDigit (Nat.le_refl 16) (isDigit_hexWord case w)

@[simp] theorem isPrinted_binaryByte (byte : UInt8) : IsPrinted (binaryByte byte) := by
  rw [binaryByte, isPrinted_ofList, List.forall_mem_map]
  intro i _
  split <;> decide

@[simp] theorem isPrinted_spacedHex (bytes : List UInt8) : IsPrinted (spacedHex bytes) := by
  induction bytes with
  | nil => decide
  | cons byte bytes ih =>
    cases bytes with
    | nil => exact isPrinted_hexByte .lower byte
    | cons next bytes =>
      rw [spacedHex_cons_cons, isPrinted_append, isPrinted_append]
      exact ⟨isPrinted_hexByte .lower byte, by decide, ih⟩

theorem isPrinted_toString (n : Nat) : IsPrinted (toString n) :=
  isPrinted_of_isDigit (by decide) (isDigit_toString n)

/-! ### Durations -/

/-- The digits of a fraction are some of those of a number of this width. -/
theorem fractionDigits_sublist (unit fraction : Nat) :
    (fractionDigits unit fraction).Sublist (filledDigits 10 ((Nat.toDigits 10 unit).length - 1) fraction) := by
  have hdrop := (List.dropWhile_sublist (· == '0')
    (l := (filledDigits 10 ((Nat.toDigits 10 unit).length - 1) fraction).reverse)).reverse
  rwa [List.reverse_reverse] at hdrop

theorem isPrinted_fractionDigits (unit fraction : Nat) : IsPrinted (String.ofList (fractionDigits unit fraction)) := by
  rw [isPrinted_ofList]
  intro c hc
  have hdigit : c ∈ filledDigits 10 ((Nat.toDigits 10 unit).length - 1) fraction :=
    (fractionDigits_sublist unit fraction).subset hc
  obtain hzero | hmem := List.mem_append.1 hdigit
  · rw [List.eq_of_mem_replicate hzero]
    decide
  · exact not_isControl_of_isDigit ((isDigit_toDigits (by decide) (by decide) fraction c hmem).mono (by decide))

theorem isPrinted_unitText (nanoseconds unit : Nat) {symbol : String} (h : IsPrinted symbol) :
    IsPrinted (unitText nanoseconds unit symbol) := by
  unfold unitText
  dsimp only
  rw [isPrinted_append, isPrinted_append]
  refine ⟨⟨isPrinted_toString _, ?_⟩, h⟩
  split
  · decide
  · rw [isPrinted_append]
    exact ⟨by decide, isPrinted_fractionDigits _ _⟩

theorem isPrinted_durationText (nanoseconds : Nat) : IsPrinted (durationText nanoseconds) := by
  unfold durationText
  split
  · exact isPrinted_unitText _ _ (by decide)
  split
  · exact isPrinted_unitText _ _ (by decide)
  split
  · exact isPrinted_unitText _ _ (by decide)
  · exact isPrinted_unitText _ _ (by decide)

/-- Three digits before the point and nine after it at most. -/
theorem length_unitText_le {symbol : String} (hsymbol : symbol.length ≤ 2) (hunit : unit ≤ 10 ^ 9) (hpos : 0 < unit)
    (h : n < 1000 * unit) : (unitText n unit symbol).length ≤ 15 := by
  have hwhole : (toString (n / unit)).length ≤ 3 := by
    rw [Nat.toString_eq_repr, Nat.length_repr_le_iff (by decide)]
    exact Nat.div_lt_of_lt_mul (by rwa [Nat.mul_comm])
  have hwidth : (Nat.toDigits 10 unit).length - 1 ≤ 9 := by
    have hdigits := (Nat.length_toDigits_le_iff (b := 10) (n := unit) (k := 10) (by decide) (by decide)).2 (by omega)
    omega
  have hfraction : (fractionDigits unit (n % unit)).length ≤ 9 := by
    have hlt : n % unit < 10 ^ 9 := Nat.lt_of_lt_of_le (Nat.mod_lt n hpos) hunit
    exact Nat.le_trans (fractionDigits_sublist unit _).length_le
      (length_filledDigits_le (by decide) (by decide) hwidth hlt)
  have hpoint : (if (fractionDigits unit (n % unit)).isEmpty then ""
      else "." ++ String.ofList (fractionDigits unit (n % unit))).length ≤ 10 := by
    split
    · exact Nat.zero_le _
    · have hdot : ".".length = 1 := rfl
      rw [String.length_append, hdot, String.length_ofList]
      omega
  unfold unitText
  dsimp only
  rw [String.length_append, String.length_append]
  omega

theorem length_durationText_le (h : n < 1000 * 1000000000) : (durationText n).length ≤ 15 := by
  unfold durationText
  split
  · exact length_unitText_le (by decide) (by decide) (by decide) h
  split
  · exact length_unitText_le (by decide) (by decide) (by decide) (by omega)
  split
  · exact length_unitText_le (by decide) (by decide) (by decide) (by omega)
  · exact length_unitText_le (by decide) (by decide) (by decide) (by omega)

end Mos6502
