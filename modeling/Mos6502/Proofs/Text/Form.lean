import Mos6502.Proofs.Text.Numeral
import Mos6502.Text.Column

/-!
# Texts of a form

A form is a text in which dots stand for hexadecimal digits, as `($..),Y` is the form of `($1f),Y`.  A text fits a form if
it has the same characters but for the dots, and at the dots the digits of a number, whose letters are all of one case
(`Fits`).  What is put together from fixed characters, bytes and words fits the form that is put together likewise
(`Fits.append_text`, `Fits.append_hexByte`, `Fits.append_hexWord`).
-/

namespace Mos6502

/-- The characters that stand where a form has dots, if all others are those of the form. -/
def atDots? : List Char → List Char → Option (List Char)
  | [], [] => some []
  | f :: form, c :: chars =>
    if f = '.' then (atDots? form chars).map (c :: ·)
    else if f = c then atDots? form chars
    else none
  | _, _ => none

/-- A character with its letter in the case. -/
def LetterCase.fold : LetterCase → Char → Char
  | .lower => Char.toLower
  | .upper => Char.toUpper

/-- A text of the form that tells a number, with letters of the case. -/
def Fits (case : LetterCase) (form : String) (n : Nat) (text : String) : Prop :=
  ∃ digits, atDots? form.toList text.toList = some digits ∧
    (∀ c ∈ digits, IsDigit 16 c ∧ case.fold c = c) ∧ number 16 digits = n

variable {case : LetterCase} {form text after : String} {n : Nat} {chars chars' form' form'' digits : List Char}

/-! ### Dots -/

theorem length_eq_of_atDots? (h : atDots? form' chars = some digits) : form'.length = chars.length := by
  fun_induction atDots? form' chars generalizing digits with
  | case1 => rfl
  | case2 form' c chars ih =>
    obtain ⟨digits', hrest, -⟩ := Option.map_eq_some_iff.1 h
    rw [List.length_cons, List.length_cons, ih hrest]
  | case3 form' c chars hdot ih => rw [List.length_cons, List.length_cons, ih h]
  | case4 => cases h
  | case5 => cases h

theorem atDots?_append (h : atDots? form' chars = some digits) :
    atDots? (form' ++ form'') (chars ++ chars') = (atDots? form'' chars').map (digits ++ ·) := by
  fun_induction atDots? form' chars generalizing digits with
  | case1 =>
    obtain rfl := Option.some.inj h
    simp
  | case2 form' c chars ih =>
    obtain ⟨digits', hrest, rfl⟩ := Option.map_eq_some_iff.1 h
    rw [List.cons_append, List.cons_append, atDots?, if_pos rfl, ih hrest, Option.map_map]
    rfl
  | case3 form' c chars hdot ih =>
    rw [List.cons_append, List.cons_append, atDots?, if_neg hdot, if_pos rfl, ih h]
  | case4 => cases h
  | case5 => cases h

/-- Without dots only the form itself is of the form. -/
theorem atDots?_self (h : '.' ∉ chars) : atDots? chars chars = some [] := by
  induction chars with
  | nil => rfl
  | cons c chars ih =>
    obtain ⟨hc, hchars⟩ := List.ne_and_not_mem_of_not_mem_cons h
    rw [atDots?, if_neg (Ne.symm hc), if_pos rfl, ih hchars]

/-! ### Texts -/

theorem fits_text (case : LetterCase) (h : '.' ∉ text.toList) : Fits case text 0 text :=
  ⟨[], atDots?_self h, List.forall_mem_nil _, rfl⟩

theorem fold_hexDigit (case : LetterCase) {d : Nat} (hd : d < 16) :
    case.fold (hexDigit case d) = hexDigit case d := by
  have hall : ∀ i : Fin 16, case.fold (hexDigit case i.val) = hexDigit case i.val := by
    cases case <;> decide
  exact hall ⟨d, hd⟩

namespace Fits

theorem append_text (h : Fits case form n text) (hafter : '.' ∉ after.toList) :
    Fits case (form ++ after) n (text ++ after) := by
  obtain ⟨digits, hdots, hdigits, hn⟩ := h
  refine ⟨digits, ?_, hdigits, hn⟩
  rw [String.toList_append, String.toList_append, atDots?_append hdots, atDots?_self hafter, Option.map_some,
    List.append_nil]

theorem append_hexByte (h : Fits case form n text) (byte : UInt8) :
    Fits case (form ++ "..") (256 * n + byte.toNat) (text ++ hexByte case byte) := by
  obtain ⟨digits, hdots, hdigits, rfl⟩ := h
  have hlt := byte.toNat_lt
  have hhigh : byte.toNat / 16 < 16 := by omega
  have hlow : byte.toNat % 16 < 16 := by omega
  refine ⟨digits ++ [hexDigit case (byte.toNat / 16), hexDigit case (byte.toNat % 16)], ?_, ?_, ?_⟩
  · rw [String.toList_append, String.toList_append, hexByte, atDots?_append hdots, String.toList_ofList,
      String.toList_ofList]
    rfl
  · refine List.forall_mem_append.2 ⟨hdigits, ?_⟩
    simp only [List.mem_cons, List.not_mem_nil, or_false, forall_eq_or_imp, forall_eq]
    exact ⟨⟨isDigit_hexDigit case hhigh, fold_hexDigit case hhigh⟩, isDigit_hexDigit case hlow,
      fold_hexDigit case hlow⟩
  · rw [number_append, number_cons, number_cons, number_nil, digitNumber_hexDigit case hhigh,
      digitNumber_hexDigit case hlow]
    simp only [List.length_cons, List.length_nil]
    omega

theorem append_hexWord (h : Fits case form n text) (w : UInt16) :
    Fits case (form ++ "....") (65536 * n + w.toNat) (text ++ hexWord case w) := by
  have hw : w.toNat = (lowByte w).toNat + 256 * (highByte w).toNat := by rw [← toNat_word, word_lowByte_highByte]
  have hn : 65536 * n + w.toNat = 256 * (256 * n + (highByte w).toNat) + (lowByte w).toNat := by omega
  have hbytes := (h.append_hexByte (highByte w)).append_hexByte (lowByte w)
  rw [String.append_assoc, String.append_assoc, ← hexWord_eq_append] at hbytes
  rw [hn]
  exact hbytes

/-- Filling changes a form as it changes its texts. -/
theorem fill (h : Fits case form n text) (width : Nat) : Fits case (fillTo width form) n (fillTo width text) := by
  have hlength : form.length = text.length := by
    obtain ⟨digits, hdots, -⟩ := h
    rw [← String.length_toList, ← String.length_toList, length_eq_of_atDots? hdots]
  have hblank : '.' ∉ (String.ofList (List.replicate (width - text.length) ' ')).toList := by
    rw [String.toList_ofList]
    exact fun hmem => absurd (List.eq_of_mem_replicate hmem) (by decide)
  unfold fillTo
  rw [hlength]
  exact h.append_text hblank

end Fits

/-- A byte behind a fixed text. -/
theorem fits_hexByte (case : LetterCase) (h : '.' ∉ text.toList) (byte : UInt8) :
    Fits case (text ++ "..") byte.toNat (text ++ hexByte case byte) := by
  have hbyte := (fits_text case h).append_hexByte byte
  rw [Nat.mul_zero, Nat.zero_add] at hbyte
  exact hbyte

/-- A word behind a fixed text. -/
theorem fits_hexWord (case : LetterCase) (h : '.' ∉ text.toList) (w : UInt16) :
    Fits case (text ++ "....") w.toNat (text ++ hexWord case w) := by
  have hword := (fits_text case h).append_hexWord w
  rw [Nat.mul_zero, Nat.zero_add] at hword
  exact hword

end Mos6502
