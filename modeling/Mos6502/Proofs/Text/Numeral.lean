import Mathlib.Data.List.Basic
import Mathlib.Data.Nat.Digits.Defs
import Mos6502.Arithmetic
import Mos6502.Text.Numeral

/-!
# Numbers and their digits

What a digit stands for is its place among the digits in ascending order, and what a row of digits stands for is the
positional number (`number`).  Reading a row of characters gives that number, and nothing if one of them is no digit
(`numeral?_eq_some_iff`).  A number that is written and read comes back, with zeros before it and with letters of either
case (`numeral?_of_toDigits`).  Bytes and words that are written alike are the same (`hexByte_injective`,
`hexWord_injective`).
-/

namespace Mos6502

/-! ### Digits -/

/-- The digits in ascending order, letters in lower case. -/
def digitChars : List Char :=
  ['0', '1', '2', '3', '4', '5', '6', '7', '8', '9', 'a', 'b', 'c', 'd', 'e', 'f']

/-- Whether a character is a digit of a base up to sixteen, a letter in either case. -/
def IsDigit (base : Nat) (c : Char) : Prop :=
  c.toLower ∈ digitChars.take base

instance (base : Nat) : DecidablePred (IsDigit base) := fun _ => inferInstanceAs (Decidable (_ ∈ _))

/-- The number that a digit stands for: its place among the digits. -/
def digitNumber (c : Char) : Nat :=
  digitChars.idxOf c.toLower

/-- The number that digits stand for, the most significant first. -/
def number (base : Nat) (digits : List Char) : Nat :=
  Nat.ofDigits base (digits.reverse.map digitNumber)

variable {base n : Nat} {c : Char} {digits : List Char}

theorem digitNumber_lt (h : IsDigit base c) : digitNumber c < base :=
  (List.mem_take_iff_idxOf_lt (List.mem_of_mem_take h)).1 h

theorem IsDigit.mono {base' : Nat} (hle : base ≤ base') (h : IsDigit base c) : IsDigit base' c :=
  List.take_subset_take_left _ hle h

theorem exists_code (hc : c.toNat < 128) : ∃ i : Fin 128, c = Char.ofNat i.val :=
  ⟨⟨c.toNat, hc⟩, c.ofNat_toNat.symm⟩

/-- Only letters of seven bits have another case. -/
theorem toLower_of_not_lt (hc : ¬c.toNat < 128) : c.toLower = c := by
  have hupper : ¬(c.val ≥ 'A'.val ∧ c.val ≤ 'Z'.val) :=
    fun h => hc (Nat.lt_of_le_of_lt (UInt32.le_iff_toNat_le.1 h.2) (by decide))
  unfold Char.toLower
  rw [dif_neg hupper]

theorem toLower_toLower (c : Char) : c.toLower.toLower = c.toLower := by
  have hall : ∀ i : Fin 128, (Char.ofNat i.val).toLower.toLower = (Char.ofNat i.val).toLower := by decide +kernel
  by_cases hc : c.toNat < 128
  · obtain ⟨i, rfl⟩ := exists_code hc
    exact hall i
  · rw [toLower_of_not_lt hc, toLower_of_not_lt hc]

theorem isDigit_toLower : IsDigit base c.toLower ↔ IsDigit base c := by
  unfold IsDigit
  rw [toLower_toLower]

/-- The code of a digit has seven bits. -/
theorem toNat_lt_of_isDigit (h : IsDigit base c) : c.toNat < 128 := by
  have hall : ∀ d ∈ digitChars, d.toNat < 128 := by simp [digitChars]
  have hmem := List.mem_of_mem_take h
  by_contra hc
  rw [toLower_of_not_lt hc] at hmem
  exact hc (hall c hmem)

/-- What holds of the digits among the characters of seven bits holds of all digits. -/
theorem IsDigit.of_codes {P : Char → Prop} (h : IsDigit base c)
    (hall : ∀ i : Fin 128, IsDigit base (Char.ofNat i.val) → P (Char.ofNat i.val)) : P c := by
  obtain ⟨i, rfl⟩ := exists_code (toNat_lt_of_isDigit h)
  exact hall i h

theorem digitValue?_eq (hbase : base ≤ 16) (c : Char) :
    digitValue? base c = if IsDigit base c then some (digitNumber c) else none := by
  by_cases hc : c.toNat < 128
  · -- a smaller base only leaves digits out
    have hall : ∀ i : Fin 128, digitValue? 16 (Char.ofNat i.val) =
        if IsDigit 16 (Char.ofNat i.val) then some (digitNumber (Char.ofNat i.val)) else none := by
      decide +kernel
    have hfilter : digitValue? base c = (digitValue? 16 c).filter (· < base) := by
      have hlt : ∀ value, value < base → value < 16 := fun _ h => Nat.lt_of_lt_of_le h hbase
      unfold digitValue?
      rw [Option.filter_filter]
      refine congrArg (Option.filter · _) (funext fun value => ?_)
      simpa using fun h => hlt value h
    have hdigit : IsDigit base c ↔ IsDigit 16 c ∧ digitNumber c < base :=
      ⟨fun h => ⟨h.mono hbase, digitNumber_lt h⟩,
        fun h => (List.mem_take_iff_idxOf_lt (List.mem_of_mem_take h.1)).2 h.2⟩
    obtain ⟨i, hi⟩ := exists_code hc
    rw [hfilter, hi, hall i, ← hi]
    by_cases h16 : IsDigit 16 c
    · rw [if_pos h16, Option.filter_some]
      simp [hdigit, h16]
    · rw [if_neg h16, if_neg fun h => h16 (hdigit.1 h).1]
      rfl
  · have hbeyond : ∀ d : Char, d.toNat < 128 → ¬c ≤ d := by
      intro d hd hle
      exact hc (Nat.lt_of_le_of_lt (UInt32.le_iff_toNat_le.1 hle) hd)
    rw [if_neg fun h => hc (toNat_lt_of_isDigit h)]
    unfold digitValue?
    rw [if_neg fun h => hbeyond '9' (by decide) h.2, if_neg fun h => hbeyond 'f' (by decide) h.2,
      if_neg fun h => hbeyond 'F' (by decide) h.2]
    rfl

theorem digitValue?_isSome (hbase : base ≤ 16) (c : Char) : (digitValue? base c).isSome = decide (IsDigit base c) := by
  rw [digitValue?_eq hbase]
  by_cases h : IsDigit base c <;> simp [h]

/-! ### Rows of digits -/

@[simp] theorem number_nil (base : Nat) : number base [] = 0 := rfl

theorem number_cons (base : Nat) (c : Char) (digits : List Char) :
    number base (c :: digits) = digitNumber c * base ^ digits.length + number base digits := by
  unfold number
  rw [List.reverse_cons, List.map_append, List.map_singleton, Nat.ofDigits_append, Nat.ofDigits_singleton,
    List.length_map, List.length_reverse, Nat.mul_comm, Nat.add_comm]

theorem number_append (base : Nat) (digits digits' : List Char) :
    number base (digits ++ digits') = number base digits * base ^ digits'.length + number base digits' := by
  unfold number
  rw [List.reverse_append, List.map_append, Nat.ofDigits_append, List.length_map, List.length_reverse, Nat.mul_comm,
    Nat.add_comm]

theorem number_lt (h : ∀ c ∈ digits, IsDigit base c) : number base digits < base ^ digits.length := by
  induction digits with
  | nil => exact Nat.one_pos
  | cons c digits ih =>
    obtain ⟨hc, hdigits⟩ := List.forall_mem_cons.1 h
    have hle : (digitNumber c + 1) * base ^ digits.length ≤ base * base ^ digits.length :=
      Nat.mul_le_mul_right _ (digitNumber_lt hc)
    rw [number_cons, List.length_cons, Nat.pow_succ']
    have := ih hdigits
    rw [Nat.add_mul, Nat.one_mul] at hle
    omega

private theorem foldlM_digits_eq_some_iff (hbase : base ≤ 16) (total : Nat) :
    digits.foldlM (fun total c => (digitValue? base c).map (base * total + ·)) total = some n ↔
      (∀ c ∈ digits, IsDigit base c) ∧ n = total * base ^ digits.length + number base digits := by
  induction digits generalizing total with
  | nil => simp [eq_comm]
  | cons c digits ih =>
    rw [List.foldlM_cons, digitValue?_eq hbase]
    by_cases hc : IsDigit base c
    · rw [if_pos hc]
      show digits.foldlM _ (base * total + digitNumber c) = some n ↔ _
      rw [ih, List.forall_mem_cons, number_cons, List.length_cons, Nat.pow_succ', Nat.add_mul, Nat.mul_comm base total,
        Nat.mul_assoc, Nat.add_assoc]
      simp [hc]
    · rw [if_neg hc]
      simp [hc]

/-- Digits are read as the number that they stand for, and only digits are read. -/
theorem numeral?_eq_some_iff (hbase : base ≤ 16) :
    numeral? base digits = some n ↔ (∀ c ∈ digits, IsDigit base c) ∧ n = number base digits := by
  unfold numeral?
  rw [foldlM_digits_eq_some_iff hbase, Nat.zero_mul, Nat.zero_add]

theorem numeral?_append (hbase : base ≤ 16) (digits digits' : List Char) :
    numeral? base (digits ++ digits') =
      (numeral? base digits).bind fun m => (numeral? base digits').map fun n => m * base ^ digits'.length + n := by
  ext n
  simp only [numeral?_eq_some_iff hbase, Option.bind_eq_some_iff, Option.map_eq_some_iff, List.forall_mem_append,
    number_append]
  constructor
  · rintro ⟨⟨h, h'⟩, rfl⟩
    exact ⟨_, ⟨h, rfl⟩, _, ⟨h', rfl⟩, rfl⟩
  · rintro ⟨_, ⟨h, rfl⟩, _, ⟨h', rfl⟩, rfl⟩
    exact ⟨⟨h, h'⟩, rfl⟩

/-! ### Writing and reading -/

theorem digitNumber_digitChar {d : Nat} (h : d < 16) : digitNumber d.digitChar = d := by
  have hall : ∀ i : Fin 16, digitNumber (Nat.digitChar i.val) = i.val := by decide
  exact hall ⟨d, h⟩

theorem isDigit_digitChar {d : Nat} (hbase : base ≤ 16) (h : d < base) : IsDigit base d.digitChar := by
  have hall : ∀ (b : Fin 17) (i : Fin 16), i.val < b.val → IsDigit b.val (Nat.digitChar i.val) := by decide +kernel
  exact hall ⟨base, Nat.lt_succ_of_le hbase⟩ ⟨d, Nat.lt_of_lt_of_le h hbase⟩ h

theorem exists_digitChar (hone : 1 < base) (n : Nat) :
    ∀ c ∈ Nat.toDigits base n, ∃ d < base, c = d.digitChar := by
  induction n using Nat.base_induction base hone with
  | single m hm =>
    rw [Nat.toDigits_of_lt_base hm]
    exact fun c hc => ⟨m, hm, List.mem_singleton.1 hc⟩
  | digit m k hk hm ih =>
    rw [← Nat.toDigits_append_toDigits hone hm hk, Nat.toDigits_of_lt_base hk]
    intro c hc
    obtain hc | hc := List.mem_append.1 hc
    · exact ih c hc
    · exact ⟨k, hk, List.mem_singleton.1 hc⟩

theorem isDigit_toDigits (hone : 1 < base) (hbase : base ≤ 16) (n : Nat) :
    ∀ c ∈ Nat.toDigits base n, IsDigit base c := by
  intro c hc
  obtain ⟨d, hd, rfl⟩ := exists_digitChar hone n c hc
  exact isDigit_digitChar hbase hd

theorem isDigit_toString (n : Nat) : ∀ c ∈ (toString n).toList, IsDigit 10 c := by
  rw [Nat.toString_eq_repr, Nat.repr_eq_ofList_toDigits, String.toList_ofList]
  exact isDigit_toDigits (by decide) (by decide) n

theorem number_toDigits (hone : 1 < base) (hbase : base ≤ 16) (n : Nat) : number base (Nat.toDigits base n) = n := by
  induction n using Nat.base_induction base hone with
  | single m hm =>
    rw [Nat.toDigits_of_lt_base hm, number_cons, digitNumber_digitChar (by omega)]
    simp
  | digit m k hk hm ih =>
    rw [← Nat.toDigits_append_toDigits hone hm hk, number_append, ih, Nat.toDigits_of_lt_base hk, number_cons,
      digitNumber_digitChar (by omega)]
    simp [Nat.mul_comm]

theorem number_replicate_zero (base count : Nat) (digits : List Char) :
    number base (List.replicate count '0' ++ digits) = number base digits := by
  induction count with
  | zero => rfl
  | succ count ih =>
    have hzero : digitNumber '0' = 0 := by decide
    rw [List.replicate_succ, List.cons_append, number_cons, hzero, Nat.zero_mul, Nat.zero_add, ih]

theorem numeral?_replicate_zero (hone : 0 < base) (hbase : base ≤ 16) (count : Nat) (digits : List Char) :
    numeral? base (List.replicate count '0' ++ digits) = numeral? base digits := by
  ext n
  have hzero : ∀ c ∈ List.replicate count '0', IsDigit base c := by
    intro c hc
    rw [List.eq_of_mem_replicate hc]
    exact isDigit_digitChar hbase hone
  rw [numeral?_eq_some_iff hbase, numeral?_eq_some_iff hbase, List.forall_mem_append, and_iff_right hzero,
    number_replicate_zero]

theorem number_map_toLower (base : Nat) (digits : List Char) :
    number base (digits.map Char.toLower) = number base digits := by
  unfold number
  rw [← List.map_reverse, List.map_map]
  refine congrArg (Nat.ofDigits base) (List.map_congr_left fun c _ => ?_)
  show digitChars.idxOf c.toLower.toLower = digitChars.idxOf c.toLower
  rw [toLower_toLower]

theorem numeral?_toString (n : Nat) : numeral? 10 (toString n).toList = some n := by
  rw [numeral?_eq_some_iff (by decide)]
  refine ⟨isDigit_toString n, ?_⟩
  rw [Nat.toString_eq_repr, Nat.repr_eq_ofList_toDigits, String.toList_ofList, number_toDigits (by decide) (by decide)]

/-- A number written with zeros before it and with letters of either case is read as itself. -/
theorem numeral?_of_toDigits (hone : 1 < base) (hbase : base ≤ 16) {zeros : Nat}
    (h : digits.map Char.toLower = List.replicate zeros '0' ++ Nat.toDigits base n) : numeral? base digits = some n := by
  rw [numeral?_eq_some_iff hbase]
  constructor
  · intro c hc
    have hmem : c.toLower ∈ List.replicate zeros '0' ++ Nat.toDigits base n := h ▸ List.mem_map_of_mem hc
    rw [← isDigit_toLower]
    obtain hzero | hdigit := List.mem_append.1 hmem
    · rw [List.eq_of_mem_replicate hzero]
      exact isDigit_digitChar hbase (Nat.lt_trans Nat.one_pos hone)
    · exact isDigit_toDigits hone hbase n _ hdigit
  · rw [← number_map_toLower, h, number_replicate_zero, number_toDigits hone hbase]

/-! ### Bytes and words -/

theorem append_inj_of_length {a a' b b' : String} (hlength : a.length = a'.length) (h : a ++ b = a' ++ b') :
    a = a' ∧ b = b' := by
  have hchars := congrArg String.toList h
  rw [String.toList_append, String.toList_append] at hchars
  obtain ⟨ha, hb⟩ := List.append_inj hchars (by rw [String.length_toList, String.length_toList, hlength])
  exact ⟨String.toList_injective ha, String.toList_injective hb⟩

theorem isDigit_hexDigit (case : LetterCase) {d : Nat} (hd : d < 16) : IsDigit 16 (hexDigit case d) := by
  have hall : ∀ i : Fin 16, IsDigit 16 (hexDigit case i.val) := by
    cases case <;> decide
  exact hall ⟨d, hd⟩

theorem isDigit_hexByte (case : LetterCase) (byte : UInt8) : ∀ c ∈ (hexByte case byte).toList, IsDigit 16 c := by
  have hlt := byte.toNat_lt
  rw [hexByte, String.toList_ofList]
  simp only [List.mem_cons, List.not_mem_nil, or_false, forall_eq_or_imp, forall_eq]
  exact ⟨isDigit_hexDigit case (by omega), isDigit_hexDigit case (by omega)⟩

theorem digitNumber_hexDigit (case : LetterCase) {d : Nat} (hd : d < 16) : digitNumber (hexDigit case d) = d := by
  have hall : ∀ i : Fin 16, digitNumber (hexDigit case i.val) = i.val := by
    cases case <;> decide
  exact hall ⟨d, hd⟩

/-- A byte that is written is read as itself. -/
theorem numeral?_hexByte (case : LetterCase) (byte : UInt8) :
    numeral? 16 (hexByte case byte).toList = some byte.toNat := by
  have hlt := byte.toNat_lt
  rw [numeral?_eq_some_iff (Nat.le_refl 16)]
  refine ⟨isDigit_hexByte case byte, ?_⟩
  rw [hexByte, String.toList_ofList, number_cons, number_cons, number_nil, digitNumber_hexDigit case (by omega),
    digitNumber_hexDigit case (by omega)]
  simp only [List.length_cons, List.length_nil]
  omega

theorem hexDigit_injective {case : LetterCase} {d d' : Nat} (hd : d < 16) (hd' : d' < 16)
    (h : hexDigit case d = hexDigit case d') : d = d' := by
  have hall : ∀ i j : Fin 16, hexDigit case i.val = hexDigit case j.val → i = j := by
    cases case <;> decide
  exact Fin.val_eq_of_eq (hall ⟨d, hd⟩ ⟨d', hd'⟩ h)

theorem hexByte_injective {case : LetterCase} {byte byte' : UInt8} (h : hexByte case byte = hexByte case byte') :
    byte = byte' := by
  have hlt := byte.toNat_lt
  have hlt' := byte'.toNat_lt
  obtain ⟨hhigh, htail⟩ := List.cons.inj (String.ofList_injective h)
  have hquotient := hexDigit_injective (by omega) (by omega) hhigh
  have hremainder := hexDigit_injective (by omega) (by omega) (List.cons.inj htail).1
  apply UInt8.toNat.inj
  omega

theorem hexWord_eq_append (case : LetterCase) (w : UInt16) :
    hexWord case w = hexByte case (highByte w) ++ hexByte case (lowByte w) := rfl

theorem isDigit_hexWord (case : LetterCase) (w : UInt16) : ∀ c ∈ (hexWord case w).toList, IsDigit 16 c := by
  rw [hexWord_eq_append, String.toList_append]
  exact List.forall_mem_append.2 ⟨isDigit_hexByte case _, isDigit_hexByte case _⟩

theorem hexWord_injective {case : LetterCase} {w w' : UInt16} (h : hexWord case w = hexWord case w') : w = w' := by
  rw [hexWord_eq_append, hexWord_eq_append] at h
  obtain ⟨hhigh, hlow⟩ := append_inj_of_length (by rw [length_hexByte, length_hexByte]) h
  rw [← word_lowByte_highByte w, ← word_lowByte_highByte w', hexByte_injective hlow, hexByte_injective hhigh]

/-- A word can be read where it is written after a given text. -/
theorem eq_of_append_hexWord {case : LetterCase} {w w' : UInt16} {before after after' : String}
    (h : before ++ hexWord case w ++ after = before ++ hexWord case w' ++ after') : w = w' := by
  rw [String.append_assoc, String.append_assoc] at h
  obtain ⟨-, h⟩ := append_inj_of_length rfl h
  exact hexWord_injective (append_inj_of_length (by rw [length_hexWord, length_hexWord]) h).1

/-! ### Digits up to a width -/

/-- The digits of a number with zeros before them that bring them to a width. -/
def filledDigits (base width n : Nat) : List Char :=
  List.replicate (width - (Nat.toDigits base n).length) '0' ++ Nat.toDigits base n

theorem filledDigits_one (h : n < base) : filledDigits base 1 n = [n.digitChar] := by
  unfold filledDigits
  rw [Nat.toDigits_of_lt_base h]
  rfl

theorem filledDigits_succ (hone : 1 < base) {width : Nat} (hwidth : 0 < width) (n : Nat) :
    filledDigits base (width + 1) n = filledDigits base width (n / base) ++ [(n % base).digitChar] := by
  have hzero : Nat.toDigits base 0 = ['0'] := Nat.toDigits_of_lt_base (by omega)
  have hlast : n % base < base := Nat.mod_lt n (by omega)
  unfold filledDigits
  by_cases hn : n < base
  · obtain ⟨k, rfl⟩ : ∃ k, width = k + 1 := ⟨width - 1, by omega⟩
    rw [Nat.toDigits_of_lt_base hn, Nat.div_eq_of_lt hn, Nat.mod_eq_of_lt hn, hzero]
    simp [List.replicate_succ']
  · have hquotient : 0 < n / base := Nat.div_pos (by omega) (by omega)
    have hdigits : Nat.toDigits base n = Nat.toDigits base (n / base) ++ [(n % base).digitChar] := by
      rw [← Nat.toDigits_of_lt_base hlast, Nat.toDigits_append_toDigits hone hquotient hlast, Nat.div_add_mod]
    rw [hdigits, List.length_append, List.length_singleton, Nat.add_sub_add_right, List.append_assoc]

theorem length_filledDigits_le (hone : 1 < base) {width k : Nat} (hk : 0 < k) (hwidth : width ≤ k) (h : n < base ^ k) :
    (filledDigits base width n).length ≤ k := by
  have hlength := (Nat.length_toDigits_le_iff hone hk).2 h
  unfold filledDigits
  rw [List.length_append, List.length_replicate]
  omega

theorem hexAddress_eq_filledDigits (address : Nat) :
    hexAddress address = String.ofList ((filledDigits 16 4 address).map Char.toUpper) := by
  unfold hexAddress filledDigits
  dsimp only
  rw [List.map_append, List.map_replicate, List.length_map]
  rfl

/-- An address is read as itself, however many digits it has. -/
theorem numeral?_hexAddress (address : Nat) : numeral? 16 (hexAddress address).toList = some address := by
  have hcase : ((filledDigits 16 4 address).map Char.toUpper).map Char.toLower = filledDigits 16 4 address := by
    have hdigit : ∀ i : Fin 16, (Nat.digitChar i.val).toUpper.toLower = Nat.digitChar i.val := by decide
    rw [List.map_map]
    refine (List.map_congr_left fun c hc => ?_).trans (List.map_id _)
    obtain hzero | hc := List.mem_append.1 hc
    · rw [List.eq_of_mem_replicate hzero]
      rfl
    · obtain ⟨d, hd, rfl⟩ := exists_digitChar (by decide) address c hc
      exact hdigit ⟨d, hd⟩
  rw [hexAddress_eq_filledDigits, String.toList_ofList]
  exact numeral?_of_toDigits (by decide) (by decide) hcase

/-- An address is written as a word if it is one. -/
theorem hexAddress_eq_hexWord {address : Nat} (h : address < 65536) :
    hexAddress address = hexWord .upper (UInt16.ofNat address) := by
  have hdigits : filledDigits 16 4 address =
      [(address / 16 / 16 / 16).digitChar, (address / 16 / 16 % 16).digitChar, (address / 16 % 16).digitChar,
        (address % 16).digitChar] := by
    rw [filledDigits_succ (by decide) (by decide), filledDigits_succ (by decide) (by decide),
      filledDigits_succ (by decide) (by decide), filledDigits_one (by omega)]
    rfl
  have hword : (UInt16.ofNat address).toNat = address := UInt16.toNat_ofNat_of_lt' h
  have hhigh : (UInt8.ofNat (address / 256)).toNat = address / 256 := UInt8.toNat_ofNat_of_lt' (by show _ < 256; omega)
  have hlow : (UInt8.ofNat (address % 256)).toNat = address % 256 := UInt8.toNat_ofNat_of_lt' (by show _ < 256; omega)
  rw [hexAddress_eq_filledDigits, hdigits, hexWord, hword, hexByte, hexByte, hhigh, hlow, ← String.ofList_append]
  have hquotient : address / 256 / 16 = address / 16 / 16 / 16 := by omega
  have hsecond : address / 256 % 16 = address / 16 / 16 % 16 := by omega
  have hthird : address % 256 / 16 = address / 16 % 16 := by omega
  have hfourth : address % 256 % 16 = address % 16 := by omega
  rw [hquotient, hsecond, hthird, hfourth]
  rfl

end Mos6502
