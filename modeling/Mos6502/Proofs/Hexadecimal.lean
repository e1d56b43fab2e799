import Mos6502.Configuration.Basic
import Mos6502.Proofs.Text.Numeral
import Mos6502.Proofs.Text.Trim

/-!
# The form of hexadecimal literals

A literal is white space, a prefix or none, one to four digits and white space again (`IsWritten`).  Exactly these texts
are read, each as the number that its digits stand for (`parse?_eq_some_iff`), and every other text is refused with an
error that carries it.  Lengths are counted in characters; counting the bytes of the text in UTF-8 instead makes no
difference (`parseEncoded?_eq`), since a character that takes several bytes is no digit.
-/

namespace Mos6502

namespace Hexadecimal

variable {text : String} {value : UInt16} {chars digits lead before after : List Char}

/-! ### The form of a literal -/

/-- What can stand before the digits. -/
def leads : List (List Char) :=
  [[], ['#', '0', 'x'], ['0', 'x'], ['$']]

/-- A literal without white space around it, and its value. -/
def IsLiteral (chars : List Char) (value : UInt16) : Prop :=
  ∃ lead ∈ leads, ∃ digits, chars = lead ++ digits ∧ 1 ≤ digits.length ∧ digits.length ≤ 4 ∧
    (∀ c ∈ digits, IsDigit 16 c) ∧ value.toNat = number 16 digits

/-- A text that is a literal with white space around it, and its value. -/
def IsWritten (text : String) (value : UInt16) : Prop :=
  ∃ before chars after, text.toList = before ++ chars ++ after ∧ (∀ c ∈ before, isBlank c) ∧ (∀ c ∈ after, isBlank c) ∧
    IsLiteral chars value

theorem not_isBlank_of_isDigit {c : Char} (h : IsDigit 16 c) : ¬isBlank c :=
  h.of_codes (P := (¬isBlank ·)) (by decide +kernel)

theorem not_isBlank_of_isLiteral (h : IsLiteral chars value) : ∀ c ∈ chars, ¬isBlank c := by
  have hleads : ∀ lead ∈ leads, ∀ c ∈ lead, ¬isBlank c := by
    simp [leads, isBlank, inRanges, blankRanges]
  obtain ⟨lead, hlead, digits, rfl, -, -, hdigits, -⟩ := h
  exact List.forall_mem_append.2 ⟨hleads lead hlead, fun c hc => not_isBlank_of_isDigit (hdigits c hc)⟩

/-! ### Prefixes -/

/-- The characters of a text are a prefix and what is left without it. -/
theorem exists_lead (chars : List Char) : ∃ lead ∈ leads, chars = lead ++ dropPrefix chars := by
  unfold dropPrefix
  split
  · exact ⟨['#', '0', 'x'], by decide, rfl⟩
  · exact ⟨['0', 'x'], by decide, rfl⟩
  · exact ⟨['$'], by decide, rfl⟩
  · exact ⟨[], by decide, rfl⟩

theorem dropPrefix_append_of_ne_nil (hlead : lead ∈ leads) (hne : lead ≠ []) (rest : List Char) :
    dropPrefix (lead ++ rest) = rest := by
  simp only [leads, List.mem_cons, List.not_mem_nil, or_false] at hlead
  rcases hlead with rfl | rfl | rfl | rfl
  · exact absurd rfl hne
  · rfl
  · rfl
  · rfl

/-- Digits after a prefix are what is left without it: no digits look like a prefix, unless an `x` follows them. -/
theorem dropPrefix_append {rest : List Char} (hlead : lead ∈ leads) (hone : 1 ≤ digits.length)
    (hdigits : ∀ c ∈ digits, IsDigit 16 c) (hrest : rest.head? ≠ some 'x') :
    dropPrefix (lead ++ digits ++ rest) = digits ++ rest := by
  by_cases hne : lead = []
  · obtain ⟨d, ds, rfl⟩ := List.exists_cons_of_length_pos hone
    obtain ⟨hd, hds⟩ := List.forall_mem_cons.1 hdigits
    rw [hne, List.nil_append, List.cons_append]
    unfold dropPrefix
    split
    · rename_i h
      obtain ⟨rfl, -⟩ := List.cons.inj h
      exact absurd hd (by decide)
    · rename_i h
      obtain ⟨-, htail⟩ := List.cons.inj h
      cases ds with
      | nil => exact absurd (congrArg List.head? htail) hrest
      | cons d' ds =>
        cases htail
        exact absurd (hds 'x' List.mem_cons_self) (by decide)
    · rename_i h
      obtain ⟨rfl, -⟩ := List.cons.inj h
      exact absurd hd (by decide)
    · rfl
  · rw [List.append_assoc, dropPrefix_append_of_ne_nil hlead hne]

/-- Digits that begin like a prefix are no more than its zero. -/
theorem length_le_one_of_append_eq {rest rest' : List Char} (hlead : lead ∈ leads) (hne : lead ≠ [])
    (hdigits : ∀ c ∈ digits, IsDigit 16 c) (h : digits ++ rest = lead ++ rest') : digits.length ≤ 1 := by
  match digits with
  | [] => exact Nat.zero_le _
  | [_] => exact Nat.le_refl _
  | d :: d' :: ds =>
    have hd : IsDigit 16 d := hdigits d (by simp)
    have hd' : IsDigit 16 d' := hdigits d' (by simp)
    simp only [leads, List.mem_cons, List.not_mem_nil, or_false] at hlead
    rcases hlead with rfl | rfl | rfl | rfl
    · exact absurd rfl hne
    · obtain ⟨rfl, -⟩ := List.cons.inj h
      exact absurd hd (by decide)
    · obtain ⟨rfl, -⟩ := List.cons.inj (List.cons.inj h).2
      exact absurd hd' (by decide)
    · obtain ⟨rfl, -⟩ := List.cons.inj h
      exact absurd hd (by decide)

/-- Up to four digits after a prefix are a literal. -/
theorem isLiteral_append (hlead : lead ∈ leads) (hone : 1 ≤ digits.length) (hfour : digits.length ≤ 4)
    (hdigits : ∀ c ∈ digits, IsDigit 16 c) : IsLiteral (lead ++ digits) (UInt16.ofNat (number 16 digits)) := by
  refine ⟨lead, hlead, digits, rfl, hone, hfour, hdigits, UInt16.toNat_ofNat_of_lt' ?_⟩
  calc number 16 digits < 16 ^ digits.length := number_lt hdigits
    _ ≤ 16 ^ 4 := Nat.pow_le_pow_right (by decide) hfour

/-! ### Reading a literal -/

/-- Four digits are read as the number that they stand for. -/
theorem wordOfDigits?_eq (h : digits.length = 4) : wordOfDigits? digits = (numeral? 16 digits).map UInt16.ofNat := by
  obtain ⟨a, b, c, d, rfl⟩ : ∃ a b c d, digits = [a, b, c, d] := by
    match digits, h with
    | [a, b, c, d], _ => exact ⟨a, b, c, d, rfl⟩
  have happend : numeral? 16 [a, b, c, d] = _ := numeral?_append (Nat.le_refl 16) [a, b] [c, d]
  rw [happend, wordOfDigits?, bytesOfHex?, bytesOfHex?, bytesOfHex?]
  cases hhigh : numeral? 16 [a, b] with
  | none => rfl
  | some high =>
    cases hlow : numeral? 16 [c, d] with
    | none => rfl
    | some low =>
      obtain ⟨hdigits, hhigh⟩ := (numeral?_eq_some_iff (Nat.le_refl 16)).1 hhigh
      obtain ⟨hdigits', hlow⟩ := (numeral?_eq_some_iff (Nat.le_refl 16)).1 hlow
      have hhighlt := number_lt hdigits
      have hlowlt := number_lt hdigits'
      simp only [List.length_cons, List.length_nil] at hhighlt hlowlt
      refine congrArg some (UInt16.toNat.inj ?_)
      rw [toNat_word, UInt8.toNat_ofNat', UInt8.toNat_ofNat', UInt16.toNat_ofNat']
      simp only [List.length_cons, List.length_nil]
      omega

theorem parse?_eq (text : String) :
    parse? text =
      let digits := dropPrefix (trimBlanks text.toList)
      if digits.length = 0 ∨ 4 < digits.length then none else (numeral? 16 digits).map UInt16.ofNat := by
  unfold parse?
  dsimp only
  split
  · rfl
  · rename_i h
    rw [wordOfDigits?_eq, numeral?_replicate_zero (by decide) (by decide)]
    rw [List.length_append, List.length_replicate]
    omega

/-- Exactly the written literals are read. -/
theorem parse?_eq_some_iff : parse? text = some value ↔ IsWritten text value := by
  rw [parse?_eq]
  dsimp only
  constructor
  · intro h
    split at h
    · cases h
    · rename_i hlength
      obtain ⟨n, hn, rfl⟩ := Option.map_eq_some_iff.1 h
      obtain ⟨hdigits, rfl⟩ := (numeral?_eq_some_iff (by decide)).1 hn
      obtain ⟨before, after, htext, hbefore, hafter⟩ := exists_trim isBlank text.toList
      obtain ⟨lead, hlead, hchars⟩ := exists_lead (trimBlanks text.toList)
      have hliteral := isLiteral_append hlead (by omega) (by omega) hdigits
      rw [← hchars] at hliteral
      exact ⟨before, _, after, htext, hbefore, hafter, hliteral⟩
  · rintro ⟨before, chars, after, htext, hbefore, hafter, hliteral⟩
    have htrim : trimBlanks text.toList = chars := by
      rw [trimBlanks_eq, htext, trim_append hbefore hafter,
        trim_eq_self_of_forall (not_isBlank_of_isLiteral hliteral)]
    obtain ⟨lead, hlead, digits, rfl, hone, hfour, hdigits, hvalue⟩ := hliteral
    have hdrop := @dropPrefix_append digits lead [] hlead hone hdigits nofun
    rw [List.append_nil, List.append_nil] at hdrop
    rw [htrim, hdrop, if_neg (by omega), (numeral?_eq_some_iff (by decide)).2 ⟨hdigits, rfl⟩, ← hvalue]
    exact congrArg some (UInt16.ofNat_toNat)

theorem parse?_of_isLiteral (h : IsLiteral chars value) : parse? (String.ofList chars) = some value :=
  parse?_eq_some_iff.2 ⟨[], chars, [], by simp, by simp, by simp, h⟩

/-- In a text without white space there is nothing but the literal. -/
theorem isLiteral_of_parse? (h : parse? (String.ofList chars) = some value) (hchars : ∀ c ∈ chars, ¬isBlank c) :
    IsLiteral chars value := by
  obtain ⟨before, literal, after, htext, hbefore, hafter, hliteral⟩ := parse?_eq_some_iff.1 h
  rw [String.toList_ofList] at htext
  subst htext
  have htrim := trim_eq_self_of_forall hchars
  rw [trim_append hbefore hafter, trim_eq_self_of_forall (not_isBlank_of_isLiteral hliteral)] at htrim
  rwa [← htrim]

/-! ### Bytes of the text -/

/-- The bytes of some characters in UTF-8. -/
def encoded (chars : List Char) : List UInt8 :=
  chars.flatMap String.utf8EncodeChar

/-- The value of a literal, its digits counted and read as the bytes that they are encoded in. -/
def parseEncoded? (text : String) : Option UInt16 :=
  let digits := dropPrefix (trimBlanks text.toList)
  if (encoded digits).length = 0 ∨ 4 < (encoded digits).length then none
  else
    wordOfDigits? ((encoded (List.replicate (4 - digits.length) '0' ++ digits)).map fun byte => Char.ofNat byte.toNat)

private theorem utf8EncodeChar_of_lt {c : Char} (h : c.toNat < 128) :
    String.utf8EncodeChar c = [UInt8.ofNat c.toNat] := by
  unfold String.utf8EncodeChar
  exact if_pos (Nat.le_of_lt_succ h)

/-- The last byte of a character with a code of more than seven bits. -/
private theorem mem_utf8EncodeChar {c : Char} (h : 128 ≤ c.toNat) :
    UInt8.ofNat (c.toNat % 64 + 128) ∈ String.utf8EncodeChar c := by
  have hif : ¬c.val.toNat ≤ 0x7f := Nat.not_le_of_lt h
  unfold String.utf8EncodeChar
  dsimp only
  rw [if_neg hif]
  show UInt8.ofNat (c.val.toNat % 64 + 128) ∈ _
  split
  · simp
  · split <;> simp

/-- The characters that the bytes of a text stand for one by one. -/
private theorem map_encoded (h : ∀ c ∈ chars, c.toNat < 128) :
    (encoded chars).map (fun byte => Char.ofNat byte.toNat) = chars := by
  induction chars with
  | nil => rfl
  | cons c chars ih =>
    obtain ⟨hc, hchars⟩ := List.forall_mem_cons.1 h
    have hbyte : (UInt8.ofNat c.toNat).toNat = c.toNat := UInt8.toNat_ofNat_of_lt' (Nat.lt_trans hc (by decide))
    have hencoded : encoded (c :: chars) = UInt8.ofNat c.toNat :: encoded chars := by
      rw [encoded, List.flatMap_cons, utf8EncodeChar_of_lt hc]
      rfl
    rw [hencoded, List.map_cons, hbyte, Char.ofNat_toNat, ih hchars]

theorem isDigit_of_bytesOfHex? {bytes : List UInt8} (h : bytesOfHex? chars = some bytes) : ∀ c ∈ chars, IsDigit 16 c := by
  induction chars using bytesOfHex?.induct generalizing bytes with
  | case1 => simp
  | case2 c => cases h
  | case3 high low rest value rest' hrest hvalue ih =>
    have hdigits := ((numeral?_eq_some_iff (Nat.le_refl 16)).1 hvalue).1
    exact (@List.forall_mem_append _ _ [high, low] rest).2 ⟨hdigits, ih hrest⟩
  | case4 high low rest hnone ih =>
    rw [bytesOfHex?] at h
    split at h
    · exact (hnone _ _ ‹_› ‹_›).elim
    · cases h

/-- Characters one of which has a code of more than seven bits are no digits, nor are their bytes. -/
private theorem wordOfDigits?_encoded {c : Char} (hmem : c ∈ chars) (hc : 128 ≤ c.toNat) :
    wordOfDigits? ((encoded chars).map fun byte => Char.ofNat byte.toNat) = none := by
  have hbyte : Char.ofNat (c.toNat % 64 + 128) ∈ (encoded chars).map fun byte => Char.ofNat byte.toNat := by
    have hlt : (UInt8.ofNat (c.toNat % 64 + 128)).toNat = c.toNat % 64 + 128 :=
      UInt8.toNat_ofNat_of_lt' (by show _ < 256; omega)
    rw [← hlt]
    exact List.mem_map_of_mem (List.mem_flatMap.2 ⟨c, hmem, mem_utf8EncodeChar hc⟩)
  have hall : ∀ i : Fin 64, (Char.ofNat (i.val + 128)).toNat = i.val + 128 := by decide
  have hcode : (Char.ofNat (c.toNat % 64 + 128)).toNat = c.toNat % 64 + 128 := hall ⟨_, Nat.mod_lt _ (by decide)⟩
  unfold wordOfDigits?
  split
  · rename_i h
    have := toNat_lt_of_isDigit (isDigit_of_bytesOfHex? h _ hbyte)
    omega
  · rfl

/-- Counting and reading the bytes of a text comes to the same as counting and reading its characters. -/
theorem parseEncoded?_eq (text : String) : parseEncoded? text = parse? text := by
  unfold parseEncoded?
  dsimp only
  by_cases h : ∀ c ∈ dropPrefix (trimBlanks text.toList), c.toNat < 128
  · have hlength : (encoded (dropPrefix (trimBlanks text.toList))).length = (dropPrefix (trimBlanks text.toList)).length := by
      conv => rhs; rw [← map_encoded h, List.length_map]
    rw [hlength, map_encoded]
    · rfl
    · intro c hc
      obtain hc | hc := List.mem_append.1 hc
      · rw [List.eq_of_mem_replicate hc]
        decide
      · exact h c hc
  · obtain ⟨c, hc, hcode⟩ : ∃ c ∈ dropPrefix (trimBlanks text.toList), 128 ≤ c.toNat := by simpa using h
    have hnone : numeral? 16 (dropPrefix (trimBlanks text.toList)) = none := by
      rw [Option.eq_none_iff_forall_ne_some]
      intro n hn
      exact absurd (toNat_lt_of_isDigit (((numeral?_eq_some_iff (Nat.le_refl 16)).1 hn).1 c hc)) (Nat.not_lt.2 hcode)
    rw [wordOfDigits?_encoded (List.mem_append_right _ hc) hcode, ite_self, parse?_eq]
    dsimp only
    rw [hnone, Option.map_none, ite_self]

/-! ### Written numbers -/

/-- A number after a prefix, with zeros up to four digits and with letters of either case, is a literal. -/
theorem isLiteral_of_toDigits {zeros : Nat} (hlead : lead ∈ leads) (hlength : digits.length ≤ 4)
    (hdigits : digits.map Char.toLower = List.replicate zeros '0' ++ Nat.toDigits 16 value.toNat) :
    IsLiteral (lead ++ digits) value := by
  have hread := (numeral?_eq_some_iff (by decide)).1 (numeral?_of_toDigits (by decide) (by decide) hdigits)
  have hcount := congrArg List.length hdigits
  rw [List.length_map, List.length_append] at hcount
  have hpos : 0 < (Nat.toDigits 16 value.toNat).length := Nat.length_toDigits_pos
  exact ⟨lead, hlead, digits, rfl, by omega, hlength, hread.1, hread.2⟩

end Hexadecimal

open Hexadecimal in
/-- Exactly the written literals are read, each as its value, and every other text is refused with an error that carries
it; counting the bytes of the text makes no difference.  So a number that is written as a literal comes back, whatever
the prefix, the case of each letter and the number of zeros. -/
theorem readHexadecimal_written :
    (∀ text value, readHexadecimal text = .ok value ↔ IsWritten text value) ∧
    (∀ text, (∀ value, ¬IsWritten text value) → readHexadecimal text = .error (.hexadecimal text)) ∧
    (∀ text, parseEncoded? text = (readHexadecimal text).toOption) ∧
    ∀ (value : UInt16) (zeros : Nat), ∀ lead ∈ leads, ∀ digits : List Char, digits.length ≤ 4 →
      digits.map Char.toLower = List.replicate zeros '0' ++ Nat.toDigits 16 value.toNat →
      readHexadecimal (String.ofList (lead ++ digits)) = .ok value := by
  have hsome : ∀ {text : String} {value : UInt16}, parse? text = some value → readHexadecimal text = .ok value := by
    intro text value h
    rw [readHexadecimal, h]
  have hnone : ∀ {text : String}, parse? text = none → readHexadecimal text = .error (.hexadecimal text) := by
    intro text h
    rw [readHexadecimal, h]
  refine ⟨?_, ?_, ?_, ?_⟩
  · intro text value
    rw [← parse?_eq_some_iff]
    cases h : parse? text with
    | none => simp [hnone h]
    | some other => simp [hsome h]
  · intro text h
    apply hnone
    rw [Option.eq_none_iff_forall_ne_some]
    exact fun value hvalue => h value (parse?_eq_some_iff.1 hvalue)
  · intro text
    rw [parseEncoded?_eq]
    cases h : parse? text with
    | none => rw [hnone h]; rfl
    | some value => rw [hsome h]; rfl
  · intro value zeros lead hlead digits hlength hdigits
    exact hsome (parse?_of_isLiteral (isLiteral_of_toDigits hlead hlength hdigits))

/-- The letters of a literal are of either case, but not the letter of its prefix. -/
example : readHexadecimal " #0xAbc\u3000" = .ok 0x0abc ∧ readHexadecimal "0Xabc" = .error (.hexadecimal "0Xabc") := by
  decide +kernel

end Mos6502
