import Mos6502.Monitor.Command
import Mos6502.Proofs.Hexadecimal

/-!
# The tokens of the monitor

An address and a number of lines are taken from the front of what is left of a line, each with as many digits as it can
have.  What is taken as an address is a literal, and no longer literal stands there (`longest_of_address?`); where a
literal stands, something is taken that is at least as long (`exists_address?`).
-/

namespace Mos6502

namespace Monitor

open Hexadecimal (IsLiteral leads dropPrefix)

/-- The characters that separate the parts of a line. -/
def isSpace (c : Char) : Bool :=
  c == ' ' || c == '\t'

/-- A number of lines as it is written, and its value. -/
def IsCount (chars : List Char) (lines : UInt64) : Prop :=
  1 ≤ chars.length ∧ chars.length ≤ 3 ∧ (∀ c ∈ chars, IsDigit 10 c) ∧ lines.toNat = number 10 chars

/-- No literal longer than an address stands at the front of it and of what follows it. -/
def IsLongest (address rest : List Char) : Prop :=
  ∀ other value, IsLiteral other value → other <+: address ++ rest → other.length ≤ address.length

variable {p later : Place} {text : String} {address digits rest before after : List Char} {value : UInt16}
  {base limit : Nat}

theorem IsLongest.of_append (h : IsLongest address (rest ++ after)) : IsLongest address rest :=
  fun other value hother hbegins =>
    h other value hother (hbegins.trans ((List.prefix_append_right_inj _).2 (List.prefix_append _ _)))

/-! ### Places -/

theorem rest_skip_append (h : p.rest = before ++ after) : (p.skip before.length).rest = after := by
  rw [Place.skip, h, List.drop_left]

theorem textTo_skip_append (h : p.rest = before ++ after) : p.textTo (p.skip before.length) = String.ofList before := by
  rw [Place.textTo, Place.skip, Nat.add_sub_cancel_left, h, List.take_left]

theorem skip_skip (p : Place) (m n : Nat) : (p.skip m).skip n = p.skip (m + n) := by
  simp [Place.skip, Nat.add_assoc]

theorem rest_skipBlanks (p : Place) : p.skipBlanks.rest = p.rest.dropWhile isSpace :=
  rest_skip_append List.takeWhile_append_dropWhile.symm

/-- What is skipped are spaces. -/
theorem exists_skipBlanks (p : Place) : ∃ gap, (∀ c ∈ gap, isSpace c) ∧ p.rest = gap ++ p.skipBlanks.rest := by
  refine ⟨p.rest.takeWhile isSpace, fun c hc => List.mem_takeWhile_imp hc, ?_⟩
  rw [rest_skipBlanks, List.takeWhile_append_dropWhile]

theorem startsWith_iff : p.startsWith text = true ↔ text.toList <+: p.rest :=
  List.isPrefixOf_iff_prefix

/-! ### Runs of digits -/

/-- The digits at the front, `limit` of them at most. -/
def leadingDigits (base limit : Nat) (chars : List Char) : List Char :=
  (chars.take limit).takeWhile fun c => IsDigit base c

theorem isDigit_leadingDigits (chars : List Char) : ∀ c ∈ leadingDigits base limit chars, IsDigit base c :=
  fun c hc => by simpa using List.mem_takeWhile_imp (show c ∈ List.takeWhile _ _ from hc)

theorem length_leadingDigits_le (chars : List Char) : (leadingDigits base limit chars).length ≤ limit :=
  Nat.le_trans (List.takeWhile_sublist _).length_le (List.length_take_le _ _)

theorem leadingDigits_prefix (base limit : Nat) (chars : List Char) : leadingDigits base limit chars <+: chars :=
  (List.takeWhile_prefix _).trans (List.take_prefix _ _)

/-- Digits at the front are among the leading ones if they are not too many. -/
theorem prefix_leadingDigits (hdigits : ∀ c ∈ digits, IsDigit base c) (hlength : digits.length ≤ limit)
    (rest : List Char) : digits <+: leadingDigits base limit (digits ++ rest) := by
  unfold leadingDigits
  rw [List.take_append, List.take_of_length_le hlength, List.takeWhile_append_of_pos]
  · exact List.prefix_append _ _
  · exact fun c hc => decide_eq_true (hdigits c hc)

/-- Digits are all the leading ones if none follows them. -/
theorem leadingDigits_append (hdigits : ∀ c ∈ digits, IsDigit base c) (hlength : digits.length ≤ limit)
    (hrest : ∀ c ∈ rest.head?, ¬IsDigit base c) : leadingDigits base limit (digits ++ rest) = digits := by
  unfold leadingDigits
  rw [List.take_append, List.take_of_length_le hlength, List.takeWhile_append_of_pos]
  · have hstop : (rest.take (limit - digits.length)).takeWhile (fun c => decide (IsDigit base c)) = [] := by
      cases rest with
      | nil => simp
      | cons c rest =>
        cases limit - digits.length with
        | zero => rfl
        | succ n => simp [hrest c rfl]
    rw [hstop, List.append_nil]
  · exact fun c hc => decide_eq_true (hdigits c hc)

theorem afterDigits?_eq (hbase : base ≤ 16) (p : Place) :
    afterDigits? base limit p =
      let digits := leadingDigits base limit p.rest
      if digits = [] then none else some (p.skip digits.length) := by
  unfold afterDigits? Place.run leadingDigits
  simp only [digitValue?_isSome hbase, List.isEmpty_iff]

/-! ### Addresses -/

/-- The prefix at the front is skipped. -/
private theorem exists_skip_lead (p : Place) :
    ∃ lead ∈ leads, p.rest = lead ++ dropPrefix p.rest ∧
      (p.after? ["#0x", "0x", "$"]).getD p = p.skip lead.length := by
  have hfind : ∀ text, p.startsWith text = text.toList.isPrefixOf p.rest := fun _ => rfl
  unfold Place.after? dropPrefix
  split
  · rename_i h
    refine ⟨['#', '0', 'x'], by simp [leads], h, ?_⟩
    simp [hfind, h]
    rfl
  · rename_i h
    refine ⟨['0', 'x'], by simp [leads], h, ?_⟩
    simp [hfind, h]
    rfl
  · rename_i h
    refine ⟨['$'], by simp [leads], h, ?_⟩
    simp [hfind, h]
    rfl
  · rename_i h1 h2 h3
    refine ⟨[], by simp [leads], rfl, ?_⟩
    have hnone : ["#0x", "0x", "$"].find? p.startsWith = none := by
      have hno : ∀ text ∈ ["#0x", "0x", "$"], ∀ rest, p.rest ≠ text.toList ++ rest := by
        simpa using ⟨h1, h2, h3⟩
      rw [List.find?_eq_none]
      intro text htext hstart
      obtain ⟨rest, hrest⟩ := startsWith_iff.1 hstart
      exact hno text htext rest hrest.symm
    rw [hnone]
    rfl

/-- What is taken as an address: a prefix or none, and the digits after it. -/
theorem address?_eq (p : Place) :
    ∃ lead ∈ leads, p.rest = lead ++ dropPrefix p.rest ∧
      address? p =
        let digits := leadingDigits 16 4 (dropPrefix p.rest)
        if digits = [] then none
        else some (String.ofList (lead ++ digits), p.skip (lead ++ digits).length) := by
  obtain ⟨lead, hlead, hrest, hskip⟩ := exists_skip_lead p
  refine ⟨lead, hlead, hrest, ?_⟩
  have hafter : (p.skip lead.length).rest = dropPrefix p.rest := rest_skip_append hrest
  unfold address?
  rw [hskip, afterDigits?_eq (Nat.le_refl 16), hafter]
  dsimp only
  split
  · rfl
  · obtain ⟨more, hmore⟩ := leadingDigits_prefix 16 4 (dropPrefix p.rest)
    have hsplit : p.rest = lead ++ leadingDigits 16 4 (dropPrefix p.rest) ++ more := by
      rw [List.append_assoc, hmore, ← hrest]
    rw [Option.map_some, skip_skip, ← List.length_append, textTo_skip_append hsplit]

/-- What is taken as an address is a literal, and the longest at the front. -/
theorem longest_of_address? (h : address? p = some (text, later)) :
    p.rest = text.toList ++ later.rest ∧ (∃ value, IsLiteral text.toList value) ∧
      IsLongest text.toList later.rest := by
  obtain ⟨lead, hlead, hrest, haddress⟩ := address?_eq p
  rw [haddress] at h
  dsimp only at h
  split at h
  · cases h
  · rename_i hne
    cases h
    obtain ⟨more, hmore⟩ := leadingDigits_prefix 16 4 (dropPrefix p.rest)
    have hsplit : p.rest = lead ++ leadingDigits 16 4 (dropPrefix p.rest) ++ more := by
      rw [List.append_assoc, hmore, ← hrest]
    have hone : 1 ≤ (leadingDigits 16 4 (dropPrefix p.rest)).length := List.length_pos_iff.2 hne
    rw [String.toList_ofList, rest_skip_append hsplit]
    refine ⟨hsplit, ⟨_, Hexadecimal.isLiteral_append hlead hone (length_leadingDigits_le _)
      (isDigit_leadingDigits _)⟩, ?_⟩
    rintro other value ⟨lead', hlead', digits, rfl, hone', hfour, hdigits, -⟩ ⟨beyond, hother⟩
    rw [← hsplit] at hother
    have hlonger : dropPrefix p.rest = digits ++ beyond →
        digits.length ≤ (leadingDigits 16 4 (dropPrefix p.rest)).length := by
      intro h
      rw [h]
      exact (prefix_leadingDigits hdigits hfour beyond).length_le
    rw [List.length_append, List.length_append]
    by_cases hlead'nil : lead' = []
    · subst hlead'nil
      by_cases hleadnil : lead = []
      · subst hleadnil
        exact Nat.add_le_add (Nat.le_refl _) (hlonger (hrest.symm.trans hother.symm))
      · have := Hexadecimal.length_le_one_of_append_eq hlead hleadnil hdigits (hother.trans hrest)
        show 0 + digits.length ≤ _
        omega
    · have hdrop : dropPrefix p.rest = digits ++ beyond := by
        rw [← hother, List.append_assoc, Hexadecimal.dropPrefix_append_of_ne_nil hlead' hlead'nil]
      have hlength := congrArg List.length (hother.trans hrest)
      rw [hdrop] at hlength
      simp only [List.length_append] at hlength
      have := hlonger hdrop
      omega

/-- Where a literal stands at the front, something is taken as an address that begins with it. -/
theorem exists_address? (haddress : IsLiteral address value) (hp : p.rest = address ++ rest)
    (hrest : rest.head? ≠ some 'x') :
    ∃ text later, address? p = some (text, later) ∧ address <+: text.toList := by
  obtain ⟨lead, hlead, digits, rfl, hone, hfour, hdigits, -⟩ := haddress
  obtain ⟨lead', -, hrest', haddress⟩ := address?_eq p
  have hdrop : dropPrefix p.rest = digits ++ rest := by
    rw [hp, Hexadecimal.dropPrefix_append hlead hone hdigits hrest]
  have hbegins := prefix_leadingDigits hdigits hfour rest
  have hlead' : lead' = lead := by
    rw [hdrop, hp, List.append_assoc] at hrest'
    exact List.append_cancel_right hrest'.symm
  subst hlead'
  rw [haddress, hdrop]
  dsimp only
  rw [if_neg]
  · exact ⟨_, _, rfl, by rw [String.toList_ofList]; exact (List.prefix_append_right_inj _).2 hbegins⟩
  · intro hnil
    rw [hnil, List.prefix_nil] at hbegins
    exact absurd hone (by simp [hbegins])

/-! ### Numbers of lines -/

/-- What is taken as a number of lines: the digits at the front. -/
theorem length?_eq (p : Place) :
    length? p =
      let digits := leadingDigits 10 3 p.rest
      if digits = [] then none else some (String.ofList digits, p.skip digits.length) := by
  unfold length?
  rw [afterDigits?_eq (by decide)]
  dsimp only
  split
  · rfl
  · obtain ⟨more, hmore⟩ := leadingDigits_prefix 10 3 p.rest
    rw [Option.map_some, textTo_skip_append hmore.symm]

/-- Up to three digits are a number of lines. -/
theorem isCount_of_digits (hone : 1 ≤ digits.length) (hthree : digits.length ≤ 3) (hdigits : ∀ c ∈ digits, IsDigit 10 c) :
    IsCount digits (UInt64.ofNat (number 10 digits)) := by
  refine ⟨hone, hthree, hdigits, UInt64.toNat_ofNat_of_lt' ?_⟩
  calc number 10 digits < 10 ^ digits.length := number_lt hdigits
    _ ≤ 10 ^ 3 := Nat.pow_le_pow_right (by decide) hthree
    _ ≤ UInt64.size := by decide

/-- What is taken as a number of lines is one. -/
theorem isCount_of_length? (h : length? p = some (text, later)) :
    p.rest = text.toList ++ later.rest ∧ ∃ lines, IsCount text.toList lines := by
  rw [length?_eq] at h
  dsimp only at h
  split at h
  · cases h
  · rename_i hne
    cases h
    obtain ⟨more, hmore⟩ := leadingDigits_prefix 10 3 p.rest
    rw [String.toList_ofList, rest_skip_append hmore.symm]
    exact ⟨hmore.symm, _, isCount_of_digits (List.length_pos_iff.2 hne) (length_leadingDigits_le _)
      (isDigit_leadingDigits _)⟩

/-- A number of lines is taken whole if no digit follows it. -/
theorem length?_of_isCount {lines : UInt64} (h : IsCount digits lines) (hp : p.rest = digits ++ rest)
    (hrest : ∀ c ∈ rest.head?, ¬IsDigit 10 c) :
    ∃ later, length? p = some (String.ofList digits, later) ∧ later.rest = rest := by
  obtain ⟨hone, hthree, hdigits, -⟩ := h
  have hleading : leadingDigits 10 3 p.rest = digits := by rw [hp, leadingDigits_append hdigits hthree hrest]
  rw [length?_eq, hleading]
  dsimp only
  rw [if_neg (List.length_pos_iff.1 hone)]
  exact ⟨_, rfl, rest_skip_append hp⟩

theorem lineCount_of_isCount {lines : UInt64} (h : IsCount digits lines) : lineCount (String.ofList digits) = .ok lines := by
  obtain ⟨-, -, hdigits, hlines⟩ := h
  have hread : numeral? 10 digits = some lines.toNat := (numeral?_eq_some_iff (by decide)).2 ⟨hdigits, hlines⟩
  have hlt : decide (lines.toNat < UInt64.size) = true := decide_eq_true lines.toNat_lt
  unfold lineCount
  rw [String.toList_ofList, hread, Option.filter_some, if_pos hlt]
  exact congrArg Except.ok UInt64.ofNat_toNat

end Monitor

end Mos6502
