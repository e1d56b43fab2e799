import Mos6502.Proofs.Text.Printed
import Mos6502.Text.Paint

/-!
# Painted texts without their colours

An escape sequence is an escape character and a bracket, parameters, and one more character.  Without these sequences a
painted text is the text itself (`fades_paint`), whatever follows it, so a text that is put together from painted ones fades
to what is put together from the plain ones (`Fades.append`, `fades_intercalate`).
-/

namespace Mos6502

/-- The character that begins an escape sequence. -/
def escape : Char := '\x1b'

/-- Whether a character can be part of the parameters of an escape sequence. -/
def isParameter (c : Char) : Bool :=
  c.isDigit || c == ';'

/-- What follows an escape sequence, given what follows its first character. -/
def afterSequence (chars : List Char) : List Char :=
  ((chars.drop 1).dropWhile isParameter).drop 1

theorem length_afterSequence_le (chars : List Char) : (afterSequence chars).length ≤ chars.length := by
  have hle := List.length_dropWhile_le isParameter (chars.drop 1)
  rw [List.length_drop] at hle
  rw [afterSequence, List.length_drop]
  omega

/-- The characters that are not part of escape sequences. -/
def withoutEscapes : List Char → List Char
  | [] => []
  | c :: rest =>
    if c = escape ∧ rest.head? = some '[' then withoutEscapes (afterSequence rest) else c :: withoutEscapes rest
  termination_by chars => chars.length
  decreasing_by
    · exact Nat.lt_succ_of_le (length_afterSequence_le rest)
    · exact Nat.lt_succ_self _

/-- The characters of a painted text are those of a plain one and escape sequences, all of them complete. -/
def Fades (painted plain : String) : Prop :=
  ∀ rest, withoutEscapes (painted.toList ++ rest) = plain.toList ++ withoutEscapes rest

variable {painted plain painted' plain' text : String} {chars parameters : List Char}

/-! ### Escape sequences -/

theorem withoutEscapes_append (h : escape ∉ chars) (rest : List Char) :
    withoutEscapes (chars ++ rest) = chars ++ withoutEscapes rest := by
  induction chars with
  | nil => rfl
  | cons c chars ih =>
    rw [List.mem_cons, not_or] at h
    rw [List.cons_append, withoutEscapes, if_neg fun hc => h.1 hc.1.symm, ih h.2]
    rfl

theorem withoutEscapes_sequence (h : ∀ c ∈ parameters, isParameter c) (rest : List Char) :
    withoutEscapes (escape :: '[' :: (parameters ++ 'm' :: rest)) = withoutEscapes rest := by
  have hafter : afterSequence ('[' :: (parameters ++ 'm' :: rest)) = rest := by
    unfold afterSequence
    rw [List.drop_succ_cons, List.drop_zero, List.dropWhile_append_of_pos h, List.dropWhile_cons_of_neg (by decide)]
    rfl
  rw [withoutEscapes, if_pos ⟨rfl, rfl⟩, hafter]

theorem isParameter_of_isDigit {c : Char} (h : IsDigit 10 c) : isParameter c :=
  h.of_codes (P := (isParameter ·)) (by decide +kernel)

/-- The code of a style consists of parameters. -/
theorem isParameter_of_code {style : Style} {code : String} (h : style.code? = some code) :
    ∀ c ∈ code.toList, isParameter c := by
  cases style with
  | plain => cases h
  | palette index =>
    obtain rfl : "38;5;" ++ toString index.toNat = code := Option.some.inj h
    have hdigits : ∀ c ∈ (toString index.toNat).toList, isParameter c :=
      fun c hc => isParameter_of_isDigit (isDigit_toString _ c hc)
    rw [String.toList_append, List.forall_mem_append]
    exact ⟨by simp [isParameter], hdigits⟩
  | red | green | yellow | boldWhite =>
    obtain rfl := Option.some.inj h
    simp [isParameter]

/-! ### Fading -/

theorem Fades.append (h : Fades painted plain) (h' : Fades painted' plain') :
    Fades (painted ++ painted') (plain ++ plain') := by
  intro rest
  rw [String.toList_append, String.toList_append, List.append_assoc, List.append_assoc, h, h']

theorem fades_self (h : escape ∉ text.toList) : Fades text text :=
  withoutEscapes_append h

theorem IsPrinted.fades (h : IsPrinted text) : Fades text text :=
  fades_self (h.not_mem rfl)

theorem fades_paint (style : Style) (h : IsPrinted text) : Fades (style.paint text) text := by
  unfold Style.paint
  split
  · exact h.fades
  · rename_i code hcode
    -- three steps: the sequence that sets the style, the text, and the sequence that resets it
    intro rest
    have hzero : ∀ c ∈ ['0'], isParameter c := by simp [isParameter]
    have hreset : withoutEscapes ("\x1b[0m".toList ++ rest) = withoutEscapes rest := withoutEscapes_sequence hzero rest
    have hstart : ∀ chars, withoutEscapes ("\x1b[".toList ++ (code.toList ++ ("m".toList ++ chars))) = withoutEscapes chars :=
      fun chars => withoutEscapes_sequence (isParameter_of_code hcode) chars
    simp only [String.toList_append, List.append_assoc]
    rw [hstart, h.fades, hreset]

theorem fades_intercalate {separator : String} (hseparator : escape ∉ separator.toList) {painted plain : List String}
    (h : List.Forall₂ Fades painted plain) : Fades (separator.intercalate painted) (separator.intercalate plain) := by
  induction h with
  | nil => exact fades_self (by simp)
  | @cons first first' rest rest' hfirst hrest ih =>
    cases hrest with
    | nil => simpa using hfirst
    | cons hnext hrest =>
      rw [String.intercalate_cons_cons, String.intercalate_cons_cons]
      exact (hfirst.append (fades_self hseparator)).append ih

theorem withoutEscapes_of_fades (h : Fades painted plain) : withoutEscapes painted.toList = plain.toList := by
  have hnil := h []
  rwa [withoutEscapes, List.append_nil, List.append_nil] at hnil

end Mos6502
