import Mathlib.Data.List.DropRight
import Mos6502.Text.Blank

/-!
# Text without its ends

Characters of some kind are dropped at both ends of a text.  What is dropped is of that kind (`exists_trim`), and more of
it at the ends makes no difference (`trim_append`).
-/

namespace Mos6502

/-- The characters without those at the two ends that satisfy a condition. -/
def trim (p : Char → Bool) (chars : List Char) : List Char :=
  (chars.dropWhile p).rdropWhile p

variable {p : Char → Bool} {chars before after : List Char}

theorem trimBlanks_eq (chars : List Char) : trimBlanks chars = trim isBlank chars := rfl

/-- What is dropped satisfies the condition. -/
theorem exists_trim (p : Char → Bool) (chars : List Char) :
    ∃ before after, chars = before ++ trim p chars ++ after ∧ (∀ c ∈ before, p c) ∧ ∀ c ∈ after, p c := by
  refine ⟨chars.takeWhile p, (chars.dropWhile p).rtakeWhile p, ?_, ?_, ?_⟩
  · rw [List.append_assoc, trim, List.rdropWhile_append_rtakeWhile, List.takeWhile_append_dropWhile]
  · exact fun c hc => List.mem_takeWhile_imp hc
  · exact fun c hc => List.mem_rtakeWhile_imp hc

theorem trim_append (hbefore : ∀ c ∈ before, p c) (hafter : ∀ c ∈ after, p c) :
    trim p (before ++ chars ++ after) = trim p chars := by
  unfold trim
  rw [List.append_assoc, List.dropWhile_append_of_pos hbefore, List.dropWhile_append]
  split
  · rename_i h
    rw [List.isEmpty_iff.1 h, List.dropWhile_eq_nil_iff.2 hafter]
  · rw [List.rdropWhile, List.reverse_append, List.dropWhile_append_of_pos (by simpa using hafter)]
    rfl

/-- Nothing is dropped from a text whose ends do not satisfy the condition. -/
theorem trim_eq_self (hfirst : ∀ c ∈ chars.head?, ¬p c) (hlast : ∀ c ∈ chars.getLast?, ¬p c) : trim p chars = chars := by
  unfold trim
  have hdrop : chars.dropWhile p = chars := by
    cases chars with
    | nil => rfl
    | cons c chars => rw [List.dropWhile_cons_of_neg (hfirst c rfl)]
  rw [hdrop, List.rdropWhile_eq_self_iff]
  exact fun h => hlast _ (List.getLast?_eq_some_getLast h)

theorem trim_eq_self_of_forall (h : ∀ c ∈ chars, ¬p c) : trim p chars = chars :=
  trim_eq_self (fun c hc => h c (List.mem_of_head? hc)) fun c hc => h c (List.mem_of_getLast? hc)

end Mos6502
