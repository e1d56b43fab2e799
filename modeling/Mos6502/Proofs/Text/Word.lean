import Mos6502.Proofs.Text.Trim

/-!
# Words

The words of a text are what its separators leave of it.  A separator cuts them (`wordsBy_append_cons`), more of them in
a row do no more (`wordsBy_append_gap`), and characters without one are a word of their own (`wordsBy_eq_singleton`).
Separators before and after a text do not matter (`wordsBy_trim`).
-/

namespace Mos6502

/-- The parts of a text that its separators leave. -/
def wordsBy (p : Char → Bool) (chars : List Char) : List (List Char) :=
  (chars.splitOnP p).filter fun word => !word.isEmpty

variable {p : Char → Bool} {c : Char} {chars gap : List Char}

theorem wordsBy_append_cons (hc : p c) (before after : List Char) :
    wordsBy p (before ++ c :: after) = wordsBy p before ++ wordsBy p after := by
  unfold wordsBy
  rw [List.splitOnP_append_cons before after hc, List.filter_append]

theorem wordsBy_cons (hc : p c) (after : List Char) : wordsBy p (c :: after) = wordsBy p after :=
  wordsBy_append_cons hc [] after

theorem wordsBy_eq_singleton (hne : chars ≠ []) (h : ∀ c ∈ chars, ¬p c) : wordsBy p chars = [chars] := by
  unfold wordsBy
  rw [List.splitOnP_eq_singleton fun c hc => by simpa using h c hc]
  simp [hne]

theorem wordsBy_gap_append (hgap : ∀ c ∈ gap, p c) (after : List Char) : wordsBy p (gap ++ after) = wordsBy p after := by
  induction gap with
  | nil => rfl
  | cons c gap ih =>
    obtain ⟨hc, hgap⟩ := List.forall_mem_cons.1 hgap
    rw [List.cons_append, wordsBy_cons hc, ih hgap]

/-- Separators between two parts of a text separate their words. -/
theorem wordsBy_append_gap (hgap : ∀ c ∈ gap, p c) (hne : gap ≠ []) (before after : List Char) :
    wordsBy p (before ++ gap ++ after) = wordsBy p before ++ wordsBy p after := by
  obtain ⟨c, more, rfl⟩ := List.exists_cons_of_ne_nil hne
  obtain ⟨hc, hmore⟩ := List.forall_mem_cons.1 hgap
  rw [List.append_assoc, List.cons_append, wordsBy_append_cons hc, wordsBy_gap_append hmore]

theorem wordsBy_append_of_gap (hgap : ∀ c ∈ gap, p c) (before : List Char) :
    wordsBy p (before ++ gap) = wordsBy p before := by
  by_cases hne : gap = []
  · rw [hne, List.append_nil]
  · have hsplit := wordsBy_append_gap hgap hne before []
    rw [List.append_nil] at hsplit
    rw [hsplit]
    exact List.append_nil _

theorem wordsBy_trim (p : Char → Bool) (chars : List Char) : wordsBy p (trim p chars) = wordsBy p chars := by
  obtain ⟨before, after, hchars, hbefore, hafter⟩ := exists_trim p chars
  calc wordsBy p (trim p chars) = wordsBy p (before ++ (trim p chars ++ after)) := by
        rw [wordsBy_gap_append hbefore, wordsBy_append_of_gap hafter]
    _ = wordsBy p chars := by rw [← List.append_assoc, ← hchars]

end Mos6502
