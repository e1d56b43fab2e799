import Mathlib.Algebra.BigOperators.Group.List.Basic
import Mathlib.Algebra.Ring.Nat
import Mos6502.Proofs.Run.Trace

/-!
# Delays in slices

A delay that is not cut short is made of slices (`slices`), each as long as a pause can be or what remains, so that they add
up to the whole duration (`sum_slices`).  In any surroundings the calls of a delay are some of the first slices, each after a
look at the stop signal, and one more look (`exists_slices`).  Where the signal is raised at a certain moment, that look is
the first one after the moment or the last of all (`delay_in_slices`).
-/

namespace Mos6502

/-- The pauses of a delay that is not cut short. -/
def slices (remaining : Nat) : List Nat :=
  if remaining = 0 then [] else nextPause remaining :: slices (remaining - nextPause remaining)
  termination_by remaining
  decreasing_by exact sub_nextPause_lt ‹_›

/-- The nanoseconds of a pause. -/
def Call.pause? : Call → Option Nat
  | .pause nanoseconds => some nanoseconds
  | _ => none

/-- Pauses, each after a look at the signal that is not raised. -/
def watched (pauses : List Nat) : List Call :=
  pauses.flatMap fun nanoseconds => [.look false, .pause nanoseconds]

/-- Whether the stop signal is raised once so many calls have been made. -/
def isRaised (moment : Option Nat) (calls : Nat) : Bool :=
  moment.any (· ≤ calls)

/-- Surroundings in which nothing happens but that the stop signal is raised before a certain call, or never. -/
def Host.alarm (moment : Option Nat) : Host (StateM Nat) where
  isStopped := fun calls => (isRaised moment calls, calls + 1)
  waitForStep _ := fun calls => (.quit, calls + 1)
  waitForResume _ := fun calls => (.quit, calls + 1)
  observe _ _ _ := fun calls => ((), calls + 1)
  pause _ := fun calls => ((), calls + 1)
  randomByte := fun calls => (0, calls + 1)

variable {σ : Type} {remaining k : Nat} {before after pauses : List Nat} {slice : Nat} {trace : Trace σ} {passed raised : Bool}
  {moment : Option Nat}

/-! ### Slices -/

theorem sum_slices (remaining : Nat) : (slices remaining).sum = remaining := by
  fun_induction slices remaining with
  | case1 => rfl
  | case2 remaining h ih =>
    rw [List.sum_cons, ih, Nat.add_sub_cancel' (nextPause_le remaining)]

theorem length_slices (remaining : Nat) : (slices remaining).length = (remaining + longestPause - 1) / longestPause := by
  fun_induction slices remaining with
  | case1 => rfl
  | case2 remaining h ih =>
    rw [List.length_cons, ih]
    unfold nextPause longestPause
    omega

/-- A slice is as long as a pause can be, or as what the slices before it leave. -/
theorem slice_eq_nextPause (h : slices remaining = before ++ slice :: after) :
    before.sum < remaining ∧ slice = nextPause (remaining - before.sum) := by
  induction before generalizing remaining with
  | nil =>
    rw [slices] at h
    split at h
    · cases h
    · obtain ⟨rfl, -⟩ := List.cons.inj h
      rw [List.sum_nil]
      exact ⟨Nat.pos_of_ne_zero ‹_›, rfl⟩
  | cons first before ih =>
    rw [slices, List.cons_append] at h
    split at h
    · cases h
    · obtain ⟨rfl, hrest⟩ := List.cons.inj h
      obtain ⟨hlt, hslice⟩ := ih hrest
      have hle := nextPause_le remaining
      rw [List.sum_cons, ← Nat.sub_sub]
      exact ⟨by omega, hslice⟩

theorem slice_bounds (h : slices remaining = before ++ slice :: after) :
    0 < slice ∧ slice ≤ longestPause ∧ before.sum + slice ≤ remaining := by
  obtain ⟨hlt, rfl⟩ := slice_eq_nextPause h
  have hpos := nextPause_pos (Nat.sub_ne_zero_of_lt hlt)
  have hle := nextPause_le (remaining - before.sum)
  exact ⟨hpos, Nat.min_le_right _ _, by omega⟩

/-! ### The calls of a delay -/

theorem watched_append (pauses pauses' : List Nat) : watched (pauses ++ pauses') = watched pauses ++ watched pauses' :=
  List.flatMap_append

theorem length_watched (pauses : List Nat) : (watched pauses).length = 2 * pauses.length := by
  induction pauses with
  | nil => rfl
  | cons first pauses ih =>
    show (watched pauses).length + 1 + 1 = 2 * (pauses.length + 1)
    omega

theorem filterMap_watched (pauses : List Nat) : (watched pauses).filterMap Call.pause? = pauses := by
  induction pauses with
  | nil => rfl
  | cons first pauses ih => exact congrArg (first :: ·) ih

/-- A delay makes slices from the first one on, and all of them unless it sees the signal raised. -/
theorem exists_slices (h : Run.DelayTrace remaining trace passed) :
    ∃ pauses rest, slices remaining = pauses ++ rest ∧
      trace.map Prod.fst = watched pauses ++ [.look (!passed)] ∧ (passed = true → rest = []) := by
  induction h with
  | @passed raised w => exact ⟨[], [], by rw [slices]; rfl, by simp [watched], fun _ => rfl⟩
  | cut h => exact ⟨[], _, rfl, rfl, by simp⟩
  | @slice remaining w w' trace passed h rest ih =>
    obtain ⟨pauses, rest, hslices, hcalls, hpassed⟩ := ih
    refine ⟨nextPause remaining :: pauses, rest, ?_, ?_, hpassed⟩
    · rw [slices, if_neg h, hslices]
      rfl
    · rw [List.map_cons, List.map_cons, hcalls]
      rfl

/-! ### The moment of the signal -/

/-- A look is answered as the number of the calls before it says. -/
theorem isRaised_of_path {calls calls' : Nat} {trace : Trace Nat} (hp : (Host.alarm moment).Path calls trace calls')
    (h : trace.map Prod.fst = watched pauses ++ [.look raised]) :
    isRaised moment (calls + 2 * pauses.length) = raised ∧
      ∀ i < pauses.length, isRaised moment (calls + 2 * i) = false := by
  induction pauses generalizing calls trace with
  | nil =>
    obtain ⟨⟨call, w⟩, trace, rfl, rfl, -⟩ := List.map_eq_cons_iff.1 h
    obtain ⟨hlook, -⟩ := Host.path_cons_iff.1 hp
    exact ⟨(Prod.mk.inj hlook).1, by simp⟩
  | cons first pauses ih =>
    -- two calls are made before those of the other pauses
    obtain ⟨⟨call, w⟩, after, rfl, rfl, htail⟩ := List.map_eq_cons_iff.1 h
    obtain ⟨⟨call, w'⟩, rest, rfl, rfl, hrest⟩ := List.map_eq_cons_iff.1 htail
    obtain ⟨hlook, hafter⟩ := Host.path_cons_iff.1 hp
    obtain ⟨hpause, hpath⟩ := Host.path_cons_iff.1 hafter
    obtain ⟨hfirst, rfl⟩ := Prod.mk.inj hlook
    obtain ⟨-, rfl⟩ := Prod.mk.inj hpause
    obtain ⟨hlast, hothers⟩ := ih hpath hrest
    refine ⟨?_, ?_⟩
    · rw [← hlast, List.length_cons]
      congr 1
      omega
    · intro i hi
      cases i with
      | zero => exact hfirst
      | succ i =>
        rw [← hothers i (Nat.lt_of_succ_lt_succ hi)]
        congr 1
        omega

/-- After the last look that is not raised one pause is left. -/
theorem length_pauses_drop_le {m : Nat} (h : ∀ i < pauses.length, 2 * i < m) (call : List Call)
    (hcall : call.filterMap Call.pause? = []) :
    (((watched pauses ++ call).drop m).filterMap Call.pause?).length ≤ 1 := by
  obtain rfl | ⟨earlier, last, rfl⟩ := List.eq_nil_or_concat pauses
  · have hnone : (call.drop m).filterMap Call.pause? = [] :=
      List.sublist_nil.1 (hcall ▸ (List.drop_sublist m call).filterMap _)
    show ((call.drop m).filterMap Call.pause?).length ≤ 1
    rw [hnone]
    exact Nat.zero_le 1
  · have hm : 2 * earlier.length + 1 ≤ m := h earlier.length (by simp)
    have hlast : (watched (earlier.concat last) ++ call).drop (2 * earlier.length + 1) = .pause last :: call := by
      rw [List.concat_eq_append, watched_append, ← length_watched, List.append_assoc, ← List.drop_drop, List.drop_left]
      rfl
    have hsub := ((List.drop_sublist_drop_left (watched (earlier.concat last) ++ call) hm).filterMap Call.pause?).length_le
    rw [hlast, show (Call.pause last :: call).filterMap Call.pause? = [last] from congrArg (last :: ·) hcall] at hsub
    exact hsub

/-- A delay ends.  It makes slices from the first one on, sees the signal as it is at each look, and leaves no slice out if it
passes. -/
theorem exists_pauses (duration : Nat) (moment : Option Nat) :
    ∃ passed calls trace pauses rest, delay (Host.alarm moment).traced duration (0, []) = (passed, (calls, trace)) ∧
      trace.map Prod.fst = watched pauses ++ [.look (!passed)] ∧ slices duration = pauses ++ rest ∧
      (passed = true → rest = []) ∧ isRaised moment (2 * pauses.length) = !passed ∧
      ∀ i < pauses.length, isRaised moment (2 * i) = false := by
  obtain ⟨passed, calls, trace, hdelay⟩ : ∃ passed calls trace,
      delay (Host.alarm moment).traced duration (0, []) = (passed, (calls, trace)) := ⟨_, _, _, rfl⟩
  obtain ⟨trace', htrace, hp, hd⟩ := Run.delay_traces (Host.alarm moment) duration 0 []
  rw [hdelay] at htrace hp hd
  obtain rfl : trace = trace' := htrace
  obtain ⟨pauses, rest, hslices, hcalls, hpassed⟩ := exists_slices hd
  obtain ⟨hlast, hothers⟩ := isRaised_of_path hp hcalls
  simp only [Nat.zero_add] at hlast hothers
  exact ⟨passed, calls, trace, pauses, rest, hdelay, hcalls, hslices, hpassed, hlast, hothers⟩

/-- A delay looks at the stop signal before each pause and once in the end.  A pause is positive, no longer than ten
milliseconds or than what remains, and there are no more pauses than ten milliseconds fit into the duration, rounded up.  If
no look finds the signal raised, the pauses add up to the duration; otherwise the delay is cut at the first look that does.
At most one pause is made after the signal has been raised. -/
theorem delay_in_slices (duration : Nat) (moment : Option Nat) :
    ∃ passed calls trace, delay (Host.alarm moment).traced duration (0, []) = (passed, (calls, trace)) ∧
      let pauses := (trace.map Prod.fst).filterMap Call.pause?
      let most := (duration + 9999999) / 10000000
      trace.map Prod.fst = watched pauses ++ [.look (!passed)] ∧
      (∀ before slice after, pauses = before ++ slice :: after →
        0 < slice ∧ slice ≤ 10000000 ∧ before.sum + slice ≤ duration) ∧
      pauses.length ≤ most ∧
      ((∀ k ≤ most, isRaised moment (2 * k) = false) → passed = true ∧ pauses.sum = duration ∧ pauses.length = most) ∧
      (∀ k ≤ most, isRaised moment (2 * k) = true → (∀ i < k, isRaised moment (2 * i) = false) →
        passed = false ∧ pauses.length = k) ∧
      ∀ m, moment = some m → (((trace.map Prod.fst).drop m).filterMap Call.pause?).length ≤ 1 := by
  obtain ⟨passed, calls, trace, done, rest, hdelay, hcalls, hslices, hpassed, hlast, hothers⟩ := exists_pauses duration moment
  have hpauses : (trace.map Prod.fst).filterMap Call.pause? = done := by
    rw [hcalls, List.filterMap_append, filterMap_watched]
    exact List.append_nil done
  have hmost : done.length + rest.length = (duration + 9999999) / 10000000 := by
    rw [← List.length_append, ← hslices, length_slices]
    unfold longestPause
    omega
  have hwhole : passed = true → done.sum = duration ∧ rest.length = 0 := by
    intro h
    obtain rfl := hpassed h
    rw [List.append_nil] at hslices
    exact ⟨hslices ▸ sum_slices duration, rfl⟩
  refine ⟨passed, calls, trace, hdelay, ?_⟩
  intro pauses most
  rw [show pauses = done from hpauses]
  refine ⟨hcalls, ?_, by omega, ?_, ?_, ?_⟩
  · rintro before slice after rfl
    rw [List.append_assoc] at hslices
    exact slice_bounds hslices
  · intro h
    rw [h done.length (by omega)] at hlast
    have htrue : passed = true := by simpa using hlast.symm
    obtain ⟨hsum, hrest⟩ := hwhole htrue
    exact ⟨htrue, hsum, by omega⟩
  · intro k hk hraised hbefore
    obtain hlt | rfl | hgt := Nat.lt_trichotomy done.length k
    · -- the delay would have gone on to its end, which is not before the look
      rw [hbefore _ hlt] at hlast
      obtain ⟨-, hrest⟩ := hwhole (by simpa using hlast.symm)
      omega
    · rw [hraised] at hlast
      exact ⟨by simpa using hlast.symm, rfl⟩
    · rw [hothers k hgt] at hraised
      cases hraised
  · rintro m rfl
    rw [hcalls]
    refine length_pauses_drop_le ?_ _ rfl
    intro i hi
    simpa [isRaised] using hothers i hi

end Mos6502
