import Mos6502.CommandLine.Session
import Mos6502.Proofs.Monitor.Dialogue
import Mos6502.Proofs.Run.Talk

/-!
# Runs with the monitor

A terminal answers the waits of a run by dialogues with the monitor, and a run knows the terminal by these answers and by
its random bytes only.  So idle lines do not influence it: two terminals whose inputs differ in idle lines, and that
draw the same random bytes, drive a run through the same calls to the same end (`play_thinned`).
-/

namespace Mos6502

open Monitor

variable {σ τ α : Type}

/-! ### Traces in related worlds -/

private theorem note_alike {R : σ → τ → Prop} {x : StateM σ α} {y : StateM τ α} (h : Alike R x y) (call : α → Call) :
    Alike (fun (s : σ × Trace σ) (s' : τ × Trace τ) => R s.1 s'.1 ∧ s.2.map Prod.fst = s'.2.map Prod.fst)
      (Host.note x call) (Host.note y call) := by
  rintro ⟨w, trace⟩ ⟨v, trace'⟩ ⟨hw, ht⟩
  obtain ⟨ha, hr⟩ := h w v hw
  refine ⟨ha, hr, ?_⟩
  show (trace ++ [(call (x w).1, (x w).2)]).map Prod.fst = (trace' ++ [(call (y v).1, (y v).2)]).map Prod.fst
  rw [List.map_append, List.map_append, ha]
  exact congrArg (· ++ _) ht

/-- Surroundings that answer alike leave traces of the same calls. -/
theorem Host.traced_alike {R : σ → τ → Prop} {host : Host (StateM σ)} {host' : Host (StateM τ)}
    (h : Host.Alike R host host') :
    Host.Alike (fun (s : σ × Trace σ) (s' : τ × Trace τ) => R s.1 s'.1 ∧ s.2.map Prod.fst = s'.2.map Prod.fst)
      host.traced host'.traced :=
  ⟨note_alike h.isStopped _, fun p => note_alike (h.waitForStep p) _, fun p => note_alike (h.waitForResume p) _,
    fun p tick schedule => note_alike (h.observe p tick schedule) _,
    fun nanoseconds => note_alike (h.pause nanoseconds) _, note_alike h.randomByte _⟩

namespace CommandLine

namespace Terminal

variable {t t' : Terminal} {p : Processor} {command : Command}

private theorem foldl_print (lines : List String) (t : Terminal) :
    (lines.foldl (fun t line => t.print (line ++ "\n")) t).input = t.input ∧
      (lines.foldl (fun t line => t.print (line ++ "\n")) t).dice = t.dice := by
  induction lines generalizing t with
  | nil => exact ⟨rfl, rfl⟩
  | cons line lines ih => exact ih (t.print (line ++ "\n"))

/-- What a dialogue does to a terminal, apart from what it prints. -/
theorem converse_eq (t : Terminal) (p : Processor) :
    (t.converse p).1 = (Monitor.converse p t.input).command ∧
      (t.converse p).2.input = (Monitor.converse p t.input).rest ∧ (t.converse p).2.dice = t.dice := by
  obtain ⟨hinput, hdice⟩ := foldl_print (Monitor.converse p t.input).printed
    { t with input := (Monitor.converse p t.input).rest }
  exact ⟨rfl, hinput, hdice⟩

/-- The first terminal has the random bytes of the second, and its input with some more idle lines. -/
def Thins (t t' : Terminal) : Prop :=
  Thinned t.input t'.input ∧ t.dice = t'.dice

private theorem converse_thins (h : Thins t t') (p : Processor) :
    (t.converse p).1 = (t'.converse p).1 ∧ Thins (t.converse p).2 (t'.converse p).2 := by
  obtain ⟨hcommand, hinput, hdice⟩ := t.converse_eq p
  obtain ⟨hcommand', hinput', hdice'⟩ := t'.converse_eq p
  obtain ⟨hsame, hrest⟩ := converse_thinned h.1 p p
  unfold Thins
  rw [hcommand, hcommand', hinput, hinput', hdice, hdice']
  exact ⟨hsame, hrest, h.2⟩

/-- Idle lines do not matter to a terminal with the monitor, nor does what is shown of the ticks. -/
theorem host_alike (diagnostics diagnostics' : Bool) :
    Host.Alike Thins (host false diagnostics) (host false diagnostics') := by
  refine ⟨?_, fun p => ?_, fun p => ?_, fun p tick schedule => ?_, fun nanoseconds => ?_, ?_⟩
  · exact Alike.pure _
  · exact fun t t' h => converse_thins h p
  · intro t t' h
    have hprinted : Thins (t.print (breakpointText p ++ "\n")) (t'.print (breakpointText p ++ "\n")) := h
    exact converse_thins hprinted p
  · intro t t' h
    cases diagnostics <;> cases diagnostics' <;> exact ⟨rfl, h⟩
  · exact Alike.pure _
  · intro t t' h
    obtain ⟨hinput, hdice⟩ := h
    show t.draw.1 = t'.draw.1 ∧ Thins t.draw.2 t'.draw.2
    unfold draw Thins
    rw [← hdice]
    cases hd : t.dice with
    | nil => exact ⟨rfl, hinput, hdice⟩
    | cons byte dice => exact ⟨rfl, hinput, rfl⟩

private theorem consumes_converse (h : t.converse p = (command, t')) : Consumes t.input command t'.input := by
  obtain ⟨hcommand, hinput, -⟩ := t.converse_eq p
  rw [h] at hcommand hinput
  dsimp only at hcommand hinput
  rw [hcommand, hinput]
  exact converse_consumes p t.input

/-- A wait takes the lines of one dialogue, and no other call takes any. -/
theorem host_answers {diagnostics : Bool} {call : Call} (h : (host false diagnostics).Answers t call t') :
    (∀ command, call.answer? = some command → Consumes t.input command t'.input) ∧
      (call.answer? = none → t'.input = t.input) := by
  cases call with
  | step p command =>
    refine ⟨?_, fun hc => by cases hc⟩
    rintro _ ⟨⟩
    exact consumes_converse h
  | resume p command =>
    refine ⟨?_, fun hc => by cases hc⟩
    rintro _ ⟨⟩
    have hprinted : Consumes (t.print (breakpointText p ++ "\n")).input command t'.input := consumes_converse h
    exact hprinted
  | observe p tick schedule =>
    refine ⟨fun command hc => (by cases hc), fun _ => ?_⟩
    cases diagnostics <;> cases h <;> rfl
  | random byte =>
    refine ⟨fun command hc => (by cases hc), fun _ => ?_⟩
    have hdraw : t.draw = (byte, t') := h
    unfold draw at hdraw
    split at hdraw <;> cases hdraw <;> rfl
  | look raised =>
    cases h
    exact ⟨fun command hc => (by cases hc), fun _ => rfl⟩
  | pause nanoseconds =>
    cases h
    exact ⟨fun command hc => (by cases hc), fun _ => rfl⟩

end Terminal

end CommandLine

namespace Run

open CommandLine Call

variable {t t' : Terminal}

/-- Idle lines do not influence a run with the monitor.  If they are left out, and the random bytes are the same, the run
makes the same calls, which tell the executed lines and the random bytes, and comes to the same end, with the same
registers, memory, activity, schedule and number of ticks.  Every wait takes the lines up to the first that drives the
run and is answered what that line says, or takes all lines and is answered to quit; no other call takes lines.  A dump
that a line asks for is never a fault. -/
theorem play_thinned (hi : Thinned t.input t'.input) (hd : t.dice = t'.dice) (diagnostics diagnostics' : Bool)
    (fuel : Nat) (r : Run) :
    (∃ progress u u' trace trace',
      play (Terminal.host false diagnostics) fuel r t = (progress, u) ∧
      play (Terminal.host false diagnostics') fuel r t' = (progress, u') ∧
      play (Terminal.host false diagnostics).traced fuel r (t, []) = (progress, (u, trace)) ∧
      play (Terminal.host false diagnostics').traced fuel r (t', []) = (progress, (u', trace')) ∧
      trace.map Prod.fst = trace'.map Prod.fst ∧ Thinned u.input u'.input ∧ u.dice = u'.dice ∧
      ∀ before call v after, trace = before ++ (call, v) :: after →
        ∃ v₀, (Terminal.host false diagnostics).Path t before v₀ ∧
          (∀ command, call.answer? = some command → Consumes v₀.input command v.input) ∧
          (call.answer? = none → v.input = v₀.input)) ∧
    ∀ text address count, Command.parse text = .ok (.memory address count) →
      ∀ m : Memory, m.dump address.toUInt64 count ≠ .error .fault := by
  refine ⟨?_, fun _ _ _ => dump_ne_fault⟩
  obtain ⟨trace, h⟩ := exists_play_traced (Terminal.host false diagnostics) fuel r t
  obtain ⟨trace', h'⟩ := exists_play_traced (Terminal.host false diagnostics') fuel r t'
  obtain ⟨-, htrace, hc⟩ := play_course _ h
  have hpath := course_path _ hc
  rw [← htrace] at hpath
  -- the traced runs go alike, so the runs themselves come to the same end
  obtain ⟨hprogress, ⟨hinput, hdice⟩, hcalls⟩ :=
    play_alike (Host.traced_alike (Terminal.host_alike diagnostics diagnostics')) fuel r (t, []) (t', [])
      ⟨⟨hi, hd⟩, rfl⟩
  rw [h, h'] at hprogress hinput hdice hcalls
  generalize play (Terminal.host false diagnostics) fuel r t = result at *
  generalize play (Terminal.host false diagnostics') fuel r t' = result' at *
  obtain ⟨progress, u⟩ := result
  obtain ⟨progress', u'⟩ := result'
  obtain rfl : progress = progress' := hprogress
  refine ⟨progress, u, u', trace, trace', rfl, rfl, h, h', hcalls, hinput, hdice, ?_⟩
  intro before call v after ht
  rw [ht] at hpath
  obtain ⟨v₀, hbefore, hrest⟩ := Host.path_append_iff.1 hpath
  exact ⟨v₀, hbefore, Terminal.host_answers (Host.path_cons_iff.1 hrest).1⟩

/-- A run that is told to quit, with and without a line that asks for the registers. -/
theorem play_thinned_of_registers :
    let t : Terminal := { input := [.text "r", .text "q"], printed := [], dice := [] }
    let t' : Terminal := { input := [.text "q"], printed := [], dice := [] }
    let run := ofProcessor (.ofMemory (.blank .preserve)) .stepwise .unlimited none
    Thinned t.input t'.input ∧ t.dice = t'.dice ∧
      ∃ r u u', play (Terminal.host false false) 1 run t = (.over r .quit, u) ∧
        play (Terminal.host false false) 1 run t' = (.over r .quit, u') ∧ Thinned u.input u'.input := by
  intro t t' run
  have hthinned : Thinned t.input t'.input := Thinned.drop rfl (thinned_refl _)
  obtain ⟨⟨progress, u, u', -, -, h, h', -, -, -, hrest, -⟩, -⟩ :=
    play_thinned hthinned rfl false false 1 run
  obtain ⟨r, v, hquit⟩ : ∃ r v, play (Terminal.host false false) 1 run t' = (.over r .quit, v) := ⟨_, _, rfl⟩
  have hprogress : progress = .over r .quit := (Prod.ext_iff.1 (h'.symm.trans hquit)).1
  subst hprogress
  exact ⟨hthinned, rfl, r, u, u', h, h', hrest⟩

end Run

end Mos6502
