import Mos6502.Proofs.Run.Signal
import Mos6502.Proofs.Run.Talk

/-!
# Commands given beforehand

A wait that is answered from a channel looks at the stop signal first.  If it is raised the wait takes nothing and is
answered to quit; otherwise it takes the next command, or is answered to quit if none is left (`Host.Channel`).  Along
a trace the commands are therefore taken in their order, each one once (`path_takes`).

Any surroundings can be given such a channel (`Host.commanded`), and the scripted world has one (`Rehearsal.channel`).
-/

namespace Mos6502

open Call

variable {σ : Type}

/-- The waits of a trace after which the stop signal was not raised. -/
def Trace.taken (stopped : σ → Bool) (trace : Trace σ) : Nat :=
  trace.countP fun e => e.1.answer?.isSome && !stopped e.2

namespace Host

/-- What a wait takes of the commands that are left, if `queue` tells which are left in a world. -/
def Takes (stopped : σ → Bool) (queue : σ → List Command → Prop) (commands : List Command) (command : Command)
    (w : σ) : Prop :=
  (stopped w = true ∧ command = .quit ∧ queue w commands) ∨
    (stopped w = false ∧ command = commands[0]?.getD .quit ∧ queue w (commands.drop 1))

/-- Surroundings that answer their waits from a channel. -/
structure Channel (host : Host (StateM σ)) (stopped : σ → Bool) (queue : σ → List Command → Prop) : Prop where
  keep : ∀ {w call w' commands}, queue w commands → host.Answers w call w' → call.answer? = none → queue w' commands
  take : ∀ {w call w' commands command}, queue w commands → host.Answers w call w' → call.answer? = some command →
    Takes stopped queue commands command w'

variable {host : Host (StateM σ)} {stopped : σ → Bool} {queue : σ → List Command → Prop} {w w' : σ} {call : Call}
  {trace : Trace σ} {commands : List Command}

private theorem taken_cons (e : Call × σ) (trace : Trace σ) :
    Trace.taken stopped (e :: trace) = Trace.taken stopped [e] + Trace.taken stopped trace := by
  unfold Trace.taken
  rw [← List.countP_append, List.singleton_append]

private theorem queue_of_answers (hc : host.Channel stopped queue) (hq : queue w commands)
    (ha : host.Answers w call w') : queue w' (commands.drop (Trace.taken stopped [(call, w')])) := by
  cases hcall : call.answer? with
  | none =>
    have htaken : Trace.taken stopped [(call, w')] = 0 := by simp [Trace.taken, hcall]
    rw [htaken]
    exact hc.keep hq ha hcall
  | some command =>
    obtain ⟨hs, -, hq'⟩ | ⟨hs, -, hq'⟩ := hc.take hq ha hcall
    · have htaken : Trace.taken stopped [(call, w')] = 0 := by simp [Trace.taken, hs]
      rw [htaken]
      exact hq'
    · have htaken : Trace.taken stopped [(call, w')] = 1 := by simp [Trace.taken, hcall, hs]
      rw [htaken]
      exact hq'

theorem path_takes (hc : host.Channel stopped queue) (hq : queue w commands) (hp : host.Path w trace w') :
    queue w' (commands.drop (Trace.taken stopped trace)) ∧
      ∀ before call w₁ after command, trace = before ++ (call, w₁) :: after → call.answer? = some command →
        Takes stopped queue (commands.drop (Trace.taken stopped before)) command w₁ := by
  induction trace generalizing w commands with
  | nil =>
    rw [Host.path_nil_iff.1 hp] at hq
    exact ⟨hq, by simp⟩
  | cons e trace ih =>
    obtain ⟨call, w₁⟩ := e
    obtain ⟨ha, hp⟩ := Host.path_cons_iff.1 hp
    obtain ⟨hend, hrest⟩ := ih (queue_of_answers hc hq ha) hp
    have hdrop : ∀ trace', (commands.drop (Trace.taken stopped [(call, w₁)])).drop (Trace.taken stopped trace') =
        commands.drop (Trace.taken stopped ((call, w₁) :: trace')) := by
      intro trace'
      rw [List.drop_drop, taken_cons (call, w₁) trace']
    rw [hdrop] at hend
    refine ⟨hend, ?_⟩
    intro before call' v after command ht hcall
    rw [eq_comm, List.append_eq_cons_iff] at ht
    obtain ⟨rfl, ht⟩ | ⟨before', rfl, ht⟩ := ht
    · cases ht
      exact hc.take hq ha hcall
    · rw [← hdrop]
      exact hrest before' call' v after command ht hcall

/-! ### A channel for any surroundings -/

/-- An action beside which the commands stay as they are. -/
def aside {α : Type} (x : StateM σ α) : StateM (σ × List Command) α :=
  fun (w, commands) => ((x w).1, ((x w).2, commands))

/-- The answer to a wait, whatever the surroundings would have answered: to quit if the signal is raised, and the next
command otherwise.  If there is none, the surroundings may go on for a while until the answer is to quit. -/
def receive (host : Host (StateM σ)) (idle : StateM σ Unit) (begin : StateM σ Command) :
    StateM (σ × List Command) Command :=
  fun (w, commands) =>
    let (raised, w) := host.isStopped (begin w).2
    if raised then (.quit, (w, commands))
    else
      match commands with
      | command :: rest => (command, (w, rest))
      | [] => (.quit, ((idle w).2, []))

/-- The same surroundings, with their waits answered from a channel. -/
def commanded (host : Host (StateM σ)) (idle : StateM σ Unit) : Host (StateM (σ × List Command)) where
  isStopped := aside host.isStopped
  waitForStep p := host.receive idle (host.waitForStep p)
  waitForResume p := host.receive idle (host.waitForResume p)
  observe p tick schedule := aside (host.observe p tick schedule)
  pause nanoseconds := aside (host.pause nanoseconds)
  randomByte := aside host.randomByte

private theorem receive_takes (hs : host.Signal stopped) (idle : StateM σ Unit) (begin : StateM σ Command)
    (w : σ) (commands : List Command) :
    Takes (fun w : σ × List Command => stopped w.1) (fun w commands => w.2 = commands) commands
      (host.receive idle begin (w, commands)).1 (host.receive idle begin (w, commands)).2 := by
  obtain ⟨hl, hkept⟩ := hs.look (begin w).2
  unfold receive
  dsimp only
  generalize host.isStopped (begin w).2 = result at hl hkept ⊢
  obtain ⟨raised, v⟩ := result
  dsimp only at hl hkept ⊢
  rw [← hl] at hkept
  cases raised with
  | true => exact Or.inl ⟨hkept, rfl, rfl⟩
  | false =>
    cases commands with
    | cons command rest => exact Or.inr ⟨hkept, rfl, rfl⟩
    | nil =>
      cases hidle : stopped (idle v).2 with
      | true => exact Or.inl ⟨hidle, rfl, rfl⟩
      | false => exact Or.inr ⟨hidle, rfl, rfl⟩

theorem commanded_channel (hs : host.Signal stopped) (idle : StateM σ Unit) :
    (host.commanded idle).Channel (fun w => stopped w.1) fun w commands => w.2 = commands := by
  constructor
  · rintro ⟨w, commands⟩ call w' _ rfl ha hcall
    cases call with
    | step p command => cases hcall
    | resume p command => cases hcall
    | _ => exact (congrArg (fun result => result.2.2) ha).symm
  · rintro ⟨w, commands⟩ call w' _ command rfl ha hcall
    cases call with
    | step p answer =>
      cases hcall
      have ht := receive_takes hs idle (host.waitForStep p) w commands
      rw [show host.receive idle (host.waitForStep p) (w, commands) = (command, w') from ha] at ht
      exact ht
    | resume p answer =>
      cases hcall
      have ht := receive_takes hs idle (host.waitForResume p) w commands
      rw [show host.receive idle (host.waitForResume p) (w, commands) = (command, w') from ha] at ht
      exact ht
    | _ => cases hcall

end Host

/-! ### The channel of the scripted world -/

namespace Rehearsal

/-- The commands that are left to a scripted operator. -/
def HasLeft (w : Rehearsal) (commands : List Command) : Prop :=
  ∃ keptOpen, w.operator = .scripted commands keptOpen

private theorem answer_takes {w : Rehearsal} {commands : List Command} (kind : Wait) (hw : w.HasLeft commands) :
    Host.Takes isStopped HasLeft commands (w.answer kind).1 (w.answer kind).2 := by
  obtain ⟨keptOpen, ho⟩ := hw
  unfold answer
  rw [ho]
  dsimp only
  cases hs : w.isStopped with
  | true => exact Or.inl ⟨hs, rfl, keptOpen, ho⟩
  | false =>
    cases commands with
    | cons command rest => exact Or.inr ⟨hs, rfl, keptOpen, rfl⟩
    | nil =>
      have hquit : ∀ w' : Rehearsal, w'.operator = .scripted [] keptOpen →
          Host.Takes isStopped HasLeft [] .quit w' := by
        intro w' ho'
        cases hs' : w'.isStopped with
        | true => exact Or.inl ⟨hs', rfl, keptOpen, ho'⟩
        | false => exact Or.inr ⟨hs', rfl, keptOpen, ho'⟩
      apply hquit
      cases keptOpen with
      | true => rfl
      | false => exact ho

private theorem wait_takes {w w' : Rehearsal} {commands : List Command} {command : Command} {kind : Wait}
    {p : Processor} (hw : w.HasLeft commands) (h : w.wait kind p = (command, w')) :
    Host.Takes isStopped HasLeft commands command w' := by
  have ht : Host.Takes isStopped HasLeft commands (w.wait kind p).1 (w.wait kind p).2 := by
    unfold wait
    exact answer_takes kind hw
  rw [h] at ht
  exact ht

theorem channel : host.Channel isStopped HasLeft := by
  constructor
  · intro w call w' commands hw ha hcall
    cases call with
    | step p command => cases hcall
    | resume p command => cases hcall
    | random byte =>
      have hdraw : w.draw = (byte, w') := ha
      unfold draw at hdraw
      split at hdraw <;> cases hdraw <;> exact hw
    | _ =>
      cases ha
      exact hw
  · intro w call w' commands command hw ha hcall
    cases call with
    | step p answer =>
      cases hcall
      exact wait_takes hw ha
    | resume p answer =>
      cases hcall
      exact wait_takes hw ha
    | _ => cases hcall

end Rehearsal

end Mos6502
