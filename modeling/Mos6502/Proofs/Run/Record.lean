import Mos6502.Proofs.Run.Simulation

/-!
# Recorded runs

The surroundings of a run, together with a record of what they were shown and what they answered.  The key facts:
keeping the record does not change the run (`play_recorded`), and what a run does to the record follows from what each
call of the host appends to it (`Ensures`).
-/

namespace Mos6502

/-- One thing that a run showed to its surroundings or was told by them. -/
inductive Event where
  | step (answer : Command)
  | resume (answer : Command)
  | observed (tick : Tick)
  deriving DecidableEq

/-- The line of the instruction that was shown. -/
def Event.line? : Event → Option TraceLine
  | .observed tick => tick.line?
  | .step _ | .resume _ => none

/-- The same surroundings with a record, the latest last. -/
def Host.recorded {σ : Type} (host : Host (StateM σ)) : Host (StateM (σ × List Event)) where
  isStopped := fun (w, log) =>
    let (raised, w) := host.isStopped w
    (raised, (w, log))
  waitForStep p := fun (w, log) =>
    let (command, w) := host.waitForStep p w
    (command, (w, log ++ [.step command]))
  waitForResume p := fun (w, log) =>
    let (command, w) := host.waitForResume p w
    (command, (w, log ++ [.resume command]))
  observe p tick schedule := fun (w, log) =>
    let ((), w) := host.observe p tick schedule w
    ((), (w, log ++ [.observed tick]))
  pause nanoseconds := fun (w, log) =>
    let ((), w) := host.pause nanoseconds w
    ((), (w, log))
  randomByte := fun (w, log) =>
    let (byte, w) := host.randomByte w
    (byte, (w, log))

variable {σ α β : Type}

/-! ### The record does not change the run -/

private theorem recorded_alike (host : Host (StateM σ)) :
    Host.Alike (fun (s : σ × List Event) w => s.1 = w) host.recorded host := by
  constructor
  · rintro ⟨w, log⟩ _ rfl
    exact ⟨rfl, rfl⟩
  · rintro p ⟨w, log⟩ _ rfl
    exact ⟨rfl, rfl⟩
  · rintro p ⟨w, log⟩ _ rfl
    exact ⟨rfl, rfl⟩
  · rintro p tick schedule ⟨w, log⟩ _ rfl
    exact ⟨rfl, rfl⟩
  · rintro nanoseconds ⟨w, log⟩ _ rfl
    exact ⟨rfl, rfl⟩
  · rintro ⟨w, log⟩ _ rfl
    exact ⟨rfl, rfl⟩

/-- A run leads to the same end and the same world, whether it is recorded or not. -/
theorem Run.play_recorded (host : Host (StateM σ)) (fuel : Nat) (r : Run) (w : σ) (log : List Event) :
    ∃ log', play host.recorded fuel r (w, log) = ((play host fuel r w).1, ((play host fuel r w).2, log')) := by
  obtain ⟨hp, hw⟩ := play_alike (recorded_alike host) fuel r (w, log) w rfl
  exact ⟨_, Prod.ext hp (Prod.ext hw rfl)⟩

/-! ### What an action does to the record -/

/-- Whatever the world, an action has a result and leaves a record with a certain property. -/
def Ensures (log : List Event) (x : StateM (σ × List Event) α) (post : α → List Event → Prop) : Prop :=
  ∀ w, post (x (w, log)).1 (x (w, log)).2.2

namespace Ensures

variable {log : List Event} {post : α → List Event → Prop} {post' : β → List Event → Prop}

theorem pure {value : α} (h : post value log) : Ensures log (Pure.pure value : StateM (σ × List Event) α) post :=
  fun _ => h

theorem bind {x : StateM (σ × List Event) α} {f : α → StateM (σ × List Event) β} (hx : Ensures log x post)
    (hf : ∀ a log', post a log' → Ensures log' (f a) post') : Ensures log (x >>= f) post' :=
  fun w => hf _ _ (hx w) (x (w, log)).2.1

theorem mono {x : StateM (σ × List Event) α} {post'' : α → List Event → Prop} (hx : Ensures log x post)
    (h : ∀ a log', post a log' → post'' a log') : Ensures log x post'' :=
  fun w => h _ _ (hx w)

theorem map {x : StateM (σ × List Event) α} {f : α → β} (hx : Ensures log x fun a log' => post' (f a) log') :
    Ensures log (f <$> x) post' :=
  hx

end Ensures

namespace Run

variable (host : Host (StateM σ)) {log : List Event}

theorem isStopped_ensures : Ensures log host.recorded.isStopped fun _ log' => log' = log :=
  fun _ => rfl

theorem waitForStep_ensures (p : Processor) :
    Ensures log (host.recorded.waitForStep p) fun command log' => log' = log ++ [.step command] :=
  fun _ => rfl

theorem waitForResume_ensures (p : Processor) :
    Ensures log (host.recorded.waitForResume p) fun command log' => log' = log ++ [.resume command] :=
  fun _ => rfl

theorem observe_ensures (p : Processor) (tick : Tick) (schedule : Schedule) :
    Ensures log (host.recorded.observe p tick schedule) fun _ log' => log' = log ++ [.observed tick] :=
  fun _ => rfl

theorem pause_ensures (nanoseconds : Nat) :
    Ensures log (host.recorded.pause nanoseconds) fun _ log' => log' = log :=
  fun _ => rfl

theorem delay_ensures (remaining : Nat) : Ensures log (delay host.recorded remaining) fun _ log' => log' = log := by
  induction remaining using Nat.strongRecOn generalizing log with
  | ind remaining ih =>
    unfold delay
    split
    · exact Ensures.map (isStopped_ensures host)
    · rename_i hne
      refine Ensures.bind (isStopped_ensures host) ?_
      rintro raised log' rfl
      split
      · exact Ensures.pure rfl
      · refine Ensures.bind (pause_ensures host _) ?_
        rintro _ log'' rfl
        exact ih _ (sub_nextPause_lt hne)

/-- Being told to quit does not end a program. -/
theorem quit_ensures (r : Run) :
    Ensures log (quit host.recorded r) fun progress log' =>
      ∃ reason, progress = .over r reason ∧ reason ≠ .endOfProgram ∧ log' = log := by
  refine Ensures.bind (isStopped_ensures host) ?_
  rintro raised log' rfl
  refine Ensures.pure ⟨_, rfl, ?_, rfl⟩
  cases raised <;> simp

theorem randomize_ensures {r : Run} (h : r.randomAddress = none) :
    Ensures log (randomize host.recorded r) fun r' log' => r' = r ∧ log' = log := by
  unfold randomize
  rw [h]
  exact Ensures.pure ⟨rfl, rfl⟩

end Run

end Mos6502
