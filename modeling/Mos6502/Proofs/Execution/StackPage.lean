import Mathlib.Data.List.Infix
import Mos6502.Proofs.Execution.CallStack

/-!
# The stack page as a list

Requests push and pull bytes in any order.  As long as every pull is covered by a push (`PullsCovered`) and never more
than 256 bytes are on the stack (`PushesFit`), the stack page does what a list does: its bytes are the ones on the list,
each in the cell it was pushed to (`stacked_requests`).  No other cell is touched (`get_requests`), and a cell that has
been pulled stays as the policy for pulled cells leaves it (`get_pulled`).
-/

namespace Mos6502

/-- What is asked of the stack. -/
inductive StackRequest where
  | push (byte : UInt8)
  | pull
  deriving DecidableEq, Repr

namespace StackRequest

/-- The number of bytes that are pushed. -/
def pushes (requests : List StackRequest) : Nat :=
  requests.countP (· != .pull)

/-- The number of bytes that are pulled. -/
def pulls (requests : List StackRequest) : Nat :=
  requests.count .pull

/-- A list of bytes after a request, the last pushed first. -/
def onList (bytes : List UInt8) : StackRequest → List UInt8
  | .push byte => byte :: bytes
  | .pull => bytes.tail

/-- The bytes on a list that was empty before some requests. -/
def listed (requests : List StackRequest) : List UInt8 :=
  requests.foldl onList []

/-- Every pull is covered by a push, or by one of the bytes that are on the stack already. -/
def PullsCovered (depth : Nat) (requests : List StackRequest) : Prop :=
  ∀ done, done <+: requests → pulls done ≤ depth + pushes done

/-- There are never more than 256 bytes on the stack, those that are there already among them. -/
def PushesFit (depth : Nat) (requests : List StackRequest) : Prop :=
  ∀ done, done <+: requests → depth + pushes done ≤ pulls done + 256

variable {depth : Nat} {byte : UInt8} {requests : List StackRequest}

instance : Decidable (PullsCovered depth requests) :=
  decidable_of_iff (∀ done ∈ requests.inits, pulls done ≤ depth + pushes done) (by simp [PullsCovered])

instance : Decidable (PushesFit depth requests) :=
  decidable_of_iff (∀ done ∈ requests.inits, depth + pushes done ≤ pulls done + 256) (by simp [PushesFit])

theorem covered_of_isPrefix {done : List StackRequest} (h : PullsCovered depth requests) (hp : done <+: requests) :
    PullsCovered depth done :=
  fun inner hi => h inner (hi.trans hp)

theorem fit_of_isPrefix {done : List StackRequest} (h : PushesFit depth requests) (hp : done <+: requests) :
    PushesFit depth done :=
  fun inner hi => h inner (hi.trans hp)

@[simp] theorem pushes_push : pushes (.push byte :: requests) = pushes requests + 1 :=
  List.countP_cons_of_pos (by rfl)

@[simp] theorem pushes_pull : pushes (.pull :: requests) = pushes requests :=
  List.countP_cons_of_neg (by decide)

@[simp] theorem pulls_push : pulls (.push byte :: requests) = pulls requests :=
  List.count_cons_of_ne (by simp)

@[simp] theorem pulls_pull : pulls (.pull :: requests) = pulls requests + 1 :=
  List.count_cons_self

theorem pushes_append (done rest : List StackRequest) : pushes (done ++ rest) = pushes done + pushes rest :=
  List.countP_append

theorem pulls_append (done rest : List StackRequest) : pulls (done ++ rest) = pulls done + pulls rest :=
  List.count_append

theorem covered_push (h : PullsCovered depth (.push byte :: requests)) : PullsCovered (depth + 1) requests := by
  intro done hdone
  have hd := h (.push byte :: done) (List.cons_prefix_cons.2 ⟨rfl, hdone⟩)
  rw [pulls_push, pushes_push] at hd
  omega

theorem covered_pull (h : PullsCovered depth (.pull :: requests)) :
    ∃ rest, depth = rest + 1 ∧ PullsCovered rest requests := by
  have h0 := h [.pull] (List.cons_prefix_cons.2 ⟨rfl, List.nil_prefix⟩)
  rw [pulls_pull, pushes_pull] at h0
  obtain ⟨rest, rfl⟩ : ∃ rest, depth = rest + 1 :=
    Nat.exists_eq_succ_of_ne_zero (by simp [pulls, pushes] at h0; omega)
  refine ⟨rest, rfl, ?_⟩
  intro done hdone
  have hd := h (.pull :: done) (List.cons_prefix_cons.2 ⟨rfl, hdone⟩)
  rw [pulls_pull, pushes_pull] at hd
  omega

theorem fit_push (h : PushesFit depth (.push byte :: requests)) : depth < 256 ∧ PushesFit (depth + 1) requests := by
  have h0 := h [.push byte] (List.cons_prefix_cons.2 ⟨rfl, List.nil_prefix⟩)
  refine ⟨by simp [pulls, pushes] at h0; omega, ?_⟩
  intro done hdone
  have hd := h (.push byte :: done) (List.cons_prefix_cons.2 ⟨rfl, hdone⟩)
  rw [pulls_push, pushes_push] at hd
  omega

theorem fit_pull (h : PushesFit (depth + 1) (.pull :: requests)) : PushesFit depth requests := by
  intro done hdone
  have hd := h (.pull :: done) (List.cons_prefix_cons.2 ⟨rfl, hdone⟩)
  rw [pulls_pull, pushes_pull] at hd
  omega

/-! ### The list -/

/-- Covered pulls leave what is below alone. -/
theorem foldl_onList_append {above below : List UInt8} (h : PullsCovered above.length requests) :
    requests.foldl onList (above ++ below) = requests.foldl onList above ++ below := by
  induction requests generalizing above with
  | nil => rfl
  | cons request requests ih =>
    cases request with
    | push byte => exact ih (show PullsCovered (byte :: above).length requests from covered_push h)
    | pull =>
      obtain ⟨rest, hrest, hr⟩ := covered_pull h
      obtain ⟨byte, above, rfl⟩ := List.exists_cons_of_length_eq_add_one hrest
      obtain rfl : above.length = rest := Nat.succ.inj hrest
      exact ih hr

theorem length_foldl_onList {bytes : List UInt8} (h : PullsCovered bytes.length requests) :
    (requests.foldl onList bytes).length + pulls requests = bytes.length + pushes requests := by
  induction requests generalizing bytes with
  | nil => rfl
  | cons request requests ih =>
    cases request with
    | push byte =>
      have hl := ih (show PullsCovered (byte :: bytes).length requests from covered_push h)
      rw [List.length_cons] at hl
      rw [pulls_push, pushes_push, List.foldl_cons, onList]
      omega
    | pull =>
      obtain ⟨rest, hrest, hr⟩ := covered_pull h
      obtain ⟨byte, bytes, rfl⟩ := List.exists_cons_of_length_eq_add_one hrest
      obtain rfl : bytes.length = rest := Nat.succ.inj hrest
      have hl := ih hr
      rw [pulls_pull, pushes_pull, List.foldl_cons, onList, List.tail_cons, List.length_cons]
      omega

theorem length_listed (h : PullsCovered 0 requests) : (listed requests).length + pulls requests = pushes requests := by
  have hl := length_foldl_onList (show PullsCovered [].length requests from h)
  rwa [List.length_nil, Nat.zero_add] at hl

end StackRequest

open StackRequest

/-- A cell that is pulled becomes what the policy says. -/
theorem Memory.get_pop_self (m : Memory) (pointer : UInt8) :
    (m.pop pointer).2.get (stackCell pointer) =
      match m.popPolicy with
      | .preserve => m.get (stackCell pointer)
      | .clear => 0 := by
  unfold pop
  cases m.popPolicy with
  | preserve => rfl
  | clear => exact get_set_self m _ 0

namespace Machine

/-! ### The stack page -/

/-- The machine after a request to its stack. -/
def onStack (m : Machine) : StackRequest → Machine
  | .push byte => m.push byte
  | .pull => m.pull.2

/-- The machine after some requests to its stack. -/
def served (m : Machine) (requests : List StackRequest) : Machine :=
  requests.foldl onStack m

/-- The stack pointers where requests push, one for each push. -/
def pushedAt (m : Machine) : List StackRequest → List UInt8
  | [] => []
  | .push byte :: requests => m.registers.stackPointer :: (m.push byte).pushedAt requests
  | .pull :: requests => m.pull.2.pushedAt requests

variable {m₀ m : Machine} {bytes : List UInt8} {requests : List StackRequest} {a : UInt16}

/-- After requests the bytes on the stack are the ones on the list. -/
theorem stacked_requests (h : Stacked m₀ m bytes) (hc : PullsCovered bytes.length requests)
    (hf : PushesFit bytes.length requests) :
    Stacked m₀ (requests.foldl onStack m) (requests.foldl onList bytes) := by
  induction requests generalizing m bytes with
  | nil => exact h
  | cons request requests ih =>
    cases request with
    | push byte =>
      obtain ⟨hlt, hf⟩ := fit_push hf
      exact ih (stacked_push h hlt byte) (covered_push hc) hf
    | pull =>
      obtain ⟨rest, hrest, hc⟩ := covered_pull hc
      obtain ⟨byte, bytes, rfl⟩ := List.exists_cons_of_length_eq_add_one hrest
      obtain rfl : bytes.length = rest := Nat.succ.inj hrest
      exact ih (stacked_pull h).2 hc (fit_pull hf)

theorem popPolicy_served (m : Machine) (requests : List StackRequest) :
    (m.served requests).memory.popPolicy = m.memory.popPolicy := by
  induction requests generalizing m with
  | nil => rfl
  | cons request requests ih =>
    refine (ih (m.onStack request)).trans ?_
    cases request with
    | push byte => rfl
    | pull => exact m.popPolicy_pull

/-- A cell that holds no byte on the stack and is not pushed to keeps its value. -/
theorem get_requests {depth : Nat} (hc : PullsCovered depth requests)
    (hopen : ∀ k < depth, a ≠ stackCell (m.registers.stackPointer + 1 + UInt8.ofNat k))
    (hpushed : ∀ pointer ∈ m.pushedAt requests, a ≠ stackCell pointer) :
    (m.served requests).memory.get a = m.memory.get a := by
  induction requests generalizing m depth with
  | nil => rfl
  | cons request requests ih =>
    cases request with
    | push byte =>
      have hne : a ≠ stackCell m.registers.stackPointer := hpushed _ List.mem_cons_self
      refine (ih (m := m.push byte) (covered_push hc) ?_ ?_).trans (Memory.get_set_ne _ hne _)
      · intro k hk
        show a ≠ stackCell (m.registers.stackPointer - 1 + 1 + UInt8.ofNat k)
        rw [UInt8.sub_add_cancel]
        cases k with
        | zero => simpa using hne
        | succ k =>
          rw [ofNat_succ, ← UInt8.add_assoc]
          exact hopen k (Nat.lt_of_succ_lt_succ hk)
      · intro pointer hp
        exact hpushed pointer (List.mem_cons_of_mem _ hp)
    | pull =>
      obtain ⟨rest, rfl, hr⟩ := covered_pull hc
      have hne : a ≠ stackCell (m.registers.stackPointer + 1) := by simpa using hopen 0 (Nat.succ_pos _)
      refine (ih (m := m.pull.2) hr ?_ hpushed).trans ?_
      · intro k hk
        have ho := hopen (k + 1) (Nat.succ_lt_succ hk)
        rw [ofNat_succ, ← UInt8.add_assoc] at ho
        exact ho
      · rw [pull_eq]
        exact Memory.get_pop_ne _ hne

/-- A cell that is not pushed to keeps its value if pulling it would not change it. -/
theorem get_settled (hv : m.memory.popPolicy = .preserve ∨ m.memory.get a = 0)
    (hpushed : ∀ pointer ∈ m.pushedAt requests, a ≠ stackCell pointer) :
    (m.served requests).memory.get a = m.memory.get a := by
  induction requests generalizing m with
  | nil => rfl
  | cons request requests ih =>
    cases request with
    | push byte =>
      have hne : a ≠ stackCell m.registers.stackPointer := hpushed _ List.mem_cons_self
      have hget : (m.push byte).memory.get a = m.memory.get a := Memory.get_set_ne _ hne _
      refine (ih (m := m.push byte) ?_ ?_).trans hget
      · rw [hget]
        exact hv
      · intro pointer hp
        exact hpushed pointer (List.mem_cons_of_mem _ hp)
    | pull =>
      have hget : m.pull.2.memory.get a = m.memory.get a := by
        rw [pull_eq]
        by_cases ha : a = stackCell (m.registers.stackPointer + 1)
        · rw [ha, Memory.get_pop_self, ← ha]
          rcases hv with hp | h0
          · rw [hp]
          · rw [h0]
            cases m.memory.popPolicy <;> rfl
        · exact Memory.get_pop_ne _ ha
      refine (ih (m := m.pull.2) ?_ hpushed).trans hget
      rw [hget]
      exact hv.imp_left m.popPolicy_pull.trans

/-! ### Requests from the start -/

theorem served_append (m : Machine) (done rest : List StackRequest) :
    m.served (done ++ rest) = (m.served done).served rest :=
  List.foldl_append

theorem stacked_served (hc : PullsCovered 0 requests) (hf : PushesFit 0 requests) :
    Stacked m (m.served requests) (listed requests) :=
  stacked_requests (stacked_refl m) hc hf

/-- A covered pull returns the head of the list. -/
private theorem pull_served (hc : PullsCovered 0 (requests ++ [.pull])) (hf : PushesFit 0 (requests ++ [.pull])) :
    some (m.served requests).pull.1 = (listed requests).head? := by
  have hp : requests <+: requests ++ [.pull] := List.prefix_append _ _
  have hs := stacked_served (m := m) (covered_of_isPrefix hc hp) (fit_of_isPrefix hf hp)
  have hlength := length_listed (covered_of_isPrefix hc hp)
  have hcovered := hc _ (List.prefix_refl _)
  cases hl : listed requests with
  | nil =>
    rw [pulls_append, pushes_append] at hcovered
    simp only [hl, pulls, pushes, List.length_nil] at hcovered hlength
    simp at hcovered
    omega
  | cons byte bytes =>
    rw [hl] at hs
    rw [(stacked_pull hs).1]
    rfl

/-- A byte whose pull is still to come is in the cell it was pushed to. -/
private theorem get_outstanding {before after : List StackRequest} {byte : UInt8}
    (hc : PullsCovered 0 (before ++ .push byte :: after)) (hf : PushesFit 0 (before ++ .push byte :: after))
    (ha : PullsCovered 0 after) :
    (m.served (before ++ .push byte :: after)).memory.get (stackCell (m.served before).registers.stackPointer) =
      byte := by
  have hp : before <+: before ++ .push byte :: after := List.prefix_append _ _
  have hs := stacked_served (m := m) hc hf
  have hb := (stacked_served (m := m) (covered_of_isPrefix hc hp) (fit_of_isPrefix hf hp)).pointer
  have hl : listed (before ++ .push byte :: after) = listed after ++ byte :: listed before := by
    rw [listed, List.foldl_append, List.foldl_cons]
    exact foldl_onList_append (show PullsCovered [].length after from ha)
  rw [hl] at hs
  have hk : (listed after).length < (listed after ++ byte :: listed before).length := by simp
  have hcell := hs.cells _ hk
  have hpointer := hs.pointer
  rw [List.getElem_append_right (Nat.le_refl _)] at hcell
  -- what lies below the byte is what was there when it was pushed
  have hsame : (m.served (before ++ .push byte :: after)).registers.stackPointer + 1 +
      UInt8.ofNat (listed after).length = (m.served before).registers.stackPointer := by
    rw [← hb, List.length_append, List.length_cons, UInt8.ofNat_add, ofNat_succ] at hpointer
    rw [← UInt8.add_left_inj (UInt8.ofNat (listed before).length), ← hpointer]
    ac_rfl
  rw [hsame] at hcell
  simpa using hcell

/-- A cell that has been pulled and not pushed to since is as the policy leaves it. -/
private theorem get_pulled {before after : List StackRequest}
    (h : (m.served before).registers.stackPointer + 1 ∉ (m.served (before ++ [.pull])).pushedAt after) :
    (m.served (before ++ .pull :: after)).memory.get (stackCell ((m.served before).registers.stackPointer + 1)) =
      match m.memory.popPolicy with
      | .preserve => (m.served before).memory.get (stackCell ((m.served before).registers.stackPointer + 1))
      | .clear => 0 := by
  have hpull : (m.served (before ++ [.pull])).memory =
      ((m.served before).memory.pop ((m.served before).registers.stackPointer + 1)).2 := by
    rw [served_append]
    exact congrArg (fun r : UInt8 × Machine => r.2.memory) (pull_eq _)
  have hself := Memory.get_pop_self (m.served before).memory ((m.served before).registers.stackPointer + 1)
  rw [← hpull, popPolicy_served] at hself
  rw [← hself, List.append_cons, served_append]
  refine get_settled ?_ ?_
  · rw [popPolicy_served, hself]
    cases m.memory.popPolicy with
    | preserve => exact Or.inl rfl
    | clear => exact Or.inr rfl
  · intro pointer hp he
    rw [stackCell_injective he] at h
    exact h hp

/-- The stack page is a list of bytes.  Wherever the stack pointer was, as long as every pull is covered by a push and
never more than 256 bytes are on the stack, each pull returns the head of the list; the stack pointer has moved down by
the number of bytes on the list; a byte whose pull is still to come is in the cell it was pushed to; the cells that were
never pushed to, in the stack page and outside of it, keep their values; and a cell that has been pulled and not pushed
to since keeps its value or is zero, as the policy says. -/
theorem served_as_list (m : Machine) {requests done rest : List StackRequest} (hc : PullsCovered 0 requests)
    (hf : PushesFit 0 requests) (hsplit : requests = done ++ rest) :
    (∀ later, rest = .pull :: later → some (m.served done).pull.1 = (listed done).head?) ∧
    (m.served done).registers.stackPointer =
      m.registers.stackPointer - UInt8.ofNat (pushes done - pulls done) ∧
    (∀ before byte after, done = before ++ .push byte :: after → PullsCovered 0 after →
      (m.served done).memory.get (stackCell (m.served before).registers.stackPointer) = byte) ∧
    (∀ a : UInt16,
      (0x0100 ≤ a.toNat ∧ a.toNat ≤ 0x01ff → ∀ pointer ∈ m.pushedAt done, a ≠ stackCell pointer) →
        (m.served done).memory.get a = m.memory.get a) ∧
    (∀ before after, done = before ++ .pull :: after →
      (m.served before).registers.stackPointer + 1 ∉ (m.served (before ++ [.pull])).pushedAt after →
        (m.served done).memory.get (stackCell ((m.served before).registers.stackPointer + 1)) =
          match m.memory.popPolicy with
          | .preserve => (m.served before).memory.get (stackCell ((m.served before).registers.stackPointer + 1))
          | .clear => 0) := by
  have hdone : done <+: requests := hsplit ▸ List.prefix_append done rest
  have hcd := covered_of_isPrefix hc hdone
  have hfd := fit_of_isPrefix hf hdone
  refine ⟨?_, ?_, ?_, ?_, ?_⟩
  · rintro later rfl
    have hp : done ++ [.pull] <+: requests := ⟨later, by rw [hsplit, List.append_cons done .pull later]⟩
    exact pull_served (covered_of_isPrefix hc hp) (fit_of_isPrefix hf hp)
  · have hpointer := (stacked_served (m := m) hcd hfd).pointer
    have hlength : (listed done).length = pushes done - pulls done := by
      have hl := length_listed hcd
      omega
    rw [← hpointer, hlength, UInt8.add_sub_cancel]
  · rintro before byte after rfl ha
    exact get_outstanding hcd hfd ha
  · intro a ha
    refine get_requests hcd (fun k hk => absurd hk (Nat.not_lt_zero k)) ?_
    rintro pointer hp rfl
    have hcell := toNat_stackCell pointer
    have hlt := pointer.toNat_lt
    exact ha ⟨by omega, by omega⟩ pointer hp rfl
  · rintro before after rfl h
    exact get_pulled h

/-- Two bytes pushed where the stack pointer passes from one end of its page to the other: the second is pulled and its
cell zeroed, and the first comes next. -/
theorem served_as_list_at_wrap :
    some (served { registers := { Registers.initial 0x0600 with stackPointer := 0 }, memory := .blank .clear }
        [.push 0xaa, .push 0xbb, .pull]).pull.1 = some 0xaa ∧
      (served { registers := { Registers.initial 0x0600 with stackPointer := 0 }, memory := .blank .clear }
        [.push 0xaa, .push 0xbb, .pull]).registers.stackPointer = 0xff ∧
      (served { registers := { Registers.initial 0x0600 with stackPointer := 0 }, memory := .blank .clear }
        [.push 0xaa, .push 0xbb, .pull]).memory.get 0x01ff = 0 := by
  have hpolicy : (Memory.blank .clear).popPolicy = .clear := rfl
  generalize Memory.blank .clear = memory at hpolicy ⊢
  have h := served_as_list { registers := { Registers.initial 0x0600 with stackPointer := 0 }, memory }
    (show PullsCovered 0 [.push 0xaa, .push 0xbb, .pull, .pull] by decide) (by decide)
    (show _ = [.push 0xaa, .push 0xbb, .pull] ++ [.pull] from rfl)
  obtain ⟨hpull, hpointer, -, -, hpulled⟩ := h
  refine ⟨hpull [] rfl, hpointer, ?_⟩
  have hcell := hpulled [.push 0xaa, .push 0xbb] [] rfl List.not_mem_nil
  rw [hpolicy] at hcell
  have hlast : stackCell (0 - 1 - 1 + 1) = 0x01ff := by decide
  rw [← hlast]
  exact hcell

end Machine

end Mos6502
