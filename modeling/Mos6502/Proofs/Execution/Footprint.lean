import Mathlib.Data.Set.Basic
import Mos6502.Proofs.Registers

/-!
# The cells that an instruction touches

Which cells an instruction reads, pulls and writes, apart from the cells it is fetched from.  The key fact: of two
machines with equal registers whose memories agree on the cells that an instruction reads and pulls, it makes two
machines with equal registers again, and reports the same (`perform_agree`).  The policies for pulled cells may differ,
so the cells that are pulled need not agree afterwards, while those that are written do.
-/

namespace Mos6502

/-! ### Stale cells -/

/-- The cells that are stale once some have been written and others pulled. -/
def staleAfter (stale : Set UInt16) (written pulled : List UInt16) : Set UInt16 :=
  { a | a ∈ pulled ∨ (a ∈ stale ∧ a ∉ written) }

variable {s : Set UInt16}

theorem staleAfter_nil : staleAfter s [] [] = s := by
  ext a
  simp [staleAfter]

theorem staleAfter_written (w w' : List UInt16) : staleAfter (staleAfter s w []) w' [] = staleAfter s (w ++ w') [] := by
  ext a
  simp [staleAfter, and_assoc]

theorem staleAfter_pulled (l l' : List UInt16) : staleAfter (staleAfter s [] l) [] l' = staleAfter s [] (l' ++ l) := by
  ext a
  simp [staleAfter, or_assoc]

/-! ### Agreement -/

/-- Two memories that agree outside a set of cells, whatever their policies. -/
def Memory.AgreeOutside (s : Set UInt16) (m m' : Memory) : Prop :=
  ∀ a ∉ s, m.get a = m'.get a

/-- Two machines with equal registers whose memories agree outside a set of cells. -/
structure Machine.AgreeOutside (s : Set UInt16) (m m' : Machine) : Prop where
  registers : m.registers = m'.registers
  memory : m.memory.AgreeOutside s m'.memory

/-- A cell that is written in both memories is not stale any more. -/
theorem Memory.AgreeOutside.set {m m' : Memory} (h : m.AgreeOutside s m') (a : UInt16) (byte : UInt8) :
    (m.set a byte).AgreeOutside (staleAfter s [a] []) (m'.set a byte) := by
  intro b hb
  rw [get_set, get_set]
  by_cases hba : b = a
  · rw [if_pos hba, if_pos hba]
  · rw [if_neg hba, if_neg hba]
    apply h b
    intro hs
    exact hb (Or.inr ⟨hs, by simpa using hba⟩)

theorem Memory.get_pop_ne (m : Memory) {pointer : UInt8} {a : UInt16} (h : a ≠ stackCell pointer) :
    (m.pop pointer).2.get a = m.get a := by
  unfold pop
  cases m.popPolicy with
  | preserve => rfl
  | clear => exact get_set_ne m h 0

namespace Machine

theorem push_agree {m m' : Machine} (h : m.AgreeOutside s m') (byte : UInt8) :
    (m.push byte).AgreeOutside (staleAfter s [stackCell m.registers.stackPointer] []) (m'.push byte) := by
  have hm := h.memory.set (stackCell m.registers.stackPointer) byte
  unfold push Memory.push
  rw [← h.registers]
  exact ⟨rfl, hm⟩

theorem pushWord_agree {m m' : Machine} (h : m.AgreeOutside s m') (w : UInt16) :
    (m.pushWord w).AgreeOutside
      (staleAfter s [stackCell m.registers.stackPointer, stackCell (m.registers.stackPointer - 1)] [])
      (m'.pushWord w) := by
  have h2 := push_agree (push_agree h (highByte w)) (lowByte w)
  rw [staleAfter_written] at h2
  exact h2

/-- Two machines that agree on the next cell to be pulled pull the same byte; that cell is stale from then on. -/
theorem pull_agree {m m' : Machine} (h : m.AgreeOutside s m')
    (hc : stackCell (m.registers.stackPointer + 1) ∉ s) :
    m.pull.1 = m'.pull.1 ∧
      m.pull.2.AgreeOutside (staleAfter s [] [stackCell (m.registers.stackPointer + 1)]) m'.pull.2 := by
  rw [pull_eq, pull_eq, ← h.registers]
  refine ⟨h.memory _ hc, rfl, ?_⟩
  intro a ha
  have hne : a ≠ stackCell (m.registers.stackPointer + 1) := by
    intro he
    exact ha (Or.inl (by simp [he]))
  have hs : a ∉ s := fun hs => ha (Or.inr ⟨hs, by simp⟩)
  rw [Memory.get_pop_ne _ hne, Memory.get_pop_ne _ hne]
  exact h.memory a hs

theorem interrupt_agree {m m' : Machine} (h : m.AgreeOutside s m') (address : UInt16) :
    (m.interrupt address).AgreeOutside
      (staleAfter s
        [stackCell m.registers.stackPointer, stackCell (m.registers.stackPointer - 1),
          stackCell (m.registers.stackPointer - 1 - 1)] [])
      (m'.interrupt address) := by
  have hw := pushWord_agree h address
  have hm : Machine.AgreeOutside _
      { m.pushWord address with registers := (m.pushWord address).registers.mark .break true }
      { m'.pushWord address with registers := (m'.pushWord address).registers.mark .break true } :=
    ⟨by rw [hw.registers], hw.memory⟩
  have hp := push_agree hm ((m.pushWord address).registers.mark .break true).status
  rw [staleAfter_written] at hp
  unfold interrupt
  dsimp only
  rw [← hw.registers] at hp ⊢
  exact hp

private theorem stackCell_ne_next (pointer : UInt8) : stackCell (pointer + 1) ≠ stackCell pointer := by
  revert pointer
  decide +kernel

theorem pullWord_agree {m m' : Machine} (h : m.AgreeOutside s m')
    (hlow : stackCell (m.registers.stackPointer + 1) ∉ s)
    (hhigh : stackCell (m.registers.stackPointer + 1 + 1) ∉ s) :
    m.pullWord.1 = m'.pullWord.1 ∧
      m.pullWord.2.AgreeOutside
        (staleAfter s []
          [stackCell (m.registers.stackPointer + 1 + 1), stackCell (m.registers.stackPointer + 1)]) m'.pullWord.2 := by
  obtain ⟨h1, ha⟩ := pull_agree h hlow
  have hc : stackCell (m.pull.2.registers.stackPointer + 1) ∉
      staleAfter s [] [stackCell (m.registers.stackPointer + 1)] := by
    rintro (hp | ⟨hs, -⟩)
    · exact stackCell_ne_next _ (List.mem_singleton.1 hp)
    · exact hhigh hs
  obtain ⟨h2, hb⟩ := pull_agree ha hc
  rw [staleAfter_pulled] at hb
  refine ⟨?_, hb⟩
  show word m.pull.1 m.pull.2.pull.1 = word m'.pull.1 m'.pull.2.pull.1
  rw [h1, h2]

end Machine

/-! ### The cells of an instruction -/

/-- The cells that hold the pointer of an indirect mode. -/
def AddressingMode.pointerCells (mode : AddressingMode) (r : Registers) : List UInt16 :=
  match mode with
  | .indexedIndirect p => [(p + r.indexX).toUInt16, (p + r.indexX + 1).toUInt16]
  | .indirectIndexed p => [p.toUInt16, (p + 1).toUInt16]
  | .indirect p => [p, p + 1]
  | _ => []

namespace Instruction

/-- The cell that holds the operand, if the work needs its value. -/
def operandCells (i : Instruction) (m : Machine) : Work → List UInt16
  | .load _ | .replace _ | .accumulate _ | .intersect | .test | .compare _ | .shiftRight => (i.target? m).toList
  | _ => []

/-- The stack cells that are pulled. -/
def pulledCells (r : Registers) : Work → List UInt16
  | .ret => [stackCell (r.stackPointer + 1 + 1), stackCell (r.stackPointer + 1)]
  | .pullAccumulator => [stackCell (r.stackPointer + 1)]
  | _ => []

/-- The cells that are written, those of bytes pushed among them. -/
def writtenCells (i : Instruction) (m : Machine) : Work → List UInt16
  | .store _ | .replace _ | .shiftRight => (i.target? m).toList
  | .pushAccumulator => [stackCell m.registers.stackPointer]
  | .call => [stackCell m.registers.stackPointer, stackCell (m.registers.stackPointer - 1)]
  | .interrupt =>
    [stackCell m.registers.stackPointer, stackCell (m.registers.stackPointer - 1),
      stackCell (m.registers.stackPointer - 1 - 1)]
  | _ => []

/-- The cells whose bytes matter to an instruction: those of its pointer, of its operand, and those it pulls. -/
def readCells (i : Instruction) (m : Machine) : List UInt16 :=
  i.mode.pointerCells m.registers ++ i.operandCells m i.mnemonic.work ++ pulledCells m.registers i.mnemonic.work

variable {i : Instruction} {m m' n : Machine} {fields : List Field}

/-- The effective address depends on the registers and the pointer only. -/
theorem target?_congr (h : m.AgreeOutside s m') (hp : ∀ a ∈ i.mode.pointerCells m.registers, a ∉ s) :
    i.target? m = i.target? m' := by
  unfold target? AddressingMode.effectiveAddress? AddressingMode.zeroPageWord Memory.getWord
  rw [← h.registers]
  cases hm : i.mode <;> try rfl
  case indexedIndirect p =>
    rw [hm] at hp
    have h1 := h.memory _ (hp (p + m.registers.indexX).toUInt16 (by simp [AddressingMode.pointerCells]))
    have h2 := h.memory _ (hp (p + m.registers.indexX + 1).toUInt16 (by simp [AddressingMode.pointerCells]))
    dsimp only
    rw [h1, h2]
  case indirectIndexed p =>
    rw [hm] at hp
    have h1 := h.memory _ (hp p.toUInt16 (by simp [AddressingMode.pointerCells]))
    have h2 := h.memory _ (hp (p + 1).toUInt16 (by simp [AddressingMode.pointerCells]))
    dsimp only
    rw [h1, h2]
  case indirect p =>
    rw [hm] at hp
    have h1 := h.memory _ (hp p (by simp [AddressingMode.pointerCells]))
    have h2 := h.memory _ (hp (p + 1) (by simp [AddressingMode.pointerCells]))
    dsimp only
    rw [h1, h2]

/-- What two machines are after an instruction that changed their registers alike and their memories not at all. -/
private theorem agree_registers (h : m.AgreeOutside s m') (r : Registers) :
    Machine.AgreeOutside (staleAfter s [] []) { m with registers := r } { m' with registers := r } := by
  rw [staleAfter_nil]
  exact ⟨rfl, h.memory⟩

private theorem agree_set (h : m.AgreeOutside s m') (r : Registers) (a : UInt16) (byte : UInt8) :
    Machine.AgreeOutside (staleAfter s [a] []) ⟨r, m.memory.set a byte⟩ ⟨r, m'.memory.set a byte⟩ :=
  ⟨rfl, h.memory.set a byte⟩

private theorem carryOut_agree {w : Work} (h : m.AgreeOutside s m') (ht : i.target? m = i.target? m')
    (ho : ∀ a ∈ i.operandCells m w, a ∉ s) (hp : ∀ a ∈ pulledCells m.registers w, a ∉ s)
    (hw : i.carryOut w m = .ok fields n) :
    ∃ n', i.carryOut w m' = .ok fields n' ∧
      n.AgreeOutside (staleAfter s (i.writtenCells m w) (pulledCells m.registers w)) n' := by
  have hr := h.registers
  cases w <;> rw [carryOut] at hw ⊢
  -- the operand is read, and no cell is written
  case load | accumulate | intersect | test | compare =>
    simp only [load_apply, accumulate_apply, intersect_apply, test_apply, compare_apply] at hw ⊢
    obtain ⟨a, ha, rfl, rfl⟩ := exists_target hw
    have hv : m.memory.get a = m'.memory.get a := h.memory a (ho a (by simp [operandCells, ha]))
    rw [ht] at ha
    rw [atOperand_some ha, ← hr, ← hv]
    exact ⟨_, rfl, agree_registers h _⟩
  -- a cell is written, and is not stale any more
  case store r =>
    rw [store_apply] at hw ⊢
    obtain ⟨a, ha, rfl, rfl⟩ := exists_target hw
    have hc : i.writtenCells m (.store r) = [a] := by simp [writtenCells, ha]
    rw [ht] at ha
    rw [atOperand_some ha, ← hr, hc]
    exact ⟨_, rfl, agree_set h _ a _⟩
  case replace change =>
    rw [replace_apply] at hw ⊢
    obtain ⟨a, ha, rfl, rfl⟩ := exists_target hw
    have hc : i.writtenCells m (.replace change) = [a] := by simp [writtenCells, ha]
    have hv : m.memory.get a = m'.memory.get a := h.memory a (ho a (by simp [operandCells, ha]))
    rw [ht] at ha
    rw [atOperand_some ha, ← hr, ← hv, hc]
    exact ⟨_, rfl, agree_set h _ a _⟩
  case shiftRight =>
    by_cases hm : i.mode = .accumulator
    · rw [shiftRight_accumulator _ hm] at hw ⊢
      obtain ⟨rfl, rfl⟩ := EStateM.Result.ok.inj hw
      have hc : i.writtenCells m .shiftRight = [] := by
        simp [writtenCells, target?, hm, AddressingMode.effectiveAddress?]
      rw [← hr, hc]
      exact ⟨_, rfl, agree_registers h _⟩
    · rw [shiftRight_apply _ hm] at hw ⊢
      obtain ⟨a, ha, rfl, rfl⟩ := exists_target hw
      have hc : i.writtenCells m .shiftRight = [a] := by simp [writtenCells, ha]
      have hv : m.memory.get a = m'.memory.get a := h.memory a (ho a (by simp [operandCells, ha]))
      rw [ht] at ha
      rw [atOperand_some ha, ← hr, ← hv, hc]
      exact ⟨_, rfl, agree_set h _ a _⟩
  -- only registers are read and changed
  case assign | setCarry | skip =>
    simp only [assign_apply, setCarry_apply, skip_apply] at hw ⊢
    obtain ⟨rfl, rfl⟩ := EStateM.Result.ok.inj hw
    rw [← hr]
    exact ⟨_, rfl, agree_registers h _⟩
  case jump =>
    rw [jump_apply] at hw ⊢
    obtain ⟨a, ha, rfl, rfl⟩ := exists_target hw
    rw [ht] at ha
    rw [atOperand_some ha, ← hr]
    exact ⟨_, rfl, agree_registers h _⟩
  case branch flag value =>
    rw [branch_apply] at hw ⊢
    rw [← hr]
    by_cases hf : m.registers.has flag = value
    · rw [if_pos hf] at hw ⊢
      obtain ⟨a, ha, rfl, rfl⟩ := exists_target hw
      rw [ht] at ha
      rw [atOperand_some ha]
      exact ⟨_, rfl, agree_registers h _⟩
    · rw [if_neg hf] at hw ⊢
      obtain ⟨rfl, rfl⟩ := EStateM.Result.ok.inj hw
      exact ⟨_, rfl, agree_registers h _⟩
  -- the stack: the cells pushed are not stale any more, those pulled are
  case call =>
    rw [call_apply] at hw ⊢
    obtain ⟨a, ha, rfl, rfl⟩ := exists_target hw
    have hg := Machine.pushWord_agree h (i.address + UInt16.ofNat i.mode.kind.operandLength)
    rw [ht] at ha
    rw [atOperand_some ha, ← hg.registers]
    exact ⟨_, rfl, rfl, hg.memory⟩
  case ret =>
    rw [ret_apply] at hw ⊢
    obtain ⟨rfl, rfl⟩ := EStateM.Result.ok.inj hw
    obtain ⟨hv, hg⟩ := Machine.pullWord_agree h (hp _ (by simp [pulledCells])) (hp _ (by simp [pulledCells]))
    rw [← hv, ← hg.registers]
    exact ⟨_, rfl, rfl, hg.memory⟩
  case pushAccumulator =>
    rw [pushAccumulator_apply] at hw ⊢
    obtain ⟨rfl, rfl⟩ := EStateM.Result.ok.inj hw
    have hg := Machine.push_agree h m.registers.accumulator
    rw [← hr, ← hg.registers]
    exact ⟨_, rfl, rfl, hg.memory⟩
  case pullAccumulator =>
    rw [pullAccumulator_apply] at hw ⊢
    obtain ⟨rfl, rfl⟩ := EStateM.Result.ok.inj hw
    obtain ⟨hv, hg⟩ := Machine.pull_agree h (hp _ (by simp [pulledCells]))
    rw [← hv, ← hg.registers]
    exact ⟨_, rfl, rfl, hg.memory⟩
  case interrupt =>
    rw [interrupt_apply] at hw ⊢
    obtain ⟨rfl, rfl⟩ := EStateM.Result.ok.inj hw
    have hg := Machine.interrupt_agree h (i.address + 2)
    rw [← hg.registers]
    exact ⟨_, rfl, rfl, hg.memory⟩

/-- Two machines that agree on the cells an instruction reads agree after it, and it reports the same. -/
theorem perform_agree (h : m.AgreeOutside s m') (hc : ∀ a ∈ i.readCells m, a ∉ s)
    (hp : i.perform m = .ok fields n) :
    i.target? m = i.target? m' ∧
      ∃ n', i.perform m' = .ok fields n' ∧
        n.AgreeOutside
          (staleAfter s (i.writtenCells m i.mnemonic.work) (pulledCells m.registers i.mnemonic.work)) n' := by
  simp only [readCells, List.mem_append, or_imp, forall_and] at hc
  obtain ⟨⟨hpointer, hoperand⟩, hpulled⟩ := hc
  have ht := target?_congr h hpointer
  rw [perform_eq_carryOut] at hp ⊢
  exact ⟨ht, carryOut_agree h ht hoperand hpulled hp⟩

end Instruction

end Mos6502
