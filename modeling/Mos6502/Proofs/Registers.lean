import Mos6502.Proofs.Execution.Operation

/-!
# Flags and the stack

What marking a flag does to the bits of a status, and what pushing and pulling do to registers and cells.  Four bits of
the status are results of computations; the other four are its control bits, which only an interrupt touches
(`control_mark_break`).
-/

namespace Mos6502

/-! ### Bits of a status -/

theorem testBit_setFlag (status : UInt8) (flag : Flag) (value : Bool) {k : Nat} (hk : k < 8) :
    (setFlag status flag value).toNat.testBit k =
      if flag.mask.toNat.testBit k then value else status.toNat.testBit k := by
  have hn : (~~~flag.mask).toNat.testBit k = !flag.mask.toNat.testBit k := by
    revert k
    cases flag <;> decide
  unfold setFlag
  cases value with
  | true =>
    rw [if_pos rfl, UInt8.toNat_or, Nat.testBit_or]
    cases flag.mask.toNat.testBit k <;> simp
  | false =>
    rw [if_neg Bool.false_ne_true, UInt8.toNat_and, Nat.testBit_and, hn]
    cases flag.mask.toNat.testBit k <;> simp

/-- Whether a flag is the result of a computation. -/
def Flag.isComputed : Flag → Bool
  | .negative | .overflow | .zero | .carry => true
  | .break | .decimal | .interrupt => false

namespace Registers

/-- The bits of the status that are not results of computations. -/
def control (r : Registers) : UInt8 :=
  r.status &&& 0x3c

theorem control_mark {flag : Flag} (h : flag.isComputed = true) (r : Registers) (value : Bool) :
    (r.mark flag value).control = r.control := by
  obtain ⟨_, _, _, status, _, _⟩ := r
  unfold control mark
  dsimp only
  revert status
  cases flag <;> cases h <;> cases value <;> decide +kernel

theorem control_mark_break (r : Registers) (value : Bool) :
    (r.mark .break value).control = if value then r.control ||| 0x10 else r.control &&& 0x2c := by
  obtain ⟨_, _, _, status, _, _⟩ := r
  unfold control mark
  dsimp only
  revert status
  cases value <;> decide +kernel

variable (r : Registers)

@[simp] theorem control_put (register : Register) (value : UInt8) : (r.put register value).control = r.control := by
  cases register <;> rfl

@[simp] theorem control_markValue (value : UInt8) : (r.markValue value).control = r.control := by
  unfold markValue
  rw [control_mark rfl, control_mark rfl]

@[simp] theorem control_assign (register : Register) (value : UInt8) :
    (r.assign register value).control = r.control := by
  unfold assign
  rw [control_markValue, control_put]

@[simp] theorem control_total (s : ByteSum) : (r.total s).control = r.control := by
  unfold total
  rw [control_assign, control_mark rfl, control_mark rfl]

@[simp] theorem control_test (byte : UInt8) : (r.test byte).control = r.control := by
  unfold test
  rw [control_mark rfl, control_mark rfl, control_mark rfl]

@[simp] theorem control_compare (c : ByteComparison) : (r.compare c).control = r.control := by
  unfold compare
  rw [control_mark rfl, control_mark rfl, control_mark rfl]

@[simp] theorem control_halve (byte : UInt8) : (r.halve byte).control = r.control := by
  unfold halve
  rw [control_markValue, control_mark rfl]

@[simp] theorem control_goTo (address : UInt16) : (r.goTo address).control = r.control := rfl

@[simp] theorem control_advance (length : Nat) : (r.advance length).control = r.control := rfl

end Registers

/-! ### The stack -/

theorem toNat_stackCell (pointer : UInt8) : (stackCell pointer).toNat = 256 + pointer.toNat := by
  revert pointer
  decide +kernel

theorem Memory.popPolicy_pop (m : Memory) (pointer : UInt8) : (m.pop pointer).2.popPolicy = m.popPolicy := by
  unfold Memory.pop
  cases h : m.popPolicy <;> exact h

namespace Machine

variable (m : Machine)

/-- The byte above the stack pointer is pulled, and the stack pointer moves up. -/
theorem pull_eq :
    m.pull = (m.memory.get (stackCell (m.registers.stackPointer + 1)),
      { memory := (m.memory.pop (m.registers.stackPointer + 1)).2
        registers := { m.registers with stackPointer := m.registers.stackPointer + 1 } }) := by
  unfold Machine.pull Memory.pop
  cases m.memory.popPolicy <;> rfl

theorem popPolicy_pull : m.pull.2.memory.popPolicy = m.memory.popPolicy := by
  rw [pull_eq]
  exact Memory.popPolicy_pop _ _

@[simp] theorem control_push (byte : UInt8) : (m.push byte).registers.control = m.registers.control := rfl

@[simp] theorem control_pushWord (w : UInt16) : (m.pushWord w).registers.control = m.registers.control := rfl

@[simp] theorem control_pull : m.pull.2.registers.control = m.registers.control := rfl

@[simp] theorem control_pullWord : m.pullWord.2.registers.control = m.registers.control := rfl

theorem control_interrupt (address : UInt16) :
    (m.interrupt address).registers.control = m.registers.control ||| 0x10 :=
  Registers.control_mark_break m.registers true

end Machine

end Mos6502
