import Mos6502.Proofs.Reference.Table
import Mos6502.Proofs.Registers

/-!
# Machines as reference states

A machine seen as a state of the reference instruction set, and what marking flags, storing, pushing and pulling are
in that view.  The key facts: the view loses nothing (`view_injective`), a stored byte is an updated cell
(`view_set`), and pushing and pulling are those of the reference (`view_push`, `view_pull`).
-/

namespace Mos6502

namespace Reference

/-! ### Flags -/

namespace Flags

/-- The flags in a status. -/
def ofStatus (status : UInt8) : Flags where
  negative := status.toNat.testBit 7
  overflow := status.toNat.testBit 6
  unused := status.toNat.testBit 5
  brk := status.toNat.testBit 4
  decimal := status.toNat.testBit 3
  interrupt := status.toNat.testBit 2
  zero := status.toNat.testBit 1
  carry := status.toNat.testBit 0

/-- One of the flags. -/
def get (f : Flags) : Flag → Bool
  | .negative => f.negative
  | .overflow => f.overflow
  | .break => f.brk
  | .decimal => f.decimal
  | .interrupt => f.interrupt
  | .zero => f.zero
  | .carry => f.carry

/-- The flags with one of them replaced. -/
def put (f : Flags) (flag : Flag) (value : Bool) : Flags :=
  match flag with
  | .negative => { f with negative := value }
  | .overflow => { f with overflow := value }
  | .break => { f with brk := value }
  | .decimal => { f with decimal := value }
  | .interrupt => { f with interrupt := value }
  | .zero => { f with zero := value }
  | .carry => { f with carry := value }

theorem byte_ofStatus (status : UInt8) : (ofStatus status).byte = status.toNat := by
  revert status
  decide +kernel

theorem hasFlag_eq_get (status : UInt8) (flag : Flag) : hasFlag status flag = (ofStatus status).get flag := by
  revert status
  cases flag <;> decide +kernel

/-- Bit by bit, setting a flag in a status replaces that flag. -/
theorem ofStatus_setFlag (status : UInt8) (flag : Flag) (value : Bool) :
    ofStatus (setFlag status flag value) = (ofStatus status).put flag value := by
  simp (disch := decide) only [ofStatus, testBit_setFlag]
  cases flag <;> rfl

theorem ofStatus_injective {s t : UInt8} (h : ofStatus s = ofStatus t) : s = t := by
  apply UInt8.toNat.inj
  rw [← byte_ofStatus, ← byte_ofStatus, h]

end Flags

/-! ### States -/

/-- The cells of a memory, and zeros behind them. -/
def cell (m : Memory) (k : Nat) : Nat :=
  (m.cells[k]?.getD 0).toNat

/-- A machine as a state of the reference. -/
def view (m : Machine) : State where
  a := m.registers.accumulator.toNat
  x := m.registers.indexX.toNat
  y := m.registers.indexY.toNat
  flags := .ofStatus m.registers.status
  pc := m.registers.programCounter.toNat
  sp := m.registers.stackPointer.toNat
  cell := cell m.memory
  clears := m.memory.popPolicy == .clear

theorem cell_toNat (m : Memory) (address : UInt16) : cell m address.toNat = (m.get address).toNat := by
  have := address.toNat_lt
  rw [cell, Memory.get, Vector.getElem?_eq_getElem this]
  rfl

theorem cell_set (m : Memory) (address : UInt16) (byte : UInt8) :
    cell (m.set address byte) = Function.update (cell m) address.toNat byte.toNat := by
  have := address.toNat_lt
  funext k
  rw [Function.update_apply, cell, Memory.set, Vector.getElem?_set]
  by_cases h : k = address.toNat
  · rw [if_pos h, if_pos h.symm]
    rfl
  · rw [if_neg h, if_neg (Ne.symm h), cell]

private theorem cell_injective {m m' : Memory} (h : cell m = cell m') : m.cells = m'.cells := by
  apply Vector.ext
  intro k hk
  have hc := congrFun h k
  rw [cell, cell, Vector.getElem?_eq_getElem hk, Vector.getElem?_eq_getElem hk] at hc
  exact UInt8.toNat.inj hc

/-- Machines that look alike are equal: the view shows every register, every cell and the policy. -/
theorem view_injective {m m' : Machine} (h : view m = view m') : m = m' := by
  obtain ⟨⟨a, x, y, s, pc, sp⟩, ⟨cells, policy⟩⟩ := m
  obtain ⟨⟨a', x', y', s', pc', sp'⟩, ⟨cells', policy'⟩⟩ := m'
  simp only [view, State.mk.injEq] at h
  obtain ⟨ha, hx, hy, hs, hpc, hsp, hcell, hpolicy⟩ := h
  have hcells : cells = cells' := cell_injective hcell
  have hp : policy = policy' := by
    revert hpolicy
    cases policy <;> cases policy' <;> simp
  rw [UInt8.toNat.inj ha, UInt8.toNat.inj hx, UInt8.toNat.inj hy, Flags.ofStatus_injective hs, UInt16.toNat.inj hpc,
    UInt8.toNat.inj hsp, hcells, hp]

/-! ### Registers -/

namespace State

/-- A state with one of its registers of a byte replaced. -/
def put (s : State) (register : Register) (value : Nat) : State :=
  match register with
  | .accumulator => { s with a := value }
  | .indexX => { s with x := value }
  | .indexY => { s with y := value }

/-- One of the registers of a byte. -/
def get (s : State) : Register → Nat
  | .accumulator => s.a
  | .indexX => s.x
  | .indexY => s.y

/-- A state with the sign and zero of a byte among its flags. -/
def marked (s : State) (value : Nat) : State :=
  { s with flags := s.flags.of value }

end State

section

variable (m : Machine)

theorem toNat_get (register : Register) : (m.registers.get register).toNat = (view m).get register := by
  cases register <;> rfl

theorem has_eq_get (flag : Flag) : m.registers.has flag = (view m).flags.get flag :=
  Flags.hasFlag_eq_get m.registers.status flag

theorem view_put (register : Register) (value : UInt8) :
    view { m with registers := m.registers.put register value } = (view m).put register value.toNat := by
  cases register <;> rfl

theorem view_mark (flag : Flag) (value : Bool) :
    view { m with registers := m.registers.mark flag value } =
      { view m with flags := (view m).flags.put flag value } := by
  unfold view Registers.mark
  rw [Flags.ofStatus_setFlag]

theorem view_markValue (value : UInt8) :
    view { m with registers := m.registers.markValue value } = (view m).marked value.toNat := by
  unfold Registers.markValue
  rw [view_mark { m with registers := m.registers.mark .zero (isZero value) }, view_mark, isZero_eq_decide]
  rfl

theorem view_assign (register : Register) (value : UInt8) :
    view { m with registers := m.registers.assign register value } =
      ((view m).put register value.toNat).marked value.toNat := by
  unfold Registers.assign
  rw [view_markValue { m with registers := m.registers.put register value }, view_put]

theorem view_goTo (address : UInt16) :
    view { m with registers := m.registers.goTo address } = { view m with pc := address.toNat } := rfl

theorem view_advance (length : Nat) :
    view { m with registers := m.registers.advance length } =
      { view m with pc := ((view m).pc + length) % 65536 } := by
  have h : (m.registers.programCounter + UInt16.ofNat length).toNat =
      (m.registers.programCounter.toNat + length) % 65536 := by
    rw [UInt16.toNat_add, UInt16.toNat_ofNat']
    omega
  unfold view Registers.advance
  rw [h]

/-! ### Memory and stack -/

theorem view_set (address : UInt16) (byte : UInt8) :
    view { m with memory := m.memory.set address byte } = (view m).store address.toNat byte.toNat := by
  unfold view State.store
  rw [cell_set]
  rfl

/-- Pushing stores a byte in the cell of the stack pointer, which moves down. -/
theorem view_push (byte : UInt8) : view (m.push byte) = (view m).push byte.toNat := by
  unfold Machine.push Memory.push view State.push State.store
  rw [cell_set, toNat_stackCell, toNat_pred]
  rfl

theorem view_pushWord (w : UInt16) : view (m.pushWord w) = (view m).pushWord w.toNat := by
  have := w.toNat_lt
  have hh : (highByte w).toNat = w.toNat / 256 := by
    rw [highByte, UInt8.toNat_ofNat']
    omega
  have hl : (lowByte w).toNat = w.toNat % 256 := by
    rw [lowByte, UInt8.toNat_ofNat']
    omega
  rw [Machine.pushWord, view_push, view_push, hh, hl]
  rfl

/-- The byte pulled is the one above the stack pointer. -/
theorem toNat_pull : m.pull.1.toNat = (view m).top := by
  rw [Machine.pull_eq, ← cell_toNat, toNat_stackCell, toNat_succ]
  rfl

private theorem cell_pop (m : Memory) (pointer : UInt8) :
    cell (m.pop pointer).2 =
      if m.popPolicy = .clear then Function.update (cell m) (256 + pointer.toNat) 0 else cell m := by
  unfold Memory.pop
  cases hp : m.popPolicy with
  | preserve => rfl
  | clear =>
    rw [← toNat_stackCell]
    exact cell_set m _ 0

/-- Pulling moves the stack pointer up; the cell is zeroed if the policy says so. -/
theorem view_pull : view m.pull.2 = (view m).pop := by
  rw [Machine.pull_eq]
  unfold view State.pop State.store
  rw [cell_pop, Memory.popPolicy_pop, toNat_succ]
  cases m.memory.popPolicy <;> rfl

theorem toNat_pullWord : m.pullWord.1.toNat = (view m).top + 256 * (view m).pop.top := by
  have h : m.pullWord.1 = word m.pull.1 m.pull.2.pull.1 := rfl
  rw [h, toNat_word, toNat_pull, toNat_pull, view_pull]

theorem view_pullWord : view m.pullWord.2 = (view m).pop.pop := by
  have h : m.pullWord.2 = m.pull.2.pull.2 := rfl
  rw [h, view_pull, view_pull]

private theorem view_pushStatus :
    view (({ m with registers := m.registers.mark .break true } : Machine).push (m.registers.mark .break true).status) =
      { (view m).push { (view m).flags with brk := true }.byte with flags := { (view m).flags with brk := true } } := by
  have hb : (m.registers.mark .break true).status.toNat = ((view m).flags.put .break true).byte := by
    rw [← Flags.byte_ofStatus]
    exact congrArg Flags.byte (Flags.ofStatus_setFlag _ _ _)
  rw [view_push, view_mark, hb]
  rfl

/-- An interrupt pushes an address and the flags, the break flag among them. -/
theorem view_interrupt (address : UInt16) :
    view (m.interrupt address) =
      { ((view m).pushWord address.toNat).push { (view m).flags with brk := true }.byte with
        flags := { (view m).flags with brk := true } } := by
  unfold Machine.interrupt
  rw [view_pushStatus, view_pushWord]
  rfl

end

end Reference

end Mos6502
