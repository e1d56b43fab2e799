import Mos6502.Proofs.Execution.Footprint

/-!
# Calls and pushes in nested order

Bytes lie on the stack above the stack pointer, the last pushed first (`Stacked`).  At most 256 of them fit into the
stack page, where the pointer may pass from one end to the other; as long as no more are pushed, a push leaves those
below it alone, and a pull gives back what was pushed last, whatever becomes of the cell (`stacked_push`,
`stacked_pull`).  So a return finds the address of its own call, and a pull the byte of its own push (`Nested`).
-/

namespace Mos6502

theorem stackCell_injective {p q : UInt8} (h : stackCell p = stackCell q) : p = q := by
  have hn := congrArg UInt16.toNat h
  rw [toNat_stackCell, toNat_stackCell] at hn
  exact UInt8.toNat.inj (by omega)

/-- The next 255 cells above a stack pointer are others than its own. -/
private theorem above_ne (pointer : UInt8) {k : Nat} (hk : k < 255) :
    stackCell (pointer + 1 + UInt8.ofNat k) ≠ stackCell pointer := by
  intro h
  have hn := congrArg UInt8.toNat (stackCell_injective h)
  have hp := pointer.toNat_lt
  rw [UInt8.toNat_add, UInt8.toNat_add, UInt8.toNat_ofNat'] at hn
  have h1 : (1 : UInt8).toNat = 1 := rfl
  rw [h1] at hn
  omega

theorem ofNat_succ (k : Nat) : UInt8.ofNat (k + 1) = 1 + UInt8.ofNat k := by
  rw [Nat.add_comm, UInt8.ofNat_add]
  rfl

namespace Machine

variable {m₀ m : Machine} {byte : UInt8} {bytes : List UInt8}

/-! ### The bytes on the stack -/

/-- A machine that has some bytes on the stack, the last pushed first, and has changed nothing else in the memory of
the machine that it comes from. -/
structure Stacked (m₀ m : Machine) (bytes : List UInt8) : Prop where
  depth : bytes.length ≤ 256
  pointer : m.registers.stackPointer + UInt8.ofNat bytes.length = m₀.registers.stackPointer
  cells : ∀ k (h : k < bytes.length),
    m.memory.get (stackCell (m.registers.stackPointer + 1 + UInt8.ofNat k)) = bytes[k]
  outside : ∀ a, (∀ pointer, a ≠ stackCell pointer) → m.memory.get a = m₀.memory.get a

theorem stacked_refl (m : Machine) : Stacked m m [] :=
  ⟨Nat.zero_le _, UInt8.add_zero _, fun k h => absurd h (Nat.not_lt_zero k), fun _ _ => rfl⟩

/-- Only the stack pointer among the registers matters. -/
theorem stacked_registers (h : Stacked m₀ m bytes) {r : Registers} (hr : r.stackPointer = m.registers.stackPointer) :
    Stacked m₀ { m with registers := r } bytes := by
  refine ⟨h.depth, ?_, ?_, h.outside⟩
  · show r.stackPointer + _ = _
    rw [hr]
    exact h.pointer
  · intro k hk
    show m.memory.get (stackCell (r.stackPointer + 1 + _)) = _
    rw [hr]
    exact h.cells k hk

theorem stacked_push (h : Stacked m₀ m bytes) (hd : bytes.length < 256) (byte : UInt8) :
    Stacked m₀ (m.push byte) (byte :: bytes) := by
  refine ⟨hd, ?_, ?_, ?_⟩
  · show m.registers.stackPointer - 1 + UInt8.ofNat (bytes.length + 1) = _
    rw [ofNat_succ, ← UInt8.add_assoc, UInt8.sub_add_cancel]
    exact h.pointer
  · intro k hk
    show (m.memory.set (stackCell m.registers.stackPointer) byte).get
      (stackCell (m.registers.stackPointer - 1 + 1 + UInt8.ofNat k)) = _
    rw [UInt8.sub_add_cancel]
    cases k with
    | zero =>
      rw [show UInt8.ofNat 0 = 0 from rfl, UInt8.add_zero, Memory.get_set_self]
      rfl
    | succ k =>
      have hk' : k < bytes.length := Nat.lt_of_succ_lt_succ hk
      rw [ofNat_succ, ← UInt8.add_assoc, Memory.get_set_ne _ (above_ne _ (by omega))]
      exact h.cells k hk'
  · intro a ha
    show (m.memory.set _ byte).get a = _
    rw [Memory.get_set_ne _ (ha _)]
    exact h.outside a ha

theorem stacked_pull (h : Stacked m₀ m (byte :: bytes)) : m.pull.1 = byte ∧ Stacked m₀ m.pull.2 bytes := by
  have hd : bytes.length < 256 := h.depth
  rw [pull_eq]
  constructor
  · have h0 := h.cells 0 (Nat.zero_lt_succ _)
    rw [show UInt8.ofNat 0 = 0 from rfl, UInt8.add_zero] at h0
    exact h0
  · refine ⟨Nat.le_of_lt hd, ?_, ?_, ?_⟩
    · have hp := h.pointer
      rw [List.length_cons, ofNat_succ, ← UInt8.add_assoc] at hp
      exact hp
    · intro k hk
      have hc := h.cells (k + 1) (Nat.succ_lt_succ hk)
      rw [ofNat_succ, ← UInt8.add_assoc] at hc
      show (m.memory.pop _).2.get _ = _
      rw [Memory.get_pop_ne _ (above_ne _ (by omega))]
      exact hc
    · intro a ha
      show (m.memory.pop _).2.get a = _
      rw [Memory.get_pop_ne _ (ha _)]
      exact h.outside a ha

theorem stacked_pushWord (h : Stacked m₀ m bytes) (hd : bytes.length + 2 ≤ 256) (w : UInt16) :
    Stacked m₀ (m.pushWord w) (lowByte w :: highByte w :: bytes) :=
  stacked_push (stacked_push h (by omega) _) (by rw [List.length_cons]; omega) _

theorem stacked_pullWord {low high : UInt8} (h : Stacked m₀ m (low :: high :: bytes)) :
    m.pullWord.1 = word low high ∧ Stacked m₀ m.pullWord.2 bytes := by
  obtain ⟨hlow, h⟩ := stacked_pull h
  obtain ⟨hhigh, h⟩ := stacked_pull h
  refine ⟨?_, h⟩
  show word m.pull.1 m.pull.2.pull.1 = _
  rw [hlow, hhigh]

end Machine

/-! ### Frames -/

/-- What a call or a push leaves on the stack until its return or pull. -/
inductive Frame where
  /-- The call at an address. -/
  | call (address : UInt16)
  | byte (value : UInt8)
  deriving DecidableEq, Repr

/-- The bytes of a frame, the last pushed first: a call of three bytes pushes the address of its last one. -/
def Frame.bytes : Frame → List UInt8
  | .call address => [lowByte (address + 2), highByte (address + 2)]
  | .byte value => [value]

/-- The bytes of open frames, the latest first. -/
def Frame.stack (frames : List Frame) : List UInt8 :=
  frames.flatMap bytes

namespace Instruction

open Machine

variable {i : Instruction} {m₀ m m' : Machine} {frames : List Frame} {line : TraceLine}

private theorem stacked_call {target : UInt16} (h : Stacked m₀ m (Frame.stack frames)) (hi : i.mnemonic = .jsr)
    (hm : i.mode = .absolute target) (hd : (Frame.stack (.call i.address :: frames)).length ≤ 256)
    (he : i.execute m = .ok line m') : Stacked m₀ m' (Frame.stack (.call i.address :: frames)) := by
  obtain ⟨fields, hp, -⟩ := exists_perform_of_execute he
  rw [perform_eq_carryOut, hi, Mnemonic.work, carryOut, call_apply] at hp
  obtain ⟨a, -, -, rfl⟩ := exists_target hp
  have hs := stacked_pushWord h hd (i.address + 2)
  rw [hm]
  exact stacked_registers hs rfl

private theorem stacked_pushAccumulator (h : Stacked m₀ m (Frame.stack frames)) (hi : i.mnemonic = .pha)
    (hd : (Frame.stack (.byte m.registers.accumulator :: frames)).length ≤ 256) (he : i.execute m = .ok line m') :
    Stacked m₀ m' (Frame.stack (.byte m.registers.accumulator :: frames)) := by
  obtain ⟨fields, hp, -⟩ := exists_perform_of_execute he
  rw [perform_eq_carryOut, hi, Mnemonic.work, carryOut, pushAccumulator_apply] at hp
  obtain ⟨-, rfl⟩ := EStateM.Result.ok.inj hp
  exact stacked_registers (stacked_push h hd _) rfl

/-- A return goes behind its call. -/
private theorem exists_ret {address : UInt16} (h : Stacked m₀ m (Frame.stack (.call address :: frames)))
    (hi : i.mnemonic = .rts) :
    ∃ line m', i.execute m = .ok line m' ∧ m'.registers.programCounter = address + 3 ∧
      Stacked m₀ m' (Frame.stack frames) := by
  obtain ⟨hw, hs⟩ := stacked_pullWord h
  have hpc : m.pullWord.1 + 1 = address + 3 := by
    rw [hw, word_lowByte_highByte, UInt16.add_assoc]
    rfl
  rw [execute_apply, perform_eq_carryOut, hi, Mnemonic.work, carryOut, ret_apply]
  exact ⟨_, _, rfl, hpc, stacked_registers hs rfl⟩

/-- A pull gives the accumulator what its push has stored. -/
private theorem exists_pullAccumulator {value : UInt8} (h : Stacked m₀ m (Frame.stack (.byte value :: frames)))
    (hi : i.mnemonic = .pla) :
    ∃ line m', i.execute m = .ok line m' ∧ m'.registers.accumulator = value ∧
      Stacked m₀ m' (Frame.stack frames) := by
  obtain ⟨hv, hs⟩ := stacked_pull h
  rw [execute_apply, perform_eq_carryOut, hi, Mnemonic.work, carryOut, pullAccumulator_apply]
  exact ⟨_, _, rfl, hv, stacked_registers hs rfl⟩

/-! ### Nested instructions -/

/-- Stack instructions that have been executed in nested order since some machine, with the frames that are still open:
each return meets the latest open call and each pull the latest open push, and there are never more than 256 bytes on
the stack.  Between two instructions the registers, the stack pointer apart, may change in any way. -/
inductive Nested (m₀ : Machine) : Machine → List Frame → Prop where
  | start : Nested m₀ m₀ []
  | change {m : Machine} {frames : List Frame} {r : Registers} (h : Nested m₀ m frames)
      (hr : r.stackPointer = m.registers.stackPointer) : Nested m₀ { m with registers := r } frames
  | call {m m' : Machine} {frames : List Frame} {i : Instruction} {target : UInt16} {line : TraceLine}
      (h : Nested m₀ m frames) (hi : i.mnemonic = .jsr) (hm : i.mode = .absolute target)
      (hd : (Frame.stack (.call i.address :: frames)).length ≤ 256) (he : i.execute m = .ok line m') :
    Nested m₀ m' (.call i.address :: frames)
  | push {m m' : Machine} {frames : List Frame} {i : Instruction} {line : TraceLine} (h : Nested m₀ m frames)
      (hi : i.mnemonic = .pha) (hd : (Frame.stack (.byte m.registers.accumulator :: frames)).length ≤ 256)
      (he : i.execute m = .ok line m') : Nested m₀ m' (.byte m.registers.accumulator :: frames)
  | ret {m m' : Machine} {frames : List Frame} {i : Instruction} {address : UInt16} {line : TraceLine}
      (h : Nested m₀ m (.call address :: frames)) (hi : i.mnemonic = .rts) (he : i.execute m = .ok line m') :
    Nested m₀ m' frames
  | pull {m m' : Machine} {frames : List Frame} {i : Instruction} {value : UInt8} {line : TraceLine}
      (h : Nested m₀ m (.byte value :: frames)) (hi : i.mnemonic = .pla) (he : i.execute m = .ok line m') :
    Nested m₀ m' frames

private theorem stacked_of_nested (h : Nested m₀ m frames) : Stacked m₀ m (Frame.stack frames) := by
  induction h with
  | start => exact stacked_refl m₀
  | change _ hr ih => exact stacked_registers ih hr
  | call _ hi hm hd he ih => exact stacked_call ih hi hm hd he
  | push _ hi hd he ih => exact stacked_pushAccumulator ih hi hd he
  | ret _ hi he ih =>
    obtain ⟨line, m', he', -, hs⟩ := exists_ret ih hi
    rw [he] at he'
    obtain ⟨-, rfl⟩ := EStateM.Result.ok.inj he'
    exact hs
  | pull _ hi he ih =>
    obtain ⟨line, m', he', -, hs⟩ := exists_pullAccumulator ih hi
    rw [he] at he'
    obtain ⟨-, rfl⟩ := EStateM.Result.ok.inj he'
    exact hs

/-- The discipline of the stack.  Wherever the stack pointer was and whatever becomes of pulled cells, after stack
instructions in nested order a return can be executed and goes behind the latest open call, three bytes after its
address, and a pull can be executed and gives the accumulator what the latest open push has stored; the stack pointer
is back where it was as soon as nothing is open; and no byte outside the stack page is another than before. -/
theorem stack_discipline (h : Nested m₀ m frames) :
    (∀ (address : UInt16) (rest : List Frame) (i : Instruction), frames = .call address :: rest →
      i.mnemonic = .rts →
      ∃ line m', i.execute m = .ok line m' ∧ m'.registers.programCounter = address + 3) ∧
    (∀ (value : UInt8) (rest : List Frame) (i : Instruction), frames = .byte value :: rest →
      i.mnemonic = .pla →
      ∃ line m', i.execute m = .ok line m' ∧ m'.registers.accumulator = value) ∧
    (frames = [] → m.registers.stackPointer = m₀.registers.stackPointer) ∧
    ∀ a : UInt16, a.toNat < 0x0100 ∨ 0x01ff < a.toNat → m.memory.get a = m₀.memory.get a := by
  have hs := stacked_of_nested h
  refine ⟨?_, ?_, ?_, ?_⟩
  · rintro address rest i rfl hi
    obtain ⟨line, m', he, hpc, -⟩ := exists_ret hs hi
    exact ⟨line, m', he, hpc⟩
  · rintro value rest i rfl hi
    obtain ⟨line, m', he, hv, -⟩ := exists_pullAccumulator hs hi
    exact ⟨line, m', he, hv⟩
  · rintro rfl
    rw [← hs.pointer]
    exact (UInt8.add_zero _).symm
  · intro a ha
    refine hs.outside a ?_
    rintro pointer rfl
    rw [toNat_stackCell] at ha
    have hlt := pointer.toNat_lt
    omega

/-- A call at the end of the address space, with the stack pointer at the end of its page: both the address of its last
byte and the return address are beyond the end. -/
theorem stack_discipline_at_wrap :
    ∃ m line m',
      Nested { registers := { Registers.initial 0xfffe with stackPointer := 0 }, memory := .blank .clear } m
        [.call 0xfffe] ∧
      execute { address := 0x1234, opcode := 0x60, mnemonic := .rts, mode := .implied } m = .ok line m' ∧
      m'.registers.programCounter = 1 := by
  generalize Memory.blank .clear = memory
  obtain ⟨line, m, he⟩ : ∃ line m,
      execute { address := 0xfffe, opcode := 0x20, mnemonic := .jsr, mode := .absolute 0x1234 }
        { registers := { Registers.initial 0xfffe with stackPointer := 0 }, memory } = .ok line m := ⟨_, _, rfl⟩
  have hn := Nested.call Nested.start rfl rfl (by decide) he
  obtain ⟨line', m', he', hpc⟩ := (stack_discipline hn).1 _ _
    { address := 0x1234, opcode := 0x60, mnemonic := .rts, mode := .implied } rfl rfl
  exact ⟨m, line', m', hn, he', hpc⟩

end Instruction

end Mos6502
