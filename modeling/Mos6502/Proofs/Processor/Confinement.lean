import Mos6502.Proofs.Execution.Report
import Mos6502.Proofs.Memory.Access
import Mos6502.Proofs.Processor.Status

/-!
# Ticks stay in the program region

A tick executes only instructions all of whose bytes lie in the program region, and its trace line is true: it names
the bytes that the instruction was fetched from, and the values that registers have afterwards (`Reports`).  A tick that
finds a byte of the next instruction outside the region ends the program and changes neither registers nor memory.

The bytes are counted from the program counter without a turn at the end of the address space, so the region has to end
inside it.  It does, whatever is done to a processor (`stop_region_le`).
-/

namespace Mos6502

/-! ### The bytes of an instruction -/

theorem AddressingMode.operands_ofOperands (kind : ModeKind) (base : UInt16) (low high : UInt8) :
    (ofOperands kind base low high).operands = [low, high].take kind.operandLength := by
  cases kind <;> simp [ofOperands, operands, ModeKind.operandLength, lowByte_word, highByte_word]

/-- The bytes of an instruction as they stand in memory. -/
def Instruction.bytes (i : Instruction) : List UInt8 :=
  i.opcode :: i.mode.operands

namespace Region

theorem holds_iff {region : Region} {address : UInt16} {length : Nat} :
    region.holds address (length + 1) = true ↔
      ∀ k ≤ length, region.start ≤ address.toNat + k ∧ address.toNat + k < region.stop := by
  rw [holds_iff_bounds]
  constructor
  · intro h k hk
    omega
  · intro h
    have h0 := h 0 (Nat.zero_le _)
    have hl := h length (Nat.le_refl _)
    omega

end Region

namespace Processor

variable {p q : Processor}

theorem bytes_fetched (p : Processor) :
    p.fetched.bytes =
      (List.range p.fetched.size).map fun k => p.memory.get (p.registers.programCounter + UInt16.ofNat k) := by
  have hlength : ∀ kind : ModeKind, kind.operandLength = 0 ∨ kind.operandLength = 1 ∨ kind.operandLength = 2 := by
    intro kind
    cases kind <;> simp [ModeKind.operandLength]
  unfold fetched
  rw [Instruction.size_decode, Instruction.bytes, Instruction.decode]
  dsimp only
  rw [AddressingMode.operands_ofOperands]
  obtain h | h | h := hlength (operation (p.memory.get p.registers.programCounter)).kind
  · simp [h, List.range_succ]
  · simp [h, List.range_succ]
  · simp [h, List.range_succ]

theorem size_fetched (p : Processor) :
    p.fetched.size = (operation (p.memory.get p.registers.programCounter)).kind.operandLength + 1 := by
  rw [fetched, Instruction.size_decode, Nat.add_comm]

/-! ### The region of a processor -/

theorem region_tick {tick : Tick} (h : p.tick = .ok tick q) : q.region = p.region := by
  obtain ⟨-, he⟩ | ⟨-, -, he⟩ | ⟨line, m, -, -, -, ⟨-, he⟩ | ⟨-, he⟩⟩ := p.tick_cases
  all_goals
    rw [he] at h
    obtain ⟨-, rfl⟩ := EStateM.Result.ok.inj h
    rfl

theorem region_start (p : Processor) : p.start.region = p.region := by
  unfold start
  split <;> rfl

private theorem region_execute (fuel : Nat) : (settled (p.execute fuel)).region = p.region := by
  have hkeep : ∀ q : Processor, q.region = p.region → q.ticked.2.region = p.region :=
    fun q hq => (region_tick q.tick_eq_ticked).trans hq
  rw [settled_execute]
  exact runFor_keeps hkeep fuel [] p.region_start

/-- What can be done to a processor: a request, or giving its registers any values. -/
inductive Influence where
  | request (request : Request)
  | assign (registers : Registers)

def influence (p : Processor) : Influence → Processor
  | .request request => p.handle request
  | .assign registers => { p with registers }

private theorem stop_region_handle (h : p.region.stop ≤ memorySize) (request : Request) :
    (p.handle request).region.stop ≤ memorySize := by
  cases request with
  | load address program =>
    show (settled (install address program.val p)).region.stop ≤ memorySize
    obtain ⟨e, -, he⟩ | ⟨memory, -, hend, he⟩ := p.install_cases address program.property
    · rw [he]
      exact h
    · rw [he]
      exact hend
  | start =>
    show p.start.region.stop ≤ memorySize
    rw [region_start]
    exact h
  | tick =>
    show (settled p.tick).region.stop ≤ memorySize
    rw [tick_eq_ticked, settled, region_tick (tick_eq_ticked p)]
    exact h
  | execute fuel =>
    show (settled (p.execute fuel)).region.stop ≤ memorySize
    rw [region_execute]
    exact h
  | resume =>
    show (p.resume?.getD p).region.stop ≤ memorySize
    unfold resume?
    split <;> exact h
  | reset => exact Nat.le_refl _
  | store memory => exact h

/-- Whatever is done to a processor, its program region ends inside the address space. -/
theorem stop_region_le (memory : Memory) (influences : List Influence) :
    (influences.foldl influence (.ofMemory memory)).region.stop ≤ memorySize := by
  have hkeep : ∀ p : Processor, p.region.stop ≤ memorySize →
      (influences.foldl influence p).region.stop ≤ memorySize := by
    induction influences with
    | nil => exact fun _ h => h
    | cons i influences ih =>
      intro p h
      apply ih
      cases i with
      | request request => exact stop_region_handle h request
      | assign registers => exact h
  exact hkeep _ (Nat.le_refl _)

/-! ### Ticks -/

/-- A trace line is true of a tick from one processor to another: it shows the instruction that stood at the program
counter, in the region, before the tick, and the registers after it. -/
structure Reports (p q : Processor) (line : TraceLine) : Prop where
  address : line.instruction.address = p.registers.programCounter
  bounded : line.instruction.address.toNat + line.instruction.size ≤ memorySize
  bytes : p.memory.read line.instruction.address.toUInt64 (UInt64.ofNat line.instruction.size) =
    .ok line.instruction.bytes
  inside : ∀ k < line.instruction.size, p.region.start ≤ line.instruction.address.toNat + k ∧
    line.instruction.address.toNat + k < p.region.stop
  fields : ∀ field ∈ line.fields, field.Shows q.registers
  outcome : List.Forall₂ (Field.IsShownBy q.registers) (line.fields.filter Field.isOfRegister)
    (brackets line.outcome.toList)

private theorem isFetchable_iff :
    p.isFetchable = true ↔
      ∀ k ≤ (operation (p.memory.get p.registers.programCounter)).kind.operandLength,
        p.region.start ≤ p.registers.programCounter.toNat + k ∧
          p.registers.programCounter.toNat + k < p.region.stop := by
  rw [isFetchable, size_fetched, Region.holds_iff]

private theorem reports_execute (hstop : p.region.stop ≤ memorySize) (hf : p.isFetchable = true) {line : TraceLine}
    {m : Machine} (he : p.fetched.execute p.toMachine = .ok line m) (hq : q.registers = m.registers) :
    p.Reports q line := by
  obtain ⟨fields, hp, rfl⟩ := Instruction.exists_perform_of_execute he
  have hin := isFetchable_iff.1 hf
  have hend : p.registers.programCounter.toNat + p.fetched.size ≤ memorySize := by
    have hlast := (hin _ (Nat.le_refl _)).2
    rw [size_fetched]
    omega
  have hshows := Instruction.shows_perform hp
  rw [← hq] at hshows
  refine ⟨rfl, hend, ?_, ?_, hshows, forall₂_shown hshows⟩
  · show p.memory.read p.registers.programCounter.toUInt64 (UInt64.ofNat p.fetched.size) = .ok p.fetched.bytes
    rw [bytes_fetched, p.memory.read_toUInt64 hend]
  · intro k hk
    have hk' : k < p.fetched.size := hk
    rw [size_fetched] at hk'
    exact hin k (by omega)

/-- A tick of a running processor either executes the instruction at the program counter, whose bytes all lie in the
program region, and reports it truly, or it ends the program because one of these bytes does not lie in the region, and
then it only halts.  The region of every processor lies in the address space. -/
theorem tick_confined :
    (∀ (memory : Memory) (influences : List Influence),
      (influences.foldl influence (.ofMemory memory)).region.stop ≤ memorySize) ∧
    ∀ p : Processor, p.region.stop ≤ memorySize → p.activity = .running →
      ∃ tick q, p.tick = .ok tick q ∧
        (∀ activity, tick ≠ .inactive activity) ∧
        (∀ line, tick = .executed line ∨ tick = .breakpoint line → p.Reports q line) ∧
        (tick = .endOfProgram p.registers.programCounter ↔
          ∃ k ≤ (operation (p.memory.get p.registers.programCounter)).kind.operandLength,
            ¬(p.region.start ≤ p.registers.programCounter.toNat + k ∧
              p.registers.programCounter.toNat + k < p.region.stop)) ∧
        ∀ address, tick = .endOfProgram address →
          address = p.registers.programCounter ∧ q = { p with activity := .halted } := by
  refine ⟨stop_region_le, ?_⟩
  intro p hstop hrun
  obtain ⟨hne, -⟩ | ⟨-, hf, ht⟩ | ⟨line, m, -, hf, he, ht⟩ := p.tick_cases
  · exact absurd hrun hne
  · refine ⟨_, _, ht, by simp, by simp, ?_, ?_⟩
    · have hout : ¬p.isFetchable = true := by simp [hf]
      rw [isFetchable_iff] at hout
      simpa using hout
    · intro address ha
      cases ha
      exact ⟨rfl, rfl⟩
  · have hin := isFetchable_iff.1 hf
    have hno : ∀ tick : Tick, tick ≠ .endOfProgram p.registers.programCounter →
        (tick = .endOfProgram p.registers.programCounter ↔
          ∃ k ≤ (operation (p.memory.get p.registers.programCounter)).kind.operandLength,
            ¬(p.region.start ≤ p.registers.programCounter.toNat + k ∧
              p.registers.programCounter.toNat + k < p.region.stop)) := by
      intro tick hne
      refine iff_of_false hne ?_
      rintro ⟨k, hk, hout⟩
      exact hout (hin k hk)
    obtain ⟨-, ht⟩ | ⟨-, ht⟩ := ht
    · refine ⟨_, _, ht, by simp, ?_, hno _ (by simp), by simp⟩
      rintro line' (h | h)
      · cases h
      · cases h
        exact reports_execute hstop hf he rfl
    · refine ⟨_, _, ht, by simp, ?_, hno _ (by simp), by simp⟩
      rintro line' (h | h)
      · cases h
        exact reports_execute hstop hf he rfl
      · cases h

/-- An instruction of two bytes whose opcode stands in the last cell is not executed, though the region is the whole
address space. -/
theorem tick_confined_at_end :
    ∃ q, tick { ofMemory ((Memory.blank .preserve).set 0xffff 0xa9) with
      activity := .running, registers := .initial 0xffff } = .ok (.endOfProgram 0xffff) q := by
  have hop : ((Memory.blank .preserve).set 0xffff 0xa9).get 0xffff = 0xa9 := Memory.get_set_self _ _ _
  generalize (Memory.blank .preserve).set 0xffff 0xa9 = memory at hop ⊢
  have h := tick_confined.2 { ofMemory memory with activity := .running, registers := .initial 0xffff }
    (Nat.le_refl _) rfl
  obtain ⟨tick, q, ht, -, -, hend, -⟩ := h
  have hkind : (operation 0xa9).kind = .immediate := by
    rw [operation_eq_lookup]
    decide
  have htick : tick = .endOfProgram 0xffff := by
    refine hend.2 ⟨1, ?_, ?_⟩
    · show 1 ≤ (operation (memory.get 0xffff)).kind.operandLength
      rw [hop, hkind]
      decide
    · show ¬(0 ≤ 0xffff + 1 ∧ 0xffff + 1 < 65536)
      omega
  rw [htick] at ht
  exact ⟨q, ht⟩

end Processor

end Mos6502
