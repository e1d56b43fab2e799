import Mos6502.Proofs.Execution.Operation
import Mos6502.Proofs.Text.Form

/-!
# Reports are true

A field of a report that names a register shows the value that this register has after the instruction
(`shows_perform`).  In the outcome of a trace line such a field is a text in brackets.  Read on its own, by its form and
its digits or by the letters of the flags, it names the register and tells its value (`Field.IsShownBy`), and the outcome
has one such text for each of these fields and no other in brackets (`forall₂_shown`).
-/

namespace Mos6502

/-! ### What an outcome tells -/

/-- The texts in brackets, one after the other. -/
def brackets : List Char → List String
  | [] => []
  | c :: chars =>
    if c = '[' then String.ofList (chars.takeWhile (· ≠ ']')) :: brackets chars else brackets chars

/-- The letters of the flags tell a status: a capital for a bit that is set, and a dash for the one without a meaning. -/
def TellsFlags (status : UInt8) (text : String) : Prop :=
  text.toList.map Char.toLower = "nv-bdizc".toList ∧
    (text.toList.eraseIdx 2).map Char.isUpper = [7, 6, 4, 3, 2, 1, 0].map status.toNat.testBit

namespace Field

/-- Whether the value of a field is the one that registers have, if it is the field of a register. -/
def Shows (r : Registers) : Field → Prop
  | .register name value => value = r.get name
  | .stackPointer value => value = r.stackPointer
  | .programCounter value => value = r.programCounter
  | .status value => value = r.status
  | .operand _ | .result _ | .unknownOpcode _ => True

/-- Whether a field is about a register. -/
def isOfRegister : Field → Bool
  | .register _ _ | .stackPointer _ | .programCounter _ | .status _ => true
  | .operand _ | .result _ | .unknownOpcode _ => false

/-- A text in brackets names the register of a field and tells the value that it has in `r`. -/
def IsShownBy (r : Registers) (field : Field) (text : String) : Prop :=
  match field with
  | .register .accumulator _ => Fits .lower "A=0x.." r.accumulator.toNat text
  | .register .indexX _ => Fits .lower "X=0x.." r.indexX.toNat text
  | .register .indexY _ => Fits .lower "Y=0x.." r.indexY.toNat text
  | .stackPointer _ => Fits .lower "SP=0x.." r.stackPointer.toNat text
  | .programCounter _ => Fits .upper "CP=0x...." r.programCounter.toNat text
  | .status _ => ∃ letters, text = "S=" ++ letters ∧ TellsFlags r.status letters
  | .operand _ | .result _ | .unknownOpcode _ => False

end Field

/-! ### Brackets -/

/-- A text without brackets. -/
def IsPlain (text : String) : Prop :=
  ∀ c ∈ text.toList, c ≠ '[' ∧ c ≠ ']'

instance : DecidablePred IsPlain := fun text =>
  decidable_of_iff (text.toList.all fun c => c != '[' && c != ']') (by simp [IsPlain])

section

variable {a b inner : String} {field : Field} {r : Registers}

theorem isPlain_append : IsPlain (a ++ b) ↔ IsPlain a ∧ IsPlain b := by
  unfold IsPlain
  rw [String.toList_append, List.forall_mem_append]

theorem isPlain_of_isDigit (h : ∀ c ∈ a.toList, IsDigit 16 c) : IsPlain a := by
  intro c hc
  have hdigit := h c hc
  constructor
  all_goals
    rintro rfl
    exact absurd hdigit (by decide)

theorem toLower_flagLetter (status : UInt8) (flag : Flag) :
    (flagLetter status flag).toLower = flagLetter 0 flag := by
  unfold flagLetter
  cases flag <;> dsimp only <;> split <;> rfl

theorem isUpper_flagLetter (status : UInt8) (flag : Flag) :
    (flagLetter status flag).isUpper = hasFlag status flag := by
  unfold flagLetter
  cases h : hasFlag status flag <;> cases flag <;> rfl

theorem map_hasFlag (status : UInt8) :
    [Flag.negative, .overflow, .break, .decimal, .interrupt, .zero, .carry].map (hasFlag status) =
      [7, 6, 4, 3, 2, 1, 0].map status.toNat.testBit := by
  revert status
  decide +kernel

theorem tellsFlags_statusText (status : UInt8) : TellsFlags status (statusText status) := by
  unfold TellsFlags statusText
  rw [String.toList_ofList, ← map_hasFlag]
  refine ⟨?_, ?_⟩
  · simp only [List.map_cons, List.map_nil, toLower_flagLetter]
    rfl
  · simp only [List.eraseIdx_cons_succ, List.eraseIdx_cons_zero, List.map_cons, List.map_nil, isUpper_flagLetter]

theorem isPlain_of_tellsFlags {status : UInt8} (h : TellsFlags status a) : IsPlain a := by
  intro c hc
  have hletter : c.toLower ∈ "nv-bdizc".toList := h.1 ▸ List.mem_map_of_mem hc
  constructor
  all_goals
    rintro rfl
    exact absurd hletter (by decide)

theorem brackets_append_of_isPlain (h : IsPlain a) (chars : List Char) :
    brackets (a.toList ++ chars) = brackets chars := by
  unfold IsPlain at h
  generalize a.toList = before at h ⊢
  induction before with
  | nil => rfl
  | cons c before ih =>
    obtain ⟨hc, hbefore⟩ := List.forall_mem_cons.1 h
    rw [List.cons_append, brackets, if_neg hc.1, ih hbefore]

theorem brackets_append (h : IsPlain inner) (chars : List Char) :
    brackets (("[" ++ inner ++ "]").toList ++ chars) = inner :: brackets chars := by
  have htext : ("[" ++ inner ++ "]").toList ++ chars = '[' :: (inner.toList ++ ']' :: chars) := by
    simp [String.toList_append]
  have htake : (inner.toList ++ ']' :: chars).takeWhile (· ≠ ']') = inner.toList := by
    rw [List.takeWhile_append_of_pos (fun c hc => by simpa using (h c hc).2), List.takeWhile_cons_of_neg (by simp),
      List.append_nil]
  rw [htext, brackets, if_pos rfl, htake, String.ofList_toList, brackets_append_of_isPlain h]
  rfl

private theorem exists_shown_byte (before : String) (byte : UInt8) (hplain : IsPlain before)
    (hdot : '.' ∉ before.toList) :
    ∃ inner, "[" ++ before ++ hexByte .lower byte ++ "]" = "[" ++ inner ++ "]" ∧ IsPlain inner ∧
      Fits .lower (before ++ "..") byte.toNat inner :=
  ⟨before ++ hexByte .lower byte, congrArg (· ++ "]") String.append_assoc,
    isPlain_append.2 ⟨hplain, isPlain_of_isDigit (isDigit_hexByte .lower byte)⟩, fits_hexByte .lower hdot byte⟩

/-- The text of a field about a register is in brackets, and what is in them tells the value of the register. -/
theorem Field.exists_shown (hr : field.isOfRegister = true) (h : field.Shows r) :
    ∃ inner, field.text = "[" ++ inner ++ "]" ∧ IsPlain inner ∧ field.IsShownBy r inner := by
  cases field with
  | register name value =>
    obtain rfl : value = r.get name := h
    cases name with
    | accumulator => exact exists_shown_byte "A=0x" r.accumulator (by decide) (by decide)
    | indexX => exact exists_shown_byte "X=0x" r.indexX (by decide) (by decide)
    | indexY => exact exists_shown_byte "Y=0x" r.indexY (by decide) (by decide)
  | stackPointer value =>
    obtain rfl : value = r.stackPointer := h
    exact exists_shown_byte "SP=0x" r.stackPointer (by decide) (by decide)
  | programCounter value =>
    obtain rfl : value = r.programCounter := h
    refine ⟨"CP=0x" ++ hexWord .upper r.programCounter, congrArg (· ++ "]") (@String.append_assoc "[" "CP=0x" _), ?_, ?_⟩
    · exact isPlain_append.2 ⟨by decide, isPlain_of_isDigit (isDigit_hexWord .upper _)⟩
    · exact fits_hexWord .upper (show '.' ∉ "CP=0x".toList by decide) r.programCounter
  | status value =>
    obtain rfl : value = r.status := h
    have hflags := tellsFlags_statusText r.status
    refine ⟨"S=" ++ statusText r.status, congrArg (· ++ "]") (@String.append_assoc "[" "S=" _), ?_, _, rfl, hflags⟩
    exact isPlain_append.2 ⟨by decide, isPlain_of_tellsFlags hflags⟩
  | operand | result | unknownOpcode => cases hr

theorem Field.isPlain_text (hr : field.isOfRegister = false) : IsPlain field.text := by
  have hbyte : ∀ byte, IsPlain (hexByte .lower byte) := fun byte => isPlain_of_isDigit (isDigit_hexByte .lower byte)
  cases field with
  | operand value => exact isPlain_append.2 ⟨isPlain_append.2 ⟨by decide, hbyte value⟩, by decide⟩
  | result value => exact isPlain_append.2 ⟨by decide, hbyte value⟩
  | unknownOpcode opcode => exact isPlain_append.2 ⟨by decide, hbyte opcode⟩
  | register | stackPointer | programCounter | status => cases hr

end

/-- The texts in brackets in an outcome are those of the fields about registers, and each tells what its register has. -/
theorem forall₂_shown {fields : List Field} {r : Registers} (h : ∀ field ∈ fields, field.Shows r) :
    List.Forall₂ (Field.IsShownBy r) (fields.filter Field.isOfRegister)
      (brackets (String.join (fields.map Field.text)).toList) := by
  induction fields with
  | nil => exact List.Forall₂.nil
  | cons field fields ih =>
    obtain ⟨hfield, hfields⟩ := List.forall_mem_cons.1 h
    rw [List.map_cons, String.join_cons, String.toList_append]
    cases hr : field.isOfRegister with
    | false =>
      rw [List.filter_cons_of_neg (by simp [hr]), brackets_append_of_isPlain (Field.isPlain_text hr)]
      exact ih hfields
    | true =>
      obtain ⟨inner, htext, hplain, hshown⟩ := Field.exists_shown hr hfield
      rw [List.filter_cons_of_pos hr, htext, brackets_append hplain]
      exact List.Forall₂.cons hshown (ih hfields)

/-! ### Registers afterwards -/

namespace Registers

variable (r : Registers)

@[simp] theorem get_assign (register : Register) (value : UInt8) : (r.assign register value).get register = value := by
  cases register <;> rfl

@[simp] theorem get_total (s : ByteSum) : (r.total s).get .accumulator = s.value :=
  get_assign _ .accumulator s.value

@[simp] theorem get_advance (register : Register) (length : Nat) :
    (r.advance length).get register = r.get register := by
  cases register <;> rfl

@[simp] theorem status_advance (length : Nat) : (r.advance length).status = r.status := rfl

@[simp] theorem stackPointer_advance (length : Nat) : (r.advance length).stackPointer = r.stackPointer := rfl

@[simp] theorem stackPointer_assign (register : Register) (value : UInt8) :
    (r.assign register value).stackPointer = r.stackPointer := by
  cases register <;> rfl

@[simp] theorem programCounter_goTo (address : UInt16) : (r.goTo address).programCounter = address := rfl

@[simp] theorem stackPointer_goTo (address : UInt16) : (r.goTo address).stackPointer = r.stackPointer := rfl

end Registers

/-! ### Reports -/

namespace Instruction

variable {i : Instruction} {m m' : Machine} {fields : List Field}

private theorem shows_carryOut {w : Work} (h : i.carryOut w m = .ok fields m')
    (hskip : ∀ report, w = .skip report → ∀ field ∈ report i.opcode, field.Shows m'.registers) :
    ∀ field ∈ fields, field.Shows m'.registers := by
  cases w <;> rw [carryOut] at h
  case load | store | replace | accumulate | intersect | test | compare | jump | call =>
    simp only [load_apply, store_apply, replace_apply, accumulate_apply, intersect_apply, test_apply, compare_apply,
      jump_apply, call_apply] at h
    obtain ⟨a, -, rfl, rfl⟩ := exists_target h
    simp [Field.Shows]
  case assign | ret | pushAccumulator | pullAccumulator | setCarry | interrupt =>
    simp only [assign_apply, ret_apply, pushAccumulator_apply, pullAccumulator_apply, setCarry_apply,
      interrupt_apply] at h
    obtain ⟨rfl, rfl⟩ := EStateM.Result.ok.inj h
    simp [Field.Shows]
  case shiftRight =>
    by_cases hm : i.mode = .accumulator
    · rw [shiftRight_accumulator m hm] at h
      obtain ⟨rfl, rfl⟩ := EStateM.Result.ok.inj h
      simp [Field.Shows]
    · rw [shiftRight_apply m hm] at h
      obtain ⟨a, -, rfl, rfl⟩ := exists_target h
      simp [Field.Shows]
  case branch flag value =>
    rw [branch_apply] at h
    split at h
    · obtain ⟨a, -, rfl, rfl⟩ := exists_target h
      simp [Field.Shows]
    · obtain ⟨rfl, rfl⟩ := EStateM.Result.ok.inj h
      simp [Field.Shows]
  case skip report =>
    obtain ⟨rfl, -⟩ := EStateM.Result.ok.inj h
    exact hskip report rfl

/-- The report of an instruction shows the registers as they are after it. -/
theorem shows_perform (h : i.perform m = .ok fields m') : ∀ field ∈ fields, field.Shows m'.registers := by
  rw [perform_eq_carryOut] at h
  refine shows_carryOut h ?_
  intro report hw
  cases hm : i.mnemonic <;> rw [hm] at hw <;> cases hw
  · simp
  · simp [Field.Shows]

end Instruction

end Mos6502
