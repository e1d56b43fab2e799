import Mos6502.Monitor.Dialogue
import Mos6502.Proofs.Memory.Flat
import Mos6502.Proofs.Monitor.Language

/-!
# What a dialogue takes

A line either drives the run or is idle (`Line.drives?`).  A dialogue takes the lines up to the first that drives the
run, and all of them if none does (`Consumes`, `converse_consumes`); what is printed depends on the processor, but the
command and the lines that are left do not.  Idle lines can be left out of the input: the command stays the same, and so
do the lines that are left, without the idle ones among them (`converse_thinned`).

Idle lines are harmless: the number of lines of a dump has three digits at most, so the range that is read never wraps
around (`dump_ne_fault`).
-/

namespace Mos6502

namespace Monitor

/-- What a command of the monitor tells the run, if it drives it. -/
def Command.drives? : Command → Option Mos6502.Command
  | .step => some .step
  | .continue => some .continue
  | .quit => some .quit
  | .registers | .memory _ _ | .help => none

/-- What a line tells the run, if it drives it. -/
def Line.drives? : Line → Option Mos6502.Command
  | .text contents => (Command.parse contents).toOption.bind Command.drives?
  | .undecodable => some .quit

variable {p : Processor} {text : String} {line : Line} {lines lines' rest : List Line} {command : Mos6502.Command}

theorem drives?_text (text : String) :
    (Line.text text).drives? = (Command.parse text).toOption.bind Command.drives? := rfl

theorem replyTo_of_drives (h : (Line.text text).drives? = some command) : replyTo p text = .drive command := by
  rw [drives?_text] at h
  unfold replyTo
  cases hp : Command.parse text with
  | error e =>
    rw [hp] at h
    cases h
  | ok c =>
    rw [hp] at h
    cases c <;> cases h <;> rfl

theorem replyTo_of_idle (p : Processor) (h : (Line.text text).drives? = none) : ∃ printed, replyTo p text = .print printed := by
  rw [drives?_text] at h
  unfold replyTo
  cases hp : Command.parse text with
  | error e => exact ⟨_, rfl⟩
  | ok c =>
    rw [hp] at h
    cases c with
    | step => cases h
    | «continue» => cases h
    | quit => cases h
    | registers => exact ⟨_, rfl⟩
    | help => exact ⟨_, rfl⟩
    | memory address count =>
      unfold Command.reply
      dsimp only
      split <;> exact ⟨_, rfl⟩

/-! ### One dialogue -/

theorem converse_cons_of_drives (p : Processor) (rest : List Line) (h : line.drives? = some command) :
    (converse p (line :: rest)).command = command ∧ (converse p (line :: rest)).rest = rest := by
  cases line with
  | undecodable =>
    cases h
    exact ⟨rfl, rfl⟩
  | text text =>
    unfold converse
    rw [replyTo_of_drives h]
    exact ⟨rfl, rfl⟩

theorem converse_cons_of_idle (p : Processor) (rest : List Line) (h : line.drives? = none) :
    (converse p (line :: rest)).command = (converse p rest).command ∧
      (converse p (line :: rest)).rest = (converse p rest).rest := by
  cases line with
  | undecodable => cases h
  | text text =>
    obtain ⟨printed, hr⟩ := replyTo_of_idle p h
    rw [converse, hr]
    exact ⟨rfl, rfl⟩

/-- The lines that a dialogue takes to give a command, and the lines that are left. -/
inductive Consumes : List Line → Mos6502.Command → List Line → Prop where
  | driven (idle : List Line) {line : Line} {rest : List Line} {command : Mos6502.Command}
      (hi : ∀ l ∈ idle, l.drives? = none) (h : line.drives? = some command) :
    Consumes (idle ++ line :: rest) command rest
  | ended {lines : List Line} (hi : ∀ l ∈ lines, l.drives? = none) : Consumes lines .quit []

theorem consumes_cons_of_idle (h : line.drives? = none) (hc : Consumes lines command rest) :
    Consumes (line :: lines) command rest := by
  cases hc with
  | driven idle hi hd => exact Consumes.driven (line :: idle) (List.forall_mem_cons.2 ⟨h, hi⟩) hd
  | ended hi => exact Consumes.ended (List.forall_mem_cons.2 ⟨h, hi⟩)

theorem converse_consumes (p : Processor) (lines : List Line) :
    Consumes lines (converse p lines).command (converse p lines).rest := by
  induction lines with
  | nil => exact Consumes.ended (by simp)
  | cons line lines ih =>
    cases h : line.drives? with
    | some command =>
      obtain ⟨hc, hr⟩ := converse_cons_of_drives p lines h
      rw [hc, hr]
      exact Consumes.driven [] (by simp) h
    | none =>
      obtain ⟨hc, hr⟩ := converse_cons_of_idle p lines h
      rw [hc, hr]
      exact consumes_cons_of_idle h ih

/-! ### Idle lines -/

/-- The first lines without some of the idle ones are the second lines. -/
inductive Thinned : List Line → List Line → Prop where
  | nil : Thinned [] []
  | keep (line : Line) {lines lines' : List Line} (h : Thinned lines lines') : Thinned (line :: lines) (line :: lines')
  | drop {line : Line} {lines lines' : List Line} (hi : line.drives? = none) (h : Thinned lines lines') :
    Thinned (line :: lines) lines'

theorem thinned_refl (lines : List Line) : Thinned lines lines := by
  induction lines with
  | nil => exact Thinned.nil
  | cons line lines ih => exact Thinned.keep line ih

/-- A dialogue without some idle lines gives the same command, whatever the processors print. -/
theorem converse_thinned (h : Thinned lines lines') (p q : Processor) :
    (converse p lines).command = (converse q lines').command ∧
      Thinned (converse p lines).rest (converse q lines').rest := by
  induction h with
  | nil => exact ⟨rfl, Thinned.nil⟩
  | @keep line lines lines' h ih =>
    cases hd : line.drives? with
    | some command =>
      obtain ⟨hc, hr⟩ := converse_cons_of_drives p lines hd
      obtain ⟨hc', hr'⟩ := converse_cons_of_drives q lines' hd
      rw [hc, hr, hc', hr']
      exact ⟨rfl, h⟩
    | none =>
      obtain ⟨hc, hr⟩ := converse_cons_of_idle p lines hd
      obtain ⟨hc', hr'⟩ := converse_cons_of_idle q lines' hd
      rw [hc, hr, hc', hr']
      exact ih
  | @drop line lines lines' hi h ih =>
    obtain ⟨hc, hr⟩ := converse_cons_of_idle p lines hi
    rw [hc, hr]
    exact ih

/-! ### Dumps -/

/-- A line asks for less than a thousand rows. -/
theorem lines_lt_of_parse {address : UInt16} {count : UInt64} (h : Command.parse text = .ok (.memory address count)) :
    count.toNat < 1000 :=
  lines_lt_of_names (names_of_parse h)

/-- A dump that a line asks for is shown, or refused because it goes beyond the memory. -/
theorem dump_ne_fault {address : UInt16} {count : UInt64} (h : Command.parse text = .ok (.memory address count))
    (m : Memory) : m.dump address.toUInt64 count ≠ .error .fault := by
  have hcount := lines_lt_of_parse h
  have haddress := address.toNat_lt
  have hfits : address.toUInt64.toNat + 16 * count.toNat < UInt64.size := by
    rw [UInt16.toNat_toUInt64]
    show address.toNat + 16 * count.toNat < 18446744073709551616
    omega
  unfold Memory.dump
  rw [dumpWith_congr hfits fun _ _ => m.read_eq, dumpWith_exact,
    if_pos (Nat.lt_of_le_of_lt (Nat.le_add_left _ _) hfits), Flat.read]
  split <;> simp [Except.map]

end Monitor

end Mos6502
