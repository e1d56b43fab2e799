import Mos6502.Proofs.Memory.Flat
import Mos6502.Proofs.Text.Numeral

/-!
# Sums that do not fit 64 bits

The end of a range is a 64-bit sum, the length of a dump a 64-bit product, and the last address of a window a difference.
Where they fit, an access is decided by the numbers that they are; where they do not, it is a fault and no refusal
(`range_checks_exact`).  So a range that is far outside the memory is not always refused (`fault_beyond_memory`).  A window
lies inside the memory once it is made, and its own sums never fail; only its last address is missing if it is empty and
begins at zero (`Window.text_eq`).
-/

namespace Mos6502

namespace Window

/-- A text tells the first and the last address of a window and its length. -/
def IsToldBy (w : Window) (text : String) : Prop :=
  ∃ first last size : String,
    text = "MemoryView #0x" ++ first ++ " → #0x" ++ last ++ ", size = " ++ size ++ " bytes" ∧
    numeral? 16 first.toList = some w.start.toNat ∧
    (numeral? 16 last.toList).map (· + 1) = some (w.start.toNat + w.length.toNat) ∧
    numeral? 10 size.toList = some w.length.toNat

variable {w : Window}

theorem text_eq (hw : w.IsInside) (hpos : 0 < w.start.toNat + w.length.toNat) :
    ∃ text, w.text = .ok text ∧ w.IsToldBy text := by
  obtain ⟨stop, hstop, hend⟩ := exists_stop hw
  have hone : (1 : UInt64) ≤ stop := by
    rw [UInt64.le_iff_toNat_le, hend]
    exact hpos
  have hlast : (stop - 1).toNat + 1 = w.start.toNat + w.length.toNat := by
    rw [UInt64.toNat_sub_of_le _ _ hone, hend]
    exact Nat.sub_add_cancel hpos
  refine ⟨_, ?_, hexAddress w.start.toNat, hexAddress (stop - 1).toNat, toString w.length.toNat, rfl,
    numeral?_hexAddress _, ?_, numeral?_toString _⟩
  · unfold text
    rw [hstop]
    show (checkedSub stop 1 >>= _) = _
    rw [checkedSub_bind, if_pos hone]
    rfl
  · rw [numeral?_hexAddress, Option.map_some, hlast]

/-- An empty window at zero has no last address. -/
theorem text_of_eq_zero (hw : w.IsInside) (hzero : w.start.toNat + w.length.toNat = 0) : w.text = .error .fault := by
  obtain ⟨stop, hstop, hend⟩ := exists_stop hw
  have hone : ¬(1 : UInt64) ≤ stop := by
    rw [UInt64.le_iff_toNat_le, hend, hzero]
    decide
  unfold text
  rw [hstop]
  show (checkedSub stop 1 >>= _) = _
  rw [checkedSub_bind, if_neg hone]

end Window

variable {first size : UInt64} {w : Window}

/-! ### All accesses -/

/-- A window that is handed out lies inside the memory.  Reading, writing and dumping the memory and making a window are
decided by the sum and the product of their arguments if these fit 64 bits, and are faults otherwise; so are reading and
dumping a window, but a start before the window is refused first.  What a window contains is always decided by its bounds, and
its text tells them unless it is empty and begins at zero. -/
theorem range_checks_exact (m : Memory) {data : List UInt8} (hdata : data.length < UInt64.size)
    (hw : Window.of? first size = .ok w) (address length start lines : UInt64) :
    let base := start.toNat / 16 * 16
    let total := 16 * lines.toNat
    w.IsInside ∧
    (m.read address length =
      if address.toNat + length.toNat < UInt64.size then m.cells.flat.read address length else .error .fault) ∧
    ((m.write address data).map (·.cells.flat) =
      if address.toNat + data.length < UInt64.size then m.cells.flat.write address data else .error .fault) ∧
    (m.dump start lines =
      if base + total < UInt64.size then
        (m.cells.flat.read (UInt64.ofNat base) (UInt64.ofNat total)).map (dumpRows base)
      else .error .fault) ∧
    (Window.of? address length =
      if address.toNat + length.toNat < UInt64.size then
        if address.toNat + length.toNat ≤ memorySize then .ok ⟨address, length⟩
        else .error (.readOverflow length address)
      else .error .fault) ∧
    w.contains address =
      .ok (decide (w.start.toNat ≤ address.toNat ∧ address.toNat < w.start.toNat + w.length.toNat)) ∧
    (w.read m address length =
      if address.toNat < w.start.toNat ∨ address.toNat + length.toNat < UInt64.size then
        m.cells.flat.readWithin w address length
      else .error .fault) ∧
    (w.dump m start lines =
      if total < UInt64.size ∧ (base < w.start.toNat ∨ base + total < UInt64.size) then
        (m.cells.flat.readWithin w (UInt64.ofNat base) (UInt64.ofNat total)).map (dumpRows base)
      else .error .fault) ∧
    (0 < w.start.toNat + w.length.toNat → ∃ text, w.text = .ok text ∧ w.IsToldBy text) ∧
    (w.start.toNat + w.length.toNat = 0 → w.text = .error .fault) := by
  have hinside := Window.isInside_of_eq_ok hw
  exact ⟨hinside, m.read_exact address length, m.write_exact address hdata, m.dump_eq start lines,
    Window.of?_exact address length, Window.contains_eq hinside address, Window.read_exact hinside m address length,
    Window.dump_eq hinside m start lines, Window.text_eq hinside, Window.text_of_eq_zero hinside⟩

/-- A window on the last two cells: the last 64-bit address is not in it, but reading it there is a fault. -/
theorem range_checks_exact_at_last_address :
    let w : Window := { start := 0xfffe, length := 2 }
    Window.of? 0xfffe 2 = .ok w ∧ w.contains 0xffffffffffffffff = .ok false ∧
      w.read (.blank .preserve) 0xffffffffffffffff 1 = .error .fault ∧
      ∃ text, w.text = .ok text ∧ w.IsToldBy text := by
  intro w
  have hw : Window.of? 0xfffe 2 = .ok w := rfl
  have hdata : ([] : List UInt8).length < UInt64.size := by decide
  obtain ⟨-, -, -, -, -, hcontains, hread, -, htext, -⟩ :=
    range_checks_exact (.blank .preserve) hdata hw 0xffffffffffffffff 1 0 0
  exact ⟨hw, hcontains, hread.trans (if_neg (by decide)), htext (by decide)⟩

/-- Ranges far beyond the memory that are faults and not refused as such: none of them gives the overflow that it is, and the
text of an empty window at zero is a fault too. -/
theorem fault_beyond_memory :
    Window.of? 0xffffffffffffffff 1 = .error .fault ∧
    (Memory.blank .preserve).read 0xffffffffffffffff 1 = .error .fault ∧
    (Memory.blank .preserve).write 0xffffffffffffffff [0] = .error .fault ∧
    (Memory.blank .preserve).dump 0 0x1000000000000000 = .error .fault ∧
    ∃ w, Window.of? 0 0 = .ok w ∧ w.text = .error .fault :=
  ⟨rfl, rfl, rfl, rfl, _, rfl, rfl⟩

end Mos6502
