import Mos6502.Memory.Dump

/-!
# Ranges in numbers

The cells as a function on the numbers, zero beyond the memory (`Cells.flat`), and what reading and writing come to in
this form.  A range whose end does not fit 64 bits is a fault (`Memory.read_exact`, `Memory.write_exact`).  Any other range
is refused exactly if its end is beyond the memory, and a window refuses exactly what does not lie in it
(`Memory.read_eq`, `Memory.write_eq`, `Window.read_eq`).  A window that is made lies inside the memory
(`Window.isInside_of_eq_ok`), so its own end always fits.
-/

namespace Mos6502

/-- The byte at every number. -/
abbrev Flat := Nat → UInt8

namespace Flat

/-- The bytes from a start on. -/
def range (bytes : Flat) (start length : Nat) : List UInt8 :=
  (List.range length).map fun k => bytes (start + k)

/-- The bytes with some of them replaced. -/
def overwrite (bytes : Flat) (start : Nat) (data : List UInt8) : Flat :=
  fun i => if start ≤ i then data[i - start]?.getD (bytes i) else bytes i

/-- The bytes of a range that ends inside the memory. -/
def read (bytes : Flat) (address length : UInt64) : Except MemoryError (List UInt8) :=
  if address.toNat + length.toNat ≤ memorySize then .ok (bytes.range address.toNat length.toNat)
  else .error (.readOverflow length address)

/-- The bytes with a range replaced that ends inside the memory. -/
def write (bytes : Flat) (address : UInt64) (data : List UInt8) : Except MemoryError Flat :=
  if address.toNat + data.length ≤ memorySize then .ok (bytes.overwrite address.toNat data)
  else .error (.writeOverflow (UInt64.ofNat data.length) address)

/-- The bytes of a range that lies in a window. -/
def readWithin (bytes : Flat) (w : Window) (address length : UInt64) : Except MemoryError (List UInt8) :=
  if w.start.toNat ≤ address.toNat ∧ address.toNat + length.toNat ≤ w.start.toNat + w.length.toNat then
    .ok (bytes.range address.toNat length.toNat)
  else .error (.readOverflow length address)

theorem overwrite_nil (bytes : Flat) (start : Nat) : bytes.overwrite start [] = bytes := by
  funext i
  unfold overwrite
  split <;> rfl

theorem overwrite_cons (bytes : Flat) (start : Nat) (byte : UInt8) (data : List UInt8) :
    bytes.overwrite start (byte :: data) = (bytes.overwrite start [byte]).overwrite (start + 1) data := by
  funext i
  unfold overwrite
  obtain h | rfl | h := Nat.lt_trichotomy i start
  · rw [if_neg (by omega), if_neg (by omega), if_neg (by omega)]
  · rw [if_pos (by omega), if_neg (by omega), if_pos (by omega), Nat.sub_self]
    rfl
  · obtain ⟨k, rfl⟩ : ∃ k, i = start + 1 + k := ⟨i - (start + 1), by omega⟩
    have hk : start + 1 + k - start = k + 1 := by omega
    rw [if_pos (by omega), if_pos (by omega), if_pos (by omega), hk, Nat.add_sub_cancel_left, List.getElem?_cons_succ]
    simp

end Flat

/-! ### Cells -/

namespace Cells

variable (cells : Cells)

/-- The cells as a function, zero beyond the memory. -/
def flat : Flat :=
  fun i => cells[i]?.getD 0

theorem flat_setIfInBounds {i : Nat} (h : i < memorySize) (byte : UInt8) :
    flat (cells.setIfInBounds i byte) = cells.flat.overwrite i [byte] := by
  funext j
  unfold flat Flat.overwrite
  obtain hj | rfl | hj := Nat.lt_trichotomy j i
  · rw [if_neg (by omega), Vector.getElem?_setIfInBounds_ne (by omega)]
  · rw [if_pos (Nat.le_refl _), Nat.sub_self, Vector.getElem?_setIfInBounds_self_of_lt h]
    rfl
  · obtain ⟨k, hk⟩ : ∃ k, j - i = k + 1 := ⟨j - i - 1, by omega⟩
    rw [if_pos (by omega), hk, Vector.getElem?_setIfInBounds_ne (by omega)]
    rfl

theorem flat_storeFrom (start : Nat) (data : List UInt8) (h : start + data.length ≤ memorySize) :
    (cells.storeFrom start data).flat = cells.flat.overwrite start data := by
  induction data generalizing cells start with
  | nil =>
    rw [Flat.overwrite_nil]
    rfl
  | cons byte data ih =>
    rw [List.length_cons] at h
    rw [Flat.overwrite_cons, ← flat_setIfInBounds cells (by omega)]
    exact ih _ _ (by omega)

theorem slice_eq {start stop : UInt64} (h : start.toNat ≤ stop.toNat) (hstop : stop.toNat ≤ memorySize) :
    cells.slice start stop = .ok (cells.flat.range start.toNat (stop.toNat - start.toNat)) := by
  have hsize : stop.toNat ≤ 65536 := hstop
  unfold slice Flat.range
  rw [if_pos (And.intro (UInt64.le_iff_toNat_le.2 h) (UInt64.le_iff_toNat_le.2 hstop))]
  congr 1
  apply List.ext_getElem
  · simp
    omega
  · intro k hk hk'
    have hlt : k < stop.toNat - start.toNat := by simpa using hk'
    have hcell : start.toNat + k < memorySize := by omega
    have hbyte : cells.flat (start.toNat + k) = cells[start.toNat + k] := by
      unfold flat
      rw [Vector.getElem?_eq_getElem hcell]
      rfl
    rw [List.getElem_map, List.getElem_range, hbyte]
    simp

end Cells

/-! ### Numbers of 64 bits -/

section

variable {α : Type} {a b : UInt64} (next : UInt64 → Except MemoryError α)

theorem checkedAdd_bind (a b : UInt64) :
    (checkedAdd a b >>= next) = if a.toNat + b.toNat < UInt64.size then next (a + b) else .error .fault := by
  unfold checkedAdd
  split <;> rfl

theorem checkedSub_bind (a b : UInt64) :
    (checkedSub a b >>= next) = if b ≤ a then next (a - b) else .error .fault := by
  unfold checkedSub
  split <;> rfl

theorem checkedMul_bind (a b : UInt64) :
    (checkedMul a b >>= next) = if a.toNat * b.toNat < UInt64.size then next (a * b) else .error .fault := by
  unfold checkedMul
  split <;> rfl

theorem toNat_add_of_lt (h : a.toNat + b.toNat < UInt64.size) : (a + b).toNat = a.toNat + b.toNat := by
  rw [UInt64.toNat_add, Nat.mod_eq_of_lt h]

theorem sizeLimit_lt_iff (h : a.toNat + b.toNat < UInt64.size) :
    sizeLimit < a + b ↔ ¬a.toNat + b.toNat ≤ memorySize := by
  rw [UInt64.lt_iff_toNat_lt, toNat_add_of_lt h, Nat.not_le]
  rfl

end

/-! ### The memory -/

namespace Memory

variable (m : Memory) {address length : UInt64}

theorem flat_blank (policy : PopPolicy) : (blank policy).cells.flat = fun _ => 0 := by
  funext i
  unfold Cells.flat blank
  rw [Vector.getElem?_replicate]
  split <;> rfl

theorem get_eq_flat (address : UInt16) : m.get address = m.cells.flat address.toNat := by
  unfold get Cells.flat
  rw [Vector.getElem?_eq_getElem address.toNat_lt]
  rfl

theorem flat_set (address : UInt16) (byte : UInt8) :
    (m.set address byte).cells.flat = m.cells.flat.overwrite address.toNat [byte] := by
  rw [← Cells.flat_setIfInBounds m.cells address.toNat_lt]
  unfold set
  congr 1
  apply Vector.ext
  intro k hk
  rw [Vector.getElem_set, Vector.getElem_setIfInBounds]

theorem read_exact (address length : UInt64) :
    m.read address length =
      if address.toNat + length.toNat < UInt64.size then m.cells.flat.read address length else .error .fault := by
  unfold read Flat.read
  rw [checkedAdd_bind]
  split
  · rename_i hfits
    have hend := toNat_add_of_lt hfits
    simp only [sizeLimit_lt_iff hfits, ite_not]
    split
    · rw [Cells.slice_eq _ (by omega) (by omega), hend, Nat.add_sub_cancel_left]
    · rfl
  · rfl

theorem read_eq (h : address.toNat + length.toNat < UInt64.size) :
    m.read address length = m.cells.flat.read address length :=
  (m.read_exact address length).trans (if_pos h)

theorem write_exact (address : UInt64) {data : List UInt8} (hdata : data.length < UInt64.size) :
    (m.write address data).map (·.cells.flat) =
      if address.toNat + data.length < UInt64.size then m.cells.flat.write address data else .error .fault := by
  have hlength : (UInt64.ofNat data.length).toNat = data.length := UInt64.toNat_ofNat_of_lt' hdata
  unfold write Flat.write
  dsimp only
  rw [checkedAdd_bind, hlength]
  split
  · rename_i hfits
    rw [← hlength] at hfits
    simp only [sizeLimit_lt_iff hfits, ite_not, hlength]
    split
    · rename_i hle
      rw [← Cells.flat_storeFrom _ _ _ hle]
      rfl
    · rfl
  · rfl

theorem write_eq {data : List UInt8} (h : address.toNat + data.length < UInt64.size) :
    (m.write address data).map (·.cells.flat) = m.cells.flat.write address data :=
  (m.write_exact address (Nat.lt_of_le_of_lt (Nat.le_add_left _ _) h)).trans (if_pos h)

theorem readByte_eq (address : UInt64) :
    m.readByte address =
      if address.toNat < memorySize then .ok (m.cells.flat address.toNat) else .error (.address address) := by
  unfold readByte Cells.flat
  by_cases hlt : address.toNat < memorySize
  · rw [if_pos hlt, Vector.getElem?_eq_getElem hlt]
    rfl
  · rw [if_neg hlt, Vector.getElem?_eq_none (by omega)]

theorem writeByte_eq (address : UInt64) (byte : UInt8) :
    (m.writeByte address byte).map (·.cells.flat) =
      if address.toNat < memorySize then .ok (m.cells.flat.overwrite address.toNat [byte])
      else .error (.address address) := by
  unfold writeByte
  by_cases hlt : address.toNat < memorySize
  · rw [if_pos hlt, if_pos (UInt64.lt_iff_toNat_lt.2 hlt), ← Cells.flat_setIfInBounds _ hlt]
    rfl
  · rw [if_neg hlt, if_neg fun h => hlt (UInt64.lt_iff_toNat_lt.1 h)]
    rfl

end Memory

/-! ### Windows -/

namespace Window

variable {w : Window} {start length : UInt64}

theorem of?_exact (start length : UInt64) :
    of? start length =
      if start.toNat + length.toNat < UInt64.size then
        if start.toNat + length.toNat ≤ memorySize then .ok ⟨start, length⟩ else .error (.readOverflow length start)
      else .error .fault := by
  unfold of?
  rw [checkedAdd_bind]
  split
  · rename_i hfits
    simp only [sizeLimit_lt_iff hfits, ite_not]
  · rfl

theorem of?_eq (h : start.toNat + length.toNat < UInt64.size) :
    of? start length =
      if start.toNat + length.toNat ≤ memorySize then .ok ⟨start, length⟩ else .error (.readOverflow length start) :=
  (of?_exact start length).trans (if_pos h)

/-- Whether a window lies inside the memory. -/
def IsInside (w : Window) : Prop :=
  w.start.toNat + w.length.toNat ≤ memorySize

/-- A window that is made lies inside the memory. -/
theorem isInside_of_eq_ok (hw : of? start length = .ok w) : w.IsInside := by
  rw [of?_exact] at hw
  split at hw
  · split at hw
    · rename_i hle
      obtain rfl := Except.ok.inj hw
      exact hle
    · cases hw
  · cases hw

theorem exists_stop (hw : w.IsInside) : ∃ stop, w.stop = .ok stop ∧ stop.toNat = w.start.toNat + w.length.toNat := by
  have hfits : w.start.toNat + w.length.toNat < UInt64.size := Nat.lt_of_le_of_lt hw (by decide)
  refine ⟨w.start + w.length, ?_, toNat_add_of_lt hfits⟩
  unfold stop checkedAdd
  rw [if_pos hfits]

theorem read_exact (hw : w.IsInside) (m : Memory) (start length : UInt64) :
    w.read m start length =
      if start.toNat < w.start.toNat ∨ start.toNat + length.toNat < UInt64.size then
        m.cells.flat.readWithin w start length
      else .error .fault := by
  obtain ⟨stop, hstop, hend⟩ := exists_stop hw
  have hsize : stop.toNat ≤ memorySize := Nat.le_trans (Nat.le_of_eq hend) hw
  unfold read Flat.readWithin
  rw [hstop]
  by_cases hstart : start.toNat < w.start.toNat
  · have hbefore : ¬(w.start.toNat ≤ start.toNat ∧
        start.toNat + length.toNat ≤ w.start.toNat + w.length.toNat) := by omega
    rw [if_pos (UInt64.lt_iff_toNat_lt.2 hstart), if_pos (Or.inl hstart), if_neg hbefore]
  · rw [if_neg (mt UInt64.lt_iff_toNat_lt.1 hstart), checkedAdd_bind]
    simp only [hstart, false_or]
    split
    · rename_i hfits
      have hsum := toNat_add_of_lt hfits
      have hcheck : stop < start + length ↔
          ¬(w.start.toNat ≤ start.toNat ∧ start.toNat + length.toNat ≤ w.start.toNat + w.length.toNat) := by
        rw [UInt64.lt_iff_toNat_lt, hsum, hend]
        omega
      show (if stop < start + length then _ else _) = _
      simp only [hcheck, ite_not]
      split
      · rw [Cells.slice_eq _ (by omega) (by omega), hsum, Nat.add_sub_cancel_left]
      · rfl
    · rfl

theorem read_eq (hw : w.IsInside) (m : Memory) (h : start.toNat + length.toNat < UInt64.size) :
    w.read m start length = m.cells.flat.readWithin w start length :=
  (read_exact hw m start length).trans (if_pos (Or.inr h))

theorem snapshot_eq (hw : w.IsInside) (m : Memory) :
    w.snapshot m = .ok (m.cells.flat.range w.start.toNat w.length.toNat) := by
  obtain ⟨stop, hstop, hend⟩ := exists_stop hw
  have hsize : stop.toNat ≤ memorySize := Nat.le_trans (Nat.le_of_eq hend) hw
  unfold snapshot
  rw [hstop]
  show Cells.slice m.cells w.start stop = _
  rw [Cells.slice_eq _ (by omega) hsize, hend, Nat.add_sub_cancel_left]

theorem contains_eq (hw : w.IsInside) (address : UInt64) :
    w.contains address =
      .ok (decide (w.start.toNat ≤ address.toNat ∧ address.toNat < w.start.toNat + w.length.toNat)) := by
  obtain ⟨stop, hstop, hend⟩ := exists_stop hw
  unfold contains
  rw [hstop, ← hend]
  by_cases hstart : w.start ≤ address
  · have hle := UInt64.le_iff_toNat_le.1 hstart
    rw [if_pos hstart]
    simp only [hle, true_and]
    rfl
  · have hle := mt UInt64.le_iff_toNat_le.2 hstart
    rw [if_neg hstart]
    simp [hle]

end Window

/-! ### Dumps -/

theorem toNat_rowStart (start : UInt64) : (start - start % 16).toNat = start.toNat / 16 * 16 := by
  have hrow : (start % 16).toNat = start.toNat % 16 := by
    rw [UInt64.toNat_mod]
    rfl
  have hlt := start.toNat_lt
  rw [UInt64.toNat_sub, hrow]
  omega

theorem toNat_base (start : UInt64) : (UInt64.ofNat (start.toNat / 16 * 16)).toNat = start.toNat / 16 * 16 := by
  rw [← toNat_rowStart, UInt64.ofNat_toNat]

/-- A dump begins at the row that holds its start; its length has to fit 64 bits. -/
theorem dumpWith_exact (read : UInt64 → UInt64 → Except MemoryError (List UInt8)) (start lines : UInt64) :
    dumpWith read start lines =
      if 16 * lines.toNat < UInt64.size then
        (read (UInt64.ofNat (start.toNat / 16 * 16)) (UInt64.ofNat (16 * lines.toNat))).map
          (dumpRows (start.toNat / 16 * 16))
      else .error .fault := by
  have hsixteen : (16 : UInt64).toNat = 16 := rfl
  have hrow : start % 16 ≤ start := by
    rw [UInt64.le_iff_toNat_le, UInt64.toNat_mod]
    exact Nat.mod_le _ _
  unfold dumpWith
  rw [checkedSub_bind, if_pos hrow, checkedMul_bind, hsixteen]
  split
  · rename_i hfits
    have hlength : 16 * lines = UInt64.ofNat (16 * lines.toNat) := by
      apply UInt64.toNat.inj
      rw [UInt64.toNat_mul, hsixteen, UInt64.toNat_ofNat']
    rw [hlength, ← toNat_rowStart, UInt64.ofNat_toNat]
    cases read (start - start % 16) (UInt64.ofNat (16 * lines.toNat)) <;> rfl
  · rfl

/-- A dump of the memory is decided by its end, which is beyond 64 bits as soon as its length is. -/
theorem Memory.dump_eq (m : Memory) (start lines : UInt64) :
    m.dump start lines =
      if start.toNat / 16 * 16 + 16 * lines.toNat < UInt64.size then
        (m.cells.flat.read (UInt64.ofNat (start.toNat / 16 * 16)) (UInt64.ofNat (16 * lines.toNat))).map
          (dumpRows (start.toNat / 16 * 16))
      else .error .fault := by
  unfold dump
  rw [dumpWith_exact]
  by_cases hlength : 16 * lines.toNat < UInt64.size
  · rw [if_pos hlength, m.read_exact, toNat_base, UInt64.toNat_ofNat_of_lt' hlength]
    split <;> rfl
  · rw [if_neg hlength, if_neg (by omega)]

/-- A dump of a window is refused if it begins before the window, and decided by its end otherwise. -/
theorem Window.dump_eq {w : Window} (hw : w.IsInside) (m : Memory) (start lines : UInt64) :
    w.dump m start lines =
      if 16 * lines.toNat < UInt64.size ∧
          (start.toNat / 16 * 16 < w.start.toNat ∨ start.toNat / 16 * 16 + 16 * lines.toNat < UInt64.size) then
        (m.cells.flat.readWithin w (UInt64.ofNat (start.toNat / 16 * 16)) (UInt64.ofNat (16 * lines.toNat))).map
          (dumpRows (start.toNat / 16 * 16))
      else .error .fault := by
  unfold dump
  rw [dumpWith_exact]
  by_cases hlength : 16 * lines.toNat < UInt64.size
  · rw [if_pos hlength, read_exact hw, toNat_base, UInt64.toNat_ofNat_of_lt' hlength]
    simp only [hlength, true_and]
    split <;> rfl
  · rw [if_neg hlength, if_neg fun h => hlength h.1]

theorem dumpWith_congr {read read' : UInt64 → UInt64 → Except MemoryError (List UInt8)} {start lines : UInt64}
    (h : start.toNat + 16 * lines.toNat < UInt64.size)
    (hr : ∀ address length : UInt64, address.toNat + length.toNat < UInt64.size →
      read address length = read' address length) :
    dumpWith read start lines = dumpWith read' start lines := by
  have hlt : start.toNat / 16 * 16 + 16 * lines.toNat < UInt64.size := by omega
  have hlength : (UInt64.ofNat (16 * lines.toNat)).toNat = 16 * lines.toNat :=
    UInt64.toNat_ofNat_of_lt' (Nat.lt_of_le_of_lt (Nat.le_add_left _ _) h)
  rw [dumpWith_exact, dumpWith_exact, hr _ _ (by rw [toNat_base, hlength]; exact hlt)]

end Mos6502
