import Mos6502.Memory.Picture
import Mos6502.Proofs.Memory.Access
import Mos6502.Proofs.Memory.Flat

/-!
# The pixels of an enlarged picture

A picture is a list of rows of one length, so its entries are found by quotient and remainder (`getElem?_flatten`), and
enlarging it divides both coordinates by the scale (`getElem?_stretch`).  From this follows which cell each pixel of an
enlarged picture shows (`enlarged_pixels`).
-/

namespace Mos6502

namespace Picture

variable {α : Type} {rows : List (List α)} {entries : List α} {n i j k : Nat}

/-! ### Rows of one length -/

theorem length_flatten (h : ∀ row ∈ rows, row.length = n) : rows.flatten.length = rows.length * n := by
  induction rows with
  | nil => simp
  | cons row rows ih =>
    obtain ⟨hrow, hrows⟩ := List.forall_mem_cons.1 h
    rw [List.flatten_cons, List.length_append, ih hrows, hrow, List.length_cons, Nat.succ_mul, Nat.add_comm]

theorem getElem?_flatten (h : ∀ row ∈ rows, row.length = n) (i : Nat) (hj : j < n) :
    rows.flatten[i * n + j]? = rows[i]?.bind (·[j]?) := by
  induction rows generalizing i with
  | nil => simp
  | cons row rows ih =>
    obtain ⟨hrow, hrows⟩ := List.forall_mem_cons.1 h
    rw [List.flatten_cons]
    cases i with
    | zero =>
      rw [Nat.zero_mul, Nat.zero_add, List.getElem?_append_left (by omega)]
      rfl
    | succ i =>
      have hnext : (i + 1) * n + j = row.length + (i * n + j) := by
        rw [Nat.succ_mul]
        omega
      rw [hnext, List.getElem?_append_right (by omega), Nat.add_sub_cancel_left, ih hrows, List.getElem?_cons_succ]

theorem getElem?_flatten_div (h : ∀ row ∈ rows, row.length = n) (hn : 0 < n) (i : Nat) :
    rows.flatten[i]? = rows[i / n]?.bind (·[i % n]?) := by
  have hget := getElem?_flatten h (i / n) (Nat.mod_lt i hn)
  rwa [Nat.div_add_mod'] at hget

/-! ### Stretching -/

theorem stretch_eq_flatten (k : Nat) (entries : List α) :
    stretch k entries = (entries.map (List.replicate k)).flatten := by
  rw [stretch, List.flatMap_def]

theorem length_of_mem_replicates : ∀ row ∈ entries.map (List.replicate k), row.length = k := by
  simp

@[simp] theorem length_stretch (k : Nat) (entries : List α) : (stretch k entries).length = entries.length * k := by
  rw [stretch_eq_flatten, length_flatten length_of_mem_replicates, List.length_map]

theorem getElem?_stretch (hk : 0 < k) (entries : List α) (i : Nat) : (stretch k entries)[i]? = entries[i / k]? := by
  rw [stretch_eq_flatten, getElem?_flatten_div length_of_mem_replicates hk, List.getElem?_map]
  cases entries[i / k]? with
  | none => rfl
  | some entry => simp [Nat.mod_lt i hk]

theorem stretch_zero (entries : List α) : stretch 0 entries = [] := by
  simp [stretch]

theorem stretch_one (entries : List α) : stretch 1 entries = entries := by
  apply List.ext_getElem?
  intro i
  rw [getElem?_stretch Nat.one_pos, Nat.div_one]

theorem mem_of_mem_stretch {entry : α} (h : entry ∈ stretch k entries) : entry ∈ entries := by
  obtain ⟨entry', hmem, hentry⟩ := List.mem_flatMap.1 h
  rw [List.eq_of_mem_replicate hentry]
  exact hmem

/-! ### Cells -/

variable {m m' : Memory} {intensity : UInt8}

/-- The cell with a number, counted from the one at the top left. -/
def cell (m : Memory) (number : Nat) : UInt8 :=
  m.get (UInt16.ofNat (0x0200 + number))

theorem get_origin_add (m : Memory) (number : Nat) : m.get (origin + UInt16.ofNat number) = cell m number := by
  rw [cell, UInt16.ofNat_add]
  rfl

theorem toNat_shade (byte intensity : UInt8) :
    (shade byte intensity).toNat = 0x010101 * min (byte.toNat * intensity.toNat) 255 := by
  have hle : min (byte.toNat * intensity.toNat) 255 ≤ 255 := Nat.min_le_right _ _
  unfold shade
  dsimp only
  rw [UInt32.toNat_ofNat_of_lt' (by show _ < 4294967296; omega)]
  omega

@[simp] theorem length_row (m : Memory) (intensity : UInt8) (index : Nat) : (row m intensity index).length = 32 := by
  simp [row, side]

theorem getElem?_row (m : Memory) (intensity : UInt8) (index : Nat) (hj : j < 32) :
    (row m intensity index)[j]? = some (shade (cell m (32 * index + j)) intensity) := by
  unfold row
  rw [List.getElem?_map, List.getElem?_range (show j < side from hj), Option.map_some, get_origin_add]
  rfl

theorem row_congr (h : ∀ number < 1024, cell m' number = cell m number) {index : Nat} (hi : index < 32) :
    row m' intensity index = row m intensity index := by
  refine List.map_congr_left fun column hcolumn => ?_
  have hlt : column < 32 := List.mem_range.1 hcolumn
  rw [get_origin_add, get_origin_add, h]
  show 32 * index + column < 1024
  omega

/-- The rows of the picture. -/
def grid (m : Memory) (intensity : UInt8) : List (List UInt32) :=
  (List.range side).map (row m intensity)

theorem length_of_mem_grid : ∀ line ∈ grid m intensity, line.length = 32 := by
  simp [grid]

theorem ofMemory_eq_flatten (m : Memory) (intensity : UInt8) : ofMemory m intensity = (grid m intensity).flatten := by
  rw [ofMemory, List.flatMap_def, grid]

theorem getElem?_ofMemory (hi : i < 1024) :
    (ofMemory m intensity)[i]? = some (shade (cell m i) intensity) := by
  have hrow : i / 32 < side := Nat.div_lt_of_lt_mul hi
  rw [ofMemory_eq_flatten, getElem?_flatten_div length_of_mem_grid (by decide), grid, List.getElem?_map,
    List.getElem?_range hrow]
  show (row m intensity (i / 32))[i % 32]? = _
  rw [getElem?_row m intensity _ (Nat.mod_lt i (by decide)), Nat.div_add_mod]

theorem length_ofMemory (m : Memory) (intensity : UInt8) : (ofMemory m intensity).length = 1024 := by
  rw [ofMemory_eq_flatten, length_flatten length_of_mem_grid, grid, List.length_map, List.length_range]
  rfl

theorem range_flat (m : Memory) : m.cells.flat.range 0x0200 0x0400 = (List.range 1024).map (cell m) := by
  refine List.map_congr_left fun number hnumber => ?_
  have hlt : 0x0200 + number < 65536 := by
    have := List.mem_range.1 hnumber
    omega
  rw [cell, Memory.get_eq_flat, UInt16.toNat_ofNat_of_lt' hlt]

theorem ofMemory_eq_map (m : Memory) (intensity : UInt8) :
    ofMemory m intensity = ((List.range 1024).map (cell m)).map (shade · intensity) := by
  apply List.ext_getElem
  · simp [length_ofMemory]
  · intro i hi _
    rw [length_ofMemory] at hi
    apply Option.some.inj
    rw [← List.getElem?_eq_getElem, getElem?_ofMemory hi]
    simp

/-- The picture is a snapshot of the window from 0x0200 to 0x05FF, byte by byte. -/
theorem exists_snapshot (m : Memory) (intensity : UInt8) :
    ∃ w bytes, Window.of? 0x0200 0x0400 = .ok w ∧ w.snapshot m = .ok bytes ∧
      ofMemory m intensity = bytes.map (shade · intensity) := by
  have hwindow : Window.of? 0x0200 0x0400 = .ok { start := 0x0200, length := 0x0400 } := rfl
  refine ⟨_, _, hwindow, Window.snapshot_eq (by unfold Window.IsInside; decide) m, ?_⟩
  rw [ofMemory_eq_map, ← range_flat]
  rfl

/-! ### Enlarging -/

/-- The rows of the enlarged picture. -/
def enlargedGrid (m : Memory) (intensity : UInt8) (k : Nat) : List (List UInt32) :=
  stretch k ((grid m intensity).map (stretch k))

theorem enlarged_eq_flatten (m : Memory) (intensity : UInt8) (k : Nat) :
    enlarged m intensity k = (enlargedGrid m intensity k).flatten := by
  rw [enlarged, enlargedGrid, grid, List.map_map]
  rfl

theorem length_of_mem_enlargedGrid : ∀ line ∈ enlargedGrid m intensity k, line.length = 32 * k := by
  intro line hline
  obtain ⟨narrow, hnarrow, rfl⟩ := List.mem_map.1 (mem_of_mem_stretch hline)
  rw [length_stretch, length_of_mem_grid narrow hnarrow]

theorem length_enlarged (m : Memory) (intensity : UInt8) (k : Nat) : (enlarged m intensity k).length = 1024 * k * k := by
  rw [enlarged_eq_flatten, length_flatten length_of_mem_enlargedGrid, enlargedGrid, length_stretch, List.length_map, grid,
    List.length_map, List.length_range]
  show 32 * k * (32 * k) = 1024 * k * k
  rw [Nat.mul_mul_mul_comm, ← Nat.mul_assoc]

theorem getElem?_enlarged {x y : Nat} (hy : y < 32 * k) (hx : x < 32 * k) :
    (enlarged m intensity k)[y * (32 * k) + x]? = some (shade (cell m (32 * (y / k) + x / k)) intensity) := by
  have hk : 0 < k := by omega
  have hrow : y / k < side := Nat.div_lt_of_lt_mul (by rwa [Nat.mul_comm])
  have hcolumn : x / k < 32 := Nat.div_lt_of_lt_mul (by rwa [Nat.mul_comm])
  rw [enlarged_eq_flatten, getElem?_flatten length_of_mem_enlargedGrid y hx, enlargedGrid, getElem?_stretch hk, grid,
    List.getElem?_map, List.getElem?_map, List.getElem?_range hrow]
  show (stretch k (row m intensity (y / k)))[x]? = _
  rw [getElem?_stretch hk, getElem?_row m intensity _ hcolumn]

theorem enlarged_congr (h : ∀ number < 1024, cell m' number = cell m number) (k : Nat) :
    enlarged m' intensity k = enlarged m intensity k := by
  have hgrid : grid m' intensity = grid m intensity :=
    List.map_congr_left fun index hindex => row_congr h (List.mem_range.1 hindex)
  rw [enlarged_eq_flatten, enlarged_eq_flatten, enlargedGrid, enlargedGrid, hgrid]

/-- An enlarged picture has a square of `k` by `k` pixels for each of the 1024 cells of the window: the pixel in row `y`
and column `x` is the grey of the byte in row `y / k` and column `x / k`.  Nothing outside the window has any influence. -/
theorem enlarged_pixels (m : Memory) (intensity : UInt8) (k : Nat) :
    (enlarged m intensity k).length = 1024 * k * k ∧
    (∀ y x, y < 32 * k → x < 32 * k → ∃ pixel,
      (enlarged m intensity k)[y * 32 * k + x]? = some pixel ∧
      pixel.toNat = 0x010101 *
        min ((m.get (UInt16.ofNat (0x0200 + y / k * 32 + x / k))).toNat * intensity.toNat) 255) ∧
    enlarged m intensity 1 = ofMemory m intensity ∧ enlarged m intensity 0 = [] ∧
    (∀ m' : Memory, (∀ address, 0x0200 ≤ address → address ≤ 0x05ff → m'.get address = m.get address) →
      enlarged m' intensity k = enlarged m intensity k) ∧
    ∃ w bytes, Window.of? 0x0200 0x0400 = .ok w ∧ w.snapshot m = .ok bytes ∧
      ofMemory m intensity = bytes.map (shade · intensity) := by
  refine ⟨length_enlarged m intensity k, ?_, ?_, ?_, ?_, exists_snapshot m intensity⟩
  · intro y x hy hx
    refine ⟨_, ?_, toNat_shade _ _⟩
    rw [Nat.mul_assoc, getElem?_enlarged hy hx, cell, Nat.mul_comm 32, ← Nat.add_assoc]
  · rw [enlarged_eq_flatten, enlargedGrid, stretch_one, ofMemory_eq_flatten]
    have hone : stretch 1 = (id : List UInt32 → List UInt32) := funext stretch_one
    rw [hone, List.map_id]
  · rw [enlarged_eq_flatten, enlargedGrid, stretch_zero, List.flatten_nil]
  · intro m' h
    -- the addresses of the 1024 cells are those of the window
    refine enlarged_congr (fun number hnumber => h _ ?_ ?_) k
    all_goals
      rw [UInt16.le_iff_toNat_le, UInt16.toNat_ofNat_of_lt' (by show _ < 65536; omega)]
      simp only [UInt16.reduceToNat]
      omega

/-- One cell that is not zero, at twice its size, and a byte below the window. -/
theorem enlarged_pixels_of_one_cell :
    let m := (Memory.blank .preserve).set 0x0201 0x01
    (enlarged m 16 2).length = 4096 ∧
    (∃ pixel, (enlarged m 16 2)[1 * 32 * 2 + 2]? = some pixel ∧ pixel.toNat = 0x101010) ∧
    enlarged (m.set 0x0600 0x04) 16 2 = enlarged m 16 2 := by
  intro m
  obtain ⟨hlength, hpixels, -, -, hbelow, -⟩ := enlarged_pixels m 16 2
  have hcell : UInt16.ofNat (0x0200 + 1 / 2 * 32 + 2 / 2) = 0x0201 := rfl
  refine ⟨hlength, ?_, hbelow _ fun address _ hlast => ?_⟩
  · obtain ⟨pixel, hpixel, hgrey⟩ := hpixels 1 2 (by decide) (by decide)
    rw [hcell, Memory.get_set_self] at hgrey
    exact ⟨pixel, hpixel, hgrey⟩
  · refine Memory.get_set_ne m ?_ 0x04
    rintro rfl
    exact absurd hlast (by decide)

end Picture

end Mos6502
