import WriteWise.Graphics

namespace WriteWise.Pattern

open Library.Loops Graphics

def vbe768pIndexed : UInt16 := 0x105

/-- The mode, the mapped memory from its first byte on, and the calls of `vg_draw_rectangle`. -/
structure Canvas where
  modeInfo : ModeInfo
  frameBuffer : Nat → UInt8
  calls : List (UInt16 × UInt16 × UInt16 × UInt16) := []

def bit (n : UInt8) : UInt32 := UInt32.ofNat (2 ^ n.toNat)

def normalizeColor (m : ModeInfo) (color : UInt32) : UInt32 :=
  if m.bitsPerPixel = 32 then color else color &&& (bit m.bitsPerPixel - 1)

def component (position size : UInt8) (first : UInt32) : UInt32 :=
  (first >>> position.toUInt32) &&& (bit size - 1)

def r (m : ModeInfo) : UInt32 → UInt32 := component m.redFieldPosition m.redMaskSize

def g (m : ModeInfo) : UInt32 → UInt32 := component m.greenFieldPosition m.greenMaskSize

def b (m : ModeInfo) : UInt32 → UInt32 := component m.blueFieldPosition m.blueMaskSize

def red (m : ModeInfo) (j : UInt32) (step : UInt8) (first : UInt32) : UInt32 :=
  (r m first + j * step.toUInt32) &&& (bit m.redMaskSize - 1)

def green (m : ModeInfo) (i : UInt32) (step : UInt8) (first : UInt32) : UInt32 :=
  (g m first + i * step.toUInt32) &&& (bit m.greenMaskSize - 1)

def blue (m : ModeInfo) (j i : UInt32) (step : UInt8) (first : UInt32) : UInt32 :=
  (b m first + (j + i) * step.toUInt32) &&& (bit m.blueMaskSize - 1)

def directMode (m : ModeInfo) (red green blue : UInt32) : UInt32 :=
  red <<< m.redFieldPosition.toUInt32 ||| green <<< m.greenFieldPosition.toUInt32 |||
    blue <<< m.blueFieldPosition.toUInt32

def indexedMode (m : ModeInfo) (col row : UInt16) (step : UInt8) (first : UInt32) (n : UInt8) :
    UInt32 :=
  (first + (row.toUInt32 * n.toUInt32 + col.toUInt32) * step.toUInt32) &&& (bit m.bitsPerPixel - 1)

/-- The bytes of the colour go where the pixel lies in the mapped memory. -/
def vgDrawPixel (x y : UInt16) (color : UInt32) (s : Canvas) : Result Canvas :=
  if s.modeInfo.xResolution ≤ x ∨ s.modeInfo.yResolution ≤ y then some (s, true)
  else
    let bytesPerPixel := (s.modeInfo.bitsPerPixel.toNat + 7) >>> 3
    let index := (s.modeInfo.xResolution.toNat * y.toNat + x.toNat) * bytesPerPixel
    let put (i : Nat) : UInt8 :=
      if index ≤ i ∧ i < index + bytesPerPixel then (colorBytes color).getD (i - index) 0
      else s.frameBuffer i
    some ({ s with frameBuffer := put }, false)

def vgDrawHline (x y len : UInt16) (color : UInt32) : Canvas → Result Canvas :=
  each (fun i => vgDrawPixel (x + UInt16.ofNat i) y color) (List.range len.toNat)

def vgDrawRectangle (x y width height : UInt16) (color : UInt32) (s : Canvas) : Result Canvas :=
  each (fun i => vgDrawHline x (y + UInt16.ofNat i) width color) (List.range height.toNat)
    { s with calls := s.calls ++ [(x, y, width, height)] }

def colorOf (mode : UInt16) (m : ModeInfo) (n step : UInt8) (first : UInt32) (col row : UInt8) :
    UInt32 :=
  if mode = vbe768pIndexed then indexedMode m col.toUInt16 row.toUInt16 step first n
  else directMode m (red m col.toUInt32 step first) (green m row.toUInt32 step first)
    (blue m col.toUInt32 row.toUInt32 step first)

/-- The two loops of `video_test_pattern`, each with so much fuel. -/
def videoTestPattern (mode : UInt16) (noRectangles : UInt8) (first : UInt32) (step : UInt8)
    (fuel : Nat) (s : Canvas) : Result Canvas :=
  let m := s.modeInfo
  let first := normalizeColor m first
  let width := m.xResolution / noRectangles.toUInt16
  let height := m.yResolution / noRectangles.toUInt16
  forByte (fun col => (col.toNat + 1) * width.toNat ≤ m.xResolution.toNat)
    (fun col =>
      forByte (fun row => (row.toNat + 1) * height.toNat ≤ m.yResolution.toNat)
        (fun row =>
          vgDrawRectangle (col.toUInt16 * width) (row.toUInt16 * height) width height
            (colorOf mode m noRectangles step first col row))
        fuel 0)
    fuel 0 s

def Inside (m : ModeInfo) (call : UInt16 × UInt16 × UInt16 × UInt16) : Prop :=
  call.1.toNat + call.2.2.1.toNat ≤ m.xResolution.toNat ∧
    call.2.1.toNat + call.2.2.2.toNat ≤ m.yResolution.toNat

def Covers (call : UInt16 × UInt16 × UInt16 × UInt16) (px py : Nat) : Prop :=
  InRect call.1.toNat call.2.1.toNat call.2.2.1.toNat call.2.2.2.toNat px py

/-- A square of cells, all on the screen and no two of them overlapping. -/
structure SquareGrid (m : ModeInfo) (n : Nat) (calls : List (UInt16 × UInt16 × UInt16 × UInt16)) :
    Prop where
  count : calls.length = n * n
  inside : ∀ call ∈ calls, Inside m call
  disjoint : calls.Pairwise fun c d => ∀ px py, ¬ (Covers c px py ∧ Covers d px py)

section Drawing

variable {m : ModeInfo} {calls : List (UInt16 × UInt16 × UInt16 × UInt16)} {s : Canvas}

structure After (m : ModeInfo) (calls : List (UInt16 × UInt16 × UInt16 × UInt16)) (s : Canvas) :
    Prop where
  modeInfo : s.modeInfo = m
  calls : s.calls = calls

theorem pixel_after (h : After m calls s) {x y : UInt16} (hx : x.toNat < m.xResolution.toNat)
    (hy : y.toNat < m.yResolution.toNat) (color : UInt32) :
    Yields (After m calls) (fun _ => False) (vgDrawPixel x y color s) := by
  have hin : ¬ (s.modeInfo.xResolution ≤ x ∨ s.modeInfo.yResolution ≤ y) := by
    rw [h.modeInfo, UInt16.le_iff_toNat_le, UInt16.le_iff_toNat_le]
    omega
  rw [vgDrawPixel, if_neg hin]
  exact .done ⟨h.modeInfo, h.calls⟩

theorem toNat_offset {x len bound : UInt16} (h : x.toNat + len.toNat ≤ bound.toNat) {i : Nat}
    (hi : i < len.toNat) : (x + UInt16.ofNat i).toNat = x.toNat + i := by
  have hbound := bound.toNat_lt
  rw [UInt16.toNat_add, UInt16.toNat_ofNat_of_lt' (by rw [UInt16.size]; omega)]
  omega

theorem hline_after (h : After m calls s) {x y len : UInt16}
    (hx : x.toNat + len.toNat ≤ m.xResolution.toNat) (hy : y.toNat < m.yResolution.toNat)
    (color : UInt32) :
    Yields (After m calls) (fun _ => False) (vgDrawHline x y len color s) := by
  refine Yields.each (fun i hi t ht => ?_) h
  have hi := List.mem_range.mp hi
  refine pixel_after ht ?_ hy color
  rw [toNat_offset hx hi]
  omega

theorem rectangle_after (h : After m calls s) {x y width height : UInt16}
    (hin : Inside m (x, y, width, height)) (color : UInt32) :
    Yields (After m (calls ++ [(x, y, width, height)])) (fun _ => False)
      (vgDrawRectangle x y width height color s) := by
  have hstart : After m (calls ++ [(x, y, width, height)])
      { s with calls := s.calls ++ [(x, y, width, height)] } := by
    refine ⟨h.modeInfo, ?_⟩
    rw [h.calls]
  refine Yields.each (fun i hi t ht => ?_) hstart
  have hi := List.mem_range.mp hi
  refine hline_after ht hin.1 ?_ color
  have hy : y.toNat + height.toNat ≤ m.yResolution.toNat := hin.2
  rw [toNat_offset hy hi]
  omega

end Drawing

section Grid

theorem fits_iff {side size : Nat} (hsize : 0 < size) (i : Nat) :
    (i + 1) * size ≤ side ↔ i < side / size := by
  rw [Nat.lt_iff_add_one_le, Nat.le_div_iff_mul_le hsize]

/-- The cells of a side are as many as asked for exactly if less than a cell is left over. -/
theorem count_iff {side n : Nat} (hn : 0 < n) (h : n ≤ side) :
    n ≤ side / (side / n) ∧ (side / (side / n) = n ↔ side % n < side / n) := by
  have hsize : 0 < side / n := Nat.div_pos h hn
  have hmod := Nat.div_add_mod side n
  have hle : n ≤ side / (side / n) := by
    rw [Nat.le_div_iff_mul_le hsize]
    omega
  refine ⟨hle, ?_⟩
  have hlt : side / (side / n) < n + 1 ↔ side % n < side / n := by
    rw [Nat.div_lt_iff_lt_mul hsize, Nat.succ_mul]
    omega
  omega

def cellWidth (m : ModeInfo) (n : UInt8) : UInt16 := m.xResolution / n.toUInt16

def cellHeight (m : ModeInfo) (n : UInt8) : UInt16 := m.yResolution / n.toUInt16

def cols (m : ModeInfo) (n : UInt8) : Nat := m.xResolution.toNat / (cellWidth m n).toNat

def rows (m : ModeInfo) (n : UInt8) : Nat := m.yResolution.toNat / (cellHeight m n).toNat

def cell (m : ModeInfo) (n : UInt8) (col row : UInt8) : UInt16 × UInt16 × UInt16 × UInt16 :=
  (col.toUInt16 * cellWidth m n, row.toUInt16 * cellHeight m n, cellWidth m n, cellHeight m n)

variable {m : ModeInfo} {n : UInt8}

theorem toNat_cellWidth (m : ModeInfo) (n : UInt8) :
    (cellWidth m n).toNat = m.xResolution.toNat / n.toNat := by
  rw [cellWidth, UInt16.toNat_div, UInt8.toNat_toUInt16]

theorem toNat_cellHeight (m : ModeInfo) (n : UInt8) :
    (cellHeight m n).toNat = m.yResolution.toNat / n.toNat := by
  rw [cellHeight, UInt16.toNat_div, UInt8.toNat_toUInt16]

theorem toNat_place {i : UInt8} {size side : UInt16} (h : (i.toNat + 1) * size.toNat ≤ side.toNat) :
    (i.toUInt16 * size).toNat = i.toNat * size.toNat := by
  have hside := side.toNat_lt
  rw [Nat.succ_mul] at h
  rw [UInt16.toNat_mul, UInt8.toNat_toUInt16]
  exact Nat.mod_eq_of_lt (by omega)

theorem cell_inside {col row : UInt8}
    (hcol : (col.toNat + 1) * (cellWidth m n).toNat ≤ m.xResolution.toNat)
    (hrow : (row.toNat + 1) * (cellHeight m n).toNat ≤ m.yResolution.toNat) :
    Inside m (cell m n col row) := by
  refine ⟨?_, ?_⟩
  · simp only [cell, toNat_place hcol]
    rwa [← Nat.succ_mul]
  · simp only [cell, toNat_place hrow]
    rwa [← Nat.succ_mul]

theorem cells_apart {size i j p : Nat} (hij : i < j) (h : p < i * size + size)
    (h' : j * size ≤ p) : False := by
  have hle := Nat.mul_le_mul_right size (Nat.succ_le_of_lt hij)
  rw [Nat.succ_mul] at hle
  omega

def grid (m : ModeInfo) (n : UInt8) (cols rows : Nat) : List (UInt16 × UInt16 × UInt16 × UInt16) :=
  (List.range cols).flatMap fun col =>
    (List.range rows).map fun row => cell m n (UInt8.ofNat col) (UInt8.ofNat row)

theorem length_grid (m : ModeInfo) (n : UInt8) (cols rows : Nat) :
    (grid m n cols rows).length = cols * rows := by
  simp [grid, List.length_flatMap]

theorem mem_grid {cols rows : Nat} {call : UInt16 × UInt16 × UInt16 × UInt16} :
    call ∈ grid m n cols rows ↔ ∃ col < cols, ∃ row < rows,
      cell m n (UInt8.ofNat col) (UInt8.ofNat row) = call := by
  simp only [grid, List.mem_flatMap, List.mem_map, List.mem_range]

theorem covers_cell {col row px py : Nat} (hwidth : 0 < (cellWidth m n).toNat)
    (hheight : 0 < (cellHeight m n).toNat) (hcols : cols m n ≤ 255) (hrows : rows m n ≤ 255)
    (hcol : col < cols m n) (hrow : row < rows m n)
    (h : Covers (cell m n (UInt8.ofNat col) (UInt8.ofNat row)) px py) :
    InRect (col * (cellWidth m n).toNat) (row * (cellHeight m n).toNat) (cellWidth m n).toNat
      (cellHeight m n).toNat px py := by
  have hcol' : (UInt8.ofNat col).toNat = col :=
    UInt8.toNat_ofNat_of_lt' (by rw [UInt8.size]; omega)
  have hrow' : (UInt8.ofNat row).toNat = row :=
    UInt8.toNat_ofNat_of_lt' (by rw [UInt8.size]; omega)
  have hx := toNat_place (i := UInt8.ofNat col) ((fits_iff hwidth _).mpr (hcol'.symm ▸ hcol))
  have hy := toNat_place (i := UInt8.ofNat row) ((fits_iff hheight _).mpr (hrow'.symm ▸ hrow))
  rw [hcol'] at hx
  rw [hrow'] at hy
  rwa [Covers, cell, hx, hy] at h

theorem grid_inside (hwidth : 0 < (cellWidth m n).toNat) (hheight : 0 < (cellHeight m n).toNat)
    (hcols : cols m n ≤ 255) (hrows : rows m n ≤ 255) :
    ∀ call ∈ grid m n (cols m n) (rows m n), Inside m call := by
  intro call hcall
  obtain ⟨col, hcol, row, hrow, rfl⟩ := mem_grid.mp hcall
  refine cell_inside ((fits_iff hwidth _).mpr ?_) ((fits_iff hheight _).mpr ?_)
  · rw [UInt8.toNat_ofNat_of_lt' (by rw [UInt8.size]; omega)]
    exact hcol
  · rw [UInt8.toNat_ofNat_of_lt' (by rw [UInt8.size]; omega)]
    exact hrow

theorem grid_disjoint (hwidth : 0 < (cellWidth m n).toNat)
    (hheight : 0 < (cellHeight m n).toNat) (hcols : cols m n ≤ 255) (hrows : rows m n ≤ 255) :
    (grid m n (cols m n) (rows m n)).Pairwise fun c d =>
      ∀ px py, ¬ (Covers c px py ∧ Covers d px py) := by
  have hcovers {col row px py : Nat} (hcol : col ∈ List.range (cols m n))
      (hrow : row ∈ List.range (rows m n))
      (h : Covers (cell m n (UInt8.ofNat col) (UInt8.ofNat row)) px py) :=
    covers_cell hwidth hheight hcols hrows (List.mem_range.mp hcol) (List.mem_range.mp hrow) h
  refine List.pairwise_flatMap.mpr ⟨fun col hcol => ?_, ?_⟩
  · -- in one column the rows are apart
    refine List.pairwise_map.mpr (List.pairwise_lt_range.imp_of_mem fun hi hj hij px py h => ?_)
    exact cells_apart hij (hcovers hcol hi h.1).2.2.2 (hcovers hcol hj h.2).2.2.1
  · -- cells of two columns
    refine List.pairwise_lt_range.imp_of_mem fun hi hj hij c hc d hd px py h => ?_
    obtain ⟨row, hrow, rfl⟩ := List.mem_map.mp hc
    obtain ⟨row', hrow', rfl⟩ := List.mem_map.mp hd
    exact cells_apart hij (hcovers hi hrow h.1).2.1 (hcovers hj hrow' h.2).1

end Grid

section Loop

variable {m : ModeInfo} {n : UInt8} {mode : UInt16} {first : UInt32} {step : UInt8} {s : Canvas}
  {calls : List (UInt16 × UInt16 × UInt16 × UInt16)}

def drawCell (mode : UInt16) (m : ModeInfo) (n step : UInt8) (first : UInt32) (col row : UInt8) :
    Canvas → Result Canvas :=
  vgDrawRectangle (col.toUInt16 * cellWidth m n) (row.toUInt16 * cellHeight m n) (cellWidth m n)
    (cellHeight m n) (colorOf mode m n step first col row)

def drawColumn (mode : UInt16) (m : ModeInfo) (n step : UInt8) (first : UInt32) (fuel : Nat)
    (col : UInt8) : Canvas → Result Canvas :=
  forByte (fun row => (row.toNat + 1) * (cellHeight m n).toNat ≤ m.yResolution.toNat)
    (drawCell mode m n step first col) fuel 0

theorem videoTestPattern_eq (fuel : Nat) (hs : s.modeInfo = m) :
    videoTestPattern mode n first step fuel s =
      forByte (fun col => (col.toNat + 1) * (cellWidth m n).toNat ≤ m.xResolution.toNat)
        (drawColumn mode m n step (normalizeColor m first) fuel) fuel 0 s := by
  subst hs
  rfl

variable (mode first step) in
theorem column_after (h : After m calls s) {col : UInt8}
    (hcol : (col.toNat + 1) * (cellWidth m n).toNat ≤ m.xResolution.toNat)
    (hpos : 0 < (cellHeight m n).toNat) (hrows : rows m n ≤ 255) :
    Yields (After m (calls ++
        (List.range (rows m n)).map fun row => cell m n col (UInt8.ofNat row))) (fun _ => False)
      (each (fun row => drawCell mode m n step first col (UInt8.ofNat row))
        (List.range (rows m n)) s) := by
  refine Yields.range (I := fun k => After m (calls ++
    (List.range k).map fun row => cell m n col (UInt8.ofNat row))) (fun row hrow t ht => ?_) ?_
  · have hfits : ((UInt8.ofNat row).toNat + 1) * (cellHeight m n).toNat ≤ m.yResolution.toNat := by
      rw [UInt8.toNat_ofNat_of_lt' (by rw [UInt8.size]; omega), fits_iff hpos]
      exact hrow
    have hdraw := rectangle_after ht (cell_inside hcol hfits)
      (colorOf mode m n step first col (UInt8.ofNat row))
    rw [List.range_succ, List.map_append, ← List.append_assoc]
    exact hdraw
  · rwa [List.range_zero, List.map_nil, List.append_nil]

theorem grid_after (h : After m calls s) (hwidth : 0 < (cellWidth m n).toNat)
    (hheight : 0 < (cellHeight m n).toNat) (hcols : cols m n ≤ 255) (hrows : rows m n ≤ 255) :
    Yields (After m (calls ++ grid m n (cols m n) (rows m n))) (fun _ => False)
      (each (fun col => each (fun row =>
          drawCell mode m n step first (UInt8.ofNat col) (UInt8.ofNat row))
        (List.range (rows m n))) (List.range (cols m n)) s) := by
  refine Yields.range (I := fun k => After m (calls ++ grid m n k (rows m n)))
    (fun col hcol t ht => ?_) ?_
  · have hfits : ((UInt8.ofNat col).toNat + 1) * (cellWidth m n).toNat ≤ m.xResolution.toNat := by
      rw [UInt8.toNat_ofNat_of_lt' (by rw [UInt8.size]; omega), fits_iff hwidth]
      exact hcol
    rw [grid, List.range_succ, List.flatMap_append, ← List.append_assoc, List.flatMap_singleton]
    exact column_after mode first step ht hfits hheight hrows
  · rwa [grid, List.range_zero, List.flatMap_nil, List.append_nil]

variable (mode first step) in
theorem videoTestPattern_done (hs : s.modeInfo = m) (hwidth : 0 < (cellWidth m n).toNat)
    (hheight : 0 < (cellHeight m n).toNat) (hcols : cols m n ≤ 255) (hrows : rows m n ≤ 255)
    {fuel : Nat} (hfuel : 256 ≤ fuel) :
    ∃ s', videoTestPattern mode n first step fuel s = some (s', false) ∧
      After m (s.calls ++ grid m n (cols m n) (rows m n)) s' := by
  have hcolumn : drawColumn mode m n step (normalizeColor m first) fuel = fun col =>
      each (fun row => drawCell mode m n step (normalizeColor m first) col (UInt8.ofNat row))
        (List.range (rows m n)) := by
    funext col t
    exact forByte_done hrows (fun row => fits_iff hheight row.toNat) (by omega) t
  rw [videoTestPattern_eq fuel hs, hcolumn,
    forByte_done hcols (fun col => fits_iff hwidth col.toNat) (by omega)]
  exact (grid_after ⟨hs, rfl⟩ hwidth hheight hcols hrows).done_of_not_failed

theorem drawColumn_endless (hheight : 0 < (cellHeight m n).toNat) (hrows : 255 < rows m n)
    {col : UInt8} (hcol : (col.toNat + 1) * (cellWidth m n).toNat ≤ m.xResolution.toNat)
    (hs : s.modeInfo = m) (fuel : Nat) : drawColumn mode m n step first fuel col s = none := by
  have hfits (row : UInt8) : (row.toNat + 1) * (cellHeight m n).toNat ≤ m.yResolution.toNat := by
    have hrow := row.toNat_lt
    rw [fits_iff hheight]
    unfold rows at hrows
    omega
  refine forByte_endless (I := fun t => t.modeInfo = m) hfits
    (fun row t t' failed ht hdraw => ?_) fuel 0 hs
  obtain ⟨u, hu, hafter⟩ := (rectangle_after ⟨ht, rfl⟩ (cell_inside hcol (hfits row))
    (colorOf mode m n step first col row)).done_of_not_failed
  obtain ⟨rfl, rfl⟩ := Prod.mk.inj (Option.some.inj (hu.symm.trans hdraw))
  exact ⟨rfl, hafter.modeInfo⟩

variable (mode first step) in
theorem videoTestPattern_endless (hs : s.modeInfo = m) (hwidth : 0 < (cellWidth m n).toNat)
    (hheight : 0 < (cellHeight m n).toNat) (hcols : 0 < cols m n)
    (h : 255 < cols m n ∨ 255 < rows m n) (fuel : Nat) :
    videoTestPattern mode n first step fuel s = none := by
  rw [videoTestPattern_eq fuel hs]
  by_cases hrows : 255 < rows m n
  · have hzero : ((0 : UInt8).toNat + 1) * (cellWidth m n).toNat ≤ m.xResolution.toNat :=
      (fits_iff hwidth 0).mpr hcols
    cases fuel with
    | zero => rfl
    | succ fuel =>
      rw [forByte, if_pos hzero, drawColumn_endless hheight hrows hzero hs]
      rfl
  · have hmany : 255 < cols m n := h.resolve_right hrows
    have hfits (col : UInt8) : (col.toNat + 1) * (cellWidth m n).toNat ≤ m.xResolution.toNat := by
      have hcol := col.toNat_lt
      rw [fits_iff hwidth]
      unfold cols at hmany
      omega
    refine forByte_endless (I := fun t => t.modeInfo = m) hfits
      (fun col t t' failed ht hdraw => ?_) fuel 0 hs
    have hmore : drawColumn mode m n step (normalizeColor m first) (fuel + 256) col t =
        some (t', failed) :=
      Extends.forByte (fun _ _ => .refl _) (Nat.le_add_right fuel 256) 0 t _ hdraw
    rw [drawColumn, forByte_done (not_lt.mp hrows) (fun row => fits_iff hheight row.toNat)
      (by omega)] at hmore
    obtain ⟨u, hu, hafter⟩ := (column_after mode (normalizeColor m first) step
      ⟨ht, rfl⟩ (hfits col) hheight (not_lt.mp hrows)).done_of_not_failed
    obtain ⟨rfl, rfl⟩ := Prod.mk.inj (Option.some.inj (hu.symm.trans hmore))
    exact ⟨rfl, hafter.modeInfo⟩

theorem videoTestPattern_extends {fuel fuel' : Nat} (h : fuel ≤ fuel') :
    Extends (videoTestPattern mode n first step fuel s)
      (videoTestPattern mode n first step fuel' s) := by
  rw [videoTestPattern_eq fuel rfl, videoTestPattern_eq fuel' rfl]
  exact Extends.forByte (fun col t => Extends.forByte (fun _ _ => .refl _) h 0 t) h 0 s

theorem square_of_count {n c r : Nat} (hn : 0 < n) (hc : n ≤ c) (hr : n ≤ r) (h : c * r = n * n) :
    c = n ∧ r = n := by
  constructor
  · refine Nat.le_antisymm (Nat.le_of_mul_le_mul_right ?_ hn) hc
    rw [← h]
    exact Nat.mul_le_mul_left c hr
  · refine Nat.le_antisymm (Nat.le_of_mul_le_mul_left ?_ hn) hr
    rw [← h]
    exact Nat.mul_le_mul_right r hc

/-- The pattern is a square grid exactly if in both directions less than a cell is left over. -/
theorem square_grid_iff (s : Canvas) (hs : s.calls = []) (mode : UInt16) (n step : UInt8)
    (first : UInt32) (hn : 1 ≤ n.toNat) (hx : n.toNat ≤ s.modeInfo.xResolution.toNat)
    (hy : n.toNat ≤ s.modeInfo.yResolution.toNat) :
    (∃ fuel s', videoTestPattern mode n first step fuel s = some (s', false) ∧
      SquareGrid s.modeInfo n.toNat s'.calls) ↔
      s.modeInfo.xResolution.toNat % n.toNat < s.modeInfo.xResolution.toNat / n.toNat ∧
        s.modeInfo.yResolution.toNat % n.toNat < s.modeInfo.yResolution.toNat / n.toNat := by
  have hwidth : 0 < (cellWidth s.modeInfo n).toNat := by
    rw [toNat_cellWidth]
    exact Nat.div_pos hx hn
  have hheight : 0 < (cellHeight s.modeInfo n).toNat := by
    rw [toNat_cellHeight]
    exact Nat.div_pos hy hn
  obtain ⟨hcols, hcolsiff⟩ := count_iff hn hx
  obtain ⟨hrows, hrowsiff⟩ := count_iff hn hy
  rw [← toNat_cellWidth] at hcols
  rw [← toNat_cellHeight] at hrows
  have hlt := n.toNat_lt
  rw [← hcolsiff, ← hrowsiff, ← toNat_cellWidth, ← toNat_cellHeight]
  change _ ↔ cols s.modeInfo n = n.toNat ∧ rows s.modeInfo n = n.toNat
  constructor
  · rintro ⟨fuel, s', hrun, hgrid⟩
    have hends : ¬ (255 < cols s.modeInfo n ∨ 255 < rows s.modeInfo n) := by
      intro hlong
      rw [videoTestPattern_endless mode first step rfl hwidth hheight (hn.trans hcols) hlong] at hrun
      cases hrun
    obtain ⟨hcols', hrows'⟩ := not_or.mp hends
    obtain ⟨t, ht, hafter⟩ := videoTestPattern_done mode first step (s := s)
      rfl hwidth hheight (not_lt.mp hcols') (not_lt.mp hrows')
      (Nat.le_add_left 256 fuel)
    have hmore := videoTestPattern_extends (Nat.le_add_right fuel 256) _ hrun
    obtain ⟨rfl, -⟩ := Prod.mk.inj (Option.some.inj (ht.symm.trans hmore))
    have hcount := hgrid.count
    rw [hafter.calls, hs, List.nil_append, length_grid] at hcount
    exact square_of_count hn hcols hrows hcount
  · rintro ⟨hc, hr⟩
    obtain ⟨s', hrun, hafter⟩ := videoTestPattern_done mode first step (s := s)
      rfl hwidth hheight (by omega) (by omega) (le_refl 256)
    refine ⟨256, s', hrun, ?_⟩
    rw [hafter.calls, hs, List.nil_append]
    refine ⟨?_, grid_inside hwidth hheight (by omega) (by omega),
      grid_disjoint hwidth hheight (by omega) (by omega)⟩
    rw [length_grid, hc, hr]

/-- 1024 pixels make cells of four, which are 256 and not 255: the column counter wraps. -/
def wide : Canvas :=
  { modeInfo := { xResolution := 1024, yResolution := 768, bitsPerPixel := 8 }
    frameBuffer := fun _ => 0 }

theorem square_grid_four : ∃ fuel s',
    videoTestPattern vbe768pIndexed 4 1 1 fuel wide = some (s', false) ∧
      SquareGrid wide.modeInfo 4 s'.calls :=
  (square_grid_iff wide rfl vbe768pIndexed 4 1 1 (by decide) (by decide) (by decide)).mpr
    (by decide)

theorem wide_never_ends :
    (∀ fuel, videoTestPattern vbe768pIndexed 255 1 1 fuel wide = none) ∧
      ¬ ∃ fuel s', videoTestPattern vbe768pIndexed 255 1 1 fuel wide = some (s', false) ∧
        SquareGrid wide.modeInfo 255 s'.calls := by
  have hendless := videoTestPattern_endless vbe768pIndexed 1 1 (n := 255) (s := wide)
    rfl (by decide) (by decide) (by decide) (.inl (by decide))
  refine ⟨hendless, fun ⟨fuel, s', hrun, _⟩ => ?_⟩
  rw [hendless] at hrun
  cases hrun

end Loop

end WriteWise.Pattern
