import OrbitOpenEO.Downloads

/-!
# Two ways to cut a window

The tiled download and the one in process cut the same pixels out of a raster: both
paint its picture on the part of the window that lies in the raster, one tile by tile
and the other row by row (`stitch_paints`, `copyRows_paints`).  They differ in what
they leave unpainted.  One fills it with zeros and the other with the no-data value.
-/

namespace OrbitOpenEO

open Lib

/-- The window has a pixel of the raster. -/
def PixelWindow.Meets (window : PixelWindow) (file : TiffFile) : Prop :=
  (0 < window.rowOff + window.rows ∧ window.rowOff < file.rows) ∧
    0 < window.colOff + window.cols ∧ window.colOff < file.cols

/-- It has no other pixel. -/
def PixelWindow.Within (window : PixelWindow) (file : TiffFile) : Prop :=
  (0 ≤ window.rowOff ∧ window.rowOff + window.rows ≤ file.rows) ∧
    0 ≤ window.colOff ∧ window.colOff + window.cols ≤ file.cols

/-- The pixel of the window with this number is one of the raster. -/
def PixelWindow.InSource (window : PixelWindow) (file : TiffFile) (i : Nat) : Prop :=
  (0 ≤ window.rowOff + ↑(i / window.cols) ∧ window.rowOff + ↑(i / window.cols) < file.rows) ∧
    0 ≤ window.colOff + ↑(i % window.cols) ∧ window.colOff + ↑(i % window.cols) < file.cols

instance (window : PixelWindow) (file : TiffFile) : Decidable (window.Meets file) := by
  unfold PixelWindow.Meets
  infer_instance

instance (window : PixelWindow) (file : TiffFile) (i : Nat) :
    Decidable (window.InSource file i) := by
  unfold PixelWindow.InSource
  infer_instance

/-- The raster, by the numbers of the pixels of a window. -/
def PixelWindow.picture (window : PixelWindow) (file : TiffFile) (i : Nat) : F64 :=
  file.pixel (window.rowOff + ↑(i / window.cols)).toNat (window.colOff + ↑(i % window.cols)).toNat

/-- The rows to read. -/
def PixelWindow.rowsRead (window : PixelWindow) (file : TiffFile) : Segment :=
  ⟨readStart window.rowOff,
    readEnd window.rowOff window.rows file.rows - readStart window.rowOff⟩

/-- The columns to read. -/
def PixelWindow.colsRead (window : PixelWindow) (file : TiffFile) : Segment :=
  ⟨readStart window.colOff,
    readEnd window.colOff window.cols file.cols - readStart window.colOff⟩

section Windows

variable {file : TiffFile} {window : PixelWindow}

theorem le_readStart (off : Int) : off ≤ readStart off := by
  unfold readStart
  omega

/-- A range that meets an axis has a part to read. -/
theorem readStart_lt_readEnd (off : Int) {size total : Nat} (hsize : 0 < size) (htotal : 0 < total) :
    readStart off < readEnd off size total ↔ 0 < off + size ∧ off < total := by
  unfold readStart readEnd
  omega

/-- What is read of an axis: what the range has of it. -/
theorem readStart_le_and_lt_readEnd (off : Int) {size : Nat} (total : Nat) {y : Nat} (hy : y < size) :
    (0 ≤ off + y ∧ readStart off ≤ (off + y).toNat ∧ (off + y).toNat < readEnd off size total) ↔
      0 ≤ off + y ∧ off + y < total := by
  unfold readStart readEnd
  omega

/-- The part to read lies in the window. -/
theorem seenFrom_end_le {off : Int} {size total lo hi : Nat} (hlo : readStart off ≤ lo)
    (hhi : hi ≤ readEnd off size total) (hlt : lo < hi) :
    (lo - off).toNat + (hi - lo) ≤ size := by
  unfold readStart at hlo
  unfold readEnd at hhi
  omega

theorem toNat_lt_of_lt_readEnd {off : Int} {size total x : Nat} (hle : off ≤ x)
    (hlt : x < readEnd off size total) : (x - off).toNat < size := by
  unfold readEnd at hlt
  omega

theorem lt_total_of_lt_readEnd {off : Int} {size total x : Nat}
    (hlt : x < readEnd off size total) : x < total := by
  unfold readEnd at hlt
  omega

/-- A row of a rectangle ends before the rectangle. -/
theorem row_end_le {row rows col n cols : Nat} (hrow : row < rows) (hcol : col + n ≤ cols) :
    row * cols + col + n ≤ rows * cols := by
  have hmul : (row + 1) * cols ≤ rows * cols := Nat.mul_le_mul_right cols hrow
  rw [Nat.succ_mul] at hmul
  omega

theorem div_mod_of_row (row : Nat) {col cols : Nat} (hcol : col < cols) :
    (row * cols + col) / cols = row ∧ (row * cols + col) % cols = col := by
  refine ⟨?_, Nat.mul_add_mod_of_lt hcol⟩
  rw [Nat.mul_comm, Nat.mul_add_div (by omega), Nat.div_eq_of_lt hcol, Nat.add_zero]

/-- The picture at a place of the window. -/
theorem picture_at (window : PixelWindow) {row col : Nat} (hrow : window.rowOff ≤ row) (hcol : window.colOff ≤ col)
    (hlt : (col - window.colOff).toNat < window.cols) :
    window.picture file
        ((row - window.rowOff).toNat * window.cols + (col - window.colOff).toNat) =
      file.pixel row col := by
  obtain ⟨hdiv, hmod⟩ := div_mod_of_row (row - window.rowOff).toNat hlt
  unfold PixelWindow.picture
  rw [hdiv, hmod]
  congr 1 <;> omega

theorem asUsize_of_le {off : Int} {n : Nat} (h : off ≤ n) :
    asUsize (n - off) = some (n - off).toNat :=
  if_pos (by omega)

section Copy

variable (lib : Libraries)

/-- What is written outside the raster. -/
def fillValue (file : TiffFile) : F64 :=
  (file.noData.bind (file.dtype.numCast lib.toF32)).getD (.finite 0)

/-- The rows that are read are painted, one by one. -/
theorem copyRows_paints (hrows : readStart window.rowOff < readEnd window.rowOff window.rows file.rows)
    (hcols : readStart window.colOff < readEnd window.colOff window.cols file.cols) :
    ∃ out, copyRows lib file window = some out ∧
      Paints (window.picture file)
        (rowSegments window.cols ((window.rowsRead file).seenFrom window.rowOff)
          ((window.colsRead file).seenFrom window.colOff))
        (Canvas.blank (window.cols * window.rows) (fillValue lib file)) out := by
  have hrowLe := le_readStart window.rowOff
  have hcolLe := le_readStart window.colOff
  unfold copyRows
  rw [if_pos (by rw [Bool.and_eq_true, decide_eq_true_eq, decide_eq_true_eq]; omega),
    asUsize_of_le hcolLe, asUsize_of_le hrowLe]
  change ∃ out, (List.range' 0 (window.rowsRead file).length).foldlM _ _ = some out ∧ _
  have hsegments : rowSegments window.cols ((window.rowsRead file).seenFrom window.rowOff)
      ((window.colsRead file).seenFrom window.colOff) =
      (List.range' 0 (window.rowsRead file).length).flatMap fun r =>
        [⟨((readStart window.rowOff - window.rowOff).toNat + r) * window.cols +
          (readStart window.colOff - window.colOff).toNat, (window.colsRead file).length⟩] := by
    rw [← List.map_eq_flatMap]
    unfold rowSegments
    rw [show ((window.rowsRead file).seenFrom window.rowOff).start =
      (readStart window.rowOff - window.rowOff).toNat + 0 from rfl, ← List.map_add_range',
      List.map_map]
    rfl
  rw [hsegments]
  refine foldlM_paints
    (fun r hr canvas (hlength : canvas.length = window.cols * window.rows) => ?_) _ rfl
  have hr : r < (window.rowsRead file).length := by
    simpa using (List.mem_range'_1.mp hr).2
  have hrowEnd := seenFrom_end_le (Nat.le_refl _) (Nat.le_refl _) hrows
  have hcolEnd := seenFrom_end_le (Nat.le_refl _) (Nat.le_refl _) hcols
  unfold PixelWindow.rowsRead at hr
  dsimp only at hr
  refine copy_paints ?_ ?_ fun k hk => ?_
  · rw [hlength, Nat.mul_comm window.cols]
    exact row_end_le (by omega) hcolEnd
  · dsimp only
    rw [← Nat.succ_mul, Nat.mul_comm]
    exact Nat.mul_le_mul_left _ hr
  · obtain ⟨hdiv, hmod⟩ := div_mod_of_row r hk
    dsimp only [PixelWindow.colsRead] at hdiv hmod hk ⊢
    have hrow : (((readStart window.rowOff + r : Nat) : Int) - window.rowOff).toNat =
        (readStart window.rowOff - window.rowOff).toNat + r := by omega
    have hcol : (((readStart window.colOff + k : Nat) : Int) - window.colOff).toNat =
        (readStart window.colOff - window.colOff).toNat + k := by omega
    rw [hdiv, hmod, ← picture_at window (by omega) (by omega) (by omega), hrow, hcol,
      Nat.add_assoc]

end Copy

section Tiles

variable {tileW tileH : Nat}

/-- What a tile has of the part to read: its rows and columns in the window. -/
def PixelWindow.tilePart (window : PixelWindow) (file : TiffFile) (tileW tileH : Nat)
    (t : Nat × Nat) : Segment × Segment :=
  ((clippedBlock (readStart window.rowOff) (readEnd window.rowOff window.rows file.rows) tileH
      t.2).seenFrom window.rowOff,
    (clippedBlock (readStart window.colOff) (readEnd window.colOff window.cols file.cols) tileW
      t.1).seenFrom window.colOff)

/-- A tile shows the picture where it lies in the raster. -/
theorem decodeTile_elem {tx ty row col : Nat} (hrow : ty * tileH ≤ row)
    (hcol : tx * tileW ≤ col) (hlt : col < tx * tileW + tileW) (hrows : row < file.rows)
    (hcols : col < file.cols) :
    (decodeTile file tileW tileH tx ty).elem
        ((row - ty * tileH) * tileW + (col - tx * tileW)) = file.pixel row col := by
  obtain ⟨hdiv, hmod⟩ := div_mod_of_row (row - ty * tileH)
    (show col - tx * tileW < tileW by omega)
  unfold decodeTile
  dsimp only
  rw [hdiv, hmod, Nat.add_sub_cancel' hrow, Nat.add_sub_cancel' hcol, if_pos ⟨hrows, hcols⟩]

/-- A tile that the part to read meets is painted, row by row. -/
theorem placeTile_paints {tx ty : Nat}
    (hrow : max (ty * tileH) (readStart window.rowOff) <
      min (ty * tileH + tileH) (readEnd window.rowOff window.rows file.rows))
    (hcol : max (tx * tileW) (readStart window.colOff) <
      min (tx * tileW + tileW) (readEnd window.colOff window.cols file.cols))
    (canvas : Canvas F64) (hlength : canvas.length = window.cols * window.rows) :
    ∃ after, placeTile canvas window tx ty (decodeTile file tileW tileH tx ty) tileW tileH
        (readStart window.colOff) (readStart window.rowOff)
        (readEnd window.colOff window.cols file.cols)
        (readEnd window.rowOff window.rows file.rows) = some after ∧
      Paints (window.picture file)
        (rowSegments window.cols (window.tilePart file tileW tileH (tx, ty)).1
          (window.tilePart file tileW tileH (tx, ty)).2) canvas after := by
  have hrowLe := le_readStart window.rowOff
  have hcolLe := le_readStart window.colOff
  have hcolEnd := seenFrom_end_le (Nat.le_max_right _ _) (Nat.min_le_right _ _) hcol
  unfold placeTile PixelWindow.tilePart
  rw [if_neg (by rw [Bool.or_eq_true, decide_eq_true_eq, decide_eq_true_eq]; omega)]
  rw [rowSegments_seenFrom (by unfold clippedBlock; dsimp only; omega), List.map_eq_flatMap]
  refine foldlM_paints (fun row hmem canvas hlength => ?_) canvas hlength
  rw [List.mem_range'_1] at hmem
  rw [asUsize_of_le (by omega), asUsize_of_le (by omega)]
  have hrowLt : row < readEnd window.rowOff window.rows file.rows := by omega
  have hcolLt := Nat.min_le_right (tx * tileW + tileW)
    (readEnd window.colOff window.cols file.cols)
  refine copy_paints ?_ ?_ fun k hk => ?_
  · rw [hlength, Nat.mul_comm window.cols]
    exact row_end_le (toNat_lt_of_lt_readEnd (by omega) hrowLt) hcolEnd
  · change _ ≤ tileW * tileH
    rw [Nat.mul_comm tileW]
    exact row_end_le (by omega) (by omega)
  · have hcolK : max (tx * tileW) (readStart window.colOff) + k <
        readEnd window.colOff window.cols file.cols := by omega
    have hshow : (decodeTile file tileW tileH tx ty).elem ((row - ty * tileH) * tileW +
        (max (tx * tileW) (readStart window.colOff) + k - tx * tileW)) =
        file.pixel row (max (tx * tileW) (readStart window.colOff) + k) :=
      decodeTile_elem (by omega) (by omega) (by omega) (lt_total_of_lt_readEnd hrowLt)
        (lt_total_of_lt_readEnd hcolK)
    have hcolAt : ((max (tx * tileW) (readStart window.colOff) + k : Nat) - window.colOff).toNat =
        ((max (tx * tileW) (readStart window.colOff) : Nat) - window.colOff).toNat + k := by
      omega
    have hwidth : ((max (tx * tileW) (readStart window.colOff) + k : Nat) -
        window.colOff).toNat < window.cols := toNat_lt_of_lt_readEnd (by omega) hcolK
    rw [Nat.add_assoc, Nat.add_assoc, ← hcolAt, picture_at window (by omega) (by omega) hwidth,
      ← hshow]
    congr 2
    omega

theorem tileRange_of_lt {lo hi size : Nat} (hsize : 0 < size) (hlt : lo < hi) :
    tileRange lo hi size = (lo / size, (hi - 1) / size + 1) :=
  if_neg (by rw [Bool.or_eq_true, decide_eq_true_eq, beq_iff_eq]; omega)

theorem tileRange_of_le {lo hi size : Nat} (hle : hi ≤ lo) : tileRange lo hi size = (0, 0) :=
  if_pos (by rw [Bool.or_eq_true, decide_eq_true_eq]; exact Or.inl hle)

/-- The tiles paint what they have of the part to read. -/
theorem stitch_paints (htileW : 0 < tileW) (htileH : 0 < tileH)
    (hrows : readStart window.rowOff < readEnd window.rowOff window.rows file.rows)
    (hcols : readStart window.colOff < readEnd window.colOff window.cols file.cols) :
    ∃ out, stitch file window tileW tileH = some out ∧
      Paints (window.picture file)
        ((tileIndices file window tileW tileH).flatMap fun t =>
          rowSegments window.cols (window.tilePart file tileW tileH t).1
            (window.tilePart file tileW tileH t).2)
        (Canvas.blank (window.cols * window.rows) (.finite 0)) out := by
  unfold stitch
  refine foldlM_paints
    (fun t ht canvas (hlength : canvas.length = window.cols * window.rows) => ?_) _ rfl
  unfold tileIndices at ht
  rw [tileRange_of_lt htileW hcols, tileRange_of_lt htileH hrows] at ht
  obtain ⟨ty, hty, ht⟩ := List.mem_flatMap.mp ht
  obtain ⟨tx, htx, rfl⟩ := List.mem_map.mp ht
  exact placeTile_paints (clippedBlock_length_pos htileH hrows hty)
    (clippedBlock_length_pos htileW hcols htx) canvas hlength

/-- What is read of an axis, from the origin of the window. -/
theorem coverCount_blocks_seenFrom {off : Int} {size total block y : Nat} (hblock : 0 < block)
    (hlt : readStart off < readEnd off size total) (hy : y < size) :
    coverCount
        (((List.range' (readStart off / block)
            ((readEnd off size total - 1) / block + 1 - readStart off / block)).map
          (clippedBlock (readStart off) (readEnd off size total) block)).map
            (Segment.seenFrom off)) y =
      if 0 ≤ off + y ∧ off + y < total then 1 else 0 := by
  have hstart : ∀ s ∈ (List.range' (readStart off / block)
      ((readEnd off size total - 1) / block + 1 - readStart off / block)).map
        (clippedBlock (readStart off) (readEnd off size total) block), off ≤ s.start := by
    intro s hs
    obtain ⟨t, _, rfl⟩ := List.mem_map.mp hs
    have hle := le_readStart off
    unfold clippedBlock
    dsimp only
    omega
  rw [coverCount_seenFrom hstart, coverCount_clippedBlocks hblock hlt]
  have hiff := readStart_le_and_lt_readEnd off total hy
  split_ifs <;> first | rfl | omega

/-- The row and the column of a pixel number. -/
theorem row_col_lt {i : Nat} (hi : i < window.cols * window.rows) :
    i / window.cols < window.rows ∧ i % window.cols < window.cols := by
  refine ⟨Nat.div_lt_of_lt_mul hi, Nat.mod_lt _ ?_⟩
  exact Nat.pos_of_ne_zero fun hzero => by simp [hzero] at hi

/-- The parts of the tiles, row by row. -/
theorem map_tilePart (htileW : 0 < tileW) (htileH : 0 < tileH)
    (hrows : readStart window.rowOff < readEnd window.rowOff window.rows file.rows)
    (hcols : readStart window.colOff < readEnd window.colOff window.cols file.cols) :
    (tileIndices file window tileW tileH).map (window.tilePart file tileW tileH) =
      (((List.range' (readStart window.rowOff / tileH)
          ((readEnd window.rowOff window.rows file.rows - 1) / tileH + 1 -
            readStart window.rowOff / tileH)).map
        (clippedBlock (readStart window.rowOff)
          (readEnd window.rowOff window.rows file.rows) tileH)).map
            (Segment.seenFrom window.rowOff)).flatMap fun r =>
        (((List.range' (readStart window.colOff / tileW)
            ((readEnd window.colOff window.cols file.cols - 1) / tileW + 1 -
              readStart window.colOff / tileW)).map
          (clippedBlock (readStart window.colOff)
            (readEnd window.colOff window.cols file.cols) tileW)).map
              (Segment.seenFrom window.colOff)).map fun c => (r, c) := by
  unfold tileIndices
  rw [tileRange_of_lt htileW hcols, tileRange_of_lt htileH hrows]
  simp only [List.map_flatMap, List.flatMap_map, List.map_map]
  rfl

/-- The tiles have each pixel of the raster once. -/
theorem coverCount_stitched (htileW : 0 < tileW) (htileH : 0 < tileH)
    (hrows : readStart window.rowOff < readEnd window.rowOff window.rows file.rows)
    (hcols : readStart window.colOff < readEnd window.colOff window.cols file.cols) {i : Nat}
    (hi : i < window.cols * window.rows) :
    coverCount ((tileIndices file window tileW tileH).flatMap fun t =>
        rowSegments window.cols (window.tilePart file tileW tileH t).1
          (window.tilePart file tileW tileH t).2) i =
      if window.InSource file i then 1 else 0 := by
  obtain ⟨hrow, hcol⟩ := row_col_lt hi
  have hfits : ∀ p ∈ (tileIndices file window tileW tileH).map
      (window.tilePart file tileW tileH), p.2.start + p.2.length ≤ window.cols := by
    rw [map_tilePart htileW htileH hrows hcols]
    intro p hp
    obtain ⟨r, _, hp⟩ := List.mem_flatMap.mp hp
    obtain ⟨c, hc, rfl⟩ := List.mem_map.mp hp
    rw [List.map_map] at hc
    obtain ⟨tx, htx, rfl⟩ := List.mem_map.mp hc
    exact seenFrom_end_le (Nat.le_max_right _ _) (Nat.min_le_right _ _)
      (clippedBlock_length_pos htileW hcols htx)
  rw [← List.flatMap_map (f := window.tilePart file tileW tileH)
    (g := fun p => rowSegments window.cols p.1 p.2),
    coverCount_flatMap_rowSegments hfits, map_tilePart htileW htileH hrows hcols,
    coverCount_product, coverCount_blocks_seenFrom htileH hrows hrow,
    coverCount_blocks_seenFrom htileW hcols hcol, ite_zero_mul_ite_zero]
  exact if_congr Iff.rfl rfl rfl

theorem isEmpty_tileIndices_iff (htileW : 0 < tileW) (htileH : 0 < tileH)
    (hrows : 0 < window.rows) (hcols : 0 < window.cols) :
    (tileIndices file window tileW tileH).isEmpty = true ↔ ¬ window.Meets file := by
  have hrowIff := readStart_lt_readEnd window.rowOff hrows file.rows_pos
  have hcolIff := readStart_lt_readEnd window.colOff hcols file.cols_pos
  have hempty : ∀ {lo hi size : Nat}, 0 < size → lo < hi →
      List.range' (lo / size) ((hi - 1) / size + 1 - lo / size) ≠ [] := by
    intro lo hi size _ hlt hnil
    rw [List.range'_eq_nil_iff] at hnil
    have hle : lo / size ≤ (hi - 1) / size := Nat.div_le_div_right (by omega)
    omega
  unfold PixelWindow.Meets
  rw [← hrowIff, ← hcolIff, List.isEmpty_iff]
  unfold tileIndices
  constructor
  · rintro hnil ⟨hr, hc⟩
    rw [tileRange_of_lt htileW hc, tileRange_of_lt htileH hr] at hnil
    obtain ⟨ty, hty⟩ := List.exists_mem_of_ne_nil _ (hempty htileH hr)
    exact hempty htileW hc (List.map_eq_nil_iff.mp (List.flatMap_eq_nil_iff.mp hnil ty hty))
  · intro hnot
    by_cases hr : readStart window.rowOff < readEnd window.rowOff window.rows file.rows
    · have hc := fun hc => hnot ⟨hr, hc⟩
      rw [tileRange_of_le (Nat.not_lt.mp hc)]
      simp
    · rw [tileRange_of_le (Nat.not_lt.mp hr)]
      rfl

end Tiles

theorem not_inSource (hmeets : ¬ window.Meets file) {i : Nat}
    (hi : i < window.cols * window.rows) : ¬ window.InSource file i := by
  obtain ⟨hrow, hcol⟩ := row_col_lt hi
  unfold PixelWindow.Meets at hmeets
  unfold PixelWindow.InSource
  generalize i / window.cols = row at hrow ⊢
  generalize i % window.cols = col at hcol ⊢
  omega

/-- The rows that are read have each pixel of the raster once. -/
theorem coverCount_read {i : Nat} (hi : i < window.cols * window.rows)
    (hrows : readStart window.rowOff < readEnd window.rowOff window.rows file.rows)
    (hcols : readStart window.colOff < readEnd window.colOff window.cols file.cols) :
    coverCount
        (rowSegments window.cols ((window.rowsRead file).seenFrom window.rowOff)
          ((window.colsRead file).seenFrom window.colOff)) i =
      if window.InSource file i then 1 else 0 := by
  obtain ⟨hrow, hcol⟩ := row_col_lt hi
  have hcolEnd := seenFrom_end_le (Nat.le_refl _) (Nat.le_refl _) hcols
  have hrowIff := readStart_le_and_lt_readEnd window.rowOff file.rows hrow
  have hcolIff := readStart_le_and_lt_readEnd window.colOff file.cols hcol
  rw [coverCount_rowSegments hcolEnd, Segment.covers_seenFrom (le_readStart _),
    Segment.covers_seenFrom (le_readStart _)]
  refine if_congr ?_ rfl rfl
  simp only [Bool.and_eq_true, decide_eq_true_eq, Segment.covers_iff, PixelWindow.rowsRead,
    PixelWindow.colsRead, PixelWindow.InSource, ← hrowIff, ← hcolIff]
  omega

/-- The pixels of a window of the raster, and a value where it has none. -/
def PixelWindow.padded (window : PixelWindow) (file : TiffFile) (fill : F64) (i : Nat) : F64 :=
  if window.InSource file i then window.picture file i else fill

/-- What paints the pixels of the raster over one value. -/
theorem padded_of_paints {segments : List Segment} {fill : F64} {out : Canvas F64}
    (h : Paints (window.picture file) segments
      (Canvas.blank (window.cols * window.rows) fill) out) {i : Nat}
    (hcount : coverCount segments i = if window.InSource file i then 1 else 0) :
    out.elem i = window.padded file fill i := by
  rw [h.elem, hcount]
  unfold PixelWindow.padded
  split_ifs <;> first | rfl | omega

variable (lib : Libraries)

/-- The window in process. -/
theorem copyRows_spec (hrows : 0 < window.rows) (hcols : 0 < window.cols)
    (hmeets : window.Meets file) :
    ∃ out, copyRows lib file window = some out ∧
      ∀ i < window.cols * window.rows,
        out.elem i = window.padded file (fillValue lib file) i := by
  have hr := (readStart_lt_readEnd _ hrows file.rows_pos).mpr hmeets.1
  have hc := (readStart_lt_readEnd _ hcols file.cols_pos).mpr hmeets.2
  obtain ⟨out, hout, hpaints⟩ := copyRows_paints lib hr hc
  exact ⟨out, hout, fun i hi => padded_of_paints hpaints (coverCount_read hi hr hc)⟩

/-- The tiles of a window fit into it, and each pixel of the raster is written once. -/
def StitchedOnce (file : TiffFile) (window : PixelWindow) (tileW tileH : Nat) : Prop :=
  ∃ out, stitch file window tileW tileH = some out ∧
    ∀ i < window.cols * window.rows,
      coverCount out.copied i = if window.InSource file i then 1 else 0

/-- The window tile by tile. -/
theorem stitch_spec {tileW tileH : Nat} (htileW : 0 < tileW) (htileH : 0 < tileH)
    (hrows : 0 < window.rows) (hcols : 0 < window.cols) :
    ∃ out, stitch file window tileW tileH = some out ∧
      ∀ i < window.cols * window.rows,
        out.elem i = window.padded file (.finite 0) i ∧
          coverCount out.copied i = if window.InSource file i then 1 else 0 := by
  by_cases hmeets : window.Meets file
  · have hr := (readStart_lt_readEnd _ hrows file.rows_pos).mpr hmeets.1
    have hc := (readStart_lt_readEnd _ hcols file.cols_pos).mpr hmeets.2
    obtain ⟨out, hout, hpaints⟩ := stitch_paints htileW htileH hr hc
    refine ⟨out, hout, fun i hi => ?_⟩
    have hcount := coverCount_stitched htileW htileH hr hc hi
    exact ⟨padded_of_paints hpaints hcount, by rw [hpaints.copied]; exact hcount⟩
  · have hnil := (isEmpty_tileIndices_iff htileW htileH hrows hcols).mpr hmeets
    refine ⟨_, by unfold stitch; rw [List.isEmpty_iff.mp hnil]; rfl, fun i hi => ?_⟩
    unfold PixelWindow.padded
    rw [if_neg (not_inSource hmeets hi), if_neg (not_inSource hmeets hi)]
    exact ⟨rfl, rfl⟩

end Windows

/-- A raster that both downloaders read: one band in tiles, of a type they support, north
up. -/
structure TiledSource (lib : Libraries) (src : String) where
  parsed : ParsedSource
  file : TiffFile
  others : List TiffFile
  tileW : Nat
  tileH : Nat
  originX : ℚ
  pixW : ℚ
  originY : ℚ
  pixH : ℚ
  spatialRef : String
  parse_eq : parseSource lib src = .ok parsed
  reader_eq : lib.openReader parsed = .ok ()
  ifds_eq : lib.readIfds parsed = .ok (file :: others)
  gdal_eq : lib.gdalOpen src = .ok file
  single_band : file.samplesPerPixel = 1
  supported : ∀ name, file.dtype ≠ .other name
  tileW_eq : file.tileWidth = some tileW
  tileH_eq : file.tileHeight = some tileH
  tileW_pos : 0 < tileW
  tileH_pos : 0 < tileH
  tags_eq : ifdGeoTransform file = .ok (originX, pixW, originY, pixH)
  geoTransform_eq : file.geoTransform = .ok ⟨originX, pixW, 0, originY, 0, pixH⟩
  pixW_pos : 0 < pixW
  pixH_neg : pixH < 0
  spatialRef_eq : file.spatialRef = .ok spatialRef

section Sources

variable {lib : Libraries} {src : String} (s : TiledSource lib src)

/-- The window is given in the reference system of the raster: the tiled download has
nothing to project, and between equal systems GDAL changes no bounds. -/
structure InOwnCrs (cropCrs : Option String) : Prop where
  decision : ∀ epsg, reprojectDecision s.file cropCrs ≠ .epsgToEpsg epsg
  same : ∃ workSr,
    (match cropCrs.filter (fun c => (validateCrsSpec c).isOk) with
      | some c => lib.fromDefinition c
      | none => .ok s.spatialRef) = .ok workSr ∧
    lib.coordTransform workSr s.spatialRef = .ok () ∧
    ∀ w, lib.transformBounds workSr s.spatialRef w = .ok w

/-- The pixels of a window of coordinates. -/
def TiledSource.window (crop : CropWindow) : Option PixelWindow :=
  projwin crop s.originX s.pixW s.originY s.pixH

/-- The window is cut, and filled where the raster has no pixel.  A window without a pixel
of the raster is an error. -/
def TiledSource.Cuts (crop : CropWindow) (fill : F64) (result : Except Failure WrittenRaster) :
    Prop :=
  match (s.window crop).filter (fun window => window.Meets s.file) with
  | none => ∃ e, result = .error (.error e)
  | some window =>
      ∃ out, result = .ok out ∧ out.rows = window.rows ∧ out.cols = window.cols ∧
        out.geoTransform = window.geoTransform s.originX s.pixW s.originY s.pixH ∧
        ∀ r < window.rows, ∀ c < window.cols,
          out.pixel r c = window.padded s.file fill (r * window.cols + c)

theorem projwin_pos {crop : CropWindow} {originX pixW originY pixH : ℚ} {window : PixelWindow}
    (h : projwin crop originX pixW originY pixH = some window) :
    0 < window.rows ∧ 0 < window.cols := by
  unfold projwin at h
  dsimp only at h
  split at h
  · cases h
  · rename_i hpos
    cases h
    rw [not_or, Int.not_lt, Int.not_lt] at hpos
    dsimp only
    omega

theorem index_lt {r c rows cols : Nat} (hr : r < rows) (hc : c < cols) :
    r * cols + c < cols * rows := by
  rw [Nat.mul_comm cols]
  have h := row_end_le (n := 1) hr (Nat.succ_le_of_lt hc)
  omega

/-- The geotransform of the raster. -/
def TiledSource.geoTransform : GeoTransform := ⟨s.originX, s.pixW, 0, s.originY, 0, s.pixH⟩

theorem inProcessBounds_eq {cropCrs : Option String} (h : InOwnCrs s cropCrs)
    (crop : CropWindow) : inProcessBounds lib s.spatialRef crop cropCrs = .ok crop := by
  obtain ⟨workSr, hwork, htransform, hbounds⟩ := h.same
  unfold inProcessBounds
  cases hcrs : cropCrs.filter (fun c => (validateCrsSpec c).isOk) with
  | none =>
      rw [hcrs] at hwork
      cases hwork
      simp only [orOther, htransform, hbounds, bind, Except.bind]
  | some c =>
      rw [hcrs] at hwork
      dsimp only at hwork
      simp only [orOther, hwork, htransform, hbounds, bind, Except.bind]

/-- The window of the download in process. -/
theorem inProcessWindow_spec {cropCrs : Option String} (h : InOwnCrs s cropCrs)
    (crop : CropWindow) :
    match (s.window crop).filter (fun window => window.Meets s.file) with
    | none => ∃ e, inProcessWindow lib s.file s.spatialRef s.geoTransform (some crop) cropCrs =
        .error (.error e)
    | some window =>
        inProcessWindow lib s.file s.spatialRef s.geoTransform (some crop) cropCrs =
          .ok window := by
  have hprojwin : projwin crop s.geoTransform.originX s.geoTransform.pixelWidth
      s.geoTransform.originY s.geoTransform.pixelHeight = s.window crop := rfl
  unfold inProcessWindow
  simp only [inProcessBounds_eq s h, bind, Except.bind, hprojwin]
  cases s.window crop with
  | none =>
      exact ⟨_, rfl⟩
  | some window =>
      rw [Option.filter_some]
      by_cases hmeets : window.Meets s.file
      · rw [if_pos (decide_eq_true hmeets)]
        obtain ⟨⟨hrow, hrowLt⟩, hcol, hcolLt⟩ := hmeets
        simp [hrow, hrowLt, hcol, hcolLt]
      · rw [if_neg (by rw [decide_eq_true_eq]; exact hmeets)]
        refine ⟨_, if_pos ?_⟩
        unfold PixelWindow.Meets at hmeets
        simp only [Bool.or_eq_true, Bool.not_eq_true', Bool.and_eq_false_iff,
          decide_eq_false_iff_not]
        omega

/-- The download in process cuts the window and fills it with the no-data value. -/
theorem downloadInProcessWithCrs_cuts {cropCrs : Option String} (h : InOwnCrs s cropCrs)
    (crop : CropWindow) :
    s.Cuts crop (fillValue lib s.file)
      (downloadInProcessWithCrs lib src (some crop) cropCrs) := by
  have hwindow := inProcessWindow_spec s h crop
  have hpix : ¬ (s.pixW = 0 ∨ s.pixH = 0) := not_or.mpr ⟨s.pixW_pos.ne', s.pixH_neg.ne⟩
  unfold TiledSource.Cuts downloadInProcessWithCrs
  unfold TiledSource.geoTransform at hwindow
  simp only [s.gdal_eq, s.geoTransform_eq, s.spatialRef_eq, orOther, bind, Except.bind]
  rw [if_neg (by rw [s.single_band]; exact Nat.one_ne_zero), if_neg hpix]
  cases hcut : (s.window crop).filter (fun window => window.Meets s.file) with
  | none =>
      rw [hcut] at hwindow
      obtain ⟨e, he⟩ := hwindow
      dsimp only
      rw [he]
      exact ⟨e, rfl⟩
  | some window =>
      rw [hcut] at hwindow
      obtain ⟨hsome, hmeets⟩ := Option.filter_eq_some_iff.mp hcut
      obtain ⟨hrows, hcols⟩ := projwin_pos hsome
      obtain ⟨out, hout, helem⟩ := copyRows_spec lib hrows hcols (of_decide_eq_true hmeets)
      dsimp only at hwindow ⊢
      rw [hwindow]
      dsimp only
      split
      · rename_i name hname
        exact absurd hname (s.supported name)
      · unfold copyWindowTyped
        rw [hout]
        exact ⟨_, rfl, rfl, rfl, rfl, fun r hr c hc => helem _ (index_lt hr hc)⟩

/-- The tiles cut the window and leave the rest zero. -/
theorem cropInSourceCrs_cuts (crop : CropWindow) (cropCrs : Option String) :
    s.Cuts crop (.finite 0) (cropInSourceCrs lib src s.file (some crop) cropCrs) := by
  have hpix : ¬ (s.pixW = 0 ∨ s.pixH = 0) := not_or.mpr ⟨s.pixW_pos.ne', s.pixH_neg.ne⟩
  have hprojwin : projwin crop s.originX s.pixW s.originY s.pixH = s.window crop := rfl
  unfold TiledSource.Cuts cropInSourceCrs nativeCrsPixelWindow
  rw [s.tileW_eq, s.tileH_eq]
  simp only [s.tags_eq, bind, Except.bind, hprojwin]
  rw [if_neg hpix]
  cases hwin : s.window crop with
  | none =>
      exact ⟨_, rfl⟩
  | some window =>
      obtain ⟨hrows, hcols⟩ := projwin_pos hwin
      have hempty : (tileIndices s.file window s.tileW s.tileH).isEmpty = true ↔
          ¬ window.Meets s.file := isEmpty_tileIndices_iff s.tileW_pos s.tileH_pos hrows hcols
      rw [Option.filter_some]
      dsimp only
      unfold fetchAndStitchThenWrite
      rw [if_neg (not_not_intro s.single_band)]
      by_cases hmeets : window.Meets s.file
      · obtain ⟨out, hout, helem⟩ := stitch_spec s.tileW_pos s.tileH_pos hrows hcols
        rw [if_pos (decide_eq_true hmeets), if_neg (mt hempty.mp (not_not_intro hmeets))]
        dsimp only
        split
        · rename_i name hname
          exact absurd hname (s.supported name)
        · unfold stitchAndWrite
          rw [hout]
          exact ⟨_, rfl, rfl, rfl, rfl, fun r hr c hc => (helem _ (index_lt hr hc)).1⟩
      · rw [if_neg (by rw [decide_eq_true_eq]; exact hmeets), if_pos (hempty.mpr hmeets)]
        exact ⟨_, rfl⟩

/-- The tiled download: the tiles, or what the other one writes. -/
theorem downloadViaAsyncTiffWithCrs_eq (project : Projection) {cropCrs : Option String}
    (h : InOwnCrs s cropCrs) (crop : CropWindow) :
    downloadViaAsyncTiffWithCrs lib project src (some crop) cropCrs =
      if reprojectDecision s.file cropCrs = .fallbackToInProcess then
        downloadInProcessWithCrs lib src (some crop) cropCrs
      else cropInSourceCrs lib src s.file (some crop) cropCrs := by
  have hhint : hintDecision none cropCrs = none := rfl
  unfold downloadViaAsyncTiffWithCrs downloadViaAsyncTiffWithCrsAndMeta sourceCrop
  rw [s.parse_eq, hhint]
  simp only [s.reader_eq, s.ifds_eq, orError, Except.mapError, openWithHint, bind, Except.bind]
  unfold effectiveCrop
  cases hdecision : reprojectDecision s.file cropCrs with
  | none =>
      simp
  | epsgToEpsg epsg =>
      exact absurd hdecision (h.decision epsg)
  | fallbackToInProcess =>
      simp

/-- The same value; there are two zeros. -/
def SameValue (x y : F64) : Prop := x = y ∨ (x.isZero = true ∧ y.isZero = true)

/-- Both fail, or both write rasters of the same size, geotransform and pixels. -/
def WriteSame : Except Failure WrittenRaster → Except Failure WrittenRaster → Prop
  | .ok a, .ok b =>
      a.rows = b.rows ∧ a.cols = b.cols ∧ a.geoTransform = b.geoTransform ∧
        ∀ r < a.rows, ∀ c < a.cols, SameValue (a.pixel r c) (b.pixel r c)
  | .error (.error _), .error (.error _) => True
  | _, _ => False

/-- A window that is not in the raster has a pixel that is not. -/
theorem exists_not_inSource {file : TiffFile} {window : PixelWindow} (hrows : 0 < window.rows)
    (hcols : 0 < window.cols) (h : ¬ window.Within file) :
    ∃ r < window.rows, ∃ c < window.cols, ¬ window.InSource file (r * window.cols + c) := by
  have hin : ∀ r, ∀ c < window.cols, window.InSource file (r * window.cols + c) →
      (0 ≤ window.rowOff + r ∧ window.rowOff + r < file.rows) ∧
        0 ≤ window.colOff + c ∧ window.colOff + c < file.cols := by
    intro r c hc hin
    obtain ⟨hdiv, hmod⟩ := div_mod_of_row r hc
    unfold PixelWindow.InSource at hin
    rwa [hdiv, hmod] at hin
  by_contra hall
  push Not at hall
  have hfirst := hin 0 0 hcols (hall 0 hrows 0 hcols)
  have hlast := hin (window.rows - 1) (window.cols - 1) (by omega)
    (hall _ (by omega) _ (by omega))
  unfold PixelWindow.Within at h
  omega

theorem inSource_of_within {file : TiffFile} {window : PixelWindow} (h : window.Within file)
    {i : Nat} (hi : i < window.cols * window.rows) : window.InSource file i := by
  obtain ⟨hrow, hcol⟩ := row_col_lt hi
  unfold PixelWindow.Within at h
  unfold PixelWindow.InSource
  generalize i / window.cols = row at hrow ⊢
  generalize i % window.cols = col at hcol ⊢
  omega

/-- A window that has pixels of the raster has no others. -/
def TiledSource.Inside (crop : CropWindow) : Prop :=
  ∀ window, s.window crop = some window → window.Meets s.file → window.Within s.file

/-- Two windows that are filled with values agree if the values do or are not needed. -/
theorem agree_iff_of_cuts {crop : CropWindow} {fill fill' : F64}
    {x y : Except Failure WrittenRaster} (hx : s.Cuts crop fill x) (hy : s.Cuts crop fill' y) :
    WriteSame x y ↔ SameValue fill fill' ∨ s.Inside crop := by
  unfold TiledSource.Cuts at hx hy
  unfold TiledSource.Inside
  cases hcut : (s.window crop).filter (fun window => window.Meets s.file) with
  | none =>
      rw [hcut] at hx hy
      obtain ⟨e, rfl⟩ := hx
      obtain ⟨e', rfl⟩ := hy
      refine iff_of_true trivial (Or.inr fun window hwindow hmeets => ?_)
      rw [hwindow, Option.filter_some, if_pos (decide_eq_true hmeets)] at hcut
      cases hcut
  | some window =>
      rw [hcut] at hx hy
      obtain ⟨hsome, hmeets⟩ := Option.filter_eq_some_iff.mp hcut
      have hmeets := of_decide_eq_true hmeets
      obtain ⟨hrows, hcols⟩ := projwin_pos hsome
      obtain ⟨a, rfl, harows, hacols, hagt, hapixel⟩ := hx
      obtain ⟨b, rfl, hbrows, hbcols, hbgt, hbpixel⟩ := hy
      rw [hsome]
      unfold WriteSame
      dsimp only
      rw [harows, hbrows, hacols, hbcols, hagt, hbgt]
      constructor
      · rintro ⟨-, -, -, hpixel⟩
        by_contra hnot
        push Not at hnot
        obtain ⟨hfill, window', heq, _, hwithin⟩ := hnot
        obtain rfl := Option.some.inj heq
        obtain ⟨r, hr, c, hc, hout⟩ := exists_not_inSource hrows hcols hwithin
        have hsame := hpixel r hr c hc
        rw [hapixel r hr c hc, hbpixel r hr c hc] at hsame
        unfold PixelWindow.padded at hsame
        rw [if_neg hout, if_neg hout] at hsame
        exact hfill hsame
      · intro h
        refine ⟨rfl, rfl, rfl, fun r hr c hc => ?_⟩
        rw [hapixel r hr c hc, hbpixel r hr c hc]
        unfold PixelWindow.padded
        rcases h with hfill | hinside
        · split_ifs
          · exact Or.inl rfl
          · exact hfill
        · have hin := inSource_of_within (hinside window rfl hmeets) (index_lt hr hc)
          rw [if_pos hin, if_pos hin]
          exact Or.inl rfl

/-- A coordinate in columns of the raster. -/
def TiledSource.column (x : ℚ) : ℚ := (x - s.originX) / s.pixW

/-- A coordinate in rows of the raster. -/
def TiledSource.row (y : ℚ) : ℚ := (y - s.originY) / s.pixH

/-- Rounded to pixels, the window has none. -/
def TiledSource.NoPixel (crop : CropWindow) : Prop :=
  ⌈s.column crop.maxX - 1 / 1000⌉ ≤ ⌊s.column crop.minX + 1 / 1000⌋ ∨
    ⌈s.row crop.minY - 1 / 1000⌉ ≤ ⌊s.row crop.maxY + 1 / 1000⌋

/-- The window lies beside the raster, up to a thousandth of a pixel. -/
def TiledSource.Beside (crop : CropWindow) : Prop :=
  (s.column crop.maxX ≤ 1 / 1000 ∨ s.file.cols ≤ s.column crop.minX + 1 / 1000) ∨
    s.row crop.minY ≤ 1 / 1000 ∨ s.file.rows ≤ s.row crop.maxY + 1 / 1000

/-- The window lies in the raster, up to a thousandth of a pixel. -/
def TiledSource.InExtent (crop : CropWindow) : Prop :=
  (-(1 / 1000) ≤ s.column crop.minX ∧ s.column crop.maxX ≤ s.file.cols + 1 / 1000) ∧
    -(1 / 1000) ≤ s.row crop.maxY ∧ s.row crop.minY ≤ s.file.rows + 1 / 1000

/-- The rounding of one axis: the origin of the window does not matter for its end. -/
theorem ceil_sub_snapped {x origin pix : ℚ} (hpix : pix ≠ 0) (off : Int) :
    ⌈(x - (off * pix + origin)) / pix - 1 / 1000⌉ = ⌈(x - origin) / pix - 1 / 1000⌉ - off := by
  rw [← Int.ceil_sub_intCast]
  congr 1
  field_simp
  ring

theorem window_eq (crop : CropWindow) :
    s.window crop =
      if ⌈s.column crop.maxX - 1 / 1000⌉ - ⌊s.column crop.minX + 1 / 1000⌋ < 1 ∨
          ⌈s.row crop.minY - 1 / 1000⌉ - ⌊s.row crop.maxY + 1 / 1000⌋ < 1 then none
      else
        some
          ⟨⌊s.column crop.minX + 1 / 1000⌋, ⌊s.row crop.maxY + 1 / 1000⌋,
            (⌈s.column crop.maxX - 1 / 1000⌉ - ⌊s.column crop.minX + 1 / 1000⌋).toNat,
            (⌈s.row crop.minY - 1 / 1000⌉ - ⌊s.row crop.maxY + 1 / 1000⌋).toNat⟩ := by
  unfold TiledSource.window projwin
  simp only [ceil_sub_snapped s.pixW_pos.ne', ceil_sub_snapped s.pixH_neg.ne]
  rfl

theorem floor_bounds (x : ℚ) (total : Nat) :
    (0 ≤ ⌊x + 1 / 1000⌋ ↔ -(1 / 1000) ≤ x) ∧
      ((total : Int) ≤ ⌊x + 1 / 1000⌋ ↔ (total : ℚ) ≤ x + 1 / 1000) := by
  rw [Int.le_floor, Int.le_floor, Int.cast_zero, Int.cast_natCast, neg_le_iff_add_nonneg]
  exact ⟨Iff.rfl, Iff.rfl⟩

theorem ceil_bounds (x : ℚ) (total : Nat) :
    (⌈x - 1 / 1000⌉ ≤ 0 ↔ x ≤ 1 / 1000) ∧
      (⌈x - 1 / 1000⌉ ≤ (total : Int) ↔ x ≤ total + 1 / 1000) := by
  rw [Int.ceil_le, Int.ceil_le, Int.cast_zero, Int.cast_natCast, sub_nonpos,
    tsub_le_iff_right]
  exact ⟨Iff.rfl, Iff.rfl⟩

/-- The position of the window, by coordinates. -/
theorem inside_iff (crop : CropWindow) :
    s.Inside crop ↔ s.NoPixel crop ∨ s.Beside crop ∨ s.InExtent crop := by
  unfold TiledSource.Inside TiledSource.NoPixel TiledSource.Beside TiledSource.InExtent
  rw [← (floor_bounds (s.column crop.minX) s.file.cols).1,
    ← (floor_bounds (s.column crop.minX) s.file.cols).2,
    ← (floor_bounds (s.row crop.maxY) s.file.rows).1,
    ← (floor_bounds (s.row crop.maxY) s.file.rows).2,
    ← (ceil_bounds (s.column crop.maxX) s.file.cols).1,
    ← (ceil_bounds (s.column crop.maxX) s.file.cols).2,
    ← (ceil_bounds (s.row crop.minY) s.file.rows).1,
    ← (ceil_bounds (s.row crop.minY) s.file.rows).2, window_eq]
  generalize ⌊s.column crop.minX + 1 / 1000⌋ = colOff
  generalize ⌈s.column crop.maxX - 1 / 1000⌉ = colEnd
  generalize ⌊s.row crop.maxY + 1 / 1000⌋ = rowOff
  generalize ⌈s.row crop.minY - 1 / 1000⌉ = rowEnd
  split_ifs with hempty
  · refine iff_of_true (fun _ h => by cases h) (Or.inl ?_)
    omega
  · simp only [Option.some.injEq, forall_eq', PixelWindow.Meets, PixelWindow.Within]
    omega

/-- When the downloads agree: if the tiles are not used, if there would be zeros anyway, or
if the window is in the raster, beside it or without a pixel. -/
def CropsAlike (crop : CropWindow) (cropCrs : Option String) : Prop :=
  reprojectDecision s.file cropCrs = .fallbackToInProcess ∨
    (fillValue lib s.file).isZero = true ∨ s.NoPixel crop ∨ s.Beside crop ∨ s.InExtent crop

/-- The downloads agree, and the tiles are written as they should, exactly if nothing has
to be filled with a no-data value. -/
theorem downloads_agree_iff (project : Projection) {cropCrs : Option String}
    (h : InOwnCrs s cropCrs) (crop : CropWindow) :
    (WriteSame (downloadViaAsyncTiffWithCrs lib project src (some crop) cropCrs)
        (downloadInProcessWithCrs lib src (some crop) cropCrs) ∧
      ∀ window, s.window crop = some window → StitchedOnce s.file window s.tileW s.tileH) ↔
      CropsAlike s crop cropCrs := by
  have hinProcess := downloadInProcessWithCrs_cuts s h crop
  have hstitched : ∀ window, s.window crop = some window →
      StitchedOnce s.file window s.tileW s.tileH := by
    intro window hwindow
    obtain ⟨hrows, hcols⟩ := projwin_pos hwindow
    obtain ⟨out, hout, helem⟩ := stitch_spec s.tileW_pos s.tileH_pos hrows hcols
    exact ⟨out, hout, fun i hi => (helem i hi).2⟩
  have hzero : SameValue (.finite 0) (fillValue lib s.file) ↔
      (fillValue lib s.file).isZero = true := by
    unfold SameValue
    constructor
    · rintro (heq | ⟨-, hfill⟩)
      · rw [← heq]
        rfl
      · exact hfill
    · exact fun hfill => Or.inr ⟨rfl, hfill⟩
  rw [downloadViaAsyncTiffWithCrs_eq s project h]
  unfold CropsAlike
  rw [← inside_iff]
  split_ifs with hfallback
  · refine iff_of_true ⟨?_, hstitched⟩ (Or.inl hfallback)
    rw [agree_iff_of_cuts s hinProcess hinProcess]
    exact Or.inl (Or.inl rfl)
  · rw [agree_iff_of_cuts s (cropInSourceCrs_cuts s crop cropCrs) hinProcess, hzero]
    simp only [hfallback, false_or]
    exact ⟨And.left, fun h => ⟨h, hstitched⟩⟩

end Sources

theorem sampleTiff_cols_pos : 0 < 3 := Nat.succ_pos 2

/-- A raster in tiles of two by two pixels. -/
def sampleTiff (noData : Option F64) : TiffFile where
  rows := 2
  cols := 3
  rows_pos := Nat.two_pos
  cols_pos := sampleTiff_cols_pos
  samplesPerPixel := 1
  dtype := .float32
  pixel r c := .finite (10 * r + c + 1)
  tileWidth := some 2
  tileHeight := some 2
  tilePadding _ _ := .finite 0
  modelPixelScale := some [10, 10, 0]
  modelTiepoint := some [0, 0, 0, 0, 20, 0]
  modelTransformation := none
  epsg := some 32632
  noData := noData
  geoTransform := .ok ⟨0, 10, 0, 20, 0, -10⟩
  spatialRef := .ok "EPSG:32632"

/-- Libraries that know one raster. -/
def sampleLibraries (noData : Option F64) : Libraries where
  toF32 := id
  display _ := ""
  canonicalize _ := .ok ("/data", "b04.tif")
  openReader _ := .ok ()
  readIfds _ := .ok [sampleTiff noData]
  joinError := "task panicked"
  gdalOpen _ := .ok (sampleTiff noData)
  bandError := "no band"
  fromDefinition crs := .ok crs
  coordTransform _ _ := .ok ()
  transformBounds _ _ w := .ok w

/-- A projection that is not needed. -/
def sampleProjection : Projection := fun w _ _ => .ok w

def sampleSource (noData : Option F64) : TiledSource (sampleLibraries noData) "/data/b04.tif" where
  parsed := .localFile "/data" "b04.tif"
  file := sampleTiff noData
  others := []
  tileW := 2
  tileH := 2
  originX := 0
  pixW := 10
  originY := 20
  pixH := -10
  spatialRef := "EPSG:32632"
  parse_eq := by rfl
  reader_eq := rfl
  ifds_eq := rfl
  gdal_eq := rfl
  single_band := rfl
  supported _ := by simp [sampleTiff]
  tileW_eq := rfl
  tileH_eq := rfl
  tileW_pos := Nat.two_pos
  tileH_pos := Nat.two_pos
  tags_eq := by simp [ifdGeoTransform, sampleTiff]
  geoTransform_eq := rfl
  pixW_pos := by norm_num
  pixH_neg := by norm_num
  spatialRef_eq := rfl

theorem sampleSource_inOwnCrs (noData : Option F64) :
    InOwnCrs (sampleSource noData) none where
  decision _ := by simp [reprojectDecision]
  same := ⟨_, rfl, rfl, fun _ => rfl⟩

/-- A window of the whole raster and one column beside it. -/
def wideCrop : CropWindow := ⟨-10, 0, 30, 20⟩

theorem sampleSource_downloads_agree :
    CropsAlike (sampleSource none) wideCrop none ∧
      (WriteSame
          (downloadViaAsyncTiffWithCrs (sampleLibraries none) sampleProjection "/data/b04.tif"
            (some wideCrop) none)
          (downloadInProcessWithCrs (sampleLibraries none) "/data/b04.tif" (some wideCrop) none) ∧
        ∀ window, (sampleSource none).window wideCrop = some window →
          StitchedOnce (sampleSource none).file window (sampleSource none).tileW
            (sampleSource none).tileH) := by
  have halike : CropsAlike (sampleSource none) wideCrop none := Or.inr (Or.inl rfl)
  exact ⟨halike, (downloads_agree_iff _ sampleProjection (sampleSource_inOwnCrs none)
    wideCrop).mpr halike⟩

/-- Beside a raster with a no-data value the tiled download leaves zeros. -/
theorem wideCrop_downloads_differ :
    ¬ WriteSame
      (downloadViaAsyncTiffWithCrs (sampleLibraries (some (.finite (-9999)))) sampleProjection
        "/data/b04.tif" (some wideCrop) none)
      (downloadInProcessWithCrs (sampleLibraries (some (.finite (-9999)))) "/data/b04.tif"
        (some wideCrop) none) := by
  have hown := sampleSource_inOwnCrs (some (.finite (-9999)))
  rw [downloadViaAsyncTiffWithCrs_eq _ _ hown, if_neg (by simp [reprojectDecision]),
    agree_iff_of_cuts _ (cropInSourceCrs_cuts (sampleSource _) wideCrop none)
      (downloadInProcessWithCrs_cuts _ hown wideCrop), inside_iff]
  rintro (hsame | hempty | hbeside | hextent)
  · simp [SameValue, fillValue, sampleSource, sampleTiff, sampleLibraries, DataType.numCast,
      DataType.bounds, F64.isZero] at hsame
  · norm_num [TiledSource.NoPixel, TiledSource.column, TiledSource.row, sampleSource,
      wideCrop] at hempty
  · norm_num [TiledSource.Beside, TiledSource.column, TiledSource.row, sampleSource, sampleTiff,
      wideCrop] at hbeside
  · norm_num [TiledSource.InExtent, TiledSource.column, TiledSource.row, sampleSource,
      wideCrop] at hextent

end OrbitOpenEO
