import OrbitOpenEO.DatasetBuilder
import OrbitOpenEO.KernelExecutor
import Mathlib.Data.Rat.Floor
import Mathlib.Tactic.FieldSimp
import Mathlib.Tactic.Linarith

/-!
# Sampling at a point

`geo_to_pixel` turns a point into the row and the column of a pixel, `sample_at_point` reads that
pixel if it is one of the raster, and `block_id_rowcol` finds the block that a pixel is in.

`geo_to_pixel` takes the absolute value of the pixel height and counts the rows from the top down.
-/

namespace OrbitOpenEO

open Lib
open Kernel (asIsize asIsize_eq)

/-- `as isize` of a whole `f64`, which saturates. -/
def saturatingIsize (n : Int) : Int := max (-2 ^ 63) (min n (2 ^ 63 - 1))

/-- `n as usize`. -/
def isizeAsUsize (n : Int) : Nat := (n % 2 ^ 64).toNat

/-- `geo_to_pixel`: the row and the column. -/
def geoToPixel (geoX geoY : ℚ) (gt : GeoTransform) : Int × Int :=
  let pixelH := |gt.pixelHeight|
  let col := saturatingIsize ⌊(geoX - gt.originX) / gt.pixelWidth⌋
  let row := saturatingIsize ⌊(gt.originY - geoY) / pixelH⌋
  (row, col)

/-- The check of `sample_at_point`. -/
def outOfExtent (shape : RasterShape) (row col : Int) : Bool :=
  decide (row < 0) || decide (asIsize shape.rows ≤ row) || decide (col < 0) ||
    decide (asIsize shape.cols ≤ col)

/-- `sample_at_point`; `text` is the text of a coordinate. -/
def sampleAtPoint {α : Type} [RasterType α] (gdal : Gdal) (text : ℚ → String)
    (rds : RasterDataset) (geoX geoY : ℚ) : Except Failure α :=
  let (row, col) := geoToPixel geoX geoY rds.metadata.geoTransform
  if outOfExtent rds.metadata.shape row col then
    .error (.error (.other
      s!"sample_at_point: ({text geoX}, {text geoY}) → pixel ({row}, {col}) out of extent {asIsize rds.metadata.shape.rows}x{asIsize rds.metadata.shape.cols}"))
  else
    match rds.layerMappings.find? (LayerMapping.fills 0 0) with
    | none =>
        .error (.error (.other "sample_at_point: no (time_pos=0, layer_pos=0) mapping"))
    | some m => do
        let ds ← orOther (fun e => s!"open {m.source} for sample: {e}") (gdal.openFile m.source)
        let band ← orOther (fun e => s!"rasterband {m.band}: {e}") (ds.rasterband gdal m.band)
        let buf ← orOther (fun e => s!"read_as ({col}, {row}): {e}")
          (readAs gdal ds band (col, row) (1, 1))
        .ok (buf.elem 0 0)

/-- The loop of `block_id_rowcol`, from the block with this number on. -/
def blockIdRowcolFrom (globalRow globalCol : Nat) :
    Nat → List RasterRegion → Option (Nat × Nat × Nat)
  | _, [] => none
  | id, region :: regions =>
      let offRow := isizeAsUsize region.readWindow.offset.rows
      let offCol := isizeAsUsize region.readWindow.offset.cols
      let h := isizeAsUsize region.readWindow.size.rows
      let w := isizeAsUsize region.readWindow.size.cols
      if offRow ≤ globalRow ∧ globalRow < offRow + h ∧ offCol ≤ globalCol ∧
          globalCol < offCol + w then
        some (id, globalRow - offRow, globalCol - offCol)
      else blockIdRowcolFrom globalRow globalCol (id + 1) regions

/-- `block_id_rowcol`. -/
def blockIdRowcol (blocks : List RasterRegion) (globalRow globalCol : Nat) :
    Option (Nat × Nat × Nat) :=
  blockIdRowcolFrom globalRow globalCol 0 blocks

/-- The cell of a pixel in the world, with the edges at its corner and without the other two. -/
def InCell (gt : GeoTransform) (row col : Int) (x y : ℚ) : Prop :=
  ∃ s t : ℚ, (0 ≤ s ∧ s < 1) ∧ (0 ≤ t ∧ t < 1) ∧ gt.pixelToCrs (col + s) (row + t) = (x, y)

/-- The point lies in the cell of a pixel of the raster. -/
def InExtent (gt : GeoTransform) (shape : RasterShape) (x y : ℚ) : Prop :=
  ∃ row < shape.rows, ∃ col < shape.cols, InCell gt row col x y

/-- A geotransform without rotation, with pixels that have a size. -/
structure Unrotated (gt : GeoTransform) : Prop where
  row : gt.rowRotation = 0
  column : gt.columnRotation = 0
  width : gt.pixelWidth ≠ 0
  height : gt.pixelHeight ≠ 0

section Cells

variable {gt : GeoTransform} {x y : ℚ}

/-- The cell of a point is found with floors. -/
theorem inCell_iff (hgt : Unrotated gt) {row col : Int} :
    InCell gt row col x y ↔
      ⌊(x - gt.originX) / gt.pixelWidth⌋ = col ∧ ⌊(y - gt.originY) / gt.pixelHeight⌋ = row := by
  have hw := hgt.width
  have hh := hgt.height
  unfold InCell GeoTransform.pixelToCrs
  rw [hgt.row, hgt.column]
  simp only [mul_zero, add_zero, Prod.mk.injEq, Int.floor_eq_iff]
  constructor
  · rintro ⟨s, t, hs, ht, rfl, rfl⟩
    have hx : (gt.originX + (col + s) * gt.pixelWidth - gt.originX) / gt.pixelWidth = col + s := by
      field_simp
      ring
    have hy : (gt.originY + (row + t) * gt.pixelHeight - gt.originY) / gt.pixelHeight =
        row + t := by
      field_simp
      ring
    rw [hx, hy]
    exact ⟨⟨by linarith, by linarith⟩, by linarith, by linarith⟩
  · rintro ⟨⟨hx, hx'⟩, hy, hy'⟩
    refine ⟨(x - gt.originX) / gt.pixelWidth - col, (y - gt.originY) / gt.pixelHeight - row,
      ⟨by linarith, by linarith⟩, ⟨by linarith, by linarith⟩, ?_, ?_⟩
    · field_simp
      ring
    · field_simp
      ring

/-- An index that an `isize` can hold. -/
def InIsize (n : Int) : Prop := -2 ^ 63 ≤ n ∧ n ≤ 2 ^ 63 - 1

theorem saturatingIsize_eq_iff {n : Int} : saturatingIsize n = n ↔ InIsize n := by
  unfold saturatingIsize InIsize
  omega

/-- The floor of a number and of its negative are the same for zero only. -/
theorem floor_neg_eq_floor_iff {v : ℚ} : ⌊-v⌋ = ⌊v⌋ ↔ v = 0 := by
  constructor
  · intro h
    rw [Int.floor_neg] at h
    have hlow := Int.floor_le_ceil v
    have hhigh := Int.ceil_le_floor_add_one v
    have hfloor : ⌊v⌋ = 0 := by omega
    have hceil : ⌈v⌉ = 0 := by omega
    have hle := Int.floor_le v
    have hge := Int.le_ceil v
    rw [hfloor, Int.cast_zero] at hle
    rw [hceil, Int.cast_zero] at hge
    exact le_antisymm hge hle
  · rintro rfl
    rw [neg_zero]

/-- The row that `geo_to_pixel` finds, before the cast. -/
theorem row_eq_iff (hh : gt.pixelHeight ≠ 0) :
    saturatingIsize ⌊(gt.originY - y) / |gt.pixelHeight|⌋ = ⌊(y - gt.originY) / gt.pixelHeight⌋ ↔
      (gt.pixelHeight < 0 ∨ y = gt.originY) ∧ InIsize ⌊(y - gt.originY) / gt.pixelHeight⌋ := by
  generalize hv : (y - gt.originY) / gt.pixelHeight = v
  rcases lt_or_gt_of_ne hh with hneg | hpos
  · have hrow : (gt.originY - y) / |gt.pixelHeight| = v := by
      rw [abs_of_neg hneg, ← neg_sub, neg_div_neg_eq, hv]
    rw [hrow, saturatingIsize_eq_iff]
    exact (and_iff_right (.inl hneg)).symm
  · have hrow : (gt.originY - y) / |gt.pixelHeight| = -v := by
      rw [abs_of_pos hpos, ← neg_sub, neg_div, hv]
    have hzero : y = gt.originY ↔ v = 0 := by
      rw [← hv, div_eq_zero_iff, sub_eq_zero]
      exact (or_iff_left hh).symm
    rw [hrow, hzero, or_iff_right (not_lt.mpr hpos.le), ← floor_neg_eq_floor_iff,
      ← saturatingIsize_eq_iff]
    constructor
    · intro h
      -- the two rows have different signs, so the cast changed neither
      have hsigns : ⌊v⌋ ≤ -⌊-v⌋ ∧ -⌊-v⌋ ≤ ⌊v⌋ + 1 := by
        rw [Int.floor_neg, neg_neg]
        exact ⟨Int.floor_le_ceil v, Int.ceil_le_floor_add_one v⟩
      unfold saturatingIsize at h ⊢
      omega
    · rintro ⟨heq, hsat⟩
      rw [heq, hsat]

/-- The pixel that `geo_to_pixel` finds has the point in its cell. -/
theorem inCell_geoToPixel_iff (hgt : Unrotated gt) :
    InCell gt (geoToPixel x y gt).1 (geoToPixel x y gt).2 x y ↔
      (gt.pixelHeight < 0 ∨ y = gt.originY) ∧
        InIsize ⌊(x - gt.originX) / gt.pixelWidth⌋ ∧
          InIsize ⌊(y - gt.originY) / gt.pixelHeight⌋ := by
  rw [inCell_iff hgt, geoToPixel]
  dsimp only
  rw [eq_comm, saturatingIsize_eq_iff, eq_comm, row_eq_iff hgt.height]
  tauto

end Cells

section Blocks

/-- The window of the block has the pixel. -/
def HasPixel (row col : Nat) (region : RasterRegion) : Prop :=
  (region.readWindow.offset.rows ≤ row ∧
      row < region.readWindow.offset.rows + region.readWindow.size.rows) ∧
    region.readWindow.offset.cols ≤ col ∧
      col < region.readWindow.offset.cols + region.readWindow.size.cols

/-- The window fits into an array. -/
def WindowSized (region : RasterRegion) : Prop :=
  (0 ≤ region.readWindow.offset.rows ∧ region.readWindow.offset.rows < 2 ^ 64) ∧
    (0 ≤ region.readWindow.offset.cols ∧ region.readWindow.offset.cols < 2 ^ 64) ∧
    (0 ≤ region.readWindow.size.rows ∧ region.readWindow.size.rows < 2 ^ 64) ∧
    0 ≤ region.readWindow.size.cols ∧ region.readWindow.size.cols < 2 ^ 64

theorem isizeAsUsize_eq {n : Int} (h : 0 ≤ n ∧ n < 2 ^ 64) : (isizeAsUsize n : Int) = n := by
  rw [isizeAsUsize, Int.emod_eq_of_lt h.1 h.2, Int.toNat_of_nonneg h.1]

/-- The loop finds the first block that has the pixel. -/
theorem blockIdRowcolFrom_eq {row col : Nat} {regions : List RasterRegion}
    (hsized : ∀ region ∈ regions, WindowSized region)
    (hsome : ∃ region ∈ regions, HasPixel row col region) (id : Nat) :
    ∃ i region, regions[i]? = some region ∧ HasPixel row col region ∧
      blockIdRowcolFrom row col id regions =
        some (id + i, row - isizeAsUsize region.readWindow.offset.rows,
          col - isizeAsUsize region.readWindow.offset.cols) := by
  induction regions generalizing id with
  | nil =>
      obtain ⟨region, hmem, -⟩ := hsome
      cases hmem
  | cons region regions ih =>
      obtain ⟨hrow, hcol, hrows, hcols⟩ := hsized region List.mem_cons_self
      have htest : (isizeAsUsize region.readWindow.offset.rows ≤ row ∧
          row < isizeAsUsize region.readWindow.offset.rows + isizeAsUsize region.readWindow.size.rows ∧
          isizeAsUsize region.readWindow.offset.cols ≤ col ∧
          col < isizeAsUsize region.readWindow.offset.cols + isizeAsUsize region.readWindow.size.cols) ↔
          HasPixel row col region := by
        have h₁ := isizeAsUsize_eq hrow
        have h₂ := isizeAsUsize_eq hcol
        have h₃ := isizeAsUsize_eq hrows
        have h₄ := isizeAsUsize_eq hcols
        unfold HasPixel
        omega
      by_cases hhere : HasPixel row col region
      · refine ⟨0, region, rfl, hhere, ?_⟩
        rw [blockIdRowcolFrom]
        exact if_pos (htest.mpr hhere)
      · have hrest : ∃ region ∈ regions, HasPixel row col region := by
          obtain ⟨region', hmem, hpixel⟩ := hsome
          rcases List.mem_cons.mp hmem with rfl | hmem
          · exact absurd hpixel hhere
          · exact ⟨region', hmem, hpixel⟩
        obtain ⟨i, region', hi, hpixel, heq⟩ :=
          ih (fun r hr => hsized r (List.mem_cons_of_mem _ hr)) hrest (id + 1)
        refine ⟨i + 1, region', hi, hpixel, ?_⟩
        rw [blockIdRowcolFrom]
        refine (if_neg fun h => hhere (htest.mp h)).trans ?_
        rw [heq, Nat.add_right_comm, Nat.add_assoc]

/-- A local pixel of a block, which is the pixel of the raster with the same cell. -/
def Addresses (gt : GeoTransform) (blocks : List RasterRegion) (row col : Nat)
    (found : Nat × Nat × Nat) : Prop :=
  ∃ region, blocks[found.1]? = some region ∧ region.blockIndex = found.1 ∧
    ((found.2.1 : Int) < region.readWindow.size.rows ∧
      (found.2.2 : Int) < region.readWindow.size.cols) ∧
    (region.readWindow.offset.rows + found.2.1 = row ∧
      region.readWindow.offset.cols + found.2.2 = col) ∧
    ∀ x y, InCell region.geoTransform found.2.1 found.2.2 x y ↔ InCell gt row col x y

variable {shape : RasterShape} {blockSize : BlockSize} {overlap : Overlap} {gt : GeoTransform}
  {epsgCode : Nat} {blocks : List RasterRegion}

/-- The cell of a local pixel of a block is that of the pixel. -/
theorem inCell_blockRegion (hgt : Unrotated gt) {index : Nat} {r c : Segment} {row col : Nat}
    (hrow : r.start ≤ row) (hcol : c.start ≤ col) (x y : ℚ) :
    InCell (blockRegion overlap gt epsgCode index r c).geoTransform (row - r.start : Nat)
        (col - c.start : Nat) x y ↔ InCell gt row col x y := by
  unfold InCell blockRegion GeoTransform.pixelToCrs
  rw [hgt.row, hgt.column]
  push_cast [Nat.cast_sub hrow, Nat.cast_sub hcol]
  refine exists_congr fun s => exists_congr fun t => and_congr_right fun _ =>
    and_congr_right fun _ => ?_
  have hx : gt.originX + c.start * gt.pixelWidth + (col - c.start + s) * gt.pixelWidth =
      gt.originX + (col + s) * gt.pixelWidth := by ring
  have hy : gt.originY + r.start * gt.pixelHeight + (row - r.start + t) * gt.pixelHeight =
      gt.originY + (row + t) * gt.pixelHeight := by ring
  simp only [mul_zero, add_zero, Prod.mk.injEq]
  rw [hx, hy]

/-- Every pixel of the raster is found in the blocks that its extent is cut into. -/
theorem blockIdRowcol_partitionBlocks (hgt : Unrotated gt) (hrows : shape.rows < 2 ^ 64)
    (hcols : shape.cols < 2 ^ 64)
    (h : partitionBlocks shape blockSize overlap gt epsgCode = .ok blocks) {row col : Nat}
    (hrow : row < shape.rows) (hcol : col < shape.cols) :
    ∃ found, blockIdRowcol blocks row col = some found ∧ Addresses gt blocks row col found := by
  obtain ⟨rowChunks, colChunks, hrowChunks, hcolChunks, rfl⟩ :=
    partitionBlocks_cases (Nat.zero_lt_of_lt hrow) h
  generalize hpairs : (rowChunks.flatMap fun r => colChunks.map fun c => (r, c)) = pairs
  have hmem : ∀ p : Segment × Segment, p ∈ pairs ↔ p.1 ∈ rowChunks ∧ p.2 ∈ colChunks := by
    intro p
    simp only [← hpairs, List.mem_flatMap, List.mem_map]
    constructor
    · rintro ⟨r, hr, c, hc, rfl⟩
      exact ⟨hr, hc⟩
    · rintro ⟨hr, hc⟩
      exact ⟨p.1, hr, p.2, hc, rfl⟩
  have hfits : ∀ {total step : Nat} {l : List Segment} {s : Segment}, total < 2 ^ 64 →
      chunks total step = some l → s ∈ l →
        ((0 : Int) ≤ s.start ∧ (s.start : Int) < 2 ^ 64) ∧
          (0 : Int) ≤ s.length ∧ (s.length : Int) < 2 ^ 64 := by
    intro total step l s htotal hl hs
    obtain ⟨_, -, hstart, hlen⟩ := (mem_chunks_iff hl s).mp hs
    omega
  have hcovered : ∀ {total step x : Nat} {l : List Segment}, chunks total step = some l →
      x < total → ∃ s ∈ l, s.start ≤ x ∧ x < s.start + s.length := by
    intro total step x l hl hx
    have hcount := chunks_tile hl x
    rw [if_pos hx] at hcount
    exact coverCount_pos_iff.mp (hcount ▸ Nat.one_pos)
  have hsized : ∀ region ∈ pairs.mapIdx (fun index p =>
      blockRegion overlap gt epsgCode index p.1 p.2), WindowSized region := by
    intro region hregion
    obtain ⟨i, hi, rfl⟩ := List.mem_mapIdx.mp hregion
    obtain ⟨hr, hc⟩ := (hmem _).mp (List.getElem_mem hi)
    obtain ⟨hstart, hlen⟩ := hfits hrows hrowChunks hr
    obtain ⟨hstart', hlen'⟩ := hfits hcols hcolChunks hc
    exact ⟨hstart, hstart', hlen, hlen'⟩
  have hsome : ∃ region ∈ pairs.mapIdx (fun index p =>
      blockRegion overlap gt epsgCode index p.1 p.2), HasPixel row col region := by
    obtain ⟨r, hr, hrle, hrlt⟩ := hcovered hrowChunks hrow
    obtain ⟨c, hc, hcle, hclt⟩ := hcovered hcolChunks hcol
    obtain ⟨i, hi, hpair⟩ := List.getElem_of_mem ((hmem (r, c)).mpr ⟨hr, hc⟩)
    refine ⟨_, List.mem_mapIdx.mpr ⟨i, hi, rfl⟩, ?_⟩
    rw [hpair]
    simp only [HasPixel, blockRegion]
    omega
  obtain ⟨i, region, hi, hpixel, hfound⟩ := blockIdRowcolFrom_eq hsized hsome 0
  rw [List.getElem?_mapIdx, Option.map_eq_some_iff] at hi
  obtain ⟨⟨r, c⟩, hpair, rfl⟩ := hi
  obtain ⟨hr, hc⟩ := (hmem _).mp (List.mem_of_getElem? hpair)
  have hr' : isizeAsUsize r.start = r.start := Int.ofNat.inj (isizeAsUsize_eq (hfits hrows hrowChunks hr).1)
  have hc' : isizeAsUsize c.start = c.start := Int.ofNat.inj (isizeAsUsize_eq (hfits hcols hcolChunks hc).1)
  simp only [HasPixel, blockRegion] at hpixel hfound
  rw [hr', hc', Nat.zero_add] at hfound
  refine ⟨_, hfound, blockRegion overlap gt epsgCode i r c, ?_, rfl, ?_, ?_, ?_⟩
  · rw [List.getElem?_mapIdx, hpair]
    rfl
  · simp only [blockRegion]
    omega
  · simp only [blockRegion]
    omega
  · exact inCell_blockRegion hgt (by omega) (by omega)

end Blocks

section Sampling

variable {gt : GeoTransform} {shape : RasterShape} {x y : ℚ}

/-- Sampling addresses the right pixel: the point is in the cell of the pixel that is found, the
point is in range exactly if it is in the extent, and the pixels are found in the blocks. -/
structure SamplesRight (gt : GeoTransform) (shape : RasterShape) (x y : ℚ) : Prop where
  pixel : InCell gt (geoToPixel x y gt).1 (geoToPixel x y gt).2 x y
  range : outOfExtent shape (geoToPixel x y gt).1 (geoToPixel x y gt).2 = false ↔
    InExtent gt shape x y
  blocks : ∀ {blockSize overlap epsgCode blocks},
    partitionBlocks shape blockSize overlap gt epsgCode = .ok blocks →
      ∀ row < shape.rows, ∀ col < shape.cols,
        ∃ found, blockIdRowcol blocks row col = some found ∧ Addresses gt blocks row col found

/-- The rows go down the map or the point is on the first line, its indices fit into an `isize`,
and so does the size of the raster if the point is in it. -/
structure PointAddressable (gt : GeoTransform) (shape : RasterShape) (x y : ℚ) : Prop where
  rows : gt.pixelHeight < 0 ∨ y = gt.originY
  indices : InIsize ⌊(x - gt.originX) / gt.pixelWidth⌋ ∧
    InIsize ⌊(y - gt.originY) / gt.pixelHeight⌋
  sizes : InExtent gt shape x y → shape.rows < 2 ^ 63 ∧ shape.cols < 2 ^ 63

/-- A size that is too large for an `isize` becomes negative. -/
theorem asIsize_neg {n : Nat} (h : 2 ^ 63 ≤ n) (h' : n < 2 ^ 64) : asIsize n < 0 := by
  have hmod : (n : Int) % (2 ^ 64 : Nat) = n := Int.emod_eq_of_lt (by omega) (by omega)
  unfold asIsize Int.bmod
  rw [hmod]
  dsimp only
  split_ifs <;> omega

/-- A pixel of the raster is in range exactly if the sizes fit. -/
theorem outOfExtent_eq_false_iff (hrows : shape.rows < 2 ^ 64) (hcols : shape.cols < 2 ^ 64)
    {row col : Int} :
    outOfExtent shape row col = false ↔
      ((0 ≤ row ∧ row < shape.rows) ∧ 0 ≤ col ∧ col < shape.cols) ∧
        shape.rows < 2 ^ 63 ∧ shape.cols < 2 ^ 63 := by
  simp only [outOfExtent, Bool.or_eq_false_iff, decide_eq_false_iff_not, not_lt, not_le]
  by_cases hr : shape.rows < 2 ^ 63
  · rw [asIsize_eq hr]
    by_cases hc : shape.cols < 2 ^ 63
    · rw [asIsize_eq hc]
      tauto
    · have hneg := asIsize_neg (not_lt.mp hc) hcols
      omega
  · have hneg := asIsize_neg (not_lt.mp hr) hrows
    omega

/-- The point is in the extent exactly if its cell is one of the raster. -/
theorem inExtent_iff (hgt : Unrotated gt) {row col : Int} (h : InCell gt row col x y) :
    InExtent gt shape x y ↔ (0 ≤ row ∧ row < shape.rows) ∧ 0 ≤ col ∧ col < shape.cols := by
  constructor
  · rintro ⟨r, hr, c, hc, hcell⟩
    rw [inCell_iff hgt] at h hcell
    omega
  · rintro ⟨hr, hc⟩
    refine ⟨row.toNat, by omega, col.toNat, by omega, ?_⟩
    rw [Int.toNat_of_nonneg hr.1, Int.toNat_of_nonneg hc.1]
    exact h

/-- Sampling is right at a point exactly if the point is addressable. -/
theorem samplesRight_iff (hgt : Unrotated gt) (hrows : shape.rows < 2 ^ 64)
    (hcols : shape.cols < 2 ^ 64) : SamplesRight gt shape x y ↔ PointAddressable gt shape x y := by
  constructor
  · intro h
    obtain ⟨hup, hindices⟩ := (inCell_geoToPixel_iff hgt).mp h.pixel
    exact ⟨hup, hindices, fun hin =>
      ((outOfExtent_eq_false_iff hrows hcols).mp (h.range.mpr hin)).2⟩
  · intro h
    have hpixel := (inCell_geoToPixel_iff hgt).mpr ⟨h.rows, h.indices⟩
    refine ⟨hpixel, ?_, fun hblocks row hrow col hcol =>
      blockIdRowcol_partitionBlocks hgt hrows hcols hblocks hrow hcol⟩
    rw [outOfExtent_eq_false_iff hrows hcols, ← inExtent_iff hgt hpixel]
    exact ⟨fun hin => hin.1, fun hin => ⟨hin, h.sizes hin⟩⟩

/-- A raster of ten rows and ten columns. -/
def tenByTen : RasterShape := ⟨1, 1, 10, 10⟩

/-- Rows that go north. -/
def northward : GeoTransform := ⟨0, 1, 0, 0, 0, 1⟩

theorem unrotated_northward : Unrotated northward := ⟨rfl, rfl, by decide, by decide⟩

theorem samplesRight_iff_northward :
    SamplesRight northward tenByTen (1 / 2) 0 ↔
      PointAddressable northward tenByTen (1 / 2) 0 :=
  samplesRight_iff unrotated_northward (by decide) (by decide)

/-- A point in the first pixel of such a raster is out of range. -/
theorem northward_out_of_range :
    geoToPixel (1 / 2) (1 / 2) northward = (-1, 0) ∧
      ¬ SamplesRight northward tenByTen (1 / 2) (1 / 2) := by
  have hpixel : geoToPixel (1 / 2) (1 / 2) northward = (-1, 0) := by decide +kernel
  refine ⟨hpixel, fun h => ?_⟩
  have hcell := (inCell_iff unrotated_northward).mp h.pixel
  rw [hpixel] at hcell
  exact absurd hcell.2 (by decide +kernel)

end Sampling

end OrbitOpenEO
