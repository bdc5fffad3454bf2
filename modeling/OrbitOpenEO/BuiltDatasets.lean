import OrbitOpenEO.DatasetBuilder
import Mathlib.Tactic.Linarith

/-!
# Is a dataset that was built consistent

`build` cuts the first file into blocks before it applies the overrides, counts the
bands of the first file but maps one of them, and shifts the origin of a block
without the rotation terms.  `Consistent` says that metadata, blocks and mappings of
a dataset belong together; `KeepsFirstFile` is when they do.
-/

namespace OrbitOpenEO

/-- The pixel lies in the window of the region. -/
def RasterRegion.covers (x y : Nat) (region : RasterRegion) : Bool :=
  decide (region.readWindow.offset.rows ≤ x) &&
    decide ((x : Int) < region.readWindow.offset.rows + region.readWindow.size.rows) &&
    (decide (region.readWindow.offset.cols ≤ y) &&
      decide ((y : Int) < region.readWindow.offset.cols + region.readWindow.size.cols))

/-- The transform of the part of a raster that starts at a pixel. -/
def GeoTransform.shift (gt : GeoTransform) (offset : Offset) : GeoTransform :=
  { gt with
    originX := (gt.pixelToCrs offset.cols offset.rows).1
    originY := (gt.pixelToCrs offset.cols offset.rows).2 }

/-- The blocks tile the extent of the metadata, each has its part of the transform and
the code of the dataset, and the mappings fill each slot once. -/
structure Consistent (rds : RasterDataset) : Prop where
  tile : ∀ x y, rds.blocks.countP (RasterRegion.covers x y) =
    if x < rds.metadata.shape.rows ∧ y < rds.metadata.shape.cols then 1 else 0
  placed : ∀ region ∈ rds.blocks,
    region.geoTransform = rds.metadata.geoTransform.shift region.readWindow.offset ∧
      region.epsgCode = rds.metadata.epsgCode
  filled : FillsOnce rds.metadata.shape rds.layerMappings

/-- Each layer of a block that was read comes from a file. -/
def NeverUnread (α : Type) [RasterType α] (gdal : Gdal) (rds : RasterDataset) : Prop :=
  ∀ region (block : RasterDataBlock α), readBlock gdal rds region = .ok block →
    ∀ t < rds.metadata.shape.times, ∀ l < rds.metadata.shape.layers,
      ∃ m ∈ rds.layerMappings,
        CanRead gdal m.source m.band
            (region.readWindow.offset.cols, region.readWindow.offset.rows)
            (block.shape.cols, block.shape.rows) ∧
          block.data.elem t l = sourcePixels gdal m.source m.band
            (region.readWindow.offset.cols, region.readWindow.offset.rows)

/-- The overrides repeat what the first file says, it has one band, and an axis along
which a rotation moves the blocks has only one of them. -/
def KeepsFirstFile (gdal : Gdal) (builder : RasterDatasetBuilder) : Prop :=
  ∃ first rest file gt, builder.source.paths = first :: rest ∧
    gdal.openFile first = .ok file ∧ file.geoTransform = .ok gt ∧
    builder.imageSizeOverride.getD (file.rows, file.cols) = (file.rows, file.cols) ∧
    builder.epsgOverride.getD ((file.epsg.getD 0) % 0x100000000).toNat =
      ((file.epsg.getD 0) % 0x100000000).toNat ∧
    builder.geoTransformOverride.getD gt = gt ∧
    file.bands.length = 1 ∧
    (gt.rowRotation = 0 ∨ file.rows ≤ builder.blockSize.rows) ∧
    (gt.columnRotation = 0 ∨ file.cols ≤ builder.blockSize.cols)

section Parts

variable {gdal : Gdal} {builder : RasterDatasetBuilder} {rds : RasterDataset}

/-- The blocks cover what the first file covers. -/
theorem countP_covers (b : builder.Built gdal rds) (x y : Nat) :
    rds.blocks.countP (RasterRegion.covers x y) =
      if x < b.file.rows ∧ y < b.file.cols then 1 else 0 := by
  rw [countP_blocks b id id (x := x) (y := y), List.map_id, List.map_id,
    Lib.chunks_tile b.rowChunks_eq x, Lib.chunks_tile b.colChunks_eq y]
  · by_cases hx : x < b.file.rows <;> by_cases hy : y < b.file.cols <;> simp [hx, hy]
  · intro index r c
    rw [Bool.eq_iff_iff]
    simp only [RasterRegion.covers, Bool.and_eq_true, decide_eq_true_eq, Lib.Segment.covers_iff]
    simp only [blockRegion, id]
    omega

theorem tile_iff (b : builder.Built gdal rds) :
    (∀ x y, rds.blocks.countP (RasterRegion.covers x y) =
        if x < rds.metadata.shape.rows ∧ y < rds.metadata.shape.cols then 1 else 0) ↔
      builder.imageSizeOverride.getD (b.file.rows, b.file.cols) = (b.file.rows, b.file.cols) := by
  have hrows := b.file.rows_pos
  have hcols := b.file.cols_pos
  simp only [countP_covers b, b.shape_eq]
  generalize builder.imageSizeOverride.getD (b.file.rows, b.file.cols) = size
  obtain ⟨rows, cols⟩ := size
  rw [Prod.mk.injEq]
  constructor
  · intro h
    have hiff : ∀ x y, (x < b.file.rows ∧ y < b.file.cols) ↔ (x < rows ∧ y < cols) := by
      intro x y
      have := h x y
      dsimp only at this
      split_ifs at this with h₁ h₂ h₂
      · exact iff_of_true h₁ h₂
      · exact iff_of_false h₁ h₂
    have h₁ := hiff 0 0
    have h₂ := hiff rows 0
    have h₃ := hiff b.file.rows 0
    have h₄ := hiff 0 cols
    have h₅ := hiff 0 b.file.cols
    omega
  · rintro ⟨rfl, rfl⟩ x y
    rfl

/-- A file for each time, and only the first layer. -/
theorem filled_iff (b : builder.Built gdal rds) :
    FillsOnce rds.metadata.shape rds.layerMappings ↔ b.file.bands.length = 1 := by
  have hpos : 0 < builder.source.paths.length := List.length_pos_of_ne_nil b.paths_ne_nil
  have hcount : ∀ t l, rds.layerMappings.countP (LayerMapping.fills t l) =
      if t < builder.source.paths.length ∧ l = 0 then 1 else 0 := by
    intro t l
    rw [b.layerMappings_eq]
    by_cases hl : l = 0
    · subst hl
      have h := countP_mapIdx_number (p := LayerMapping.fills t 0) (t := t)
        (f := fun i p => ({ source := p, timePos := i, layerPos := 0, band := 1 } : LayerMapping))
        (l := builder.source.paths) 0 
          (fun i p => by rw [Bool.eq_iff_iff]; simp [LayerMapping.fills])
      simpa using h
    · rw [if_neg (by simp [hl]), List.countP_eq_zero]
      intro m hm
      obtain ⟨i, hi, rfl⟩ := List.mem_mapIdx.mp hm
      simpa [LayerMapping.fills] using fun _ => Ne.symm hl
  unfold FillsOnce
  simp only [hcount, b.shape_eq]
  constructor
  · intro h
    have h₀ := h 0 0
    have h₁ := h 0 1
    simp only [hpos, true_and, if_true, Nat.one_ne_zero, if_false] at h₀ h₁
    split_ifs at h₀ h₁ with hsome hmany
    omega
  · intro hone t l
    rw [hone]
    simp only [Nat.lt_one_iff]

/-- A coefficient moves no block along an axis: it is zero, or there is one block. -/
theorem forall_start_mul_eq_zero_iff {total step : Nat} {l : List Lib.Segment}
    (h : Lib.chunks total step = some l) (htotal : 0 < total) (a : ℚ) :
    (∀ s ∈ l, (s.start : ℚ) * a = 0) ↔ a = 0 ∨ total ≤ step := by
  rw [← Lib.forall_start_zero_iff h htotal]
  simp only [mul_eq_zero, Nat.cast_eq_zero]
  constructor
  · intro hall
    by_cases ha : a = 0
    · exact Or.inl ha
    · exact Or.inr fun s hs => (hall s hs).resolve_right ha
  · rintro (ha | hall) s hs
    · exact Or.inr ha
    · exact Or.inl (hall s hs)

/-- Shifted along the axes, one transform gives what the other gives as a whole. -/
def SameShift (gt final : GeoTransform) (r c : Nat) : Prop :=
  gt.originX + c * gt.pixelWidth =
      final.originX + c * final.pixelWidth + r * final.rowRotation ∧
    gt.originY + r * gt.pixelHeight =
      final.originY + c * final.columnRotation + r * final.pixelHeight ∧
    gt.pixelWidth = final.pixelWidth ∧ gt.rowRotation = final.rowRotation ∧
    gt.columnRotation = final.columnRotation ∧ gt.pixelHeight = final.pixelHeight

theorem blockRegion_shift_iff (overlap : Overlap) (gt final : GeoTransform) (epsgCode index : Nat)
    (r c : Lib.Segment) :
    (blockRegion overlap gt epsgCode index r c).geoTransform =
        final.shift (blockRegion overlap gt epsgCode index r c).readWindow.offset ↔
      SameShift gt final r.start c.start := by
  rw [GeoTransform.ext_iff]
  simp only [blockRegion, GeoTransform.shift, GeoTransform.pixelToCrs, Int.cast_natCast, SameShift]
  tauto

/-- At the origin the transforms are the same, and elsewhere a rotation shows. -/
theorem sameShift_iff {gt final : GeoTransform} (h : SameShift gt final 0 0) (r c : Nat) :
    SameShift gt final r c ↔ r * gt.rowRotation = 0 ∧ c * gt.columnRotation = 0 := by
  obtain ⟨hx, hy, hw, hrow, hcol, hh⟩ := h
  simp only [Nat.cast_zero, zero_mul, add_zero] at hx hy
  simp only [SameShift, hx, hy, hw, hrow, hcol, hh, and_true]
  constructor
  · rintro ⟨h₁, h₂⟩
    constructor <;> linarith
  · rintro ⟨h₁, h₂⟩
    constructor <;> linarith

theorem sameShift_zero_iff {gt final : GeoTransform} : SameShift gt final 0 0 ↔ final = gt := by
  rw [GeoTransform.ext_iff]
  simp only [SameShift, Nat.cast_zero, zero_mul, add_zero]
  constructor
  · rintro ⟨h₁, h₂, h₃, h₄, h₅, h₆⟩
    exact ⟨h₁.symm, h₃.symm, h₄.symm, h₂.symm, h₅.symm, h₆.symm⟩
  · rintro ⟨h₁, h₃, h₄, h₂, h₅, h₆⟩
    exact ⟨h₁.symm, h₂.symm, h₃.symm, h₄.symm, h₅.symm, h₆.symm⟩

/-- The blocks start at the transform of the first file, moved along the axes. -/
theorem placed_iff (b : builder.Built gdal rds) :
    (∀ region ∈ rds.blocks,
        region.geoTransform = rds.metadata.geoTransform.shift region.readWindow.offset ∧
          region.epsgCode = rds.metadata.epsgCode) ↔
      builder.epsgOverride.getD ((b.file.epsg.getD 0) % 0x100000000).toNat =
          ((b.file.epsg.getD 0) % 0x100000000).toNat ∧
        builder.geoTransformOverride.getD b.fileTransform = b.fileTransform ∧
        (b.fileTransform.rowRotation = 0 ∨ b.file.rows ≤ builder.blockSize.rows) ∧
        (b.fileTransform.columnRotation = 0 ∨ b.file.cols ≤ builder.blockSize.cols) := by
  rw [← forall_start_mul_eq_zero_iff b.rowChunks_eq b.file.rows_pos,
    ← forall_start_mul_eq_zero_iff b.colChunks_eq b.file.cols_pos, b.epsgCode_eq,
    b.geoTransform_eq, forall_blocks_iff b (Q := fun r c =>
      SameShift b.fileTransform (builder.geoTransformOverride.getD b.fileTransform)
          r.start c.start ∧
        ((b.file.epsg.getD 0) % 0x100000000).toNat =
          builder.epsgOverride.getD ((b.file.epsg.getD 0) % 0x100000000).toNat)
      (fun index r _ c _ => and_congr (blockRegion_shift_iff _ _ _ _ index r c) Iff.rfl)]
  obtain ⟨r₀, hr₀, hr₀start⟩ := Lib.exists_start_zero b.rowChunks_eq b.file.rows_pos
  obtain ⟨c₀, hc₀, hc₀start⟩ := Lib.exists_start_zero b.colChunks_eq b.file.cols_pos
  constructor
  · intro hall
    obtain ⟨horigin, hepsg⟩ := hall r₀ hr₀ c₀ hc₀
    rw [hr₀start, hc₀start] at horigin
    refine ⟨hepsg.symm, sameShift_zero_iff.mp horigin, fun r hr => ?_, fun c hc => ?_⟩
    · exact ((sameShift_iff horigin _ _).mp (hall r hr c₀ hc₀).1).1
    · exact ((sameShift_iff horigin _ _).mp (hall r₀ hr₀ c hc).1).2
  · rintro ⟨hepsg, hfinal, hrow, hcol⟩ r hr c hc
    have horigin := sameShift_zero_iff.mpr hfinal
    exact ⟨(sameShift_iff horigin _ _).mpr ⟨hrow r hr, hcol c hc⟩, hepsg.symm⟩

/-- Filled slots are read from their files. -/
theorem neverUnread_of_fillsOnce (α : Type) [RasterType α]
    (h : FillsOnce rds.metadata.shape rds.layerMappings) : NeverUnread α gdal rds := by
  intro region block hblock t ht l hl
  obtain ⟨⟨_, hread⟩, rfl⟩ := readBlock_eq_ok_iff.mp hblock
  cases hm : lastMapping rds.layerMappings t l with
  | some m =>
      obtain ⟨hmem, _⟩ := lastMapping_eq_some hm
      exact ⟨m, hmem, (hread m hmem).1, by simp only [blockOf, hm]⟩
  | none =>
      have hcount := h t l
      rw [if_pos ⟨ht, hl⟩] at hcount
      obtain ⟨m, hmem, hfills⟩ := List.countP_pos_iff.mp (Nat.lt_of_lt_of_eq Nat.zero_lt_one hcount.symm)
      unfold lastMapping at hm
      exact absurd hfills (List.find?_eq_none.mp hm m (List.mem_reverse.mpr hmem))

theorem keepsFirstFile_iff (b : builder.Built gdal rds) :
    KeepsFirstFile gdal builder ↔
      builder.imageSizeOverride.getD (b.file.rows, b.file.cols) = (b.file.rows, b.file.cols) ∧
        (builder.epsgOverride.getD ((b.file.epsg.getD 0) % 0x100000000).toNat =
            ((b.file.epsg.getD 0) % 0x100000000).toNat ∧
          builder.geoTransformOverride.getD b.fileTransform = b.fileTransform ∧
          (b.fileTransform.rowRotation = 0 ∨ b.file.rows ≤ builder.blockSize.rows) ∧
          (b.fileTransform.columnRotation = 0 ∨ b.file.cols ≤ builder.blockSize.cols)) ∧
        b.file.bands.length = 1 := by
  constructor
  · rintro ⟨first, rest, file, gt, hpaths, hopen, hgt, hsize, hepsg, hfinal, hbands, hrow, hcol⟩
    have hhead : builder.source.paths.head b.paths_ne_nil = first := by simp [hpaths]
    have hfile : b.file = file := by
      have := b.openFirst
      rw [hhead, hopen] at this
      exact (Except.ok.inj this).symm
    have hgt' : b.fileTransform = gt := by
      have := b.fileTransform_eq
      rw [hfile, hgt] at this
      exact (Except.ok.inj this).symm
    rw [hfile, hgt']
    exact ⟨hsize, ⟨hepsg, hfinal, hrow, hcol⟩, hbands⟩
  · rintro ⟨hsize, ⟨hepsg, hfinal, hrow, hcol⟩, hbands⟩
    obtain ⟨first, rest, hpaths⟩ := List.exists_cons_of_ne_nil b.paths_ne_nil
    have hopen := b.openFirst
    simp only [hpaths, List.head_cons] at hopen
    exact ⟨first, rest, b.file, b.fileTransform, hpaths, hopen, b.fileTransform_eq, hsize, hepsg,
      hfinal, hbands, hrow, hcol⟩

end Parts

/-- **A dataset that was built** is consistent, and no layer of it goes unread, if and
only if the overrides and the bands are those of the first file. -/
theorem build_consistent_iff {α : Type} [RasterType α] {gdal : Gdal}
    {builder : RasterDatasetBuilder} {rds : RasterDataset}
    (h : builder.build gdal = .ok rds) :
    Consistent rds ∧ NeverUnread α gdal rds ↔ KeepsFirstFile gdal builder := by
  obtain ⟨b⟩ := RasterDatasetBuilder.build_cases h
  rw [keepsFirstFile_iff b, ← tile_iff b, ← placed_iff b, ← filled_iff b]
  constructor
  · rintro ⟨⟨htile, hplaced, hfilled⟩, _⟩
    exact ⟨htile, hplaced, hfilled⟩
  · rintro ⟨htile, hplaced, hfilled⟩
    exact ⟨⟨htile, hplaced, hfilled⟩, neverUnread_of_fillsOnce α hfilled⟩

theorem build_sampleDataset_consistent :
    Consistent (sampleDataset .default 1) ∧
        NeverUnread F64 (sampleGdal (sampleFile 1)) (sampleDataset .default 1) ↔
      KeepsFirstFile (sampleGdal (sampleFile 1)) (sampleBuilder .default) :=
  build_consistent_iff (build_sampleDataset .default 1)

/-- A file of two bands: no mapping fills the second layer. -/
theorem build_two_bands_inconsistent :
    (sampleBuilder .default).build (sampleGdal (sampleFile 2)) = .ok (sampleDataset .default 2) ∧
      ¬ Consistent (sampleDataset .default 2) := by
  refine ⟨build_sampleDataset .default 2, fun h => ?_⟩
  have := h.filled 0 1
  revert this
  decide

end OrbitOpenEO
