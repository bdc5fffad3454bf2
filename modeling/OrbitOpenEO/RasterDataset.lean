import OrbitOpenEO.DataCube
import OrbitOpenEO.Lib.Except
import Mathlib.Tactic.Ring

/-!
# Raster datasets

A `RasterDataset` is a list of block windows, a list of layer mappings and the
metadata of the stack.  Pixels are read block by block: `read_block` starts with
zeros and fills the slot of each mapping with a window of its file.

Arrays are functions of their indices together with their sizes.  What GDAL knows
of a file is a `GdalFile`; `Gdal` opens files and has the texts of its errors.
Arithmetic on the coefficients of a geotransform is exact.
-/

namespace OrbitOpenEO

/-- `BlockSize`. -/
structure BlockSize where
  rows : Nat
  cols : Nat

/-- `BlockSize::default`. -/
def BlockSize.default : BlockSize := ⟨2048, 2048⟩

/-- `Overlap`: pixels on each edge. -/
structure Overlap where
  top : Nat
  bottom : Nat
  left : Nat
  right : Nat
deriving DecidableEq

/-- `Overlap::default`. -/
def Overlap.default : Overlap := ⟨0, 0, 0, 0⟩

/-- `RasterShape`. -/
structure RasterShape where
  times : Nat
  layers : Nat
  rows : Nat
  cols : Nat
deriving DecidableEq

/-- `Offset`. -/
structure Offset where
  rows : Int
  cols : Int
deriving DecidableEq

/-- `Size`. -/
structure Size where
  rows : Int
  cols : Int
deriving DecidableEq

/-- `ReadWindow`. -/
structure ReadWindow where
  offset : Offset
  size : Size
deriving DecidableEq

/-- `GeoTransform([f64; 6])`. -/
@[ext] structure GeoTransform where
  originX : ℚ
  pixelWidth : ℚ
  rowRotation : ℚ
  originY : ℚ
  columnRotation : ℚ
  pixelHeight : ℚ
deriving DecidableEq

/-- `pixel_to_crs`. -/
def GeoTransform.pixelToCrs (gt : GeoTransform) (col row : ℚ) : ℚ × ℚ :=
  (gt.originX + col * gt.pixelWidth + row * gt.rowRotation,
    gt.originY + col * gt.columnRotation + row * gt.pixelHeight)

/-- `RasterRegion`. -/
structure RasterRegion where
  blockIndex : Nat
  readWindow : ReadWindow
  overlap : Overlap
  geoTransform : GeoTransform
  epsgCode : Nat

namespace RasterRegion

/-- `inner_size`. -/
def innerSize (region : RasterRegion) : Size where
  rows := region.readWindow.size.rows - ((region.overlap.top + region.overlap.bottom : Nat) : Int)
  cols := region.readWindow.size.cols - ((region.overlap.left + region.overlap.right : Nat) : Int)

/-- `write_window`. -/
def writeWindow (region : RasterRegion) : ReadWindow where
  offset :=
    { rows := region.readWindow.offset.rows + region.overlap.top
      cols := region.readWindow.offset.cols + region.overlap.left }
  size := region.innerSize

end RasterRegion

/-- `LayerMapping`. -/
structure LayerMapping where
  source : PathBuf
  timePos : Nat
  layerPos : Nat
  band : Nat
deriving DecidableEq

/-- `DatasetMetadata`. -/
structure DatasetMetadata where
  shape : RasterShape
  epsgCode : Nat
  geoTransform : GeoTransform

/-- The slot of a mapping. -/
def LayerMapping.fills (t l : Nat) (m : LayerMapping) : Bool := m.timePos == t && m.layerPos == l

/-- Every slot of the shape is filled once, and no other. -/
def FillsOnce (shape : RasterShape) (mappings : List LayerMapping) : Prop :=
  ∀ t l, mappings.countP (LayerMapping.fills t l) = if t < shape.times ∧ l < shape.layers then 1 else 0

/-- `RasterDataset<T>`; the type of the pixels is an argument of what reads them. -/
structure RasterDataset where
  metadata : DatasetMetadata
  blocks : List RasterRegion
  layerMappings : List LayerMapping
  sourceFiles : List PathBuf

/-- `num_blocks`. -/
def RasterDataset.numBlocks (rds : RasterDataset) : Nat := rds.blocks.length

/-- `ndarray::Array2`. -/
structure Array2 (α : Type) where
  rows : Nat
  cols : Nat
  elem : Nat → Nat → α

/-- `ndarray::Array3`, by layer. -/
structure Array3 (α : Type) where
  layers : Nat
  rows : Nat
  cols : Nat
  elem : Nat → Nat → Nat → α

/-- `ndarray::Array4`, by time and layer. -/
structure Array4 (α : Type) where
  times : Nat
  layers : Nat
  rows : Nat
  cols : Nat
  elem : Nat → Nat → Nat → Nat → α

/-- `RasterDataBlock`. -/
structure RasterDataBlock (α : Type) where
  data : Array4 α
  shape : RasterShape
  noData : α
  region : RasterRegion

/-- `RasterType`: a zero, and the value that GDAL converts a stored number to. -/
class RasterType (α : Type) where
  zero : α
  ofStored : F64 → α

/-- `f64`. -/
instance : RasterType F64 where
  zero := .finite 0
  ofStored := id

/-- What GDAL finds in a file. -/
structure GdalFile where
  rows : Nat
  cols : Nat
  rows_pos : 0 < rows
  cols_pos : 0 < cols
  bands : List (Nat → Nat → F64)
  geoTransform : Except String GeoTransform
  epsg : Option Int

/-- The file system as GDAL sees it, with the texts of its errors. -/
structure Gdal where
  pathExists : PathBuf → Bool
  openFile : PathBuf → Except String GdalFile
  bandError : String
  windowError : String

/-- `orbit_geo::Error`. -/
inductive GeoError where
  | sourceNotFound (path : PathBuf)
  | inconsistentMetadata (msg : String)
  | gdal (msg : String)
  | invalidBuilder (msg : String)
  | other (msg : String)
deriving DecidableEq

/-- How a call ends that returns nothing: with an error, in a panic or not at all. -/
inductive Failure where
  | error (e : GeoError)
  | panic
  | diverges
deriving DecidableEq

/-- `map_err` to a text. -/
def orOther {α : Type} (text : String → String) : Except String α → Except Failure α
  | .ok a => .ok a
  | .error e => .error (.error (.other (text e)))

/-- `Dataset::rasterband`, counted from one. -/
def GdalFile.rasterband (gdal : Gdal) (file : GdalFile) (band : Nat) :
    Except String (Nat → Nat → F64) :=
  match band with
  | 0 => .error gdal.bandError
  | band + 1 =>
      match file.bands[band]? with
      | some pixels => .ok pixels
      | none => .error gdal.bandError

/-- The window lies in a raster.  GDAL skips a window without pixels. -/
def windowFits (fileRows fileCols : Nat) (offset : Int × Int) (size : Nat × Nat) : Bool :=
  decide (size.1 = 0) || decide (size.2 = 0) ||
    (decide (0 ≤ offset.1) && decide (offset.1 + size.1 ≤ fileCols) &&
      decide (0 ≤ offset.2) && decide (offset.2 + size.2 ≤ fileRows))

/-- `RasterBand::read_as`, with offset and size by column and row. -/
def readAs {α : Type} [RasterType α] (gdal : Gdal) (file : GdalFile)
    (pixels : Nat → Nat → F64) (offset : Int × Int) (size : Nat × Nat) :
    Except String (Array2 α) :=
  if windowFits file.rows file.cols offset size then
    .ok ⟨size.2, size.1,
      fun r c => RasterType.ofStored (pixels (offset.2.toNat + r) (offset.1.toNat + c))⟩
  else .error gdal.windowError

/-- `read_window_cached`: the cache of open files does not show. -/
def readWindowCached {α : Type} [RasterType α] (gdal : Gdal) (source : PathBuf) (bandIdx : Nat)
    (windowOffset : Int × Int) (windowSize : Nat × Nat) : Except Failure (Array2 α) := do
  let file ← orOther (fun e => s!"open {source} (cached): {e}") (gdal.openFile source)
  let pixels ← orOther (fun e => s!"rasterband {bandIdx} of {source}: {e}")
    (file.rasterband gdal bandIdx)
  orOther
    (fun e => s!"read_as {source} band {bandIdx} window={windowOffset} size={windowSize}: {e}")
    (readAs gdal file pixels windowOffset windowSize)

/-- `data.slice_mut(s![t, l, .., ..]).assign(&array_2d)`. -/
def Array4.assign {α : Type} (data : Array4 α) (t l : Nat) (a : Array2 α) : Array4 α :=
  { data with elem := fun t' l' => if t' = t ∧ l' = l then a.elem else data.elem t' l' }

/-- `Array4::zeros`. -/
def Array4.zeros {α : Type} [RasterType α] (shape : RasterShape) : Array4 α :=
  ⟨shape.times, shape.layers, shape.rows, shape.cols, fun _ _ _ _ => RasterType.zero⟩

/-- The loop of `read_block` over the layer mappings. -/
def fillLayers {α : Type} [RasterType α] (gdal : Gdal) (shape : RasterShape)
    (offset : Int × Int) : List LayerMapping → Array4 α → Except Failure (Array4 α)
  | [], data => .ok data
  | mapping :: rest, data => do
      let array2d ← readWindowCached gdal mapping.source mapping.band offset
        (shape.cols, shape.rows)
      if mapping.timePos ≥ shape.times || mapping.layerPos ≥ shape.layers then
        .error (.error (.inconsistentMetadata
          s!"layer_mapping time_pos={mapping.timePos}, layer_pos={mapping.layerPos} out of bounds for shape times={shape.times}, layers={shape.layers}"))
      else
        fillLayers gdal shape offset rest (data.assign mapping.timePos mapping.layerPos array2d)

/-- A size cast to `usize` and allocated: a negative one is more than an array can have. -/
def allocate (size : Size) : Except Failure (Nat × Nat) :=
  if size.rows < 0 || size.cols < 0 then .error .panic else .ok (size.rows.toNat, size.cols.toNat)

/-- `read_block`. -/
def readBlock {α : Type} [RasterType α] (gdal : Gdal) (rds : RasterDataset)
    (region : RasterRegion) : Except Failure (RasterDataBlock α) := do
  let (rows, cols) ← allocate region.readWindow.size
  let shape : RasterShape :=
    { times := rds.metadata.shape.times, layers := rds.metadata.shape.layers,
      rows := rows, cols := cols }
  let offset := (region.readWindow.offset.cols, region.readWindow.offset.rows)
  let data ← fillLayers gdal shape offset rds.layerMappings (Array4.zeros shape)
  .ok { data := data, shape := shape, noData := RasterType.zero, region := region }

section Reads

variable {α : Type} [RasterType α] {gdal : Gdal}

/-- A band of a file, if both are there. -/
def sourceBand (gdal : Gdal) (source : PathBuf) (band : Nat) :
    Option (GdalFile × (Nat → Nat → F64)) :=
  match gdal.openFile source with
  | .ok file =>
      match file.rasterband gdal band with
      | .ok pixels => some (file, pixels)
      | .error _ => none
  | .error _ => none

/-- The pixels of a band from an offset on. -/
def sourcePixels (gdal : Gdal) (source : PathBuf) (band : Nat) (offset : Int × Int) :
    Nat → Nat → α :=
  fun r c =>
    match sourceBand gdal source band with
    | some (_, pixels) => RasterType.ofStored (pixels (offset.2.toNat + r) (offset.1.toNat + c))
    | none => RasterType.zero

/-- The band is there and the window lies in it. -/
def CanRead (gdal : Gdal) (source : PathBuf) (band : Nat) (offset : Int × Int)
    (size : Nat × Nat) : Prop :=
  ∃ file pixels, sourceBand gdal source band = some (file, pixels) ∧
    windowFits file.rows file.cols offset size = true

theorem orOther_eq_ok_iff {β : Type} {text : String → String} {x : Except String β} {b : β} :
    orOther text x = .ok b ↔ x = .ok b := by
  cases x with
  | error e =>
      exact iff_of_false nofun nofun
  | ok b' =>
      exact ⟨fun h => by cases h; rfl, fun h => by cases h; rfl⟩

/-- A window is read from a band that is there and that it lies in. -/
theorem exists_readAs_iff {source : PathBuf} {band : Nat} {offset : Int × Int}
    {size : Nat × Nat} {a : Array2 α} :
    (∃ file, gdal.openFile source = .ok file ∧ ∃ pixels, file.rasterband gdal band = .ok pixels ∧
        readAs gdal file pixels offset size = .ok a) ↔
      CanRead gdal source band offset size ∧
        a = ⟨size.2, size.1, sourcePixels gdal source band offset⟩ := by
  unfold CanRead sourcePixels sourceBand
  cases hfile : gdal.openFile source with
  | error e =>
      simp
  | ok file =>
      cases hband : file.rasterband gdal band with
      | error e =>
          simp [hband]
      | ok pixels =>
          simp only [Except.ok.injEq, exists_eq_left', hband, Option.some.injEq, Prod.mk.injEq]
          unfold readAs
          split_ifs with hfits
          · simp only [Except.ok.injEq]
            constructor
            · rintro rfl
              exact ⟨⟨file, pixels, ⟨rfl, rfl⟩, hfits⟩, rfl⟩
            · rintro ⟨_, rfl⟩
              rfl
          · simp only [false_iff, not_and]
            rintro ⟨_, _, ⟨rfl, rfl⟩, h⟩
            exact absurd h hfits

theorem readWindowCached_eq_ok_iff {source : PathBuf} {band : Nat} {offset : Int × Int}
    {size : Nat × Nat} {a : Array2 α} :
    readWindowCached gdal source band offset size = .ok a ↔
      CanRead gdal source band offset size ∧
        a = ⟨size.2, size.1, sourcePixels gdal source band offset⟩ := by
  rw [readWindowCached]
  simp only [Lib.bind_eq_ok_iff, orOther_eq_ok_iff, exists_readAs_iff]

/-- The mapping has a slot in the stack. -/
def LayerMapping.InBounds (shape : RasterShape) (m : LayerMapping) : Prop :=
  m.timePos < shape.times ∧ m.layerPos < shape.layers

/-- The slots of the mappings, filled one after the other. -/
def stackLayers (gdal : Gdal) (offset : Int × Int) (mappings : List LayerMapping)
    (data : Array4 α) : Array4 α :=
  mappings.foldl (fun data m => data.assign m.timePos m.layerPos
    ⟨data.rows, data.cols, sourcePixels gdal m.source m.band offset⟩) data

theorem fillLayers_eq_ok_iff {shape : RasterShape} {offset : Int × Int} :
    ∀ {mappings : List LayerMapping} {data data' : Array4 α},
      data.rows = shape.rows → data.cols = shape.cols →
      (fillLayers gdal shape offset mappings data = .ok data' ↔
        (∀ m ∈ mappings, CanRead gdal m.source m.band offset (shape.cols, shape.rows) ∧
          m.InBounds shape) ∧
        data' = stackLayers gdal offset mappings data)
  | [], data, data', _, _ => by simp [fillLayers, stackLayers, eq_comm]
  | m :: rest, data, data', hrows, hcols => by
      unfold fillLayers
      rw [Lib.bind_eq_ok_iff]
      simp only [readWindowCached_eq_ok_iff, List.forall_mem_cons]
      constructor
      · rintro ⟨a, ⟨hread, rfl⟩, hrest⟩
        split_ifs at hrest with hbounds
        have ih := (fillLayers_eq_ok_iff (by exact hrows) (by exact hcols)).mp hrest
        refine ⟨⟨⟨hread, ?_⟩, ih.1⟩, ?_⟩
        · simp only [ge_iff_le, Bool.or_eq_true, decide_eq_true_eq, not_or, not_le] at hbounds
          exact hbounds
        · rw [ih.2, ← hrows, ← hcols]
          rfl
      · rintro ⟨⟨⟨hread, hbounds⟩, hall⟩, rfl⟩
        refine ⟨_, ⟨hread, rfl⟩, ?_⟩
        rw [if_neg (by simpa [LayerMapping.InBounds] using hbounds)]
        refine (fillLayers_eq_ok_iff (by exact hrows) (by exact hcols)).mpr ⟨hall, ?_⟩
        rw [← hrows, ← hcols]
        rfl

/-- The mapping that fills a slot last. -/
def lastMapping (mappings : List LayerMapping) (t l : Nat) : Option LayerMapping :=
  mappings.reverse.find? (LayerMapping.fills t l)

theorem lastMapping_append (ms ms' : List LayerMapping) (t l : Nat) :
    lastMapping (ms ++ ms') t l = (lastMapping ms' t l).or (lastMapping ms t l) := by
  unfold lastMapping
  rw [List.reverse_append, List.find?_append]

theorem lastMapping_eq_none {mappings : List LayerMapping} {t l : Nat}
    (h : ∀ m ∈ mappings, ¬ (m.timePos = t ∧ m.layerPos = l)) : lastMapping mappings t l = none := by
  unfold lastMapping
  rw [List.find?_eq_none]
  intro m hm
  simpa [LayerMapping.fills] using h m (List.mem_reverse.mp hm)

theorem lastMapping_eq_some {mappings : List LayerMapping} {t l : Nat} {m : LayerMapping}
    (h : lastMapping mappings t l = some m) : m ∈ mappings ∧ m.timePos = t ∧ m.layerPos = l := by
  unfold lastMapping at h
  have hslot := List.find?_some h
  rw [LayerMapping.fills, Bool.and_eq_true, beq_iff_eq, beq_iff_eq] at hslot
  exact ⟨List.mem_reverse.mp (List.mem_of_find?_eq_some h), hslot⟩

/-- A slot holds the window of the mapping that filled it last. -/
theorem stackLayers_eq {offset : Int × Int} (mappings : List LayerMapping) (data : Array4 α) :
    stackLayers gdal offset mappings data =
      { data with elem := fun t l =>
          match lastMapping mappings t l with
          | some m => sourcePixels gdal m.source m.band offset
          | none => data.elem t l } := by
  induction mappings using List.reverseRecOn with
  | nil =>
      rfl
  | append_singleton ms m ih =>
      unfold stackLayers at ih ⊢
      rw [List.foldl_append, ih]
      simp only [List.foldl_cons, List.foldl_nil, Array4.assign, lastMapping_append]
      congr 1
      funext t l
      by_cases hslot : t = m.timePos ∧ l = m.layerPos
      · have hlast : lastMapping [m] t l = some m := by
          simp [lastMapping, LayerMapping.fills, hslot.1, hslot.2]
        rw [if_pos hslot, hlast, Option.some_or]
      · have hlast : lastMapping [m] t l = none := by
          refine lastMapping_eq_none fun m' hm' => ?_
          rw [List.mem_singleton.mp hm']
          exact fun h => hslot ⟨h.1.symm, h.2.symm⟩
        rw [if_neg hslot, hlast, Option.none_or]

/-- The shape of a block. -/
def blockShape (rds : RasterDataset) (region : RasterRegion) : RasterShape where
  times := rds.metadata.shape.times
  layers := rds.metadata.shape.layers
  rows := region.readWindow.size.rows.toNat
  cols := region.readWindow.size.cols.toNat

/-- The block of a region, where all its layers can be read. -/
def blockOf (gdal : Gdal) (rds : RasterDataset) (region : RasterRegion) : RasterDataBlock α where
  data :=
    { times := rds.metadata.shape.times
      layers := rds.metadata.shape.layers
      rows := region.readWindow.size.rows.toNat
      cols := region.readWindow.size.cols.toNat
      elem := fun t l =>
        match lastMapping rds.layerMappings t l with
        | some m => sourcePixels gdal m.source m.band
            (region.readWindow.offset.cols, region.readWindow.offset.rows)
        | none => fun _ _ => RasterType.zero }
  shape := blockShape rds region
  noData := RasterType.zero
  region := region

/-- All layers of a region can be read into the stack. -/
def Readable (gdal : Gdal) (rds : RasterDataset) (region : RasterRegion) : Prop :=
  (0 ≤ region.readWindow.size.rows ∧ 0 ≤ region.readWindow.size.cols) ∧
    ∀ m ∈ rds.layerMappings,
      CanRead gdal m.source m.band
          (region.readWindow.offset.cols, region.readWindow.offset.rows)
          (region.readWindow.size.cols.toNat, region.readWindow.size.rows.toNat) ∧
        m.InBounds (blockShape rds region)

theorem allocate_eq_ok_iff {size : Size} {rows cols : Nat} :
    allocate size = .ok (rows, cols) ↔
      (0 ≤ size.rows ∧ 0 ≤ size.cols) ∧ rows = size.rows.toNat ∧ cols = size.cols.toNat := by
  unfold allocate
  split_ifs with h
  · simp only [Bool.or_eq_true, decide_eq_true_eq] at h
    refine iff_of_false (by simp) fun hsize => ?_
    omega
  · simp only [Bool.or_eq_true, decide_eq_true_eq, not_or, not_lt] at h
    simp [h, eq_comm]

/-- **What `read_block` returns.** -/
theorem readBlock_eq_ok_iff {rds : RasterDataset} {region : RasterRegion}
    {block : RasterDataBlock α} :
    readBlock gdal rds region = .ok block ↔
      Readable gdal rds region ∧ block = blockOf gdal rds region := by
  unfold readBlock Readable
  rw [Lib.bind_eq_ok_iff]
  constructor
  · rintro ⟨⟨rows, cols⟩, halloc, h⟩
    obtain ⟨hsize, rfl, rfl⟩ := allocate_eq_ok_iff.mp halloc
    rw [Lib.bind_eq_ok_iff] at h
    obtain ⟨data, hdata, h⟩ := h
    obtain ⟨hall, rfl⟩ := (fillLayers_eq_ok_iff (by rfl) (by rfl)).mp hdata
    refine ⟨⟨hsize, hall⟩, ?_⟩
    rw [← Except.ok.inj h, stackLayers_eq]
    rfl
  · rintro ⟨⟨hsize, hall⟩, rfl⟩
    refine ⟨_, allocate_eq_ok_iff.mpr ⟨hsize, rfl, rfl⟩, ?_⟩
    rw [Lib.bind_eq_ok_iff]
    refine ⟨_, (fillLayers_eq_ok_iff (by rfl) (by rfl)).mpr ⟨hall, rfl⟩, ?_⟩
    rw [stackLayers_eq]
    rfl

end Reads

end OrbitOpenEO
