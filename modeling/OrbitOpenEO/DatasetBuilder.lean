import OrbitOpenEO.RasterDataset
import OrbitOpenEO.Lib.Tiling

/-!
# Building a raster dataset

`RasterDatasetBuilder::build` looks at the first file, cuts its extent into blocks,
maps the first band of each file to a time, and then applies the overrides.  What
a dataset that was built looks like is `build_cases`.
-/

namespace OrbitOpenEO

section Numbered

variable {α β : Type}

/-- What is counted does not depend on the numbers. -/
theorem countP_mapIdx {p : β → Bool} {q : α → Bool} :
    ∀ {l : List α} {f : Nat → α → β}, (∀ i a, p (f i a) = q a) →
      (l.mapIdx f).countP p = l.countP q
  | [], _, _ => rfl
  | a :: l, f, h => by
      rw [List.mapIdx_cons, List.countP_cons, List.countP_cons, h,
        countP_mapIdx fun i a => h (i + 1) a]

/-- What is said of all does not depend on the numbers. -/
theorem forall_mem_mapIdx {P : β → Prop} {Q : α → Prop} :
    ∀ {l : List α} {f : Nat → α → β}, (∀ i, ∀ a ∈ l, P (f i a) ↔ Q a) →
      ((∀ b ∈ l.mapIdx f, P b) ↔ ∀ a ∈ l, Q a)
  | [], _, _ => by simp
  | a :: l, f, h => by
      rw [List.mapIdx_cons, List.forall_mem_cons, List.forall_mem_cons, h 0 a List.mem_cons_self,
        forall_mem_mapIdx fun i a' ha' => h (i + 1) a' (List.mem_cons_of_mem a ha')]

/-- Each number is met once. -/
theorem countP_mapIdx_number {p : β → Bool} {f : Nat → α → β} {t : Nat} :
    ∀ {l : List α} (k : Nat), (∀ i a, p (f i a) = decide (i = t)) →
      (l.mapIdx fun i => f (i + k)).countP p = if k ≤ t ∧ t < k + l.length then 1 else 0
  | [], k, _ => by simp
  | a :: l, k, h => by
      have ih := countP_mapIdx_number (l := l) (k + 1) h
      have hshift : (fun i => f (i + 1 + k)) = fun i => f (i + (k + 1)) := by
        funext i
        rw [Nat.add_right_comm, Nat.add_assoc]
      rw [List.mapIdx_cons, List.countP_cons, h, hshift, ih, List.length_cons]
      simp only [Nat.zero_add, decide_eq_true_eq]
      split_ifs <;> omega

end Numbered

/-- `DataSource::Files`. -/
structure DataSource where
  paths : List PathBuf

namespace DataSource

/-- `validate`: a path that is not one of GDAL's own has to exist. -/
def validate (gdal : Gdal) (source : DataSource) : Except Failure Unit :=
  match source.paths.find? (fun p => !p.startsWith "/vsi" && !gdal.pathExists p) with
  | some p => .error (.error (.sourceNotFound p))
  | none => .ok ()

theorem validate_eq_ok {gdal : Gdal} (h : ∀ p, gdal.pathExists p = true) (source : DataSource) :
    source.validate gdal = .ok () := by
  have hfind : source.paths.find? (fun p => !p.startsWith "/vsi" && !gdal.pathExists p) = none := by
    rw [List.find?_eq_none]
    simp [h]
  rw [validate, hfind]

/-- `local_paths`. -/
def localPaths (source : DataSource) : List PathBuf := source.paths

end DataSource

/-- `RasterDatasetBuilder`. -/
structure RasterDatasetBuilder where
  source : DataSource
  blockSize : BlockSize
  overlap : Overlap
  epsgOverride : Option Nat
  geoTransformOverride : Option GeoTransform
  imageSizeOverride : Option (Nat × Nat)

/-- `inspect_first_file`. -/
def inspectFirstFile (gdal : Gdal) (path : PathBuf) :
    Except Failure (RasterShape × Nat × GeoTransform) :=
  match gdal.openFile path with
  | .error e => .error (.error (.gdal e))
  | .ok ds =>
      match ds.geoTransform with
      | .error e => .error (.error (.gdal e))
      | .ok gt =>
          .ok ({ times := 0, layers := ds.bands.length, rows := ds.rows, cols := ds.cols },
            ((ds.epsg.getD 0) % 0x100000000).toNat, gt)

theorem inspectFirstFile_cases {gdal : Gdal} {path : PathBuf} {shape : RasterShape}
    {epsgCode : Nat} {gt : GeoTransform}
    (h : inspectFirstFile gdal path = .ok (shape, epsgCode, gt)) :
    ∃ file, gdal.openFile path = .ok file ∧ file.geoTransform = .ok gt ∧
      shape = { times := 0, layers := file.bands.length, rows := file.rows, cols := file.cols } ∧
      epsgCode = ((file.epsg.getD 0) % 0x100000000).toNat := by
  unfold inspectFirstFile at h
  split at h
  · cases h
  · rename_i file hopen
    split at h
    · cases h
    · rename_i gt' hgt
      cases h
      exact ⟨file, hopen, hgt, rfl, rfl⟩

/-- The region of a block, by its rows and columns. -/
def blockRegion (overlap : Overlap) (gt : GeoTransform) (epsgCode index : Nat)
    (rows cols : Lib.Segment) : RasterRegion where
  blockIndex := index
  readWindow := ⟨⟨rows.start, cols.start⟩, ⟨rows.length, cols.length⟩⟩
  overlap := overlap
  geoTransform :=
    { gt with
      originX := gt.originX + cols.start * gt.pixelWidth
      originY := gt.originY + rows.start * gt.pixelHeight }
  epsgCode := epsgCode

/-- `partition_blocks`.  A block size of zero never gets to the end of a row. -/
def partitionBlocks (shape : RasterShape) (blockSize : BlockSize) (overlap : Overlap)
    (gt : GeoTransform) (epsgCode : Nat) : Except Failure (List RasterRegion) :=
  match Lib.chunks shape.rows blockSize.rows with
  | none => .error .diverges
  | some [] => .ok []
  | some rowChunks =>
      match Lib.chunks shape.cols blockSize.cols with
      | none => .error .diverges
      | some colChunks =>
          .ok ((rowChunks.flatMap (fun r => colChunks.map (fun c => (r, c)))).mapIdx
            (fun index p => blockRegion overlap gt epsgCode index p.1 p.2))

/-- The blocks of an extent with pixels: the cuts of its rows with those of its columns. -/
theorem partitionBlocks_cases {shape : RasterShape} {blockSize : BlockSize} {overlap : Overlap}
    {gt : GeoTransform} {epsgCode : Nat} {blocks : List RasterRegion} (hrows : 0 < shape.rows)
    (h : partitionBlocks shape blockSize overlap gt epsgCode = .ok blocks) :
    ∃ rowChunks colChunks, Lib.chunks shape.rows blockSize.rows = some rowChunks ∧
      Lib.chunks shape.cols blockSize.cols = some colChunks ∧
      blocks = (rowChunks.flatMap (fun r => colChunks.map (fun c => (r, c)))).mapIdx
        (fun index p => blockRegion overlap gt epsgCode index p.1 p.2) := by
  unfold partitionBlocks at h
  split at h
  · cases h
  · rename_i hnil
    have hcover := Lib.chunks_tile hnil 0
    simp [hrows, Lib.coverCount] at hcover
  · rename_i rowChunks _ hrow
    split at h
    · cases h
    · rename_i colChunks hcol
      exact ⟨rowChunks, colChunks, hrow, hcol, (Except.ok.inj h).symm⟩

namespace RasterDatasetBuilder

/-- `from_source`. -/
def fromSource (source : DataSource) : RasterDatasetBuilder where
  source := source
  blockSize := BlockSize.default
  overlap := Overlap.default
  epsgOverride := none
  geoTransformOverride := none
  imageSizeOverride := none

/-- `template`: the metadata of another dataset as overrides. -/
def template (builder : RasterDatasetBuilder) (other : RasterDataset) : RasterDatasetBuilder :=
  { builder with
    epsgOverride := some other.metadata.epsgCode
    geoTransformOverride := some other.metadata.geoTransform
    imageSizeOverride := some (other.metadata.shape.rows, other.metadata.shape.cols) }

/-- `build`. -/
def build (gdal : Gdal) (builder : RasterDatasetBuilder) : Except Failure RasterDataset := do
  builder.source.validate gdal
  let paths := builder.source.localPaths
  match paths with
  | [] => .error (.error (.invalidBuilder "no local paths to build from"))
  | first :: _ =>
      let (shape, epsgCode, gt) ← inspectFirstFile gdal first
      let datasetShape := { shape with times := paths.length }
      let blocks ← partitionBlocks datasetShape builder.blockSize builder.overlap gt epsgCode
      let layerMappings := paths.mapIdx (fun i p =>
        ({ source := p, timePos := i, layerPos := 0, band := 1 } : LayerMapping))
      let finalShape :=
        match builder.imageSizeOverride with
        | some (r, c) => { datasetShape with rows := r, cols := c }
        | none => datasetShape
      .ok
        { metadata :=
            { shape := finalShape
              epsgCode := builder.epsgOverride.getD epsgCode
              geoTransform := builder.geoTransformOverride.getD gt }
          blocks := blocks
          layerMappings := layerMappings
          sourceFiles := paths }

/-- What is known of a dataset that was built: its first file, the cuts of its extent
and what came of the overrides. -/
structure Built (builder : RasterDatasetBuilder) (gdal : Gdal) (rds : RasterDataset) where
  file : GdalFile
  fileTransform : GeoTransform
  rowChunks : List Lib.Segment
  colChunks : List Lib.Segment
  paths_ne_nil : builder.source.paths ≠ []
  openFirst : gdal.openFile (builder.source.paths.head paths_ne_nil) = .ok file
  fileTransform_eq : file.geoTransform = .ok fileTransform
  rowChunks_eq : Lib.chunks file.rows builder.blockSize.rows = some rowChunks
  colChunks_eq : Lib.chunks file.cols builder.blockSize.cols = some colChunks
  blocks_eq : rds.blocks = (rowChunks.flatMap (fun r => colChunks.map (fun c => (r, c)))).mapIdx
    (fun index p => blockRegion builder.overlap fileTransform
      ((file.epsg.getD 0) % 0x100000000).toNat index p.1 p.2)
  layerMappings_eq : rds.layerMappings = builder.source.paths.mapIdx (fun i p =>
    { source := p, timePos := i, layerPos := 0, band := 1 })
  shape_eq : rds.metadata.shape =
    { times := builder.source.paths.length, layers := file.bands.length
      rows := (builder.imageSizeOverride.getD (file.rows, file.cols)).1
      cols := (builder.imageSizeOverride.getD (file.rows, file.cols)).2 }
  epsgCode_eq : rds.metadata.epsgCode =
    builder.epsgOverride.getD ((file.epsg.getD 0) % 0x100000000).toNat
  geoTransform_eq : rds.metadata.geoTransform =
    builder.geoTransformOverride.getD fileTransform
  sourceFiles_eq : rds.sourceFiles = builder.source.paths

/-- **What `build` returns.** -/
theorem build_cases {gdal : Gdal} {builder : RasterDatasetBuilder} {rds : RasterDataset}
    (h : build gdal builder = .ok rds) : Nonempty (Built builder gdal rds) := by
  unfold build at h
  rw [Lib.bind_eq_ok_iff] at h
  obtain ⟨_, _, h⟩ := h
  dsimp only at h
  split at h
  · cases h
  · rename_i first rest hpaths
    rw [Lib.bind_eq_ok_iff] at h
    obtain ⟨⟨shape, epsgCode, gt⟩, hinspect, h⟩ := h
    obtain ⟨file, hopen, hgt, rfl, rfl⟩ := inspectFirstFile_cases hinspect
    rw [Lib.bind_eq_ok_iff] at h
    obtain ⟨blocks, hblocks, h⟩ := h
    obtain ⟨rowChunks, colChunks, hrow, hcol, rfl⟩ := partitionBlocks_cases file.rows_pos hblocks
    have hsource : builder.source.paths = first :: rest := hpaths
    have hne : builder.source.paths ≠ [] := by simp [hsource]
    have hhead : builder.source.paths.head hne = first := by simp [hsource]
    have hrds := (Except.ok.inj h).symm
    subst hrds
    refine ⟨{
      file := file
      fileTransform := gt
      rowChunks := rowChunks
      colChunks := colChunks
      paths_ne_nil := hne
      openFirst := by rw [hhead, hopen]
      fileTransform_eq := hgt
      rowChunks_eq := hrow
      colChunks_eq := hcol
      blocks_eq := rfl
      layerMappings_eq := rfl
      shape_eq := ?_
      epsgCode_eq := rfl
      geoTransform_eq := rfl
      sourceFiles_eq := rfl }⟩
    dsimp only
    cases builder.imageSizeOverride with
    | none =>
        rfl
    | some size =>
        rfl

end RasterDatasetBuilder

section Blocks

variable {gdal : Gdal} {builder : RasterDatasetBuilder} {rds : RasterDataset}

/-- What is said of each block is said of each pair of cuts. -/
theorem forall_blocks_iff (b : builder.Built gdal rds) {P : RasterRegion → Prop}
    {Q : Lib.Segment → Lib.Segment → Prop}
    (h : ∀ index, ∀ r ∈ b.rowChunks, ∀ c ∈ b.colChunks,
      P (blockRegion builder.overlap b.fileTransform
        ((b.file.epsg.getD 0) % 0x100000000).toNat index r c) ↔ Q r c) :
    (∀ region ∈ rds.blocks, P region) ↔ ∀ r ∈ b.rowChunks, ∀ c ∈ b.colChunks, Q r c := by
  rw [b.blocks_eq, forall_mem_mapIdx (Q := fun p => Q p.1 p.2)]
  · simp only [List.forall_mem_flatMap, List.forall_mem_map]
  · intro i p hp
    obtain ⟨r, hr, hp⟩ := List.mem_flatMap.mp hp
    obtain ⟨c, hc, rfl⟩ := List.mem_map.mp hp
    exact h i r hr c hc

/-- Blocks are counted as pairs of cuts, each changed along its axis. -/
theorem countP_blocks (b : builder.Built gdal rds) {p : RasterRegion → Bool}
    (rowCut colCut : Lib.Segment → Lib.Segment) {x y : Nat}
    (h : ∀ index r c, p (blockRegion builder.overlap b.fileTransform
      ((b.file.epsg.getD 0) % 0x100000000).toNat index r c) =
        ((rowCut r).covers x && (colCut c).covers y)) :
    rds.blocks.countP p =
      Lib.coverCount (b.rowChunks.map rowCut) x * Lib.coverCount (b.colChunks.map colCut) y := by
  rw [b.blocks_eq, countP_mapIdx (q := fun p => (rowCut p.1).covers x && (colCut p.2).covers y)
    (fun i p => h i p.1 p.2), ← Lib.coverCount_product]
  simp only [List.flatMap_map, List.map_map, List.countP_flatMap, List.countP_map,
    Function.comp_def]

end Blocks

/-- North-up, with pixels of size one. -/
def sampleTransform : GeoTransform := ⟨0, 1, 0, 0, 0, -1⟩

/-- A file of two rows and two columns with some bands, in each of which the pixels are
numbered from one. -/
def sampleFile (bands : Nat) : GdalFile where
  rows := 2
  cols := 2
  rows_pos := by decide
  cols_pos := by decide
  bands := List.replicate bands (fun r c => .finite (2 * r + c + 1))
  geoTransform := .ok sampleTransform
  epsg := some 32633

/-- A file system where every path opens as one file. -/
def sampleGdal (file : GdalFile) : Gdal where
  pathExists _ := true
  openFile _ := .ok file
  bandError := "no such band"
  windowError := "Access window out of range in RasterIO()"

/-- One such file, with an overlap. -/
def sampleBuilder (overlap : Overlap) : RasterDatasetBuilder :=
  { RasterDatasetBuilder.fromSource ⟨["scene.tif"]⟩ with overlap := overlap }

/-- What is built from it. -/
def sampleDataset (overlap : Overlap) (bands : Nat) : RasterDataset where
  metadata := ⟨⟨1, bands, 2, 2⟩, 32633, sampleTransform⟩
  blocks := [blockRegion overlap sampleTransform 32633 0 ⟨0, 2⟩ ⟨0, 2⟩]
  layerMappings := [⟨"scene.tif", 0, 0, 1⟩]
  sourceFiles := ["scene.tif"]

theorem build_sampleDataset (overlap : Overlap) (bands : Nat) :
    (sampleBuilder overlap).build (sampleGdal (sampleFile bands)) =
      .ok (sampleDataset overlap bands) := by
  unfold RasterDatasetBuilder.build
  rw [DataSource.validate_eq_ok (fun _ => rfl)]
  have hlength : (sampleFile bands).bands.length = bands := List.length_replicate
  have hinspect : inspectFirstFile (sampleGdal (sampleFile bands)) "scene.tif" =
      .ok (⟨0, bands, 2, 2⟩, 32633, sampleTransform) := by
    unfold inspectFirstFile
    simp only [sampleGdal]
    rw [hlength]
    rfl
  simp only [bind, Except.bind, sampleBuilder, RasterDatasetBuilder.fromSource,
    DataSource.localPaths, hinspect]
  rfl

end OrbitOpenEO
