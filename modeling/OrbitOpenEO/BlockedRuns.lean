import OrbitOpenEO.DatasetBuilder
import OrbitOpenEO.BlockProcessing

/-!
# Is a run over blocks a run over the whole raster

The windows that `partition_blocks` reads are not widened by the overlap, but
`trim_overlap` and `write_window` take it off at each edge, and an image size that
is overridden changes the extent of the output and not the blocks.  A run over
the blocks of a dataset that was built writes each pixel once, and what the worker
gives for the whole raster, exactly if the trimmed blocks tile the output and all
files can be read (`BlocksJoin`).
-/

namespace OrbitOpenEO

/-- A worker that looks at one pixel of the stack at a time. -/
structure PixelwiseWorker (α β : Type) (layers : Nat) where
  pixel : (times layersIn : Nat) → (Nat → Nat → α) → Nat → β

/-- The worker on a block. -/
def PixelwiseWorker.run {α β : Type} {layers : Nat} (worker : PixelwiseWorker α β layers)
    (block : RasterDataBlock α) : Array3 β where
  layers := layers
  rows := block.data.rows
  cols := block.data.cols
  elem l r c := worker.pixel block.data.times block.data.layers
    (fun t l' => block.data.elem t l' r c) l

/-- The raster in one piece. -/
def wholeRegion (rds : RasterDataset) : RasterRegion where
  blockIndex := 0
  readWindow := ⟨⟨0, 0⟩, ⟨rds.metadata.shape.rows, rds.metadata.shape.cols⟩⟩
  overlap := Overlap.default
  geoTransform := rds.metadata.geoTransform
  epsgCode := rds.metadata.epsgCode

/-- The call writes a pixel of a band. -/
def WriteCall.covers {β : Type} (band x y : Nat) (call : WriteCall β) : Bool :=
  decide (band < call.data.layers) &&
    (decide (call.window.offset.rows ≤ x) &&
      decide ((x : Int) < call.window.offset.rows + call.data.rows) &&
      (decide (call.window.offset.cols ≤ y) &&
        decide ((y : Int) < call.window.offset.cols + call.data.cols)))

/-- The value it writes there. -/
def WriteCall.value {β : Type} (band x y : Nat) (call : WriteCall β) : β :=
  call.data.elem band (x - call.window.offset.rows).toNat (y - call.window.offset.cols).toNat

section Property

variable {α β : Type} [RasterType α] (gdal : Gdal) (rds : RasterDataset)
  (worker : RasterDataBlock α → Array3 β)

/-- The slices of `trim_overlap` are not inverted, and the array has the size of the
write window. -/
def TrimsToWindow (region : RasterRegion) : Prop :=
  ∃ block trimmed, readBlock gdal rds region = .ok block ∧
    region.overlap.top ≤ (worker block).rows - region.overlap.bottom ∧
    region.overlap.left ≤ (worker block).cols - region.overlap.right ∧
    trimOverlap (worker block) region = .ok trimmed ∧
    (trimmed.rows : Int) = region.writeWindow.size.rows ∧
    (trimmed.cols : Int) = region.writeWindow.size.cols

/-- Each pixel of the output is written once, with the value it has when the worker
gets the whole raster. -/
def WritesWhole (bands : Nat) (log : List (WriteCall β)) : Prop :=
  ∃ whole, readBlock gdal rds (wholeRegion rds) = .ok whole ∧
    ∀ band < bands, ∀ x < rds.metadata.shape.rows, ∀ y < rds.metadata.shape.cols,
      log.countP (WriteCall.covers band x y) = 1 ∧
        ∀ call ∈ log, call.covers band x y = true →
          call.value band x y = (worker whole).elem band x y

/-- **Blocked processing is whole-raster processing**, for one run. -/
def LikeWhole (bands : Nat) (run : EStateM.Result Failure (List (WriteCall β)) Unit) : Prop :=
  (∀ region ∈ rds.blocks, TrimsToWindow gdal rds worker region) ∧
    ∃ log, run = .ok () log ∧ WritesWhole gdal rds worker bands log

end Property

/-- Every file can be read over the extent of the first one, and the trimmed cuts of
that extent tile the output. -/
def BlocksJoin (gdal : Gdal) (builder : RasterDatasetBuilder) : Prop :=
  ∃ first rest file, builder.source.paths = first :: rest ∧ gdal.openFile first = .ok file ∧
    (∀ path ∈ builder.source.paths, ∃ other, gdal.openFile path = .ok other ∧
      other.bands ≠ [] ∧ file.rows ≤ other.rows ∧ file.cols ≤ other.cols) ∧
    Lib.TiledByCut file.rows builder.blockSize.rows builder.overlap.top builder.overlap.bottom
      (builder.imageSizeOverride.getD (file.rows, file.cols)).1 ∧
    Lib.TiledByCut file.cols builder.blockSize.cols builder.overlap.left builder.overlap.right
      (builder.imageSizeOverride.getD (file.rows, file.cols)).2

section Blocks

variable {α : Type} [RasterType α] {gdal : Gdal} {builder : RasterDatasetBuilder}
  {rds : RasterDataset}

theorem sourceBand_one {path : PathBuf} {file : GdalFile} {pixels : Nat → Nat → F64} :
    sourceBand gdal path 1 = some (file, pixels) ↔
      gdal.openFile path = .ok file ∧ file.bands[0]? = some pixels := by
  unfold sourceBand
  cases hopen : gdal.openFile path with
  | error e =>
      simp
  | ok file' =>
      cases hband : file'.bands[0]? with
      | none =>
          simp only [GdalFile.rasterband, hband]
          refine iff_of_false (by simp) ?_
          rintro ⟨h, h'⟩
          rw [← Except.ok.inj h, hband] at h'
          cases h'
      | some pixels' =>
          simp only [GdalFile.rasterband, hband, Option.some.injEq, Prod.mk.injEq]
          constructor
          · rintro ⟨rfl, rfl⟩
            exact ⟨rfl, hband⟩
          · rintro ⟨h, h'⟩
            rw [← Except.ok.inj h, hband] at h'
            exact ⟨Except.ok.inj h, Option.some.inj h'⟩

/-- The first band of a file can be read in a window with pixels. -/
theorem canRead_one_iff {path : PathBuf} {r c rows cols : Nat} (hrows : 0 < rows)
    (hcols : 0 < cols) :
    CanRead gdal path 1 ((c : Int), (r : Int)) (cols, rows) ↔
      ∃ file, gdal.openFile path = .ok file ∧ file.bands ≠ [] ∧ r + rows ≤ file.rows ∧
        c + cols ≤ file.cols := by
  have hfits : ∀ file : GdalFile,
      windowFits file.rows file.cols ((c : Int), (r : Int)) (cols, rows) = true ↔
        r + rows ≤ file.rows ∧ c + cols ≤ file.cols := by
    intro file
    simp only [windowFits, Bool.or_eq_true, Bool.and_eq_true, decide_eq_true_eq]
    omega
  unfold CanRead
  simp only [sourceBand_one, hfits]
  constructor
  · rintro ⟨file, pixels, ⟨hopen, hband⟩, hsize⟩
    refine ⟨file, hopen, ?_, hsize⟩
    rintro hnil
    simp [hnil] at hband
  · rintro ⟨file, hopen, hbands, hsize⟩
    obtain ⟨pixels, rest, hcons⟩ := List.exists_cons_of_ne_nil hbands
    exact ⟨file, pixels, ⟨hopen, by simp [hcons]⟩, hsize⟩

/-- The files over the extent of the first one. -/
def SourcesCover (gdal : Gdal) (builder : RasterDatasetBuilder) (rows cols : Nat) : Prop :=
  ∀ path ∈ builder.source.paths, ∃ other, gdal.openFile path = .ok other ∧
    other.bands ≠ [] ∧ rows ≤ other.rows ∧ cols ≤ other.cols

/-- A region can be read if its window can be read in every file. -/
theorem readable_iff (b : builder.Built gdal rds) {region : RasterRegion} {r c rows cols : Nat}
    (hrows : 0 < rows) (hcols : 0 < cols)
    (hwindow : region.readWindow = ⟨⟨r, c⟩, ⟨rows, cols⟩⟩) :
    Readable gdal rds region ↔ SourcesCover gdal builder (r + rows) (c + cols) := by
  have hfirst : builder.source.paths.head b.paths_ne_nil ∈ builder.source.paths :=
    List.head_mem _
  unfold Readable SourcesCover
  simp only [hwindow, Int.toNat_natCast, b.layerMappings_eq]
  constructor
  · rintro ⟨_, hall⟩ path hpath
    obtain ⟨i, hi, rfl⟩ := List.getElem_of_mem hpath
    exact (canRead_one_iff hrows hcols).mp
      (hall _ (List.mem_mapIdx.mpr ⟨i, hi, rfl⟩)).1
  · intro hall
    refine ⟨⟨Int.natCast_nonneg _, Int.natCast_nonneg _⟩, fun m hm => ?_⟩
    obtain ⟨i, hi, rfl⟩ := List.mem_mapIdx.mp hm
    refine ⟨(canRead_one_iff hrows hcols).mpr (hall _ (List.getElem_mem hi)), ?_⟩
    obtain ⟨file, hopen, hbands, _⟩ := hall _ hfirst
    have hfile : b.file = file := Except.ok.inj (b.openFirst.symm.trans hopen)
    unfold LayerMapping.InBounds blockShape
    rw [b.shape_eq]
    exact ⟨hi, by rw [hfile]; exact List.length_pos_of_ne_nil hbands⟩

/-- All blocks can be read if the files cover the extent of the first one. -/
theorem forall_readable_iff (b : builder.Built gdal rds) :
    (∀ region ∈ rds.blocks, Readable gdal rds region) ↔
      SourcesCover gdal builder b.file.rows b.file.cols := by
  have hends : ∀ k, (∀ r ∈ b.rowChunks, r.start + r.length ≤ k) ↔ b.file.rows ≤ k :=
    fun k => Lib.forall_end_le_iff b.rowChunks_eq b.file.rows_pos
  have hends' : ∀ k, (∀ c ∈ b.colChunks, c.start + c.length ≤ k) ↔ b.file.cols ≤ k :=
    fun k => Lib.forall_end_le_iff b.colChunks_eq b.file.cols_pos
  obtain ⟨r₀, hr₀, _⟩ := Lib.exists_start_zero b.rowChunks_eq b.file.rows_pos
  obtain ⟨c₀, hc₀, _⟩ := Lib.exists_start_zero b.colChunks_eq b.file.cols_pos
  rw [forall_blocks_iff b (Q := fun r c =>
    SourcesCover gdal builder (r.start + r.length) (c.start + c.length))]
  · constructor
    · intro hall path hpath
      obtain ⟨file, hopen, hbands, _⟩ := hall r₀ hr₀ c₀ hc₀ path hpath
      have hsame : ∀ {rows cols}, SourcesCover gdal builder rows cols →
          rows ≤ file.rows ∧ cols ≤ file.cols := by
        intro rows cols h
        obtain ⟨file', hopen', _, hsize⟩ := h path hpath
        rwa [Except.ok.inj (hopen.symm.trans hopen')]
      refine ⟨file, hopen, hbands, (hends _).mp fun r hr => ?_, (hends' _).mp fun c hc => ?_⟩
      · exact (hsame (hall r hr c₀ hc₀)).1
      · exact (hsame (hall r₀ hr₀ c hc)).2
    · intro hall r hr c hc path hpath
      obtain ⟨file, hopen, hbands, hrows, hcols⟩ := hall path hpath
      exact ⟨file, hopen, hbands, (hends _).mpr hrows r hr, (hends' _).mpr hcols c hc⟩
  · intro index r hr c hc
    exact readable_iff b (Lib.length_pos_of_mem_chunks b.rowChunks_eq hr)
      (Lib.length_pos_of_mem_chunks b.colChunks_eq hc) rfl

variable {β : Type} {layers : Nat} {worker : PixelwiseWorker α β layers}

/-- The slices are in order and the sizes agree if the overlap fits in the block. -/
theorem trimsToWindow_iff {region : RasterRegion} :
    TrimsToWindow gdal rds worker.run region ↔
      Readable gdal rds region ∧
        region.overlap.top + region.overlap.bottom ≤ region.readWindow.size.rows.toNat ∧
        region.overlap.left + region.overlap.right ≤ region.readWindow.size.cols.toNat := by
  unfold TrimsToWindow
  simp only [readBlock_eq_ok_iff, trimOverlap_eq]
  constructor
  · rintro ⟨_, trimmed, ⟨hread, rfl⟩, htop, hleft, htrim, hrows, hcols⟩
    split_ifs at htrim
    cases htrim
    have hsize := hread.1
    simp only [RasterRegion.writeWindow, RasterRegion.innerSize, Array3.inner,
      PixelwiseWorker.run, blockOf] at htop hleft hrows hcols
    refine ⟨hread, ?_, ?_⟩ <;> omega
  · rintro ⟨hread, hrows, hcols⟩
    have hsize := hread.1
    refine ⟨_, _, ⟨hread, rfl⟩, ?_, ?_, if_pos ?_, ?_, ?_⟩ <;>
      simp only [RasterRegion.writeWindow, RasterRegion.innerSize, Array3.inner,
        PixelwiseWorker.run, blockOf] <;> omega

theorem forall_trimsToWindow_iff (b : builder.Built gdal rds) :
    (∀ region ∈ rds.blocks, TrimsToWindow gdal rds worker.run region) ↔
      SourcesCover gdal builder b.file.rows b.file.cols ∧
        (∀ r ∈ b.rowChunks, builder.overlap.top + builder.overlap.bottom ≤ r.length) ∧
        (∀ c ∈ b.colChunks, builder.overlap.left + builder.overlap.right ≤ c.length) := by
  obtain ⟨r₀, hr₀, _⟩ := Lib.exists_start_zero b.rowChunks_eq b.file.rows_pos
  obtain ⟨c₀, hc₀, _⟩ := Lib.exists_start_zero b.colChunks_eq b.file.cols_pos
  simp only [trimsToWindow_iff]
  rw [forall₂_and, forall_readable_iff b]
  refine and_congr_right fun _ => ?_
  rw [forall_blocks_iff b (Q := fun r c =>
    builder.overlap.top + builder.overlap.bottom ≤ r.length ∧
      builder.overlap.left + builder.overlap.right ≤ c.length) (fun _ _ _ _ _ => Iff.rfl)]
  exact ⟨fun h => ⟨fun r hr => (h r hr c₀ hc₀).1, fun c hc => (h r₀ hr₀ c hc).2⟩,
    fun h r hr c hc => ⟨h.1 r hr, h.2 c hc⟩⟩

/-- The part of a block that is written: both its cuts without the overlap. -/
theorem covers_blockCall (b : builder.Built gdal rds) {band : Nat} (hband : band < layers)
    (x y index : Nat) (r c : Lib.Segment) :
    (blockCall gdal rds worker.run (blockRegion builder.overlap b.fileTransform
        ((b.file.epsg.getD 0) % 0x100000000).toNat index r c)).covers band x y =
      ((r.cut builder.overlap.top builder.overlap.bottom).covers x &&
        (c.cut builder.overlap.left builder.overlap.right).covers y) := by
  rw [Bool.eq_iff_iff]
  simp only [WriteCall.covers, Bool.and_eq_true, decide_eq_true_eq, Lib.Segment.covers_iff]
  simp only [blockCall, blockRegion, RasterRegion.writeWindow, Array3.inner, PixelwiseWorker.run,
    blockOf, Lib.Segment.cut, Int.toNat_natCast]
  omega

/-- How often a run writes a pixel, whatever the order of its blocks. -/
theorem countP_run (b : builder.Built gdal rds) {order : List RasterRegion}
    (horder : order.Perm rds.blocks) {band : Nat} (hband : band < layers) (x y : Nat) :
    (order.map (blockCall gdal rds worker.run)).countP (WriteCall.covers band x y) =
      Lib.coverCount
          (b.rowChunks.map (Lib.Segment.cut builder.overlap.top builder.overlap.bottom)) x *
        Lib.coverCount
          (b.colChunks.map (Lib.Segment.cut builder.overlap.left builder.overlap.right)) y := by
  rw [List.countP_map, horder.countP_eq]
  exact countP_blocks b _ _ (covers_blockCall b hband x y)

/-- A pixel of a block is the pixel of the raster at that place. -/
theorem elem_blockOf {region : RasterRegion} {r c : Nat}
    (hoffset : region.readWindow.offset = ⟨r, c⟩) (t l x y : Nat) :
    (blockOf gdal rds region : RasterDataBlock α).data.elem t l x y =
      (blockOf gdal rds (wholeRegion rds) : RasterDataBlock α).data.elem t l (r + x) (c + y) := by
  simp only [blockOf, hoffset, wholeRegion]
  cases lastMapping rds.layerMappings t l with
  | none =>
      rfl
  | some m =>
      simp only [sourcePixels, Int.toNat_natCast, Int.toNat_zero, Nat.zero_add]

/-- What a block writes is what the worker gives for the whole raster. -/
theorem value_blockCall {region : RasterRegion} {r c : Nat}
    (hoffset : region.readWindow.offset = ⟨r, c⟩) {band x y : Nat}
    (hcovers : (blockCall gdal rds worker.run region).covers band x y = true) :
    (blockCall gdal rds worker.run region).value band x y =
      (worker.run (blockOf gdal rds (wholeRegion rds))).elem band x y := by
  simp only [WriteCall.covers, Bool.and_eq_true, decide_eq_true_eq] at hcovers
  simp only [blockCall, RasterRegion.writeWindow, hoffset] at hcovers
  have hx : r + (region.overlap.top + ((x : Int) - (r + region.overlap.top)).toNat) = x := by
    omega
  have hy : c + (region.overlap.left + ((y : Int) - (c + region.overlap.left)).toNat) = y := by
    omega
  simp only [WriteCall.value, blockCall, Array3.inner, PixelwiseWorker.run,
    RasterRegion.writeWindow, hoffset, elem_blockOf hoffset, hx, hy]
  rfl

/-- Every block runs if what is left of its cuts lies in the output. -/
theorem forall_blockRuns_iff (b : builder.Built gdal rds) {writer : ParallelGeoTiffWriter}
    {worker : PixelwiseWorker α β writer.bands}
    (htrims : ∀ region ∈ rds.blocks, TrimsToWindow gdal rds worker.run region) :
    (∀ region ∈ rds.blocks, BlockRuns gdal rds (writer.blockWriter gdal) worker.run region) ↔
      ∀ r ∈ b.rowChunks.map (Lib.Segment.cut builder.overlap.top builder.overlap.bottom),
        ∀ c ∈ b.colChunks.map (Lib.Segment.cut builder.overlap.left builder.overlap.right),
          0 < r.length → 0 < c.length →
            r.start + r.length ≤ writer.rows ∧ c.start + c.length ≤ writer.cols := by
  have hruns : ∀ region ∈ rds.blocks,
      (BlockRuns gdal rds (writer.blockWriter gdal) worker.run region ↔
        windowFits writer.rows writer.cols
          (region.writeWindow.offset.cols, region.writeWindow.offset.rows)
          ((blockCall gdal rds worker.run region).data.cols,
            (blockCall gdal rds worker.run region).data.rows) = true) := by
    intro region hregion
    obtain ⟨hread, hrows, hcols⟩ := trimsToWindow_iff.mp (htrims region hregion)
    unfold BlockRuns
    rw [writeBlock_eq_ok_iff]
    constructor
    · rintro ⟨_, _, hwrite⟩
      exact (hwrite 0 writer.bands_pos).2
    · intro hfits
      refine ⟨hread, ?_, fun band hband => ⟨hband, hfits⟩⟩
      simp only [PixelwiseWorker.run, blockOf]
      omega
  rw [forall₂_congr hruns, forall_blocks_iff b (Q := fun r c =>
    0 < (r.cut builder.overlap.top builder.overlap.bottom).length →
      0 < (c.cut builder.overlap.left builder.overlap.right).length →
        (r.cut builder.overlap.top builder.overlap.bottom).start +
            (r.cut builder.overlap.top builder.overlap.bottom).length ≤ writer.rows ∧
          (c.cut builder.overlap.left builder.overlap.right).start +
            (c.cut builder.overlap.left builder.overlap.right).length ≤ writer.cols)]
  · simp only [List.forall_mem_map]
  · intro index r _ c _
    simp only [windowFits, Bool.or_eq_true, Bool.and_eq_true, decide_eq_true_eq]
    simp only [blockCall, blockRegion, RasterRegion.writeWindow, Array3.inner, PixelwiseWorker.run,
      blockOf, Lib.Segment.cut, Int.toNat_natCast]
    omega

/-- The output in one piece can be read where it lies in every file. -/
theorem readable_wholeRegion (b : builder.Built gdal rds) {rows cols : Nat}
    (hrows : 0 < rds.metadata.shape.rows) (hcols : 0 < rds.metadata.shape.cols)
    (hrows' : rds.metadata.shape.rows ≤ rows) (hcols' : rds.metadata.shape.cols ≤ cols)
    (h : SourcesCover gdal builder rows cols) : Readable gdal rds (wholeRegion rds) := by
  refine (readable_iff (r := 0) (c := 0) b hrows hcols rfl).mpr fun path hpath => ?_
  obtain ⟨file, hopen, hbands, hfileRows, hfileCols⟩ := h path hpath
  exact ⟨file, hopen, hbands, by omega, by omega⟩

theorem exists_offset (b : builder.Built gdal rds) :
    ∀ region ∈ rds.blocks, ∃ r c : Nat, region.readWindow.offset = ⟨r, c⟩ :=
  (forall_blocks_iff b (Q := fun _ _ => True)
    (fun _ r _ c _ => iff_of_true ⟨r.start, c.start, rfl⟩ trivial)).mpr fun _ _ _ _ => trivial

/-- **A run of `run_blocks`** over a dataset that was built. -/
theorem likeWhole_runBlocks_iff (b : builder.Built gdal rds) {writer : ParallelGeoTiffWriter}
    (hrows : writer.rows = rds.metadata.shape.rows)
    (hcols : writer.cols = rds.metadata.shape.cols)
    (worker : PixelwiseWorker α β writer.bands) {order : List RasterRegion}
    (horder : order.Perm rds.blocks) :
    LikeWhole gdal rds worker.run writer.bands
        (runBlocks gdal rds (writer.blockWriter gdal) (fun block => .ok (worker.run block))
          order []) ↔
      SourcesCover gdal builder b.file.rows b.file.cols ∧
        Lib.TiledByCut b.file.rows builder.blockSize.rows builder.overlap.top
          builder.overlap.bottom rds.metadata.shape.rows ∧
        Lib.TiledByCut b.file.cols builder.blockSize.cols builder.overlap.left
          builder.overlap.right rds.metadata.shape.cols := by
  have hrowsPos : 0 < rds.metadata.shape.rows := hrows ▸ writer.rows_pos
  have hcolsPos : 0 < rds.metadata.shape.cols := hcols ▸ writer.cols_pos
  have hmem : ∀ region, region ∈ order ↔ region ∈ rds.blocks := fun _ => horder.mem_iff
  rw [← Lib.cut_chunks_tile_iff b.rowChunks_eq b.file.rows_pos hrowsPos,
    ← Lib.cut_chunks_tile_iff b.colChunks_eq b.file.cols_pos hcolsPos]
  have htiles := @Lib.product_tiles_iff
    (b.rowChunks.map (Lib.Segment.cut builder.overlap.top builder.overlap.bottom))
    (b.colChunks.map (Lib.Segment.cut builder.overlap.left builder.overlap.right)) _ _
    hrowsPos hcolsPos
  unfold LikeWhole
  simp only [runBlocks_eq_ok_iff, hmem]
  constructor
  · rintro ⟨htrims, log, ⟨hruns, rfl⟩, whole, hwhole, hpixels⟩
    obtain ⟨hcover, hrowCuts, hcolCuts⟩ := (forall_trimsToWindow_iff b).mp htrims
    rw [forall_blockRuns_iff b htrims, hrows, hcols] at hruns
    have hcounts : ∀ x < rds.metadata.shape.rows, ∀ y < rds.metadata.shape.cols, _ :=
      fun x hx y hy => (countP_run b horder writer.bands_pos x y).symm.trans
        (hpixels 0 writer.bands_pos x hx y hy).1
    obtain ⟨hrowTiles, hcolTiles⟩ := htiles.mp ⟨hcounts, hruns⟩
    exact ⟨hcover, ⟨hrowCuts, hrowTiles⟩, hcolCuts, hcolTiles⟩
  · rintro ⟨hcover, ⟨hrowCuts, hrowTiles⟩, hcolCuts, hcolTiles⟩
    obtain ⟨hcounts, hruns⟩ := htiles.mpr ⟨hrowTiles, hcolTiles⟩
    have htrims : ∀ region ∈ rds.blocks, TrimsToWindow gdal rds worker.run region :=
      (forall_trimsToWindow_iff b).mpr ⟨hcover, hrowCuts, hcolCuts⟩
    rw [← hrows, ← hcols, ← forall_blockRuns_iff b htrims] at hruns
    have hrowsLe := ((Lib.cut_chunks_tile_iff b.rowChunks_eq b.file.rows_pos hrowsPos).mp
      ⟨hrowCuts, hrowTiles⟩).le
    have hcolsLe := ((Lib.cut_chunks_tile_iff b.colChunks_eq b.file.cols_pos hcolsPos).mp
      ⟨hcolCuts, hcolTiles⟩).le
    refine ⟨htrims, _, ⟨hruns, rfl⟩, _, readBlock_eq_ok_iff.mpr
      ⟨readable_wholeRegion b hrowsPos hcolsPos hrowsLe hcolsLe hcover, rfl⟩, ?_⟩
    intro band hband x hx y hy
    refine ⟨by rw [countP_run b horder hband, hcounts x hx y hy], ?_⟩
    intro call hcall hcovers
    obtain ⟨region, hregion, rfl⟩ := List.mem_map.mp hcall
    obtain ⟨r, c, hoffset⟩ := exists_offset b region ((hmem region).mp hregion)
    exact value_blockCall hoffset hcovers

theorem blocksJoin_iff (b : builder.Built gdal rds) :
    BlocksJoin gdal builder ↔
      SourcesCover gdal builder b.file.rows b.file.cols ∧
        Lib.TiledByCut b.file.rows builder.blockSize.rows builder.overlap.top
          builder.overlap.bottom rds.metadata.shape.rows ∧
        Lib.TiledByCut b.file.cols builder.blockSize.cols builder.overlap.left
          builder.overlap.right rds.metadata.shape.cols := by
  rw [b.shape_eq]
  constructor
  · rintro ⟨first, rest, file, hpaths, hopen, hjoin⟩
    have hfile : b.file = file := by
      have hfirst := b.openFirst
      simp only [hpaths, List.head_cons] at hfirst
      exact Except.ok.inj (hfirst.symm.trans hopen)
    rw [hfile]
    exact hjoin
  · intro hjoin
    obtain ⟨first, rest, hpaths⟩ := List.exists_cons_of_ne_nil b.paths_ne_nil
    have hopen := b.openFirst
    simp only [hpaths, List.head_cons] at hopen
    exact ⟨first, rest, b.file, hpaths, hopen, hjoin⟩

end Blocks

/-- **Blocked processing.**  For every dataset that was built, every pixelwise worker
and every order of the blocks, `run_blocks` and `apply_reduction_to_writer` do what
the worker does to the whole raster if and only if the blocks join. -/
theorem blocked_runs_iff {α β : Type} [RasterType α] {gdal : Gdal}
    {builder : RasterDatasetBuilder} {rds : RasterDataset} (h : builder.build gdal = .ok rds)
    {writer : ParallelGeoTiffWriter} (hrows : writer.rows = rds.metadata.shape.rows)
    (hcols : writer.cols = rds.metadata.shape.cols)
    (worker : PixelwiseWorker α β writer.bands)
    (reducer : Dimension → PixelwiseWorker α β writer.bands) (dim : Dimension)
    {order : List RasterRegion} (horder : order.Perm rds.blocks) :
    (LikeWhole gdal rds worker.run writer.bands
        (runBlocks gdal rds (writer.blockWriter gdal) (fun block => .ok (worker.run block))
          order []) ↔
      BlocksJoin gdal builder) ∧
    (LikeWhole gdal rds (reducer dim).run writer.bands
        (applyReductionToWriter gdal rds (writer.blockWriter gdal)
          (fun block dim => (reducer dim).run block) dim order []) ↔
      BlocksJoin gdal builder) := by
  obtain ⟨b⟩ := RasterDatasetBuilder.build_cases h
  rw [blocksJoin_iff b]
  refine ⟨likeWhole_runBlocks_iff b hrows hcols worker horder, ?_⟩
  rw [← likeWhole_runBlocks_iff b hrows hcols (reducer dim) horder]
  unfold LikeWhole
  simp only [applyReductionToWriter_eq_ok_iff]
  refine and_congr_right fun _ => exists_congr fun log => and_congr_left fun _ => ?_
  exact and_iff_left rfl

/-- The writer of one band for it, and a worker that hands on the first layer. -/
def sampleWriter : ParallelGeoTiffWriter := ⟨2, 2, 1, Nat.two_pos, Nat.two_pos, Nat.one_pos⟩

def firstLayer : PixelwiseWorker F64 F64 1 := ⟨fun _ _ stack _ => stack 0 0⟩

theorem sample_blocked_runs :
    (LikeWhole (sampleGdal (sampleFile 1)) (sampleDataset .default 1) firstLayer.run 1
        (runBlocks (sampleGdal (sampleFile 1)) (sampleDataset .default 1)
          (sampleWriter.blockWriter (sampleGdal (sampleFile 1)))
          (fun block => .ok (firstLayer.run block)) (sampleDataset .default 1).blocks []) ↔
      BlocksJoin (sampleGdal (sampleFile 1)) (sampleBuilder .default)) ∧
    (LikeWhole (sampleGdal (sampleFile 1)) (sampleDataset .default 1) firstLayer.run 1
        (applyReductionToWriter (sampleGdal (sampleFile 1)) (sampleDataset .default 1)
          (sampleWriter.blockWriter (sampleGdal (sampleFile 1)))
          (fun block _ => firstLayer.run block) .time (sampleDataset .default 1).blocks []) ↔
      BlocksJoin (sampleGdal (sampleFile 1)) (sampleBuilder .default)) :=
  @blocked_runs_iff F64 F64 _ _ _ _ (build_sampleDataset .default 1) sampleWriter rfl rfl
    firstLayer (fun _ => firstLayer) .time _ (List.Perm.refl _)

/-- With an overlap of one row at the top, the first row is never written. -/
theorem blocked_run_overlap_differs :
    (sampleBuilder ⟨1, 0, 0, 0⟩).build (sampleGdal (sampleFile 1)) =
        .ok (sampleDataset ⟨1, 0, 0, 0⟩ 1) ∧
      ¬ LikeWhole (sampleGdal (sampleFile 1)) (sampleDataset ⟨1, 0, 0, 0⟩ 1) firstLayer.run 1
        (runBlocks (sampleGdal (sampleFile 1)) (sampleDataset ⟨1, 0, 0, 0⟩ 1)
          (sampleWriter.blockWriter (sampleGdal (sampleFile 1)))
          (fun block => .ok (firstLayer.run block)) (sampleDataset ⟨1, 0, 0, 0⟩ 1).blocks []) := by
  refine ⟨build_sampleDataset _ 1, fun h => ?_⟩
  obtain ⟨_, log, hrun, whole, _, hpixels⟩ := h
  cases hrun
  have hcount := (hpixels 0 (by decide) 0 (by decide) 0 (by decide)).1
  revert hcount
  decide

end OrbitOpenEO
