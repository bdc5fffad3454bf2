import OrbitOpenEO.RasterDataset
import OrbitOpenEO.Lib.Effect

/-!
# Block by block

The entry points that run a worker over the blocks of a dataset.  The blocks of a
run complete in some order, which is an argument; a run stops at the first block
that fails.  What a run leaves behind is the list of the calls of `write_block` that
were accepted, so that a failed run still shows what it wrote.
-/

namespace OrbitOpenEO

/-- `Dimension`. -/
inductive Dimension where
  | layer
  | time
deriving DecidableEq

/-- A call of `write_block`. -/
structure WriteCall (β : Type) where
  data : Array3 β
  window : ReadWindow

/-- `BlockWriter<V>`: which calls it accepts, and the pass over the finished file. -/
structure BlockWriter (β : Type) where
  writeBlock : WriteCall β → Except Failure Unit
  buildOverviews : String → List Nat → Except Failure Unit

/-- A run over blocks, with the calls that were accepted. -/
abbrev BlockRun (β : Type) := EStateM Failure (List (WriteCall β))

/-- Hand a block to the writer. -/
def writeTo {β : Type} (writer : BlockWriter β) (call : WriteCall β) : BlockRun β Unit := do
  Lib.attempt (writer.writeBlock call)
  modify (· ++ [call])

/-- `trim_overlap`.  A slice that ends before it starts is empty, and one that starts
behind the end of the axis panics. -/
def trimOverlap {β : Type} (data : Array3 β) (region : RasterRegion) :
    Except Failure (Array3 β) :=
  let ov := region.overlap
  if ov.top == 0 && ov.bottom == 0 && ov.left == 0 && ov.right == 0 then .ok data
  else
    let rowEnd := data.rows - ov.bottom
    let colEnd := data.cols - ov.right
    if ov.top ≤ data.rows && ov.left ≤ data.cols then
      .ok ⟨data.layers, rowEnd - ov.top, colEnd - ov.left,
        fun l r c => data.elem l (ov.top + r) (ov.left + c)⟩
    else .error .panic

/-- Trim the result of a worker and write it where its region says. -/
def writeTrimmed {β : Type} (writer : BlockWriter β) (result : Array3 β) (region : RasterRegion) :
    BlockRun β Unit := do
  let trimmed ← Lib.attempt (trimOverlap result region)
  writeTo writer ⟨trimmed, region.writeWindow⟩

/-- The blocks of a run one after the other. -/
def forEachBlock {β ι : Type} (body : ι → BlockRun β Unit) : List ι → BlockRun β Unit
  | [] => pure ()
  | region :: rest => do
      body region
      forEachBlock body rest

section Entry

variable {α β γ : Type} [RasterType α] [RasterType γ] (gdal : Gdal) (rds : RasterDataset)

/-- `run_blocks`, with the blocks in the order in which they complete. -/
def runBlocks (writer : BlockWriter β) (perBlock : RasterDataBlock α → Except Failure (Array3 β))
    (order : List RasterRegion) : BlockRun β Unit :=
  forEachBlock
    (fun region => do
      let block ← Lib.attempt (readBlock gdal rds region)
      let result ← Lib.attempt (perBlock block)
      writeTrimmed writer result region) order

/-- `apply_reduction_to_writer`. -/
def applyReductionToWriter (writer : BlockWriter β)
    (worker : RasterDataBlock α → Dimension → Array3 β) (dim : Dimension)
    (order : List RasterRegion) : BlockRun β Unit := do
  forEachBlock
    (fun region => do
      let block ← Lib.attempt (readBlock gdal rds region)
      writeTrimmed writer (worker block dim) region) order
  Lib.attempt (writer.buildOverviews "AVERAGE" [2, 4, 8, 16])

/-- The check of the entry points that take a mask. -/
def checkBlockCounts (mask : RasterDataset) : Except Failure Unit :=
  if rds.numBlocks != mask.numBlocks then
    .error (.error (.inconsistentMetadata
      s!"data has {rds.numBlocks} blocks, mask has {mask.numBlocks}"))
  else .ok ()

/-- The common part of the entry points that take a mask: check, run over the pairs
of blocks, build overviews. -/
def withMaskToWriter (mask : RasterDataset) (writer : BlockWriter β)
    (perPair : RasterDataBlock α → RasterDataBlock γ → Except Failure (Array3 β))
    (order : List (RasterRegion × RasterRegion)) : BlockRun β Unit := do
  Lib.attempt (checkBlockCounts rds mask)
  forEachBlock
    (fun (region, maskRegion) => do
      let dataBlock ← Lib.attempt (readBlock gdal rds region)
      let maskBlock ← Lib.attempt (readBlock gdal mask maskRegion)
      let result ← Lib.attempt (perPair dataBlock maskBlock)
      writeTrimmed writer result region) order
  Lib.attempt (writer.buildOverviews "AVERAGE" [2, 4, 8, 16])

/-- `apply_with_mask_to_writer`. -/
def applyWithMaskToWriter (mask : RasterDataset) (writer : BlockWriter β)
    (worker : RasterDataBlock α → RasterDataBlock γ → Array3 β)
    (order : List (RasterRegion × RasterRegion)) : BlockRun β Unit :=
  withMaskToWriter gdal rds mask writer (fun data mask => .ok (worker data mask)) order

/-- `apply_reduction_with_mask_to_writer`. -/
def applyReductionWithMaskToWriter (mask : RasterDataset) (writer : BlockWriter β)
    (worker : RasterDataBlock α → RasterDataBlock γ → Dimension → Array3 β) (dim : Dimension)
    (order : List (RasterRegion × RasterRegion)) : BlockRun β Unit :=
  withMaskToWriter gdal rds mask writer (fun data mask => .ok (worker data mask dim)) order

/-- `ndarray::Array1`. -/
structure Array1 (α : Type) where
  length : Nat
  elem : Nat → α

/-- `ArrayView3`: one row of a block, by time, layer and column. -/
structure RowView (α : Type) where
  times : Nat
  layers : Nat
  cols : Nat
  elem : Nat → Nat → Nat → α

/-- `data.slice(s![.., .., r, ..])`. -/
def Array4.row {δ : Type} (data : Array4 δ) (r : Nat) : Except Failure (RowView δ) :=
  if r < data.rows then
    .ok ⟨data.times, data.layers, data.cols, fun t l c => data.elem t l r c⟩
  else .error .panic

/-- `out.slice_mut(s![0, r, ..]).assign(&row_out)`: a row of one element is repeated. -/
def Array3.assignRow {δ : Type} (out : Array3 δ) (r : Nat) (row : Array1 δ) :
    Except Failure (Array3 δ) :=
  if row.length = out.cols || row.length = 1 then
    .ok { out with elem := fun l r' c =>
      if l = 0 ∧ r' = r then row.elem (if row.length = out.cols then c else 0)
      else out.elem l r' c }
  else .error .panic

/-- The loop over the rows of a pair of blocks. -/
def rowPixels [RasterType β] (worker : RowView α → RowView γ → Array1 β)
    (data : RasterDataBlock α) (mask : RasterDataBlock γ) : Except Failure (Array3 β) :=
  (List.range data.data.rows).foldlM
    (fun out r => do
      let rowD ← data.data.row r
      let rowM ← mask.data.row r
      out.assignRow r (worker rowD rowM))
    ⟨1, data.data.rows, data.data.cols, fun _ _ _ => RasterType.zero⟩

/-- `apply_reduction_row_pixel_with_mask_to_writer`. -/
def applyReductionRowPixelWithMaskToWriter [RasterType β] (mask : RasterDataset)
    (writer : BlockWriter β) (worker : RowView α → RowView γ → Array1 β)
    (order : List (RasterRegion × RasterRegion)) : BlockRun β Unit :=
  withMaskToWriter gdal rds mask writer (rowPixels worker) order

end Entry

/-- `ParallelGeoTiffWriter`, which has pixels and bands: GDAL creates no other raster. -/
structure ParallelGeoTiffWriter where
  rows : Nat
  cols : Nat
  bands : Nat
  rows_pos : 0 < rows
  cols_pos : 0 < cols
  bands_pos : 0 < bands

/-- `impl BlockWriter for ParallelGeoTiffWriter`: band by band, each at the window. -/
def ParallelGeoTiffWriter.blockWriter {β : Type} (gdal : Gdal) (writer : ParallelGeoTiffWriter) :
    BlockWriter β where
  writeBlock call :=
    let (col, row) := (call.window.offset.cols, call.window.offset.rows)
    let (cols, rows) := (call.data.cols, call.data.rows)
    (List.range call.data.layers).forM fun band =>
      if writer.bands ≤ band then
        .error (.error (.other s!"rasterband {band + 1}: {gdal.bandError}"))
      else if windowFits writer.rows writer.cols (col, row) (cols, rows) then .ok ()
      else
        .error (.error (.other
          s!"band {band + 1} write at ({col},{row}) size ({cols},{rows}): {gdal.windowError}"))
  buildOverviews _ _ := .ok ()

section Runs

variable {β ι : Type}

theorem writeTo_eq_ok_iff {writer : BlockWriter β} {call : WriteCall β}
    {log log' : List (WriteCall β)} :
    writeTo writer call log = .ok () log' ↔
      writer.writeBlock call = .ok () ∧ log' = log ++ [call] := by
  unfold writeTo
  rw [Lib.attempt_bind_eq_ok_iff]
  constructor
  · rintro ⟨_, hwrite, h⟩
    cases h
    exact ⟨hwrite, rfl⟩
  · rintro ⟨hwrite, rfl⟩
    exact ⟨(), hwrite, rfl⟩

/-- The edges of an array cut off. -/
def Array3.inner (data : Array3 β) (ov : Overlap) : Array3 β where
  layers := data.layers
  rows := data.rows - ov.bottom - ov.top
  cols := data.cols - ov.right - ov.left
  elem l r c := data.elem l (ov.top + r) (ov.left + c)

/-- Without overlap nothing is cut off, so one form of the slice does. -/
theorem trimOverlap_eq (data : Array3 β) (region : RasterRegion) :
    trimOverlap data region =
      if region.overlap.top ≤ data.rows ∧ region.overlap.left ≤ data.cols then
        .ok (data.inner region.overlap)
      else .error .panic := by
  unfold trimOverlap
  dsimp only
  by_cases hzero : (region.overlap.top == 0 && region.overlap.bottom == 0 &&
      region.overlap.left == 0 && region.overlap.right == 0) = true
  · rw [if_pos hzero]
    simp only [Bool.and_eq_true, beq_iff_eq] at hzero
    obtain ⟨⟨⟨htop, hbottom⟩, hleft⟩, hright⟩ := hzero
    rw [if_pos (by omega)]
    simp [Array3.inner, htop, hbottom, hleft, hright]
  · rw [if_neg hzero]
    simp only [Bool.and_eq_true, decide_eq_true_eq]
    rfl

theorem writeTrimmed_eq_ok_iff {writer : BlockWriter β} {result : Array3 β}
    {region : RasterRegion} {log log' : List (WriteCall β)} :
    writeTrimmed writer result region log = .ok () log' ↔
      ((region.overlap.top ≤ result.rows ∧ region.overlap.left ≤ result.cols) ∧
        writer.writeBlock ⟨result.inner region.overlap, region.writeWindow⟩ = .ok ()) ∧
      log' = log ++ [⟨result.inner region.overlap, region.writeWindow⟩] := by
  unfold writeTrimmed
  rw [Lib.attempt_bind_eq_ok_iff, trimOverlap_eq]
  constructor
  · rintro ⟨trimmed, htrim, h⟩
    split_ifs at htrim with hfits
    cases htrim
    obtain ⟨hwrite, hlog⟩ := writeTo_eq_ok_iff.mp h
    exact ⟨⟨hfits, hwrite⟩, hlog⟩
  · rintro ⟨⟨hfits, hwrite⟩, hlog⟩
    exact ⟨_, if_pos hfits, writeTo_eq_ok_iff.mpr ⟨hwrite, hlog⟩⟩

/-- A run whose blocks each make one call. -/
theorem forEachBlock_eq_ok_iff {body : ι → BlockRun β Unit} {P : ι → Prop} {g : ι → WriteCall β}
    (hbody : ∀ a log log', body a log = .ok () log' ↔ P a ∧ log' = log ++ [g a]) :
    ∀ {order : List ι} {log log' : List (WriteCall β)},
      forEachBlock body order log = .ok () log' ↔
        (∀ a ∈ order, P a) ∧ log' = log ++ order.map g
  | [], log, log' => by
      simp [forEachBlock, pure, EStateM.pure, eq_comm]
  | a :: rest, log, log' => by
      unfold forEachBlock
      rw [Lib.act_bind_eq_ok_iff]
      simp only [hbody, List.forall_mem_cons]
      constructor
      · rintro ⟨_, mid, ⟨ha, rfl⟩, hrest⟩
        obtain ⟨hall, rfl⟩ := (forEachBlock_eq_ok_iff hbody).mp hrest
        exact ⟨⟨ha, hall⟩, by simp⟩
      · rintro ⟨⟨ha, hall⟩, rfl⟩
        exact ⟨(), _, ⟨ha, rfl⟩, (forEachBlock_eq_ok_iff hbody).mpr ⟨hall, by simp⟩⟩

variable {α : Type} [RasterType α] {gdal : Gdal} {rds : RasterDataset}

/-- The call that a block of a run makes. -/
def blockCall (gdal : Gdal) (rds : RasterDataset) (worker : RasterDataBlock α → Array3 β)
    (region : RasterRegion) : WriteCall β :=
  ⟨(worker (blockOf gdal rds region)).inner region.overlap, region.writeWindow⟩

/-- The block can be read, trimmed and written. -/
def BlockRuns (gdal : Gdal) (rds : RasterDataset) (writer : BlockWriter β)
    (worker : RasterDataBlock α → Array3 β) (region : RasterRegion) : Prop :=
  Readable gdal rds region ∧
    (region.overlap.top ≤ (worker (blockOf gdal rds region)).rows ∧
      region.overlap.left ≤ (worker (blockOf gdal rds region)).cols) ∧
    writer.writeBlock (blockCall gdal rds worker region) = .ok ()

/-- **A run of `run_blocks`** makes the call of each block, in the order given. -/
theorem runBlocks_eq_ok_iff {writer : BlockWriter β} {worker : RasterDataBlock α → Array3 β}
    {order : List RasterRegion} {log : List (WriteCall β)} :
    runBlocks gdal rds writer (fun block => .ok (worker block)) order [] = .ok () log ↔
      (∀ region ∈ order, BlockRuns gdal rds writer worker region) ∧
        log = order.map (blockCall gdal rds worker) := by
  unfold runBlocks
  refine forEachBlock_eq_ok_iff (fun region log log' => ?_)
  rw [Lib.attempt_bind_eq_ok_iff]
  simp only [readBlock_eq_ok_iff, Lib.attempt_bind_eq_ok_iff, writeTrimmed_eq_ok_iff,
    Except.ok.injEq]
  constructor
  · rintro ⟨block, ⟨hread, rfl⟩, result, rfl, ⟨hfits, hwrite⟩, rfl⟩
    exact ⟨⟨hread, hfits, hwrite⟩, rfl⟩
  · rintro ⟨⟨hread, hfits, hwrite⟩, rfl⟩
    exact ⟨_, ⟨hread, rfl⟩, _, rfl, ⟨hfits, hwrite⟩, rfl⟩

/-- A reduction is a run of its worker, followed by the overviews. -/
theorem applyReductionToWriter_eq_ok_iff {writer : BlockWriter β}
    {worker : RasterDataBlock α → Dimension → Array3 β} {dim : Dimension}
    {order : List RasterRegion} {log : List (WriteCall β)} :
    applyReductionToWriter gdal rds writer worker dim order [] = .ok () log ↔
      runBlocks gdal rds writer (fun block => .ok (worker block dim)) order [] = .ok () log ∧
        writer.buildOverviews "AVERAGE" [2, 4, 8, 16] = .ok () := by
  have hbody : ∀ block : RasterDataBlock α,
      (Lib.attempt (.ok (worker block dim)) : BlockRun β (Array3 β)) = pure (worker block dim) :=
    fun _ => rfl
  unfold applyReductionToWriter runBlocks
  rw [Lib.act_bind_eq_ok_iff]
  simp only [hbody, pure_bind, Lib.attempt_eq_ok_iff]
  constructor
  · rintro ⟨_, _, hrun, hoverviews, rfl⟩
    exact ⟨hrun, hoverviews⟩
  · rintro ⟨hrun, hoverviews⟩
    exact ⟨(), log, hrun, hoverviews, rfl⟩

/-- The writer accepts the bands it has, each at a window of the raster. -/
theorem writeBlock_eq_ok_iff {writer : ParallelGeoTiffWriter} {call : WriteCall β} :
    (writer.blockWriter gdal).writeBlock call = .ok () ↔
      ∀ band < call.data.layers, band < writer.bands ∧
        windowFits writer.rows writer.cols (call.window.offset.cols, call.window.offset.rows)
          (call.data.cols, call.data.rows) = true := by
  simp only [ParallelGeoTiffWriter.blockWriter, Lib.forM_eq_ok_iff, List.mem_range]
  refine forall_congr' fun band => imp_congr_right fun _ => ?_
  split_ifs with hband hfits
  · exact iff_of_false (by simp) fun h => absurd h.1 (not_lt.mpr hband)
  · exact iff_of_true rfl ⟨not_le.mp hband, hfits⟩
  · exact iff_of_false (by simp) fun h => hfits h.2

end Runs

end OrbitOpenEO
