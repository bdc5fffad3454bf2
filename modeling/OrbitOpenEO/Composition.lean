import OrbitOpenEO.RasterDataset

/-!
# Composing datasets

`extend` puts the times of one dataset behind those of another, `stack` the layers:
both append the layer mappings, with the positions of the second dataset moved on.
The blocks and the metadata of the extent are those of the first dataset.
`zonal_histogram` pairs the pixels of two datasets block by block.
-/

namespace OrbitOpenEO

/-- `check_spatial_alignment`. -/
def checkSpatialAlignment (a b : RasterDataset) : Except Failure Unit :=
  let (sa, sb) := (a.metadata.shape, b.metadata.shape)
  if sa.rows != sb.rows || sa.cols != sb.cols then
    .error (.error (.inconsistentMetadata
      s!"spatial extent mismatch: a=({sa.rows}, {sa.cols}), b=({sb.rows}, {sb.cols})"))
  else if a.metadata.epsgCode != b.metadata.epsgCode then
    .error (.error (.inconsistentMetadata
      s!"EPSG mismatch: a={a.metadata.epsgCode}, b={b.metadata.epsgCode}"))
  else .ok ()

/-- A mapping in a stack where its dataset starts at another slot. -/
def LayerMapping.moved (times layers : Nat) (m : LayerMapping) : LayerMapping :=
  { m with timePos := m.timePos + times, layerPos := m.layerPos + layers }

/-- What `extend` and `stack` have in common: the check of the extent, that of the other
axis, and the mappings of the second dataset behind those of the first. -/
def glue (mismatch : Option String) (shape : RasterShape) (times layers : Nat)
    (a b : RasterDataset) : Except Failure RasterDataset := do
  checkSpatialAlignment a b
  match mismatch with
  | some text => .error (.error (.inconsistentMetadata text))
  | none =>
      .ok
        { metadata := { a.metadata with shape := shape }
          blocks := a.blocks
          layerMappings := a.layerMappings ++ b.layerMappings.map (LayerMapping.moved times layers)
          sourceFiles := a.sourceFiles ++ b.sourceFiles }

/-- `extend`. -/
def extend (a b : RasterDataset) : Except Failure RasterDataset :=
  let (sa, sb) := (a.metadata.shape, b.metadata.shape)
  glue
    (if sa.layers != sb.layers then
      some s!"extend: layer mismatch a={sa.layers} b={sb.layers}" else none)
    { sa with times := sa.times + sb.times } sa.times 0 a b

/-- `stack`. -/
def stack (a b : RasterDataset) : Except Failure RasterDataset :=
  let (sa, sb) := (a.metadata.shape, b.metadata.shape)
  glue
    (if sa.times != sb.times then
      some s!"stack: time mismatch a={sa.times} b={sb.times}" else none)
    { sa with layers := sa.layers + sb.layers } 0 sa.layers a b

/-- The two datasets have the extent and the code of each other. -/
def SameExtent (a b : RasterDataset) : Prop :=
  a.metadata.shape.rows = b.metadata.shape.rows ∧
    a.metadata.shape.cols = b.metadata.shape.cols ∧ a.metadata.epsgCode = b.metadata.epsgCode

theorem checkSpatialAlignment_eq_ok_iff {a b : RasterDataset} :
    checkSpatialAlignment a b = .ok () ↔ SameExtent a b := by
  unfold checkSpatialAlignment SameExtent
  dsimp only
  split_ifs with hsize hepsg
  · simp only [Bool.or_eq_true, bne_iff_ne] at hsize
    exact iff_of_false (by simp) (by omega)
  · rw [bne_iff_ne] at hepsg
    exact iff_of_false (by simp) (by omega)
  · simp only [Bool.or_eq_true, bne_iff_ne, not_or, not_not] at hsize hepsg
    exact iff_of_true rfl ⟨hsize.1, hsize.2, hepsg⟩

/-- The second dataset behind the first, from a slot on. -/
def glued (shape : RasterShape) (times layers : Nat) (a b : RasterDataset) : RasterDataset where
  metadata := { a.metadata with shape := shape }
  blocks := a.blocks
  layerMappings := a.layerMappings ++ b.layerMappings.map (LayerMapping.moved times layers)
  sourceFiles := a.sourceFiles ++ b.sourceFiles

theorem glue_eq_ok_iff {mismatch : Option String} {shape : RasterShape} {times layers : Nat}
    {a b r : RasterDataset} :
    glue mismatch shape times layers a b = .ok r ↔
      SameExtent a b ∧ mismatch = none ∧ r = glued shape times layers a b := by
  unfold glue
  rw [Lib.bind_eq_ok_iff, ← checkSpatialAlignment_eq_ok_iff]
  cases mismatch with
  | some text =>
      simp
  | none =>
      constructor
      · rintro ⟨_, hcheck, hr⟩
        exact ⟨hcheck, rfl, (Except.ok.inj hr).symm⟩
      · rintro ⟨hcheck, _, rfl⟩
        exact ⟨(), hcheck, rfl⟩

/-- What `extend` returns. -/
theorem extend_eq_ok_iff {a b r : RasterDataset} :
    extend a b = .ok r ↔
      SameExtent a b ∧ a.metadata.shape.layers = b.metadata.shape.layers ∧
        r = glued { a.metadata.shape with
              times := a.metadata.shape.times + b.metadata.shape.times }
            a.metadata.shape.times 0 a b := by
  unfold extend
  simp only [glue_eq_ok_iff, ite_eq_right_iff, reduceCtorEq, imp_false, bne_iff_ne, not_not]

/-- What `stack` returns. -/
theorem stack_eq_ok_iff {a b r : RasterDataset} :
    stack a b = .ok r ↔
      SameExtent a b ∧ a.metadata.shape.times = b.metadata.shape.times ∧
        r = glued { a.metadata.shape with
              layers := a.metadata.shape.layers + b.metadata.shape.layers }
            0 a.metadata.shape.layers a b := by
  unfold stack
  simp only [glue_eq_ok_iff, ite_eq_right_iff, reduceCtorEq, imp_false, bne_iff_ne, not_not]

section Zones

variable {α γ : Type} [RasterType α] [RasterType γ]

/-- The loop of `read_block_layer_idx` over the mappings of the layer. -/
def fillTimes (gdal : Gdal) (shape : RasterShape) (offset : Int × Int) :
    List LayerMapping → Array4 α → Except Failure (Array4 α)
  | [], data => .ok data
  | mapping :: rest, data => do
      let arr2d ← readWindowCached gdal mapping.source mapping.band offset (shape.cols, shape.rows)
      if mapping.timePos ≥ shape.times then
        .error (.error (.inconsistentMetadata
          s!"layer_mapping time_pos={mapping.timePos} out of bounds for shape.times={shape.times}"))
      else fillTimes gdal shape offset rest (data.assign mapping.timePos 0 arr2d)

/-- `read_block_layer_idx`. -/
def readBlockLayerIdx (gdal : Gdal) (rds : RasterDataset) (blockId layerIdx : Nat) :
    Except Failure (RasterDataBlock α) :=
  if layerIdx ≥ rds.metadata.shape.layers then
    .error (.error (.inconsistentMetadata
      s!"layer_idx={layerIdx} out of range (dataset has {rds.metadata.shape.layers} layers)"))
  else
    match rds.blocks[blockId]? with
    | none => .error (.error (.other s!"block_id {blockId} out of range"))
    | some region => do
        let (rows, cols) ← allocate region.readWindow.size
        let shape : RasterShape :=
          { times := rds.metadata.shape.times, layers := 1, rows := rows, cols := cols }
        let offset := (region.readWindow.offset.cols, region.readWindow.offset.rows)
        let data ← fillTimes gdal shape offset
          (rds.layerMappings.filter (fun m => m.layerPos == layerIdx)) (Array4.zeros shape)
        .ok { data := data, shape := shape, noData := RasterType.zero, region := region }

/-- `data.iter()`: the elements in the order of the indices. -/
def Array4.iter (data : Array4 α) : List α :=
  (List.range data.times).flatMap fun t =>
    (List.range data.layers).flatMap fun l =>
      (List.range data.rows).flatMap fun r =>
        (List.range data.cols).map fun c => data.elem t l r c

/-- The counts of a histogram, zero for a value that is not in it. -/
abbrev Histogram (α : Type) := α → Nat

/-- The loop over the pixels of a pair of blocks. -/
def countPixels [DecidableEq α] [DecidableEq γ] (hist : Histogram α)
    (data : Array4 α) (mask : Array4 γ) : Histogram α :=
  (data.iter.zip mask.iter).foldl
    (fun hist p => if p.2 ≠ RasterType.zero then Function.update hist p.1 (hist p.1 + 1) else hist)
    hist

/-- `zonal_histogram`. -/
def zonalHistogram [DecidableEq α] (γ : Type) [RasterType γ] [DecidableEq γ] (gdal : Gdal)
    (data mask : RasterDataset) : Except Failure (Histogram α) :=
  if data.numBlocks != mask.numBlocks then
    .error (.error (.inconsistentMetadata
      s!"zonal_histogram: data has {data.numBlocks} blocks, mask has {mask.numBlocks}"))
  else
    (List.range data.numBlocks).foldlM
      (fun hist blockId => do
        let dataBlock ← readBlockLayerIdx gdal data blockId 0
        let maskBlock : RasterDataBlock γ ← readBlockLayerIdx gdal mask blockId 0
        .ok (countPixels hist dataBlock.data maskBlock.data))
      (fun _ => 0)

end Zones

end OrbitOpenEO
