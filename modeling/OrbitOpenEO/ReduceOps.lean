import OrbitOpenEO.RasterOps

/-!
# Reducing and merging

`reduce_dimension` over time or over the bands, and `merge_cubes` with its three
cases: band maps without a common name are joined, common names are resolved
pixel by pixel when a resolver is given, and everything else becomes a mosaic of
two files.
-/

namespace OrbitOpenEO

open Lib

section Reduce

variable (P : Platform) (dir : PathBuf)

/-- A value that the workers of `apply` and `reduce_dimension` take for data. -/
def isData (v : F64) : Bool := v.isFinite && !v.feq sentinelNdviNa

/-- The values of a pixel that take part in a reduction. -/
def reduceStack (vs : List F64) : List F64 := vs.filter isData

/-- The workers of `reduce_dimension` at one pixel. -/
def reducePixel (kind : ReducerKind) (vs : List F64) : F64 :=
  match reduceStack vs with
  | [] => sentinelNdviNa
  | stack => kind.run P stack

/-- The workers of `reduce_dimension`. -/
def reduceWorker (kind : ReducerKind) : List Raster → Raster := pixelwise (reducePixel P kind)

/-- The band a reduction over time works on: an index band, or else the first
band that is no classification. -/
def primaryBand (cube : DataCube) : Option String :=
  (F32_INDEX_BANDS.find? (fun k => cube.bands.containsKey k)).or
    (cube.bands.keys.find? (fun k => k ≠ "SCL"))

/-- The cube a reduction returns. -/
def reduceOutput (band : String) (paths : List PathBuf) (producedBy : String) : DataCube :=
  { bands := BTreeMap.empty.insert band paths
    sceneCount := some paths.length
    extras := BTreeMap.empty.insert "produced_by" (.str producedBy) }

/-- The texts of a failed reduction over time. -/
def reduceError : Stage → String → String
  | .builder, e => s!"reduce_dimension: builder: {e}"
  | .build, e => s!"reduce_dimension: build: {e}"
  | _, e => s!"reduce_dimension: apply_reduction: {e}"

/-- The body of `eval_reduce_dimension` over time. -/
def reduceTime (cube : DataCube) (kind : ReducerKind) : Eval DataCube :=
  match primaryBand cube with
  | none => throw (.invalidGraph
      "reduce_dimension: __cube.bands has no usable band (cube is empty or only contains SCL)")
  | some indexKey =>
      match cube.takeBand indexKey with
      | .error _ => throw (.invalidGraph
          s!"reduce_dimension: band `{indexKey}` vanished from cube")
      | .ok ([], _) => throw (.backend "reduce_dimension: empty input cube")
      | .ok (paths, _) => do
          let nanos ← now P
          let out := scratch dir s!"reduce_{nanos}.tif"
          reduction P paths out reduceError (reduceWorker P kind)
          pure (reduceOutput indexKey [out] s!"reduce_dimension({kind.label})")

/-- The texts of a failed scene of a reduction over the bands. -/
def reduceBandsError (t : Nat) : Stage → String → String
  | .builder, e => s!"reduce(bands): builder t={t}: {e}"
  | .build, e => s!"reduce(bands): build t={t}: {e}"
  | _, e => s!"reduce(bands): apply_reduction t={t}: {e}"

/-- The body of `eval_reduce_dimension_bands`.  A single band is only renamed. -/
def reduceBands (cube : DataCube) (kind : ReducerKind) : Eval DataCube :=
  match cube.bands.entries.filter (fun e => e.1 ≠ "SCL") with
  | [] => throw (.invalidGraph "reduce_dimension(bands): cube has no non-SCL band to reduce")
  | [(_, paths)] =>
      pure (reduceOutput "result" paths
        s!"reduce_dimension(bands, {kind.label}, single-band-passthrough)")
  | (key, first) :: rest =>
      match ((key, first) :: rest).find? (fun e => e.2.length ≠ first.length) with
      | some e => throw (.invalidGraph
          s!"reduce_dimension(bands): band `{e.1}` has {e.2.length} scenes, expected {first.length}")
      | none => do
          let outs ← mapEach
            (fun (t : Nat) => do
              let nanos ← now P
              let out := scratch dir s!"reduce_bands_t{t}_{nanos}.tif"
              reduction P (((key, first) :: rest).filterMap (fun e => e.2[t]?)) out
                (reduceBandsError t) (reduceWorker P kind)
              pure out)
            (List.range first.length)
          pure (reduceOutput "result" outs s!"reduce_dimension(bands, {kind.label})")

/-- The `reducer` argument and the cube, read in the order of both evaluators. -/
def reduceArgs (args : Args) (who : String) : Except ExecError (ReducerKind × DataCube) :=
  match args.get "reducer" with
  | none => .error (.invalidGraph s!"{who}: missing `reducer` sub-process callback")
  | some v => do
      let kind ← parseReducerSubgraph v.toValue
      let data ← requireArg args "data" s!"{who}: missing `data`"
      let cube ← decodeCube data s!"{who}: input is not a downloaded cube"
      .ok (kind, cube)

/-- `eval_reduce_dimension`. -/
def evalReduceDimension (args : Args) : Eval Envelope :=
  match (args.get "dimension").bind Envelope.asStr with
  | none => throw (.invalidGraph "reduce_dimension: missing `dimension` (must be a string)")
  | some dim =>
      if dim = "bands" ∨ dim = "band" then do
        let a ← attempt (reduceArgs args "reduce_dimension(bands)")
        let out ← reduceBands P dir a.2 a.1
        pure (.cube out)
      else if dim = "t" ∨ dim = "time" ∨ dim = "temporal" then do
        let a ← attempt (reduceArgs args "reduce_dimension")
        let out ← reduceTime P dir a.2 a.1
        pure (.cube out)
      else throw (.invalidGraph
        s!"reduce_dimension: dimension `{dim}` not supported (only `t`/`time`/`temporal` and `bands`/`band`)")

end Reduce

section Merge

variable (P : Platform) (dir : PathBuf)

/-- `extract_raster_path`: a file, or the first scene of a cube's primary band. -/
def extractRasterPath (v : Envelope) (name : String) : Except ExecError PathBuf :=
  match v with
  | .raster path => .ok path
  | .cube c =>
      match (primaryBand c).bind (fun k => (c.bands.get k).bind List.head?) with
      | some p => .ok p
      | none => .error (.invalidGraph s!"{name}: __cube has no usable band path")
  | .value (.str s) _ => .ok s
  | _ => .error (.invalidGraph
      s!"{name} must be a __raster handle, __cube envelope, or a string path")

/-- The texts of a failed scene of the overlap resolver. -/
def resolveError (band : String) (t : Nat) : Stage → String → String
  | .builder, e => s!"merge_cubes resolve builder {band} t={t}: {e}"
  | .build, e => s!"merge_cubes resolve build {band} t={t}: {e}"
  | _, e => s!"merge_cubes resolve {band} t={t}: {e}"

/-- One band of the union: resolved when both cubes have it, else forwarded. -/
def resolveBand (kind : ReducerKind) (b1 b2 : BTreeMap (List PathBuf)) (band : String) :
    Eval (String × List PathBuf) :=
  match b1.get band, b2.get band with
  | some p1, some p2 =>
      if p1.length ≠ p2.length then
        throw (.invalidGraph
          s!"merge_cubes: band `{band}` scene-count mismatch ({p1.length} vs {p2.length})")
      else do
        let outs ← mapEach
          (fun (e : (PathBuf × PathBuf) × Nat) => do
            let nanos ← now P
            let out := scratch dir s!"merge_resolve_{band}_t{e.2}_{nanos}.tif"
            reduction P [e.1.1, e.1.2] out (resolveError band e.2) (reduceWorker P kind)
            pure out)
          (p1.zip p2).zipIdx
        pure (band, outs)
  | some p, none => pure (band, p)
  | none, some p => pure (band, p)
  | none, none => pure (band, [])

/-- `merge_cubes_resolve_overlap`: Case 2. -/
def mergeResolveOverlap (c1 c2 : DataCube) (resolver : Json) : Eval DataCube := do
  let kind ← attempt (parseReducerSubgraph resolver)
  let bands ← mapEach (resolveBand P dir kind c1.bands c2.bands)
    ((c1.bands.insertAll c2.bands.entries).keys)
  pure (mergedFrom c1 (BTreeMap.ofEntries bands))

/-- The mosaic of two files: Case 3. -/
def mergeMosaic (v1 v2 : Envelope) : Eval Envelope := do
  let p1 ← attempt (extractRasterPath v1 "cube1")
  let p2 ← attempt (extractRasterPath v2 "cube2")
  let nanos ← now P
  let dst := scratch dir s!"mosaic_{nanos}.tif"
  fun w =>
    let w := w.note (.wrote (P.tempVrt w.clockReads))
    match w.files p1, w.files p2 with
    | some r1, some r2 =>
        match P.mosaic r1 r2 with
        | .ok r => .ok (.raster dst) (w.write dst (some r))
        | .error e => .error (.backend s!"merge_cubes: {e}") w
    | none, _ => .error (.backend s!"merge_cubes: {P.noSuchFile p1}") w
    | some _, none => .error (.backend s!"merge_cubes: {P.noSuchFile p2}") w

/-- `eval_merge_cubes` on its two cubes. -/
def mergeCubes (v1 v2 : Envelope) (resolver : Option Json) : Eval Envelope :=
  match v1, v2, resolver with
  | .cube c1, .cube c2, resolver =>
      if bandsOverlap c1 c2 then
        match resolver with
        | some r => do
            let out ← mergeResolveOverlap P dir c1 c2 r
            pure (.cube out)
        | none => mergeMosaic P dir v1 v2
      else pure (.cube (mergeDisjoint c1 c2))
  | _, _, _ => mergeMosaic P dir v1 v2

/-- `eval_merge_cubes`. -/
def evalMergeCubes (args : Args) : Eval Envelope :=
  match (args.get "cube1").or (args.get "data1"), (args.get "cube2").or (args.get "data2") with
  | none, _ => throw (.invalidGraph "merge_cubes: missing `cube1`")
  | some _, none => throw (.invalidGraph "merge_cubes: missing `cube2`")
  | some v1, some v2 =>
      mergeCubes P dir v1 v2 ((args.get "overlap_resolver").map Envelope.toValue)

end Merge

end OrbitOpenEO
