import OrbitOpenEO.CubeOps
import OrbitOpenEO.Reducer

/-!
# Cube operations on pixels

`ndvi` and `apply`, which compute new values scene by scene.  As for the other
raster processes there is

* the value it writes for a pixel, as a function of the values it reads;
* the cube it returns, as a function of the cube it got and the paths it wrote;
* the evaluator, which reads the arguments, writes the files and returns that
  cube.
-/

namespace OrbitOpenEO

open Lib

/-- The bands that hold floats and that `mask` leaves out. -/
def F32_INDEX_BANDS : List String := ["ndvi", "ndmi", "ndwi", "evi", "savi", "msavi"]

/-- Where the value of a band at each scene goes. -/
def scenePath (dir : PathBuf) (stem suffix : String) (t : Nat) : PathBuf :=
  scratch dir s!"{stem}{suffix}{t}.tif"

/-- The files of the scenes `0, …, n - 1`. -/
def sceneFiles (dir : PathBuf) (stem suffix : String) (n : Nat) : List PathBuf :=
  (List.range n).map (scenePath dir stem suffix)

@[simp] theorem length_sceneFiles (dir : PathBuf) (stem suffix : String) (n : Nat) :
    (sceneFiles dir stem suffix n).length = n := by
  simp [sceneFiles]

/-- A loop over numbered scenes that only looks at the number. -/
theorem map_zipIdx_snd {α β : Type} (xs : List α) (g : Nat → β) :
    xs.zipIdx.map (fun p => g p.2) = (List.range xs.length).map g := by
  rw [List.range_eq_range', ← List.zipIdx_map_snd 0 xs, List.map_map]
  rfl

section Ndvi

variable (P : Platform) (dir : PathBuf)

/-- `pure_ndvi_worker` at one pixel. -/
def ndviPixel (red nir : Int) : F64 :=
  if red ≤ 0 ∨ nir ≤ 0 then sentinelNdviNa
  else
    let denom := P.f32.add (P.f32.ofInt red) (P.f32.ofInt nir)
    if F64.lt denom.abs (.finite 1) then sentinelNdviNa
    else P.f32.div (P.f32.sub (P.f32.ofInt nir) (P.f32.ofInt red)) denom

/-- `pure_ndvi_worker`. -/
def ndviWorker : List Raster → Raster :=
  pixelwise (fun
    | [red, nir] => ndviPixel P (P.readI16 red) (P.readI16 nir)
    | _ => sentinelNdviNa)

/-- The texts of a failed scene. -/
def sceneError (who : String) (t : Nat) : Stage → String → String
  | .builder, e => s!"{who}: builder t={t}: {e}"
  | .build, e => s!"{who}: build t={t}: {e}"
  | _, e => s!"{who}: apply_reduction t={t}: {e}"

/-- The cube `ndvi` returns: `rest` is the input without the red and nir bands. -/
def ndviOutput (rest : DataCube) (redBand nirBand targetBand : String) (paths : List PathBuf) :
    DataCube :=
  { bands := (BTreeMap.empty.insert targetBand paths).insertAll
      (rest.bands.entries.filter
        (fun e => !(e.1 == redBand || e.1 == nirBand || e.1 == targetBand)))
    bbox := rest.bbox
    sceneCount := some paths.length
    times := some paths.length
    layers := some 1
    layerNames := some [targetBand] }

/-- The index is found under the target name. -/
theorem get_ndviOutput_target (rest : DataCube) (redBand nirBand targetBand : String)
    (paths : List PathBuf) :
    (ndviOutput rest redBand nirBand targetBand paths).bands.get targetBand = some paths := by
  have hnone : BTreeMap.lastEntry (rest.bands.entries.filter
      (fun e => !(e.1 == redBand || e.1 == nirBand || e.1 == targetBand))) targetBand = none := by
    rw [Option.eq_none_iff_forall_ne_some]
    intro v hv
    have hmem := (List.mem_filter.mp (BTreeMap.mem_of_lastEntry hv)).2
    simp at hmem
  rw [ndviOutput, BTreeMap.get_insertAll, hnone, Option.none_or, BTreeMap.get_insert_self]

/-- The body of `eval_ndvi`. -/
def ndvi (cube : DataCube) (redBand nirBand targetBand : String) : Eval DataCube :=
  match cube.takeBand redBand with
  | .error _ => throw (.invalidGraph
      s!"ndvi: band `{redBand}` not loaded — add it to load_collection.bands")
  | .ok (reds, cube) =>
      match cube.takeBand nirBand with
      | .error _ => throw (.invalidGraph
          s!"ndvi: band `{nirBand}` not loaded — add it to load_collection.bands")
      | .ok (nirs, rest) =>
          if reds.length ≠ nirs.length ∨ reds = [] then
            throw (.backend
              s!"ndvi: mismatched scene counts ({redBand}={reds.length}, {nirBand}={nirs.length})")
          else do
            let paths ← mapEach
              (fun (e : (PathBuf × PathBuf) × Nat) => do
                let out := scenePath dir targetBand "_t" e.2
                reduction P [e.1.1, e.1.2] out (sceneError "ndvi" e.2) (ndviWorker P)
                pure out)
              (reds.zip nirs).zipIdx
            pure (ndviOutput rest redBand nirBand targetBand paths)

/-- What a successful `ndvi` returns. -/
theorem ndvi_returns (cube : DataCube) (redBand nirBand targetBand : String) :
    Returns
      (fun out => ∃ reds nirs, cube.bands.get redBand = some reds ∧
        (cube.bands.remove redBand).get nirBand = some nirs ∧ reds.length = nirs.length ∧
        out = ndviOutput { cube with bands := (cube.bands.remove redBand).remove nirBand }
          redBand nirBand targetBand (sceneFiles dir targetBand "_t" reds.length))
      (ndvi P dir cube redBand nirBand targetBand) := by
  unfold ndvi DataCube.takeBand
  cases hred : cube.bands.get redBand with
  | none =>
      exact returns_throw
  | some reds =>
      cases hnir : (cube.bands.remove redBand).get nirBand with
      | none =>
          simp only [hnir]
          exact returns_throw
      | some nirs =>
          simp only [hnir]
          split
          · exact returns_throw
          · rename_i hlen
            have hlen' : reds.length = nirs.length := by
              by_contra hne
              exact hlen (Or.inl hne)
            refine Returns.bind (mapEach_returns fun _ _ => returns_then_pure) ?_
            rintro _ rfl
            refine returns_pure ⟨reds, nirs, rfl, rfl, hlen', ?_⟩
            rw [map_zipIdx_snd (reds.zip nirs) (scenePath dir targetBand "_t"), List.length_zip,
              ← hlen', Nat.min_self]
            rfl

/-- `eval_ndvi`. -/
def evalNdvi (args : Args) : Eval Envelope := do
  let data ← attempt (requireArg args "data" "ndvi: missing `data`")
  let cube ← attempt (decodeCube data
    "ndvi: input is not a downloaded cube (call load_collection with spatial_extent first)")
  let out ← ndvi P dir cube (argStrOr args "red" "B04") (argStrOr args "nir" "B08")
    (argStrOr args "target_band" "ndvi")
  pure (.cube out)

end Ndvi

section Apply

variable (P : Platform) (dir : PathBuf)

/-- The worker of `eval_apply` at one pixel. -/
def applyPixel (subPg : Json) (scale : ℚ × ℚ) (v : F64) : F64 :=
  if !v.isFinite || v.feq sentinelNdviNa then sentinelNdviNa
  else
    let scaled := P.f64.add (P.f64.mul v (.finite scale.1)) (.finite scale.2)
    match evalApplySubgraph P subPg scaled with
    | .ok n => if n.isFinite then P.toF32 n else sentinelNdviNa
    | .error _ => sentinelNdviNa

/-- The worker of `eval_apply`. -/
def applyWorker (subPg : Json) (scale : ℚ × ℚ) : List Raster → Raster :=
  pixelwise (fun
    | [v] => applyPixel P subPg scale v
    | _ => sentinelNdviNa)

/-- The callback under `process`. -/
def applyCallback (args : Args) : Except ExecError Json :=
  match args.get "process" with
  | none => .error (.invalidGraph "apply: missing `process` sub-callback")
  | some v =>
      match v.json.bind (fun j => j.get "process_graph") with
      | some subPg => .ok subPg
      | none => .error (.invalidGraph
          "apply: `process` must be a Process object with `process_graph`")

/-- The bands `apply` and `reduce_dimension` work on. -/
def numericBands (cube : DataCube) : List String := cube.bands.keys.filter (fun k => k ≠ "SCL")

/-- The loop over the scenes of one band. -/
def applyBand (cube : DataCube) (subPg : Json) (bandKey : String) : Eval (String × List PathBuf) :=
  match cube.bands.get bandKey with
  | none => throw (.invalidGraph s!"apply: band `{bandKey}` vanished from cube")
  | some [] => throw (.backend s!"apply: empty band `{bandKey}` in input cube")
  | some paths => do
      let outs ← mapEach
        (fun (e : PathBuf × Nat) => do
          let nanos ← now P
          let out := scratch dir s!"apply_{bandKey}_t{e.2}_{nanos}.tif"
          reduction P [e.1] out (sceneError "apply" e.2)
            (applyWorker P subPg (cube.scaleOf bandKey))
          pure out)
        paths.zipIdx
      pure (bandKey, outs)

/-- The cube `apply` returns. -/
def applyOutput (cube : DataCube) (applied : List (String × List PathBuf)) : DataCube :=
  let sceneCount := (applied.map (fun e => e.2.length)).foldl Nat.max 0
  let names := (BTreeMap.ofEntries applied).keys
  { bands := (BTreeMap.ofEntries applied).insertAll
      (cube.bands.entries.filter (fun e => e.1 = "SCL"))
    bbox := cube.bbox
    sceneCount := some sceneCount
    times := some sceneCount
    layers := some names.length
    layerNames := some names }

/-- The body of `eval_apply`. -/
def apply (cube : DataCube) (subPg : Json) : Eval DataCube :=
  let bandKeys := numericBands cube
  if bandKeys = [] then
    throw (.invalidGraph "apply: __cube.bands has no non-SCL band to apply over")
  else do
    attempt (validateAll "apply.band_key" bandKeys)
    let applied ← mapEach (applyBand P dir cube subPg) bandKeys
    pure (applyOutput cube applied)

/-- What a successful `apply` returns: one new list of files for each band that
is no classification. -/
theorem apply_returns (cube : DataCube) (subPg : Json) :
    Returns
      (fun out => ∃ applied, List.Forall₂ (fun k e => e.1 = k) (numericBands cube) applied ∧
        out = applyOutput cube applied)
      (apply P dir cube subPg) := by
  unfold apply
  dsimp only
  split
  · exact returns_throw
  · refine Returns.bind (Q := fun _ => True) (fun _ _ _ _ => trivial) ?_
    intro _ _
    refine Returns.bind (mapEach_returns_forall₂ (Q := fun k e => e.1 = k) ?_) ?_
    · intro k _
      unfold applyBand
      split
      · exact returns_throw
      · exact returns_throw
      · refine Returns.bind (Q := fun _ => True) (fun _ _ _ _ => trivial) ?_
        intro _ _
        exact returns_pure rfl
    · intro applied happlied
      exact returns_pure ⟨applied, happlied, rfl⟩

/-- `eval_apply`, with its trial run at `x = 0.0`. -/
def evalApply (args : Args) : Eval Envelope := do
  let subPg ← attempt (applyCallback args)
  let _ ← attempt (evalApplySubgraph P subPg (.finite 0))
  let data ← attempt (requireArg args "data" "apply: missing `data`")
  let cube ← attempt (decodeCube data
    "apply: input is not a downloaded cube (run load_collection + ndvi first)")
  let out ← apply P dir cube subPg
  pure (.cube out)

/-- `ApplyHandler`: without a callback the data are handed on. -/
def applyHandler (args : Args) : Eval Envelope :=
  if args.containsKey "process" then evalApply P dir args
  else pure ((args.get "data").getD (.value .null .missingEnvelope))

end Apply

end OrbitOpenEO
