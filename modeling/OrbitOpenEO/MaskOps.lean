import OrbitOpenEO.RasterOps

/-!
# Masking

`mask` replaces the values of the data bands where a mask raster is set,
`mask_scl_dilation` where a classification band has one of the given classes,
and `mask_from_values` turns a classification band into a mask.

The classification may be coarser than the data.  It is then resampled onto the
grid of each data band, into a file named after the band and the scene; a file
of that name and size that is already there is taken as it is.
-/

namespace OrbitOpenEO

open Lib

/-- `Value::as_u64`. -/
def Json.asU64 : Json → Option Nat
  | .num (.posInt n) => some n
  | _ => none

/-- A dataset over a data file and a mask file, processed into one output file. -/
def reductionWithMask (P : Platform) (data mask out : PathBuf) (fail : Stage → String → String)
    (compute : Raster → Raster → Raster) : Eval Unit := fun w =>
  match w.files data, w.files mask with
  | none, _ => .error (.backend (fail .builder (P.noSuchFile data))) w
  | some _, none => .error (.backend (fail .maskBuilder (P.noSuchFile mask))) w
  | some d, some m =>
      match P.refuse [d, m] with
      | some (.reduction, e) =>
          .error (.backend (fail .reduction e)) (w.write out (P.leftover (w.files out)))
      | some (stage, e) => .error (.backend (fail stage e)) w
      | none => .ok () (w.write out (some (compute d m)))

section Mask

variable (P : Platform) (dir : PathBuf)

/-- `f.clamp(i16::MIN, i16::MAX) as i16`. -/
def F64.toI16 (x : F64) : Int :=
  match x.clamp (.finite i16Min) (.finite i16Max) with
  | .finite q => q.num.tdiv q.den
  | _ => 0

/-- The value `mask` writes where the mask is set. -/
def maskReplacement (args : Args) : Except ExecError Int :=
  match args.get "replacement" with
  | none => .ok i16Min
  | some v =>
      match v.json with
      | some .null => .ok i16Min
      | some (.num n) => .ok (n.asF64 P.f64.toFloatOps).toI16
      | _ => .error (.invalidGraph
          s!"mask: replacement must be a number or null, got {P.jsonText v.toValue}")

/-- The worker of `eval_mask`: outside of the mask raster the replacement is
written too. -/
def maskWorker (replacement : Int) (data mask : Raster) : Raster :=
  { data with
    pixel := fun row col =>
      if row < mask.rows ∧ col < mask.cols ∧ P.readU8 (mask.pixel row col) = 0 then
        .finite (P.readI16 (data.pixel row col))
      else .finite replacement }

/-- The texts of a failed scene of `mask`. -/
def maskError (label : String) (t : Nat) : Stage → String → String
  | .builder, e => s!"mask: {label} data builder t={t}: {e}"
  | .build, e => s!"mask: {label} data build t={t}: {e}"
  | .maskBuilder, e => s!"mask: mask builder t={t}: {e}"
  | .maskBuild, e => s!"mask: mask build t={t}: {e}"
  | .reduction, e => s!"mask: {label} apply_reduction_with_mask t={t}: {e}"

/-- The classification bands `mask` forwards. -/
def isSclName (k : String) : Bool := k == "SCL" || k == "scl"

/-- The bands `mask` works on: neither classification nor index bands. -/
def maskableBands (cube : DataCube) : List (String × List PathBuf) :=
  cube.bands.entries.filter (fun e => !isSclName e.1 && !F32_INDEX_BANDS.contains e.1)

/-- The cube `mask` returns. -/
def maskOutput (cube : DataCube) (masked : List (String × List PathBuf)) (sceneCount : Nat)
    (replacement : Int) : DataCube :=
  { bands := (BTreeMap.ofEntries masked).insertAll
      (cube.bands.entries.filter (fun e => isSclName e.1))
    bbox := cube.bbox
    sceneCount := some sceneCount
    maskedBands := some (BTreeMap.ofEntries masked).keys
    maskedBy := some "mask"
    replacement := some replacement }

/-- `mask` returns all bands but the index bands. -/
theorem mem_keys_maskOutput {cube : DataCube} {files : String → List PathBuf} {n : Nat}
    {replacement : Int} {b : String} :
    b ∈ (maskOutput cube ((maskableBands cube).map (fun e => (e.1, files e.1))) n
        replacement).bands.keys ↔ b ∈ cube.bands.keys ∧ b ∉ F32_INDEX_BANDS := by
  have hdisj : ∀ k, isSclName k = true → k ∉ F32_INDEX_BANDS := by
    intro k hk
    simp only [isSclName, Bool.or_eq_true, beq_iff_eq] at hk
    rcases hk with rfl | rfl <;> decide
  rw [maskOutput, BTreeMap.mem_keys_insertAll, BTreeMap.mem_keys_ofEntries, List.map_map]
  constructor
  · rintro (h | h)
    · obtain ⟨e, he, rfl⟩ := List.mem_map.mp h
      obtain ⟨he, hscl⟩ := List.mem_filter.mp he
      exact ⟨List.mem_map.mpr ⟨e, he, rfl⟩, hdisj e.1 hscl⟩
    · obtain ⟨e, he, rfl⟩ := List.mem_map.mp h
      obtain ⟨he, hkept⟩ := List.mem_filter.mp he
      simp only [Bool.and_eq_true, Bool.not_eq_true', List.contains_eq_mem,
        decide_eq_false_iff_not] at hkept
      exact ⟨List.mem_map.mpr ⟨e, he, rfl⟩, hkept.2⟩
  · rintro ⟨hb, hidx⟩
    obtain ⟨e, he, rfl⟩ := List.mem_map.mp hb
    cases hname : isSclName e.1 with
    | true =>
        exact Or.inl (List.mem_map.mpr ⟨e, List.mem_filter.mpr ⟨he, hname⟩, rfl⟩)
    | false =>
        refine Or.inr (List.mem_map.mpr ⟨e, List.mem_filter.mpr ⟨he, ?_⟩, rfl⟩)
        simpa [hname] using hidx

/-- The loop over the scenes of one band of `mask`. -/
def maskBand (replacement : Int) (maskPaths : List PathBuf) (e : String × List PathBuf) :
    Eval (String × List PathBuf) := do
  attempt (validateIdentifier e.1 "mask.bands")
  let outs ← mapEach
    (fun (p : (PathBuf × PathBuf) × Nat) => do
      let out := scenePath dir e.1 "_mask_t" p.2
      reductionWithMask P p.1.1 p.1.2 out (maskError e.1 p.2) (maskWorker P replacement)
      pure out)
    (e.2.zip maskPaths).zipIdx
  pure (e.1, outs)

/-- The body of `eval_mask`. -/
def mask (cube maskCube : DataCube) (replacement : Int) : Eval DataCube :=
  match maskCube.bands.entries with
  | [(_, maskPaths)] =>
      match (maskableBands cube).find? (fun e => e.2.length ≠ maskPaths.length) with
      | some e => throw (.backend
          s!"mask: scene count mismatch ({e.1}={e.2.length}, mask={maskPaths.length})")
      | none => do
          let masked ← mapEach (maskBand P dir replacement maskPaths) (maskableBands cube)
          pure (maskOutput cube masked maskPaths.length replacement)
  | es => throw (.invalidGraph
      s!"mask: mask.__cube must have exactly one band, found {es.length}")

/-- What a successful `mask` returns: one new file for each scene of each band it
works on. -/
theorem mask_returns (cube maskCube : DataCube) (replacement : Int) :
    Returns
      (fun out => ∃ n, (∀ e ∈ maskableBands cube, e.2.length = n) ∧
        out = maskOutput cube
          ((maskableBands cube).map (fun e => (e.1, sceneFiles dir e.1 "_mask_t" n)))
          n replacement)
      (mask P dir cube maskCube replacement) := by
  unfold mask
  split
  · rename_i maskPaths _
    split
    · exact returns_throw
    · rename_i hfind
      have hlen : ∀ e ∈ maskableBands cube, e.2.length = maskPaths.length := by
        simpa using List.find?_eq_none.mp hfind
      refine Returns.bind (mapEach_returns
        (g := fun e => (e.1, sceneFiles dir e.1 "_mask_t" maskPaths.length)) ?_) ?_
      · intro e he
        unfold maskBand
        refine Returns.bind (Q := fun _ => True) (fun _ _ _ _ => trivial) ?_
        intro _ _
        refine Returns.bind (mapEach_returns fun _ _ => returns_then_pure) ?_
        rintro _ rfl
        refine returns_pure ?_
        rw [map_zipIdx_snd (e.2.zip maskPaths) (scenePath dir e.1 "_mask_t"), List.length_zip,
          hlen e he, Nat.min_self]
        rfl
      · rintro _ rfl
        exact returns_pure ⟨_, hlen, rfl⟩
  · exact returns_throw

/-- `eval_mask`. -/
def evalMask (args : Args) : Eval Envelope := do
  let replacement ← attempt (maskReplacement P args)
  let data ← attempt (requireArg args "data"
    "mask: missing `data.__cube` (run load_collection first)")
  let cube ← attempt (decodeCube data
    "mask: missing `data.__cube` (run load_collection first)")
  if maskableBands cube = [] then
    throw (.invalidGraph
      "mask: data.__cube has no maskable bands (need ≥1 i16 band in `bands`, excluding SCL and index bands like ndvi/ndmi)")
  else do
    let maskData ← attempt (requireArg args "mask"
      "mask: missing `mask.__cube` (mask must be a downloaded cube)")
    let maskCube ← attempt (decodeCube maskData
      "mask: missing `mask.__cube` (mask must be a downloaded cube)")
    let out ← mask P dir cube maskCube replacement
    pure (.cube out)

end Mask

section MaskScl

variable (P : Platform) (dir : PathBuf)

/-- The two rasters share the grid: same size, pixel sizes within the tolerance. -/
def sameGrid (scl data : Raster) : Bool :=
  let close (a b : ℚ) : Bool := decide (a - b ≤ 1 / 10 ∧ b - a ≤ 1 / 10)
  scl.cols == data.cols && scl.rows == data.rows &&
    close data.pixelWidth scl.pixelWidth && close data.pixelHeight scl.pixelHeight

/-- The `gdalwarp` call of `resample_scl_to_data_grid`. -/
def warpScl (sclPath out : PathBuf) (scl data : Raster) : Eval PathBuf := fun w =>
  match P.warp scl data with
  | .error status => .error (.backend
      s!"mask_scl: gdalwarp exited with status {status} (scl={sclPath}, out={out})") w
  | .ok r => .ok out (w.write out (some r))

/-- `resample_scl_to_data_grid`. -/
def resampleSclToDataGrid (sclPath dataPath out : PathBuf) : Eval PathBuf := fun w =>
  match w.files dataPath, w.files sclPath with
  | none, _ => .error (.backend s!"mask_scl: open data {dataPath}: {P.noSuchFile dataPath}") w
  | some _, none => .error (.backend s!"mask_scl: open scl {sclPath}: {P.noSuchFile sclPath}") w
  | some data, some scl =>
      if sameGrid scl data then .ok sclPath w
      else
        match w.files out with
        | some prev =>
            if prev.cols = data.cols ∧ prev.rows = data.rows then .ok out w
            else warpScl P sclPath out scl data w
        | none => warpScl P sclPath out scl data w

/-- The worker of `eval_mask_scl_dilation`. -/
def maskSclWorker (values : List Nat) (data scl : Raster) : Raster :=
  { data with
    pixel := fun row col =>
      if row < scl.rows ∧ col < scl.cols ∧ P.readU8 (scl.pixel row col) ∉ values then
        .finite (P.readI16 (data.pixel row col))
      else .finite 0 }

/-- The classes to mask out: shadows, clouds and snow by default. -/
def mask2Values (args : Args) : List Nat :=
  match argArray args "mask2_values" with
  | some arr => (arr.filterMap Json.asU64).filter (fun v => v ≤ 255)
  | none => [3, 8, 9, 10, 11]

/-- The texts of a failed scene of `mask_scl_dilation`. -/
def maskSclError (label : String) (t : Nat) : Stage → String → String
  | .builder, e => s!"mask_scl: {label} builder t={t}: {e}"
  | .build, e => s!"mask_scl: {label} build t={t}: {e}"
  | .maskBuilder, e => s!"mask_scl: scl builder t={t}: {e}"
  | .maskBuild, e => s!"mask_scl: scl build t={t}: {e}"
  | .reduction, e => s!"mask_scl: {label} apply_reduction_with_mask t={t}: {e}"

/-- Note in the log which classification raster a scene is masked with. -/
def noteScl (band : String) (t : Nat) (sclPath : PathBuf) : Eval Unit := fun w =>
  match w.files sclPath with
  | some scl => .ok () (w.note (.sclUsed band t scl))
  | none => .ok () w

/-- The resampled classification of one band, scene by scene. -/
def resampleBand (sclPaths : List PathBuf) (e : String × List PathBuf) :
    Eval (String × List PathBuf) := do
  attempt (validateIdentifier e.1 "mask_scl_dilation.bands")
  let outs ← mapEach
    (fun (p : PathBuf × Nat) =>
      match e.2[p.2]? with
      | none => throw (.backend s!"mask_scl: missing band `{e.1}` path at scene t={p.2}")
      | some dataPath =>
          resampleSclToDataGrid P p.1 dataPath
            (scenePath dir ("scl_resampled_" ++ e.1) "_t" p.2))
    sclPaths.zipIdx
  pure (e.1, outs)

/-- The masked files of one band, scene by scene. -/
def maskSclBand (values : List Nat) (resampled : List (String × List PathBuf))
    (e : String × List PathBuf) : Eval (String × List PathBuf) :=
  match resampled.lookup e.1 with
  | none => throw (.backend s!"mask_scl: missing resampled SCL for band `{e.1}`")
  | some scls => do
      let outs ← mapEach
        (fun (p : (PathBuf × PathBuf) × Nat) => do
          let out := scenePath dir e.1 "_masked_t" p.2
          noteScl e.1 p.2 p.1.2
          reductionWithMask P p.1.1 p.1.2 out (maskSclError e.1 p.2) (maskSclWorker P values)
          pure out)
        (e.2.zip scls).zipIdx
      pure (e.1, outs)

/-- The cube `mask_scl_dilation` returns: `rest` is the input without the
classification band, which is forwarded. -/
def maskSclOutput (rest : DataCube) (sclBandName : String) (sclPaths : List PathBuf)
    (masked : List (String × List PathBuf)) : DataCube :=
  { bands := (BTreeMap.ofEntries masked).insert sclBandName sclPaths
    bbox := rest.bbox
    sceneCount := some sclPaths.length
    maskedBands := some (BTreeMap.ofEntries masked).keys
    maskedBy := some "mask_scl_dilation" }

/-- `mask_scl_dilation` returns all bands. -/
theorem mem_keys_maskSclOutput {cube : DataCube} {scl : String} {sclPaths : List PathBuf}
    {files : String → List PathBuf} {b : String} :
    b ∈ (maskSclOutput { cube with bands := cube.bands.remove scl } scl sclPaths
        ((cube.bands.remove scl).entries.map (fun e => (e.1, files e.1)))).bands.keys ↔
      b = scl ∨ b ∈ cube.bands.keys := by
  rw [maskSclOutput, BTreeMap.mem_keys_insert, BTreeMap.mem_keys_ofEntries, List.map_map]
  refine or_congr_right' ?_
  intro hscl
  have hrest : b ∈ (cube.bands.remove scl).keys ↔ b ∈ cube.bands.keys := by
    rw [BTreeMap.mem_keys_iff_get, BTreeMap.mem_keys_iff_get, BTreeMap.get_remove, if_neg hscl]
  exact hrest

/-- The body of `eval_mask_scl_dilation`. -/
def maskSclDilation (cube : DataCube) (sclBandName : String) (values : List Nat) :
    Eval DataCube :=
  match cube.takeBand sclBandName with
  | .error _ => throw (.invalidGraph
      s!"mask_scl_dilation: __cube.bands has no `{sclBandName}` band — `load_collection.bands` must include `\"{sclBandName}\"`")
  | .ok (sclPaths, rest) =>
      if rest.bands.entries = [] then
        throw (.invalidGraph
          "mask_scl_dilation: __cube.bands has no data bands (only the SCL mask was found) — apply mask BEFORE `ndvi` per openEO spec")
      else
        match rest.bands.entries.find? (fun e => e.2.length ≠ sclPaths.length) with
        | some e => throw (.backend
            s!"mask_scl_dilation: scene count mismatch ({e.1}={e.2.length}, scl={sclPaths.length})")
        | none => do
            let resampled ← mapEach (resampleBand P dir sclPaths) rest.bands.entries
            let masked ← mapEach (maskSclBand P dir values resampled) rest.bands.entries
            pure (maskSclOutput rest sclBandName sclPaths masked)

/-- One classification file for each scene. -/
theorem resampleBand_returns (sclPaths : List PathBuf) (e : String × List PathBuf) :
    Returns (fun r => r.2.length = sclPaths.length) (resampleBand P dir sclPaths e) := by
  unfold resampleBand
  refine Returns.bind (Q := fun _ => True) (fun _ _ _ _ => trivial) ?_
  intro _ _
  refine Returns.bind (mapEach_returns_forall₂ (Q := fun _ _ => True) ?_) ?_
  · intro _ _ _ _ _ _
    trivial
  · intro outs houts
    refine returns_pure ?_
    simpa using houts.length_eq.symm

theorem maskSclBand_returns {values : List Nat} {resampled : List (String × List PathBuf)}
    {e : String × List PathBuf} {n : Nat} (he : e.2.length = n)
    (hres : ∀ r ∈ resampled, r.2.length = n) :
    Returns (fun r => r = (e.1, sceneFiles dir e.1 "_masked_t" n))
      (maskSclBand P dir values resampled e) := by
  unfold maskSclBand
  split
  · exact returns_throw
  · rename_i scls hscls
    have hlen : scls.length = n := hres (e.1, scls) (mem_of_lookup_eq_some hscls)
    refine Returns.bind (mapEach_returns (g := fun p => scenePath dir e.1 "_masked_t" p.2) ?_) ?_
    · intro p _
      refine Returns.bind (Q := fun _ => True) (fun _ _ _ _ => trivial) ?_
      intro _ _
      exact returns_then_pure
    · rintro _ rfl
      refine returns_pure ?_
      rw [map_zipIdx_snd (e.2.zip scls) (scenePath dir e.1 "_masked_t"), List.length_zip, he, hlen,
        Nat.min_self]
      rfl

/-- What a successful `mask_scl_dilation` returns. -/
theorem maskSclDilation_returns (cube : DataCube) (sclBandName : String) (values : List Nat) :
    Returns
      (fun out => ∃ sclPaths, cube.bands.get sclBandName = some sclPaths ∧
        (∀ e ∈ (cube.bands.remove sclBandName).entries, e.2.length = sclPaths.length) ∧
        out = maskSclOutput { cube with bands := cube.bands.remove sclBandName } sclBandName
          sclPaths
          ((cube.bands.remove sclBandName).entries.map
            (fun e => (e.1, sceneFiles dir e.1 "_masked_t" sclPaths.length))))
      (maskSclDilation P dir cube sclBandName values) := by
  unfold maskSclDilation DataCube.takeBand
  cases hscl : cube.bands.get sclBandName with
  | none =>
      exact returns_throw
  | some sclPaths =>
      dsimp only
      split
      · exact returns_throw
      · split
        · exact returns_throw
        · rename_i hfind
          have hlen : ∀ e ∈ (cube.bands.remove sclBandName).entries,
              e.2.length = sclPaths.length := by
            simpa using List.find?_eq_none.mp hfind
          refine Returns.bind (mapEach_returns_forall₂
            (Q := fun _ r => r.2.length = sclPaths.length) ?_) ?_
          · intro e _
            exact resampleBand_returns P dir sclPaths e
          · intro resampled hres
            refine Returns.bind (mapEach_returns
              (g := fun e => (e.1, sceneFiles dir e.1 "_masked_t" sclPaths.length)) ?_) ?_
            · intro e he
              refine maskSclBand_returns P dir (hlen e he) ?_
              intro r hr
              obtain ⟨_, _, hr'⟩ := forall₂_exists_left hres hr
              exact hr'
            · rintro _ rfl
              exact returns_pure ⟨sclPaths, rfl, hlen, rfl⟩

/-- `eval_mask_scl_dilation`.  The kernel sizes are accepted and not used. -/
def evalMaskSclDilation (args : Args) : Eval Envelope := do
  let sclBandName := argStrOr args "scl_band_name" "SCL"
  attempt (validateIdentifier sclBandName "mask_scl_dilation.scl_band_name")
  let data ← attempt (requireArg args "data" "mask_scl_dilation: missing `data`")
  let cube ← attempt (decodeCube data
    "mask_scl_dilation: input is not a downloaded cube (call load_collection with spatial_extent first)")
  let out ← maskSclDilation P dir cube sclBandName (mask2Values args)
  pure (.cube out)

end MaskScl

section MaskFromValues

variable (P : Platform) (dir : PathBuf)

/-- The loop over the given class values. -/
def parseMaskValues : List Json → Except ExecError (List Nat)
  | [] => .ok []
  | v :: vs =>
      match v.asU64 with
      | none => .error (.invalidGraph
          "mask_from_values: `values` must be an array of non-negative integers")
      | some n =>
          if 255 < n then
            .error (.invalidGraph
              s!"mask_from_values: value {n} out of u8 range (SCL classes fit in 0..=255)")
          else do
            let ns ← parseMaskValues vs
            .ok (n :: ns)

/-- The class values of `mask_from_values`. -/
def maskValues (args : Args) : Except ExecError (List Nat) :=
  match args.get "values" with
  | none => .ok [3, 8, 9, 10, 11]
  | some v =>
      match v.json with
      | some .null => .ok [3, 8, 9, 10, 11]
      | some (.arr arr) =>
          if 4096 < arr.length then
            .error (.invalidGraph
              s!"mask_from_values: `values` array length {arr.length} exceeds maximum 4096")
          else do
            let ns ← parseMaskValues arr
            if ns = [] then
              .error (.invalidGraph "mask_from_values: `values` must be a non-empty array")
            else .ok ns
      | _ => .error (.invalidGraph
          s!"mask_from_values: `values` must be an array, got {P.jsonText v.toValue}")

/-- The worker of `eval_mask_from_values`. -/
def maskFromValuesWorker (values : List Nat) : List Raster → Raster :=
  pixelwise (fun
    | [v] => if P.readU8 v ∈ values then .finite 1 else .finite 0
    | _ => .finite 0)

/-- The cube `mask_from_values` returns. -/
def maskFromValuesOutput (cube : DataCube) (band targetBand : String) (paths : List PathBuf) :
    DataCube :=
  { bands := BTreeMap.empty.insert targetBand paths
    bbox := cube.bbox
    sceneCount := some paths.length
    layers := some 1
    layerNames := some [targetBand]
    sourceBand := some band }

/-- The body of `eval_mask_from_values`. -/
def maskFromValues (cube : DataCube) (band targetBand : String) (values : List Nat) :
    Eval DataCube :=
  match cube.takeBand band with
  | .error _ => throw (.invalidGraph
      s!"mask_from_values: __cube.bands has no `{band}` band — `load_collection.bands` must include `\"{band}\"`")
  | .ok ([], _) => throw (.invalidGraph
      s!"mask_from_values: __cube.bands[{band}] is empty (no scenes loaded)")
  | .ok (srcPaths, rest) => do
      let outs ← mapEach
        (fun (e : PathBuf × Nat) => do
          let out := scenePath dir targetBand "_from_values_t" e.2
          reduction P [e.1] out (sceneError "mask_from_values" e.2)
            (maskFromValuesWorker P values)
          pure out)
        srcPaths.zipIdx
      pure (maskFromValuesOutput rest band targetBand outs)

/-- `eval_mask_from_values`. -/
def evalMaskFromValues (args : Args) : Eval Envelope := do
  let band := argStrOr args "band" "SCL"
  let targetBand := argStrOr args "target_band" "mask"
  attempt (validateIdentifier band "mask_from_values.band")
  attempt (validateIdentifier targetBand "mask_from_values.target_band")
  let values ← attempt (maskValues P args)
  let data ← attempt (requireArg args "data" "mask_from_values: missing `data`")
  let cube ← attempt (decodeCube data
    "mask_from_values: input is not a downloaded cube (call load_collection with spatial_extent first)")
  let out ← maskFromValues P dir cube band targetBand values
  pure (.cube out)

end MaskFromValues

end OrbitOpenEO
