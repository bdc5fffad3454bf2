import OrbitOpenEO.CubeEnvelope
import OrbitOpenEO.MaskOps
import OrbitOpenEO.Runner

/-!
# The files that arguments name

A handle is plain JSON: `{"__raster": {"path": ...}}`, `{"__cube": {"bands": ...}}` with
lists of paths, or the path itself as a string.  The evaluators open the files that the
handles in their arguments name, and `finalise_save_result` the file of the value it is
given.  Every such path is one of the strings in that JSON.
-/

namespace OrbitOpenEO

open CubeEnvelope

mutual

/-- The strings in a value, without the keys of its objects. -/
def texts : Json → List String
  | .str s => [s]
  | .arr xs => textsInItems xs
  | .obj fs => textsInFields fs
  | _ => []

def textsInFields : List (String × Json) → List String
  | [] => []
  | (_, v) :: fs => texts v ++ textsInFields fs

def textsInItems : List Json → List String
  | [] => []
  | v :: vs => texts v ++ textsInItems vs

end

theorem mem_textsInFields_of_mem {s k : String} {v : Json} (hs : s ∈ texts v) :
    ∀ {fs : List (String × Json)}, (k, v) ∈ fs → s ∈ textsInFields fs
  | [], h => by cases h
  | (k', v') :: fs, h => by
      unfold textsInFields
      rcases List.mem_cons.mp h with he | h
      · cases he
        exact List.mem_append_left _ hs
      · exact List.mem_append_right _ (mem_textsInFields_of_mem hs h)

theorem mem_textsInItems_of_mem {s : String} {v : Json} (hs : s ∈ texts v) :
    ∀ {vs : List Json}, v ∈ vs → s ∈ textsInItems vs
  | [], h => by cases h
  | v' :: vs, h => by
      unfold textsInItems
      rcases List.mem_cons.mp h with rfl | h
      · exact List.mem_append_left _ hs
      · exact List.mem_append_right _ (mem_textsInItems_of_mem hs h)

theorem mem_texts_of_field {s k : String} {v : Json} {fs : List (String × Json)}
    (hmem : (k, v) ∈ fs) (hs : s ∈ texts v) : s ∈ texts (.obj fs) := by
  unfold texts
  exact mem_textsInFields_of_mem hs hmem

theorem mem_texts_of_item {s : String} {v : Json} {vs : List Json} (hmem : v ∈ vs)
    (hs : s ∈ texts v) : s ∈ texts (.arr vs) := by
  unfold texts
  exact mem_textsInItems_of_mem hs hmem

theorem mem_texts_of_get {s k : String} {v w : Json} (h : v.get k = some w)
    (hs : s ∈ texts w) : s ∈ texts v := by
  cases v with
  | obj fs => exact mem_texts_of_field (mem_of_lookup_eq_some h) hs
  | _ => cases h

theorem mem_texts_of_asStr {s : String} {v : Json} (h : v.asStr = some s) : s ∈ texts v := by
  cases v with
  | str t =>
      cases h
      simp [texts]
  | _ => cases h

namespace Handles

/-- The band a single file is taken from: an index band, else the first band that is no
classification. -/
def pickKey (keys : List String) : Option String :=
  (F32_INDEX_BANDS.find? keys.contains).or (keys.find? (fun k => k ≠ "SCL"))

/-- The object under `bands`. -/
def bandsObject (cube : Json) : Option (List (String × Json)) :=
  match cube.get "bands" with
  | some (.obj bands) => some bands
  | _ => none

/-- The first path of the picked band. -/
def firstPath (bands : List (String × Json)) : Option PathBuf :=
  match (pickKey (bands.map Prod.fst)).bind (fun key => bands.lookup key) with
  | some (.arr (first :: _)) => first.asStr
  | _ => none

/-- `extract_raster_path`. -/
def extractRasterPath (errs : SerdeErrors) (v : Option Json) (name : String) :
    Except ExecError PathBuf :=
  match v with
  | none => .error (.invalidGraph s!"missing `{name}`")
  | some v =>
      match v.get "__raster" with
      | some raster =>
          match decodePath errs ((raster.get "path").getD .null) with
          | .ok path => .ok path
          | .error e => .error (.invalidGraph s!"{name}: bad __raster.path: {e}")
      | none =>
          match (v.get "__cube").bind bandsObject with
          | some bands =>
              match firstPath bands with
              | some path => .ok path
              | none => .error (.invalidGraph s!"{name}: __cube has no usable band path")
          | none =>
              match v.asStr with
              | some s => .ok s
              | none => .error (.invalidGraph
                  s!"{name} must be a __raster handle, __cube envelope, or a string path")

/-- `extract_save_path`. -/
def extractSavePath (v : Json) : Option PathBuf :=
  match v.get "__raster" with
  | some raster => (raster.get "path").bind Json.asStr
  | none => ((v.get "__cube").bind bandsObject).bind firstPath

theorem get_bands_of_bandsObject {cube : Json} {bands : List (String × Json)}
    (h : bandsObject cube = some bands) : cube.get "bands" = some (.obj bands) := by
  unfold bandsObject at h
  split at h
  · rename_i hget
    cases h
    exact hget
  · cases h

theorem mem_texts_of_firstPath {bands : List (String × Json)} {p : PathBuf}
    (h : firstPath bands = some p) : p ∈ texts (.obj bands) := by
  unfold firstPath at h
  split at h
  · rename_i first rest hfirst
    obtain ⟨key, -, hlookup⟩ := Option.bind_eq_some_iff.mp hfirst
    exact mem_texts_of_field (mem_of_lookup_eq_some hlookup)
      (mem_texts_of_item List.mem_cons_self (mem_texts_of_asStr h))
  · cases h

theorem mem_texts_of_bands {v : Json} {bands : List (String × Json)} {p : PathBuf}
    (h : (v.get "__cube").bind bandsObject = some bands) (hp : p ∈ texts (.obj bands)) :
    p ∈ texts v := by
  obtain ⟨cube, hcube, hbands⟩ := Option.bind_eq_some_iff.mp h
  exact mem_texts_of_get hcube (mem_texts_of_get (get_bands_of_bandsObject hbands) hp)

variable {errs : SerdeErrors} {ops : FloatOps}

theorem mem_texts_of_decodePath {v : Json} {p : PathBuf} (h : decodePath errs v = .ok p) :
    p ∈ texts v := by
  cases v with
  | str s =>
      cases h
      simp [texts]
  | _ => cases h

theorem mem_texts_of_path {raster : Json} {p : PathBuf}
    (h : decodePath errs ((raster.get "path").getD .null) = .ok p) : p ∈ texts raster := by
  have hp := mem_texts_of_decodePath h
  cases hget : raster.get "path" with
  | none =>
      rw [hget] at hp
      cases hp
  | some v =>
      rw [hget] at hp
      exact mem_texts_of_get hget hp

/-- The path taken from a handle is one of its strings. -/
theorem mem_texts_of_extractRasterPath {v : Json} {name : String} {p : PathBuf}
    (h : extractRasterPath errs (some v) name = .ok p) : p ∈ texts v := by
  unfold extractRasterPath at h
  dsimp only at h
  cases hraster : v.get "__raster" with
  | some raster =>
      rw [hraster] at h
      dsimp only at h
      split at h
      · rename_i hpath
        cases h
        exact mem_texts_of_get hraster (mem_texts_of_path hpath)
      · cases h
  | none =>
      rw [hraster] at h
      dsimp only at h
      cases hbands : (v.get "__cube").bind bandsObject with
      | some bands =>
          rw [hbands] at h
          dsimp only at h
          split at h
          · rename_i hfirst
            cases h
            exact mem_texts_of_bands hbands (mem_texts_of_firstPath hfirst)
          · cases h
      | none =>
          rw [hbands] at h
          dsimp only at h
          split at h
          · rename_i hstr
            cases h
            exact mem_texts_of_asStr hstr
          · cases h

theorem mem_texts_of_extractSavePath {v : Json} {p : PathBuf} (h : extractSavePath v = some p) :
    p ∈ texts v := by
  unfold extractSavePath at h
  cases hraster : v.get "__raster" with
  | some raster =>
      rw [hraster] at h
      obtain ⟨path, hpath, hstr⟩ := Option.bind_eq_some_iff.mp h
      exact mem_texts_of_get hraster (mem_texts_of_get hpath (mem_texts_of_asStr hstr))
  | none =>
      rw [hraster] at h
      obtain ⟨bands, hbands, hfirst⟩ := Option.bind_eq_some_iff.mp h
      exact mem_texts_of_bands hbands (mem_texts_of_firstPath hfirst)

theorem mem_texts_of_decodePaths {v : Json} {paths : List PathBuf} {p : PathBuf}
    (h : decodeVec errs (decodePath errs) v = .ok paths) (hp : p ∈ paths) : p ∈ texts v := by
  cases v with
  | arr vs =>
      obtain ⟨w, hw, hpath⟩ := Lib.mem_of_mapM_eq_ok h hp
      exact mem_texts_of_item hw (mem_texts_of_decodePath hpath)
  | _ => cases h

/-- The path is listed under one of the bands. -/
def Listed (bands : BTreeMap (List PathBuf)) (p : PathBuf) : Prop :=
  ∃ band paths, bands.get band = some paths ∧ p ∈ paths

theorem mem_texts_of_decodeBands {v : Json} {bands : BTreeMap (List PathBuf)} {p : PathBuf}
    (h : decodeMap errs (decodeVec errs (decodePath errs)) v = .ok bands)
    (hp : Listed bands p) : p ∈ texts v := by
  cases v with
  | obj fs =>
      obtain ⟨es, hes, hbands⟩ := Lib.bind_eq_ok_iff.mp h
      cases hbands
      obtain ⟨band, paths, hget, hp⟩ := hp
      rw [BTreeMap.get_ofEntries] at hget
      obtain ⟨⟨k, w⟩, hw, hentry⟩ :=
        Lib.mem_of_mapM_eq_ok hes (BTreeMap.mem_of_lastEntry hget)
      obtain ⟨paths', hpaths, hentry⟩ := Lib.bind_eq_ok_iff.mp hentry
      cases hentry
      exact mem_texts_of_field hw (mem_texts_of_decodePaths hpaths hp)
  | _ => cases h

theorem mem_texts_of_fromValue {v : Json} {cube : CubeEnvelope.DataCube} {p : PathBuf}
    (h : CubeEnvelope.DataCube.fromValue errs ops v = .ok cube) (hp : Listed cube.bands p) :
    p ∈ texts v := by
  cases v with
  | obj fs =>
      unfold CubeEnvelope.DataCube.fromValue at h
      dsimp only at h
      split at h
      · rename_i values others hread
        cases h
        rcases Lib.RecordFormat.default_or_mem_of_read hread .bands with
          hdefault | ⟨w, hw, hdecode⟩
        · obtain ⟨band, paths, hget, -⟩ := hp
          have hnone : (values .bands : BTreeMap (List PathBuf)).get band = none := by
            rw [hdefault]
            rfl
          cases hnone.symm.trans hget
        · exact mem_texts_of_field hw (mem_texts_of_decodeBands hdecode hp)
      · cases h
  | _ => cases h

theorem mem_texts_of_decodeInner {v : Json} {cube : CubeEnvelope.DataCube} {p : PathBuf}
    (h : CubeEnvelope.DataCube.decodeInner errs ops v = .ok cube) (hp : Listed cube.bands p) :
    p ∈ texts v := by
  unfold CubeEnvelope.DataCube.decodeInner at h
  split at h
  · cases h
  · split at h
    · rename_i hvalue
      cases h
      exact mem_texts_of_fromValue hvalue hp
    · cases h

theorem member_eq_get (k : String) (v : Json) :
    CubeEnvelope.DataCube.member k v = v.get k := by
  cases v <;> rfl

/-- The paths of a cube are strings of its envelope. -/
theorem mem_texts_of_fromEnvelopeOwned {v : Json} {cube : CubeEnvelope.DataCube} {p : PathBuf}
    (h : CubeEnvelope.DataCube.fromEnvelopeOwned errs ops v = .ok cube)
    (hp : Listed cube.bands p) : p ∈ texts v := by
  unfold CubeEnvelope.DataCube.fromEnvelopeOwned at h
  rw [member_eq_get, member_eq_get] at h
  split at h
  · rename_i raster hraster
    unfold CubeEnvelope.DataCube.fromRasterEnvelope at h
    rw [member_eq_get] at h
    split at h
    · rename_i path hpath
      cases h
      obtain ⟨w, hw, hstr⟩ := Option.bind_eq_some_iff.mp hpath
      obtain ⟨band, paths, hget, hp⟩ := hp
      rw [BTreeMap.get_insert] at hget
      split_ifs at hget
      · cases hget
        obtain rfl := List.mem_singleton.mp hp
        exact mem_texts_of_get hraster (mem_texts_of_get hw (mem_texts_of_asStr hstr))
      · cases hget
    · cases h
  · split at h
    · rename_i inner hinner
      exact mem_texts_of_get hinner (mem_texts_of_decodeInner h hp)
    · exact mem_texts_of_decodeInner h hp

section Opened

variable (errs : SerdeErrors) (ops : FloatOps) (args : BTreeMap Json)

/-- The cube an evaluator decodes from one of its arguments. -/
def cubeArg (key : String) : Option CubeEnvelope.DataCube :=
  (args.get key).bind fun v => (CubeEnvelope.DataCube.fromEnvelopeOwned errs ops v).toOption

/-- A string argument with a default. -/
def textArg (key default : String) : String := ((args.get key).bind Json.asStr).getD default

/-- The files of two bands, scene by scene. -/
def scenePairs (xs ys : List PathBuf) : List PathBuf := (xs.zip ys).flatMap fun e => [e.1, e.2]

/-- The files of a list of bands. -/
def filesOf (bands : List (String × List PathBuf)) : List PathBuf := bands.flatMap Prod.snd

/-- The bands that are no classification. -/
def numericEntries (cube : CubeEnvelope.DataCube) : List (String × List PathBuf) :=
  cube.bands.entries.filter (fun e => e.1 ≠ "SCL")

/-- The files of the picked band. -/
def primaryFiles (cube : CubeEnvelope.DataCube) : List PathBuf :=
  ((pickKey cube.bands.keys).bind fun key => cube.bands.get key).getD []

/-- `eval_ndvi` opens the red and the near-infrared file of each scene. -/
def ndviFiles : List PathBuf :=
  match cubeArg errs ops args "data" with
  | none => []
  | some cube =>
      let red := textArg args "red" "B04"
      match cube.bands.get red, (cube.bands.remove red).get (textArg args "nir" "B08") with
      | some reds, some nirs => if reds.length = nirs.length then scenePairs reds nirs else []
      | _, _ => []

/-- `eval_mask` opens each scene of the bands it masks, with the mask of the scene. -/
def maskFiles : List PathBuf :=
  match cubeArg errs ops args "data", cubeArg errs ops args "mask" with
  | some cube, some maskCube =>
      match maskCube.bands.entries with
      | [(_, maskPaths)] =>
          (cube.bands.entries.filter
            (fun e => !isSclName e.1 && !F32_INDEX_BANDS.contains e.1)).flatMap
            fun e => scenePairs e.2 maskPaths
      | _ => []
  | _, _ => []

/-- `eval_mask_from_values` opens the scenes of the classification. -/
def maskFromValuesFiles : List PathBuf :=
  match cubeArg errs ops args "data" with
  | none => []
  | some cube => (cube.bands.get (textArg args "band" "SCL")).getD []

/-- `eval_mask_scl_dilation` opens each scene of the other bands, with its classification. -/
def maskSclDilationFiles : List PathBuf :=
  match cubeArg errs ops args "data" with
  | none => []
  | some cube =>
      let scl := textArg args "scl_band_name" "SCL"
      match cube.bands.get scl with
      | none => []
      | some sclPaths => (cube.bands.remove scl).entries.flatMap fun e => scenePairs e.2 sclPaths

/-- `eval_reduce_dimension` opens the picked band over time, and over the bands all that
are no classification, unless there is only one. -/
def reduceDimensionFiles : List PathBuf :=
  match (args.get "dimension").bind Json.asStr, cubeArg errs ops args "data" with
  | some dim, some cube =>
      if dim = "bands" ∨ dim = "band" then
        if (numericEntries cube).length = 1 then [] else filesOf (numericEntries cube)
      else if dim = "t" ∨ dim = "time" ∨ dim = "temporal" then primaryFiles cube
      else []
  | _, _ => []

/-- `ApplyHandler` opens all bands that are no classification, if there is a callback. -/
def applyFiles : List PathBuf :=
  match args.get "process", cubeArg errs ops args "data" with
  | some _, some cube => filesOf (numericEntries cube)
  | _, _ => []

/-- The paths of a list; other items are skipped. -/
def pathsOf : Json → List PathBuf
  | .arr xs => xs.filterMap Json.asStr
  | _ => []

/-- `merge_cubes_resolve_overlap` opens both files of each scene of a common band. -/
def resolvedFiles (b1 b2 : List (String × Json)) : List PathBuf :=
  b1.flatMap fun e =>
    match b2.lookup e.1 with
    | some v =>
        if (pathsOf e.2).length = (pathsOf v).length then scenePairs (pathsOf e.2) (pathsOf v)
        else []
    | none => []

/-- The mosaic of `eval_merge_cubes` opens one file of each input. -/
def mosaicFiles (v1 v2 : Json) : List PathBuf :=
  match extractRasterPath errs (some v1) "cube1", extractRasterPath errs (some v2) "cube2" with
  | .ok p1, .ok p2 => [p1, p2]
  | _, _ => []

/-- `eval_merge_cubes`. -/
def mergeCubesFiles : List PathBuf :=
  match (args.get "cube1").or (args.get "data1"), (args.get "cube2").or (args.get "data2") with
  | some v1, some v2 =>
      match (v1.get "__cube").bind bandsObject, (v2.get "__cube").bind bandsObject with
      | some b1, some b2 =>
          if b1.any (fun e => containsKey e.1 b2) then
            match args.get "overlap_resolver" with
            | some _ => resolvedFiles b1 b2
            | none => mosaicFiles errs v1 v2
          else []
      | _, _ => mosaicFiles errs v1 v2
  | _, _ => []

/-- `eval_aggregate_spatial` opens the scenes of the picked band. -/
def aggregateSpatialFiles : List PathBuf :=
  match cubeArg errs ops args "data" with
  | none => []
  | some cube => primaryFiles cube

/-- `eval_aggregate_spatial_point` and `eval_aggregate_spatial_polygon` open one file. -/
def sampledFiles : List PathBuf := (extractRasterPath errs (args.get "data") "data").toOption.toList

/-- `eval_zonal_histogram` opens the data and the zones. -/
def zonalHistogramFiles : List PathBuf :=
  match extractRasterPath errs (args.get "data") "data",
      extractRasterPath errs (args.get "mask") "mask" with
  | .ok data, .ok mask => [data, mask]
  | _, _ => []

/-- `eval_resample_spatial` opens a single file, or every file of a cube. -/
def resampleSpatialFiles : List PathBuf :=
  match args.get "data" with
  | none => []
  | some data =>
      match data.get "__raster" with
      | some raster => ((raster.get "path").bind fun v => (decodePath errs v).toOption).toList
      | none =>
          match data.get "__cube", cubeArg errs ops args "data" with
          | some _, some cube => filesOf cube.bands.entries
          | _, _ => []

/-- `recrop_cube_to_bbox` opens every file of the cube. -/
def recropFiles : List PathBuf :=
  match cubeArg errs ops args "data" with
  | none => []
  | some cube => filesOf cube.bands.entries

/-- The files that the handler of a process opens because its arguments name them, if none
of its checks stops it before.  The other handlers open none.  `EvaluatorReads` shows that
the evaluators depend on no other files. -/
def openedFiles (process : String) : List PathBuf :=
  match process with
  | "ndvi" => ndviFiles errs ops args
  | "mask" => maskFiles errs ops args
  | "mask_from_values" => maskFromValuesFiles errs ops args
  | "mask_scl_dilation" => maskSclDilationFiles errs ops args
  | "reduce_dimension" => reduceDimensionFiles errs ops args
  | "apply" => applyFiles errs ops args
  | "merge_cubes" => mergeCubesFiles errs args
  | "aggregate_spatial" => aggregateSpatialFiles errs ops args
  | "aggregate_spatial_point" => sampledFiles errs args
  | "aggregate_spatial_polygon" => sampledFiles errs args
  | "zonal_histogram" => zonalHistogramFiles errs args
  | "resample_spatial" => resampleSpatialFiles errs ops args
  | "filter_bbox" => recropFiles errs ops args
  | "filter_spatial" => recropFiles errs ops args
  | _ => []

end Opened

/-- The string stands in one of the arguments. -/
def Carried (args : BTreeMap Json) (s : String) : Prop := ∃ v ∈ args.values, s ∈ texts v

section Named

variable {args : BTreeMap Json} {cube : CubeEnvelope.DataCube} {key : String} {v : Json}
  {p : PathBuf}

theorem carried_of_get (h : args.get key = some v) (hp : p ∈ texts v) : Carried args p :=
  ⟨v, List.mem_map.mpr ⟨(key, v), (args.get_eq_some_iff key v).mp h, rfl⟩, hp⟩

theorem carried_of_cubeArg (h : cubeArg errs ops args key = some cube)
    (hp : Listed cube.bands p) : Carried args p := by
  obtain ⟨v, hget, hcube⟩ := Option.bind_eq_some_iff.mp h
  cases hown : CubeEnvelope.DataCube.fromEnvelopeOwned errs ops v with
  | error e =>
      rw [hown] at hcube
      cases hcube
  | ok cube' =>
      rw [hown] at hcube
      cases hcube
      exact carried_of_get hget (mem_texts_of_fromEnvelopeOwned hown hp)

theorem carried_of_extractRasterPath
    (h : extractRasterPath errs (args.get key) key = .ok p) : Carried args p := by
  cases hget : args.get key with
  | none =>
      rw [hget] at h
      cases h
  | some v =>
      rw [hget] at h
      exact carried_of_get hget (mem_texts_of_extractRasterPath h)

theorem mem_of_mem_scenePairs {xs ys : List PathBuf} (h : p ∈ scenePairs xs ys) :
    p ∈ xs ∨ p ∈ ys := by
  obtain ⟨⟨x, y⟩, hzip, hp⟩ := List.mem_flatMap.mp h
  obtain ⟨hx, hy⟩ := List.of_mem_zip hzip
  rcases List.mem_cons.mp hp with rfl | hp
  · exact Or.inl hx
  · obtain rfl := List.mem_singleton.mp hp
    exact Or.inr hy

theorem listed_of_mem_entries {bands : BTreeMap (List PathBuf)} {e : String × List PathBuf}
    (he : e ∈ bands.entries) (hp : p ∈ e.2) : Listed bands p :=
  ⟨e.1, e.2, (bands.get_eq_some_iff e.1 e.2).mpr he, hp⟩

theorem listed_of_mem_filesOf {bands : BTreeMap (List PathBuf)}
    {es : List (String × List PathBuf)} (hsub : es ⊆ bands.entries) (hp : p ∈ filesOf es) :
    Listed bands p := by
  obtain ⟨e, he, hp⟩ := List.mem_flatMap.mp hp
  exact listed_of_mem_entries (hsub he) hp

theorem listed_of_mem_primaryFiles (hp : p ∈ primaryFiles cube) : Listed cube.bands p := by
  unfold primaryFiles at hp
  cases hpick : (pickKey cube.bands.keys).bind fun key => cube.bands.get key with
  | none =>
      rw [hpick] at hp
      cases hp
  | some paths =>
      rw [hpick] at hp
      obtain ⟨band, -, hget⟩ := Option.bind_eq_some_iff.mp hpick
      exact ⟨band, paths, hget, hp⟩

theorem Listed.of_remove {bands : BTreeMap (List PathBuf)} {band : String}
    (h : Listed (bands.remove band) p) : Listed bands p := by
  obtain ⟨k, paths, hget, hp⟩ := h
  rw [BTreeMap.get_remove] at hget
  split_ifs at hget
  exact ⟨k, paths, hget, hp⟩

theorem carried_of_ndviFiles (hp : p ∈ ndviFiles errs ops args) : Carried args p := by
  unfold ndviFiles at hp
  cases hcube : cubeArg errs ops args "data" with
  | none =>
      rw [hcube] at hp
      cases hp
  | some cube =>
      rw [hcube] at hp
      refine carried_of_cubeArg hcube ?_
      dsimp only at hp
      split at hp
      · rename_i reds nirs hred hnir
        split_ifs at hp
        · rcases mem_of_mem_scenePairs hp with hp | hp
          · exact ⟨_, reds, hred, hp⟩
          · exact Listed.of_remove ⟨_, nirs, hnir, hp⟩
        · cases hp
      · cases hp

theorem carried_of_maskFiles (hp : p ∈ maskFiles errs ops args) : Carried args p := by
  unfold maskFiles at hp
  split at hp
  · rename_i cube maskCube hcube hmask
    split at hp
    · rename_i band maskPaths hentries
      obtain ⟨e, he, hp⟩ := List.mem_flatMap.mp hp
      rcases mem_of_mem_scenePairs hp with hp | hp
      · exact carried_of_cubeArg hcube (listed_of_mem_entries (List.mem_filter.mp he).1 hp)
      · have hmem : (band, maskPaths) ∈ maskCube.bands.entries := by
          rw [hentries]
          exact List.mem_cons_self
        exact carried_of_cubeArg hmask (listed_of_mem_entries hmem hp)
    · cases hp
  · cases hp

theorem carried_of_maskFromValuesFiles (hp : p ∈ maskFromValuesFiles errs ops args) :
    Carried args p := by
  unfold maskFromValuesFiles at hp
  split at hp
  · cases hp
  · rename_i cube hcube
    cases hget : cube.bands.get (textArg args "band" "SCL") with
    | none =>
        rw [hget] at hp
        cases hp
    | some paths =>
        rw [hget] at hp
        exact carried_of_cubeArg hcube ⟨_, paths, hget, hp⟩

theorem carried_of_maskSclDilationFiles (hp : p ∈ maskSclDilationFiles errs ops args) :
    Carried args p := by
  unfold maskSclDilationFiles at hp
  split at hp
  · cases hp
  · rename_i cube hcube
    refine carried_of_cubeArg hcube ?_
    dsimp only at hp
    split at hp
    · cases hp
    · rename_i sclPaths hscl
      obtain ⟨e, he, hp⟩ := List.mem_flatMap.mp hp
      rcases mem_of_mem_scenePairs hp with hp | hp
      · exact Listed.of_remove (listed_of_mem_entries he hp)
      · exact ⟨_, sclPaths, hscl, hp⟩

theorem listed_of_numericEntries (hp : p ∈ filesOf (numericEntries cube)) :
    Listed cube.bands p :=
  listed_of_mem_filesOf (List.filter_subset_self _) hp

theorem carried_of_reduceDimensionFiles (hp : p ∈ reduceDimensionFiles errs ops args) :
    Carried args p := by
  unfold reduceDimensionFiles at hp
  split at hp
  · rename_i dim cube hdim hcube
    refine carried_of_cubeArg hcube ?_
    split_ifs at hp
    · cases hp
    · exact listed_of_numericEntries hp
    · exact listed_of_mem_primaryFiles hp
    · cases hp
  · cases hp

theorem carried_of_applyFiles (hp : p ∈ applyFiles errs ops args) : Carried args p := by
  unfold applyFiles at hp
  split at hp
  · rename_i process cube hprocess hcube
    exact carried_of_cubeArg hcube (listed_of_numericEntries hp)
  · cases hp

theorem mem_texts_of_mem_pathsOf (hp : p ∈ pathsOf v) : p ∈ texts v := by
  cases v with
  | arr xs =>
      obtain ⟨w, hw, hstr⟩ := List.mem_filterMap.mp hp
      exact mem_texts_of_item hw (mem_texts_of_asStr hstr)
  | _ => cases hp

theorem mem_texts_of_resolvedFiles {b1 b2 : List (String × Json)}
    (hp : p ∈ resolvedFiles b1 b2) : p ∈ texts (.obj b1) ∨ p ∈ texts (.obj b2) := by
  obtain ⟨⟨band, w⟩, he, hp⟩ := List.mem_flatMap.mp hp
  dsimp only at hp
  split at hp
  · rename_i v hv
    split_ifs at hp
    · rcases mem_of_mem_scenePairs hp with hp | hp
      · exact Or.inl (mem_texts_of_field he (mem_texts_of_mem_pathsOf hp))
      · exact Or.inr (mem_texts_of_field (mem_of_lookup_eq_some hv) (mem_texts_of_mem_pathsOf hp))
    · cases hp
  · cases hp

theorem mem_texts_of_mosaicFiles {v1 v2 : Json} (hp : p ∈ mosaicFiles errs v1 v2) :
    p ∈ texts v1 ∨ p ∈ texts v2 := by
  unfold mosaicFiles at hp
  split at hp
  · rename_i p1 p2 h1 h2
    rcases List.mem_cons.mp hp with rfl | hp
    · exact Or.inl (mem_texts_of_extractRasterPath h1)
    · obtain rfl := List.mem_singleton.mp hp
      exact Or.inr (mem_texts_of_extractRasterPath h2)
  · cases hp

theorem carried_of_or {key' : String} (h : (args.get key).or (args.get key') = some v)
    (hp : p ∈ texts v) : Carried args p := by
  rcases Option.or_eq_some_iff.mp h with h | ⟨-, h⟩
  · exact carried_of_get h hp
  · exact carried_of_get h hp

theorem carried_of_mergeCubesFiles (hp : p ∈ mergeCubesFiles errs args) : Carried args p := by
  unfold mergeCubesFiles at hp
  split at hp
  · rename_i v1 v2 h1 h2
    have hmosaic (hp : p ∈ mosaicFiles errs v1 v2) : Carried args p := by
      rcases mem_texts_of_mosaicFiles hp with hp | hp
      · exact carried_of_or h1 hp
      · exact carried_of_or h2 hp
    split at hp
    · rename_i b1 b2 hb1 hb2
      split_ifs at hp
      · split at hp
        · rcases mem_texts_of_resolvedFiles hp with hp | hp
          · exact carried_of_or h1 (mem_texts_of_bands hb1 hp)
          · exact carried_of_or h2 (mem_texts_of_bands hb2 hp)
        · exact hmosaic hp
      · cases hp
    · exact hmosaic hp
  · cases hp

theorem carried_of_aggregateSpatialFiles (hp : p ∈ aggregateSpatialFiles errs ops args) :
    Carried args p := by
  unfold aggregateSpatialFiles at hp
  split at hp
  · cases hp
  · rename_i cube hcube
    exact carried_of_cubeArg hcube (listed_of_mem_primaryFiles hp)

theorem carried_of_sampledFiles (hp : p ∈ sampledFiles errs args) : Carried args p := by
  unfold sampledFiles at hp
  cases hpath : extractRasterPath errs (args.get "data") "data" with
  | error e =>
      rw [hpath] at hp
      cases hp
  | ok path =>
      rw [hpath] at hp
      obtain rfl := List.mem_singleton.mp hp
      exact carried_of_extractRasterPath hpath

theorem carried_of_zonalHistogramFiles (hp : p ∈ zonalHistogramFiles errs args) :
    Carried args p := by
  unfold zonalHistogramFiles at hp
  split at hp
  · rename_i data mask hdata hmask
    rcases List.mem_cons.mp hp with rfl | hp
    · exact carried_of_extractRasterPath hdata
    · obtain rfl := List.mem_singleton.mp hp
      exact carried_of_extractRasterPath hmask
  · cases hp

theorem carried_of_resampleSpatialFiles (hp : p ∈ resampleSpatialFiles errs ops args) :
    Carried args p := by
  unfold resampleSpatialFiles at hp
  split at hp
  · cases hp
  · rename_i data hdata
    split at hp
    · rename_i raster hraster
      obtain ⟨w, hw, hpath⟩ := Option.bind_eq_some_iff.mp (Option.mem_toList.mp hp)
      refine carried_of_get hdata (mem_texts_of_get hraster (mem_texts_of_get hw ?_))
      cases hdecode : decodePath errs w with
      | error e =>
          rw [hdecode] at hpath
          cases hpath
      | ok path =>
          rw [hdecode] at hpath
          cases hpath
          exact mem_texts_of_decodePath hdecode
    · split at hp
      · rename_i cube inner hcube
        exact carried_of_cubeArg hcube (listed_of_mem_filesOf (List.Subset.refl _) hp)
      · cases hp

theorem carried_of_recropFiles (hp : p ∈ recropFiles errs ops args) : Carried args p := by
  unfold recropFiles at hp
  split at hp
  · cases hp
  · rename_i cube hcube
    exact carried_of_cubeArg hcube (listed_of_mem_filesOf (List.Subset.refl _) hp)

/-- **Every file a handler opens because of its arguments is a string in one of them.** -/
theorem carried_of_openedFiles {process : String}
    (hp : p ∈ openedFiles errs ops args process) : Carried args p := by
  unfold openedFiles at hp
  split at hp
  · exact carried_of_ndviFiles hp
  · exact carried_of_maskFiles hp
  · exact carried_of_maskFromValuesFiles hp
  · exact carried_of_maskSclDilationFiles hp
  · exact carried_of_reduceDimensionFiles hp
  · exact carried_of_applyFiles hp
  · exact carried_of_mergeCubesFiles hp
  · exact carried_of_aggregateSpatialFiles hp
  · exact carried_of_sampledFiles hp
  · exact carried_of_sampledFiles hp
  · exact carried_of_zonalHistogramFiles hp
  · exact carried_of_resampleSpatialFiles hp
  · exact carried_of_recropFiles hp
  · exact carried_of_recropFiles hp
  · cases hp

end Named

end Handles

end OrbitOpenEO
