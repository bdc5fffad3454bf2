import OrbitOpenEO.ConfinedFiles
import OrbitOpenEO.WorkFiles

/-!
# Where a run writes

A run is any sequence of evaluations on one platform with one scratch directory, each
with whatever arguments the graph gives it.  Every evaluator takes names into the names
of its files; those that have them checked, or make them up, stay in the directory on
their own.  `NamesKept` says what has to be true of the others.
-/

namespace OrbitOpenEO

open Lib

/-- The evaluators that write files.  All others are `other`, with their result. -/
inductive Evaluator where
  | loadEager (schedule : Schedule) (req : LoadRequest) (scenes : List StacScene)
  | loadStream (emit : FetchTask → CropWindow → String → Except ExecError Raster)
      (schedule : Schedule) (req : LoadRequest) (scenes : List StacScene)
  | ndvi (args : Args)
  | mask (args : Args)
  | maskSclDilation (args : Args)
  | maskFromValues (args : Args)
  | apply (args : Args)
  | reduceDimension (args : Args)
  | mergeCubes (args : Args)
  | filterBbox (args : Args)
  | filterSpatial (args : Args)
  | resampleSpatial (args : Args)
  | other (result : Except ExecError Envelope)

/-- What the executor has been built with. -/
structure Deployment where
  platform : Platform
  tools : SpatialTools
  scratchDir : PathBuf
  checkUrl : String → Except String Unit

namespace Evaluator

variable (D : Deployment)

/-- Run an evaluator. -/
def eval : Evaluator → Eval Envelope
  | .loadEager schedule req scenes => do
      let cube ← OrbitOpenEO.loadEager D.platform D.scratchDir D.checkUrl schedule.order req scenes
      pure (.cube cube)
  | .loadStream emit schedule req scenes => do
      let cube ← OrbitOpenEO.loadStream D.platform D.scratchDir emit schedule.order req scenes
      pure (.cube cube)
  | .ndvi args => evalNdvi D.platform D.scratchDir args
  | .mask args => evalMask D.platform D.scratchDir args
  | .maskSclDilation args => evalMaskSclDilation D.platform D.scratchDir args
  | .maskFromValues args => evalMaskFromValues D.platform D.scratchDir args
  | .apply args => applyHandler D.platform D.scratchDir args
  | .reduceDimension args => evalReduceDimension D.platform D.scratchDir args
  | .mergeCubes args => evalMergeCubes D.platform D.scratchDir args
  | .filterBbox args => evalFilterBbox D.platform D.tools D.scratchDir args
  | .filterSpatial args => evalFilterSpatial D.platform D.tools D.scratchDir args
  | .resampleSpatial args => evalResampleSpatial D.platform D.tools D.scratchDir args
  | .other result => attempt result

/-- One evaluation; what it has written stays when it fails. -/
def step (w : World) (e : Evaluator) : Option World := some (finalState (e.eval D w))

/-- The names that no evaluator checks have no separator, and nothing else than a name
decides about a path: a cache or a temporary directory elsewhere is not used. -/
def NamesKept (w : World) : Evaluator → Prop
  | .loadEager schedule req scenes => checkRequest D.platform req scenes = .ok () →
      checkTasks validateAssetHref (loadTasks scenes req.bands) = .ok () →
      ∀ cache, w.cache = some cache →
        CacheInside D.platform D.scratchDir D.checkUrl req
          (schedule.order (loadTasks scenes req.bands)) cache
  | .ndvi args => ∀ c reds nirs, ArgCube args "data" c →
      c.bands.get (argStrOr args "red" "B04") = some reds →
      (c.bands.remove (argStrOr args "red" "B04")).get (argStrOr args "nir" "B08") = some nirs →
      reds.length = nirs.length → reds ≠ [] → NoSlash (argStrOr args "target_band" "ndvi")
  | .mergeCubes args => ∀ v1 v2, MergeArgs args v1 v2 →
      MergesInside D.platform D.scratchDir w v1 v2
        ((args.get "overlap_resolver").map Envelope.toValue)
  | .resampleSpatial args => ∀ c, args.get "data" = some (.cube c) →
      ((args.get "projection").bind Envelope.json).bind Json.asU64 ≠ none →
      ((args.get "resolution").bind Envelope.json).any (isNonzeroResolution D.platform) = false →
      ∀ e ∈ c.bands.entries, e.2 ≠ [] → NoSlash e.1
  | _ => True

variable {D}

/-- One evaluation writes into the directory. -/
theorem NamesKept.inside {w : World} {e : Evaluator} (h : NamesKept D w e) :
    LogsOnly (Inside D.scratchDir) w (finalState (e.eval D w)) := by
  refine Ends.finalState ?_
  cases e with
  | loadEager schedule req scenes =>
      exact Outcome.bind (loadEager_inside h) fun _ _ hlog => hlog
  | loadStream emit schedule req scenes =>
      exact Outcome.bind loadStream_inside fun _ _ hlog => hlog
  | ndvi args =>
      exact evalNdvi_inside h
  | mask args =>
      exact evalMask_inside
  | maskSclDilation args =>
      exact evalMaskSclDilation_inside
  | maskFromValues args =>
      exact evalMaskFromValues_inside
  | apply args =>
      exact evalApply_inside
  | reduceDimension args =>
      exact evalReduceDimension_inside
  | mergeCubes args =>
      exact evalMergeCubes_inside h
  | filterBbox args =>
      exact evalFilterBbox_inside
  | filterSpatial args =>
      exact evalFilterSpatial_inside
  | resampleSpatial args =>
      exact evalResampleSpatial_inside h
  | other result =>
      cases result <;> exact LogsOnly.refl _ w

/-- What is written in two stretches of a run is written inside. -/
theorem inside_trans {dir : PathBuf} {u v w : World} (h₁ : LogsOnly (Inside dir) u v)
    (h₂ : LogsOnly (Inside dir) v w) : LogsOnly (Inside dir) u w := by
  obtain ⟨new₁, hlog₁, hok₁⟩ := h₁
  obtain ⟨new₂, hlog₂, hok₂⟩ := h₂
  refine ⟨new₁ ++ new₂, by rw [hlog₂, hlog₁, List.append_assoc], ?_⟩
  intro e he
  rcases List.mem_append.mp he with he | he
  · exact hok₁ e he
  · exact hok₂ e he

/-- **In every run whose evaluations keep to plain names, every file that is written is
a file of the scratch directory.** -/
theorem writes_confined {w v : World} (h : Reach (step D) (NamesKept D) w v) :
    LogsOnly (Inside D.scratchDir) w v := by
  refine h.invariant (LogsOnly.refl _ w) ?_
  rintro t e u ht hkept ⟨⟩
  exact inside_trans ht hkept.inside

/-- Everything succeeds, files are kept as they are, and the directory is `/work`. -/
def workDeployment : Deployment where
  platform := Platform.exact
  tools :=
    { display := fun _ => ""
      pathError := fun _ => ""
      recrop := fun _ r _ _ => ⟨some r, .ok ()⟩
      warp := fun _ r _ => ⟨some r, .ok ()⟩ }
  scratchDir := "/work"
  checkUrl := fun _ => .ok ()

/-- A red and a near-infrared asset of one scene. -/
def loadPair : Evaluator :=
  .loadEager ⟨id, fun _ => .refl _⟩ ⟨"sentinel-2", ⟨0, 0, 1, 1⟩, "EPSG:4326", ["B04", "B08"]⟩
    [⟨"scene", (BTreeMap.empty.insert "B04" "https://data.example/r.tif").insert "B08"
      "https://data.example/n.tif", BTreeMap.empty, none⟩]

/-- The arguments of an index over the cube that was loaded. -/
def indexArgs : Args :=
  match loadPair.eval workDeployment World.empty with
  | .ok v _ => BTreeMap.empty.insert "data" v
  | .error _ _ => BTreeMap.empty

/-- The files written according to a log. -/
def writtenFiles (log : List Event) : List PathBuf :=
  log.filterMap fun e =>
    match e with
    | .wrote path => some path
    | .sclUsed _ _ _ => none

theorem confined_of_writtenFiles {dir : PathBuf} {w v : World} (h : LogsOnly (Inside dir) w v)
    (hw : w.log = []) {path : PathBuf} (hpath : path ∈ writtenFiles v.log) :
    Confined dir path := by
  obtain ⟨new, hlog, hok⟩ := h
  obtain ⟨e, he, hwrote⟩ := List.mem_filterMap.mp hpath
  rw [hlog, hw, List.nil_append] at he
  cases e with
  | wrote p =>
      cases hwrote
      exact hok _ he
  | sclUsed _ _ _ =>
      cases hwrote

theorem writes_confined_loadThenNdvi : ∃ v,
    Reach (step workDeployment) (NamesKept workDeployment) World.empty v ∧
      writtenFiles v.log = ["/work/B04_0.tif", "/work/B08_0.tif", "/work/ndvi_t0.tif"] ∧
      LogsOnly (Inside "/work") World.empty v := by
  have hreach : ∃ v, Reach (step workDeployment) (NamesKept workDeployment) World.empty v ∧
      writtenFiles v.log = ["/work/B04_0.tif", "/work/B08_0.tif", "/work/ndvi_t0.tif"] := by
    refine ⟨_, .tail (a := .ndvi indexArgs) (.tail (a := loadPair) .refl ?_ rfl) ?_ rfl, ?_⟩
    · rintro - - cache ⟨⟩
    · intro _ _ _ _ _ _ _ _
      decide +kernel
    · decide +kernel
  obtain ⟨v, hv, hfiles⟩ := hreach
  exact ⟨v, hv, hfiles, writes_confined hv⟩

/-- An index whose band is to be called `../x` is written beside the directory. -/
theorem ndvi_target_escapes : ∃ v,
    Reach (step workDeployment) AnyStep World.empty v ∧
      "/work/../x_t0.tif" ∈ writtenFiles v.log ∧
      ¬ LogsOnly (Inside "/work") World.empty v := by
  have hreach : ∃ v, Reach (step workDeployment) AnyStep World.empty v ∧
      "/work/../x_t0.tif" ∈ writtenFiles v.log := by
    refine ⟨_, .tail (a := .ndvi (indexArgs.insert "target_band" (.value (.str "../x") .missingEnvelope)))
      (.tail (a := loadPair) .refl trivial rfl) trivial rfl, ?_⟩
    decide +kernel
  obtain ⟨v, hv, hfile⟩ := hreach
  refine ⟨v, hv, hfile, fun hinside => ?_⟩
  have hplain : NoSlash "../x_t0.tif" :=
    noSlash_of_confined (confined_of_writtenFiles hinside rfl hfile) (by decide)
  exact absurd hplain (by decide)

end Evaluator

end OrbitOpenEO
