import OrbitOpenEO.ResampledScl

/-!
# Tasks that outlive their call

A download, a virtual raster and a resampled classification are made by closures
that run on threads of their own, and nothing stops a closure once it runs.  A
load that has seen one task fail returns and leaves the others to themselves; a
job that is cancelled or runs out of time leaves all that its call has begun.
They still write into the work directory when they come to their end.
-/

namespace OrbitOpenEO

open Lib

/-- A closure given to `spawn_blocking`. -/
inductive SpawnedTask where
  | download (req : LoadRequest) (t : FetchTask)
  | emission (emit : FetchTask → CropWindow → String → Except ExecError Raster)
      (req : LoadRequest) (t : FetchTask)
  | resampling (sclPath dataPath : PathBuf) (b : String) (t : Nat)

section Tasks

variable (P : Platform) (dir : PathBuf)

/-- What it does, whether anybody waits for it or not. -/
def SpawnedTask.run : SpawnedTask → Eval Unit
  | .download req t => do
      let _ ← fetchBlocking P t.href (scratch dir s!"{t.band}_{t.scene}.tif") req.crop
        (some req.crs)
      pure ()
  | .emission emit req t => do
      let _ ← emitTask dir emit req t
      pure ()
  | .resampling sclPath dataPath b t => do
      let _ ← resampleSclToDataGrid P sclPath dataPath (resampledPath dir b t)
      pure ()

/-- The checks of the eager path before its tasks. -/
def eagerChecks (req : LoadRequest) (scenes : List StacScene) : Except ExecError Unit := do
  checkRequest P req scenes
  checkTasks validateAssetHref (loadTasks scenes req.bands)

/-- The checks of the streaming path before its tasks. -/
def streamChecks (req : LoadRequest) (scenes : List StacScene) : Except ExecError Unit := do
  checkRequest P req scenes
  checkTasks
    (fun href => do
      validateAssetHref href
      let _ ← vsicurlPath href
      .ok ())
    (loadTasks scenes req.bands)

/-- The downloads of some tasks of the eager path; where the URL policy refuses there is none. -/
def downloads (checkUrl : String → Except String Unit) (req : LoadRequest) (ts : List FetchTask) :
    List SpawnedTask :=
  (ts.filter (fun t => (checkUrl t.href).isOk)).map (.download req)

/-- The resamplings of `mask_scl_dilation`, one for each scene of each band. -/
def resamplings (args : Args) : List SpawnedTask :=
  match (args.get "data").map DataCube.fromEnvelopeOwned with
  | some (.ok cube) =>
      match cube.takeBand (argStrOr args "scl_band_name" "SCL") with
      | .ok (sclPaths, rest) => rest.bands.entries.flatMap (fun e =>
          (sclPaths.zip e.2).zipIdx.map (fun p => .resampling p.1.1 p.1.2 e.1 p.2))
      | .error _ => []
  | _ => []

/-- The items behind the first one that fails. -/
def behindFailure {α β : Type} (f : α → Eval β) : List α → World → List α
  | [], _ => []
  | x :: xs, w =>
      match f x w with
      | .ok _ w' => behindFailure f xs w'
      | .error _ _ => xs

/-- The task writes no returned file when it ends in `w`.  A resampling writes only where no
file of the right size is there. -/
def SpawnedTask.Apart (returned : List PathBuf) (w : World) : SpawnedTask → Prop
  | .download _ t => DownloadFree P dir returned w t
  | .emission _ _ t => scratch dir s!"{t.band}_{t.scene}_p3.vrt" ∉ returned
  | .resampling sclPath dataPath b t => ∀ scl data, w.files sclPath = some scl →
      w.files dataPath = some data → sameGrid scl data = false →
      (∀ prev, w.files (resampledPath dir b t) = some prev →
        ¬ (prev.cols = data.cols ∧ prev.rows = data.rows)) →
      resampledPath dir b t ∉ returned

variable {P dir} {Ok : Event → Prop} {w v : World} {returned : List PathBuf}

/-- A resampling leaves the state as it is, or writes its file. -/
theorem resampling_ends {sclPath dataPath out : PathBuf} (hv : LogsOnly Ok w v)
    (hout : ∀ scl data, v.files sclPath = some scl → v.files dataPath = some data →
      sameGrid scl data = false →
      (∀ prev, v.files out = some prev → ¬ (prev.cols = data.cols ∧ prev.rows = data.rows)) →
      Ok (.wrote out)) :
    Ends (LogsOnly Ok w) (resampleSclToDataGrid P sclPath dataPath out v) := by
  have hwarp : ∀ scl data, Ok (.wrote out) →
      Ends (LogsOnly Ok w) (warpScl P sclPath out scl data v) := by
    intro scl data hok
    unfold warpScl
    cases P.warp scl data with
    | error status =>
        exact hv
    | ok r =>
        exact hv.write hok
  unfold resampleSclToDataGrid
  split
  · exact hv
  · exact hv
  · rename_i data scl hdata hscl
    split
    · exact hv
    · rename_i hgrid
      rw [Bool.not_eq_true] at hgrid
      split
      · rename_i prev hprev
        split
        · exact hv
        · rename_i hsize
          refine hwarp scl data (hout scl data hscl hdata hgrid ?_)
          intro prev' hprev'
          rw [hprev] at hprev'
          cases hprev'
          exact hsize
      · rename_i hnone
        refine hwarp scl data (hout scl data hscl hdata hgrid ?_)
        intro prev hprev
        rw [hnone] at hprev
        cases hprev

/-- A task that stays apart writes no returned file. -/
theorem SpawnedTask.Apart.logs {task : SpawnedTask} (hfree : ∀ p, p ∉ returned → Ok (.wrote p))
    (h : task.Apart P dir returned v) (hv : LogsOnly Ok w v) :
    Ends (LogsOnly Ok w) (task.run P dir v) := by
  cases task with
  | download req t =>
      exact Outcome.bind (fetchBlocking_logs hfree hv h) fun _ _ h => h
  | emission emit req t =>
      refine Outcome.bind (Q := fun _ => LogsOnly Ok w) ?_ fun _ _ h => h
      exact emitTask_logs (fun _ _ => hfree _ h) hv
  | resampling sclPath dataPath b t =>
      refine Outcome.bind (Q := fun _ => LogsOnly Ok w) ?_ fun _ _ h => h
      exact resampling_ends hv fun scl data hscl hdata hgrid hsize =>
        hfree _ (h scl data hscl hdata hgrid hsize)

end Tasks

end OrbitOpenEO
