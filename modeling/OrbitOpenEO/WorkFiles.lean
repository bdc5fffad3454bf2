import OrbitOpenEO.SpawnedTasks
import OrbitOpenEO.Lib.Run

/-!
# The files of one work directory

All node evaluations of an executor write into one directory, under names made
of band and scene only, and the jobs that follow use the same directory.  A run
is free of interference if no call writes a file that an earlier one has
returned, and if `mask_scl_dilation` masks every scene with the classification it
was given.

A call that fails or is dropped leaves tasks running, and each of them ends at any
time or never; the state of a run keeps them, and the history of all steps.
`Apart` is the condition on a step and the state before it under which the step
does no harm; `reach_allSafe` carries this over whole runs.
-/

namespace OrbitOpenEO

open Lib

/-- The evaluations that share the directory. -/
inductive NodeCall where
  | loadEager (order : List FetchTask → List FetchTask) (req : LoadRequest)
      (scenes : List StacScene)
  | loadStream (emit : FetchTask → CropWindow → String → Except ExecError Raster)
      (order : List FetchTask → List FetchTask) (req : LoadRequest) (scenes : List StacScene)
  | ndvi (args : Args)
  | mask (args : Args)
  | maskSclDilation (args : Args)
  | maskFromValues (args : Args)

/-- Run a call. -/
def NodeCall.eval (P : Platform) (dir : PathBuf) (checkUrl : String → Except String Unit) :
    NodeCall → Eval Envelope
  | .loadEager order req scenes => do
      let cube ← OrbitOpenEO.loadEager P dir checkUrl order req scenes
      pure (.cube cube)
  | .loadStream emit order req scenes => do
      let cube ← OrbitOpenEO.loadStream P dir emit order req scenes
      pure (.cube cube)
  | .ndvi args => evalNdvi P dir args
  | .mask args => evalMask P dir args
  | .maskSclDilation args => evalMaskSclDilation P dir args
  | .maskFromValues args => evalMaskFromValues P dir args

/-- The tasks a call can have begun when it is dropped. -/
def NodeCall.spawns (P : Platform) (checkUrl : String → Except String Unit) :
    NodeCall → List SpawnedTask
  | .loadEager _ req scenes =>
      if (eagerChecks P req scenes).isOk then downloads checkUrl req (loadTasks scenes req.bands)
      else []
  | .loadStream emit _ req scenes =>
      if (streamChecks P req scenes).isOk then
        (loadTasks scenes req.bands).map (.emission emit req)
      else []
  | .maskSclDilation args => resamplings args
  | _ => []

/-- The tasks a call leaves running when it returns: those of a load that have not come
to their end when one has failed. -/
def NodeCall.leaves (P : Platform) (dir : PathBuf) (checkUrl : String → Except String Unit)
    (w : World) : NodeCall → List SpawnedTask
  | .loadEager order req scenes =>
      if (eagerChecks P req scenes).isOk then
        downloads checkUrl req
          (behindFailure (fetchTask P dir checkUrl req) (order (loadTasks scenes req.bands)) w)
      else []
  | .loadStream emit order req scenes =>
      if (streamChecks P req scenes).isOk then
        (behindFailure (emitTask dir emit req) (order (loadTasks scenes req.bands)) w).map
          (.emission emit req)
      else []
  | _ => []

/-- The paths in the cube a call has returned. -/
def returnedPaths : EStateM.Result ExecError World Envelope → List PathBuf
  | .ok (.cube c) _ => c.bands.values.flatten
  | _ => []

/-- A step of a run: a call that returns, one whose job is stopped before, or the end of
a task that a call has left running.  What a dropped call had done by then are tasks that
end at once. -/
inductive WorkStep where
  | call (call : NodeCall)
  | drop (call : NodeCall)
  | late (i : Nat)

/-- One step of a run, with the states around it and the paths returned before. -/
structure Episode where
  step : WorkStep
  before : World
  returned : List PathBuf
  after : World

/-- A work directory in use. -/
structure WorkState where
  world : World
  returned : List PathBuf
  running : List SpawnedTask
  episodes : List Episode

/-- The event does no harm: no returned file is written, and the classification
used is the call's own. -/
def EventSafe (P : Platform) (step : WorkStep) (before : World) (returned : List PathBuf) :
    Event → Prop
  | .wrote p => p ∉ returned
  | .sclUsed b t scl => ∃ args c sclPaths e, step = .call (.maskSclDilation args) ∧
      ArgCube args "data" c ∧ c.bands.get (argStrOr args "scl_band_name" "SCL") = some sclPaths ∧
      e ∈ (c.bands.remove (argStrOr args "scl_band_name" "SCL")).entries ∧ e.1 = b ∧
      OwnScl P before sclPaths e t scl

/-- A step that did no harm. -/
def Episode.Safe (P : Platform) (e : Episode) : Prop :=
  LogsOnly (EventSafe P e.step e.before e.returned) e.before e.after

namespace WorkState

/-- A directory nobody has used yet. -/
def start (w : World) : WorkState := ⟨w, [], [], []⟩

section Run

variable (P : Platform) (dir : PathBuf) (checkUrl : String → Except String Unit)

/-- One step; the effects of a call stay when it fails. -/
def step (s : WorkState) : WorkStep → Option WorkState
  | .call c =>
      let r := c.eval P dir checkUrl s.world
      some ⟨finalState r, s.returned ++ returnedPaths r,
        s.running ++ c.leaves P dir checkUrl s.world,
        s.episodes ++ [⟨.call c, s.world, s.returned, finalState r⟩]⟩
  | .drop c => some { s with running := s.running ++ c.spawns P checkUrl }
  | .late i =>
      match s.running[i]? with
      | none => none
      | some task =>
          let r := task.run P dir s.world
          some ⟨finalState r, s.returned, s.running.eraseIdx i,
            s.episodes ++ [⟨.late i, s.world, s.returned, finalState r⟩]⟩

/-- The call stays away from the files of earlier ones. -/
def CallApart (s : WorkState) : NodeCall → Prop
  | .loadEager order req scenes =>
      DownloadsApart P dir checkUrl req s.returned (order (loadTasks scenes req.bands)) s.world
  | .loadStream _ order req scenes => ∀ t ∈ order (loadTasks scenes req.bands),
      scratch dir s!"{t.band}_{t.scene}_p3.vrt" ∉ s.returned
  | .ndvi args => ∀ c reds, ArgCube args "data" c →
      c.bands.get (argStrOr args "red" "B04") = some reds → ∀ t < reds.length,
        scenePath dir (argStrOr args "target_band" "ndvi") "_t" t ∉ s.returned
  | .mask args => ∀ c, ArgCube args "data" c → ∀ e ∈ maskableBands c, ∀ t < e.2.length,
      scenePath dir e.1 "_mask_t" t ∉ s.returned
  | .maskSclDilation args => ∀ c sclPaths, ArgCube args "data" c →
      c.bands.get (argStrOr args "scl_band_name" "SCL") = some sclPaths →
        SclApart P dir s.world s.returned sclPaths
          (c.bands.remove (argStrOr args "scl_band_name" "SCL")).entries
  | .maskFromValues args => ∀ c paths, ArgCube args "data" c →
      c.bands.get (argStrOr args "band" "SCL") = some paths → ∀ t < paths.length,
        scenePath dir (argStrOr args "target_band" "mask") "_from_values_t" t ∉ s.returned

/-- The step does, be it a call or a task that comes to its end. -/
def Apart (s : WorkState) : WorkStep → Prop
  | .call c => s.CallApart P dir checkUrl c
  | .drop _ => True
  | .late i => ∀ task, s.running[i]? = some task → task.Apart P dir s.returned s.world

variable {P dir checkUrl} {s s' : WorkState}

/-- A call that stays away from the files of earlier ones does no harm. -/
theorem CallApart.safe {call : NodeCall} (h : s.CallApart P dir checkUrl call) :
    LogsOnly (EventSafe P (.call call) s.world s.returned) s.world
      (finalState (call.eval P dir checkUrl s.world)) := by
  refine Ends.finalState ?_
  cases call with
  | loadEager order req scenes =>
      exact Outcome.bind (loadEager_logs (fun _ hp => hp) h) fun _ _ hlog => hlog
  | loadStream emit order req scenes =>
      exact Outcome.bind (loadStream_logs fun _ => h) fun _ _ hlog => hlog
  | ndvi args =>
      exact evalNdvi_logs fun c reds _ hc hred _ _ => h c reds hc hred
  | mask args =>
      exact evalMask_logs fun c hc e he _ => h c hc e he
  | maskSclDilation args =>
      refine evalMaskSclDilation_logs (fun _ hp => hp) ?_ h
      intro c sclPaths hc hscl e he t r hr
      exact ⟨args, c, sclPaths, e, rfl, hc, hscl, he, rfl, hr⟩
  | maskFromValues args =>
      exact evalMaskFromValues_logs fun c paths hc _ => h c paths hc

end Run

end WorkState

end OrbitOpenEO
