import OrbitOpenEO.Executor
import OrbitOpenEO.JobStore
import OrbitOpenEO.FileStore

/-!
# The job runner

`run_job` drives one job through its lifecycle.  It is written as a `Program`
whose requests are its calls of the job store, the file store, the event bus,
the metrics recorder and the executor, so that a path of the program is one run
under one pattern of failing calls.

`runShape_of_path` lists all paths once.  The two results of the module, about
the status a run leaves and about what it reports, are read off that list.
-/

namespace OrbitOpenEO

open Lib Lib.Program

/-- Job event kinds. -/
inductive JobEventKind where
  | started
  | progress
  | completed
  | failed
  | cancelled
deriving DecidableEq

/-- One event on the bus. -/
structure JobEvent where
  userId : String
  jobId : String
  kind : JobEventKind
deriving DecidableEq

/-- The metrics `run_job` records. -/
inductive MetricName where
  | etlJobsTotal
  | etlJobDurationSeconds
deriving DecidableEq

/-- Metric labels. -/
abbrev Labels := List (String × String)

/-- What an executor returns: a media type and a body. -/
structure SyncResult where
  contentType : String
  body : Bytes

/-- The calls `run_job` makes.  `runSync` is the executor call under the
timeout. -/
inductive RunCall where
  | setStatus (id : String) (status : JobStatus)
  | setProgress (id : String) (progress : F64)
  | appendLog (id level message : String)
  | addAsset (id : String) (asset : JobAsset)
  | put (key : FileKey) (bytes : Bytes)
  | publish (event : JobEvent)
  | counterInc (name : MetricName) (labels : Labels) (amount : Nat)
  | elapsed
  | histogramObserve (name : MetricName) (labels : Labels) (value : F64)
  | runSync (body : Json) (timeoutSecs : Nat)

/-- The replies.  For `runSync`, `none` is a timeout. -/
def RunReply : RunCall → Type
  | .setStatus _ _ => Except JobError Unit
  | .setProgress _ _ => Except JobError Unit
  | .appendLog _ _ _ => Except JobError Unit
  | .addAsset _ _ => Except JobError Unit
  | .put _ _ => Except FileError Unit
  | .publish _ => Unit
  | .counterInc _ _ _ => Unit
  | .elapsed => F64
  | .histogramObserve _ _ _ => Unit
  | .runSync _ _ => Option (Except ExecError SyncResult)

/-- Code of the runner. -/
abbrev RunProgram := Program RunReply

/-- Lifecycle outcome of a single job run. -/
inductive RunOutcome where
  | finished
  | failed (msg : String)
  | storeError (msg : String)
deriving DecidableEq

/-- `char::is_whitespace`. -/
def isWhitespace (c : Char) : Bool :=
  (9 ≤ c.toNat && c.toNat ≤ 13) || (0x2000 ≤ c.toNat && c.toNat ≤ 0x200A) ||
    [0x20, 0x85, 0xA0, 0x1680, 0x2028, 0x2029, 0x202F, 0x205F, 0x3000].contains c.toNat

/-- `str::trim`. -/
def trim (cs : List Char) : List Char :=
  ((cs.dropWhile isWhitespace).reverse.dropWhile isWhitespace).reverse

/-- The file extension `default_asset_name` picks for a media type. -/
def assetExtension (mediaType : String) : String :=
  match mediaType with
  | "application/json" => "json"
  | "image/tiff" => "tif"
  | "image/geotiff" => "tif"
  | "image/png" => "png"
  | "application/x-netcdf" => "nc"
  | _ => "bin"

/-- `default_asset_name`: parameters after a semicolon are ignored. -/
def defaultAssetName (contentType : String) : String :=
  let mediaType := String.ofList (trim (contentType.toList.takeWhile (fun c => c != ';')))
  "result." ++ assetExtension mediaType

/-- `format_exec_error`. -/
def formatExecError : ExecError → String
  | .invalidGraph m => s!"invalid_graph: {m}"
  | .unknownProcess p => s!"unknown_process: {p}"
  | .backend m => s!"backend: {m}"
  | .perPixelComputation m => s!"per_pixel_computation: {m}"

/-- `str::parse::<u64>`: digits, after an optional plus sign, below `2^64`. -/
def parseU64 (text : String) : Option Nat :=
  let digits := match text.toList with
    | '+' :: rest => rest
    | cs => cs
  if digits.isEmpty || digits.any (fun c => !c.isDigit) then none
  else
    let n := digits.foldl (fun n c => 10 * n + (c.toNat - 48)) 0
    if n < 2 ^ 64 then some n else none

/-- The timeout, from the variable `ORBIT_JOB_TIMEOUT_SECS`. -/
def jobTimeoutSecs (var : Option String) : Nat :=
  ((var.bind parseU64).filter (fun n => decide (0 < n))).getD 600

/-- One call. -/
def ask (q : RunCall) : RunProgram (RunReply q) := request q

/-- The closure `record_terminal`. -/
def recordTerminal (outcome : String) : RunProgram Unit := do
  ask (.counterInc .etlJobsTotal [("outcome", outcome)] 1)
  let elapsed ← ask .elapsed
  ask (.histogramObserve .etlJobDurationSeconds [("outcome", outcome)] elapsed)

section RunJob

variable (jobId userId : String)

/-- `bus.publish` for this job. -/
def publish (kind : JobEventKind) : RunProgram Unit :=
  ask (.publish ⟨userId, jobId, kind⟩)

/-- Phase 3, after the asset is recorded: finalise. -/
def runFinalise : RunProgram RunOutcome := do
  let _ ← ask (.setProgress jobId (.finite 95))
  publish jobId userId .progress
  match ← ask (.setStatus jobId .finished) with
  | .error e => return .storeError e.toText
  | .ok _ =>
      let _ ← ask (.appendLog jobId "info" "job finished")
      let _ ← ask (.setProgress jobId (.finite 100))
      publish jobId userId .completed
      recordTerminal "finished"
      return .finished

/-- Phase 2, for a computed result: store the bytes and record the asset. -/
def runPersist (result : SyncResult) : RunProgram RunOutcome := do
  let assetName := defaultAssetName result.contentType
  let size := result.body.length
  match ← ask (.put ⟨jobId, assetName⟩ result.body) with
  | .error e =>
      let _ ← ask (.setStatus jobId .error)
      publish jobId userId .failed
      return .failed ("file_store: " ++ e.toText)
  | .ok _ =>
      match ← ask (.addAsset jobId ⟨assetName, result.contentType, size⟩) with
      | .error e =>
          let _ ← ask (.setStatus jobId .error)
          publish jobId userId .failed
          return .storeError ("add_asset: " ++ e.toText)
      | .ok _ => runFinalise jobId userId

/-- Phase 2, for an execution error. -/
def runFailed (e : ExecError) : RunProgram RunOutcome := do
  let detail := formatExecError e
  let _ ← ask (.appendLog jobId "error" ("executor failed: " ++ detail))
  let _ ← ask (.setStatus jobId .error)
  publish jobId userId .failed
  recordTerminal "error"
  return .failed detail

/-- The branch for a job that timed out. -/
def runTimedOut (timeoutSecs : Nat) : RunProgram RunOutcome := do
  let _ ← ask (.appendLog jobId "error" s!"job timed out after {timeoutSecs}s")
  let _ ← ask (.setStatus jobId .error)
  publish jobId userId .failed
  recordTerminal "timeout"
  return .failed s!"job timed out after {timeoutSecs}s"

/-- Phase 1, once the job is `Running`: compute. -/
def runCompute (timeoutSecs : Nat) (body : Json) : RunProgram RunOutcome := do
  let _ ← ask (.appendLog jobId "info" "job started")
  let _ ← ask (.setProgress jobId (.finite 10))
  publish jobId userId .progress
  match ← ask (.runSync body timeoutSecs) with
  | none => runTimedOut jobId userId timeoutSecs
  | some result =>
      let _ ← ask (.setProgress jobId (.finite 80))
      publish jobId userId .progress
      match result with
      | .ok result => runPersist jobId userId result
      | .error e => runFailed jobId userId e

/-- `run_job`. -/
def runJob (timeoutSecs : Nat) (body : Json) : RunProgram RunOutcome := do
  match ← ask (.setStatus jobId .queued) with
  | .error e => return .storeError e.toText
  | .ok _ =>
      publish jobId userId .started
      match ← ask (.setStatus jobId .running) with
      | .error e => return .storeError e.toText
      | .ok _ => runCompute jobId userId timeoutSecs body

end RunJob

/-- The calls of a run with their replies, in order. -/
abbrev RunTrace := List (Exchange RunReply)

section Traces

variable (jobId userId : String)

/-- The exchange of a `publish`. -/
def published (kind : JobEventKind) : Exchange RunReply :=
  ⟨.publish ⟨userId, jobId, kind⟩, ()⟩

/-- The exchange of a `set_status`. -/
def wrote (status : JobStatus) (r : Except JobError Unit) : Exchange RunReply :=
  ⟨.setStatus jobId status, r⟩

/-- The exchange of a `set_progress`. -/
def progressed (percent : F64) (r : Except JobError Unit) : Exchange RunReply :=
  ⟨.setProgress jobId percent, r⟩

/-- The exchange of an `append_log`. -/
def logged (level message : String) (r : Except JobError Unit) : Exchange RunReply :=
  ⟨.appendLog jobId level message, r⟩

/-- The exchanges of `record_terminal`. -/
def recorded (outcome : String) (elapsed : F64) : RunTrace :=
  [⟨.counterInc .etlJobsTotal [("outcome", outcome)] 1, ()⟩, ⟨.elapsed, elapsed⟩,
    ⟨.histogramObserve .etlJobDurationSeconds [("outcome", outcome)] elapsed, ()⟩]

/-- A run up to the executor call. -/
def computing (r₁ r₂ : Except JobError Unit) : RunTrace :=
  [wrote jobId .queued (.ok ()), published jobId userId .started,
    wrote jobId .running (.ok ()), logged jobId "info" "job started" r₁,
    progressed jobId (.finite 10) r₂, published jobId userId .progress]

/-- A run up to the end of the executor call, when it did not time out. -/
def executed (timeoutSecs : Nat) (body : Json) (result : Except ExecError SyncResult)
    (r₁ r₂ r₃ : Except JobError Unit) : RunTrace :=
  computing jobId userId r₁ r₂ ++
    [⟨.runSync body timeoutSecs, some result⟩, progressed jobId (.finite 80) r₃,
      published jobId userId .progress]

/-- The asset a run records for a result. -/
def resultAsset (result : SyncResult) : JobAsset :=
  ⟨defaultAssetName result.contentType, result.contentType, result.body.length⟩

/-- The exchange of the `put` of a result. -/
def stored (result : SyncResult) (r : Except FileError Unit) : Exchange RunReply :=
  ⟨.put ⟨jobId, defaultAssetName result.contentType⟩ result.body, r⟩

/-- The exchange of the `add_asset` of a result. -/
def attached (result : SyncResult) (r : Except JobError Unit) : Exchange RunReply :=
  ⟨.addAsset jobId (resultAsset result), r⟩

/-- The complete runs of `run_job`, one case for each place it returns. -/
inductive RunShape (timeoutSecs : Nat) (body : Json) : RunTrace → RunOutcome → Prop
  | queuedRejected (e : JobError) :
      RunShape timeoutSecs body [wrote jobId .queued (.error e)] (.storeError e.toText)
  | runningRejected (e : JobError) :
      RunShape timeoutSecs body
        [wrote jobId .queued (.ok ()), published jobId userId .started,
          wrote jobId .running (.error e)]
        (.storeError e.toText)
  | timedOut (r₁ r₂ r₃ r₄ : Except JobError Unit) (elapsed : F64) :
      RunShape timeoutSecs body
        (computing jobId userId r₁ r₂ ++ [⟨.runSync body timeoutSecs, none⟩,
          logged jobId "error" s!"job timed out after {timeoutSecs}s" r₃,
          wrote jobId .error r₄, published jobId userId .failed] ++ recorded "timeout" elapsed)
        (.failed s!"job timed out after {timeoutSecs}s")
  | execFailed (e : ExecError) (r₁ r₂ r₃ r₄ r₅ : Except JobError Unit) (elapsed : F64) :
      RunShape timeoutSecs body
        (executed jobId userId timeoutSecs body (.error e) r₁ r₂ r₃ ++
          [logged jobId "error" ("executor failed: " ++ formatExecError e) r₄,
            wrote jobId .error r₅, published jobId userId .failed] ++ recorded "error" elapsed)
        (.failed (formatExecError e))
  | putRejected (result : SyncResult) (e : FileError) (r₁ r₂ r₃ r₄ : Except JobError Unit) :
      RunShape timeoutSecs body
        (executed jobId userId timeoutSecs body (.ok result) r₁ r₂ r₃ ++
          [stored jobId result (.error e), wrote jobId .error r₄,
            published jobId userId .failed])
        (.failed ("file_store: " ++ e.toText))
  | addAssetRejected (result : SyncResult) (e : JobError) (r₁ r₂ r₃ r₄ : Except JobError Unit) :
      RunShape timeoutSecs body
        (executed jobId userId timeoutSecs body (.ok result) r₁ r₂ r₃ ++
          [stored jobId result (.ok ()), attached jobId result (.error e),
            wrote jobId .error r₄, published jobId userId .failed])
        (.storeError ("add_asset: " ++ e.toText))
  | finishedRejected (result : SyncResult) (e : JobError)
      (r₁ r₂ r₃ r₄ : Except JobError Unit) :
      RunShape timeoutSecs body
        (executed jobId userId timeoutSecs body (.ok result) r₁ r₂ r₃ ++
          [stored jobId result (.ok ()), attached jobId result (.ok ()),
            progressed jobId (.finite 95) r₄, published jobId userId .progress,
            wrote jobId .finished (.error e)])
        (.storeError e.toText)
  | finished (result : SyncResult) (r₁ r₂ r₃ r₄ r₅ r₆ : Except JobError Unit)
      (elapsed : F64) :
      RunShape timeoutSecs body
        (executed jobId userId timeoutSecs body (.ok result) r₁ r₂ r₃ ++
          [stored jobId result (.ok ()), attached jobId result (.ok ()),
            progressed jobId (.finite 95) r₄, published jobId userId .progress,
            wrote jobId .finished (.ok ()), logged jobId "info" "job finished" r₅,
            progressed jobId (.finite 100) r₆, published jobId userId .completed] ++
          recorded "finished" elapsed)
        .finished

variable {jobId userId} {timeoutSecs : Nat} {body : Json} {tr : RunTrace} {o : RunOutcome}

theorem path_ask_bind_iff {α : Type} {q : RunCall} {f : RunReply q → RunProgram α} {a : α} :
    Path (ask q >>= f) tr a ↔ ∃ r tr', tr = ⟨q, r⟩ :: tr' ∧ Path (f r) tr' a :=
  path_call_iff

theorem path_publish_bind_iff {α : Type} {kind : JobEventKind} {f : Unit → RunProgram α} {a : α} :
    Path (publish jobId userId kind >>= f) tr a ↔
      ∃ tr', tr = published jobId userId kind :: tr' ∧ Path (f ()) tr' a := by
  constructor
  · intro h
    obtain ⟨r, tr', rfl, h'⟩ := path_ask_bind_iff.mp h
    exact ⟨tr', rfl, h'⟩
  · rintro ⟨tr', rfl, h'⟩
    exact path_ask_bind_iff.mpr ⟨(), tr', rfl, h'⟩

/-- `record_terminal` and a return after it. -/
theorem trace_of_recordTerminal {outcome : String} {result : RunOutcome}
    (h : Path (recordTerminal outcome >>= fun _ => return result) tr o) :
    ∃ elapsed, tr = recorded outcome elapsed ∧ o = result := by
  obtain ⟨tr₁, tr₂, u, rfl, h₁, h₂⟩ := path_bind_iff.mp h
  obtain ⟨rfl, rfl⟩ := path_done_iff.mp h₂
  obtain ⟨_, tr₃, rfl, h₃⟩ := path_ask_bind_iff.mp h₁
  obtain ⟨elapsed, tr₄, rfl, h₄⟩ := path_ask_bind_iff.mp h₃
  obtain ⟨_, tr₅, rfl, h₅⟩ := path_call_iff.mp h₄
  obtain ⟨rfl, -⟩ := path_done_iff.mp h₅
  exact ⟨elapsed, rfl, rfl⟩

/-- The end of a branch that reports a failure without recording it. -/
theorem trace_of_failure {result : RunOutcome}
    (h : Path (do
      let _ ← ask (.setStatus jobId .error)
      publish jobId userId .failed
      return result) tr o) :
    ∃ r, tr = [wrote jobId .error r, published jobId userId .failed] ∧ o = result := by
  obtain ⟨r, tr₁, rfl, h₁⟩ := path_ask_bind_iff.mp h
  obtain ⟨tr₂, rfl, h₂⟩ := path_publish_bind_iff.mp h₁
  obtain ⟨rfl, rfl⟩ := path_done_iff.mp h₂
  exact ⟨r, rfl, rfl⟩

theorem runShape_of_runTimedOut {r₁ r₂ : Except JobError Unit}
    (h : Path (runTimedOut jobId userId timeoutSecs) tr o) :
    RunShape jobId userId timeoutSecs body
      (computing jobId userId r₁ r₂ ++ ⟨.runSync body timeoutSecs, none⟩ :: tr) o := by
  obtain ⟨r₃, tr₁, rfl, h₁⟩ := path_ask_bind_iff.mp h
  obtain ⟨r₄, tr₂, rfl, h₂⟩ := path_ask_bind_iff.mp h₁
  obtain ⟨tr₃, rfl, h₃⟩ := path_publish_bind_iff.mp h₂
  obtain ⟨elapsed, rfl, rfl⟩ := trace_of_recordTerminal h₃
  exact .timedOut r₁ r₂ r₃ r₄ elapsed

theorem runShape_of_runFailed {e : ExecError} {r₁ r₂ r₃ : Except JobError Unit}
    (h : Path (runFailed jobId userId e) tr o) :
    RunShape jobId userId timeoutSecs body
      (executed jobId userId timeoutSecs body (.error e) r₁ r₂ r₃ ++ tr) o := by
  obtain ⟨r₄, tr₁, rfl, h₁⟩ := path_ask_bind_iff.mp h
  obtain ⟨r₅, tr₂, rfl, h₂⟩ := path_ask_bind_iff.mp h₁
  obtain ⟨tr₃, rfl, h₃⟩ := path_publish_bind_iff.mp h₂
  obtain ⟨elapsed, rfl, rfl⟩ := trace_of_recordTerminal h₃
  exact .execFailed e r₁ r₂ r₃ r₄ r₅ elapsed

theorem runShape_of_runFinalise {result : SyncResult} {r₁ r₂ r₃ : Except JobError Unit}
    (h : Path (runFinalise jobId userId) tr o) :
    RunShape jobId userId timeoutSecs body
      (executed jobId userId timeoutSecs body (.ok result) r₁ r₂ r₃ ++
        stored jobId result (.ok ()) :: attached jobId result (.ok ()) :: tr) o := by
  obtain ⟨r₄, tr₁, rfl, h₁⟩ := path_ask_bind_iff.mp h
  obtain ⟨tr₂, rfl, h₂⟩ := path_publish_bind_iff.mp h₁
  obtain ⟨r, tr₃, rfl, h₃⟩ := path_ask_bind_iff.mp h₂
  cases r with
  | error e =>
      obtain ⟨rfl, rfl⟩ := path_done_iff.mp h₃
      exact .finishedRejected result e r₁ r₂ r₃ r₄
  | ok u =>
      obtain ⟨r₅, tr₄, rfl, h₄⟩ := path_ask_bind_iff.mp h₃
      obtain ⟨r₆, tr₅, rfl, h₅⟩ := path_ask_bind_iff.mp h₄
      obtain ⟨tr₆, rfl, h₆⟩ := path_publish_bind_iff.mp h₅
      obtain ⟨elapsed, rfl, rfl⟩ := trace_of_recordTerminal h₆
      exact .finished result r₁ r₂ r₃ r₄ r₅ r₆ elapsed

theorem runShape_of_runPersist {result : SyncResult} {r₁ r₂ r₃ : Except JobError Unit}
    (h : Path (runPersist jobId userId result) tr o) :
    RunShape jobId userId timeoutSecs body
      (executed jobId userId timeoutSecs body (.ok result) r₁ r₂ r₃ ++ tr) o := by
  obtain ⟨rp, tr₁, rfl, h₁⟩ := path_ask_bind_iff.mp h
  cases rp with
  | error e =>
      obtain ⟨r₄, rfl, rfl⟩ := trace_of_failure h₁
      exact .putRejected result e r₁ r₂ r₃ r₄
  | ok u =>
      obtain ⟨ra, tr₂, rfl, h₂⟩ := path_ask_bind_iff.mp h₁
      cases ra with
      | error e =>
          obtain ⟨r₄, rfl, rfl⟩ := trace_of_failure h₂
          exact .addAssetRejected result e r₁ r₂ r₃ r₄
      | ok u' =>
          exact runShape_of_runFinalise h₂

/-- **Every path of `run_job` is one of the listed runs.** -/
theorem runShape_of_path (h : Path (runJob jobId userId timeoutSecs body) tr o) :
    RunShape jobId userId timeoutSecs body tr o := by
  obtain ⟨rq, tr₁, rfl, h₁⟩ := path_ask_bind_iff.mp h
  cases rq with
  | error e =>
      obtain ⟨rfl, rfl⟩ := path_done_iff.mp h₁
      exact .queuedRejected e
  | ok u =>
      obtain ⟨tr₂, rfl, h₂⟩ := path_publish_bind_iff.mp h₁
      obtain ⟨rr, tr₃, rfl, h₃⟩ := path_ask_bind_iff.mp h₂
      cases rr with
      | error e =>
          obtain ⟨rfl, rfl⟩ := path_done_iff.mp h₃
          exact .runningRejected e
      | ok u' =>
          obtain ⟨r₁, tr₄, rfl, h₄⟩ := path_ask_bind_iff.mp h₃
          obtain ⟨r₂, tr₅, rfl, h₅⟩ := path_ask_bind_iff.mp h₄
          obtain ⟨tr₆, rfl, h₆⟩ := path_publish_bind_iff.mp h₅
          obtain ⟨re, tr₇, rfl, h₇⟩ := path_ask_bind_iff.mp h₆
          match re, h₇ with
          | none, h₇ => exact runShape_of_runTimedOut h₇
          | some result, h₇ =>
              obtain ⟨r₃, tr₈, rfl, h₈⟩ := path_ask_bind_iff.mp h₇
              obtain ⟨tr₉, rfl, h₉⟩ := path_publish_bind_iff.mp h₈
              cases result with
              | ok result => exact runShape_of_runPersist h₉
              | error e => exact runShape_of_runFailed h₉

end Traces

/-- A process that adds two numbers. -/
def sampleProcess : Json :=
  .obj [("process_graph", .obj [("sum", .obj [
    ("process_id", .str "add"),
    ("arguments", .obj [("x", .num (.posInt 1)), ("y", .num (.posInt 2))]),
    ("result", .bool true)])])]

end OrbitOpenEO
