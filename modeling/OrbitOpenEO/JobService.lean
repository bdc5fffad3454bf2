import OrbitOpenEO.Runner
import OrbitOpenEO.Lib.Run

/-!
# The job service

The routes under `/jobs` and the tasks they spawn, as one transition system.
A state holds the stores, the registry of in-flight jobs, the free permits and
the tasks: request handlers, and one `Run` for every accepted start, with its
supervisor and its runner.

Each handler and each supervisor is a small state machine with one state per
call it makes; the runner is the program `run_job`.  One step of the system is
one call of one task, in any order; the runtime is multi-threaded, so a spawned
supervisor may step before its handler does.

* `abort` only marks the runner; it may go on for a while (`Action.runner`)
  before the mark takes effect (`Action.drop`).
* A panic comes from the executor (`Action.panic`).
* The event bus and the metrics recorder only receive and are left out.
-/

namespace OrbitOpenEO

open Lib Lib.Program

/-- The requests that act on jobs.  `createJob` has passed its checks. -/
inductive Request where
  | createJob (title description : Option String) (process : Json)
  | updateJob (jobId : String) (title description : Option String)
  | deleteJob (jobId : String)
  | startProcessing (jobId : String)
  | discardResults (jobId : String)
  | downloadAsset (jobId assetName : String)

/-- What a handler answers. -/
inductive Response where
  | status (code : Nat)
  | problem (code : Nat) (error : String) (message : Option String)
  | created (id : String)
  | file (contentType contentLength : String) (body : Bytes)

/-- A request handler, at the call it makes next. -/
inductive Handler where
  | createJob (title description : Option String) (process : Json)
  | updateJob (jobId : String) (title description : Option String)
  | deleteJob (jobId : String)
  | startGet (jobId : String)
  | startAcquire (jobId : String) (record : JobRecord)
  | startSpawn (jobId : String) (record : JobRecord)
  | startRegister (jobId : String) (run : Nat)
  | discardGet (jobId : String)
  | discardCancel (jobId : String) (wasActive : Bool)
  | discardWrite (jobId : String)
  | downloadGet (jobId assetName : String)
  | downloadRead (key : FileKey) (asset : JobAsset)
  | replied (response : Response)

/-- The first state of a handler. -/
def Request.handler : Request → Handler
  | .createJob title description process => .createJob title description process
  | .updateJob jobId title description => .updateJob jobId title description
  | .deleteJob jobId => .deleteJob jobId
  | .startProcessing jobId => .startGet jobId
  | .discardResults jobId => .discardGet jobId
  | .downloadAsset jobId assetName => .downloadGet jobId assetName

/-- The supervisor task of a run, at the call it makes next. -/
inductive Supervisor where
  | spawning
  | selecting
  | aborting
  | cancelGet
  | cancelWrite
  | panicGet
  | panicWrite
  | deregistering
  | releasing
  | finished
deriving DecidableEq

/-- The runner task of a run. -/
inductive Runner where
  | unspawned
  | live (program : RunProgram RunOutcome) (aborting : Bool)
  | returned (outcome : RunOutcome)
  | panicked
  | aborted

/-- `JoinHandle::abort`: a task that still runs is marked. -/
def Runner.abort : Runner → Runner
  | .live program _ => .live program true
  | other => other

/-- One accepted start: its job, its supervisor with the cancel signal, and its
runner. -/
structure Run where
  jobId : String
  userId : String
  body : Json
  supervisor : Supervisor
  signal : Bool
  runner : Runner

/-- The run that a start of a job spawns. -/
def JobRecord.spawnRun (jobId : String) (record : JobRecord) : Run where
  jobId := jobId
  userId := record.userId
  body := record.process
  supervisor := .spawning
  signal := false
  runner := .unspawned

/-- `notify_one` on the cancel signal: the signal is kept until it is taken. -/
def Run.notifyOne (run : Run) : Run := { run with signal := true }

/-- `JobRegistry`: the run whose cancel signal and supervisor an entry holds. -/
abbrev JobRegistry := String → Option Nat

namespace JobRegistry

/-- `register`: an entry of the job is replaced. -/
def register (registry : JobRegistry) (id : String) (run : Nat) : JobRegistry :=
  Function.update registry id (some run)

/-- `deregister`: whatever entry the job has is removed. -/
def deregister (registry : JobRegistry) (id : String) : JobRegistry :=
  Function.update registry id none

end JobRegistry

/-- The state of the service.  `issued` are the job ids drawn so far. -/
structure Sys where
  jobs : InMemoryJobStore
  issued : List String
  files : InMemoryFileStore
  registry : JobRegistry
  permits : Nat
  timeoutVar : Option String
  handlers : List Handler
  runs : List Run

namespace Sys

/-- A service that has not served a request. -/
def initial (permits : Nat) (timeoutVar : Option String) : Sys where
  jobs := .empty
  issued := []
  files := .empty
  registry := fun _ => none
  permits := permits
  timeoutVar := timeoutVar
  handlers := []
  runs := []

/-- Replace a run. -/
def setRun (s : Sys) (k : Nat) (run : Run) : Sys := { s with runs := s.runs.set k run }

/-- `JobRegistry::cancel`: raise the signal of the registered run. -/
def cancel (s : Sys) (jobId : String) : Sys :=
  match s.registry jobId with
  | none => s
  | some k => { s with runs := s.runs.modify k Run.notifyOne }

end Sys

/-- `JobNotFound` and `Internal`, the two answers to a failed `get`. -/
def jobProblem : JobError → Response
  | .notFound _ => .problem 404 "JobNotFound" none
  | e => .problem 500 "Internal" (some e.toText)

/-- The `DEFAULT_USER` of the routes. -/
def DEFAULT_USER : String := "anonymous"

/-- One call of a handler: its next state and the state of the service.  The
UUID drawn for a new job is one that was never drawn before. -/
def stepHandler (now : Nat) (uuid : String) (s : Sys) : Handler → Option (Handler × Sys)
  | .createJob title description process =>
      if uuid ∈ s.issued then none
      else
        some (.replied (.created uuid),
          { s with
            jobs := (s.jobs.create now uuid DEFAULT_USER title description process).2
            issued := uuid :: s.issued })
  | .updateJob jobId title description =>
      match s.jobs.setMetadata now jobId title description with
      | .ok jobs => some (.replied (.status 204), { s with jobs := jobs })
      | .error e => some (.replied (jobProblem e), s)
  | .deleteJob jobId => some (.replied (.status 204), { s with jobs := s.jobs.delete jobId })
  | .startGet jobId =>
      match s.jobs.get jobId with
      | .error e => some (.replied (jobProblem e), s)
      | .ok record =>
          if record.status.isActive then
            some (.replied (.problem 409 "JobLocked"
              (some ("job '" ++ jobId ++ "' is already " ++ record.status.asStr))), s)
          else some (.startAcquire jobId record, s)
  | .startAcquire jobId record =>
      if s.permits = 0 then
        some (.replied (.problem 503 "QueueFull"
          (some "maximum concurrent jobs reached; retry later")), s)
      else some (.startSpawn jobId record, { s with permits := s.permits - 1 })
  | .startSpawn jobId record =>
      some (.startRegister jobId s.runs.length,
        { s with runs := s.runs ++ [record.spawnRun jobId] })
  | .startRegister jobId run =>
      some (.replied (.status 202),
        { s with registry := s.registry.register jobId run })
  | .discardGet jobId =>
      match s.jobs.get jobId with
      | .error e => some (.replied (jobProblem e), s)
      | .ok record => some (.discardCancel jobId record.status.isActive, s)
  | .discardCancel jobId wasActive =>
      some (if wasActive then .discardWrite jobId else .replied (.status 204), s.cancel jobId)
  | .discardWrite jobId =>
      some (.replied (.status 204),
        { s with jobs := (s.jobs.setStatus now jobId .canceled).toOption.getD s.jobs })
  | .downloadGet jobId assetName =>
      match s.jobs.get jobId with
      | .error e => some (.replied (jobProblem e), s)
      | .ok record =>
          match record.assets.find? (fun a => a.name == assetName) with
          | none =>
              some (.replied (.problem 404 "ResultNotFound"
                (some ("asset '" ++ assetName ++ "' not produced by job '" ++ jobId ++ "'"))), s)
          | some asset => some (.downloadRead ⟨record.id, asset.name⟩ asset, s)
  | .downloadRead key asset =>
      match s.files.get key with
      | .ok bytes => some (.replied (.file asset.mediaType (toString asset.size) bytes), s)
      | .error .notFound => some (.replied (.problem 404 "ResultNotFound" none), s)
      | .error e => some (.replied (.problem 500 "Internal" (some e.toText)), s)
  | .replied _ => none

/-- One call of the supervisor of run `k`.  At the `select!` it takes the branch
`notified` asks for, if that one is ready. -/
def stepSupervisor (now : Nat) (notified : Bool) (s : Sys) (k : Nat) (run : Run) : Option Sys :=
  match run.supervisor with
  | .spawning =>
      some (s.setRun k
        { run with
          supervisor := .selecting
          runner :=
            .live (runJob run.jobId run.userId (jobTimeoutSecs s.timeoutVar) run.body) false })
  | .selecting =>
      if notified then
        if run.signal then
          some (s.setRun k { run with supervisor := .aborting, signal := false })
        else none
      else
        match run.runner with
        | .returned _ => some (s.setRun k { run with supervisor := .deregistering })
        | .panicked => some (s.setRun k { run with supervisor := .panicGet })
        | .aborted => some (s.setRun k { run with supervisor := .deregistering })
        | _ => none
  | .aborting =>
      some (s.setRun k { run with supervisor := .cancelGet, runner := run.runner.abort })
  | .cancelGet =>
      match s.jobs.get run.jobId with
      | .error _ => some (s.setRun k { run with supervisor := .deregistering })
      | .ok record =>
          some (s.setRun k
            { run with
              supervisor := if record.status.isTerminal then .deregistering else .cancelWrite })
  | .cancelWrite =>
      some { s.setRun k { run with supervisor := .deregistering } with
        jobs := (s.jobs.setStatus now run.jobId .canceled).toOption.getD s.jobs }
  | .panicGet =>
      match s.jobs.get run.jobId with
      | .error _ => some (s.setRun k { run with supervisor := .deregistering })
      | .ok record =>
          some (s.setRun k
            { run with
              supervisor := if record.status.isTerminal then .deregistering else .panicWrite })
  | .panicWrite =>
      some { s.setRun k { run with supervisor := .deregistering } with
        jobs := (s.jobs.setStatus now run.jobId .error).toOption.getD s.jobs }
  | .deregistering =>
      some { s.setRun k { run with supervisor := .releasing } with
        registry := s.registry.deregister run.jobId }
  | .releasing =>
      some { s.setRun k { run with supervisor := .finished } with permits := s.permits + 1 }
  | .finished => none

/-- The reply to a call of the runner and the stores after it. -/
def perform (now : Nat) (exec : Option (Except ExecError SyncResult)) (elapsed : F64)
    (jobs : InMemoryJobStore) (files : InMemoryFileStore) :
    (q : RunCall) → RunReply q × InMemoryJobStore × InMemoryFileStore
  | .setStatus id status =>
      match jobs.setStatus now id status with
      | .ok jobs' => (.ok (), jobs', files)
      | .error e => (.error e, jobs, files)
  | .setProgress id progress =>
      match jobs.setProgress now id progress with
      | .ok jobs' => (.ok (), jobs', files)
      | .error e => (.error e, jobs, files)
  | .appendLog id level message =>
      match jobs.appendLog now id level message with
      | .ok jobs' => (.ok (), jobs', files)
      | .error e => (.error e, jobs, files)
  | .addAsset id asset =>
      match jobs.addAsset now id asset with
      | .ok jobs' => (.ok (), jobs', files)
      | .error e => (.error e, jobs, files)
  | .put key bytes =>
      match files.put key bytes with
      | .ok files' => (.ok (), jobs, files')
      | .error e => (.error e, jobs, files)
  | .publish _ => ((), jobs, files)
  | .counterInc _ _ _ => ((), jobs, files)
  | .elapsed => (elapsed, jobs, files)
  | .histogramObserve _ _ _ => ((), jobs, files)
  | .runSync _ _ => (exec, jobs, files)

/-- One call of the runner of run `k`, or its return. -/
def stepRunner (now : Nat) (exec : Option (Except ExecError SyncResult)) (elapsed : F64)
    (s : Sys) (k : Nat) (run : Run) : Option Sys :=
  match run.runner with
  | .live (.call q next) aborting =>
      let (reply, jobs, files) := perform now exec elapsed s.jobs s.files q
      some { s.setRun k { run with runner := .live (next reply) aborting } with
        jobs := jobs, files := files }
  | .live (.done outcome) _ => some (s.setRun k { run with runner := .returned outcome })
  | _ => none

/-- The steps of the service. -/
inductive Action where
  | arrive (request : Request)
  | handler (h now : Nat) (uuid : String)
  | supervisor (k now : Nat) (notified : Bool)
  | runner (k now : Nat) (exec : Option (Except ExecError SyncResult)) (elapsed : F64)
  | panic (k : Nat)
  | drop (k : Nat)

/-- One step of the service. -/
def step (s : Sys) : Action → Option Sys
  | .arrive request => some { s with handlers := s.handlers ++ [request.handler] }
  | .handler h now uuid => do
      let handler ← s.handlers[h]?
      let (handler', s') ← stepHandler now uuid s handler
      some { s' with handlers := s'.handlers.set h handler' }
  | .supervisor k now notified => do
      let run ← s.runs[k]?
      stepSupervisor now notified s k run
  | .runner k now exec elapsed => do
      let run ← s.runs[k]?
      stepRunner now exec elapsed s k run
  | .panic k => do
      let run ← s.runs[k]?
      match run.runner with
      | .live (.call (.runSync _ _) _) _ => some (s.setRun k { run with runner := .panicked })
      | _ => none
  | .drop k => do
      let run ← s.runs[k]?
      match run.runner with
      | .live _ true => some (s.setRun k { run with runner := .aborted })
      | _ => none

end OrbitOpenEO
