import OrbitOpenEO.FileStoreAgreement
import OrbitOpenEO.JobService.Assets
import OrbitOpenEO.JobStoreAgreement
import OrbitOpenEO.JobStoreImpl

/-!
# The calls of the stores

The service holds its stores behind the traits `JobStore` and `FileStore`.  `Shell` is the
service without them, and a step of it is a `Call`: at most one operation on a store, and
what the service does with the reply.  On the stores in memory this is the step of the job
service (`step_eq_ask`); the same calls can be made on any other stores.
-/

namespace OrbitOpenEO

open Lib Lib.Program

/-- A step: at most one operation on a store, and what comes of the reply. -/
inductive Call (α : Type) where
  | done (a : α)
  | jobs (op : StoreOp) (next : StoreReply → α)
  | files (op : FileOp) (next : FileReply → α)

namespace Call

variable {α β σ τ : Type}

/-- The same operation, with another use of the reply. -/
def map (f : α → β) : Call α → Call β
  | .done a => .done (f a)
  | .jobs op next => .jobs op fun reply => f (next reply)
  | .files op next => .files op fun reply => f (next reply)

/-- The call on two stores. -/
def on (jobStep : σ → StoreOp → StoreReply × σ) (fileStep : τ → FileOp → FileReply × τ)
    (jobs : σ) (files : τ) : Call α → α × σ × τ
  | .done a => (a, jobs, files)
  | .jobs op next =>
      let (reply, jobs) := jobStep jobs op
      (next reply, jobs, files)
  | .files op next =>
      let (reply, files) := fileStep files op
      (next reply, jobs, files)

theorem on_map (f : α → β) (jobStep : σ → StoreOp → StoreReply × σ)
    (fileStep : τ → FileOp → FileReply × τ) (jobs : σ) (files : τ) (c : Call α) :
    (c.map f).on jobStep fileStep jobs files =
      (f (c.on jobStep fileStep jobs files).1, (c.on jobStep fileStep jobs files).2) := by
  cases c <;> rfl

end Call

/-- The record that was read or created. -/
def StoreReply.toRecord : StoreReply → Except JobError JobRecord
  | .record r => r
  | _ => .error (.backend "")

/-- The bytes that were read. -/
def FileAnswer.toBytes : FileAnswer → Bytes
  | .bytes content => content
  | _ => []

/-- The clock is a `u64`. -/
def clock (now : Nat) : UInt64 := UInt64.ofNat now

theorem toNat_clock {now : Nat} (h : now < 2 ^ 64) : (clock now).toNat = now :=
  UInt64.toNat_ofNat_of_lt' h

/-- The service without its stores. -/
structure Shell where
  issued : List String
  registry : JobRegistry
  permits : Nat
  timeoutVar : Option String
  handlers : List Handler
  runs : List Run

/-- The service on the stores in memory, without them. -/
def Sys.shell (s : Sys) : Shell where
  issued := s.issued
  registry := s.registry
  permits := s.permits
  timeoutVar := s.timeoutVar
  handlers := s.handlers
  runs := s.runs

namespace Shell

/-- The service on these stores. -/
def on (s : Shell) (jobs : InMemoryJobStore) (files : InMemoryFileStore) : Sys where
  jobs := jobs
  issued := s.issued
  files := files
  registry := s.registry
  permits := s.permits
  timeoutVar := s.timeoutVar
  handlers := s.handlers
  runs := s.runs

/-- Replace a run. -/
def setRun (s : Shell) (k : Nat) (run : Run) : Shell := { s with runs := s.runs.set k run }

/-- `JobRegistry::cancel`. -/
def cancel (s : Shell) (jobId : String) : Shell :=
  match s.registry jobId with
  | none => s
  | some k => { s with runs := s.runs.modify k Run.notifyOne }

/-- One call of a handler.  A `create` or a `delete` that fails is answered, too. -/
def askHandler (now : Nat) (uuid : String) (s : Shell) : Handler → Option (Call (Handler × Shell))
  | .createJob title description process =>
      if uuid ∈ s.issued then none
      else
        some (.jobs (.create (clock now) uuid DEFAULT_USER title description process) fun reply =>
          (.replied (match reply.toRecord with
            | .ok record => .created record.id
            | .error e => .problem 500 "Internal" (some e.toText)),
            { s with issued := uuid :: s.issued }))
  | .updateJob jobId title description =>
      some (.jobs (.setMetadata (clock now) jobId title description) fun reply =>
        (.replied (match reply.toUnit with
          | .ok _ => .status 204
          | .error e => jobProblem e), s))
  | .deleteJob jobId =>
      some (.jobs (.delete jobId) fun reply =>
        (.replied (match reply.toUnit with
          | .ok _ => .status 204
          | .error (.notFound _) =>
              .problem 404 "JobNotFound" (some ("job '" ++ jobId ++ "' not found"))
          | .error e => jobProblem e), s))
  | .startGet jobId =>
      some (.jobs (.get jobId) fun reply =>
        (match reply.toRecord with
        | .error e => .replied (jobProblem e)
        | .ok record =>
            if record.status.isActive then
              .replied (.problem 409 "JobLocked"
                (some ("job '" ++ jobId ++ "' is already " ++ record.status.asStr)))
            else .startAcquire jobId record, s))
  | .startAcquire jobId record =>
      some (.done
        (if s.permits = 0 then
          (.replied (.problem 503 "QueueFull"
            (some "maximum concurrent jobs reached; retry later")), s)
        else (.startSpawn jobId record, { s with permits := s.permits - 1 })))
  | .startSpawn jobId record =>
      some (.done (.startRegister jobId s.runs.length,
        { s with runs := s.runs ++ [record.spawnRun jobId] }))
  | .startRegister jobId run =>
      some (.done (.replied (.status 202), { s with registry := s.registry.register jobId run }))
  | .discardGet jobId =>
      some (.jobs (.get jobId) fun reply =>
        (match reply.toRecord with
        | .error e => .replied (jobProblem e)
        | .ok record => .discardCancel jobId record.status.isActive, s))
  | .discardCancel jobId wasActive =>
      some (.done
        (if wasActive then .discardWrite jobId else .replied (.status 204), s.cancel jobId))
  | .discardWrite jobId =>
      some (.jobs (.setStatus (clock now) jobId .canceled) fun _ => (.replied (.status 204), s))
  | .downloadGet jobId assetName =>
      some (.jobs (.get jobId) fun reply =>
        (match reply.toRecord with
        | .error e => .replied (jobProblem e)
        | .ok record =>
            match record.assets.find? (fun a => a.name == assetName) with
            | none =>
                .replied (.problem 404 "ResultNotFound"
                  (some ("asset '" ++ assetName ++ "' not produced by job '" ++ jobId ++ "'")))
            | some asset => .downloadRead ⟨record.id, asset.name⟩ asset, s))
  | .downloadRead key asset =>
      some (.files (.get key) fun reply =>
        (.replied (match reply with
          | .ok answer => .file asset.mediaType (toString asset.size) answer.toBytes
          | .error .notFound => .problem 404 "ResultNotFound" none
          | .error e => .problem 500 "Internal" (some e.toText)), s))
  | .replied _ => none

/-- A supervisor that reads the job before it writes a status. -/
def askStatus (s : Shell) (k : Nat) (run : Run) (due : Supervisor) : Call Shell :=
  .jobs (.get run.jobId) fun reply =>
    s.setRun k
      { run with
        supervisor :=
          match reply.toRecord with
          | .error _ => .deregistering
          | .ok record => if record.status.isTerminal then .deregistering else due }

/-- One call of the supervisor of run `k`. -/
def askSupervisor (now : Nat) (notified : Bool) (s : Shell) (k : Nat) (run : Run) :
    Option (Call Shell) :=
  match run.supervisor with
  | .spawning =>
      some (.done (s.setRun k
        { run with
          supervisor := .selecting
          runner :=
            .live (runJob run.jobId run.userId (jobTimeoutSecs s.timeoutVar) run.body) false }))
  | .selecting =>
      if notified then
        if run.signal then
          some (.done (s.setRun k { run with supervisor := .aborting, signal := false }))
        else none
      else
        match run.runner with
        | .returned _ => some (.done (s.setRun k { run with supervisor := .deregistering }))
        | .panicked => some (.done (s.setRun k { run with supervisor := .panicGet }))
        | .aborted => some (.done (s.setRun k { run with supervisor := .deregistering }))
        | _ => none
  | .aborting =>
      some (.done
        (s.setRun k { run with supervisor := .cancelGet, runner := run.runner.abort }))
  | .cancelGet => some (s.askStatus k run .cancelWrite)
  | .cancelWrite =>
      some (.jobs (.setStatus (clock now) run.jobId .canceled) fun _ =>
        s.setRun k { run with supervisor := .deregistering })
  | .panicGet => some (s.askStatus k run .panicWrite)
  | .panicWrite =>
      some (.jobs (.setStatus (clock now) run.jobId .error) fun _ =>
        s.setRun k { run with supervisor := .deregistering })
  | .deregistering =>
      some (.done { s.setRun k { run with supervisor := .releasing } with
        registry := s.registry.deregister run.jobId })
  | .releasing =>
      some (.done { s.setRun k { run with supervisor := .finished } with
        permits := s.permits + 1 })
  | .finished => none

end Shell

/-- A call of the runner, as a call of a store. -/
def RunCall.ask (now : Nat) (exec : Option (Except ExecError SyncResult)) (elapsed : F64) :
    (q : RunCall) → Call (RunReply q)
  | .setStatus id status => .jobs (.setStatus (clock now) id status) StoreReply.toUnit
  | .setProgress id progress => .jobs (.setProgress (clock now) id progress) StoreReply.toUnit
  | .appendLog id level message =>
      .jobs (.appendLog (clock now) id level message) StoreReply.toUnit
  | .addAsset id asset => .jobs (.addAsset (clock now) id asset) StoreReply.toUnit
  | .put key bytes => .files (.put key bytes) fun reply => reply.map fun _ => ()
  | .publish _ => .done ()
  | .counterInc _ _ _ => .done ()
  | .elapsed => .done elapsed
  | .histogramObserve _ _ _ => .done ()
  | .runSync _ _ => .done exec

namespace Shell

/-- One call of the runner of run `k`, or its return. -/
def askRunner (now : Nat) (exec : Option (Except ExecError SyncResult)) (elapsed : F64)
    (s : Shell) (k : Nat) (run : Run) : Option (Call Shell) :=
  match run.runner with
  | .live (.call q next) aborting =>
      some ((q.ask now exec elapsed).map fun reply =>
        s.setRun k { run with runner := .live (next reply) aborting })
  | .live (.done outcome) _ =>
      some (.done (s.setRun k { run with runner := .returned outcome }))
  | _ => none

/-- One step of the service. -/
def ask (s : Shell) : Action → Option (Call Shell)
  | .arrive request => some (.done { s with handlers := s.handlers ++ [request.handler] })
  | .handler h now uuid => do
      let handler ← s.handlers[h]?
      let c ← s.askHandler now uuid handler
      some (c.map fun (handler', s') => { s' with handlers := s'.handlers.set h handler' })
  | .supervisor k now notified => do
      let run ← s.runs[k]?
      s.askSupervisor now notified k run
  | .runner k now exec elapsed => do
      let run ← s.runs[k]?
      s.askRunner now exec elapsed k run
  | .panic k => do
      let run ← s.runs[k]?
      match run.runner with
      | .live (.call (.runSync _ _) _) _ =>
          some (.done (s.setRun k { run with runner := .panicked }))
      | _ => none
  | .drop k => do
      let run ← s.runs[k]?
      match run.runner with
      | .live _ true => some (.done (s.setRun k { run with runner := .aborted }))
      | _ => none

end Shell

/-- The reading of the clock in a step. -/
def Action.now : Action → Nat
  | .handler _ now _ => now
  | .supervisor _ now _ => now
  | .runner _ now _ _ => now
  | _ => 0

/-- The call on the stores in memory. -/
def Call.onMemory {α : Type} (c : Call α) (jobs : InMemoryJobStore) (files : InMemoryFileStore) :
    α × InMemoryJobStore × InMemoryFileStore :=
  c.on InMemoryJobStore.step InMemoryFileStore.step jobs files

/-- The service after a call on its stores. -/
def Call.after (c : Call Shell) (s : Sys) : Sys :=
  (c.onMemory s.jobs s.files).1.on (c.onMemory s.jobs s.files).2.1 (c.onMemory s.jobs s.files).2.2

section Memory

variable {s : Sys} {now k : Nat} {run : Run}

theorem settle_eq (store : InMemoryJobStore) (r : Except JobError InMemoryJobStore) :
    settle store r = (.unit (r.map fun _ => ()), r.toOption.getD store) := by
  cases r <;> rfl

theorem shell_cancel (s : Sys) (jobId : String) :
    (s.shell.cancel jobId).on s.jobs s.files = s.cancel jobId := by
  have hregistry : s.shell.registry jobId = s.registry jobId := rfl
  unfold Sys.cancel Shell.cancel
  rw [hregistry]
  cases s.registry jobId <;> rfl

/-- A handler calls the stores in memory as it does in the job service. -/
theorem stepHandler_eq_ask (hnow : now < 2 ^ 64) (uuid : String) (hd : Handler) :
    stepHandler now uuid s hd = (s.shell.askHandler now uuid hd).map fun c =>
      ((c.onMemory s.jobs s.files).1.1,
        (c.onMemory s.jobs s.files).1.2.on (c.onMemory s.jobs s.files).2.1
          (c.onMemory s.jobs s.files).2.2) := by
  have hclock := toNat_clock hnow
  cases hd with
  | createJob title description process =>
      have hissued : s.shell.issued = s.issued := rfl
      simp only [stepHandler, Shell.askHandler, hissued]
      by_cases hdrawn : uuid ∈ s.issued
      · rw [if_pos hdrawn, if_pos hdrawn]
        rfl
      · rw [if_neg hdrawn, if_neg hdrawn]
        simp only [Option.map_some, Call.onMemory, Call.on, InMemoryJobStore.step, hclock]
        rfl
  | updateJob jobId title description =>
      simp only [stepHandler, Shell.askHandler, Option.map_some, Call.onMemory, Call.on,
        InMemoryJobStore.step, hclock, settle_eq]
      cases s.jobs.setMetadata now jobId title description <;> rfl
  | deleteJob jobId => rfl
  | startGet jobId =>
      simp only [stepHandler, Shell.askHandler, Option.map_some, Call.onMemory, Call.on,
        InMemoryJobStore.step, StoreReply.toRecord]
      cases s.jobs.get jobId with
      | error e => rfl
      | ok record => dsimp only; split_ifs <;> rfl
  | startAcquire jobId record =>
      simp only [stepHandler, Shell.askHandler, Option.map_some, Call.onMemory, Call.on]
      by_cases hfree : s.permits = 0
      · have hfree' : s.shell.permits = 0 := hfree
        rw [if_pos hfree, if_pos hfree']
        rfl
      · have hfree' : ¬ s.shell.permits = 0 := hfree
        rw [if_neg hfree, if_neg hfree']
        rfl
  | startSpawn jobId record => rfl
  | startRegister jobId run => rfl
  | discardGet jobId =>
      simp only [stepHandler, Shell.askHandler, Option.map_some, Call.onMemory, Call.on,
        InMemoryJobStore.step, StoreReply.toRecord]
      cases s.jobs.get jobId <;> rfl
  | discardCancel jobId wasActive =>
      simp only [stepHandler, Shell.askHandler, Option.map_some, Call.onMemory, Call.on]
      rw [shell_cancel]
  | discardWrite jobId =>
      simp only [stepHandler, Shell.askHandler, Option.map_some, Call.onMemory, Call.on,
        InMemoryJobStore.step, hclock, settle_eq]
      rfl
  | downloadGet jobId assetName =>
      simp only [stepHandler, Shell.askHandler, Option.map_some, Call.onMemory, Call.on,
        InMemoryJobStore.step, StoreReply.toRecord]
      cases s.jobs.get jobId with
      | error e => rfl
      | ok record =>
          dsimp only
          cases record.assets.find? (fun a => a.name == assetName) <;> rfl
  | downloadRead key asset =>
      simp only [stepHandler, Shell.askHandler, Option.map_some, Call.onMemory, Call.on,
        InMemoryFileStore.step]
      cases s.files.get key with
      | error e => cases e <;> rfl
      | ok content => rfl
  | replied response => rfl

theorem stepSupervisor_eq_ask (hnow : now < 2 ^ 64) (notified : Bool) :
    stepSupervisor now notified s k run =
      (s.shell.askSupervisor now notified k run).map (·.after s) := by
  have hclock := toNat_clock hnow
  unfold stepSupervisor Shell.askSupervisor
  cases run.supervisor with
  | selecting =>
      dsimp only
      split_ifs
      · rfl
      · rfl
      · cases run.runner <;> rfl
  | cancelGet =>
      simp only [Shell.askStatus, Option.map_some, Call.after, Call.onMemory, Call.on,
        InMemoryJobStore.step, StoreReply.toRecord]
      cases s.jobs.get run.jobId <;> rfl
  | panicGet =>
      simp only [Shell.askStatus, Option.map_some, Call.after, Call.onMemory, Call.on,
        InMemoryJobStore.step, StoreReply.toRecord]
      cases s.jobs.get run.jobId <;> rfl
  | cancelWrite =>
      simp only [Option.map_some, Call.after, Call.onMemory, Call.on, InMemoryJobStore.step,
        hclock, settle_eq]
      rfl
  | panicWrite =>
      simp only [Option.map_some, Call.after, Call.onMemory, Call.on, InMemoryJobStore.step,
        hclock, settle_eq]
      rfl
  | _ => rfl

theorem perform_eq_ask (hnow : now < 2 ^ 64) (exec : Option (Except ExecError SyncResult))
    (elapsed : F64) (jobs : InMemoryJobStore) (files : InMemoryFileStore) (q : RunCall) :
    perform now exec elapsed jobs files q = (q.ask now exec elapsed).onMemory jobs files := by
  have hclock := toNat_clock hnow
  cases q with
  | setStatus id status =>
      simp only [perform, RunCall.ask, Call.onMemory, Call.on, InMemoryJobStore.step, hclock,
        settle_eq]
      cases jobs.setStatus now id status <;> rfl
  | setProgress id progress =>
      simp only [perform, RunCall.ask, Call.onMemory, Call.on, InMemoryJobStore.step, hclock,
        settle_eq]
      cases jobs.setProgress now id progress <;> rfl
  | appendLog id level message =>
      simp only [perform, RunCall.ask, Call.onMemory, Call.on, InMemoryJobStore.step, hclock,
        settle_eq]
      cases jobs.appendLog now id level message <;> rfl
  | addAsset id asset =>
      simp only [perform, RunCall.ask, Call.onMemory, Call.on, InMemoryJobStore.step, hclock,
        settle_eq]
      cases jobs.addAsset now id asset <;> rfl
  | put key bytes =>
      simp only [perform, RunCall.ask, Call.onMemory, Call.on, InMemoryFileStore.step]
      cases files.put key bytes <;> rfl
  | _ => rfl

/-- **On the stores in memory** the calls of a step make the step of the job service. -/
theorem step_eq_ask (s : Sys) {a : Action} (hnow : a.now < 2 ^ 64) :
    step s a = (s.shell.ask a).map (·.after s) := by
  cases a with
  | arrive request => rfl
  | handler i now uuid =>
      have hhandlers : s.shell.handlers[i]? = s.handlers[i]? := rfl
      simp only [step, Shell.ask, hhandlers, Option.bind_eq_bind]
      cases s.handlers[i]? with
      | none => rfl
      | some hd =>
          have hnow' : now < 2 ^ 64 := hnow
          simp only [Option.bind_some, stepHandler_eq_ask hnow' uuid hd]
          cases s.shell.askHandler now uuid hd with
          | none => rfl
          | some c =>
              simp only [Option.map_some, Option.bind_some, Call.after, Call.onMemory, Call.on_map]
              rfl
  | supervisor i now notified =>
      have hruns : s.shell.runs[i]? = s.runs[i]? := rfl
      simp only [step, Shell.ask, hruns, Option.bind_eq_bind]
      cases s.runs[i]? with
      | none => rfl
      | some run => exact stepSupervisor_eq_ask hnow notified
  | runner i now exec elapsed =>
      have hruns : s.shell.runs[i]? = s.runs[i]? := rfl
      simp only [step, Shell.ask, hruns, Option.bind_eq_bind]
      cases s.runs[i]? with
      | none => rfl
      | some run =>
          simp only [Option.bind_some, stepRunner, Shell.askRunner]
          cases run.runner with
          | live program aborting =>
              cases program with
              | done outcome => rfl
              | call q next =>
                  have hnow' : now < 2 ^ 64 := hnow
                  simp only [perform_eq_ask hnow', Option.map_some, Call.after, Call.onMemory,
                    Call.on_map]
                  rfl
          | _ => rfl
  | panic i =>
      have hruns : s.shell.runs[i]? = s.runs[i]? := rfl
      simp only [step, Shell.ask, hruns, Option.bind_eq_bind]
      cases s.runs[i]? with
      | none => rfl
      | some run =>
          simp only [Option.bind_some]
          cases run.runner with
          | live program aborting =>
              cases program with
              | done outcome => rfl
              | call q next => cases q <;> rfl
          | _ => rfl
  | drop i =>
      have hruns : s.shell.runs[i]? = s.runs[i]? := rfl
      simp only [step, Shell.ask, hruns, Option.bind_eq_bind]
      cases s.runs[i]? with
      | none => rfl
      | some run =>
          simp only [Option.bind_some]
          cases run.runner with
          | live program aborting => cases aborting <;> rfl
          | _ => rfl

end Memory

end OrbitOpenEO
