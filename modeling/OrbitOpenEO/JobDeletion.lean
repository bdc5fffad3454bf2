import OrbitOpenEO.JobService
import OrbitOpenEO.JobStoreImpl

/-!
# Deleting a job that runs

`delete_job` asks the store to delete and answers by what the store reports.
Neither store reports that there was nothing to delete.  The runner of the job is
not told either: it goes on, and notices at the next call of the store whose
answer it heeds.

A `Service` holds a job store of any implementation, the file store and the
runners.  The calls that all other tasks make of the job store may come at any
time, and so may the start of a run, since its handler may have read the job
before it was deleted.  A task keeps the list of its calls; `exposed` reads off
that list whether a delete comes too late for it.
-/

namespace OrbitOpenEO

open Lib Lib.Program

/-- The status code of a response. -/
def Response.code : Response → Nat
  | .status code => code
  | .problem code _ _ => code
  | .created _ => 201
  | .file _ _ _ => 200

namespace JobDeletion

/-- A runner: its job, the calls it has made, and what is left of it unless it
was stopped. -/
structure RunTask where
  jobId : String
  made : RunTrace
  program : Option (RunProgram RunOutcome)

/-- The state.  `drawn` are the job ids drawn so far. -/
structure Service (σ : Type) where
  jobs : σ
  files : InMemoryFileStore
  drawn : List String
  tasks : List RunTask

/-- The steps.

* `other`: a call of the job store by any other task, a `delete` included.
* `start`: a run of a job is spawned.
* `call`: a runner makes its next call.
* `stop`: a runner panics, or its abort takes effect. -/
inductive Action (Fault : Type) where
  | other (op : StoreOp)
  | start (jobId userId : String) (timeoutSecs : Nat) (body : Json)
  | call (k : Nat) (now : UInt64) (fault : Option Fault)
      (exec : Option (Except ExecError SyncResult)) (elapsed : F64)
  | stop (k : Nat)

section Steps

variable {σ : Type} (impl : JobStoreImpl σ)

/-- The reply to a call of a runner and the stores after it. -/
def perform (now : UInt64) (fault : Option impl.Fault)
    (exec : Option (Except ExecError SyncResult)) (elapsed : F64)
    (jobs : σ) (files : InMemoryFileStore) : (q : RunCall) → RunReply q × σ × InMemoryFileStore
  | .setStatus id status =>
      let (reply, jobs) := impl.call fault jobs (.setStatus now id status)
      (reply, jobs, files)
  | .setProgress id progress =>
      let (reply, jobs) := impl.call fault jobs (.setProgress now id progress)
      (reply, jobs, files)
  | .appendLog id level message =>
      let (reply, jobs) := impl.call fault jobs (.appendLog now id level message)
      (reply, jobs, files)
  | .addAsset id asset =>
      let (reply, jobs) := impl.call fault jobs (.addAsset now id asset)
      (reply, jobs, files)
  | .put key bytes =>
      match files.put key bytes with
      | .ok files' => (.ok (), jobs, files')
      | .error e => (.error e, jobs, files)
  | .publish _ => ((), jobs, files)
  | .counterInc _ _ _ => ((), jobs, files)
  | .elapsed => (elapsed, jobs, files)
  | .histogramObserve _ _ _ => ((), jobs, files)
  | .runSync _ _ => (exec, jobs, files)

/-- One step.  The UUID of a new job is one that was never drawn before. -/
def step (s : Service σ) : Action impl.Fault → Option (Service σ)
  | .other op =>
      match op.creates with
      | some uuid =>
          if uuid ∈ s.drawn then none
          else some { s with jobs := (impl.step s.jobs op).2, drawn := uuid :: s.drawn }
      | none => some { s with jobs := (impl.step s.jobs op).2 }
  | .start jobId userId timeoutSecs body =>
      some { s with
        tasks := s.tasks ++ [⟨jobId, [], some (runJob jobId userId timeoutSecs body)⟩] }
  | .call k now fault exec elapsed => do
      let task ← s.tasks[k]?
      match task.program with
      | some (.call q next) =>
          let (reply, jobs, files) := perform impl now fault exec elapsed s.jobs s.files q
          some { s with
            jobs := jobs
            files := files
            tasks := s.tasks.set k ⟨task.jobId, task.made ++ [⟨q, reply⟩], some (next reply)⟩ }
      | _ => none
  | .stop k => do
      let task ← s.tasks[k]?
      some { s with tasks := s.tasks.set k { task with program := none } }

/-- The job and the exchange of a step of a runner. -/
def exchange (s : Service σ) : Action impl.Fault → Option (String × Exchange RunReply)
  | .call k now fault exec elapsed => do
      let task ← s.tasks[k]?
      match task.program with
      | some (.call q _) =>
          some (task.jobId, ⟨q, (perform impl now fault exec elapsed s.jobs s.files q).1⟩)
      | _ => none
  | _ => none

/-- `delete_job`. -/
def deleteJob (fault : Option impl.Fault) (id : String) (s : Service σ) : Response × Service σ :=
  let (result, jobs) := impl.call fault s.jobs (.delete id)
  let response :=
    match result with
    | .ok () => .status 204
    | .error (.notFound _) =>
        .problem 404 "JobNotFound" (some ("job '" ++ id ++ "' not found"))
    | .error e => .problem 500 "Internal" (some e.toText)
  (response, { s with jobs := jobs })

end Steps

/-- A file is stored under the job, or the job is said to be completed. -/
def reports (id : String) : Exchange RunReply → Bool
  | ⟨.put key _, .ok _⟩ => key.userId == id
  | ⟨.publish event, _⟩ => event.jobId == id && event.kind == .completed
  | _ => false

/-- The call sets this status and gets through. -/
def marks (status : JobStatus) : Exchange RunReply → Bool
  | ⟨.setStatus _ status', .ok _⟩ => status' == status
  | _ => false

/-- The executor timed out or failed. -/
def failsCompute : Exchange RunReply → Bool
  | ⟨.runSync _ _, some (.ok _)⟩ => false
  | ⟨.runSync _ _, _⟩ => true
  | _ => false

/-- The call is the `put` of the result. -/
def puts : Exchange RunReply → Bool
  | ⟨.put _ _, _⟩ => true
  | _ => false

/-- The call publishes `Completed`. -/
def completes : Exchange RunReply → Bool
  | ⟨.publish event, _⟩ => event.kind == .completed
  | _ => false

/-- **Where a delete comes too late.**  The run has written `Running`, its
computation has not failed and its result is not put; or it has written `Finished`
and has not published `Completed`. -/
def exposed (made : RunTrace) : Bool :=
  made.any (marks .running) && !made.any failsCompute && !made.any puts ||
    made.any (marks .finished) && !made.any completes

/-- The call is about this job: it updates the job, or puts a file that the file
store takes. -/
def addresses (id : String) : RunCall → Prop
  | .setStatus k _ => k = id
  | .setProgress k _ => k = id
  | .appendLog k _ _ => k = id
  | .addAsset k _ => k = id
  | .put key _ => validatePath key.path = .ok ()
  | _ => True

/-- The call is a `put`, or publishes `Completed`. -/
def mayReport : RunCall → Bool
  | .put _ _ => true
  | .publish event => event.kind == .completed
  | _ => false

/-- The replies to a run whose job is gone and whose computation succeeds. -/
def goneReply (id : String) : (q : RunCall) → RunReply q
  | .setStatus _ _ => .error (.notFound id)
  | .setProgress _ _ => .error (.notFound id)
  | .appendLog _ _ _ => .error (.notFound id)
  | .addAsset _ _ => .error (.notFound id)
  | .put _ _ => .ok ()
  | .publish _ => ()
  | .counterInc _ _ _ => ()
  | .elapsed => .finite 0
  | .histogramObserve _ _ _ => ()
  | .runSync _ _ => some (.ok ⟨"application/json", []⟩)

/-- A run without its job still gets to report. -/
def reachesReport (id : String) (program : RunProgram RunOutcome) : Prop :=
  (program.transcript (goneReply id)).any (reports id) = true

theorem reachesReport_now {id : String} {q : RunCall}
    {next : RunReply q → RunProgram RunOutcome} (h : reports id ⟨q, goneReply id q⟩ = true) :
    reachesReport id (.call q next) := by
  rw [reachesReport, transcript, List.any_cons, h, Bool.true_or]

theorem reachesReport_later {id : String} {q : RunCall}
    {next : RunReply q → RunProgram RunOutcome} (h : reachesReport id (next (goneReply id q))) :
    reachesReport id (.call q next) := by
  rw [reachesReport, transcript, List.any_cons, h, Bool.or_true]

/-- The calls made tell what is to come: a report only where the run is exposed,
and, where it is exposed, a report even without the job. -/
def Guarded (id : String) (made : RunTrace) : RunProgram RunOutcome → Prop
  | .done _ => exposed made = false
  | .call q next =>
      addresses id q ∧ (mayReport q = true → exposed made = true) ∧
        (exposed made = true → reachesReport id (.call q next))

theorem validatePath_defaultAssetName (contentType : String) :
    validatePath (defaultAssetName contentType) = .ok () := by
  unfold defaultAssetName assetExtension
  dsimp only
  split <;> decide

section RunJob

variable {id userId : String} {tr : RunTrace} {e : Exchange RunReply}

@[simp] theorem any_concat (f : Exchange RunReply → Bool) :
    (tr ++ [e]).any f = (tr.any f || f e) := by
  simp

/-- A run that is not exposed becomes so only by a status that gets through. -/
theorem exposed_concat (h : exposed tr = false) (hr : marks .running e = false)
    (hf : marks .finished e = false) : exposed (tr ++ [e]) = false := by
  unfold exposed at *
  simp only [any_concat, hr, hf, Bool.or_false]
  grind

/-- Calls after which a run is no more exposed than before. -/
def harmless (id : String) (q : RunCall) : Prop :=
  addresses id q ∧ mayReport q = false ∧
    ∀ r, marks .running ⟨q, r⟩ = false ∧ marks .finished ⟨q, r⟩ = false

theorem throughout_of_harmless :
    ∀ {p : RunProgram RunOutcome} {tr : RunTrace}, p.AllCalls (harmless id) → exposed tr = false →
      p.Throughout (Guarded id) tr
  | .done _, _, _, h => h
  | .call q next, tr, ⟨⟨haddr, hrep, hmarks⟩, hnext⟩, h => by
      refine ⟨⟨haddr, fun h' => ?_, fun h' => ?_⟩, fun r => ?_⟩
      · exact absurd h' (by simp [hrep])
      · exact absurd h' (by simp [h])
      · exact throughout_of_harmless (hnext r) (exposed_concat h (hmarks r).1 (hmarks r).2)

theorem harmless_failure (result : RunOutcome) :
    (do
      let _ ← ask (.setStatus id .error)
      publish id userId .failed
      return result : RunProgram RunOutcome).AllCalls (harmless id) := by
  refine ⟨⟨rfl, rfl, fun r => ?_⟩, fun r => ⟨⟨trivial, rfl, fun r => ⟨rfl, rfl⟩⟩, fun r => trivial⟩⟩
  cases r <;> exact ⟨rfl, rfl⟩

theorem harmless_recordTerminal (outcome : String) (result : RunOutcome) :
    (recordTerminal outcome >>= fun _ => return result : RunProgram RunOutcome).AllCalls
      (harmless id) :=
  ⟨⟨trivial, rfl, fun _ => ⟨rfl, rfl⟩⟩, fun _ => ⟨⟨trivial, rfl, fun _ => ⟨rfl, rfl⟩⟩, fun _ =>
    ⟨⟨trivial, rfl, fun _ => ⟨rfl, rfl⟩⟩, fun _ => trivial⟩⟩⟩

theorem harmless_runTimedOut (timeoutSecs : Nat) :
    (runTimedOut id userId timeoutSecs).AllCalls (harmless id) := by
  refine ⟨⟨rfl, rfl, fun _ => ⟨rfl, rfl⟩⟩, fun _ => ⟨⟨rfl, rfl, fun r => ?_⟩, fun _ =>
    ⟨⟨trivial, rfl, fun _ => ⟨rfl, rfl⟩⟩, fun _ => harmless_recordTerminal _ _⟩⟩⟩
  cases r <;> exact ⟨rfl, rfl⟩

theorem harmless_runFailed (error : ExecError) :
    (runFailed id userId error).AllCalls (harmless id) := by
  refine ⟨⟨rfl, rfl, fun _ => ⟨rfl, rfl⟩⟩, fun _ => ⟨⟨rfl, rfl, fun r => ?_⟩, fun _ =>
    ⟨⟨trivial, rfl, fun _ => ⟨rfl, rfl⟩⟩, fun _ => harmless_recordTerminal _ _⟩⟩⟩
  cases r <;> exact ⟨rfl, rfl⟩

/-- One call of a run that is exposed before it. -/
theorem throughout_call {q : RunCall} {next : RunReply q → RunProgram RunOutcome}
    (haddr : addresses id q) (hexp : exposed tr = true) (hreach : reachesReport id (.call q next))
    (hnext : ∀ r, (next r).Throughout (Guarded id) (tr ++ [⟨q, r⟩])) :
    (Program.call q next).Throughout (Guarded id) tr :=
  ⟨⟨haddr, fun _ => hexp, fun _ => hreach⟩, hnext⟩

/-- One call of a run that is not exposed. -/
theorem throughout_call_of_not_exposed {q : RunCall} {next : RunReply q → RunProgram RunOutcome}
    (haddr : addresses id q) (hexp : exposed tr = false) (hrep : mayReport q = false)
    (hnext : ∀ r, (next r).Throughout (Guarded id) (tr ++ [⟨q, r⟩])) :
    (Program.call q next).Throughout (Guarded id) tr := by
  refine ⟨⟨haddr, fun h => ?_, fun h => ?_⟩, hnext⟩
  · exact absurd h (by simp [hrep])
  · exact absurd h (by simp [hexp])

/-- The result is put, and the run has not written `Finished`. -/
structure Stored (tr : RunTrace) : Prop where
  put : tr.any puts = true
  finished : tr.any (marks .finished) = false
  completed : tr.any completes = false

theorem Stored.not_exposed (h : Stored tr) : exposed tr = false := by
  simp [exposed, h.put, h.finished]

theorem Stored.concat (h : Stored tr) (hf : marks .finished e = false) (hd : completes e = false) :
    Stored (tr ++ [e]) := by
  constructor
  · rw [any_concat, h.put, Bool.true_or]
  · rw [any_concat, h.finished, hf, Bool.false_or]
  · rw [any_concat, h.completed, hd, Bool.false_or]

theorem Stored.call {q : RunCall} {next : RunReply q → RunProgram RunOutcome} (h : Stored tr)
    (haddr : addresses id q) (hrep : mayReport q = false)
    (hq : ∀ r, marks .finished ⟨q, r⟩ = false ∧ completes ⟨q, r⟩ = false)
    (hnext : ∀ r, Stored (tr ++ [⟨q, r⟩]) → (next r).Throughout (Guarded id) (tr ++ [⟨q, r⟩])) :
    (Program.call q next).Throughout (Guarded id) tr :=
  throughout_call_of_not_exposed haddr h.not_exposed hrep fun r =>
    hnext r (h.concat (hq r).1 (hq r).2)

/-- The run has written `Finished`, and `Completed` is not published. -/
structure Finishing (tr : RunTrace) : Prop where
  put : tr.any puts = true
  finished : tr.any (marks .finished) = true
  completed : tr.any completes = false

theorem Finishing.isExposed (h : Finishing tr) : exposed tr = true := by
  simp [exposed, h.finished, h.completed]

theorem Finishing.call {q : RunCall} {next : RunReply q → RunProgram RunOutcome}
    (h : Finishing tr) (haddr : addresses id q) (hreach : reachesReport id (.call q next))
    (hq : ∀ r, completes ⟨q, r⟩ = false)
    (hnext : ∀ r, Finishing (tr ++ [⟨q, r⟩]) →
      (next r).Throughout (Guarded id) (tr ++ [⟨q, r⟩])) :
    (Program.call q next).Throughout (Guarded id) tr := by
  refine throughout_call haddr h.isExposed hreach fun r => hnext r ⟨?_, ?_, ?_⟩
  · rw [any_concat, h.put, Bool.true_or]
  · rw [any_concat, h.finished, Bool.true_or]
  · rw [any_concat, h.completed, hq r, Bool.false_or]

theorem Finishing.complete (h : Finishing tr) (he : completes e = true) :
    exposed (tr ++ [e]) = false := by
  simp [exposed, h.put, he]

theorem Stored.finish (h : Stored tr) (he : marks .finished e = true) (hd : completes e = false) :
    Finishing (tr ++ [e]) := by
  constructor
  · rw [any_concat, h.put, Bool.true_or]
  · rw [any_concat, he, Bool.or_true]
  · rw [any_concat, h.completed, hd, Bool.false_or]

/-- The run computes, or is about to put its result. -/
structure Computing (tr : RunTrace) : Prop where
  running : tr.any (marks .running) = true
  failed : tr.any failsCompute = false
  put : tr.any puts = false
  finished : tr.any (marks .finished) = false
  completed : tr.any completes = false

theorem Computing.isExposed (h : Computing tr) : exposed tr = true := by
  simp [exposed, h.running, h.failed, h.put]

theorem Computing.concat (h : Computing tr) (hc : failsCompute e = false) (hp : puts e = false)
    (hf : marks .finished e = false) (hd : completes e = false) : Computing (tr ++ [e]) := by
  constructor
  · rw [any_concat, h.running, Bool.true_or]
  · rw [any_concat, h.failed, hc, Bool.false_or]
  · rw [any_concat, h.put, hp, Bool.false_or]
  · rw [any_concat, h.finished, hf, Bool.false_or]
  · rw [any_concat, h.completed, hd, Bool.false_or]

theorem Computing.fail (h : Computing tr) (he : failsCompute e = true)
    (hf : marks .finished e = false) : exposed (tr ++ [e]) = false := by
  simp [exposed, he, hf, h.finished]

theorem Computing.store (h : Computing tr) (he : puts e = true) (hf : marks .finished e = false)
    (hd : completes e = false) : Stored (tr ++ [e]) := by
  constructor
  · rw [any_concat, he, Bool.or_true]
  · rw [any_concat, h.finished, hf, Bool.false_or]
  · rw [any_concat, h.completed, hd, Bool.false_or]

theorem Computing.call {q : RunCall} {next : RunReply q → RunProgram RunOutcome}
    (h : Computing tr) (haddr : addresses id q) (hreach : reachesReport id (.call q next))
    (hq : ∀ r, failsCompute ⟨q, r⟩ = false ∧ puts ⟨q, r⟩ = false ∧
      marks .finished ⟨q, r⟩ = false ∧ completes ⟨q, r⟩ = false)
    (hnext : ∀ r, Computing (tr ++ [⟨q, r⟩]) →
      (next r).Throughout (Guarded id) (tr ++ [⟨q, r⟩])) :
    (Program.call q next).Throughout (Guarded id) tr :=
  throughout_call haddr h.isExposed hreach fun r =>
    hnext r (h.concat (hq r).1 (hq r).2.1 (hq r).2.2.1 (hq r).2.2.2)

theorem reports_completed (userId : String) :
    reports id ⟨.publish ⟨userId, id, .completed⟩, ()⟩ = true := by
  simp [reports]

theorem throughout_runFinalise (h : Stored tr) :
    (runFinalise id userId).Throughout (Guarded id) tr := by
  refine h.call rfl rfl (fun _ => ⟨rfl, rfl⟩) fun r₁ h₁ => ?_
  refine h₁.call trivial rfl (fun _ => ⟨rfl, rfl⟩) fun r₂ h₂ => ?_
  refine throughout_call_of_not_exposed rfl h₂.not_exposed rfl fun r₃ => ?_
  cases r₃ with
  | error error =>
      exact (h₂.concat rfl rfl).not_exposed
  | ok u =>
      -- `Finished` is written, so a delete from here on is too late.
      refine Finishing.call (h₂.finish rfl rfl) rfl ?_ (fun _ => rfl) fun r₄ h₄ => ?_
      · exact reachesReport_later (reachesReport_later (reachesReport_now (reports_completed _)))
      refine h₄.call rfl ?_ (fun _ => rfl) fun r₅ h₅ => ?_
      · exact reachesReport_later (reachesReport_now (reports_completed _))
      refine throughout_call trivial h₅.isExposed (reachesReport_now (reports_completed _))
        fun r₆ => ?_
      exact throughout_of_harmless (harmless_recordTerminal _ _) (h₅.complete rfl)

theorem throughout_runPersist (h : Computing tr) (result : SyncResult) :
    (runPersist id userId result).Throughout (Guarded id) tr := by
  have hpath := validatePath_defaultAssetName result.contentType
  refine throughout_call hpath h.isExposed (reachesReport_now ?_) fun r₁ => ?_
  · simp [reports, goneReply]
  have h₁ : Stored (tr ++ [⟨.put ⟨id, defaultAssetName result.contentType⟩ result.body, r₁⟩]) :=
    h.store rfl rfl rfl
  cases r₁ with
  | error error =>
      exact throughout_of_harmless (harmless_failure _) h₁.not_exposed
  | ok u =>
      refine h₁.call rfl rfl (fun _ => ⟨rfl, rfl⟩) fun r₂ h₂ => ?_
      cases r₂ with
      | error error =>
          exact throughout_of_harmless (harmless_failure _) h₂.not_exposed
      | ok u =>
          exact throughout_runFinalise h₂

theorem reachesReport_runPersist (result : SyncResult) :
    reachesReport id (runPersist id userId result) := by
  refine reachesReport_now ?_
  simp [reports, goneReply]

theorem throughout_runCompute (h : Computing tr) (timeoutSecs : Nat) (body : Json) :
    (runCompute id userId timeoutSecs body).Throughout (Guarded id) tr := by
  have hput : reachesReport id (runPersist id userId ⟨"application/json", []⟩) :=
    reachesReport_runPersist _
  refine h.call rfl ?_ (fun _ => ⟨rfl, rfl, rfl, rfl⟩) fun r₁ h₁ => ?_
  · exact reachesReport_later (reachesReport_later (reachesReport_later (reachesReport_later
      (reachesReport_later (reachesReport_later hput)))))
  refine h₁.call rfl ?_ (fun _ => ⟨rfl, rfl, rfl, rfl⟩) fun r₂ h₂ => ?_
  · exact reachesReport_later (reachesReport_later (reachesReport_later
      (reachesReport_later (reachesReport_later hput))))
  refine h₂.call trivial ?_ (fun _ => ⟨rfl, rfl, rfl, rfl⟩) fun r₃ h₃ => ?_
  · exact reachesReport_later (reachesReport_later (reachesReport_later
      (reachesReport_later hput)))
  refine throughout_call trivial h₃.isExposed ?_ fun r₄ => ?_
  · exact reachesReport_later (reachesReport_later (reachesReport_later hput))
  match r₄ with
  | none =>
      exact throughout_of_harmless (harmless_runTimedOut timeoutSecs) (h₃.fail rfl rfl)
  | some (.error error) =>
      have h₄ := h₃.fail (e := ⟨.runSync body timeoutSecs, some (.error error)⟩) rfl rfl
      refine throughout_call_of_not_exposed rfl h₄ rfl fun r₅ => ?_
      have h₅ := exposed_concat (e := ⟨.setProgress id (.finite 80), r₅⟩) h₄ rfl rfl
      refine throughout_call_of_not_exposed trivial h₅ rfl fun r₆ => ?_
      exact throughout_of_harmless (harmless_runFailed error) (exposed_concat h₅ rfl rfl)
  | some (.ok result) =>
      have h₄ := h₃.concat (e := ⟨.runSync body timeoutSecs, some (.ok result)⟩) rfl rfl rfl rfl
      have hput : reachesReport id (runPersist id userId result) := reachesReport_runPersist result
      refine h₄.call rfl ?_ (fun _ => ⟨rfl, rfl, rfl, rfl⟩) fun r₅ h₅ => ?_
      · exact reachesReport_later (reachesReport_later hput)
      refine h₅.call trivial ?_ (fun _ => ⟨rfl, rfl, rfl, rfl⟩) fun r₆ h₆ => ?_
      · exact reachesReport_later hput
      exact throughout_runPersist h₆ result

/-- **At every point of a run** the calls made tell whether it still reports once
its job is gone. -/
theorem throughout_runJob (timeoutSecs : Nat) (body : Json) :
    (runJob id userId timeoutSecs body).Throughout (Guarded id) [] := by
  refine throughout_call_of_not_exposed rfl rfl rfl fun r₁ => ?_
  cases r₁ with
  | error error =>
      exact rfl
  | ok u =>
      refine throughout_call_of_not_exposed trivial rfl rfl fun r₂ => ?_
      refine throughout_call_of_not_exposed rfl rfl rfl fun r₃ => ?_
      cases r₃ with
      | error error =>
          exact rfl
      | ok u =>
          exact throughout_runCompute ⟨rfl, rfl, rfl, rfl, rfl⟩ timeoutSecs body

end RunJob
section Deletes

variable {σ : Type} (impl : JobStoreImpl σ)

/-- A service that has not spawned a run, with any jobs in its store. -/
structure Fresh (s : Service σ) : Prop where
  drawn : ∀ id, impl.has s.jobs id = true → id ∈ s.drawn
  tasks : s.tasks = []

/-- A state of a service that started fresh. -/
def Reachable (s : Service σ) : Prop :=
  ∃ s₀, Fresh impl s₀ ∧ Reach (step impl) AnyStep s₀ s

/-- A delete is answered as the API says, and a job said to be deleted is done
with. -/
structure Answered (s : Service σ) (fault : Option impl.Fault) (id : String) : Prop where
  missing : (deleteJob impl fault id s).1.code = 404 ↔ impl.has s.jobs id = false
  removed : (deleteJob impl fault id s).1.code = 204 ↔
    impl.has s.jobs id = true ∧ impl.has (deleteJob impl fault id s).2.jobs id = false
  quiet : (deleteJob impl fault id s).1.code = 204 →
    ∀ t, Reach (step impl) AnyStep (deleteJob impl fault id s).2 t →
      ∀ a e, exchange impl t a = some (id, e) → reports id e = false

/-- The job is there, and the delete comes before a run of it is exposed or after
that. -/
structure InTime (s : Service σ) (fault : Option impl.Fault) (id : String) : Prop where
  present : impl.has s.jobs id = true
  runs : fault = none → ∀ task ∈ s.tasks, task.jobId = id → task.program.isSome = true →
    exposed task.made = false

/-- What every state keeps to. -/
structure Coherent (s : Service σ) : Prop where
  drawn : ∀ id, impl.has s.jobs id = true → id ∈ s.drawn
  tasks : ∀ task ∈ s.tasks, ∀ p ∈ task.program, p.Throughout (Guarded task.jobId) task.made

/-- The job is gone for good, and no run of it is exposed. -/
structure Gone (id : String) (s : Service σ) : Prop where
  absent : impl.has s.jobs id = false
  drawn : id ∈ s.drawn
  tasks : ∀ task ∈ s.tasks, task.jobId = id → task.program.isSome = true →
    exposed task.made = false

variable {impl} {s t : Service σ} {now : UInt64} {fault : Option impl.Fault}
  {exec : Option (Except ExecError SyncResult)} {elapsed : F64} {jobs : σ}
  {files : InMemoryFileStore} {id : String}

theorem call_absent {op : StoreOp} (h : impl.has jobs id = false) (hop : op.creates = none) :
    impl.has (impl.call fault jobs op).2 id = false := by
  cases fault with
  | some e =>
      exact h
  | none =>
      refine Bool.eq_false_iff.mpr fun hhas => ?_
      rcases impl.has_step hhas with hjobs | hcreate
      · simp [h] at hjobs
      · simp [hop] at hcreate

/-- No call of a runner brings a job into the store. -/
theorem perform_absent (h : impl.has jobs id = false) (q : RunCall) :
    impl.has (perform impl now fault exec elapsed jobs files q).2.1 id = false := by
  cases q with
  | setStatus k status => exact call_absent h rfl
  | setProgress k progress => exact call_absent h rfl
  | appendLog k level message => exact call_absent h rfl
  | addAsset k asset => exact call_absent h rfl
  | put key bytes =>
      unfold perform
      dsimp only
      split <;> exact h
  | _ => exact h

/-- A status of a job that is gone is not written. -/
theorem marks_perform (h : impl.has jobs id = false) {q : RunCall} (hq : addresses id q)
    (status : JobStatus) :
    marks status ⟨q, (perform impl now fault exec elapsed jobs files q).1⟩ = false := by
  cases q with
  | setStatus k status' =>
      cases hq
      cases fault with
      | some e => rfl
      | none =>
          have hreply : (impl.step jobs (.setStatus now id status')).1.toUnit =
              .error (.notFound id) := impl.update_absent rfl h
          simp [marks, perform, JobStoreImpl.call, hreply]
  | _ => rfl

/-- The steps, by what they do. -/
inductive Transition (s : Service σ) : Action impl.Fault → Service σ → Prop
  | create {op : StoreOp} {uuid : String} : op.creates = some uuid → uuid ∉ s.drawn →
      Transition s (.other op)
        { s with jobs := (impl.step s.jobs op).2, drawn := uuid :: s.drawn }
  | other {op : StoreOp} : op.creates = none →
      Transition s (.other op) { s with jobs := (impl.step s.jobs op).2 }
  | start {jobId userId : String} {timeoutSecs : Nat} {body : Json} :
      Transition s (.start jobId userId timeoutSecs body)
        { s with tasks := s.tasks ++ [⟨jobId, [], some (runJob jobId userId timeoutSecs body)⟩] }
  | call {k : Nat} {now : UInt64} {fault : Option impl.Fault}
      {exec : Option (Except ExecError SyncResult)} {elapsed : F64} {task : RunTask}
      {q : RunCall} {next : RunReply q → RunProgram RunOutcome} :
      s.tasks[k]? = some task → task.program = some (.call q next) →
      Transition s (.call k now fault exec elapsed)
        { s with
          jobs := (perform impl now fault exec elapsed s.jobs s.files q).2.1
          files := (perform impl now fault exec elapsed s.jobs s.files q).2.2
          tasks := s.tasks.set k
            ⟨task.jobId,
              task.made ++ [⟨q, (perform impl now fault exec elapsed s.jobs s.files q).1⟩],
              some (next (perform impl now fault exec elapsed s.jobs s.files q).1)⟩ }
  | stop {k : Nat} {task : RunTask} : s.tasks[k]? = some task →
      Transition s (.stop k) { s with tasks := s.tasks.set k { task with program := none } }

theorem transition_of_step {a : Action impl.Fault} (h : step impl s a = some t) :
    Transition s a t := by
  cases a with
  | other op =>
      unfold step at h
      dsimp only at h
      split at h
      · rename_i uuid hop
        split_ifs at h with hdrawn
        cases h
        exact .create hop hdrawn
      · rename_i hop
        cases h
        exact .other hop
  | start jobId userId timeoutSecs body =>
      cases h
      exact .start
  | call k now fault exec elapsed =>
      obtain ⟨task, htask, h⟩ := Option.bind_eq_some_iff.mp h
      split at h
      · rename_i q next hp
        cases h
        exact .call htask hp
      · cases h
  | stop k =>
      obtain ⟨task, htask, h⟩ := Option.bind_eq_some_iff.mp h
      cases h
      exact .stop htask

/-- A task of a list with one task replaced. -/
theorem mem_set_cases {k : Nat} {x y : RunTask} {l : List RunTask} (h : y ∈ l.set k x) :
    y = x ∨ y ∈ l := by
  rcases List.mem_or_eq_of_mem_set h with hmem | rfl
  · exact .inr hmem
  · exact .inl rfl

theorem Fresh.coherent (h : Fresh impl s) : Coherent impl s where
  drawn := h.drawn
  tasks := by simp [h.tasks]

theorem Coherent.step (h : Coherent impl s) {a : Action impl.Fault} (ht : Transition s a t) :
    Coherent impl t := by
  cases ht with
  | create hop hdrawn =>
      refine ⟨fun id hid => ?_, h.tasks⟩
      rcases impl.has_step hid with hs | hc
      · exact List.mem_cons_of_mem _ (h.drawn id hs)
      · rw [hop, Option.some.injEq] at hc
        exact hc ▸ List.mem_cons_self
  | other hop =>
      refine ⟨fun id hid => ?_, h.tasks⟩
      rcases impl.has_step hid with hs | hc
      · exact h.drawn id hs
      · simp [hop] at hc
  | start =>
      refine ⟨h.drawn, fun task htask p hp => ?_⟩
      rcases List.mem_append.mp htask with hold | hnew
      · exact h.tasks task hold p hp
      · rw [List.mem_singleton] at hnew
        subst hnew
        cases hp
        exact throughout_runJob _ _
  | call htask hp =>
      refine ⟨fun id hid => h.drawn id ?_, fun task' htask' p' hp' => ?_⟩
      · by_contra habsent
        rw [Bool.not_eq_true] at habsent
        simp [perform_absent habsent] at hid
      · rcases mem_set_cases htask' with rfl | hold
        · cases hp'
          exact (h.tasks _ (List.mem_of_getElem? htask) _ hp).next _
        · exact h.tasks task' hold p' hp'
  | stop htask =>
      refine ⟨h.drawn, fun task' htask' p' hp' => ?_⟩
      rcases mem_set_cases htask' with rfl | hold
      · cases hp'
      · exact h.tasks task' hold p' hp'

theorem Reachable.coherent (h : Reachable impl s) : Coherent impl s := by
  obtain ⟨s₀, hs₀, hreach⟩ := h
  exact hreach.invariant hs₀.coherent fun t a u ht _ hstep => ht.step (transition_of_step hstep)

/-- A job that is gone stays so. -/
theorem Gone.step (h : Gone impl id s) (hs : Coherent impl s) {a : Action impl.Fault}
    (ht : Transition s a t) : Gone impl id t := by
  cases ht with
  | create hop hdrawn =>
      refine ⟨Bool.eq_false_iff.mpr fun hid => ?_, List.mem_cons_of_mem _ h.drawn, h.tasks⟩
      rcases impl.has_step hid with hhas | hc
      · simp [h.absent] at hhas
      · rw [hop, Option.some.injEq] at hc
        exact hdrawn (hc ▸ h.drawn)
  | other hop =>
      refine ⟨Bool.eq_false_iff.mpr fun hid => ?_, h.drawn, h.tasks⟩
      rcases impl.has_step hid with hhas | hc
      · simp [h.absent] at hhas
      · simp [hop] at hc
  | start =>
      refine ⟨h.absent, h.drawn, fun task htask hjob hlive => ?_⟩
      rcases List.mem_append.mp htask with hold | hnew
      · exact h.tasks task hold hjob hlive
      · rw [List.mem_singleton] at hnew
        subst hnew
        rfl
  | call htask hp =>
      refine ⟨perform_absent h.absent _, h.drawn, fun task' htask' hjob hlive => ?_⟩
      rcases mem_set_cases htask' with rfl | hold
      · have hmem := List.mem_of_getElem? htask
        have hguard := (hs.tasks _ hmem _ hp).here
        rw [show _ = id from hjob] at hguard
        have hexp := h.tasks _ hmem hjob (by simp [hp])
        exact exposed_concat hexp (marks_perform h.absent hguard.1 _)
          (marks_perform h.absent hguard.1 _)
      · exact h.tasks task' hold hjob hlive
  | stop htask =>
      refine ⟨h.absent, h.drawn, fun task' htask' hjob hlive => ?_⟩
      rcases mem_set_cases htask' with rfl | hold
      · cases hlive
      · exact h.tasks task' hold hjob hlive

theorem mayReport_of_reports {e : Exchange RunReply} (h : reports id e = true) :
    mayReport e.req = true := by
  obtain ⟨q, r⟩ := e
  cases q with
  | put key bytes => rfl
  | publish event =>
      simp only [reports, Bool.and_eq_true] at h
      exact h.2
  | _ => cases h

/-- The exchange of a step is one of a task that is left with a call. -/
theorem exchange_cases {a : Action impl.Fault} {job : String} {e : Exchange RunReply}
    (h : exchange impl s a = some (job, e)) :
    ∃ task ∈ s.tasks, task.jobId = job ∧ ∃ next, task.program = some (.call e.req next) := by
  cases a with
  | call k now fault exec elapsed =>
      obtain ⟨task, htask, h⟩ := Option.bind_eq_some_iff.mp h
      split at h
      · rename_i q next hp
        cases h
        exact ⟨task, List.mem_of_getElem? htask, rfl, next, hp⟩
      · cases h
  | _ => cases h

/-- No run of a job that is gone reports. -/
theorem Gone.quiet (h : Gone impl id s) (hs : Coherent impl s) {a : Action impl.Fault}
    {e : Exchange RunReply} (he : exchange impl s a = some (id, e)) : reports id e = false := by
  refine Bool.eq_false_iff.mpr fun hrep => ?_
  obtain ⟨task, htask, hjob, next, hp⟩ := exchange_cases he
  have hguard := (hs.tasks task htask _ hp).here
  have hexp := hguard.2.1 (mayReport_of_reports hrep)
  rw [h.tasks task htask hjob (by simp [hp])] at hexp
  cases hexp

/-- The reply to a call for a job that is gone, when the computation succeeds. -/
theorem perform_gone (h : impl.has jobs id = false) {q : RunCall} (hq : addresses id q) :
    (perform impl now none (some (.ok ⟨"application/json", []⟩)) (.finite 0) jobs files q).1 =
      goneReply id q := by
  cases q with
  | setStatus k status =>
      cases hq
      exact impl.update_absent rfl h
  | setProgress k progress =>
      cases hq
      exact impl.update_absent rfl h
  | appendLog k level message =>
      cases hq
      exact impl.update_absent rfl h
  | addAsset k asset =>
      cases hq
      exact impl.update_absent rfl h
  | put key bytes =>
      have hput : files.put key bytes = .ok ⟨InMemoryFileStore.insert key bytes files.entries⟩ := by
        have hpath : validatePath key.path = .ok () := hq
        rw [InMemoryFileStore.put, hpath]
        rfl
      rw [perform, hput]
      rfl
  | _ => rfl

/-- A run that still gets to report does so if it is given its turns. -/
theorem exists_report {k : Nat} {p : RunProgram RunOutcome} (hreach : reachesReport id p) :
    ∀ {s : Service σ} {made : RunTrace}, impl.has s.jobs id = false →
      p.Throughout (Guarded id) made → s.tasks[k]? = some ⟨id, made, some p⟩ →
      ∃ t, Reach (JobDeletion.step impl) AnyStep s t ∧
        ∃ a e, exchange impl t a = some (id, e) ∧ reports id e = true := by
  induction p with
  | done o =>
      cases hreach
  | call q next ih =>
      intro s made habsent hguard htask
      have hreply : (perform impl 0 none (some (.ok ⟨"application/json", []⟩)) (.finite 0) s.jobs
          s.files q).1 = goneReply id q := perform_gone habsent hguard.here.1
      rw [reachesReport, transcript, List.any_cons, Bool.or_eq_true] at hreach
      rcases hreach with hnow | hlater
      · refine ⟨s, .refl, .call k 0 none (some (.ok ⟨"application/json", []⟩)) (.finite 0),
          ⟨q, goneReply id q⟩, ?_, hnow⟩
        simp only [exchange, htask, Option.bind_eq_bind, Option.bind_some, hreply]
      · let files := (perform impl 0 none (some (.ok ⟨"application/json", []⟩)) (.finite 0)
          s.jobs s.files q).2.2
        let jobs := (perform impl 0 none (some (.ok ⟨"application/json", []⟩)) (.finite 0)
          s.jobs s.files q).2.1
        let task : RunTask := ⟨id, made ++ [⟨q, goneReply id q⟩], some (next (goneReply id q))⟩
        have hstep : JobDeletion.step impl s
            (.call k 0 none (some (.ok ⟨"application/json", []⟩)) (.finite 0)) =
              some { s with jobs := jobs, files := files, tasks := s.tasks.set k task } := by
          simp only [JobDeletion.step, htask, Option.bind_eq_bind, Option.bind_some, hreply]
          rfl
        have hk : k < s.tasks.length := (List.getElem?_eq_some_iff.mp htask).1
        have htask' : (s.tasks.set k task)[k]? = some task := List.getElem?_set_self hk
        obtain ⟨t, ht, a, e, he, hrep⟩ := ih (goneReply id q) hlater
          (s := { s with jobs := jobs, files := files, tasks := s.tasks.set k task })
          (perform_absent habsent q) (hguard.next _) htask'
        exact ⟨t, Reach.head trivial hstep ht, a, e, he, hrep⟩

/-- A delete that meets no fault. -/
theorem deleteJob_none (impl : JobStoreImpl σ) (s : Service σ) (id : String) :
    (deleteJob impl none id s).1.code = 204 ∧
      impl.has (deleteJob impl none id s).2.jobs id = false ∧
      (deleteJob impl none id s).2.tasks = s.tasks := by
  refine ⟨?_, impl.has_delete, rfl⟩
  simp only [deleteJob, JobStoreImpl.call, impl.delete_ok]
  rfl

/-- A delete that meets a fault. -/
theorem deleteJob_some (e : impl.Fault) :
    (deleteJob impl (some e) id s).1.code = 500 ∧ (deleteJob impl (some e) id s).2 = s :=
  ⟨rfl, rfl⟩

/-- **A delete is answered right** exactly if it is in time. -/
theorem answered_iff (hs : Reachable impl s) (fault : Option impl.Fault) (id : String) :
    Answered impl s fault id ↔ InTime impl s fault id := by
  have hcoh := hs.coherent
  obtain ⟨hcode, hgone, htasks⟩ := deleteJob_none impl s id
  constructor
  · intro h
    have hpresent : impl.has s.jobs id = true := by
      by_contra habsent
      rw [Bool.not_eq_true] at habsent
      have hmissing := h.missing.mpr habsent
      cases fault with
      | none =>
          rw [hcode] at hmissing
          cases hmissing
      | some e =>
          cases hmissing
    refine ⟨hpresent, ?_⟩
    rintro rfl task htask hjob hlive
    refine Bool.eq_false_iff.mpr fun hexp => ?_
    obtain ⟨k, hk⟩ := List.getElem?_of_mem htask
    obtain ⟨p, hp⟩ := Option.isSome_iff_exists.mp hlive
    have hguard := hcoh.tasks task htask p hp
    obtain ⟨job, made, program⟩ := task
    cases hjob
    cases hp
    have hreach : reachesReport job p := by
      cases p with
      | done o =>
          exact absurd hexp (by rw [show exposed made = false from hguard.here]; simp)
      | call q next => exact hguard.here.2.2 hexp
    obtain ⟨t, ht, a, e, he, hrep⟩ :=
      exists_report hreach hgone hguard ((congrArg (·[k]?) htasks).trans hk)
    rw [h.quiet hcode t ht a e he] at hrep
    cases hrep
  · intro h
    cases fault with
    | some e =>
        refine ⟨?_, ?_, fun h204 => ?_⟩
        · simp [(deleteJob_some e).1, h.present]
        · simp [(deleteJob_some e).1, (deleteJob_some e).2, h.present]
        · simp [(deleteJob_some e).1] at h204
    | none =>
        refine ⟨?_, ?_, fun _ t ht a e he => ?_⟩
        · simp [hcode, h.present]
        · simp [hcode, h.present, hgone]
        · have hinit : Coherent impl (deleteJob impl none id s).2 ∧
              Gone impl id (deleteJob impl none id s).2 := by
            refine ⟨⟨fun k hk => ?_, ?_⟩, ⟨hgone, ?_, ?_⟩⟩
            · rcases impl.has_step hk with hs' | hc
              · exact hcoh.drawn k hs'
              · cases hc
            · exact hcoh.tasks
            · exact hcoh.drawn id h.present
            · exact h.runs rfl
          have hinv := ht.invariant (I := fun s => Coherent impl s ∧ Gone impl id s) hinit
            fun u a v hu _ hstep =>
              ⟨hu.1.step (transition_of_step hstep), hu.2.step hu.1 (transition_of_step hstep)⟩
          exact hinv.2.quiet hinv.1 he

end Deletes

/-- **A delete is answered right**, with either store and in every state reached,
exactly if the job is there and no live run of it is exposed. -/
theorem deleteJob_right_iff (id : String) :
    (∀ s, Reachable InMemoryJobStore.impl s → ∀ fault,
      (Answered InMemoryJobStore.impl s fault id ↔ InTime InMemoryJobStore.impl s fault id)) ∧
    ∀ (db : Sqlite) (order : OrderByCreated db) (s : Service (List (JobRow db))),
      Reachable (SqliteJobStore.impl order) s → ∀ fault,
        (Answered (SqliteJobStore.impl order) s fault id ↔
          InTime (SqliteJobStore.impl order) s fault id) :=
  ⟨fun _ hs fault => answered_iff hs fault id, fun _ _ _ hs fault => answered_iff hs fault id⟩

/-- A service with an empty store. -/
def emptyService : Service InMemoryJobStore := ⟨.empty, .empty, [], []⟩

theorem emptyService_fresh : Fresh InMemoryJobStore.impl emptyService where
  drawn := by
    intro id h
    cases h
  tasks := rfl

/-- A job is created and started, and its runner makes this many calls. -/
def runUpTo (n : Nat) : List (Action Empty) :=
  [.other (.create 0 "job" DEFAULT_USER none none sampleProcess),
    .start "job" DEFAULT_USER 600 sampleProcess] ++
      List.replicate n (.call 0 0 none (some (.ok ⟨"application/json", []⟩)) (.finite 0))

theorem deleteJob_right_iff_queued :
    ∃ s, Reachable InMemoryJobStore.impl s ∧ s.tasks.length = 1 ∧
      Answered InMemoryJobStore.impl s none "job" := by
  have h : ∃ s, runAll (step InMemoryJobStore.impl) emptyService (runUpTo 2) = some s ∧
      s.tasks.length = 1 ∧ InMemoryJobStore.impl.has s.jobs "job" = true ∧
      ∀ task ∈ s.tasks, exposed task.made = false := by
    refine ⟨_, rfl, rfl, rfl, ?_⟩
    intro task htask
    rw [List.mem_singleton.mp htask]
    rfl
  obtain ⟨s, hs, hlength, hhas, hexp⟩ := h
  have hreach : Reachable InMemoryJobStore.impl s :=
    ⟨emptyService, emptyService_fresh, reach_of_runAll .refl (allowed_anyStep _ _) hs⟩
  exact ⟨s, hreach, hlength,
    ((deleteJob_right_iff "job").1 s hreach none).mpr ⟨hhas, fun _ task ht _ _ => hexp task ht⟩⟩

theorem deleteJob_wrong :
    (deleteJob InMemoryJobStore.impl none "job" emptyService).1.code = 204 ∧
    InMemoryJobStore.impl.has emptyService.jobs "job" = false ∧
    ∃ s, Reachable InMemoryJobStore.impl s ∧
      (deleteJob InMemoryJobStore.impl none "job" s).1.code = 204 ∧
      ∃ t, Reach (step InMemoryJobStore.impl) AnyStep
          (deleteJob InMemoryJobStore.impl none "job" s).2 t ∧
        ∃ a e, exchange InMemoryJobStore.impl t a = some ("job", e) ∧ reports "job" e = true := by
  refine ⟨rfl, rfl, ?_⟩
  have h : ∃ s, runAll (step InMemoryJobStore.impl) emptyService (runUpTo 6) = some s ∧
      ∃ t, runAll (step InMemoryJobStore.impl) (deleteJob InMemoryJobStore.impl none "job" s).2
          (List.replicate 3 (.call 0 0 none (some (.ok ⟨"application/json", []⟩)) (.finite 0))) =
            some t ∧
        ∃ e, exchange InMemoryJobStore.impl t
            (.call 0 0 none (some (.ok ⟨"application/json", []⟩)) (.finite 0)) =
              some ("job", e) ∧ reports "job" e = true :=
    ⟨_, rfl, _, rfl, _, rfl, rfl⟩
  obtain ⟨s, hs, t, ht, e, he, hrep⟩ := h
  exact ⟨s, ⟨emptyService, emptyService_fresh, reach_of_runAll .refl (allowed_anyStep _ _) hs⟩,
    rfl, t, reach_of_runAll .refl (allowed_anyStep _ _) ht, _, e, he, hrep⟩

end JobDeletion

end OrbitOpenEO
