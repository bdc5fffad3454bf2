import OrbitOpenEO.JobAdmission
import OrbitOpenEO.JobService.Restarts

/-!
# What a job delivers

A request is computed at once by `sync_compute`, or as a job: `create_job` stores its
`process`, a start hands that to a runner, the runner to the executor, and what the
executor returns becomes a file and an asset, which `download_asset` sends.

`Traced` follows the process from the request to the run, `Renders` the result from
the executor to the stores.  What a job delivers at the end is an answer that the
synchronous route may give to the very request that created the job
(`delivers_sync_answer`).
-/

namespace OrbitOpenEO

open Lib Lib.Program

/-- `run_sync` of an executor: it reads the graph of the body and evaluates it.  `evaluate` says
which answers there may be to a graph. -/
def MayAnswer (serdeText : Json → String)
    (evaluate : ProcessGraph → Except ExecError SyncResult → Prop) (body : Json)
    (answer : Except ExecError SyncResult) : Prop :=
  match parseGraph serdeText body with
  | .error e => answer = .error e
  | .ok graph => evaluate graph answer

/-- The executor of the geo kernel is of this form. -/
theorem mayAnswer_runBody (P : Petgraph) (serdeText : Json → String) (ops : FloatOps)
    (registry : ProcessRegistry) (R : Renderer) (body : Json)
    (answer : Except ExecError SyncResult) :
    (∃ tr res, Path (GeoExecutor.runBody P serdeText ops registry body) tr res ∧
        answer = res.bind (·.render R)) ↔
      MayAnswer serdeText (fun graph answer =>
        ∃ tr res, Path (GeoExecutor.runSync ops P registry graph) tr res ∧
          answer = res.bind (·.render R)) body answer := by
  unfold GeoExecutor.runBody MayAnswer
  cases parseGraph serdeText body with
  | error e =>
      constructor
      · rintro ⟨tr, res, hpath, rfl⟩
        cases hpath
        rfl
      · rintro rfl
        exact ⟨[], .error e, .done _, rfl⟩
  | ok graph => exact Iff.rfl

/-- `sync_compute`.  The length of the body is announced with it. -/
def syncCompute : Except ExecError SyncResult → Response
  | .ok result => .file result.contentType (toString result.body.length) result.body
  | .error (.invalidGraph msg) => .problem 400 "InvalidProcessGraph" (some msg)
  | .error (.unknownProcess name) => .problem 400 "ProcessUnsupported" (some name)
  | .error (.backend msg) => .problem 500 "Internal" (some msg)
  | .error (.perPixelComputation msg) => .problem 500 "Internal" (some s!"per_pixel: {msg}")

variable {s t : Sys} {a : Action} {b : Backing} {jobId : String} {record : JobRecord}
variable {now permits : Nat} {timeoutVar : Option String} {recovered : Bool}

/-- The record that a start has read. -/
def Handler.starts : Handler → Option (String × JobRecord)
  | .startAcquire jobId record => some (jobId, record)
  | .startSpawn jobId record => some (jobId, record)
  | _ => none

theorem process_of_withRecord {store store' : InMemoryJobStore} {id : String}
    {change : JobRecord → JobRecord} (hset : store.withRecord now id change = .ok store')
    (hid : ∀ r, (change r).id = r.id) (hprocess : ∀ r, (change r).process = r.process)
    (hget : store'.get jobId = .ok record) :
    ∃ r, store.get jobId = .ok r ∧ record.process = r.process := by
  rcases InMemoryJobStore.get_withRecord_cases hset hid jobId with hsame | ⟨-, r, hr, hr'⟩
  · exact ⟨record, hsame ▸ hget, rfl⟩
  · rw [hr'] at hget
    cases hget
    exact ⟨r, hr, hprocess r⟩

theorem process_of_setStatus {store : InMemoryJobStore} {id : String} {status : JobStatus}
    (hget : ((store.setStatus now id status).toOption.getD store).get jobId = .ok record) :
    ∃ r, store.get jobId = .ok r ∧ record.process = r.process := by
  cases hset : store.setStatus now id status with
  | error e =>
      rw [hset] at hget
      exact ⟨record, hget, rfl⟩
  | ok store' =>
      rw [hset] at hget
      exact process_of_withRecord hset (fun _ => rfl) (fun _ => rfl) hget

/-- The process of a job is the one it was created with. -/
theorem process_of_stepHandler (hissued : IssuedInv s) {uuid : String} {hd hd' : Handler}
    (h : stepHandler now uuid s hd = some (hd', t)) (hget : t.jobs.get jobId = .ok record) :
    (∃ r, s.jobs.get jobId = .ok r ∧ record.process = r.process) ∨
      jobId ∉ s.issued ∧ ∃ title description, hd = .createJob title description record.process := by
  cases hd with
  | createJob title description process =>
      simp only [stepHandler] at h
      split_ifs at h with hnew
      cases h
      dsimp only at hget
      rw [InMemoryJobStore.get_create fun r hr => hnew (hissued.present uuid r hr)] at hget
      split_ifs at hget with hj
      · subst hj
        cases hget
        exact .inr ⟨hnew, title, description, rfl⟩
      · exact .inl ⟨record, hget, rfl⟩
  | updateJob j title description =>
      simp only [stepHandler] at h
      split at h
      · rename_i jobs hset
        cases h
        exact .inl (process_of_withRecord hset (fun _ => rfl) (fun _ => rfl) hget)
      · cases h
        exact .inl ⟨record, hget, rfl⟩
  | deleteJob j =>
      cases h
      dsimp only at hget
      rw [InMemoryJobStore.get_delete] at hget
      split_ifs at hget
      exact .inl ⟨record, hget, rfl⟩
  | discardCancel j wasActive =>
      cases h
      rw [jobs_cancel] at hget
      exact .inl ⟨record, hget, rfl⟩
  | discardWrite j =>
      cases h
      exact .inl (process_of_setStatus hget)
  | _ =>
      have hjobs : t.jobs = s.jobs := by
        simp only [stepHandler] at h
        repeat' split at h
        all_goals grind
      exact .inl ⟨record, hjobs ▸ hget, rfl⟩

theorem process_of_perform {exec : Option (Except ExecError SyncResult)} {elapsed : F64}
    {jobs : InMemoryJobStore} {files : InMemoryFileStore} {q : RunCall}
    (hget : (perform now exec elapsed jobs files q).2.1.get jobId = .ok record) :
    ∃ r, jobs.get jobId = .ok r ∧ record.process = r.process := by
  cases q with
  | setStatus id status =>
      simp only [perform] at hget
      split at hget
      · rename_i hset
        exact process_of_withRecord hset (fun _ => rfl) (fun _ => rfl) hget
      · exact ⟨record, hget, rfl⟩
  | setProgress id progress =>
      simp only [perform] at hget
      split at hget
      · rename_i hset
        exact process_of_withRecord hset (fun _ => rfl) (fun _ => rfl) hget
      · exact ⟨record, hget, rfl⟩
  | appendLog id level message =>
      simp only [perform] at hget
      split at hget
      · rename_i hset
        rw [InMemoryJobStore.get_appendLog hset jobId] at hget
        exact ⟨record, hget, rfl⟩
      · exact ⟨record, hget, rfl⟩
  | addAsset id asset =>
      simp only [perform] at hget
      split at hget
      · rename_i hset
        exact process_of_withRecord hset (fun _ => rfl) (fun _ => rfl) hget
      · exact ⟨record, hget, rfl⟩
  | put key bytes =>
      simp only [perform] at hget
      split at hget <;> exact ⟨record, hget, rfl⟩
  | _ => exact ⟨record, hget, rfl⟩

theorem process_of_transition (hissued : IssuedInv s) (htr : Transition s a t)
    (hget : t.jobs.get jobId = .ok record) :
    (∃ r, s.jobs.get jobId = .ok r ∧ record.process = r.process) ∨
      jobId ∉ s.issued ∧ ∃ (h : Nat) (title description : Option String),
        s.handlers[h]? = some (.createJob title description record.process) := by
  cases htr with
  | @handler h _ _ hd _ _ hhd hstep =>
      rcases process_of_stepHandler hissued hstep hget with hsame | ⟨hnew, title, description, rfl⟩
      · exact .inl hsame
      · exact .inr ⟨hnew, h, title, description, hhd⟩
  | supervisor hrun hmove =>
      refine .inl ?_
      cases hmove with
      | cancelWrite _ => exact process_of_setStatus hget
      | panicWrite _ => exact process_of_setStatus hget
      | _ => exact ⟨record, hget, rfl⟩
  | call hrun hr => exact .inl (process_of_perform hget)
  | _ => exact .inl ⟨record, hget, rfl⟩

/-- The process on its way from the request to the run. -/
structure Traced (Accepted : Json → Prop) (s : Sys) : Prop where
  stored : ∀ jobId record, s.jobs.get jobId = .ok record → Accepted record.process
  creating : ∀ (i : Nat) title description process,
    s.handlers[i]? = some (.createJob title description process) → Accepted process
  starting : ∀ (i : Nat) hd jobId record, s.handlers[i]? = some hd →
    hd.starts = some (jobId, record) →
      jobId ∈ s.issued ∧ ∀ r, s.jobs.get jobId = .ok r → r.process = record.process
  running : ∀ (k : Nat) run, s.runs[k]? = some run →
    run.jobId ∈ s.issued ∧ ∀ r, s.jobs.get run.jobId = .ok r → r.process = run.body

/-- What is said of the record of a job that was created before stays true. -/
theorem process_stays (hissued : IssuedInv s) (htr : Transition s a t) {process : Json}
    (h : jobId ∈ s.issued ∧ ∀ r, s.jobs.get jobId = .ok r → r.process = process) :
    jobId ∈ t.issued ∧ ∀ r, t.jobs.get jobId = .ok r → r.process = process := by
  refine ⟨issued_of_transition htr h.1, fun r hr => ?_⟩
  rcases process_of_transition hissued htr hr with ⟨r', hr', hprocess⟩ | ⟨hnew, -⟩
  · rw [hprocess, h.2 r' hr']
  · exact absurd h.1 hnew

/-- A handler starts a job with the record it has just read, or has read before. -/
theorem starts_of_stepHandler {uuid : String} {hd hd' : Handler}
    (h : stepHandler now uuid s hd = some (hd', t)) (hstarts : hd'.starts = some (jobId, record)) :
    hd.starts = some (jobId, record) ∨ s.jobs.get jobId = .ok record := by
  cases hd with
  | startGet j =>
      simp only [stepHandler] at h
      split at h
      · cases h
        cases hstarts
      · rename_i r hget
        split_ifs at h with hactive
        · cases h
          cases hstarts
        · cases h
          cases hstarts
          exact .inr hget
  | startAcquire j r =>
      simp only [stepHandler] at h
      split_ifs at h
      · cases h
        cases hstarts
      · cases h
        exact .inl hstarts
  | startSpawn j r =>
      cases h
      cases hstarts
  | discardCancel j wasActive =>
      cases h
      cases wasActive <;> cases hstarts
  | _ =>
      simp only [stepHandler] at h
      repeat' split at h
      all_goals cases h <;> cases hstarts

/-- No handler becomes one that creates a job. -/
theorem not_createJob_of_stepHandler {uuid : String} {hd : Handler} {title description process}
    (h : stepHandler now uuid s hd = some (.createJob title description process, t)) : False := by
  cases hd with
  | discardCancel j wasActive => cases wasActive <;> cases h
  | _ =>
      simp only [stepHandler] at h
      repeat' split at h
      all_goals cases h

/-- A run stays with its body. -/
theorem Run.Evolves.body_eq {run run' : Run} (h : run.Evolves s run') : run'.body = run.body := by
  cases h with
  | moved hmove => cases hmove <;> rfl
  | _ => rfl

section Traced

variable {Accepted : Json → Prop}

theorem Traced.initial (permits : Nat) (timeoutVar : Option String) :
    Traced Accepted (Sys.initial permits timeoutVar) where
  stored := by
    intro jobId record hget
    cases hget
  creating := by simp [Sys.initial]
  starting := by simp [Sys.initial]
  running := by simp [Sys.initial]

theorem Traced.of_transition (hs : Traced Accepted s) (hissued : IssuedInv s)
    (htr : Transition s a t)
    (haccepted : ∀ title description process,
      a = .arrive (.createJob title description process) → Accepted process) :
    Traced Accepted t where
  stored := by
    intro jobId record hget
    rcases process_of_transition hissued htr hget with ⟨r, hr, hprocess⟩ |
      ⟨-, i, title, description, hhd⟩
    · rw [hprocess]
      exact hs.stored jobId r hr
    · exact hs.creating i title description _ hhd
  creating := by
    intro i title description process hhd'
    rcases handler_of_transition htr hhd' with hhd | ⟨now, uuid, hd, u, -, -, hstep, -⟩ |
      ⟨request, rfl, heq⟩
    · exact hs.creating i title description process hhd
    · exact (not_createJob_of_stepHandler hstep).elim
    · cases request with
      | createJob title description process =>
          cases heq
          exact haccepted _ _ _ rfl
      | _ => cases heq
  starting := by
    intro i hd' jobId record hhd' hstarts
    rcases handler_of_transition htr hhd' with hhd | ⟨now, uuid, hd, u, -, hhd, hstep, -⟩ |
      ⟨request, rfl, rfl⟩
    · exact process_stays hissued htr (hs.starting i hd' jobId record hhd hstarts)
    · refine process_stays hissued htr ?_
      rcases starts_of_stepHandler hstep hstarts with hbefore | hget
      · exact hs.starting i hd jobId record hhd hbefore
      · refine ⟨hissued.present jobId record hget, fun r hr => ?_⟩
        cases hget.symm.trans hr
        rfl
    · cases request <;> cases hstarts
  running := by
    intro k run' hrun'
    rcases run_of_transition htr hrun' with ⟨run, hrun, hev⟩ |
      ⟨i, now, uuid, jobId, record, rfl, hhd, -, -, rfl⟩
    · rw [hev.jobId_eq, hev.body_eq]
      exact process_stays hissued htr (hs.running k run hrun)
    · exact process_stays hissued htr (hs.starting i _ jobId record hhd rfl)

theorem Traced.restart (hs : Traced Accepted s) :
    Traced Accepted (s.restart b now permits timeoutVar recovered) where
  stored := by
    intro jobId record' hget'
    obtain ⟨-, record, hget, hprocess, -⟩ := get_restart hget'
    rw [hprocess]
    exact hs.stored jobId record hget
  creating := by simp [Sys.restart, Sys.initial]
  starting := by simp [Sys.restart, Sys.initial]
  running := by simp [Sys.restart, Sys.initial]

end Traced

/-- A call that neither makes an asset nor computes a result. -/
def RunCall.isAside (q : RunCall) : Bool :=
  match q with
  | .runSync _ _ => false
  | q => q.isPlain

/-- A program of the runner of a job with this body, before which a result was stored that is not
yet an asset.  What it stores are answers to the body. -/
inductive Renders (A : Json → Except ExecError SyncResult → Prop) (jobId : String) (body : Json) :
    Option SyncResult → RunProgram RunOutcome → Prop
  | done (outcome : RunOutcome) : Renders A jobId body none (.done outcome)
  | aside {q : RunCall} {next : RunReply q → RunProgram RunOutcome} :
      q.isAside = true → (∀ r, Renders A jobId body none (next r)) →
      Renders A jobId body none (.call q next)
  | compute {timeoutSecs : Nat}
      {next : RunReply (.runSync body timeoutSecs) → RunProgram RunOutcome} :
      Renders A jobId body none (next none) →
      (∀ answer, A body answer → Renders A jobId body none (next (some answer))) →
      Renders A jobId body none (.call (.runSync body timeoutSecs) next)
  | put {result : SyncResult}
      {next : RunReply (.put ⟨jobId, defaultAssetName result.contentType⟩ result.body) →
        RunProgram RunOutcome} :
      A body (.ok result) → (∀ e, Renders A jobId body none (next (.error e))) →
      Renders A jobId body (some result) (next (.ok ())) →
      Renders A jobId body none
        (.call (.put ⟨jobId, defaultAssetName result.contentType⟩ result.body) next)
  | attach {result : SyncResult}
      {next : RunReply (.addAsset jobId (resultAsset result)) → RunProgram RunOutcome} :
      (∀ r, Renders A jobId body none (next r)) →
      Renders A jobId body (some result) (.call (.addAsset jobId (resultAsset result)) next)

variable {A : Json → Except ExecError SyncResult → Prop} {body : Json}

section RunJob

variable (jobId userId : String)

theorem renders_recordTerminal (outcome : String) (result : RunOutcome) :
    Renders A jobId body none (recordTerminal outcome >>= fun _ => return result) :=
  .aside rfl fun _ => .aside rfl fun _ => .aside rfl fun _ => .done _

theorem renders_failure (result : RunOutcome) :
    Renders A jobId body none (do
      let _ ← ask (.setStatus jobId .error)
      publish jobId userId .failed
      return result) :=
  .aside rfl fun _ => .aside rfl fun _ => .done _

theorem renders_runFinalise : Renders A jobId body none (runFinalise jobId userId) := by
  refine .aside rfl fun _ => .aside rfl fun _ => .aside rfl fun r => ?_
  cases r with
  | error e => exact .done _
  | ok u =>
      refine .aside rfl fun _ => .aside rfl fun _ => .aside rfl fun _ => ?_
      exact renders_recordTerminal jobId _ _

theorem renders_runPersist {result : SyncResult} (h : A body (.ok result)) :
    Renders A jobId body none (runPersist jobId userId result) := by
  refine .put h (fun e => renders_failure jobId userId _) (.attach fun r => ?_)
  cases r with
  | error e => exact renders_failure jobId userId _
  | ok u => exact renders_runFinalise jobId userId

theorem renders_runFailed (e : ExecError) :
    Renders A jobId body none (runFailed jobId userId e) := by
  refine .aside rfl fun _ => .aside rfl fun _ => .aside rfl fun _ => ?_
  exact renders_recordTerminal jobId _ _

theorem renders_runTimedOut (timeoutSecs : Nat) :
    Renders A jobId body none (runTimedOut jobId userId timeoutSecs) := by
  refine .aside rfl fun _ => .aside rfl fun _ => .aside rfl fun _ => ?_
  exact renders_recordTerminal jobId _ _

/-- `run_job` stores answers to its body. -/
theorem renders_runJob (timeoutSecs : Nat) :
    Renders A jobId body none (runJob jobId userId timeoutSecs body) := by
  refine .aside rfl fun r => ?_
  cases r with
  | error e => exact .done _
  | ok u =>
      refine .aside rfl fun _ => .aside rfl fun r => ?_
      cases r with
      | error e => exact .done _
      | ok u =>
          refine .aside rfl fun _ => .aside rfl fun _ => .aside rfl fun _ => ?_
          refine .compute (renders_runTimedOut jobId userId timeoutSecs) fun answer hanswer => ?_
          refine .aside rfl fun _ => .aside rfl fun _ => ?_
          cases answer with
          | error e => exact renders_runFailed jobId userId e
          | ok result => exact renders_runPersist jobId userId hanswer

end RunJob

/-- The jobs that are created were asked for, and the executor gives an answer there may be. -/
structure Orderly (A : Json → Except ExecError SyncResult → Prop)
    (Created : Option String → Option String → Json → Prop) (runs : List Run) (l : Life) :
    Prop where
  created : ∀ title description process,
    l = .serve (.arrive (.createJob title description process)) → Created title description process
  answered : ∀ k now answer elapsed run body timeoutSecs next aborting,
    l = .serve (.runner k now (some answer) elapsed) → runs[k]? = some run →
    run.runner = .live (.call (.runSync body timeoutSecs) next) aborting → A body answer

/-- The file of an asset is an answer to this body. -/
def Sys.Delivers (s : Sys) (A : Json → Except ExecError SyncResult → Prop) (jobId : String)
    (body : Json) (asset : JobAsset) : Prop :=
  ∃ result, A body (.ok result) ∧ asset = resultAsset result ∧
    s.files.get ⟨jobId, asset.name⟩ = .ok result.body

/-- What runners store and jobs list are answers to their body. -/
structure Rendered (A : Json → Except ExecError SyncResult → Prop) (s : Sys) : Prop where
  listed : ∀ jobId record, s.jobs.get jobId = .ok record →
    ∀ asset ∈ record.assets, s.Delivers A jobId record.process asset
  running : ∀ (k : Nat) run program aborting, s.runs[k]? = some run →
    run.runner = .live program aborting → ∃ pending, Renders A run.jobId run.body pending program ∧
      ∀ result ∈ pending, s.Delivers A run.jobId run.body (resultAsset result)

/-- A marked runner was live before. -/
theorem live_of_abort {runner : Runner} {program : RunProgram RunOutcome} {aborting : Bool}
    (h : runner.abort = .live program aborting) :
    ∃ aborting₀, runner = .live program aborting₀ := by
  cases runner with
  | live program' aborting' =>
      cases h
      exact ⟨aborting', rfl⟩
  | _ => cases h

/-- The program of a runner after a step: as it was, just started, or after a call. -/
theorem live_of_transition (htr : Transition s a t) {k : Nat} {run' : Run}
    {program : RunProgram RunOutcome} {aborting : Bool} (hrun' : t.runs[k]? = some run')
    (hlive : run'.runner = .live program aborting) :
    (∃ run aborting₀, s.runs[k]? = some run ∧ run.runner = .live program aborting₀ ∧
      run'.jobId = run.jobId ∧ run'.body = run.body) ∨
    (∃ userId timeoutSecs, program = runJob run'.jobId userId timeoutSecs run'.body) ∨
    ∃ (run : Run) (q : RunCall) (next : RunReply q → RunProgram RunOutcome) (aborting₀ : Bool)
        (now : Nat) (exec : Option (Except ExecError SyncResult)) (elapsed : F64),
      a = .runner k now exec elapsed ∧ s.runs[k]? = some run ∧
      run.runner = .live (.call q next) aborting₀ ∧ run'.jobId = run.jobId ∧
      run'.body = run.body ∧ program = next (perform now exec elapsed s.jobs s.files q).1 ∧
      t.files = (perform now exec elapsed s.jobs s.files q).2.2 := by
  have hsame : s.runs[k]? = some run' → ∃ run aborting₀, s.runs[k]? = some run ∧
      run.runner = .live program aborting₀ ∧ run'.jobId = run.jobId ∧ run'.body = run.body :=
    fun hrun => ⟨run', aborting, hrun, hlive, rfl, rfl⟩
  cases htr with
  | arrive request => exact .inl (hsame hrun')
  | handler hhd hstep =>
      dsimp only at hrun'
      rcases runs_of_stepHandler hstep with hruns | ⟨j, hruns⟩ | ⟨j, record, -, -, hruns⟩
      · exact .inl (hsame (hruns ▸ hrun'))
      · rw [hruns] at hrun'
        obtain ⟨run, hrun, rfl | rfl⟩ := run_of_cancel hrun'
        · exact .inl ⟨_, aborting, hrun, hlive, rfl, rfl⟩
        · exact .inl ⟨run, aborting, hrun, hlive, rfl, rfl⟩
      · rw [hruns] at hrun'
        rcases getElem?_concat_cases hrun' with hrun | ⟨-, rfl⟩
        · exact .inl (hsame hrun)
        · cases hlive
  | supervisor hrun hmove =>
      rcases getElem?_set_cases hrun' with ⟨rfl, rfl⟩ | ⟨-, hrun'⟩
      · cases hmove with
        | spawn hsup =>
            cases hlive
            exact .inr (.inl ⟨_, _, rfl⟩)
        | abort hsup =>
            obtain ⟨aborting₀, hr⟩ := live_of_abort hlive
            exact .inl ⟨_, aborting₀, hrun, hr, rfl, rfl⟩
        | _ => exact .inl ⟨_, aborting, hrun, hlive, rfl, rfl⟩
      · exact .inl (hsame hrun')
  | call hrun hr =>
      rcases getElem?_set_cases hrun' with ⟨rfl, rfl⟩ | ⟨-, hrun'⟩
      · cases hlive
        exact .inr (.inr ⟨_, _, _, _, _, _, _, rfl, hrun, hr, rfl, rfl, rfl, rfl⟩)
      · exact .inl (hsame hrun')
  | returned hrun hr =>
      rcases getElem?_set_cases hrun' with ⟨rfl, rfl⟩ | ⟨-, hrun'⟩
      · cases hlive
      · exact .inl (hsame hrun')
  | panicked hrun hr =>
      rcases getElem?_set_cases hrun' with ⟨rfl, rfl⟩ | ⟨-, hrun'⟩
      · cases hlive
      · exact .inl (hsame hrun')
  | aborted hrun hr =>
      rcases getElem?_set_cases hrun' with ⟨rfl, rfl⟩ | ⟨-, hrun'⟩
      · cases hlive
      · exact .inl (hsame hrun')

theorem nextAsset_of_renders {result : SyncResult} {program : RunProgram RunOutcome}
    (h : Renders A jobId body (some result) program) :
    nextAsset program = some (jobId, resultAsset result) := by
  cases h
  rfl

theorem attach_of_renders {id : String} {asset : JobAsset}
    {next : RunReply (.addAsset id asset) → RunProgram RunOutcome} {pending : Option SyncResult}
    (h : Renders A jobId body pending (.call (.addAsset id asset) next)) :
    id = jobId ∧ ∃ result, pending = some result ∧ asset = resultAsset result := by
  cases h with
  | aside hq _ => cases hq
  | attach _ => exact ⟨rfl, _, rfl, rfl⟩

/-- A call of a runner whose executor gives an answer there may be. -/
theorem Renders.of_perform {q : RunCall} {next : RunReply q → RunProgram RunOutcome}
    {pending : Option SyncResult} {exec : Option (Except ExecError SyncResult)} {elapsed : F64}
    {jobs : InMemoryJobStore} {files : InMemoryFileStore}
    (h : Renders A jobId body pending (.call q next))
    (hanswered : ∀ b timeoutSecs answer, q = .runSync b timeoutSecs → exec = some answer →
      A b answer) :
    ∃ pending', Renders A jobId body pending' (next (perform now exec elapsed jobs files q).1) ∧
      ∀ result ∈ pending', A body (.ok result) ∧ (perform now exec elapsed jobs files q).2.2.get
        ⟨jobId, defaultAssetName result.contentType⟩ = .ok result.body := by
  cases h with
  | aside _ hnext => exact ⟨none, hnext _, by rintro _ ⟨⟩⟩
  | compute hnone hsome =>
      refine ⟨none, ?_, by rintro _ ⟨⟩⟩
      cases exec with
      | none => exact hnone
      | some answer => exact hsome answer (hanswered _ _ _ rfl rfl)
  | @put result next hresult herror hok =>
      simp only [perform]
      cases hput : files.put ⟨jobId, defaultAssetName result.contentType⟩ result.body with
      | error e => exact ⟨none, herror e, by rintro _ ⟨⟩⟩
      | ok files' =>
          refine ⟨some result, hok, ?_⟩
          rintro _ ⟨⟩
          exact ⟨hresult, by rw [InMemoryFileStore.get_put hput, if_pos rfl]⟩
  | attach hnext => exact ⟨none, hnext _, by rintro _ ⟨⟩⟩

/-- What is delivered under a claimed key is delivered after the step. -/
theorem Sys.Delivers.of_claimed {asset : JobAsset} (h : s.Delivers A jobId body asset)
    (hmove : AssetMove s a t) (hfresh : StoresFresh s a)
    (hclaim : s.unclaimed ⟨jobId, asset.name⟩ ≠ true) : t.Delivers A jobId body asset := by
  obtain ⟨result, hresult, hasset, hbytes⟩ := h
  exact ⟨result, hresult, hasset, (files_of_claimed hmove hfresh hclaim).trans hbytes⟩

/-- A file request leaves what is delivered under a claimed key. -/
theorem Sys.Delivers.of_file {asset : JobAsset} (h : s.Delivers A jobId body asset)
    {request : FilesRequest} (hfresh : LivesFresh s (.file request))
    (hclaim : s.unclaimed ⟨jobId, asset.name⟩ ≠ true) :
    ({ s with files := (FileBackend.memory.handle s.files request).2 } : Sys).Delivers
      A jobId body asset := by
  obtain ⟨result, hresult, hasset, hbytes⟩ := h
  exact ⟨result, hresult, hasset, (get_handle_of_claimed hfresh hclaim).trans hbytes⟩

theorem Rendered.initial (permits : Nat) (timeoutVar : Option String) :
    Rendered A (Sys.initial permits timeoutVar) where
  listed := by
    intro jobId record hget
    cases hget
  running := by simp [Sys.initial]

theorem Rendered.of_step {Accepted : Json → Prop} (hr : Rendered A s) (hs : Settled s)
    (htraced : Traced Accepted s) (hfresh : StoresFresh s a)
    (hanswered : ∀ k now answer elapsed run b timeoutSecs next aborting,
      a = .runner k now (some answer) elapsed → s.runs[k]? = some run →
      run.runner = .live (.call (.runSync b timeoutSecs) next) aborting → A b answer)
    (h : step s a = some t) : Rendered A t := by
  have htr := transition_of_step h
  have hmove := assetMove_of_transition hs.disciplined htr
  have hprocess : ∀ jobId record record', s.jobs.get jobId = .ok record →
      t.jobs.get jobId = .ok record' → record'.process = record.process := by
    intro jobId record record' hget hget'
    have hin := hs.issued.present jobId record hget
    refine (process_stays hs.issued htr ⟨hin, fun r hr => ?_⟩).2 record' hget'
    cases hget.symm.trans hr
    rfl
  refine ⟨?_, ?_⟩
  · intro jobId record' hget' asset hmem
    rcases assets_of_recordMove (recordMove_of_transition hs.issued htr jobId) hget' with
      hassets | ⟨record, hget, hassets⟩ |
      ⟨k₀, run₀, asset₀, next, aborting, record, hrun₀, hr₀, -, hget, hassets⟩
    · rw [hassets] at hmem
      cases hmem
    · rw [hassets] at hmem
      rw [hprocess jobId record record' hget hget']
      exact (hr.listed jobId record hget asset hmem).of_claimed hmove hfresh
        (claimed_of_listed hget hmem)
    · rw [hassets] at hmem
      rw [hprocess jobId record record' hget hget']
      rcases List.mem_append.mp hmem with hmem | hmem
      · exact (hr.listed jobId record hget asset hmem).of_claimed hmove hfresh
          (claimed_of_listed hget hmem)
      · -- the asset has just been added: its runner has stored an answer to its body
        rw [List.mem_singleton.mp hmem]
        obtain ⟨pending, hrenders, hstored⟩ := hr.running k₀ run₀ _ _ hrun₀ hr₀
        obtain ⟨rfl, result, rfl, rfl⟩ := attach_of_renders hrenders
        rw [(htraced.running k₀ run₀ hrun₀).2 record hget]
        exact (hstored result rfl).of_claimed hmove hfresh
          (claimed_of_attaching hrun₀ (by rw [hr₀]; rfl))
  · intro k run' program aborting hrun' hlive
    rcases live_of_transition htr hrun' hlive with ⟨run, aborting₀, hrun, hlive₀, hjob, hbody⟩ |
      ⟨userId, timeoutSecs, rfl⟩ |
      ⟨run, q, next, aborting₀, now, exec, elapsed, rfl, hrun, hlive₀, hjob, hbody, rfl, hfiles⟩
    · obtain ⟨pending, hrenders, hstored⟩ := hr.running k run _ _ hrun hlive₀
      rw [hjob, hbody]
      refine ⟨pending, hrenders, fun result hresult => ?_⟩
      refine (hstored result hresult).of_claimed hmove hfresh (claimed_of_attaching hrun ?_)
      rw [hlive₀]
      exact nextAsset_of_renders (hresult ▸ hrenders)
    · exact ⟨none, renders_runJob _ _ _, by rintro _ ⟨⟩⟩
    · obtain ⟨pending, hrenders, -⟩ := hr.running k run _ _ hrun hlive₀
      rw [hjob, hbody]
      have hcall : ∀ b timeoutSecs answer, q = .runSync b timeoutSecs → exec = some answer →
          A b answer := by
        rintro b timeoutSecs answer rfl rfl
        exact hanswered k _ answer _ run b timeoutSecs next aborting₀ rfl hrun hlive₀
      obtain ⟨pending', hrenders', hstored'⟩ := hrenders.of_perform hcall
      refine ⟨pending', hrenders', fun result hresult => ?_⟩
      obtain ⟨hanswer, hbytes⟩ := hstored' result hresult
      exact ⟨result, hanswer, rfl, hfiles ▸ hbytes⟩

theorem Rendered.of_file (hr : Rendered A s) {request : FilesRequest}
    (hfresh : LivesFresh s (.file request)) :
    Rendered A { s with files := (FileBackend.memory.handle s.files request).2 } where
  listed := by
    intro jobId record hget asset hmem
    exact (hr.listed jobId record hget asset hmem).of_file hfresh (claimed_of_listed hget hmem)
  running := by
    intro k run program aborting hrun hlive
    obtain ⟨pending, hrenders, hstored⟩ := hr.running k run program aborting hrun hlive
    refine ⟨pending, hrenders, fun result hresult => ?_⟩
    refine (hstored result hresult).of_file hfresh (claimed_of_attaching hrun ?_)
    rw [hlive]
    exact nextAsset_of_renders (hresult ▸ hrenders)

theorem Rendered.restart (hr : Rendered A s) (hb : b.dbUrl = true → b.filesDir = true) :
    Rendered A (s.restart b now permits timeoutVar recovered) where
  listed := by
    intro jobId record' hget' asset hmem
    obtain ⟨hdb, record, hget, hprocess, hassets⟩ := get_restart hget'
    rw [hprocess]
    obtain ⟨result, hanswer, hasset, hbytes⟩ := hr.listed jobId record hget asset (hassets ▸ hmem)
    refine ⟨result, hanswer, hasset, ?_⟩
    rw [Sys.restart, if_pos (hb hdb)]
    exact hbytes
  running := by simp [Sys.restart, Sys.initial]

/-- The invariants of an orderly service. -/
structure OrderlyInv (A : Json → Except ExecError SyncResult → Prop)
    (Created : Option String → Option String → Json → Prop) (s : Sys) : Prop where
  settled : Settled s
  traced : Traced (fun process => ∃ title description, Created title description process) s
  rendered : Rendered A s

theorem OrderlyInv.of_live {Created : Option String → Option String → Json → Prop}
    (hb : b.dbUrl = true → b.filesDir = true) {l : Life} (h : OrderlyInv A Created s)
    (hfresh : LivesFresh s l) (horderly : Orderly A Created s.runs l)
    (hstep : live b s l = some t) :
    OrderlyInv A Created t := by
  cases l with
  | serve a =>
      refine ⟨h.settled.of_step hfresh hstep,
        h.traced.of_transition h.settled.issued (transition_of_step hstep) ?_,
        h.rendered.of_step h.settled h.traced hfresh ?_ hstep⟩
      · rintro title description process rfl
        exact ⟨title, description, horderly.created title description process rfl⟩
      · rintro k now answer elapsed run b timeoutSecs next aborting rfl hrun hlive
        exact horderly.answered k now answer elapsed run b timeoutSecs next aborting rfl hrun hlive
  | file request =>
      cases hstep
      exact ⟨h.settled.of_file hfresh, ⟨h.traced.stored, h.traced.creating, h.traced.starting,
        h.traced.running⟩, h.rendered.of_file hfresh⟩
  | restart now permits timeoutVar recovered =>
      cases hstep
      exact ⟨h.settled.restart hb, h.traced.restart, h.rendered.restart hb⟩

theorem orderlyInv_of_live {Created : Option String → Option String → Json → Prop}
    (hb : b.dbUrl = true → b.filesDir = true)
    (h : Reach (live b) (fun u l => LivesFresh u l ∧ Orderly A Created u.runs l)
      (Sys.initial permits timeoutVar) s) : OrderlyInv A Created s :=
  h.invariant
    ⟨Settled.initial permits timeoutVar, Traced.initial permits timeoutVar,
      Rendered.initial permits timeoutVar⟩
    fun _ _ _ hi hG hstep => hi.of_live hb hG.1 hG.2 hstep

/-- An accepted request holds the graph in the member that is stored. -/
theorem process_of_createJob {P : Petgraph} {serdeText : Json → String} {body : Json}
    {job : NewJob} (h : createJob P serdeText body = .ok job) :
    ∃ graph, body.get "process" = some job.process ∧
      job.process.get "process_graph" = some graph := by
  cases hprocess : body.get "process" with
  | none => simp [createJob, hprocess] at h
  | some process =>
      obtain ⟨graph, _, _, hgraph, -⟩ := createJob_eq_ok h
      refine ⟨graph, ?_, hgraph⟩
      unfold createJob at h
      rw [hprocess] at h
      dsimp only at h
      repeat' split at h
      all_goals cases h
      rfl

/-- The executor reads the same graph in the request and in what is stored of it. -/
theorem mayAnswer_process {P : Petgraph} {serdeText : Json → String}
    {evaluate : ProcessGraph → Except ExecError SyncResult → Prop} {body : Json} {job : NewJob}
    {answer : Except ExecError SyncResult} (h : createJob P serdeText body = .ok job)
    (hnested : ((job.process.get "process").bind fun p => p.get "process_graph") = none) :
    MayAnswer serdeText evaluate job.process answer ↔ MayAnswer serdeText evaluate body answer := by
  obtain ⟨graph, hprocess, hgraph⟩ := process_of_createJob h
  have hparse : parseGraph serdeText job.process = parseGraph serdeText body := by
    unfold parseGraph
    rw [hnested, hprocess, hgraph, Option.bind_some, hgraph]
    rfl
  unfold MayAnswer
  rw [hparse]

end OrbitOpenEO
