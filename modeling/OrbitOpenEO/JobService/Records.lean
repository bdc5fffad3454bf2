import OrbitOpenEO.JobService.Steps

/-!
# What a step does to a job record

The steps again, seen from one job: `RecordMove` says who may change its status,
who may add an asset, and that nothing else touches either.

Two facts hold in every reachable state.  A job that is present, or that a
cancel handler has seen, has an id that was drawn before (`IssuedInv`), so that
no later job gets it; and a runner calls for its own job only (`OwnCalls`).
-/

namespace OrbitOpenEO

open Lib Lib.Program

/-- The job whose status a cancel handler sets to `Canceled` in this step. -/
def Sys.cancelWritten (s : Sys) : Action → Option String
  | .handler h _ _ =>
      match s.handlers[h]? with
      | some (.discardWrite jobId) => some jobId
      | _ => none
  | _ => none

/-- The `set_status` a runner makes in this step: the job and the status. -/
def Runner.statusWrite : Runner → Option (String × JobStatus)
  | .live (.call (.setStatus id status) _) _ => some (id, status)
  | _ => none

/-- The `set_status` a supervisor makes in this step. -/
def Supervisor.statusWrite : Supervisor → Option JobStatus
  | .cancelWrite => some .canceled
  | .panicWrite => some .error
  | _ => none

/-- The `set_status` that a step of run `k` makes: the job and the status. -/
def Sys.statusWrite (s : Sys) (k : Nat) : Action → Option (String × JobStatus)
  | .runner k' _ _ _ => if k' = k then s.runs[k]?.bind (·.runner.statusWrite) else none
  | .supervisor k' _ _ =>
      if k' = k then
        s.runs[k]?.bind (fun run => run.supervisor.statusWrite.map (run.jobId, ·))
      else none
  | _ => none

/-- The effect of a step on the record of a job. -/
inductive RecordMove (s : Sys) (a : Action) (t : Sys) (jobId : String) : Prop
  | same : t.jobs.get jobId = s.jobs.get jobId → RecordMove s a t jobId
  | removed (e : JobError) : t.jobs.get jobId = .error e → RecordMove s a t jobId
  | created (record : JobRecord) :
      jobId ∉ s.issued → jobId ∈ t.issued → t.jobs.get jobId = .ok record →
      record.assets = [] → RecordMove s a t jobId
  | updated (record record' : JobRecord) :
      s.jobs.get jobId = .ok record → t.jobs.get jobId = .ok record' →
      record'.status = record.status → record'.assets = record.assets →
      RecordMove s a t jobId
  | wrote (status : JobStatus) (record record' : JobRecord) :
      s.jobs.get jobId = .ok record → t.jobs.get jobId = .ok record' →
      record'.status = status → record'.assets = record.assets →
      (status = .canceled ∨ ∃ k, s.statusWrite k a = some (jobId, status)) →
      RecordMove s a t jobId
  | attached (k : Nat) (run : Run) (asset : JobAsset)
      (next : RunReply (.addAsset jobId asset) → RunProgram RunOutcome) (aborting : Bool)
      (record record' : JobRecord) :
      s.runs[k]? = some run → run.runner = .live (.call (.addAsset jobId asset) next) aborting →
      s.jobs.get jobId = .ok record → t.jobs.get jobId = .ok record' →
      record'.status = record.status → record'.assets = record.assets ++ [asset] →
      t.runs = s.runs.set k { run with runner := .live (next (.ok ())) aborting } →
      t.files = s.files → RecordMove s a t jobId

variable {s t : Sys} {a : Action} {jobId : String} {now : Nat}

theorem recordMove_of_setStatus {id : String} {status : JobStatus}
    (ht : t.jobs = (s.jobs.setStatus now id status).toOption.getD s.jobs)
    (hwriter : status = .canceled ∨ ∃ k, s.statusWrite k a = some (id, status)) :
    RecordMove s a t jobId := by
  cases hset : s.jobs.setStatus now id status with
  | error e =>
      rw [hset] at ht
      exact .same (by rw [ht]; rfl)
  | ok jobs =>
      rw [hset] at ht
      change t.jobs = jobs at ht
      rcases InMemoryJobStore.get_withRecord_cases hset (fun _ => rfl) jobId with
        hsame | ⟨rfl, record, hget, hget'⟩
      · exact .same (by rw [ht, hsame])
      · exact .wrote status record (JobRecord.stamp now { record with status := status }) hget
          (ht ▸ hget') rfl rfl hwriter

/-- An update of a record that leaves its status and its assets. -/
theorem recordMove_of_withRecord {id : String} {change : JobRecord → JobRecord}
    {jobs : InMemoryJobStore} (hset : s.jobs.withRecord now id change = .ok jobs)
    (ht : t.jobs = jobs) (hid : ∀ r, (change r).id = r.id)
    (hstatus : ∀ r, (change r).status = r.status) (hassets : ∀ r, (change r).assets = r.assets) :
    RecordMove s a t jobId := by
  rcases InMemoryJobStore.get_withRecord_cases hset hid jobId with hsame | ⟨rfl, record, hget, hget'⟩
  · exact .same (by rw [ht, hsame])
  · exact .updated record ((change record).stamp now) hget (ht ▸ hget') (hstatus record) (hassets record)

/-- The job a cancel handler has read. -/
def Handler.discards : Handler → Option String
  | .discardCancel jobId _ => some jobId
  | .discardWrite jobId => some jobId
  | _ => none

/-- The jobs that are present and the jobs that cancel handlers have read were
created before. -/
structure IssuedInv (s : Sys) : Prop where
  present : ∀ jobId record, s.jobs.get jobId = .ok record → jobId ∈ s.issued
  discarded : ∀ (i : Nat) (hd : Handler) (jobId : String),
    s.handlers[i]? = some hd → hd.discards = some jobId → jobId ∈ s.issued

theorem issued_of_stepHandler {uuid : String} {hd hd' : Handler}
    (h : stepHandler now uuid s hd = some (hd', t)) : s.issued ⊆ t.issued := by
  cases hd with
  | createJob title description process =>
      simp only [stepHandler] at h
      split_ifs at h
      cases h
      exact List.subset_cons_self _ _
  | discardCancel j wasActive =>
      cases h
      unfold Sys.cancel
      split <;> exact List.Subset.refl _
  | _ =>
      simp only [stepHandler] at h
      repeat' split at h
      all_goals grind

theorem jobs_cancel (s : Sys) (jobId : String) : (s.cancel jobId).jobs = s.jobs := by
  unfold Sys.cancel
  split <;> rfl

/-- The record a handler step leaves. -/
theorem recordMove_of_stepHandler (hs : IssuedInv s) {uuid : String} {hd hd' : Handler}
    {u : Sys} (hstep : stepHandler now uuid s hd = some (hd', u)) (hjobs : t.jobs = u.jobs)
    (hissued : t.issued = u.issued) : RecordMove s a t jobId := by
  cases hd with
  | createJob title description process =>
      simp only [stepHandler] at hstep
      split_ifs at hstep with hnew
      cases hstep
      have hget := InMemoryJobStore.get_create (fun r hr => hnew (hs.present uuid r hr)) now
        DEFAULT_USER title description process jobId
      dsimp only at hjobs hissued
      rw [← hjobs] at hget
      split_ifs at hget with hj
      · subst hj
        exact .created _ hnew (by simp [hissued]) hget rfl
      · exact .same hget
  | updateJob j title description =>
      simp only [stepHandler] at hstep
      split at hstep
      · rename_i jobs hset
        cases hstep
        exact recordMove_of_withRecord hset hjobs (fun _ => rfl) (fun _ => rfl) (fun _ => rfl)
      · cases hstep
        exact .same (by rw [hjobs])
  | deleteJob j =>
      cases hstep
      have hget : t.jobs.get jobId = (s.jobs.delete j).get jobId := by rw [hjobs]
      rw [InMemoryJobStore.get_delete] at hget
      split_ifs at hget
      · exact .removed _ hget
      · exact .same hget
  | discardCancel j wasActive =>
      cases hstep
      exact .same (by rw [hjobs, jobs_cancel])
  | discardWrite j =>
      cases hstep
      exact recordMove_of_setStatus hjobs (.inl rfl)
  | _ =>
      refine .same ?_
      rw [hjobs]
      simp only [stepHandler] at hstep
      repeat' split at hstep
      all_goals grind

/-- The record a call of a runner leaves. -/
theorem recordMove_of_call {k : Nat} {run : Run} {q : RunCall}
    {next : RunReply q → RunProgram RunOutcome} {aborting : Bool}
    {exec : Option (Except ExecError SyncResult)} {elapsed : F64} (hrun : s.runs[k]? = some run)
    (hr : run.runner = .live (.call q next) aborting) :
    RecordMove s (.runner k now exec elapsed)
      { s with
        runs := s.runs.set k
          { run with runner := .live (next (perform now exec elapsed s.jobs s.files q).1) aborting }
        jobs := (perform now exec elapsed s.jobs s.files q).2.1
        files := (perform now exec elapsed s.jobs s.files q).2.2 } jobId := by
  cases q with
  | setStatus id status =>
      have hjobs : (perform now exec elapsed s.jobs s.files (.setStatus id status)).2.1 =
          (s.jobs.setStatus now id status).toOption.getD s.jobs := by
        simp only [perform]
        split <;> simp_all [Except.toOption]
      exact recordMove_of_setStatus hjobs
        (.inr ⟨k, by simp [Sys.statusWrite, hrun, hr, Runner.statusWrite]⟩)
  | setProgress id progress =>
      simp only [perform]
      split
      · rename_i jobs hset
        exact recordMove_of_withRecord hset rfl (fun _ => rfl) (fun _ => rfl) (fun _ => rfl)
      · exact .same rfl
  | appendLog id level message =>
      simp only [perform]
      split
      · rename_i jobs hset
        exact .same (InMemoryJobStore.get_appendLog hset jobId)
      · exact .same rfl
  | addAsset id asset =>
      simp only [perform]
      split
      · rename_i jobs hset
        rcases InMemoryJobStore.get_withRecord_cases hset (fun _ => rfl) jobId with
          hsame | ⟨rfl, record, hget, hget'⟩
        · exact .same hsame
        · exact .attached k run asset next aborting record
            (JobRecord.stamp now { record with assets := record.assets ++ [asset] })
            hrun hr hget hget' rfl rfl rfl rfl
      · exact .same rfl
  | put key bytes =>
      simp only [perform]
      split <;> exact .same rfl
  | _ =>
      exact .same rfl

/-- The record a move of a supervisor leaves. -/
theorem recordMove_of_supervisorMove {k : Nat} {notified : Bool} {run run' : Run}
    {jobs : InMemoryJobStore} {registry : JobRegistry} {permits : Nat}
    (hrun : s.runs[k]? = some run)
    (hmove : SupervisorMove now s run run' jobs registry permits) (ht : t.jobs = jobs) :
    RecordMove s (.supervisor k now notified) t jobId := by
  cases hmove with
  | cancelWrite hsup =>
      exact recordMove_of_setStatus ht (.inl rfl)
  | panicWrite hsup =>
      exact recordMove_of_setStatus ht
        (.inr ⟨k, by simp [Sys.statusWrite, hrun, hsup, Supervisor.statusWrite]⟩)
  | _ =>
      exact .same (by rw [ht])

/-- **The record of a job after a step.** -/
theorem recordMove_of_transition (hs : IssuedInv s) (h : Transition s a t) (jobId : String) :
    RecordMove s a t jobId := by
  cases h with
  | handler hhd hstep =>
      exact recordMove_of_stepHandler hs hstep rfl rfl
  | supervisor hrun hmove =>
      exact recordMove_of_supervisorMove hrun hmove rfl
  | call hrun hr =>
      exact recordMove_of_call hrun hr
  | _ =>
      exact .same rfl

theorem issued_of_transition (h : Transition s a t) : s.issued ⊆ t.issued := by
  cases h with
  | handler hhd hstep =>
      have hsub := issued_of_stepHandler hstep
      exact hsub
  | _ =>
      exact List.Subset.refl _

/-- A cancel handler reads the record of its job before it cancels. -/
theorem discards_of_stepHandler {uuid : String} {hd hd' : Handler} {u : Sys}
    (hstep : stepHandler now uuid s hd = some (hd', u)) (hd'_discards : hd'.discards = some jobId) :
    hd.discards = some jobId ∨ ∃ record, s.jobs.get jobId = .ok record := by
  cases hd with
  | discardGet j =>
      simp only [stepHandler] at hstep
      split at hstep
      · cases hstep
        cases hd'_discards
      · rename_i record hget
        cases hstep
        cases hd'_discards
        exact .inr ⟨record, hget⟩
  | discardCancel j wasActive =>
      cases hstep
      cases wasActive
      · cases hd'_discards
      · exact .inl hd'_discards
  | _ =>
      simp only [stepHandler] at hstep
      repeat' split at hstep
      all_goals cases hstep <;> cases hd'_discards

theorem IssuedInv.of_transition (hs : IssuedInv s) (h : Transition s a t) : IssuedInv t where
  present := by
    intro jobId record hget
    cases recordMove_of_transition hs h jobId with
    | same hsame =>
        exact issued_of_transition h (hs.present jobId record (hsame ▸ hget))
    | removed e hgone =>
        rw [hgone] at hget
        cases hget
    | created record' _ hissued _ _ =>
        exact hissued
    | updated record₀ _ hget₀ _ _ _ =>
        exact issued_of_transition h (hs.present jobId record₀ hget₀)
    | wrote _ record₀ _ hget₀ _ _ _ _ =>
        exact issued_of_transition h (hs.present jobId record₀ hget₀)
    | attached _ _ _ _ _ record₀ _ _ _ hget₀ _ _ _ _ _ =>
        exact issued_of_transition h (hs.present jobId record₀ hget₀)
  discarded := by
    intro i hd' jobId hhd' hdiscards
    rcases handler_of_transition h hhd' with hhd | ⟨now, uuid, hd, u, rfl, hhd, hstep, -⟩ |
      ⟨request, rfl, rfl⟩
    · exact issued_of_transition h (hs.discarded i hd' jobId hhd hdiscards)
    · rcases discards_of_stepHandler hstep hdiscards with hd_discards | ⟨record, hget⟩
      · exact issued_of_transition h (hs.discarded i hd jobId hhd hd_discards)
      · exact issued_of_transition h (hs.present jobId record hget)
    · cases request <;> cases hdiscards

theorem IssuedInv.initial (permits : Nat) (timeoutVar : Option String) :
    IssuedInv (Sys.initial permits timeoutVar) where
  present := by
    intro jobId record hget
    cases hget
  discarded := by
    intro i hd jobId hhd
    simp [Sys.initial] at hhd

theorem issuedInv_of_reach {G : Sys → Action → Prop} {permits : Nat}
    {timeoutVar : Option String} (h : Reach step G (Sys.initial permits timeoutVar) s) :
    IssuedInv s :=
  h.invariant (IssuedInv.initial permits timeoutVar)
    (fun _ _ _ hs _ hstep => hs.of_transition (transition_of_step hstep))

/-- The call is made for this job. -/
def RunCall.concerns (jobId : String) : RunCall → Prop
  | .setStatus id _ => id = jobId
  | .setProgress id _ => id = jobId
  | .appendLog id _ _ => id = jobId
  | .addAsset id _ => id = jobId
  | .put key _ => key.userId = jobId
  | .publish event => event.jobId = jobId
  | _ => True

/-- The call is one that a runner of this job makes. -/
def RunCall.made (jobId : String) : RunCall → Prop
  | .setProgress id progress => id = jobId ∧ ∃ q, progress = .finite q
  | q => q.concerns jobId

theorem RunCall.concerns_of_made {jobId : String} (q : RunCall) (h : q.made jobId) :
    q.concerns jobId := by
  cases q with
  | setProgress id progress => exact h.1
  | _ => exact h

section MadeCalls

variable (jobId userId : String)

theorem allCalls_recordTerminal (outcome : String) (result : RunOutcome) :
    (recordTerminal outcome >>= fun _ => return result).AllCalls (RunCall.made jobId) :=
  ⟨trivial, fun _ => ⟨trivial, fun _ => ⟨trivial, fun _ => trivial⟩⟩⟩

theorem allCalls_runFinalise :
    (runFinalise jobId userId).AllCalls (RunCall.made jobId) := by
  refine ⟨⟨rfl, _, rfl⟩, fun _ => ⟨rfl, fun _ => ⟨rfl, fun r => ?_⟩⟩⟩
  cases r with
  | error e =>
      trivial
  | ok u =>
      refine ⟨rfl, fun _ => ⟨⟨rfl, _, rfl⟩, fun _ => ⟨rfl, fun _ => ?_⟩⟩⟩
      exact allCalls_recordTerminal jobId _ _

theorem allCalls_runPersist (result : SyncResult) :
    (runPersist jobId userId result).AllCalls (RunCall.made jobId) := by
  refine ⟨rfl, fun r => ?_⟩
  cases r with
  | error e =>
      exact ⟨rfl, fun _ => ⟨rfl, fun _ => trivial⟩⟩
  | ok u =>
      refine ⟨rfl, fun r => ?_⟩
      cases r with
      | error e =>
          exact ⟨rfl, fun _ => ⟨rfl, fun _ => trivial⟩⟩
      | ok u =>
          exact allCalls_runFinalise jobId userId

theorem allCalls_runFailed (e : ExecError) :
    (runFailed jobId userId e).AllCalls (RunCall.made jobId) := by
  refine ⟨rfl, fun _ => ⟨rfl, fun _ => ⟨rfl, fun _ => ?_⟩⟩⟩
  exact allCalls_recordTerminal jobId _ _

theorem allCalls_runTimedOut (timeoutSecs : Nat) :
    (runTimedOut jobId userId timeoutSecs).AllCalls (RunCall.made jobId) := by
  refine ⟨rfl, fun _ => ⟨rfl, fun _ => ⟨rfl, fun _ => ?_⟩⟩⟩
  exact allCalls_recordTerminal jobId _ _

/-- `run_job` makes every call for its own job, and its progress values are numbers. -/
theorem allCalls_runJob (timeoutSecs : Nat) (body : Json) :
    (runJob jobId userId timeoutSecs body).AllCalls (RunCall.made jobId) := by
  refine ⟨rfl, fun r => ?_⟩
  cases r with
  | error e =>
      trivial
  | ok u =>
      refine ⟨rfl, fun _ => ⟨rfl, fun r => ?_⟩⟩
      cases r with
      | error e =>
          trivial
      | ok u =>
          refine ⟨rfl, fun _ => ⟨⟨rfl, _, rfl⟩, fun _ => ⟨rfl, fun _ => ⟨trivial, fun r => ?_⟩⟩⟩⟩
          match r with
          | none => exact allCalls_runTimedOut jobId userId timeoutSecs
          | some (.ok result) =>
              exact ⟨⟨rfl, _, rfl⟩, fun _ =>
                ⟨rfl, fun _ => allCalls_runPersist jobId userId result⟩⟩
          | some (.error e) =>
              exact ⟨⟨rfl, _, rfl⟩, fun _ => ⟨rfl, fun _ => allCalls_runFailed jobId userId e⟩⟩

end MadeCalls

/-- A property of the program of a live runner and its job. -/
def Run.Follows (P : String → RunProgram RunOutcome → Prop) (run : Run) : Prop :=
  ∀ program aborting, run.runner = .live program aborting → P run.jobId program

section Follows

variable {P : String → RunProgram RunOutcome → Prop}

theorem Run.Follows.of_evolves
    (hstart : ∀ jobId userId timeoutSecs body, P jobId (runJob jobId userId timeoutSecs body))
    (hcall : ∀ jobId q next, P jobId (.call q next) → ∀ r, P jobId (next r)) {run run' : Run}
    (h : run.Follows P) (hev : run.Evolves s run') : run'.Follows P := by
  intro program aborting hr'
  cases hev with
  | same =>
      exact h program aborting hr'
  | notifyOne =>
      exact h program aborting hr'
  | moved hmove =>
      cases hmove with
      | spawn hsup =>
          cases hr'
          exact hstart _ _ _ _
      | abort hsup =>
          cases hr : run.runner with
          | live p b =>
              simp only [hr, Runner.abort, Runner.live.injEq] at hr'
              obtain ⟨rfl, -⟩ := hr'
              exact h p b hr
          | _ =>
              simp [hr, Runner.abort] at hr'
      | _ =>
          exact h program aborting hr'
  | called reply hr =>
      cases hr'
      exact hcall _ _ _ (h _ _ hr) reply
  | returned hr =>
      cases hr'
  | panicked hr =>
      cases hr'
  | aborted hr =>
      cases hr'

/-- **What holds of `run_job` and is kept by its calls** holds of every live
runner. -/
theorem follows_of_reach
    (hstart : ∀ jobId userId timeoutSecs body, P jobId (runJob jobId userId timeoutSecs body))
    (hcall : ∀ jobId q next, P jobId (.call q next) → ∀ r, P jobId (next r))
    {G : Sys → Action → Prop} {permits : Nat} {timeoutVar : Option String}
    (h : Reach step G (Sys.initial permits timeoutVar) s) :
    ∀ (k : Nat) (run : Run), s.runs[k]? = some run → run.Follows P := by
  refine h.invariant
    (I := fun s => ∀ (k : Nat) (run : Run), s.runs[k]? = some run → run.Follows P) ?_ ?_
  · intro k run hrun
    simp [Sys.initial] at hrun
  · intro s a t hs _ hstep k run' hrun'
    rcases run_of_transition (transition_of_step hstep) hrun' with ⟨run, hrun, hev⟩ |
      ⟨_, _, _, j, record, -, -, -, -, rfl⟩
    · exact (hs k run hrun).of_evolves hstart hcall hev
    · intro program aborting hr
      cases hr

end Follows

/-- The calls a runner may still make are for its own job. -/
def Run.OwnCalls : Run → Prop :=
  Run.Follows (fun jobId program => program.AllCalls (RunCall.concerns jobId))

theorem ownCalls_of_reach {G : Sys → Action → Prop} {permits : Nat}
    {timeoutVar : Option String} (h : Reach step G (Sys.initial permits timeoutVar) s) :
    ∀ (k : Nat) (run : Run), s.runs[k]? = some run → run.OwnCalls :=
  follows_of_reach
    (fun jobId userId timeoutSecs body =>
      (allCalls_runJob jobId userId timeoutSecs body).mono RunCall.concerns_of_made)
    (fun _ _ _ hp => hp.2) h

end OrbitOpenEO
