import OrbitOpenEO.Runner

/-!
# What a run leaves behind

Two properties of complete runs of `run_job`, under every executor outcome and
every pattern of rejected calls: the status of the job when the run returns,
and the terminal event and metric it reports.

A rejected call has no effect on the store; an accepted one has the effect of
the same call on `InMemoryJobStore` (`InMemoryJobStore.after`).  Of all that,
only the accepted status writes matter for the status (`status_after`).
-/

namespace OrbitOpenEO

open Lib Lib.Program

/-- The call succeeded. -/
def accepted : Exchange RunReply → Bool
  | ⟨.setStatus _ _, r⟩ => r.isOk
  | ⟨.setProgress _ _, r⟩ => r.isOk
  | ⟨.appendLog _ _ _, r⟩ => r.isOk
  | ⟨.addAsset _ _, r⟩ => r.isOk
  | ⟨.put _ _, r⟩ => r.isOk
  | ⟨.publish _, _⟩ => true
  | ⟨.counterInc _ _ _, _⟩ => true
  | ⟨.elapsed, _⟩ => true
  | ⟨.histogramObserve _ _ _, _⟩ => true
  | ⟨.runSync _ _, _⟩ => true

section Exchanges

variable (jobId userId : String) (r : Except JobError Unit)

@[simp] theorem isOk_ok {ε α : Type} (a : α) : (Except.ok a : Except ε α).isOk = true := rfl

@[simp] theorem isOk_error {ε α : Type} (e : ε) : (Except.error e : Except ε α).isOk = false := rfl

@[simp] theorem req_wrote (status : JobStatus) :
    (wrote jobId status r).req = .setStatus jobId status := rfl

@[simp] theorem accepted_wrote (status : JobStatus) :
    accepted (wrote jobId status r) = r.isOk := rfl

@[simp] theorem req_progressed (percent : F64) :
    (progressed jobId percent r).req = .setProgress jobId percent := rfl

@[simp] theorem req_logged (level message : String) :
    (logged jobId level message r).req = .appendLog jobId level message := rfl

@[simp] theorem req_published (kind : JobEventKind) :
    (published jobId userId kind).req = .publish ⟨userId, jobId, kind⟩ := rfl

@[simp] theorem accepted_published (kind : JobEventKind) :
    accepted (published jobId userId kind) = true := rfl

@[simp] theorem req_stored (result : SyncResult) (r : Except FileError Unit) :
    (stored jobId result r).req =
      .put ⟨jobId, defaultAssetName result.contentType⟩ result.body := rfl

@[simp] theorem accepted_stored (result : SyncResult) (r : Except FileError Unit) :
    accepted (stored jobId result r) = r.isOk := rfl

@[simp] theorem req_attached (result : SyncResult) :
    (attached jobId result r).req = .addAsset jobId (resultAsset result) := rfl

@[simp] theorem accepted_attached (result : SyncResult) :
    accepted (attached jobId result r) = r.isOk := rfl

@[simp] theorem accepted_runSync (body : Json) (timeoutSecs : Nat)
    (r : Option (Except ExecError SyncResult)) :
    accepted ⟨.runSync body timeoutSecs, r⟩ = true := rfl

@[simp] theorem accepted_recorded (outcome : String) (elapsed : F64) :
    ∀ x ∈ recorded outcome elapsed, accepted x = true := by
  intro x hx
  simp only [recorded, List.mem_cons, List.not_mem_nil, or_false] at hx
  rcases hx with rfl | rfl | rfl <;> rfl

end Exchanges

/-- The run made the call `q` and it was rejected. -/
def Rejected (tr : RunTrace) (q : RunCall) : Prop :=
  ∃ x ∈ tr, x.req = q ∧ accepted x = false

section RejectedLemmas

variable {jobId userId : String} (q : RunCall)

@[simp] theorem rejected_cons (x : Exchange RunReply) (tr : RunTrace) :
    Rejected (x :: tr) q ↔ (x.req = q ∧ accepted x = false) ∨ Rejected tr q := by
  simp [Rejected]

@[simp] theorem not_rejected_nil : ¬ Rejected [] q := by
  simp [Rejected]

@[simp] theorem rejected_append (tr tr' : RunTrace) :
    Rejected (tr ++ tr') q ↔ Rejected tr q ∨ Rejected tr' q := by
  simp [Rejected, or_and_right, exists_or]

@[simp] theorem not_rejected_recorded (outcome : String) (elapsed : F64) :
    ¬ Rejected (recorded outcome elapsed) q := by
  rintro ⟨x, hx, -, hrej⟩
  rw [accepted_recorded outcome elapsed x hx] at hrej
  cases hrej

@[simp] theorem not_rejected_computing (status : JobStatus) (r₁ r₂ : Except JobError Unit) :
    ¬ Rejected (computing jobId userId r₁ r₂) (.setStatus jobId status) := by
  simp [computing]

@[simp] theorem not_rejected_executed (status : JobStatus) (timeoutSecs : Nat) (body : Json)
    (result : Except ExecError SyncResult) (r₁ r₂ r₃ : Except JobError Unit) :
    ¬ Rejected (executed jobId userId timeoutSecs body result r₁ r₂ r₃)
      (.setStatus jobId status) := by
  simp [executed]

end RejectedLemmas

/-- Calls whose result `run_job` throws away. -/
def bestEffort : RunCall → Bool
  | .setProgress _ _ => true
  | .appendLog _ _ _ => true
  | _ => false

namespace InMemoryJobStore

/-- The effect of one exchange on the store. -/
def effect (now : Nat) (store : InMemoryJobStore) : Exchange RunReply → InMemoryJobStore
  | ⟨.setStatus id status, .ok _⟩ => (store.setStatus now id status).toOption.getD store
  | ⟨.setProgress id progress, .ok _⟩ => (store.setProgress now id progress).toOption.getD store
  | ⟨.appendLog id level message, .ok _⟩ =>
      (store.appendLog now id level message).toOption.getD store
  | ⟨.addAsset id asset, .ok _⟩ => (store.addAsset now id asset).toOption.getD store
  | _ => store

/-- The store after a list of exchanges; `clock n` is the time at the `n`-th. -/
def after (clock : Nat → Nat) : Nat → InMemoryJobStore → RunTrace → InMemoryJobStore
  | _, store, [] => store
  | n, store, x :: tr => after clock (n + 1) (store.effect (clock n) x) tr

end InMemoryJobStore

/-- The status a call asks to write for `jobId`. -/
def statusCall (jobId : String) : RunCall → Option JobStatus
  | .setStatus id status => if id = jobId then some status else none
  | _ => none

/-- The status an exchange wrote for `jobId`. -/
def statusWritten (jobId : String) (x : Exchange RunReply) : Option JobStatus :=
  (statusCall jobId x.req).filter (fun _ => accepted x)

/-- The accepted status writes of a run. -/
def statusWrites (jobId : String) (tr : RunTrace) : List JobStatus :=
  tr.filterMap (statusWritten jobId)

section StatusWrites

variable (jobId userId : String)

@[simp] theorem statusWrites_nil : statusWrites jobId [] = [] := rfl

@[simp] theorem statusWrites_cons (x : Exchange RunReply) (tr : RunTrace) :
    statusWrites jobId (x :: tr) = (statusWritten jobId x).toList ++ statusWrites jobId tr := by
  unfold statusWrites
  rw [List.filterMap_cons]
  cases statusWritten jobId x <;> rfl

@[simp] theorem statusWrites_append (tr tr' : RunTrace) :
    statusWrites jobId (tr ++ tr') = statusWrites jobId tr ++ statusWrites jobId tr' :=
  List.filterMap_append

@[simp] theorem statusWritten_wrote_ok (status : JobStatus) (u : Unit) :
    statusWritten jobId (wrote jobId status (.ok u)) = some status := by
  simp [statusWritten, statusCall, Option.filter]

@[simp] theorem statusWritten_wrote_error (status : JobStatus) (e : JobError) :
    statusWritten jobId (wrote jobId status (.error e)) = none := by
  simp [statusWritten]

/-- Other calls write no status. -/
theorem statusWritten_eq_none {x : Exchange RunReply} (h : statusCall jobId x.req = none) :
    statusWritten jobId x = none := by
  simp [statusWritten, h]

@[simp] theorem statusWritten_progressed (percent : F64) (r : Except JobError Unit) :
    statusWritten jobId (progressed jobId percent r) = none :=
  statusWritten_eq_none jobId rfl

@[simp] theorem statusWritten_logged (level message : String) (r : Except JobError Unit) :
    statusWritten jobId (logged jobId level message r) = none :=
  statusWritten_eq_none jobId rfl

@[simp] theorem statusWritten_published (kind : JobEventKind) :
    statusWritten jobId (published jobId userId kind) = none :=
  statusWritten_eq_none jobId rfl

@[simp] theorem statusWritten_stored (result : SyncResult) (r : Except FileError Unit) :
    statusWritten jobId (stored jobId result r) = none :=
  statusWritten_eq_none jobId rfl

@[simp] theorem statusWritten_attached (result : SyncResult) (r : Except JobError Unit) :
    statusWritten jobId (attached jobId result r) = none :=
  statusWritten_eq_none jobId rfl

@[simp] theorem statusWritten_runSync (body : Json) (timeoutSecs : Nat)
    (r : Option (Except ExecError SyncResult)) :
    statusWritten jobId ⟨.runSync body timeoutSecs, r⟩ = none :=
  statusWritten_eq_none jobId rfl

@[simp] theorem statusWrites_recorded (outcome : String) (elapsed : F64) :
    statusWrites jobId (recorded outcome elapsed) = [] := rfl

@[simp] theorem statusWrites_computing (r₁ r₂ : Except JobError Unit) :
    statusWrites jobId (computing jobId userId r₁ r₂) = [.queued, .running] := by
  simp [computing]

@[simp] theorem statusWrites_executed (timeoutSecs : Nat) (body : Json)
    (result : Except ExecError SyncResult) (r₁ r₂ r₃ : Except JobError Unit) :
    statusWrites jobId (executed jobId userId timeoutSecs body result r₁ r₂ r₃) =
      [.queued, .running] := by
  simp [executed]

end StatusWrites

section Store

variable {store : InMemoryJobStore} {jobId : String} {r : JobRecord}

theorem get_withRecord_getD (hget : store.get jobId = .ok r) (now : Nat) (id : String)
    {change : JobRecord → JobRecord} (hid : ∀ r, (change r).id = r.id) :
    ((store.withRecord now id change).toOption.getD store).get jobId =
      .ok (if jobId = id then (change r).stamp now else r) := by
  cases h : store.withRecord now id change with
  | error e =>
      -- an update of the job itself cannot fail
      have hne : ¬ jobId = id := by
        rintro rfl
        obtain ⟨store', hok⟩ := InMemoryJobStore.withRecord_eq_ok hget now change
        rw [hok] at h
        cases h
      simpa [Except.toOption, hne] using hget
  | ok store' =>
      have := InMemoryJobStore.get_withRecord h hid jobId
      simp only [Except.toOption, Option.getD_some]
      rw [this]
      split_ifs with hk
      · subst hk
        rw [hget]
        rfl
      · exact hget

/-- The status after one exchange. -/
theorem status_effect (hget : store.get jobId = .ok r) (now : Nat) (x : Exchange RunReply) :
    ∃ r', (store.effect now x).get jobId = .ok r' ∧
      r'.status = (statusWritten jobId x).getD r.status := by
  obtain ⟨q, reply⟩ := x
  cases q with
  | setStatus id status =>
      cases reply with
      | error e =>
          exact ⟨r, hget, by simp [statusWritten, accepted]⟩
      | ok u =>
          refine ⟨_, get_withRecord_getD hget now id (fun _ => rfl), ?_⟩
          by_cases hk : jobId = id
          · simp [hk, JobRecord.stamp, statusWritten, statusCall, accepted, Option.filter]
          · simp [hk, statusWritten, statusCall, Ne.symm hk]
  | setProgress id progress =>
      cases reply with
      | error e =>
          exact ⟨r, hget, rfl⟩
      | ok u =>
          refine ⟨_, get_withRecord_getD hget now id (fun _ => rfl), ?_⟩
          split_ifs <;> rfl
  | addAsset id asset =>
      cases reply with
      | error e =>
          exact ⟨r, hget, rfl⟩
      | ok u =>
          refine ⟨_, get_withRecord_getD hget now id (fun _ => rfl), ?_⟩
          split_ifs <;> rfl
  | appendLog id level message =>
      cases reply with
      | error e =>
          exact ⟨r, hget, rfl⟩
      | ok u =>
          refine ⟨r, ?_, rfl⟩
          change ((store.appendLog now id level message).toOption.getD store).get jobId = _
          cases h : store.appendLog now id level message with
          | error e =>
              exact hget
          | ok store' =>
              exact (InMemoryJobStore.get_appendLog h jobId).trans hget
  | _ =>
      exact ⟨r, hget, by simp [statusWritten, statusCall]⟩

/-- **The status after a run is the last one it wrote.** -/
theorem status_after (clock : Nat → Nat) :
    ∀ (tr : RunTrace) (n : Nat) (store : InMemoryJobStore) (r : JobRecord),
      store.get jobId = .ok r →
        ∃ r', (store.after clock n tr).get jobId = .ok r' ∧
          r'.status = (statusWrites jobId tr).getLast?.getD r.status
  | [], _, _, r, hget => ⟨r, hget, rfl⟩
  | x :: tr, n, store, r, hget => by
      obtain ⟨r₁, hget₁, hst₁⟩ := status_effect hget (clock n) x
      obtain ⟨r₂, hget₂, hst₂⟩ := status_after clock tr (n + 1) _ r₁ hget₁
      refine ⟨r₂, hget₂, hst₂.trans ?_⟩
      rw [hst₁, statusWrites_cons]
      cases statusWritten jobId x with
      | none =>
          rfl
      | some status =>
          simp [List.getLast?_cons]

end Store

section Status

variable {jobId userId : String} {timeoutSecs : Nat} {body : Json}
variable {tr : RunTrace} {o : RunOutcome}

/-- **A run leaves its job `Finished` or `Error`, or had the write of `Error`
rejected, exactly when the writes of `Running` and `Finished` are not rejected
and the job was in one of these states already if the write of `Queued` is.** -/
theorem runJob_status_iff (store : InMemoryJobStore) (clock : Nat → Nat) {r : JobRecord}
    (hget : store.get jobId = .ok r) (hpath : Path (runJob jobId userId timeoutSecs body) tr o) :
    ((∃ r', (store.after clock 0 tr).get jobId = .ok r' ∧
        (r'.status = .finished ∨ r'.status = .error)) ∨
      Rejected tr (.setStatus jobId .error)) ↔
      (Rejected tr (.setStatus jobId .queued) → r.status = .finished ∨ r.status = .error) ∧
        ¬ Rejected tr (.setStatus jobId .running) ∧
        ¬ Rejected tr (.setStatus jobId .finished) := by
  obtain ⟨r', hget', hst⟩ := status_after clock tr 0 store r hget
  have hleft : (∃ r', (store.after clock 0 tr).get jobId = .ok r' ∧
      (r'.status = .finished ∨ r'.status = .error)) ↔
      ((statusWrites jobId tr).getLast?.getD r.status = .finished ∨
        (statusWrites jobId tr).getLast?.getD r.status = .error) := by
    rw [hget', ← hst]
    simp
  rw [hleft]
  cases runShape_of_path hpath with
  | queuedRejected e =>
      simp
  | runningRejected e =>
      simp
  | timedOut r₁ r₂ r₃ r₄ elapsed =>
      cases r₄ <;> simp
  | execFailed e r₁ r₂ r₃ r₄ r₅ elapsed =>
      cases r₅ <;> simp
  | putRejected result e r₁ r₂ r₃ r₄ =>
      cases r₄ <;> simp
  | addAssetRejected result e r₁ r₂ r₃ r₄ =>
      cases r₄ <;> simp
  | finishedRejected result e r₁ r₂ r₃ r₄ =>
      simp
  | finished result r₁ r₂ r₃ r₄ r₅ r₆ elapsed =>
      simp

/-- A job that has not been started. -/
def sampleRecord : JobRecord where
  id := "job"
  userId := "anonymous"
  title := none
  description := none
  process := sampleProcess
  status := .created
  progress := some (.finite 0)
  created := 0
  updated := 0
  assets := []

/-- A store that holds this job. -/
def sampleStore : InMemoryJobStore := ⟨[sampleRecord], fun _ => none⟩

/-- Replies without an error: the executor returns a small document. -/
def sampleReply : (q : RunCall) → RunReply q
  | .setStatus _ _ => .ok ()
  | .setProgress _ _ => .ok ()
  | .appendLog _ _ _ => .ok ()
  | .addAsset _ _ => .ok ()
  | .put _ _ => .ok ()
  | .publish _ => ()
  | .counterInc _ _ _ => ()
  | .elapsed => .finite 1
  | .histogramObserve _ _ _ => ()
  | .runSync _ _ => some (.ok ⟨"application/json", [0x7b, 0x7d]⟩)

theorem accepted_of_mem_sample {p : RunProgram RunOutcome} {x : Exchange RunReply}
    (hx : x ∈ p.transcript sampleReply) : accepted x = true := by
  have hreply := reply_eq_of_mem_transcript sampleReply hx
  obtain ⟨q, r⟩ := x
  dsimp only at hreply
  subst hreply
  cases q <;> rfl

theorem runJob_status_sample :
    (∃ r', (sampleStore.after (fun _ => 0) 0
        ((runJob "job" "anonymous" 600 sampleRecord.process).transcript sampleReply)).get "job" =
          .ok r' ∧ (r'.status = .finished ∨ r'.status = .error)) ∨
      Rejected ((runJob "job" "anonymous" 600 sampleRecord.process).transcript sampleReply)
        (.setStatus "job" .error) := by
  have hno : ∀ q, ¬ Rejected
      ((runJob "job" "anonymous" 600 sampleRecord.process).transcript sampleReply) q := by
    rintro q ⟨x, hx, -, hrej⟩
    rw [accepted_of_mem_sample hx] at hrej
    cases hrej
  exact (runJob_status_iff sampleStore (fun _ => 0) (r := sampleRecord) rfl
    (path_answer sampleReply _)).mpr ⟨fun h => absurd h (hno _), hno _, hno _⟩

/-- If the write of `Running` is rejected the run returns at once and the job
stays `Queued`. -/
theorem runJob_leaves_queued :
    ∃ tr o, Path (runJob "job" "anonymous" 600 sampleRecord.process) tr o ∧
      ¬ ((∃ r', (sampleStore.after (fun _ => 0) 0 tr).get "job" = .ok r' ∧
          (r'.status = .finished ∨ r'.status = .error)) ∨
        Rejected tr (.setStatus "job" .error)) := by
  refine ⟨[wrote "job" .queued (.ok ()), published "job" "anonymous" .started,
    wrote "job" .running (.error (.backend "database is locked"))], _,
    .call (.call (.call (.done _))), ?_⟩
  rintro (⟨r', hget, hst⟩ | hrej)
  · have hqueued : r' = { sampleRecord with status := .queued } := by
      cases hget
      rfl
    rw [hqueued] at hst
    simp at hst
  · simp at hrej

end Status

/-- The kind of a terminal event. -/
def terminalEvent : RunCall → Option JobEventKind
  | .publish event =>
      if event.kind = .completed ∨ event.kind = .failed then some event.kind else none
  | _ => none

/-- The labels of an increment of the job counter. -/
def jobCount : RunCall → Option Labels
  | .counterInc .etlJobsTotal labels _ => some labels
  | _ => none

/-- The labels of an observation of the job duration. -/
def jobDuration : RunCall → Option Labels
  | .histogramObserve .etlJobDurationSeconds labels _ => some labels
  | _ => none

/-- The calls of a run. -/
def calls (tr : RunTrace) : List RunCall := tr.map Exchange.req

/-- An event kind, an outcome label and a status that belong together. -/
inductive Agree : JobEventKind → String → JobStatus → Prop
  | finished : Agree .completed "finished" .finished
  | error : Agree .failed "error" .error
  | timeout : Agree .failed "timeout" .error

/-- Exactly one terminal event and one terminal metric, which agree with each
other and with the last status the run wrote. -/
def ReportsOnce (jobId : String) (tr : RunTrace) : Prop :=
  ∃ kind outcome status,
    (calls tr).filterMap terminalEvent = [kind] ∧
    (calls tr).filterMap jobCount = [[("outcome", outcome)]] ∧
    (calls tr).filterMap jobDuration = [[("outcome", outcome)]] ∧
    (statusWrites jobId tr).getLast? = some status ∧ Agree kind outcome status

section Report

variable {jobId userId : String} {timeoutSecs : Nat} {body : Json}
variable {tr : RunTrace} {o : RunOutcome}

theorem not_agree_running {kind : JobEventKind} {outcome : String} :
    ¬ Agree kind outcome .running := by
  rintro ⟨⟩

/-- A run with one terminal event and one terminal metric. -/
theorem reportsOnce_iff_agree (status : JobStatus) {kind : JobEventKind} {outcome : String}
    (hevent : (calls tr).filterMap terminalEvent = [kind])
    (hcount : (calls tr).filterMap jobCount = [[("outcome", outcome)]])
    (hduration : (calls tr).filterMap jobDuration = [[("outcome", outcome)]])
    (hstatus : (statusWrites jobId tr).getLast? = some status) :
    ReportsOnce jobId tr ↔ Agree kind outcome status := by
  unfold ReportsOnce
  rw [hevent, hcount, hduration, hstatus]
  simp

/-- A run without a terminal metric. -/
theorem not_reportsOnce (hcount : (calls tr).filterMap jobCount = []) :
    ¬ ReportsOnce jobId tr := by
  rintro ⟨kind, outcome, status, -, hcount', -⟩
  rw [hcount] at hcount'
  cases hcount'

/-- No call besides the write of `Queued` and the best-effort ones was rejected. -/
def OnlyTolerable (jobId : String) (tr : RunTrace) : Prop :=
  ∀ x ∈ tr, accepted x = false → bestEffort x.req = true ∨ x.req = .setStatus jobId .queued

@[simp] theorem onlyTolerable_nil : OnlyTolerable jobId [] := by
  simp [OnlyTolerable]

@[simp] theorem onlyTolerable_cons (x : Exchange RunReply) (tr : RunTrace) :
    OnlyTolerable jobId (x :: tr) ↔
      (accepted x = false → bestEffort x.req = true ∨ x.req = .setStatus jobId .queued) ∧
        OnlyTolerable jobId tr :=
  List.forall_mem_cons

@[simp] theorem onlyTolerable_append (tr tr' : RunTrace) :
    OnlyTolerable jobId (tr ++ tr') ↔ OnlyTolerable jobId tr ∧ OnlyTolerable jobId tr' :=
  List.forall_mem_append

@[simp] theorem onlyTolerable_recorded (outcome : String) (elapsed : F64) :
    OnlyTolerable jobId (recorded outcome elapsed) := by
  intro x hx hrej
  rw [accepted_recorded outcome elapsed x hx] at hrej
  cases hrej

@[simp] theorem onlyTolerable_computing (r₁ r₂ : Except JobError Unit) :
    OnlyTolerable jobId (computing jobId userId r₁ r₂) := by
  simp [computing, bestEffort]

/-- Every run from the executor call on published `Started`. -/
theorem started_mem_calls (r₁ r₂ : Except JobError Unit) (rest : RunTrace) :
    .publish ⟨userId, jobId, .started⟩ ∈ calls (computing jobId userId r₁ r₂ ++ rest) := by
  simp [calls, computing]

/-- **A run that published `Started` reports its end exactly once and truly if
and only if no call besides the write of `Queued` and the best-effort ones is
rejected.** -/
theorem runJob_reportsOnce_iff (hpath : Path (runJob jobId userId timeoutSecs body) tr o) :
    (.publish ⟨userId, jobId, .started⟩ ∈ calls tr → ReportsOnce jobId tr) ↔
      OnlyTolerable jobId tr := by
  cases runShape_of_path hpath with
  | queuedRejected e =>
      simp [calls]
  | runningRejected e =>
      have hno : ¬ ReportsOnce jobId [wrote jobId .queued (.ok ()),
          published jobId userId .started, wrote jobId .running (.error e)] :=
        not_reportsOnce rfl
      simp [calls, hno, bestEffort]
  | timedOut r₁ r₂ r₃ r₄ elapsed =>
      rw [List.append_assoc, imp_iff_right (started_mem_calls r₁ r₂ _)]
      cases r₄ with
      | ok u =>
          rw [reportsOnce_iff_agree .error rfl rfl rfl (by simp)]
          simp [Agree.timeout, bestEffort]
      | error e =>
          rw [reportsOnce_iff_agree .running rfl rfl rfl (by simp)]
          simp [not_agree_running, bestEffort]
  | execFailed e r₁ r₂ r₃ r₄ r₅ elapsed =>
      simp only [executed, List.append_assoc]
      rw [imp_iff_right (started_mem_calls r₁ r₂ _)]
      cases r₅ with
      | ok u =>
          rw [reportsOnce_iff_agree .error rfl rfl rfl (by simp)]
          simp [Agree.error, bestEffort]
      | error e =>
          rw [reportsOnce_iff_agree .running rfl rfl rfl (by simp)]
          simp [not_agree_running, bestEffort]
  | putRejected result e r₁ r₂ r₃ r₄ =>
      simp only [executed, List.append_assoc]
      rw [imp_iff_right (started_mem_calls r₁ r₂ _)]
      refine iff_of_false (not_reportsOnce rfl) ?_
      simp [bestEffort]
  | addAssetRejected result e r₁ r₂ r₃ r₄ =>
      simp only [executed, List.append_assoc]
      rw [imp_iff_right (started_mem_calls r₁ r₂ _)]
      refine iff_of_false (not_reportsOnce rfl) ?_
      simp [bestEffort]
  | finishedRejected result e r₁ r₂ r₃ r₄ =>
      simp only [executed, List.append_assoc]
      rw [imp_iff_right (started_mem_calls r₁ r₂ _)]
      refine iff_of_false (not_reportsOnce rfl) ?_
      simp [bestEffort]
  | finished result r₁ r₂ r₃ r₄ r₅ r₆ elapsed =>
      simp only [executed, List.append_assoc]
      rw [imp_iff_right (started_mem_calls r₁ r₂ _)]
      rw [reportsOnce_iff_agree .finished rfl rfl rfl (by simp)]
      simp [Agree.finished, bestEffort]

theorem runJob_reportsOnce_sample :
    ReportsOnce "job"
      ((runJob "job" "anonymous" 600 sampleRecord.process).transcript sampleReply) := by
  refine (runJob_reportsOnce_iff (path_answer sampleReply _)).mpr ?_ ?_
  · intro x hx hrej
    rw [accepted_of_mem_sample hx] at hrej
    cases hrej
  · exact List.mem_cons_of_mem _ List.mem_cons_self

/-- If the file store rejects the result, `Failed` is published and the job set
to `Error`, but no metric is recorded. -/
theorem runJob_skips_metric :
    ∃ tr o, Path (runJob "job" "anonymous" 600 sampleRecord.process) tr o ∧
      .publish ⟨"anonymous", "job", .started⟩ ∈ calls tr ∧ ¬ ReportsOnce "job" tr := by
  refine ⟨executed "job" "anonymous" 600 sampleRecord.process
      (.ok ⟨"application/json", [0x7b, 0x7d]⟩) (.ok ()) (.ok ()) (.ok ()) ++
    [stored "job" ⟨"application/json", [0x7b, 0x7d]⟩ (.error (.io "disk full")),
      wrote "job" .error (.ok ()), published "job" "anonymous" .failed], _,
    .call (.call (.call (.call (.call (.call (.call (.call (.call (.call (.call (.call
      (.done _)))))))))))), ?_, ?_⟩
  · exact List.mem_cons_of_mem _ List.mem_cons_self
  · exact not_reportsOnce rfl

end Report

end OrbitOpenEO
