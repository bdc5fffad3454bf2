import OrbitOpenEO.JobService.Records

/-!
# Cancellation

`DELETE /jobs/{id}/results` raises the cancel signal of the run and writes
`Canceled`.  The runner knows nothing of it: until its task is dropped it goes
on and writes its own statuses, over the `Canceled` one.

A run is `Settled` when its runner has made its last status write, or is gone,
and its supervisor will not mark the job `Error`.  A settled run stays settled.
If every run of the job is settled when the handler writes `Canceled`, then none
of them writes another status, and the job stays `Canceled` until a new start of
it is accepted.
-/

namespace OrbitOpenEO

open Lib Lib.Program

/-- Neither a status write nor the executor call, which may panic. -/
def RunCall.isSilent : RunCall → Bool
  | .setStatus _ _ => false
  | .runSync _ _ => false
  | _ => true

/-- The runner has made its last status write, or is gone. -/
def Runner.Settled : Runner → Prop
  | .unspawned => False
  | .live program _ => program.AllCalls (fun q => q.isSilent = true)
  | .returned _ => True
  | .panicked => True
  | .aborted => True

/-- The supervisor is to spawn the runner or to write `Error` after a panic. -/
def Run.alarmed (run : Run) : Bool :=
  match run.supervisor, run.runner with
  | .spawning, _ => true
  | .panicGet, _ => true
  | .panicWrite, _ => true
  | .selecting, .panicked => true
  | _, _ => false

/-- The run writes no status any more, other than `Canceled`. -/
def Run.Settled (run : Run) : Prop := run.runner.Settled ∧ run.alarmed = false

variable {s t : Sys} {a : Action} {jobId : String} {run run' : Run}

theorem Runner.Settled.abort {runner : Runner} (h : runner.Settled) : runner.abort.Settled := by
  cases runner <;> exact h

/-- **A settled run stays settled.** -/
theorem Run.Settled.of_evolves (h : run.Settled) (hev : run.Evolves s run') : run'.Settled := by
  obtain ⟨hrunner, halarm⟩ := h
  cases hev with
  | same =>
      exact ⟨hrunner, halarm⟩
  | notifyOne =>
      exact ⟨hrunner, halarm⟩
  | moved hmove =>
      cases hmove with
      | spawn hsup =>
          simp [Run.alarmed, hsup] at halarm
      | panicked hsup hr =>
          simp [Run.alarmed, hsup, hr] at halarm
      | abort hsup =>
          exact ⟨hrunner.abort, by simp [Run.alarmed]⟩
      | panicDue record hsup hget hterm =>
          simp [Run.alarmed, hsup] at halarm
      | _ =>
          exact ⟨hrunner, by simp [Run.alarmed]⟩
  | called reply hr =>
      rw [hr] at hrunner
      refine ⟨hrunner.2 reply, ?_⟩
      cases hsup : run.supervisor <;> simp_all [Run.alarmed]
  | returned hr =>
      refine ⟨trivial, ?_⟩
      cases hsup : run.supervisor <;> simp_all [Run.alarmed]
  | panicked hr =>
      rw [hr] at hrunner
      cases hrunner.1
  | aborted hr =>
      refine ⟨trivial, ?_⟩
      cases hsup : run.supervisor <;> simp_all [Run.alarmed]

/-- A status write of a run: it is for the run's own job, and a settled run only
writes `Canceled`. -/
theorem run_of_statusWrite {k : Nat} {status : JobStatus}
    (h : s.statusWrite k a = some (jobId, status)) :
    ∃ run, s.runs[k]? = some run ∧ (run.OwnCalls → run.jobId = jobId) ∧
      (run.Settled → status = .canceled) := by
  cases a with
  | runner k' now exec elapsed =>
      simp only [Sys.statusWrite] at h
      split_ifs at h
      obtain ⟨run, hrun, hw⟩ := Option.bind_eq_some_iff.mp h
      refine ⟨run, hrun, ?_⟩
      unfold Runner.statusWrite at hw
      split at hw
      · rename_i id st next aborting hr
        cases hw
        refine ⟨fun hown => ((hown _ _ hr).1).symm, ?_⟩
        rintro ⟨hsettled, -⟩
        rw [hr] at hsettled
        cases hsettled.1
      · cases hw
  | supervisor k' now notified =>
      simp only [Sys.statusWrite] at h
      split_ifs at h
      obtain ⟨run, hrun, hw⟩ := Option.bind_eq_some_iff.mp h
      obtain ⟨st, hst, he⟩ := Option.map_eq_some_iff.mp hw
      cases he
      refine ⟨run, hrun, fun _ => rfl, ?_⟩
      rintro ⟨-, halarm⟩
      cases hsup : run.supervisor <;> simp_all [Supervisor.statusWrite, Run.alarmed]
  | _ =>
      cases h

/-- The state of a job since it was canceled, when there were `n` runs. -/
structure CanceledSince (n : Nat) (jobId : String) (s : Sys) : Prop where
  length_le : n ≤ s.runs.length
  issued : jobId ∈ s.issued
  settled : ∀ k run, k < n → s.runs[k]? = some run → run.jobId = jobId → run.Settled
  status : (∀ k run, n ≤ k → s.runs[k]? = some run → run.jobId ≠ jobId) →
    ∀ record, s.jobs.get jobId = .ok record → record.status = .canceled

theorem CanceledSince.of_transition {n : Nat} (hs : CanceledSince n jobId s)
    (hissued : IssuedInv s) (hown : ∀ (k : Nat) (run : Run), s.runs[k]? = some run → run.OwnCalls)
    (h : Transition s a t) : CanceledSince n jobId t where
  length_le := hs.length_le.trans (length_runs_of_transition h)
  issued := issued_of_transition h hs.issued
  settled := by
    intro k run' hk hrun' hjob
    rcases run_of_transition h hrun' with ⟨run, hrun, hev⟩ | ⟨_, _, _, _, _, -, -, -, rfl, -⟩
    · exact (hs.settled k run hk hrun (hev.jobId_eq ▸ hjob)).of_evolves hev
    · exact absurd hs.length_le (by omega)
  status := by
    intro hnew record' hget'
    have hnew_s : ∀ k run, n ≤ k → s.runs[k]? = some run → run.jobId ≠ jobId := by
      intro k run hk hrun
      obtain ⟨run', hrun', hjob⟩ := run_persists h hrun
      exact hjob ▸ hnew k run' hk hrun'
    have hstatus := hs.status hnew_s
    cases recordMove_of_transition hissued h jobId with
    | same hsame =>
        exact hstatus record' (hsame ▸ hget')
    | removed e hgone =>
        rw [hgone] at hget'
        cases hget'
    | created _ hfresh _ _ _ =>
        exact absurd hs.issued hfresh
    | updated record _ hget hget₁ hkeep _ =>
        rw [hget₁] at hget'
        cases hget'
        exact hkeep.trans (hstatus record hget)
    | wrote status record _ hget hget₁ hset _ hwriter =>
        rw [hget₁] at hget'
        cases hget'
        rw [hset]
        rcases hwriter with hcanceled | ⟨k, hw⟩
        · exact hcanceled
        · obtain ⟨run, hrun, hjob, hcanceled⟩ := run_of_statusWrite hw
          have hrunJob := hjob (hown k run hrun)
          by_cases hk : k < n
          · exact hcanceled (hs.settled k run hk hrun hrunJob)
          · exact absurd hrunJob (hnew_s k run (Nat.le_of_not_lt hk) hrun)
    | attached _ _ _ _ _ record _ _ _ hget hget₁ hkeep _ _ _ =>
        rw [hget₁] at hget'
        cases hget'
        exact hkeep.trans (hstatus record hget)

/-- A cancel handler writes `Canceled` or finds no job. -/
theorem canceledSince_of_cancelWritten (hissued : IssuedInv s)
    (hcancel : s.cancelWritten a = some jobId) (hstep : step s a = some t)
    (hsettled : ∀ run ∈ s.runs, run.jobId = jobId → run.Settled) :
    CanceledSince t.runs.length jobId t ∧ t.runs = s.runs := by
  unfold Sys.cancelWritten at hcancel
  split at hcancel
  · rename_i i now uuid
    split at hcancel
    · rename_i j hhd
      cases hcancel
      simp only [step, Option.bind_eq_bind, hhd, Option.bind_some, stepHandler,
        Option.some.injEq] at hstep
      subst hstep
      refine ⟨⟨Nat.le_refl _, hissued.discarded i _ jobId hhd rfl, ?_, ?_⟩, rfl⟩
      · intro k run _ hrun hjob
        exact hsettled run (List.mem_of_getElem? hrun) hjob
      · intro _ record hget
        dsimp only at hget
        cases hset : s.jobs.setStatus now jobId .canceled with
        | ok jobs =>
            rw [hset] at hget
            change jobs.get jobId = .ok record at hget
            have hget₁ := InMemoryJobStore.get_withRecord hset (fun _ => rfl) jobId
            rw [if_pos rfl, hget] at hget₁
            cases hget₀ : s.jobs.get jobId with
            | error e =>
                rw [hget₀] at hget₁
                cases hget₁
            | ok record₀ =>
                rw [hget₀] at hget₁
                cases hget₁
                rfl
        | error e =>
            -- the job is gone, so there is no record either
            rw [hset] at hget
            obtain ⟨jobs, hjobs⟩ := InMemoryJobStore.withRecord_eq_ok hget now
              (fun r => { r with status := .canceled })
            cases hset.symm.trans hjobs
    · cases hcancel
  · cases hcancel

/-- **Cancellation is final** if every run of the job is settled when the handler
writes `Canceled`: whatever happens afterwards, none of these runs sets another
status, and the job stays `Canceled` until a new start of it has been accepted. -/
theorem cancellation_final {permits : Nat} {timeoutVar : Option String} {s s₁ s₂ : Sys}
    {a : Action} {jobId : String} (hs : Reach step AnyStep (Sys.initial permits timeoutVar) s)
    (hcancel : s.cancelWritten a = some jobId) (hstep : step s a = some s₁)
    (hsettled : ∀ run ∈ s.runs, run.jobId = jobId → run.Settled)
    (hlater : Reach step AnyStep s₁ s₂) :
    (∀ k run b status, s₁.runs[k]? = some run → run.jobId = jobId →
      s₂.statusWrite k b = some (jobId, status) → status = .canceled) ∧
    ((∀ k run, s₁.runs.length ≤ k → s₂.runs[k]? = some run → run.jobId ≠ jobId) →
      ∀ record, s₂.jobs.get jobId = .ok record → record.status = .canceled) := by
  have hs₁ : Reach step AnyStep (Sys.initial permits timeoutVar) s₁ := .tail hs trivial hstep
  obtain ⟨hsince, -⟩ :=
    canceledSince_of_cancelWritten (issuedInv_of_reach hs) hcancel hstep hsettled
  obtain ⟨hs₂, hinv⟩ := hlater.invariant
    (I := fun u => Reach step AnyStep (Sys.initial permits timeoutVar) u ∧
      CanceledSince s₁.runs.length jobId u)
    ⟨hs₁, hsince⟩
    (fun u b v hu _ hv =>
      ⟨.tail hu.1 trivial hv, hu.2.of_transition (issuedInv_of_reach hu.1)
        (ownCalls_of_reach hu.1) (transition_of_step hv)⟩)
  refine ⟨?_, hinv.status⟩
  intro k run b status hrun hjob hw
  have hk : k < s₁.runs.length := (List.getElem?_eq_some_iff.mp hrun).1
  obtain ⟨run', hrun', hjob', hcanceled⟩ := run_of_statusWrite hw
  exact hcanceled (hinv.settled k run' hk hrun' (hjob' (ownCalls_of_reach hs₂ k run' hrun')))

/-- A job is started and queued, and a cancel handler is about to write. -/
def cancelQueued : List Action :=
  [.arrive (.createJob none none sampleProcess), .handler 0 0 "job",
    .arrive (.startProcessing "job"),
    .handler 1 0 "", .handler 1 0 "", .handler 1 0 "", .handler 1 0 "",
    .supervisor 0 0 false, .runner 0 0 none .nan,
    .arrive (.discardResults "job"), .handler 2 0 "", .handler 2 0 ""]

/-- The status of a job, if it is present. -/
def Sys.jobStatus (s : Sys) (jobId : String) : Option JobStatus :=
  (s.jobs.get jobId).toOption.map (·.status)

/-- The handler of a queued job has returned; the runner then writes `Running` and
ends with `Finished`, and no other start was accepted. -/
theorem cancelQueued_overwritten :
    ∃ s a s₁ s₂ b s₃, Reach step AnyStep (Sys.initial 4 none) s ∧
      s.cancelWritten a = some "job" ∧ step s a = some s₁ ∧
      (∃ run, s₁.runs[0]? = some run ∧ run.jobId = "job") ∧
      Reach step AnyStep s₁ s₂ ∧ s₂.statusWrite 0 b = some ("job", .running) ∧
      Reach step AnyStep s₁ s₃ ∧ s₃.runs.length = s₁.runs.length ∧
      s₃.jobStatus "job" = some .finished := by
  obtain ⟨s, hs, hP⟩ := exists_reach_of_runAll step (Sys.initial 4 none) cancelQueued
    (fun s => s.cancelWritten (.handler 2 0 "") == some "job" &&
      (step s (.handler 2 0 "")).any (fun s₁ =>
        s₁.runs.map (·.jobId) == ["job"] &&
        (step s₁ (.runner 0 0 none .nan)).any (fun s₂ =>
          s₂.statusWrite 0 (.runner 0 0 none .nan) == some ("job", .running)) &&
        (runAll step s₁ (runnerSteps 20 0 ⟨"application/json", [0x33]⟩)).any (fun s₃ =>
          s₃.runs.length == 1 && s₃.jobStatus "job" == some .finished)))
    (allowed_anyStep _ _) (by decide)
  simp only [Bool.and_eq_true, beq_iff_eq, Option.any_eq_true] at hP
  obtain ⟨hcancel, s₁, hs₁, ⟨hruns, s₂, hs₂, hw⟩, s₃, hs₃, hlen, hstatus⟩ := hP
  obtain ⟨run, hrun, hjob⟩ := List.map_eq_singleton_iff.mp hruns
  refine ⟨s, _, s₁, s₂, _, s₃, hs, hcancel, hs₁, ⟨run, by rw [hrun]; rfl, hjob⟩,
    .tail .refl trivial hs₂, hw, reach_of_runAll .refl (allowed_anyStep _ _) hs₃, ?_, hstatus⟩
  rw [hlen, hrun]
  rfl

/-- The supervisor aborts the runner before the handler writes. -/
def abortQueued : List Action :=
  cancelQueued ++ [.supervisor 0 0 true, .supervisor 0 0 false, .drop 0]

theorem cancellation_final_abortQueued :
    ∃ s a s₁ s₂, Reach step AnyStep (Sys.initial 4 none) s ∧
      s.cancelWritten a = some "job" ∧ step s a = some s₁ ∧
      (∀ run ∈ s.runs, run.jobId = "job" → run.Settled) ∧ Reach step AnyStep s₁ s₂ ∧
      (∀ k run b status, s₁.runs[k]? = some run → run.jobId = "job" →
        s₂.statusWrite k b = some ("job", status) → status = .canceled) ∧
      s₂.jobStatus "job" = some .canceled := by
  obtain ⟨s, hs, hP⟩ := exists_reach_of_runAll step (Sys.initial 4 none) abortQueued
    (fun s => s.cancelWritten (.handler 2 0 "") == some "job" &&
      s.runs.all (fun run => run.alarmed == false &&
        match run.runner with
        | .aborted => true
        | _ => false) &&
      (step s (.handler 2 0 "")).any (fun s₁ =>
        (step s₁ (.supervisor 0 0 false)).any (fun s₂ =>
          s₂.jobStatus "job" == some .canceled)))
    (allowed_anyStep _ _) (by decide)
  simp only [Bool.and_eq_true, beq_iff_eq, Option.any_eq_true, List.all_eq_true] at hP
  obtain ⟨⟨hcancel, hall⟩, s₁, hs₁, s₂, hs₂, hstatus⟩ := hP
  have hsettled : ∀ run ∈ s.runs, run.jobId = "job" → run.Settled := by
    intro run hrun _
    obtain ⟨halarm, hgone⟩ := hall run hrun
    refine ⟨?_, halarm⟩
    split at hgone
    · rename_i hr
      rw [hr]
      trivial
    · cases hgone
  have hlater : Reach step AnyStep s₁ s₂ := .tail .refl trivial hs₂
  exact ⟨s, _, s₁, s₂, hs, hcancel, hs₁, hsettled, hlater,
    (cancellation_final hs hcancel hs₁ hsettled hlater).1, hstatus⟩

end OrbitOpenEO
