import OrbitOpenEO.JobService.Steps
import Mathlib.Data.Set.Subsingleton

/-!
# One run of a job at a time

`start_processing` reads the status of the job and spawns a runner some calls
later; the status leaves `Created` only when that runner makes its first call.
Two starts can both read `Created`, and both spawn.

What the check would have to see is `underWay`: the starts of the job that are
past the check and the runs of the job that are still active, in some sense that
a run can only lose.  When every start passes the check only while nothing is
under way, at most one task is under way in every state reached
(`underWay_subsingleton_of_step`).  For runs that are spawned and not stopped
this gives at most one live run.
-/

namespace OrbitOpenEO

open Lib

/-- `run_job` is spawned and has not returned, panicked or been aborted. -/
def Run.isLive (run : Run) : Bool :=
  match run.runner with
  | .live _ _ => true
  | _ => false

/-- The run is live or is still to spawn its runner. -/
def Run.isUnstopped (run : Run) : Bool := run.isLive || run.supervisor == .spawning

section UnderWay

variable (active : Run → Bool)

/-- The tasks that lead to an active run of a job, or are one. -/
def Sys.underWay (s : Sys) (jobId : String) : Set (ℕ ⊕ ℕ)
  | .inl h => ∃ hd, s.handlers[h]? = some hd ∧ hd.pastCheck = some jobId
  | .inr k => ∃ run, s.runs[k]? = some run ∧ run.jobId = jobId ∧ active run = true

/-- No start of the job is past its check and no run of it is active. -/
def Sys.idle (s : Sys) (jobId : String) : Bool :=
  s.handlers.all (fun hd => hd.pastCheck != some jobId) &&
    s.runs.all (fun run => run.jobId != jobId || !active run)

/-- A start passes its check only when the job is idle. -/
def StartsAlone (s : Sys) (a : Action) : Prop :=
  ∀ jobId ∈ s.checkPassed a, s.idle active jobId = true

instance (s : Sys) (a : Action) : Decidable (StartsAlone active s a) :=
  inferInstanceAs (Decidable (∀ jobId ∈ s.checkPassed a, s.idle active jobId = true))

variable {active} {s t : Sys} {a : Action} {jobId : String}

theorem underWay_eq_empty (h : s.idle active jobId = true) : s.underWay active jobId = ∅ := by
  simp only [Sys.idle, Bool.and_eq_true, List.all_eq_true] at h
  obtain ⟨hhandlers, hruns⟩ := h
  refine Set.eq_empty_iff_forall_notMem.mpr ?_
  rintro (i | k)
  · rintro ⟨hd, hhd, hp⟩
    have := hhandlers hd (List.mem_of_getElem? hhd)
    simp [hp] at this
  · rintro ⟨run, hrun, hjob, hu⟩
    have := hruns run (List.mem_of_getElem? hrun)
    simp [hjob, hu] at this

/-- What one step adds: a start that passes its check, or a run in the place of
the start that spawned it. -/
theorem underWay_of_transition
    (hactive : ∀ {run run' : Run}, run.Evolves s run' → active run' = true → active run = true)
    (h : Transition s a t) (jobId : String) :
    t.underWay active jobId ⊆ s.underWay active jobId ∨
    (∃ i, s.checkPassed a = some jobId ∧
      t.underWay active jobId ⊆ insert (.inl i) (s.underWay active jobId)) ∨
    (∃ i, .inl i ∈ s.underWay active jobId ∧
      t.underWay active jobId ⊆
        insert (.inr s.runs.length) (s.underWay active jobId \ {.inl i})) := by
  by_cases hcheck : s.checkPassed a = some jobId
  · -- the step is the check of one handler and touches no run
    cases h with
    | @handler i _ _ hd _ _ hhd hstep =>
        refine .inr (.inl ⟨i, hcheck, ?_⟩)
        rintro (i' | k)
        · rintro ⟨hd', hhd', hp⟩
          rcases getElem?_set_cases hhd' with ⟨rfl, -⟩ | ⟨-, hhd'⟩
          · exact .inl rfl
          · exact .inr ⟨hd', hhd', hp⟩
        · rintro ⟨run', hrun', hjob, hu⟩
          rcases run_of_transition (.handler hhd hstep) hrun' with ⟨run, hrun, hev⟩ |
            ⟨_, _, _, j, record, ha, hspawn, -⟩
          · exact .inr ⟨run, hrun, hev.jobId_eq ▸ hjob, hactive hev hu⟩
          · cases ha
            simp [Sys.checkPassed, hspawn] at hcheck
    | _ =>
        simp [Sys.checkPassed] at hcheck
  · have hpast : ∀ i, .inl i ∈ t.underWay active jobId → .inl i ∈ s.underWay active jobId := by
      rintro i ⟨hd', hhd', hp⟩
      rcases pastCheck_of_transition h hhd' hp with hpre | ⟨-, hc⟩
      · exact hpre
      · exact absurd hc hcheck
    by_cases hspawned : ∃ i now uuid record, a = .handler i now uuid ∧
        s.handlers[i]? = some (.startSpawn jobId record)
    · obtain ⟨i, now, uuid, record, rfl, hspawn⟩ := hspawned
      refine .inr (.inr ⟨i, ⟨_, hspawn, rfl⟩, ?_⟩)
      rintro (i' | k)
      · intro hi'
        refine .inr ⟨hpast i' hi', ?_⟩
        rintro he
        cases he
        obtain ⟨hd', hhd', hp⟩ := hi'
        cases h with
        | handler hhd hstep =>
            rw [hspawn] at hhd
            cases hhd
            cases hstep
            rcases getElem?_set_cases hhd' with ⟨-, rfl⟩ | ⟨hne, -⟩
            · cases hp
            · exact hne rfl
      · rintro ⟨run', hrun', hjob, hu⟩
        rcases run_of_transition h hrun' with ⟨run, hrun, hev⟩ | ⟨_, _, _, _, _, -, -, -, rfl, -⟩
        · exact .inr ⟨⟨run, hrun, hev.jobId_eq ▸ hjob, hactive hev hu⟩, by simp⟩
        · exact .inl rfl
    · refine .inl ?_
      rintro (i | k)
      · exact hpast i
      · rintro ⟨run', hrun', hjob, hu⟩
        rcases run_of_transition h hrun' with ⟨run, hrun, hev⟩ |
          ⟨i, now, uuid, j, record, ha, hhd, -, -, rfl⟩
        · exact ⟨run, hrun, hev.jobId_eq ▸ hjob, hactive hev hu⟩
        · exact absurd ⟨i, now, uuid, record, ha, hjob ▸ hhd⟩ hspawned

/-- At most one task stays under way in a step that starts alone. -/
theorem underWay_subsingleton_of_step
    (hactive : ∀ {run run' : Run}, run.Evolves s run' → active run' = true → active run = true)
    (hs : ∀ jobId, (s.underWay active jobId).Subsingleton) (hG : StartsAlone active s a)
    (h : Transition s a t) (jobId : String) : (t.underWay active jobId).Subsingleton := by
  rcases underWay_of_transition hactive h jobId with hsub | ⟨i, hcheck, hsub⟩ | ⟨i, hi, hsub⟩
  · exact (hs jobId).anti hsub
  · rw [underWay_eq_empty (hG jobId hcheck), insert_empty_eq] at hsub
    exact Set.subsingleton_singleton.anti hsub
  · -- the start was the only task under way, so only its run is left
    have hrest : s.underWay active jobId \ {.inl i} = ∅ := by
      refine Set.eq_empty_iff_forall_notMem.mpr ?_
      rintro x ⟨hx, hne⟩
      exact hne (hs jobId hx hi)
    rw [hrest, insert_empty_eq] at hsub
    exact Set.subsingleton_singleton.anti hsub

theorem underWay_initial (permits : Nat) (timeoutVar : Option String) (jobId : String) :
    ((Sys.initial permits timeoutVar).underWay active jobId).Subsingleton := by
  rintro (i | k)
  · rintro ⟨hd, hhd, -⟩
    simp [Sys.initial] at hhd
  · rintro ⟨run, hrun, -⟩
    simp [Sys.initial] at hrun

end UnderWay

/-- A run that is unstopped after a step was unstopped before. -/
theorem isUnstopped_of_evolves {s : Sys} {run run' : Run} (h : run.Evolves s run')
    (hu : run'.isUnstopped = true) : run.isUnstopped = true := by
  cases h with
  | same =>
      exact hu
  | notifyOne =>
      exact hu
  | moved hmove =>
      cases hmove with
      | abort hsup =>
          cases hr : run.runner <;>
            simp_all [Run.isUnstopped, Run.isLive, Runner.abort]
      | _ =>
          simp_all [Run.isUnstopped, Run.isLive]
  | called reply hr =>
      simp [Run.isUnstopped, Run.isLive, hr]
  | returned hr =>
      simp [Run.isUnstopped, Run.isLive, hr]
  | panicked hr =>
      simp [Run.isUnstopped, Run.isLive, hr]
  | aborted hr =>
      simp [Run.isUnstopped, Run.isLive, hr]

/-- **At most one live run of a job**, in every run in which each start passes
its check only while no other start of the job is past the check and no run of
the job is unstopped. -/
theorem liveRun_unique {permits : Nat} {timeoutVar : Option String} {s : Sys}
    (h : Reach step (StartsAlone Run.isUnstopped) (Sys.initial permits timeoutVar) s)
    {k k' : Nat} {run run' : Run}
    (hrun : s.runs[k]? = some run) (hrun' : s.runs[k']? = some run')
    (hlive : run.isLive = true) (hlive' : run'.isLive = true) (hjob : run.jobId = run'.jobId) :
    k = k' := by
  have hinv : ∀ jobId, (s.underWay Run.isUnstopped jobId).Subsingleton :=
    h.invariant (I := fun s => ∀ jobId, (s.underWay Run.isUnstopped jobId).Subsingleton)
      (underWay_initial permits timeoutVar)
      (fun _ _ _ hs hG hstep =>
        underWay_subsingleton_of_step isUnstopped_of_evolves hs hG (transition_of_step hstep))
  have hk : Sum.inr k ∈ s.underWay Run.isUnstopped run.jobId :=
    ⟨run, hrun, rfl, by simp [Run.isUnstopped, hlive]⟩
  have hk' : Sum.inr k' ∈ s.underWay Run.isUnstopped run.jobId :=
    ⟨run', hrun', hjob.symm, by simp [Run.isUnstopped, hlive']⟩
  exact Sum.inr.inj (hinv run.jobId hk hk')

/-- Two clients start one job, and both handlers read its status before either
spawns. -/
def doubleStart : List Action :=
  [.arrive (.createJob none none sampleProcess), .handler 0 0 "job",
    .arrive (.startProcessing "job"), .arrive (.startProcessing "job"),
    .handler 1 0 "", .handler 2 0 "",
    .handler 1 0 "", .handler 1 0 "", .handler 1 0 "",
    .handler 2 0 "", .handler 2 0 "", .handler 2 0 "",
    .supervisor 0 0 false, .supervisor 1 0 false]

theorem doubleStart_twoLiveRuns :
    ∃ (s : Sys) (k k' : Nat) (run run' : Run), Reach step AnyStep (Sys.initial 4 none) s ∧
      s.runs[k]? = some run ∧ s.runs[k']? = some run' ∧
      run.isLive = true ∧ run'.isLive = true ∧ run.jobId = run'.jobId ∧ k ≠ k' := by
  have h : ∃ s, runAll step (Sys.initial 4 none) doubleStart = some s ∧
      ∃ run run' : Run, s.runs = [run, run'] ∧ run.isLive = true ∧ run'.isLive = true ∧
        run.jobId = run'.jobId :=
    ⟨_, rfl, _, _, rfl, rfl, rfl, rfl⟩
  obtain ⟨s, hs, run, run', hruns, hlive, hlive', hjob⟩ := h
  refine ⟨s, 0, 1, run, run', reach_of_runAll .refl (allowed_anyStep _ _) hs, ?_, ?_,
    hlive, hlive', hjob, by decide⟩
  · rw [hruns]
    rfl
  · rw [hruns]
    rfl

/-- A job is started, canceled and started again after its first runner is gone. -/
def restartAfterCancel : List Action :=
  [.arrive (.createJob none none sampleProcess), .handler 0 0 "job",
    .arrive (.startProcessing "job"),
    .handler 1 0 "", .handler 1 0 "", .handler 1 0 "", .handler 1 0 "",
    .supervisor 0 0 false, .runner 0 0 none .nan,
    .arrive (.discardResults "job"), .handler 2 0 "", .handler 2 0 "",
    .supervisor 0 0 true, .supervisor 0 0 false, .drop 0, .handler 2 0 "",
    .arrive (.startProcessing "job"),
    .handler 3 0 "", .handler 3 0 "", .handler 3 0 "", .handler 3 0 "",
    .supervisor 1 0 false]

theorem liveRun_unique_restart :
    ∃ s, Reach step (StartsAlone Run.isUnstopped) (Sys.initial 4 none) s ∧
      ∃ run, s.runs[1]? = some run ∧ run.isLive = true ∧
        ∀ k' run', s.runs[k']? = some run' → run'.isLive = true → run.jobId = run'.jobId →
          1 = k' := by
  have hall : Allowed step (StartsAlone Run.isUnstopped) (Sys.initial 4 none)
      restartAfterCancel := by decide
  have h : ∃ s, runAll step (Sys.initial 4 none) restartAfterCancel = some s ∧
      ∃ run, s.runs[1]? = some run ∧ run.isLive = true :=
    ⟨_, rfl, _, rfl, rfl⟩
  obtain ⟨s, hs, run, hrun, hlive⟩ := h
  have hreach := reach_of_runAll .refl hall hs
  exact ⟨s, hreach, run, hrun, hlive, fun k' run' hrun' hlive' hjob =>
    liveRun_unique hreach hrun hrun' hlive hlive' hjob⟩

end OrbitOpenEO
