import OrbitOpenEO.JobService.SingleRun
import OrbitOpenEO.Lib.ListUpdate

/-!
# Permits and live runs

A start takes a permit of `job_sem` and moves it into its supervisor, which gives
it back when it ends.  Free permits and their holders always add up to the total,
and no holder is ever stuck (`Sys.held`, `releases`).

A canceled supervisor aborts its runner without waiting for it.  The runner may
go on after the permit is back, and then a permit is taken for one more run than
there should be.  `unstopped` counts the runs that are live or accepted and not
yet spawned; as long as every permit is taken while that number is below the
total, so is the number of live runs, and not longer (`permitLaw_iff`).
-/

namespace OrbitOpenEO

open Lib

/-- The handler has taken a permit and has not moved it into a supervisor. -/
def Handler.holdsPermit : Handler → Bool
  | .startSpawn _ _ => true
  | _ => false

/-- The supervisor of the run has not given its permit back. -/
def Run.holdsPermit (run : Run) : Bool := run.supervisor != .finished

namespace Sys

/-- The permits that are taken. -/
def held (s : Sys) : Nat :=
  s.handlers.countP Handler.holdsPermit + s.runs.countP Run.holdsPermit

/-- The runs that are live, or accepted and still to be spawned. -/
def unstopped (s : Sys) : Nat :=
  s.handlers.countP Handler.holdsPermit + s.runs.countP Run.isUnstopped

/-- The `run_job` futures that can still execute a step. -/
def liveRuns (s : Sys) : Nat := s.runs.countP Run.isLive

/-- The step takes a permit. -/
def takesPermit (s : Sys) : Action → Bool
  | .handler h _ _ =>
      match s.handlers[h]? with
      | some (.startAcquire _ _) => s.permits != 0
      | _ => false
  | _ => false

end Sys

/-- A permit is taken only while fewer runs are unstopped than there are permits. -/
def TakesBelow (total : Nat) (s : Sys) (a : Action) : Prop :=
  s.takesPermit a = true → s.unstopped < total

instance (total : Nat) (s : Sys) (a : Action) : Decidable (TakesBelow total s a) :=
  inferInstanceAs (Decidable (s.takesPermit a = true → s.unstopped < total))

section Steps

variable {s t : Sys} {a : Action}

/-- A handler takes a permit, moves one into a supervisor, or has none. -/
theorem permits_of_stepHandler {now : Nat} {uuid : String} {hd hd' : Handler}
    (h : stepHandler now uuid s hd = some (hd', t)) :
    (∃ jobId record, hd = .startAcquire jobId record ∧ s.permits ≠ 0 ∧
      hd' = .startSpawn jobId record ∧ t.permits = s.permits - 1 ∧ t.runs = s.runs) ∨
    (∃ jobId record, hd = .startSpawn jobId record ∧ hd'.holdsPermit = false ∧
      t.permits = s.permits ∧ t.runs = s.runs ++ [record.spawnRun jobId]) ∨
    (hd.holdsPermit = false ∧ hd'.holdsPermit = false ∧ t.permits = s.permits ∧
      (∀ p : Run → Bool, (∀ run, p run.notifyOne = p run) → t.runs.countP p = s.runs.countP p) ∧
      ∀ jobId record, hd = .startAcquire jobId record → s.permits = 0) := by
  cases hd with
  | startAcquire jobId record =>
      simp only [stepHandler] at h
      split_ifs at h with hp
      · cases h
        exact .inr (.inr ⟨rfl, rfl, rfl, fun _ _ => rfl, fun _ _ _ => hp⟩)
      · cases h
        exact .inl ⟨jobId, record, rfl, hp, rfl, rfl, rfl⟩
  | startSpawn jobId record =>
      cases h
      exact .inr (.inl ⟨jobId, record, rfl, rfl, rfl, rfl⟩)
  | discardCancel jobId wasActive =>
      simp only [stepHandler, Option.some.injEq, Prod.mk.injEq] at h
      obtain ⟨rfl, rfl⟩ := h
      refine .inr (.inr ⟨rfl, ?_, ?_, fun p hp => ?_, fun _ _ h => by cases h⟩)
      · split_ifs <;> rfl
      · unfold Sys.cancel
        split <;> rfl
      · unfold Sys.cancel
        split
        · rfl
        · exact countP_modify hp
  | _ =>
      refine .inr (.inr ?_)
      simp only [stepHandler] at h
      repeat' split at h
      all_goals grind [Handler.holdsPermit]

theorem permits_of_supervisorMove {now : Nat} {run run' : Run} {jobs : InMemoryJobStore}
    {registry : JobRegistry} {permits : Nat}
    (h : SupervisorMove now s run run' jobs registry permits) :
    permits + (if run'.holdsPermit then 1 else 0) =
      s.permits + (if run.holdsPermit then 1 else 0) := by
  cases h with
  | settled hsup =>
      rcases hsup with hsup | hsup <;> simp [Run.holdsPermit, hsup]
  | _ =>
      simp_all [Run.holdsPermit]

/-- The runs under way after one run has changed. -/
theorem unstopped_of_evolves {k : Nat} {run run' : Run} (hrun : s.runs[k]? = some run)
    (hev : run.Evolves s run') :
    (s.runs.set k run').countP Run.isUnstopped ≤ s.runs.countP Run.isUnstopped := by
  have hcount := countP_set (p := Run.isUnstopped) (y := run') hrun
  split_ifs at hcount with h h' h'
  · omega
  · omega
  · exact absurd (isUnstopped_of_evolves hev h') h
  · omega

/-- A step of a runner leaves the permits to the supervisors. -/
theorem permits_of_runnerStep {k : Nat} {run : Run} {runner : Runner}
    (hrun : s.runs[k]? = some run) (hev : run.Evolves s { run with runner := runner })
    (hhandlers : t.handlers = s.handlers) (hpermits : t.permits = s.permits)
    (hruns : t.runs = s.runs.set k { run with runner := runner }) :
    t.permits + t.held = s.permits + s.held ∧ t.unstopped ≤ s.unstopped := by
  have hcount := countP_set (p := Run.holdsPermit) (y := { run with runner := runner }) hrun
  have hsame : Run.holdsPermit { run with runner := runner } = run.holdsPermit := rfl
  have hle := unstopped_of_evolves hrun hev
  rw [hsame] at hcount
  unfold Sys.held Sys.unstopped
  rw [hhandlers, hpermits, hruns]
  constructor <;> omega

/-- What a step does to the permits, and at most to the runs under way. -/
theorem permits_of_transition (h : Transition s a t) :
    t.permits + t.held = s.permits + s.held ∧
      (if s.takesPermit a then t.unstopped = s.unstopped + 1 else t.unstopped ≤ s.unstopped) := by
  cases h with
  | arrive request =>
      have hnew : request.handler.holdsPermit = false := by cases request <;> rfl
      simp [Sys.held, Sys.unstopped, Sys.takesPermit, hnew]
  | @handler i now uuid hd hd' u hhd hstep =>
      have hcount := countP_set (p := Handler.holdsPermit) (y := hd') hhd
      unfold Sys.held Sys.unstopped
      rcases permits_of_stepHandler hstep with ⟨jobId, record, rfl, hp, rfl, hperm, hruns⟩ |
        ⟨jobId, record, rfl, hhold, hperm, hruns⟩ | ⟨hhold, hhold', hperm, hruns, htake⟩
      · have htakes : s.takesPermit (.handler i now uuid) = true := by
          simp [Sys.takesPermit, hhd, hp]
        simp only [Handler.holdsPermit, hruns, hperm, htakes, if_true] at hcount ⊢
        simp only [Bool.false_eq_true, if_false] at hcount
        constructor <;> omega
      · have htakes : s.takesPermit (.handler i now uuid) = false := by
          simp [Sys.takesPermit, hhd]
        have hspawn : (Handler.startSpawn jobId record).holdsPermit = true := rfl
        have hrun : (record.spawnRun jobId).holdsPermit = true := rfl
        have hrun' : (record.spawnRun jobId).isUnstopped = true := rfl
        rw [hspawn, hhold] at hcount
        simp only [hruns, hperm, htakes, List.countP_append, List.countP_singleton, hrun, hrun']
        simp only [Bool.false_eq_true, if_false, if_true] at hcount ⊢
        constructor <;> omega
      · have htakes : s.takesPermit (.handler i now uuid) = false := by
          unfold Sys.takesPermit
          dsimp only
          rw [hhd]
          split
          · rename_i jobId record he
            cases he
            simp [htake _ _ rfl]
          · rfl
        simp only [hhold, hhold', hperm, htakes, hruns Run.holdsPermit fun _ => rfl,
          hruns Run.isUnstopped fun _ => rfl] at hcount ⊢
        simp only [Bool.false_eq_true, if_false] at hcount ⊢
        constructor <;> omega
  | @supervisor k now notified run run' jobs registry permits hrun hmove =>
      have hcount := countP_set (p := Run.holdsPermit) (y := run') hrun
      have hperm := permits_of_supervisorMove hmove
      have hle := unstopped_of_evolves hrun (.moved hmove)
      simp only [Sys.held, Sys.unstopped, Sys.takesPermit, Bool.false_eq_true, if_false]
      constructor <;> omega
  | call hrun hr =>
      exact permits_of_runnerStep hrun (.called _ hr) rfl rfl rfl
  | returned hrun hr =>
      exact permits_of_runnerStep hrun (.returned hr) rfl rfl rfl
  | panicked hrun hr =>
      exact permits_of_runnerStep hrun (.panicked hr) rfl rfl rfl
  | aborted hrun hr =>
      exact permits_of_runnerStep hrun (.aborted hr) rfl rfl rfl

end Steps

section Runs

variable {s t : Sys} {a : Action} {total : Nat} {timeoutVar : Option String}

theorem liveRuns_le_unstopped (s : Sys) : s.liveRuns ≤ s.unstopped := by
  have hle : s.runs.countP Run.isLive ≤ s.runs.countP Run.isUnstopped :=
    List.countP_mono_left fun run _ hlive => by simp [Run.isUnstopped, hlive]
  unfold Sys.liveRuns Sys.unstopped
  omega

/-- Free permits and taken ones add up. -/
theorem permits_accounted {G : Sys → Action → Prop}
    (h : Reach step G (Sys.initial total timeoutVar) s) : s.permits + s.held = total := by
  refine h.invariant (I := fun s => s.permits + s.held = total) rfl ?_
  intro s a t hs _ hstep
  exact (permits_of_transition (transition_of_step hstep)).1.trans hs

/-- In a run in which permits are taken in time, no more runs are under way than
there are permits. -/
theorem unstopped_le {s₀ : Sys} (h : Reach step (TakesBelow total) s₀ s)
    (h₀ : s₀.unstopped ≤ total) : s.unstopped ≤ total := by
  refine h.invariant (I := fun s => s.unstopped ≤ total) h₀ ?_
  intro s a t hs hG hstep
  have hmove := (permits_of_transition (transition_of_step hstep)).2
  split_ifs at hmove with htakes
  · have := hG htakes
    omega
  · exact hmove.trans hs

/-- The runs that are accepted and still to be spawned, a start that has yet to add
its run twice. -/
def Sys.pending (s : Sys) : Nat :=
  2 * s.handlers.countP Handler.holdsPermit + s.runs.countP (fun run => run.supervisor == .spawning)

theorem liveRuns_of_not_pending (h : s.pending = 0) : s.liveRuns = s.unstopped := by
  unfold Sys.pending at h
  have hruns : s.runs.countP Run.isUnstopped = s.runs.countP Run.isLive := by
    refine List.countP_congr fun run hrun => ?_
    have hnone := List.countP_eq_zero.mp (Nat.eq_zero_of_add_eq_zero_left h) run hrun
    simp only [Run.isUnstopped, Bool.or_eq_true]
    exact ⟨fun h => h.resolve_right hnone, .inl⟩
  unfold Sys.liveRuns Sys.unstopped
  omega

/-- A run that is still to be spawned takes a step towards it. -/
theorem exists_step_of_pending (h : s.pending ≠ 0) :
    ∃ a t, TakesBelow total s a ∧ step s a = some t ∧ t.unstopped = s.unstopped ∧
      t.pending < s.pending := by
  by_cases hhandler : ∃ (i : Nat) (jobId : String) (record : JobRecord),
      s.handlers[i]? = some (.startSpawn jobId record)
  · obtain ⟨i, jobId, record, hhd⟩ := hhandler
    have hstep : step s (.handler i 0 "") = some { s with
        runs := s.runs ++ [record.spawnRun jobId]
        handlers := s.handlers.set i (.startRegister jobId s.runs.length) } := by
      simp only [step, hhd, Option.bind_eq_bind, Option.bind_some]
      rfl
    have hcount := countP_set (p := Handler.holdsPermit)
      (y := .startRegister jobId s.runs.length) hhd
    have hspawn : (Handler.startSpawn jobId record).holdsPermit = true := rfl
    have hregister : (Handler.startRegister jobId s.runs.length).holdsPermit = false := rfl
    have hunstopped : (record.spawnRun jobId).isUnstopped = true := rfl
    have hspawning : (fun run : Run => run.supervisor == .spawning) (record.spawnRun jobId) =
        true := rfl
    rw [hspawn, hregister] at hcount
    simp only [Bool.false_eq_true, if_false, if_true] at hcount
    refine ⟨_, _, fun htakes => ?_, hstep, ?_, ?_⟩
    · simp [Sys.takesPermit, hhd] at htakes
    · simp only [Sys.unstopped, List.countP_append, List.countP_singleton, hunstopped, if_true]
      omega
    · simp only [Sys.pending, List.countP_append, List.countP_singleton, hspawning, if_true]
      omega
  · have hzero : s.handlers.countP Handler.holdsPermit = 0 := by
      refine List.countP_eq_zero.mpr fun hd hhd hhold => ?_
      obtain ⟨i, hi⟩ := List.getElem?_of_mem hhd
      cases hd with
      | startSpawn jobId record => exact hhandler ⟨i, jobId, record, hi⟩
      | _ => cases hhold
    have hpos : 0 < s.runs.countP (fun run => run.supervisor == .spawning) := by
      unfold Sys.pending at h
      omega
    obtain ⟨run, hmem, hsup⟩ := List.countP_pos_iff.mp hpos
    obtain ⟨k, hrun⟩ := List.getElem?_of_mem hmem
    rw [beq_iff_eq] at hsup
    let run' : Run := { run with
      supervisor := .selecting
      runner := .live (runJob run.jobId run.userId (jobTimeoutSecs s.timeoutVar) run.body) false }
    have hstep : step s (.supervisor k 0 false) = some (s.setRun k run') := by
      simp only [step, hrun, Option.bind_eq_bind, Option.bind_some, stepSupervisor, hsup]
      rfl
    have hunstopped := countP_set (p := Run.isUnstopped) (y := run') hrun
    have hspawning := countP_set (p := fun run : Run => run.supervisor == .spawning) (y := run') hrun
    have h₁ : run.isUnstopped = true := by simp [Run.isUnstopped, hsup]
    have h₂ : run'.isUnstopped = true := rfl
    have h₃ : (run.supervisor == .spawning) = true := by simp [hsup]
    have h₄ : (run'.supervisor == .spawning) = false := rfl
    rw [h₁, h₂] at hunstopped
    rw [h₃, h₄] at hspawning
    simp only [Bool.false_eq_true, if_false, if_true] at hunstopped hspawning
    refine ⟨_, _, fun htakes => ?_, hstep, ?_, ?_⟩
    · cases htakes
    · simp only [Sys.unstopped, Sys.setRun]
      omega
    · simp only [Sys.pending, Sys.setRun]
      omega

/-- Left alone, as many runs get live as are under way. -/
theorem exists_all_live (s : Sys) :
    ∃ t, Reach step (TakesBelow total) s t ∧ t.liveRuns = s.unstopped := by
  generalize hn : s.pending = n
  induction n using Nat.strong_induction_on generalizing s with
  | _ n ih =>
      by_cases hzero : s.pending = 0
      · exact ⟨s, .refl, liveRuns_of_not_pending hzero⟩
      · obtain ⟨a, t, hG, hstep, hunstopped, hlt⟩ := exists_step_of_pending hzero
        obtain ⟨u, hu, hlive⟩ := ih t.pending (hn ▸ hlt) t rfl
        exact ⟨u, .head hG hstep hu, hlive.trans hunstopped⟩

end Runs

/-- The runner has returned, panicked or been aborted. -/
def Run.hasEnded (run : Run) : Bool :=
  match run.runner with
  | .returned _ => true
  | .panicked => true
  | .aborted => true
  | _ => false

/-- A run has no runner exactly before its supervisor spawns it. -/
def Run.SpawnsFirst (run : Run) : Prop :=
  run.supervisor = .spawning ↔ run.runner = .unspawned

/-- How far a supervisor is from its end. -/
def Supervisor.rank : Supervisor → Nat
  | .spawning => 7
  | .selecting => 6
  | .aborting => 5
  | .cancelGet => 4
  | .panicGet => 4
  | .cancelWrite => 3
  | .panicWrite => 3
  | .deregistering => 2
  | .releasing => 1
  | .finished => 0

/-- A step of the supervisor of run `k`. -/
def BySupervisor (k : Nat) (_ : Sys) (a : Action) : Prop :=
  ∃ now notified, a = .supervisor k now notified

/-- No task can take a step. -/
def Sys.Quiescent (s : Sys) : Prop :=
  ∀ a, (∀ request, a ≠ .arrive request) → step s a = none

section Release

variable {s t : Sys} {k : Nat} {run run' : Run}

theorem Run.SpawnsFirst.of_evolves (h : run.SpawnsFirst) (hev : run.Evolves s run') :
    run'.SpawnsFirst := by
  unfold Run.SpawnsFirst at *
  cases hev with
  | same =>
      exact h
  | notifyOne =>
      exact h
  | moved hmove =>
      cases hmove with
      | abort hsup =>
          cases hr : run.runner <;> simp_all [Runner.abort]
      | settled hsup =>
          rcases hsup with hsup | hsup <;> simp_all
      | _ =>
          simp_all
  | called reply hr =>
      simp_all
  | returned hr =>
      simp_all
  | panicked hr =>
      simp_all
  | aborted hr =>
      simp_all

theorem spawnsFirst_of_reach {G : Sys → Action → Prop} {total : Nat} {timeoutVar : Option String}
    (h : Reach step G (Sys.initial total timeoutVar) s) (hrun : s.runs[k]? = some run) :
    run.SpawnsFirst := by
  refine h.invariant (I := fun s => ∀ (k : Nat) (run : Run), s.runs[k]? = some run →
    run.SpawnsFirst) ?_ ?_ k run hrun
  · intro k run hrun
    simp [Sys.initial] at hrun
  · intro s a t hs _ hstep k run' hrun'
    rcases run_of_transition (transition_of_step hstep) hrun' with ⟨run, hrun, hev⟩ |
      ⟨_, _, _, j, record, -, -, -, -, rfl⟩
    · exact (hs k run hrun).of_evolves hev
    · exact ⟨fun _ => rfl, fun _ => rfl⟩

/-- A supervisor moves on towards its end. -/
theorem rank_of_supervisorMove {now : Nat} {jobs : InMemoryJobStore} {registry : JobRegistry}
    {permits : Nat} (h : SupervisorMove now s run run' jobs registry permits)
    (hended : run.hasEnded = true) (hsup : run.supervisor ≠ .spawning) :
    run'.hasEnded = true ∧ run'.supervisor ≠ .spawning ∧
      run'.supervisor.rank < run.supervisor.rank := by
  cases h with
  | spawn hs =>
      exact absurd hs hsup
  | abort hs =>
      refine ⟨?_, by simp, by simp [hs, Supervisor.rank]⟩
      cases hr : run.runner <;> simp_all [Run.hasEnded, Runner.abort]
  | settled hs =>
      refine ⟨hended, by simp, ?_⟩
      rcases hs with hs | hs <;> simp [hs, Supervisor.rank]
  | _ =>
      refine ⟨hended, by simp, ?_⟩
      simp_all [Supervisor.rank]

/-- The supervisor of a run that has ended is never stuck. -/
theorem stepSupervisor_isSome (hended : run.hasEnded = true) (hsup : run.supervisor ≠ .finished) :
    ∃ t, stepSupervisor 0 false s k run = some t := by
  unfold stepSupervisor
  cases hs : run.supervisor with
  | selecting =>
      unfold Run.hasEnded at hended
      cases hr : run.runner <;> simp_all
  | cancelGet =>
      cases hget : s.jobs.get run.jobId <;> exact ⟨_, rfl⟩
  | panicGet =>
      cases hget : s.jobs.get run.jobId <;> exact ⟨_, rfl⟩
  | finished =>
      exact absurd hs hsup
  | _ =>
      exact ⟨_, rfl⟩

/-- One step of the supervisor of a run that has ended. -/
theorem exists_step_of_hasEnded (hrun : s.runs[k]? = some run) (hended : run.hasEnded = true)
    (hspawning : run.supervisor ≠ .spawning) (hfinished : run.supervisor ≠ .finished) :
    ∃ t run', step s (.supervisor k 0 false) = some t ∧ t.runs[k]? = some run' ∧
      run'.hasEnded = true ∧ run'.supervisor ≠ .spawning ∧
      run'.supervisor.rank < run.supervisor.rank := by
  obtain ⟨t, ht⟩ := stepSupervisor_isSome (s := s) (k := k) hended hfinished
  obtain ⟨run', jobs, registry, permits, hmove, htruns⟩ := supervisorMove_of_stepSupervisor ht
  have hk : k < s.runs.length := (List.getElem?_eq_some_iff.mp hrun).1
  refine ⟨t, run', ?_, ?_, rank_of_supervisorMove hmove hended hspawning⟩
  · simp only [step, hrun, Option.bind_eq_bind, Option.bind_some]
    exact ht
  · rw [htruns]
    exact List.getElem?_set_self hk

/-- **A run that has ended gives its permit back**: its supervisor gets to its end
by its own steps. -/
theorem releases (hrun : s.runs[k]? = some run) (hended : run.hasEnded = true)
    (hspawning : run.supervisor ≠ .spawning) :
    ∃ t, Reach step (BySupervisor k) s t ∧
      ∃ run', t.runs[k]? = some run' ∧ run'.supervisor = .finished := by
  generalize hn : run.supervisor.rank = n
  induction n using Nat.strong_induction_on generalizing s run with
  | _ n ih =>
      by_cases hfinished : run.supervisor = .finished
      · exact ⟨s, .refl, run, hrun, hfinished⟩
      · obtain ⟨t, run', hstep, hrun', hended', hspawning', hlt⟩ :=
          exists_step_of_hasEnded hrun hended hspawning hfinished
        obtain ⟨u, hu, hlast⟩ := ih _ (hn ▸ hlt) hrun' hended' hspawning' rfl
        exact ⟨u, .head ⟨0, false, rfl⟩ hstep hu, hlast⟩

/-- In a quiescent service nothing holds a permit. -/
theorem held_of_quiescent (h : s.Quiescent)
    (hspawns : ∀ (k : Nat) (run : Run), s.runs[k]? = some run → run.SpawnsFirst) : s.held = 0 := by
  have hhandlers : s.handlers.countP Handler.holdsPermit = 0 := by
    refine List.countP_eq_zero.mpr fun hd hhd hhold => ?_
    obtain ⟨i, hi⟩ := List.getElem?_of_mem hhd
    cases hd with
    | startSpawn jobId record =>
        have hstep := h (.handler i 0 "") (fun request => by simp)
        simp [step, hi, stepHandler] at hstep
    | _ => cases hhold
  have hruns : s.runs.countP Run.holdsPermit = 0 := by
    refine List.countP_eq_zero.mpr fun run hmem hhold => ?_
    obtain ⟨k, hrun⟩ := List.getElem?_of_mem hmem
    have hfinished : run.supervisor ≠ .finished := by simpa [Run.holdsPermit] using hhold
    by_cases hspawning : run.supervisor = .spawning
    · have hstep := h (.supervisor k 0 false) (fun request => by simp)
      simp [step, hrun, stepSupervisor, hspawning] at hstep
    · cases hr : run.runner with
      | unspawned =>
          exact hspawning ((hspawns k run hrun).mpr hr)
      | live program aborting =>
          have hstep := h (.runner k 0 none .nan) (fun request => by simp)
          cases program <;> simp [step, hrun, stepRunner, hr] at hstep
      | _ =>
          obtain ⟨t, _, hstep, -⟩ := exists_step_of_hasEnded hrun
            (by simp [Run.hasEnded, hr]) hspawning hfinished
          rw [h _ (fun request => by simp)] at hstep
          cases hstep
  unfold Sys.held
  omega

end Release

/-- What `job_sem` is for.

* No more `run_job` futures can take a step than there are permits.
* Every permit is free or taken, the supervisor of a run that has ended gets to
  give its permit back, and a quiescent service has all of them. -/
structure PermitLaw (total : Nat) (s : Sys) : Prop where
  bounded : s.liveRuns ≤ total
  accounted : s.permits + s.held = total
  released : ∀ (k : Nat) (run : Run), s.runs[k]? = some run → run.hasEnded = true →
    ∃ t, Reach step (BySupervisor k) s t ∧
      ∃ run', t.runs[k]? = some run' ∧ run'.supervisor = .finished
  quiescent : s.Quiescent → s.permits = total

/-- **The permits bound the live runs** in every run in which each permit is taken
in time, and a step that takes one too early leads to a state with more live runs
than permits. -/
theorem permitLaw_iff {total : Nat} {timeoutVar : Option String} {s : Sys}
    (h : Reach step (TakesBelow total) (Sys.initial total timeoutVar) s) :
    PermitLaw total s ∧ ∀ a t, step s a = some t →
      ((∀ u, Reach step (TakesBelow total) t u → PermitLaw total u) ↔ TakesBelow total s a) := by
  have hlaw : ∀ {u}, Reach step (TakesBelow total) (Sys.initial total timeoutVar) u →
      PermitLaw total u := by
    intro u hu
    have hspawns : ∀ (k : Nat) (run : Run), u.runs[k]? = some run → run.SpawnsFirst :=
      fun _ _ hrun => spawnsFirst_of_reach hu hrun
    have hsum := permits_accounted hu
    refine ⟨?_, hsum, fun k run hrun hended => ?_, fun hq => ?_⟩
    · exact (liveRuns_le_unstopped u).trans (unstopped_le hu (Nat.zero_le _))
    · refine releases hrun hended fun hsup => ?_
      rw [Run.hasEnded, (hspawns k run hrun).mp hsup] at hended
      cases hended
    · rw [held_of_quiescent hq hspawns] at hsum
      exact hsum
  refine ⟨hlaw h, fun a t ht => ⟨fun hall htakes => ?_, fun hG u hu => ?_⟩⟩
  · -- too many runs would be under way, and all of them can get live
    by_contra hmany
    have hone := (permits_of_transition (transition_of_step ht)).2
    rw [htakes, if_pos rfl] at hone
    obtain ⟨u, hu, hlive⟩ := exists_all_live t
    have := (hall u hu).bounded
    omega
  · exact hlaw ((h.tail hG ht).trans hu)

/-- A job is started and canceled, its supervisor ends, and another job is
started.  The steps `before` come before the permit is given back. -/
def cancelThenStart (before : List Action) : List Action :=
  [.arrive (.createJob none none sampleProcess), .handler 0 0 "job",
    .arrive (.createJob none none sampleProcess), .handler 1 0 "next",
    .arrive (.startProcessing "job"),
    .handler 2 0 "", .handler 2 0 "", .handler 2 0 "", .handler 2 0 "",
    .supervisor 0 0 false, .runner 0 0 none .nan,
    .arrive (.discardResults "job"), .handler 3 0 "", .handler 3 0 "",
    .supervisor 0 0 true, .supervisor 0 0 false, .supervisor 0 0 false, .supervisor 0 0 false,
    .supervisor 0 0 false] ++ before ++
  [.supervisor 0 0 false,
    .arrive (.startProcessing "next"),
    .handler 4 0 "", .handler 4 0 "", .handler 4 0 "", .handler 4 0 "",
    .supervisor 1 0 false]

theorem permitLaw_iff_aborted :
    ∃ s, Reach step (TakesBelow 1) (Sys.initial 1 none) s ∧ s.liveRuns = 1 ∧ PermitLaw 1 s := by
  have hall : Allowed step (TakesBelow 1) (Sys.initial 1 none) (cancelThenStart [.drop 0]) := by
    decide
  have h : ∃ s, runAll step (Sys.initial 1 none) (cancelThenStart [.drop 0]) = some s ∧
      s.liveRuns = 1 := ⟨_, rfl, rfl⟩
  obtain ⟨s, hs, hlive⟩ := h
  have hreach := reach_of_runAll .refl hall hs
  exact ⟨s, hreach, hlive, (permitLaw_iff hreach).1⟩

theorem cancelThenStart_twoLive :
    ∃ s, Reach step AnyStep (Sys.initial 1 none) s ∧ s.liveRuns = 2 ∧ ¬ PermitLaw 1 s := by
  have h : ∃ s, runAll step (Sys.initial 1 none) (cancelThenStart []) = some s ∧
      s.liveRuns = 2 := ⟨_, rfl, rfl⟩
  obtain ⟨s, hs, hlive⟩ := h
  refine ⟨s, reach_of_runAll .refl (allowed_anyStep _ _) hs, hlive, fun hlaw => ?_⟩
  have := hlaw.bounded
  omega

end OrbitOpenEO
