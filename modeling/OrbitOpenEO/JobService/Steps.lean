import OrbitOpenEO.JobService

/-!
# What a step of the job service does

Inversion of `step`, once for all invariants.  `Transition` lists the steps by
task: a request arrives, a handler makes its next call, a supervisor makes one
of its moves (`SupervisorMove`), a runner makes a call or stops.

The handlers are inverted by their own definition; what they do to the runs is
`runs_of_stepHandler`.
-/

namespace OrbitOpenEO

open Lib Lib.Program

/-- The moves of a supervisor: its run, the job store, the registry and the free
permits afterwards. -/
inductive SupervisorMove (now : Nat) (s : Sys) (run : Run) :
    Run → InMemoryJobStore → JobRegistry → Nat → Prop
  | spawn : run.supervisor = .spawning →
      SupervisorMove now s run
        { run with
          supervisor := .selecting
          runner :=
            .live (runJob run.jobId run.userId (jobTimeoutSecs s.timeoutVar) run.body) false }
        s.jobs s.registry s.permits
  | notified : run.supervisor = .selecting → run.signal = true →
      SupervisorMove now s run { run with supervisor := .aborting, signal := false }
        s.jobs s.registry s.permits
  | joined : run.supervisor = .selecting →
      (∃ outcome, run.runner = .returned outcome) ∨ run.runner = .aborted →
      SupervisorMove now s run { run with supervisor := .deregistering }
        s.jobs s.registry s.permits
  | panicked : run.supervisor = .selecting → run.runner = .panicked →
      SupervisorMove now s run { run with supervisor := .panicGet }
        s.jobs s.registry s.permits
  | abort : run.supervisor = .aborting →
      SupervisorMove now s run { run with supervisor := .cancelGet, runner := run.runner.abort }
        s.jobs s.registry s.permits
  | settled : run.supervisor = .cancelGet ∨ run.supervisor = .panicGet →
      SupervisorMove now s run { run with supervisor := .deregistering }
        s.jobs s.registry s.permits
  | cancelDue (record : JobRecord) : run.supervisor = .cancelGet →
      s.jobs.get run.jobId = .ok record → record.status.isTerminal = false →
      SupervisorMove now s run { run with supervisor := .cancelWrite }
        s.jobs s.registry s.permits
  | panicDue (record : JobRecord) : run.supervisor = .panicGet →
      s.jobs.get run.jobId = .ok record → record.status.isTerminal = false →
      SupervisorMove now s run { run with supervisor := .panicWrite }
        s.jobs s.registry s.permits
  | cancelWrite : run.supervisor = .cancelWrite →
      SupervisorMove now s run { run with supervisor := .deregistering }
        ((s.jobs.setStatus now run.jobId .canceled).toOption.getD s.jobs) s.registry s.permits
  | panicWrite : run.supervisor = .panicWrite →
      SupervisorMove now s run { run with supervisor := .deregistering }
        ((s.jobs.setStatus now run.jobId .error).toOption.getD s.jobs) s.registry s.permits
  | deregister : run.supervisor = .deregistering →
      SupervisorMove now s run { run with supervisor := .releasing }
        s.jobs (s.registry.deregister run.jobId) s.permits
  | release : run.supervisor = .releasing →
      SupervisorMove now s run { run with supervisor := .finished }
        s.jobs s.registry (s.permits + 1)

variable {now : Nat} {s t : Sys} {k : Nat} {run run' : Run}

/-- Every step of a supervisor is one of its moves. -/
theorem supervisorMove_of_stepSupervisor {notified : Bool}
    (h : stepSupervisor now notified s k run = some t) :
    ∃ run' jobs registry permits,
      SupervisorMove now s run run' jobs registry permits ∧
      t = { s with
        runs := s.runs.set k run', jobs := jobs, registry := registry, permits := permits } := by
  unfold stepSupervisor at h
  cases hsup : run.supervisor with
  | spawning =>
      simp only [hsup, Option.some.injEq] at h
      exact ⟨_, _, _, _, .spawn hsup, h.symm⟩
  | selecting =>
      simp only [hsup] at h
      split_ifs at h with hn hsig
      · simp only [Option.some.injEq] at h
        exact ⟨_, _, _, _, .notified hsup hsig, h.symm⟩
      · split at h
        · rename_i outcome hr
          simp only [Option.some.injEq] at h
          exact ⟨_, _, _, _, .joined hsup (.inl ⟨outcome, hr⟩), h.symm⟩
        · rename_i hr
          simp only [Option.some.injEq] at h
          exact ⟨_, _, _, _, .panicked hsup hr, h.symm⟩
        · rename_i hr
          simp only [Option.some.injEq] at h
          exact ⟨_, _, _, _, .joined hsup (.inr hr), h.symm⟩
        · cases h
  | aborting =>
      simp only [hsup, Option.some.injEq] at h
      exact ⟨_, _, _, _, .abort hsup, h.symm⟩
  | cancelGet =>
      simp only [hsup] at h
      split at h
      · simp only [Option.some.injEq] at h
        exact ⟨_, _, _, _, .settled (.inl hsup), h.symm⟩
      · rename_i record hget
        simp only [Option.some.injEq] at h
        split_ifs at h with hterm
        · exact ⟨_, _, _, _, .settled (.inl hsup), h.symm⟩
        · exact ⟨_, _, _, _, .cancelDue record hsup hget (by simpa using hterm), h.symm⟩
  | cancelWrite =>
      simp only [hsup, Option.some.injEq] at h
      exact ⟨_, _, _, _, .cancelWrite hsup, h.symm⟩
  | panicGet =>
      simp only [hsup] at h
      split at h
      · simp only [Option.some.injEq] at h
        exact ⟨_, _, _, _, .settled (.inr hsup), h.symm⟩
      · rename_i record hget
        simp only [Option.some.injEq] at h
        split_ifs at h with hterm
        · exact ⟨_, _, _, _, .settled (.inr hsup), h.symm⟩
        · exact ⟨_, _, _, _, .panicDue record hsup hget (by simpa using hterm), h.symm⟩
  | panicWrite =>
      simp only [hsup, Option.some.injEq] at h
      exact ⟨_, _, _, _, .panicWrite hsup, h.symm⟩
  | deregistering =>
      simp only [hsup, Option.some.injEq] at h
      exact ⟨_, _, _, _, .deregister hsup, h.symm⟩
  | releasing =>
      simp only [hsup, Option.some.injEq] at h
      exact ⟨_, _, _, _, .release hsup, h.symm⟩
  | finished =>
      simp [hsup] at h

/-- A supervisor stays with its job. -/
theorem SupervisorMove.jobId_eq {jobs : InMemoryJobStore} {registry : JobRegistry}
    {permits : Nat} (h : SupervisorMove now s run run' jobs registry permits) :
    run'.jobId = run.jobId := by
  cases h <;> rfl

/-- What a handler does to the runs: nothing, raise one signal, or add a run. -/
theorem runs_of_stepHandler {uuid : String} {hd hd' : Handler}
    (h : stepHandler now uuid s hd = some (hd', t)) :
    t.runs = s.runs ∨
    (∃ jobId, t.runs = (s.cancel jobId).runs) ∨
    (∃ jobId record, hd = .startSpawn jobId record ∧ hd' = .startRegister jobId s.runs.length ∧
      t.runs = s.runs ++ [record.spawnRun jobId]) := by
  cases hd with
  | startSpawn jobId record =>
      simp only [stepHandler, Option.some.injEq, Prod.mk.injEq] at h
      obtain ⟨rfl, rfl⟩ := h
      exact .inr (.inr ⟨jobId, record, rfl, rfl, rfl⟩)
  | discardCancel jobId wasActive =>
      simp only [stepHandler, Option.some.injEq, Prod.mk.injEq] at h
      obtain ⟨-, rfl⟩ := h
      exact .inr (.inl ⟨jobId, rfl⟩)
  | _ =>
      refine .inl ?_
      simp only [stepHandler] at h
      repeat' split at h
      all_goals grind

/-- A handler leaves the other handlers alone. -/
theorem handlers_of_stepHandler {uuid : String} {hd hd' : Handler}
    (h : stepHandler now uuid s hd = some (hd', t)) : t.handlers = s.handlers := by
  cases hd with
  | discardCancel jobId wasActive =>
      simp only [stepHandler, Option.some.injEq, Prod.mk.injEq] at h
      obtain ⟨-, rfl⟩ := h
      unfold Sys.cancel
      split <;> rfl
  | _ =>
      simp only [stepHandler] at h
      repeat' split at h
      all_goals grind

/-- No handler writes a file. -/
theorem files_of_stepHandler {uuid : String} {hd hd' : Handler}
    (h : stepHandler now uuid s hd = some (hd', t)) : t.files = s.files := by
  cases hd with
  | discardCancel jobId wasActive =>
      simp only [stepHandler, Option.some.injEq, Prod.mk.injEq] at h
      obtain ⟨-, rfl⟩ := h
      unfold Sys.cancel
      split <;> rfl
  | _ =>
      simp only [stepHandler] at h
      repeat' split at h
      all_goals grind

/-- How one run changes in a step of the service. -/
inductive Run.Evolves (s : Sys) (run : Run) : Run → Prop
  | same : Run.Evolves s run run
  | notifyOne : Run.Evolves s run run.notifyOne
  | moved {now : Nat} {run' : Run} {jobs : InMemoryJobStore} {registry : JobRegistry}
      {permits : Nat} :
      SupervisorMove now s run run' jobs registry permits → Run.Evolves s run run'
  | called {q : RunCall} {next : RunReply q → RunProgram RunOutcome} {aborting : Bool}
      (reply : RunReply q) :
      run.runner = .live (.call q next) aborting →
      Run.Evolves s run { run with runner := .live (next reply) aborting }
  | returned {outcome : RunOutcome} {aborting : Bool} :
      run.runner = .live (.done outcome) aborting →
      Run.Evolves s run { run with runner := .returned outcome }
  | panicked {body : Json} {timeoutSecs : Nat}
      {next : RunReply (.runSync body timeoutSecs) → RunProgram RunOutcome} {aborting : Bool} :
      run.runner = .live (.call (.runSync body timeoutSecs) next) aborting →
      Run.Evolves s run { run with runner := .panicked }
  | aborted {program : RunProgram RunOutcome} :
      run.runner = .live program true →
      Run.Evolves s run { run with runner := .aborted }

theorem Run.Evolves.jobId_eq (h : run.Evolves s run') : run'.jobId = run.jobId := by
  cases h with
  | moved hmove =>
      exact hmove.jobId_eq
  | _ =>
      rfl

/-- The steps of the service.  `perform` gives the reply to a call of a runner
and the stores after it. -/
inductive Transition (s : Sys) : Action → Sys → Prop
  | arrive (request : Request) :
      Transition s (.arrive request) { s with handlers := s.handlers ++ [request.handler] }
  | handler {h now : Nat} {uuid : String} {hd hd' : Handler} {t : Sys} :
      s.handlers[h]? = some hd → stepHandler now uuid s hd = some (hd', t) →
      Transition s (.handler h now uuid) { t with handlers := s.handlers.set h hd' }
  | supervisor {k now : Nat} {notified : Bool} {run run' : Run} {jobs : InMemoryJobStore}
      {registry : JobRegistry} {permits : Nat} :
      s.runs[k]? = some run → SupervisorMove now s run run' jobs registry permits →
      Transition s (.supervisor k now notified)
        { s with
          runs := s.runs.set k run', jobs := jobs, registry := registry, permits := permits }
  | call {k now : Nat} {exec : Option (Except ExecError SyncResult)} {elapsed : F64} {run : Run}
      {q : RunCall} {next : RunReply q → RunProgram RunOutcome} {aborting : Bool} :
      s.runs[k]? = some run → run.runner = .live (.call q next) aborting →
      Transition s (.runner k now exec elapsed)
        { s with
          runs := s.runs.set k
            { run with
              runner := .live (next (perform now exec elapsed s.jobs s.files q).1) aborting }
          jobs := (perform now exec elapsed s.jobs s.files q).2.1
          files := (perform now exec elapsed s.jobs s.files q).2.2 }
  | returned {k now : Nat} {exec : Option (Except ExecError SyncResult)} {elapsed : F64}
      {run : Run} {outcome : RunOutcome} {aborting : Bool} :
      s.runs[k]? = some run → run.runner = .live (.done outcome) aborting →
      Transition s (.runner k now exec elapsed)
        { s with runs := s.runs.set k { run with runner := .returned outcome } }
  | panicked {k : Nat} {run : Run} {body : Json} {timeoutSecs : Nat}
      {next : RunReply (.runSync body timeoutSecs) → RunProgram RunOutcome} {aborting : Bool} :
      s.runs[k]? = some run → run.runner = .live (.call (.runSync body timeoutSecs) next) aborting →
      Transition s (.panic k) { s with runs := s.runs.set k { run with runner := .panicked } }
  | aborted {k : Nat} {run : Run} {program : RunProgram RunOutcome} :
      s.runs[k]? = some run → run.runner = .live program true →
      Transition s (.drop k) { s with runs := s.runs.set k { run with runner := .aborted } }

/-- **Every step of the service is one of the listed ones.** -/
theorem transition_of_step {a : Action} (h : step s a = some t) : Transition s a t := by
  cases a with
  | arrive request =>
      simp only [step, Option.some.injEq] at h
      subst h
      exact .arrive request
  | handler i now uuid =>
      simp only [step, Option.bind_eq_bind, Option.bind_eq_some_iff] at h
      obtain ⟨hd, hhd, ⟨hd', t'⟩, hstep, ht⟩ := h
      simp only [Option.some.injEq, handlers_of_stepHandler hstep] at ht
      subst ht
      exact .handler hhd hstep
  | supervisor k now notified =>
      simp only [step, Option.bind_eq_bind, Option.bind_eq_some_iff] at h
      obtain ⟨run, hrun, hstep⟩ := h
      obtain ⟨run', jobs, registry, permits, hmove, rfl⟩ := supervisorMove_of_stepSupervisor hstep
      exact .supervisor hrun hmove
  | runner k now exec elapsed =>
      simp only [step, Option.bind_eq_bind, Option.bind_eq_some_iff] at h
      obtain ⟨run, hrun, hstep⟩ := h
      unfold stepRunner at hstep
      split at hstep
      · rename_i q next aborting hr
        simp only [Option.some.injEq] at hstep
        subst hstep
        exact .call hrun hr
      · rename_i outcome aborting hr
        simp only [Option.some.injEq] at hstep
        subst hstep
        exact .returned hrun hr
      · cases hstep
  | panic k =>
      simp only [step, Option.bind_eq_bind, Option.bind_eq_some_iff] at h
      obtain ⟨run, hrun, hstep⟩ := h
      split at hstep
      · rename_i hr
        simp only [Option.some.injEq] at hstep
        subst hstep
        exact .panicked hrun hr
      · cases hstep
  | drop k =>
      simp only [step, Option.bind_eq_bind, Option.bind_eq_some_iff] at h
      obtain ⟨run, hrun, hstep⟩ := h
      split at hstep
      · rename_i hr
        simp only [Option.some.injEq] at hstep
        subst hstep
        exact .aborted hrun hr
      · cases hstep

/-- Only a `put` changes the files. -/
theorem files_of_perform {exec : Option (Except ExecError SyncResult)} {elapsed : F64}
    {jobs : InMemoryJobStore} {files : InMemoryFileStore} {q : RunCall}
    (hq : ∀ key bytes, q ≠ .put key bytes) :
    (perform now exec elapsed jobs files q).2.2 = files := by
  unfold perform
  split
  all_goals first
    | rfl
    | (split <;> rfl)
    | exact absurd rfl (hq _ _)

/-- Replacing one element of a list. -/
theorem getElem?_set_cases {α : Type} {l : List α} {i j : Nat} {x y : α}
    (h : (l.set i x)[j]? = some y) : (i = j ∧ y = x) ∨ (i ≠ j ∧ l[j]? = some y) := by
  by_cases hij : i = j
  · subst hij
    rw [List.getElem?_set_self'] at h
    obtain ⟨_, -, hx⟩ := Option.map_eq_some_iff.mp h
    exact .inl ⟨rfl, hx.symm⟩
  · rw [List.getElem?_set_ne hij] at h
    exact .inr ⟨hij, h⟩

/-- Adding one element at the end of a list. -/
theorem getElem?_concat_cases {α : Type} {l : List α} {i : Nat} {x y : α}
    (h : (l ++ [x])[i]? = some y) : l[i]? = some y ∨ (i = l.length ∧ y = x) := by
  rw [List.getElem?_append] at h
  split_ifs at h with hi
  · exact .inl h
  · obtain ⟨hlt, hx⟩ := List.getElem?_eq_some_iff.mp h
    rw [List.length_singleton] at hlt
    exact .inr ⟨by omega, by simpa using hx.symm⟩

theorem evolves_of_set {x : Run} (hrun : s.runs[k]? = some run) (hx : run.Evolves s x) {i : Nat}
    (h : (s.runs.set k x)[i]? = some run') :
    ∃ run, s.runs[i]? = some run ∧ run.Evolves s run' := by
  rcases getElem?_set_cases h with ⟨rfl, rfl⟩ | ⟨-, h⟩
  · exact ⟨run, hrun, hx⟩
  · exact ⟨run', h, .same⟩

theorem run_of_cancel {jobId : String} {i : Nat} (h : (s.cancel jobId).runs[i]? = some run') :
    ∃ run, s.runs[i]? = some run ∧ (run' = run ∨ run' = run.notifyOne) := by
  unfold Sys.cancel at h
  split at h
  · exact ⟨run', h, .inl rfl⟩
  · rename_i k _
    rw [List.getElem?_modify] at h
    obtain ⟨run, hrun, hx⟩ := Option.map_eq_some_iff.mp h
    refine ⟨run, hrun, ?_⟩
    split_ifs at hx
    · exact .inr hx.symm
    · exact .inl hx.symm

/-- **A run after a step** is an earlier run, changed in one of the listed ways,
or the run that a start has just spawned. -/
theorem run_of_transition {a : Action} (h : Transition s a t) {i : Nat}
    (hrun' : t.runs[i]? = some run') :
    (∃ run, s.runs[i]? = some run ∧ run.Evolves s run') ∨
    (∃ h now uuid jobId record, a = .handler h now uuid ∧
      s.handlers[h]? = some (.startSpawn jobId record) ∧
      t.handlers = s.handlers.set h (.startRegister jobId i) ∧
      i = s.runs.length ∧ run' = record.spawnRun jobId) := by
  cases h with
  | arrive request =>
      exact .inl ⟨run', hrun', .same⟩
  | handler hhd hstep =>
      dsimp only at hrun'
      rcases runs_of_stepHandler hstep with hruns | ⟨jobId, hruns⟩ | ⟨jobId, record, rfl, rfl, hruns⟩
      · rw [hruns] at hrun'
        exact .inl ⟨run', hrun', .same⟩
      · rw [hruns] at hrun'
        obtain ⟨run, hrun, rfl | rfl⟩ := run_of_cancel hrun'
        · exact .inl ⟨_, hrun, .same⟩
        · exact .inl ⟨_, hrun, .notifyOne⟩
      · rw [hruns] at hrun'
        rcases getElem?_concat_cases hrun' with hrun | ⟨rfl, rfl⟩
        · exact .inl ⟨run', hrun, .same⟩
        · exact .inr ⟨_, _, _, jobId, record, rfl, hhd, rfl, rfl, rfl⟩
  | supervisor hrun hmove =>
      exact .inl (evolves_of_set hrun (.moved hmove) hrun')
  | call hrun hr =>
      exact .inl (evolves_of_set hrun (.called _ hr) hrun')
  | returned hrun hr =>
      exact .inl (evolves_of_set hrun (.returned hr) hrun')
  | panicked hrun hr =>
      exact .inl (evolves_of_set hrun (.panicked hr) hrun')
  | aborted hrun hr =>
      exact .inl (evolves_of_set hrun (.aborted hr) hrun')

theorem length_runs_of_transition {a : Action} (h : Transition s a t) :
    s.runs.length ≤ t.runs.length := by
  cases h with
  | handler hhd hstep =>
      rcases runs_of_stepHandler hstep with hruns | ⟨jobId, hruns⟩ | ⟨_, _, _, _, hruns⟩
      · simp [hruns]
      · unfold Sys.cancel at hruns
        split at hruns <;> simp [hruns]
      · simp [hruns]
  | _ =>
      simp

/-- A run stays in its place, with its job. -/
theorem run_persists {a : Action} (h : Transition s a t) (hrun : s.runs[k]? = some run) :
    ∃ run', t.runs[k]? = some run' ∧ run'.jobId = run.jobId := by
  have hk : k < s.runs.length := (List.getElem?_eq_some_iff.mp hrun).1
  have hk' : k < t.runs.length := hk.trans_le (length_runs_of_transition h)
  refine ⟨_, List.getElem?_eq_getElem hk', ?_⟩
  rcases run_of_transition h (List.getElem?_eq_getElem hk') with ⟨run₀, hrun₀, hev⟩ |
    ⟨_, _, _, _, _, -, -, -, rfl, -⟩
  · rw [hrun] at hrun₀
    cases hrun₀
    exact hev.jobId_eq
  · exact absurd hk (Nat.lt_irrefl _)

/-- **A handler after a step** has not moved, has made its call, or is new. -/
theorem handler_of_transition {a : Action} (h : Transition s a t) {i : Nat} {hd' : Handler}
    (hhd' : t.handlers[i]? = some hd') :
    s.handlers[i]? = some hd' ∨
    (∃ now uuid hd u, a = .handler i now uuid ∧ s.handlers[i]? = some hd ∧
      stepHandler now uuid s hd = some (hd', u) ∧
      t = { u with handlers := s.handlers.set i hd' }) ∨
    (∃ request, a = .arrive request ∧ hd' = request.handler) := by
  cases h with
  | arrive request =>
      rcases getElem?_concat_cases hhd' with hhd | ⟨-, rfl⟩
      · exact .inl hhd
      · exact .inr (.inr ⟨request, rfl, rfl⟩)
  | handler hhd hstep =>
      rcases getElem?_set_cases hhd' with ⟨rfl, rfl⟩ | ⟨-, hhd'⟩
      · exact .inr (.inl ⟨_, _, _, _, rfl, hhd, hstep, rfl⟩)
      · exact .inl hhd'
  | _ =>
      exact .inl hhd'

/-- The job of a start that has passed its check and has not spawned yet. -/
def Handler.pastCheck : Handler → Option String
  | .startAcquire jobId _ => some jobId
  | .startSpawn jobId _ => some jobId
  | _ => none

/-- The job for which a step passes the check of `start_processing`: the handler
reads a status that is neither `Queued` nor `Running`. -/
def Sys.checkPassed (s : Sys) : Action → Option String
  | .handler h _ _ =>
      match s.handlers[h]? with
      | some (.startGet jobId) =>
          match s.jobs.get jobId with
          | .ok record => if record.status.isActive then none else some jobId
          | .error _ => none
      | _ => none
  | _ => none

/-- **A start past its check** was there before, or passes the check now. -/
theorem pastCheck_of_transition {a : Action} (h : Transition s a t) {i : Nat} {hd' : Handler}
    {jobId : String} (hhd' : t.handlers[i]? = some hd') (hp : hd'.pastCheck = some jobId) :
    (∃ hd, s.handlers[i]? = some hd ∧ hd.pastCheck = some jobId) ∨
      (∃ now uuid, a = .handler i now uuid) ∧ s.checkPassed a = some jobId := by
  rcases handler_of_transition h hhd' with hhd | ⟨now, uuid, hd, u, rfl, hhd, hstep, -⟩ |
    ⟨request, rfl, rfl⟩
  · exact .inl ⟨hd', hhd, hp⟩
  · cases hd with
    | startGet j =>
        simp only [stepHandler] at hstep
        split at hstep
        · cases hstep
          cases hp
        · rename_i record hget
          split_ifs at hstep with hactive
          · cases hstep
            cases hp
          · cases hstep
            cases hp
            exact .inr ⟨⟨now, uuid, rfl⟩, by simp [Sys.checkPassed, hhd, hget, hactive]⟩
    | startAcquire j record =>
        simp only [stepHandler] at hstep
        split_ifs at hstep
        · cases hstep
          cases hp
        · cases hstep
          cases hp
          exact .inl ⟨_, hhd, rfl⟩
    | startSpawn j record =>
        cases hstep
        cases hp
    | discardCancel j wasActive =>
        cases hstep
        cases wasActive <;> cases hp
    | _ =>
        simp only [stepHandler] at hstep
        repeat' split at hstep
        all_goals cases hstep <;> cases hp
  · cases request <;> cases hp

/-- Steps of the runner of run `k` whose executor returns this result. -/
def runnerSteps (n k : Nat) (result : SyncResult) : List Action :=
  List.replicate n (.runner k 0 (some (.ok result)) (.finite 1))

end OrbitOpenEO
