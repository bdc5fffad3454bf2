import OrbitOpenEO.Lib.ListUpdate
import OrbitOpenEO.Lib.Run
import Mathlib.Algebra.Group.Nat.Defs

/-!
# The block executor

`run_blocks` spawns a task for each block, with a semaphore that bounds how many of them are
there at a time, and then awaits the tasks in the order of the blocks.  The cancellation token
can be tripped at any moment; it is looked at before a block is spawned and when its task
begins, and a task that finds it tripped says so in the text of its error.

The function itself and each of the tasks take their steps in any order.
-/

namespace OrbitOpenEO

open Lib

/-- `BlockExecError`. -/
inductive BlockExecError where
  | worker (e : String)
  | cancelled
  | budgetExhausted (requested available : Nat)
deriving DecidableEq

/-- What a call of `worker` comes to; a panic has the text of its `JoinError`. -/
inductive WorkerOutcome (O : Type) where
  | value (v : O)
  | failed (e : String)
  | panicked (joinError : String)
deriving DecidableEq

namespace BlockExecutor

variable {O : Type}

/-- Where the task of a block stands. -/
inductive BlockTask (O : Type) where
  /-- Spawned with its permit. -/
  | queued
  /-- In the worker. -/
  | running
  /-- Back from the worker. -/
  | worked (r : Except String O)
  | finished (r : Except String O)
  | panicked (joinError : String)

/-- Where `run_blocks` stands. -/
inductive Main (O : Type) where
  /-- At the top of the first loop. -/
  | spawning (id : Nat)
  /-- At the semaphore. -/
  | acquiring (id : Nat)
  /-- In the second loop, with the values of the blocks so far. -/
  | joining (out : List O)
  | returned (result : Except BlockExecError (List O))
  /-- At the vector of the values, which there can be no room for. -/
  | panicked

/-- The arguments of `run_blocks`, without the token and the reporter; `outcomeBytes` is the
size of a value of type `O` in memory. -/
structure Config (O : Type) where
  totalBlocks : Nat
  nThreads : Nat
  worker : Nat → WorkerOutcome O
  outcomeBytes : Nat

/-- `Semaphore::MAX_PERMITS`. -/
def maxPermits : Nat := (2 ^ 64 - 1) / 8

/-- The size of a `JoinHandle`, which is a pointer. -/
def handleBytes : Nat := 8

/-- `Vec::with_capacity(n)` does not overflow: `n` elements take up at most `isize::MAX` bytes.
That there is as much memory is assumed. -/
def HasCapacity (n elementBytes : Nat) : Prop := n * elementBytes ≤ 2 ^ 63 - 1

instance (n elementBytes : Nat) : Decidable (HasCapacity n elementBytes) :=
  inferInstanceAs (Decidable (n * elementBytes ≤ 2 ^ 63 - 1))

/-- A run in progress: the token, the permits that are free, the tasks spawned so far, the
counter `done`, the progress reports, and the blocks whose worker was called. -/
structure State (O : Type) where
  cancelled : Bool
  permits : Nat
  main : Main O
  tasks : List (BlockTask O)
  done : Nat
  reports : List (Nat × Nat)
  calls : List Nat

/-- A step of somebody who trips the token, of the function, or of the task of a block. -/
inductive BlockStep where
  | cancel
  | main
  | task (id : Nat)
deriving DecidableEq

variable (cfg : Config O)

/-- The beginning; `Semaphore::new` panics if there are too many permits, and so does
`Vec::with_capacity` if there are too many handles. -/
def start : Option (State O) :=
  if max cfg.nThreads 1 ≤ maxPermits ∧ HasCapacity cfg.totalBlocks handleBytes then
    some ⟨false, max cfg.nThreads 1, .spawning 0, [], 0, [], []⟩
  else none

/-- A step of the function; awaiting is no step. -/
def mainStep (s : State O) : Option (State O) :=
  match s.main with
  | .spawning id =>
      if id < cfg.totalBlocks then
        if s.cancelled then some { s with main := .returned (.error .cancelled) }
        else some { s with main := .acquiring id }
      else if HasCapacity cfg.totalBlocks cfg.outcomeBytes then
        some { s with main := .joining [] }
      else some { s with main := .panicked }
  | .acquiring id =>
      if s.permits = 0 then none
      else
        some { s with
          permits := s.permits - 1
          tasks := s.tasks ++ [.queued]
          main := .spawning (id + 1) }
  | .joining out =>
      if out.length < cfg.totalBlocks then
        match s.tasks[out.length]? with
        | some (.finished (.ok v)) => some { s with main := .joining (out ++ [v]) }
        | some (.finished (.error e)) =>
            if e = "cancelled" then some { s with main := .returned (.error .cancelled) }
            else some { s with main := .returned (.error (.worker e)) }
        | some (.panicked joinError) =>
            some { s with main := .returned (.error (.worker joinError)) }
        | _ => none
      else some { s with main := .returned (.ok out) }
  | .returned _ => none
  | .panicked => none

/-- A step of the task of a block. -/
def taskStep (s : State O) (id : Nat) : Option (State O) :=
  match s.tasks[id]? with
  | some .queued =>
      if s.cancelled then
        some { s with
          tasks := s.tasks.set id (.finished (.error "cancelled"))
          permits := s.permits + 1 }
      else some { s with tasks := s.tasks.set id .running, calls := s.calls ++ [id] }
  | some .running =>
      match cfg.worker id with
      | .value v => some { s with tasks := s.tasks.set id (.worked (.ok v)) }
      | .failed e => some { s with tasks := s.tasks.set id (.worked (.error e)) }
      | .panicked joinError =>
          some { s with
            tasks := s.tasks.set id (.panicked joinError)
            permits := s.permits + 1 }
  | some (.worked r) =>
      some { s with
        tasks := s.tasks.set id (.finished r)
        permits := s.permits + 1
        done := s.done + 1
        reports := s.reports ++ [(s.done + 1, cfg.totalBlocks)] }
  | _ => none

/-- One step. -/
def step (s : State O) : BlockStep → Option (State O)
  | .cancel => some { s with cancelled := true }
  | .main => mainStep cfg s
  | .task id => taskStep cfg s id

/-- The outcome of a worker that returns. -/
def ofResult : Except String O → WorkerOutcome O
  | .ok v => .value v
  | .error e => .failed e

/-- A task that holds its permit. -/
def BlockTask.busy : BlockTask O → Bool
  | .finished _ => false
  | .panicked _ => false
  | _ => true

/-- The steps that a task has left. -/
def BlockTask.left : BlockTask O → Nat
  | .queued => 3
  | .running => 2
  | .worked _ => 1
  | _ => 0

/-- What a task says about the token, the worker and its calls. -/
def TaskFact (cancelled : Bool) (calls : List Nat) (i : Nat) : BlockTask O → Prop
  | .queued => calls.count i = 0
  | .running => calls.count i = 1
  | .worked r => cfg.worker i = ofResult r ∧ calls.count i = 1
  | .finished r =>
      (cfg.worker i = ofResult r ∧ calls.count i = 1) ∨
        (r = .error "cancelled" ∧ cancelled = true)
  | .panicked e => cfg.worker i = .panicked e

/-- The blocks before this one have values. -/
def AllValues (k : Nat) : Prop := ∀ j < k, ∃ v, cfg.worker j = .value v

/-- These are the values of the first tasks. -/
def Values (tasks : List (BlockTask O)) (out : List O) : Prop :=
  ∀ (i : Nat) (v : O), out[i]? = some v → tasks[i]? = some (.finished (.ok v))

/-- What the place of the function says. -/
def MainFact (cancelled : Bool) (tasks : List (BlockTask O)) : Main O → Prop
  | .spawning id => tasks.length = id ∧ id ≤ cfg.totalBlocks
  | .acquiring id => tasks.length = id ∧ id < cfg.totalBlocks
  | .joining out =>
      (tasks.length = cfg.totalBlocks ∧ out.length ≤ cfg.totalBlocks ∧ Values tasks out) ∧
        HasCapacity cfg.totalBlocks cfg.outcomeBytes
  | .returned (.ok out) =>
      tasks.length = cfg.totalBlocks ∧ out.length = cfg.totalBlocks ∧ Values tasks out
  | .returned (.error .cancelled) =>
      cancelled = true ∨
        ∃ k < cfg.totalBlocks, AllValues cfg k ∧ cfg.worker k = .failed "cancelled"
  | .returned (.error (.worker e)) =>
      (∃ k < cfg.totalBlocks, AllValues cfg k ∧
        (cfg.worker k = .failed e ∧ e ≠ "cancelled" ∨ cfg.worker k = .panicked e)) ∧
        HasCapacity cfg.totalBlocks cfg.outcomeBytes
  | .returned (.error (.budgetExhausted _ _)) => False
  | .panicked => ¬ HasCapacity cfg.totalBlocks cfg.outcomeBytes

/-- The steps that the function has left. -/
def Main.left (total : Nat) : Main O → Nat
  | .spawning id => 6 * (total - id) + total + 3
  | .acquiring id => 6 * (total - id) + total + 2
  | .joining out => total - out.length + 1
  | .returned _ => 0
  | .panicked => 0

/-- What holds in every state. -/
structure Inv (s : State O) : Prop where
  tasks : ∀ (i : Nat) (t : BlockTask O), s.tasks[i]? = some t →
    TaskFact cfg s.cancelled s.calls i t
  uncalled : ∀ i, s.tasks.length ≤ i → s.calls.count i = 0
  main : MainFact cfg s.cancelled s.tasks s.main
  permits : s.permits + s.tasks.countP BlockTask.busy = max cfg.nThreads 1

/-- The steps left. -/
def State.left (s : State O) : Nat :=
  s.main.left cfg.totalBlocks + (s.tasks.map BlockTask.left).sum

section Tasks

variable {cfg} {s s' : State O} {id : Nat}

/-- A step of a task: it goes on, keeps its word, and leaves everything else as it is. -/
structure TaskMoves (s s' : State O) (id : Nat) (t t' : BlockTask O) : Prop where
  here : s.tasks[id]? = some t
  busy : t.busy = true
  left : t'.left < t.left
  tasks : s'.tasks = s.tasks.set id t'
  main : s'.main = s.main
  cancelled : s'.cancelled = s.cancelled
  calls : ∀ j, j ≠ id → s'.calls.count j = s.calls.count j
  permits : s'.permits + (if t'.busy then 1 else 0) = s.permits + (if t.busy then 1 else 0)

theorem taskStep_spec (h : taskStep cfg s id = some s')
    (htask : ∀ t, s.tasks[id]? = some t → TaskFact cfg s.cancelled s.calls id t) :
    ∃ t t', TaskMoves s s' id t t' ∧ TaskFact cfg s'.cancelled s'.calls id t' := by
  unfold taskStep at h
  split at h
  · next hid =>
      split_ifs at h with hcancelled
      · cases h
        exact ⟨_, .finished (.error "cancelled"),
          ⟨hid, rfl, Nat.zero_lt_succ _, rfl, rfl, rfl, fun _ _ => rfl, rfl⟩,
          .inr ⟨rfl, hcancelled⟩⟩
      · cases h
        have hcount : s.calls.count id = 0 := htask _ hid
        refine ⟨_, .running, ⟨hid, rfl, Nat.lt_succ_self _, rfl, rfl, rfl, fun j hj => ?_, rfl⟩, ?_⟩
        · simp [List.count_append, Ne.symm hj]
        · change (s.calls ++ [id]).count id = 1
          simp [hcount]
  · next hid =>
      have hcount : s.calls.count id = 1 := htask _ hid
      split at h
      · next v hworker =>
          cases h
          exact ⟨_, .worked (.ok v),
            ⟨hid, rfl, Nat.lt_succ_self _, rfl, rfl, rfl, fun _ _ => rfl, rfl⟩, hworker, hcount⟩
      · next e hworker =>
          cases h
          exact ⟨_, .worked (.error e),
            ⟨hid, rfl, Nat.lt_succ_self _, rfl, rfl, rfl, fun _ _ => rfl, rfl⟩, hworker, hcount⟩
      · next e hworker =>
          cases h
          exact ⟨_, .panicked e,
            ⟨hid, rfl, Nat.zero_lt_succ _, rfl, rfl, rfl, fun _ _ => rfl, rfl⟩, hworker⟩
  · next r hid =>
      cases h
      exact ⟨_, .finished r, ⟨hid, rfl, Nat.zero_lt_succ _, rfl, rfl, rfl, fun _ _ => rfl, rfl⟩,
        .inl (htask _ hid)⟩
  · cases h

/-- A busy task can take a step. -/
theorem exists_taskStep {t : BlockTask O} (hid : s.tasks[id]? = some t) (hbusy : t.busy = true) :
    ∃ s', taskStep cfg s id = some s' := by
  unfold taskStep
  rw [hid]
  cases t with
  | queued =>
      dsimp only
      split_ifs <;> exact ⟨_, rfl⟩
  | running =>
      dsimp only
      cases cfg.worker id <;> exact ⟨_, rfl⟩
  | worked r =>
      exact ⟨_, rfl⟩
  | finished r =>
      cases hbusy
  | panicked e =>
      cases hbusy

end Tasks

section Main

variable {cfg} {s s' : State O}

/-- The values of the first tasks are those of their workers. -/
theorem allValues_of_values {cancelled : Bool} {calls : List Nat} {tasks : List (BlockTask O)}
    (htasks : ∀ (i : Nat) (t : BlockTask O), tasks[i]? = some t →
      TaskFact cfg cancelled calls i t)
    {out : List O} (h : Values tasks out) : AllValues cfg out.length := by
  intro j hj
  have hout : out[j]? = some out[j] := List.getElem?_eq_getElem hj
  rcases htasks j _ (h j _ hout) with ⟨hworker, -⟩ | ⟨hr, -⟩
  · exact ⟨out[j], hworker⟩
  · cases hr

theorem values_concat {tasks : List (BlockTask O)} {out : List O} {v : O} (h : Values tasks out)
    (hv : tasks[out.length]? = some (.finished (.ok v))) : Values tasks (out ++ [v]) := by
  intro i w hi
  by_cases hlt : i < out.length
  · rw [List.getElem?_append_left hlt] at hi
    exact h i w hi
  · have hlen := (List.getElem?_eq_some_iff.mp hi).1
    rw [List.length_append, List.length_singleton] at hlen
    have hi' : i = out.length := by omega
    subst hi'
    rw [List.getElem?_concat_length] at hi
    cases hi
    exact hv

/-- A step of the function: it moves on and changes nothing, or spawns a task. -/
theorem mainStep_spec (hinv : Inv cfg s) (h : mainStep cfg s = some s') :
    (∃ m, s' = { s with main := m } ∧ MainFact cfg s.cancelled s.tasks m ∧
        m.left cfg.totalBlocks < s.main.left cfg.totalBlocks) ∨
      ∃ id, s.main = .acquiring id ∧ s.permits ≠ 0 ∧
        s' = { s with
          permits := s.permits - 1
          tasks := s.tasks ++ [.queued]
          main := .spawning (id + 1) } := by
  have hmain := hinv.main
  unfold mainStep at h
  split at h
  · next id hid =>
      rw [hid] at hmain
      obtain ⟨hlen, hle⟩ := hmain
      split_ifs at h with hlt hcancelled hcapacity
      · cases h
        refine .inl ⟨_, rfl, .inl hcancelled, ?_⟩
        rw [hid]
        exact Nat.zero_lt_succ _
      · cases h
        refine .inl ⟨_, rfl, ⟨hlen, hlt⟩, ?_⟩
        rw [hid]
        exact Nat.lt_succ_self _
      · cases h
        refine .inl ⟨_, rfl, ⟨⟨by omega, Nat.zero_le _, fun i v hi => nomatch hi⟩, hcapacity⟩, ?_⟩
        rw [hid]
        simp only [Main.left, List.length_nil]
        omega
      · cases h
        refine .inl ⟨_, rfl, hcapacity, ?_⟩
        rw [hid]
        exact Nat.zero_lt_succ _
  · next id hid =>
      split_ifs at h with hpermits
      cases h
      exact .inr ⟨id, hid, hpermits, rfl⟩
  · next out hout =>
      rw [hout] at hmain
      obtain ⟨⟨hlen, hle, hvalues⟩, hcapacity⟩ := hmain
      have hleft : s.main.left cfg.totalBlocks = cfg.totalBlocks - out.length + 1 := by
        rw [hout]
        rfl
      have hlower := allValues_of_values hinv.tasks hvalues
      rw [hleft]
      split_ifs at h with hlt
      · split at h
        · next v hv =>
            cases h
            refine .inl ⟨_, rfl, ⟨⟨hlen, ?_, values_concat hvalues hv⟩, hcapacity⟩, ?_⟩
            · rw [List.length_append, List.length_singleton]
              exact hlt
            · simp only [Main.left, List.length_append, List.length_singleton]
              omega
        · next e he =>
            have hfact := hinv.tasks _ _ he
            split_ifs at h with hcancelled
            · subst hcancelled
              cases h
              refine .inl ⟨_, rfl, ?_, Nat.zero_lt_succ _⟩
              rcases hfact with ⟨hworker, -⟩ | ⟨-, htoken⟩
              · exact .inr ⟨out.length, hlt, hlower, hworker⟩
              · exact .inl htoken
            · cases h
              refine .inl ⟨_, rfl, ⟨⟨out.length, hlt, hlower, .inl ⟨?_, hcancelled⟩⟩, hcapacity⟩,
                Nat.zero_lt_succ _⟩
              rcases hfact with ⟨hworker, -⟩ | ⟨htext, -⟩
              · exact hworker
              · exact absurd (Except.error.inj htext) hcancelled
        · next e he =>
            cases h
            exact .inl ⟨_, rfl, ⟨⟨out.length, hlt, hlower, .inr (hinv.tasks _ _ he)⟩, hcapacity⟩,
              Nat.zero_lt_succ _⟩
        · cases h
      · cases h
        exact .inl ⟨_, rfl, ⟨hlen, by omega, hvalues⟩, Nat.zero_lt_succ _⟩
  · cases h
  · cases h

end Main

section Invariant

variable {cfg} {s s' : State O} {a : BlockStep}

theorem taskFact_mono {cancelled cancelled' : Bool} {calls calls' : List Nat} {i : Nat}
    {t : BlockTask O} (hcancelled : cancelled = true → cancelled' = true)
    (hcalls : calls'.count i = calls.count i) (h : TaskFact cfg cancelled calls i t) :
    TaskFact cfg cancelled' calls' i t := by
  cases t with
  | queued =>
      exact hcalls.trans h
  | running =>
      exact hcalls.trans h
  | worked r =>
      exact ⟨h.1, hcalls.trans h.2⟩
  | finished r =>
      exact h.imp (fun h => ⟨h.1, hcalls.trans h.2⟩) (fun h => ⟨h.1, hcancelled h.2⟩)
  | panicked e =>
      exact h

/-- The place of the function depends on finished tasks only. -/
theorem mainFact_mono {cancelled cancelled' : Bool} {tasks tasks' : List (BlockTask O)}
    {m : Main O} (hcancelled : cancelled = true → cancelled' = true)
    (hlen : tasks'.length = tasks.length)
    (hfinished : ∀ (i : Nat) (r : Except String O), tasks[i]? = some (.finished r) →
      tasks'[i]? = some (.finished r))
    (h : MainFact cfg cancelled tasks m) : MainFact cfg cancelled' tasks' m := by
  have hvalues : ∀ {out : List O}, Values tasks out → Values tasks' out :=
    fun h i v hi => hfinished i _ (h i v hi)
  cases m with
  | spawning id =>
      exact ⟨hlen.trans h.1, h.2⟩
  | acquiring id =>
      exact ⟨hlen.trans h.1, h.2⟩
  | joining out =>
      obtain ⟨⟨htasks, hle, hout⟩, hcapacity⟩ := h
      exact ⟨⟨hlen.trans htasks, hle, hvalues hout⟩, hcapacity⟩
  | panicked =>
      exact h
  | returned result =>
      cases result with
      | ok out =>
          exact ⟨hlen.trans h.1, h.2.1, hvalues h.2.2⟩
      | error e =>
          cases e with
          | cancelled =>
              exact h.imp_left hcancelled
          | worker e =>
              exact h
          | budgetExhausted _ _ =>
              exact h

theorem inv_start {s : State O} (h : start cfg = some s) : Inv cfg s := by
  unfold start at h
  split_ifs at h
  cases h
  exact ⟨fun i t hi => (nomatch hi), fun i _ => rfl, ⟨rfl, Nat.zero_le _⟩, rfl⟩

/-- Every step keeps the invariant. -/
theorem inv_step (hinv : Inv cfg s) (h : step cfg s a = some s') : Inv cfg s' := by
  cases a with
  | cancel =>
      cases h
      exact ⟨fun i t hi => taskFact_mono (fun _ => rfl) rfl (hinv.tasks i t hi), hinv.uncalled,
        mainFact_mono (fun _ => rfl) rfl (fun _ _ hi => hi) hinv.main, hinv.permits⟩
  | main =>
      rcases mainStep_spec hinv h with ⟨m, rfl, hm, -⟩ | ⟨id, hid, hpermits, rfl⟩
      · exact ⟨hinv.tasks, hinv.uncalled, hm, hinv.permits⟩
      · have hmain := hinv.main
        rw [hid] at hmain
        obtain ⟨hlen, hlt⟩ := hmain
        have hnew : s.tasks.length < (s.tasks ++ [BlockTask.queued]).length := by simp
        refine ⟨fun i t hi => ?_,
          fun i hi => hinv.uncalled i (Nat.le_of_lt (Nat.lt_of_lt_of_le hnew hi)),
          ⟨?_, hlt⟩, ?_⟩
        · by_cases hi' : i < s.tasks.length
          · rw [List.getElem?_append_left hi'] at hi
            exact hinv.tasks i t hi
          · rw [List.getElem?_append_right (Nat.le_of_not_lt hi')] at hi
            cases List.mem_singleton.mp (List.mem_of_getElem? hi)
            exact hinv.uncalled i (Nat.le_of_not_lt hi')
        · rw [List.length_append, List.length_singleton, hlen]
        · have hbusy : (s.tasks ++ [BlockTask.queued]).countP BlockTask.busy =
              s.tasks.countP BlockTask.busy + 1 := by
            rw [List.countP_append]
            rfl
          have hpermits' := hinv.permits
          dsimp only
          omega
  | task id =>
      obtain ⟨t, t', hmoves, hfact⟩ := taskStep_spec h (hinv.tasks id)
      have hlt := (List.getElem?_eq_some_iff.mp hmoves.here).1
      refine ⟨fun i u hi => ?_, fun i hi => ?_, ?_, ?_⟩
      · rw [hmoves.tasks] at hi
        by_cases hid : i = id
        · subst hid
          rw [List.getElem?_set_self hlt] at hi
          cases hi
          exact hfact
        · rw [List.getElem?_set_ne (Ne.symm hid)] at hi
          exact taskFact_mono (fun h => hmoves.cancelled.trans h) (hmoves.calls i hid)
            (hinv.tasks i u hi)
      · rw [hmoves.tasks, List.length_set] at hi
        rw [hmoves.calls i (by omega)]
        exact hinv.uncalled i hi
      · rw [hmoves.main, hmoves.cancelled]
        refine mainFact_mono (fun h => h) (by rw [hmoves.tasks, List.length_set])
          (fun i r hi => ?_) hinv.main
        have hne : id ≠ i := by
          rintro rfl
          rw [hmoves.here] at hi
          cases hi
          cases hmoves.busy
        rw [hmoves.tasks, List.getElem?_set_ne hne]
        exact hi
      · have hcount := countP_set (p := BlockTask.busy) (y := t') hmoves.here
        have hpermits := hmoves.permits
        have hold := hinv.permits
        rw [hmoves.tasks]
        omega

end Invariant

section Outcome

variable {cfg} {s s' : State O} {a : BlockStep}

/-- Every step but a trip of the token brings the end nearer. -/
theorem left_step (hinv : Inv cfg s) (ha : a ≠ .cancel) (h : step cfg s a = some s') :
    s'.left cfg < s.left cfg := by
  unfold State.left
  cases a with
  | cancel =>
      exact absurd rfl ha
  | main =>
      rcases mainStep_spec hinv h with ⟨m, rfl, -, hleft⟩ | ⟨id, hid, -, rfl⟩
      · exact Nat.add_lt_add_right hleft _
      · have hmain := hinv.main
        rw [hid] at hmain
        have hlt := hmain.2
        simp only [hid, Main.left, List.map_append, List.sum_append, List.map_cons, List.map_nil,
          List.sum_singleton, BlockTask.left]
        omega
  | task id =>
      obtain ⟨t, t', hmoves, -⟩ := taskStep_spec h (hinv.tasks id)
      have hsum := sum_map_set BlockTask.left (y := t') hmoves.here
      have hleft := hmoves.left
      rw [hmoves.main, hmoves.tasks]
      omega

/-- Until the function returns, it or one of its tasks can take a step. -/
theorem exists_step (hinv : Inv cfg s) (hmain : ∀ r, s.main ≠ .returned r)
    (hcapacity : HasCapacity cfg.totalBlocks cfg.outcomeBytes) :
    ∃ a s', a ≠ .cancel ∧ step cfg s a = some s' := by
  have htask : ∀ (i : Nat) (t : BlockTask O), s.tasks[i]? = some t → t.busy = true →
      ∃ a s', a ≠ .cancel ∧ step cfg s a = some s' := by
    intro i t hi hbusy
    obtain ⟨s', hs'⟩ := exists_taskStep hi hbusy
    exact ⟨.task i, s', nofun, hs'⟩
  have hfact := hinv.main
  cases hs : s.main with
  | spawning id =>
      refine ⟨.main, ?_⟩
      unfold step mainStep
      rw [hs]
      dsimp only
      split_ifs <;> exact ⟨_, nofun, rfl⟩
  | acquiring id =>
      by_cases hpermits : s.permits = 0
      · have hcount := hinv.permits
        have hpos : 0 < s.tasks.countP BlockTask.busy := by omega
        obtain ⟨t, hmem, hbusy⟩ := List.countP_pos_iff.mp hpos
        obtain ⟨i, hi⟩ := List.mem_iff_getElem?.mp hmem
        exact htask i t hi hbusy
      · refine ⟨.main, ?_⟩
        unfold step mainStep
        rw [hs]
        dsimp only
        rw [if_neg hpermits]
        exact ⟨_, nofun, rfl⟩
  | joining out =>
      rw [hs] at hfact
      obtain ⟨⟨hlen, hle, -⟩, -⟩ := hfact
      by_cases hlt : out.length < cfg.totalBlocks
      · have hi := List.getElem?_eq_getElem (hlen ▸ hlt)
        cases hbusy : s.tasks[out.length].busy with
        | true =>
            exact htask _ _ hi hbusy
        | false =>
            refine ⟨.main, ?_⟩
            unfold step mainStep
            rw [hs]
            dsimp only
            rw [if_pos hlt, hi]
            generalize s.tasks[out.length] = t at hbusy
            cases t with
            | finished r =>
                cases r with
                | ok v =>
                    exact ⟨_, nofun, rfl⟩
                | error e =>
                    dsimp only
                    split_ifs <;> exact ⟨_, nofun, rfl⟩
            | panicked e =>
                exact ⟨_, nofun, rfl⟩
            | queued =>
                cases hbusy
            | running =>
                cases hbusy
            | worked r =>
                cases hbusy
      · refine ⟨.main, ?_⟩
        unfold step mainStep
        rw [hs]
        dsimp only
        rw [if_neg hlt]
        exact ⟨_, nofun, rfl⟩
  | returned r =>
      exact absurd hs (hmain r)
  | panicked =>
      rw [hs] at hfact
      exact absurd hcapacity hfact

theorem cancelled_step (hinv : Inv cfg s) (ha : a ≠ .cancel) (h : step cfg s a = some s') :
    s'.cancelled = s.cancelled := by
  cases a with
  | cancel =>
      exact absurd rfl ha
  | main =>
      rcases mainStep_spec hinv h with ⟨m, rfl, -, -⟩ | ⟨id, -, -, rfl⟩
      · rfl
      · rfl
  | task id =>
      obtain ⟨t, t', hmoves, -⟩ := taskStep_spec h (hinv.tasks id)
      exact hmoves.cancelled

theorem inv_of_reach {s₀ : State O} {G : State O → BlockStep → Prop}
    (hstart : start cfg = some s₀) (h : Reach (step cfg) G s₀ s) : Inv cfg s :=
  h.invariant (inv_start hstart) fun _ _ _ hinv _ hstep => inv_step hinv hstep

/-- Without a trip the token stays as it was. -/
theorem untripped_of_reach {s₀ : State O} (hstart : start cfg = some s₀)
    (h : Reach (step cfg) (fun _ a => a ≠ .cancel) s₀ s) : s.cancelled = false := by
  have hboth : Inv cfg s ∧ s.cancelled = s₀.cancelled :=
    h.invariant (I := fun s => Inv cfg s ∧ s.cancelled = s₀.cancelled)
      ⟨inv_start hstart, rfl⟩ fun t a u hI ha hu =>
        ⟨inv_step hI.1 hu, (cancelled_step hI.1 ha hu).trans hI.2⟩
  unfold start at hstart
  split_ifs at hstart
  cases hstart
  exact hboth.2

end Outcome

section Outcomes

/-- The error of a block that fails: the worker's, or that of its panic. -/
def WorkerOutcome.text? : WorkerOutcome O → Option String
  | .value _ => none
  | .failed e => some e
  | .panicked joinError => some joinError

/-- The lowest block that fails, with its error. -/
def FirstFailure (k : Nat) (e : String) : Prop :=
  k < cfg.totalBlocks ∧ AllValues cfg k ∧ WorkerOutcome.text? (cfg.worker k) = some e

/-- `run_blocks` tells the three outcomes apart, whenever the token is tripped. -/
structure OutcomesRight : Prop where
  ok : ∀ {s₀ s : State O} {out : List O}, start cfg = some s₀ →
    Reach (step cfg) AnyStep s₀ s → s.main = .returned (.ok out) →
      out.length = cfg.totalBlocks ∧
        ∀ i, s.calls.count i = (if i < cfg.totalBlocks then 1 else 0) ∧
          ∀ v, out[i]? = some v → cfg.worker i = .value v
  cancelled : ∀ {s₀ s : State O}, start cfg = some s₀ →
    Reach (step cfg) AnyStep s₀ s → s.main = .returned (.error .cancelled) → s.cancelled = true
  worker : ∀ {k : Nat} {e : String}, FirstFailure cfg k e →
    ∃ s₀, start cfg = some s₀ ∧
      Inevitable (step cfg) (· ≠ .cancel) (fun s => s.main = .returned (.error (.worker e))) s₀

/-- There is room: the permits are not too many, nor are the handles and the values. -/
structure Roomy : Prop where
  permits : max cfg.nThreads 1 ≤ maxPermits
  handles : HasCapacity cfg.totalBlocks handleBytes
  values : HasCapacity cfg.totalBlocks cfg.outcomeBytes

/-- The lowest block that fails does so with another text than that of a block that found the
token tripped, and there is room for the run. -/
def FailurePlain : Prop :=
  ∀ k e, FirstFailure cfg k e → Roomy cfg ∧ cfg.worker k ≠ .failed "cancelled"

variable {cfg} {s s' : State O}

theorem FirstFailure.unique {k k' : Nat} {e e' : String} (h : FirstFailure cfg k e)
    (h' : FirstFailure cfg k' e') : k = k' ∧ e = e' := by
  obtain ⟨-, hlower, htext⟩ := h
  obtain ⟨-, hlower', htext'⟩ := h'
  have hk : k = k' := by
    rcases Nat.lt_trichotomy k k' with hlt | heq | hgt
    · obtain ⟨v, hv⟩ := hlower' k hlt
      rw [hv] at htext
      cases htext
    · exact heq
    · obtain ⟨v, hv⟩ := hlower k' hgt
      rw [hv] at htext'
      cases htext'
  subst hk
  exact ⟨rfl, Option.some.inj (htext.symm.trans htext')⟩

/-- `Ok` has the values of all blocks in their order, and each was run once. -/
theorem ok_of_inv {out : List O} (hinv : Inv cfg s) (h : s.main = .returned (.ok out)) :
    out.length = cfg.totalBlocks ∧
      ∀ i, s.calls.count i = (if i < cfg.totalBlocks then 1 else 0) ∧
        ∀ v, out[i]? = some v → cfg.worker i = .value v := by
  have hmain := hinv.main
  rw [h] at hmain
  obtain ⟨htasks, hlen, hvalues⟩ := hmain
  have hfact : ∀ (i : Nat) (v : O), out[i]? = some v →
      cfg.worker i = .value v ∧ s.calls.count i = 1 := by
    intro i v hv
    rcases hinv.tasks i _ (hvalues i v hv) with hrun | ⟨hr, -⟩
    · exact hrun
    · cases hr
  refine ⟨hlen, fun i => ⟨?_, fun v hv => (hfact i v hv).1⟩⟩
  split_ifs with hi
  · exact (hfact i _ (List.getElem?_eq_getElem (hlen ▸ hi))).2
  · exact hinv.uncalled i (by omega)

/-- What an untripped run returns when a block fails. -/
theorem returned_of_inv {k : Nat} {e : String} {r : Except BlockExecError (List O)}
    (hinv : Inv cfg s) (htoken : s.cancelled = false) (hfirst : FirstFailure cfg k e)
    (h : s.main = .returned r) :
    (r = .error .cancelled ∧ cfg.worker k = .failed "cancelled") ∨
      (r = .error (.worker e) ∧ cfg.worker k ≠ .failed "cancelled" ∧
        HasCapacity cfg.totalBlocks cfg.outcomeBytes) := by
  have hmain := hinv.main
  rw [h] at hmain
  cases r with
  | ok out =>
      obtain ⟨hlen, hruns⟩ := ok_of_inv hinv h
      obtain ⟨hk, -, htext⟩ := hfirst
      rw [(hruns k).2 _ (List.getElem?_eq_getElem (hlen ▸ hk))] at htext
      cases htext
  | error err =>
      cases err with
      | cancelled =>
          rcases hmain with htrip | ⟨k', hk', hlower, hworker⟩
          · rw [htoken] at htrip
            cases htrip
          · have hfirst' : FirstFailure cfg k' "cancelled" := ⟨hk', hlower, by rw [hworker]; rfl⟩
            obtain ⟨rfl, -⟩ := hfirst.unique hfirst'
            exact .inl ⟨rfl, hworker⟩
      | worker e' =>
          obtain ⟨⟨k', hk', hlower, hworker⟩, hcapacity⟩ := hmain
          have hfirst' : FirstFailure cfg k' e' := by
            refine ⟨hk', hlower, ?_⟩
            rcases hworker with ⟨hworker, -⟩ | hworker
            · rw [hworker]
              rfl
            · rw [hworker]
              rfl
          obtain ⟨rfl, rfl⟩ := hfirst.unique hfirst'
          refine .inr ⟨rfl, fun hcancelled => ?_, hcapacity⟩
          rcases hworker with ⟨hworker, hne⟩ | hworker
          · exact hne (WorkerOutcome.failed.inj (hworker.symm.trans hcancelled))
          · cases hworker.symm.trans hcancelled
      | budgetExhausted _ _ =>
          cases hmain

/-- Without a trip the function returns if there is room, whatever the order of the steps. -/
theorem inevitable_returned (hinv : Inv cfg s) (htoken : s.cancelled = false)
    (hcapacity : HasCapacity cfg.totalBlocks cfg.outcomeBytes) :
    Inevitable (step cfg) (· ≠ .cancel)
      (fun s => (Inv cfg s ∧ s.cancelled = false) ∧ ∃ r, s.main = .returned r) s := by
  refine inevitable_of_measure (State.left cfg)
    (I := fun s => Inv cfg s ∧ s.cancelled = false) ?_ ?_ ⟨hinv, htoken⟩
  · intro s a t hI ha ht
    exact ⟨⟨inv_step hI.1 ht, (cancelled_step hI.1 ha ht).trans hI.2⟩, left_step hI.1 ha ht⟩
  · intro s hI
    by_cases hr : ∃ r, s.main = .returned r
    · exact .inl ⟨hI, hr⟩
    · exact .inr (exists_step hI.1 (fun r h => hr ⟨r, h⟩) hcapacity)

/-- `run_blocks` keeps the outcomes apart if and only if the lowest failure is no `cancelled` and
has room to be returned. -/
theorem outcomesRight_iff (cfg : Config O) : OutcomesRight cfg ↔ FailurePlain cfg := by
  constructor
  · intro h k e hfirst
    obtain ⟨s₀, hstart, hends⟩ := h.worker hfirst
    obtain ⟨s, hreach, hmain⟩ := hends.exists_reach
    rcases returned_of_inv (inv_of_reach hstart hreach) (untripped_of_reach hstart hreach)
      hfirst hmain with ⟨hr, -⟩ | ⟨-, hne, hcapacity⟩
    · cases hr
    · unfold start at hstart
      split_ifs at hstart with hroom
      exact ⟨⟨hroom.1, hroom.2, hcapacity⟩, hne⟩
  · intro h
    refine ⟨fun hstart hreach hmain => ok_of_inv (inv_of_reach hstart hreach) hmain, ?_, ?_⟩
    · intro s₀ s hstart hreach hmain
      have hfact := (inv_of_reach hstart hreach).main
      rw [hmain] at hfact
      rcases hfact with htrip | ⟨k, hk, hlower, hworker⟩
      · exact htrip
      · have hfirst : FirstFailure cfg k "cancelled" := ⟨hk, hlower, by rw [hworker]; rfl⟩
        exact absurd hworker (h k _ hfirst).2
    · intro k e hfirst
      obtain ⟨hroom, hplain⟩ := h k e hfirst
      have hstart : start cfg = some ⟨false, max cfg.nThreads 1, .spawning 0, [], 0, [], []⟩ :=
        if_pos ⟨hroom.permits, hroom.handles⟩
      refine ⟨_, hstart,
        (inevitable_returned (inv_start hstart) rfl hroom.values).mono fun s hs => ?_⟩
      obtain ⟨⟨hinv, htoken⟩, r, hr⟩ := hs
      rcases returned_of_inv hinv htoken hfirst hr with ⟨-, hcancelled⟩ | ⟨rfl, -, -⟩
      · exact absurd hcancelled hplain
      · exact hr

/-- One block whose worker fails with the text `cancelled`. -/
def cancelledText : Config Unit := ⟨1, 1, fun _ => .failed "cancelled", 0⟩

/-- Nobody tripped the token, and the call is reported as cancelled. -/
theorem cancelledText_cancelled :
    (∃ s₀ s, start cancelledText = some s₀ ∧
      Reach (step cancelledText) (fun _ a => a ≠ .cancel) s₀ s ∧
      s.cancelled = false ∧ s.main = .returned (.error .cancelled)) ∧
    ¬ OutcomesRight cancelledText := by
  have hstart : start cancelledText = some ⟨false, 1, .spawning 0, [], 0, [], []⟩ :=
    if_pos (by decide)
  have hrun : runAll (step cancelledText) ⟨false, 1, .spawning 0, [], 0, [], []⟩
      [.main, .main, .main, .task 0, .task 0, .task 0, .main] =
        some ⟨false, 1, .returned (.error .cancelled), [.finished (.error "cancelled")], 1,
          [(1, 1)], [0]⟩ := rfl
  refine ⟨⟨_, _, hstart, reach_of_runAll .refl (by decide) hrun, rfl, rfl⟩, fun h => ?_⟩
  have hreach := reach_of_runAll .refl (allowed_anyStep _ _) hrun
  cases h.cancelled hstart hreach rfl

end Outcomes
end BlockExecutor
end OrbitOpenEO
