import OrbitOpenEO.JobService.SingleRun

/-!
# The registry of in-flight jobs

A start spawns its supervisor and then registers it; the supervisor deregisters
the job when it is done.  Both operations know the job id only.  The entry of a
job can be stale (the supervisor was done before the handler registered it) or
missing (an old supervisor removed the entry of a new one).

`RegistryMove` says what a step does to the registry, to the supervisors that
have not deregistered (`undone`) and to the handlers that are about to register
(`registering`).  `RegistryInv` is preserved by the moves of a run in which

* a start passes its check only when no other start of the job is past it and no
  supervisor of the job is undone, and
* a supervisor deregisters only after the handler that spawned it registered it.
-/

namespace OrbitOpenEO

open Lib

/-- The supervisor has not deregistered. -/
def Run.isUndone (run : Run) : Bool :=
  match run.supervisor with
  | .releasing => false
  | .finished => false
  | _ => true

/-- The run a handler is about to register. -/
def Handler.registers : Handler → Option Nat
  | .startRegister _ k => some k
  | _ => none

/-- Run `k` belongs to the job and its supervisor has not deregistered. -/
def Sys.undone (s : Sys) (jobId : String) (k : Nat) : Prop :=
  ∃ run, s.runs[k]? = some run ∧ run.jobId = jobId ∧ run.isUndone = true

/-- Handler `i` is about to register run `k` for the job. -/
def Sys.registering (s : Sys) (i : Nat) (jobId : String) (k : Nat) : Prop :=
  s.handlers[i]? = some (.startRegister jobId k)

/-- The registry has an entry for the job exactly when a supervisor of the job
has not deregistered, and the entry is that supervisor's. -/
def Sys.RegistryExact (s : Sys) (jobId : String) : Prop :=
  ∀ k, s.registry jobId = some k ↔ s.undone jobId k

/-- A supervisor deregisters only when no handler is still about to register it. -/
def RegistersFirst (s : Sys) : Action → Prop
  | .supervisor k _ _ =>
      ∀ run ∈ s.runs[k]?, run.supervisor = .deregistering →
        ∀ hd ∈ s.handlers, hd.registers ≠ some k
  | _ => True

instance (s : Sys) : (a : Action) → Decidable (RegistersFirst s a)
  | .supervisor k _ _ =>
      inferInstanceAs (Decidable (∀ run ∈ s.runs[k]?, run.supervisor = .deregistering →
        ∀ hd ∈ s.handlers, hd.registers ≠ some k))
  | .arrive _ => .isTrue trivial
  | .handler _ _ _ => .isTrue trivial
  | .runner _ _ _ _ => .isTrue trivial
  | .panic _ => .isTrue trivial
  | .drop _ => .isTrue trivial

/-- The two conditions on the steps of a run. -/
def RegistersInOrder (s : Sys) (a : Action) : Prop :=
  StartsAlone Run.isUndone s a ∧ RegistersFirst s a

instance (s : Sys) (a : Action) : Decidable (RegistersInOrder s a) :=
  inferInstanceAs (Decidable (_ ∧ _))

variable {s t : Sys} {a : Action} {run run' : Run}

/-- The effect of a step on the registry and on the tasks that use it. -/
inductive RegistryMove (s : Sys) (a : Action) (t : Sys) : Prop
  | quiet :
      t.registry = s.registry → (∀ j k, t.undone j k ↔ s.undone j k) →
      (∀ i j k, t.registering i j k ↔ s.registering i j k) → RegistryMove s a t
  | spawn (i : Nat) (jobId : String) :
      t.registry = s.registry →
      (∀ j k, t.undone j k ↔ s.undone j k ∨ (j = jobId ∧ k = s.runs.length)) →
      (∀ i' j k, t.registering i' j k ↔
        s.registering i' j k ∨ (i' = i ∧ j = jobId ∧ k = s.runs.length)) → RegistryMove s a t
  | register (i : Nat) (jobId : String) (k : Nat) :
      s.registering i jobId k → t.registry = s.registry.register jobId k →
      (∀ j k', t.undone j k' ↔ s.undone j k') →
      (∀ i' j k', t.registering i' j k' ↔ i' ≠ i ∧ s.registering i' j k') → RegistryMove s a t
  | deregister (jobId : String) (k : Nat) :
      s.undone jobId k → (RegistersFirst s a → ∀ i j, ¬ s.registering i j k) →
      t.registry = s.registry.deregister jobId →
      (∀ j k', t.undone j k' ↔ k' ≠ k ∧ s.undone j k') →
      (∀ i j k', t.registering i j k' ↔ s.registering i j k') → RegistryMove s a t

/-- Replacing a run by one of the same job. -/
theorem undone_set_iff {k : Nat} (hrun : s.runs[k]? = some run) (hjob : run'.jobId = run.jobId)
    (ht : t.runs = s.runs.set k run') (j : String) (k' : Nat) :
    t.undone j k' ↔
      if k' = k then run.jobId = j ∧ run'.isUndone = true else s.undone j k' := by
  unfold Sys.undone
  rw [ht]
  split_ifs with hk
  · subst hk
    obtain ⟨hlt, -⟩ := List.getElem?_eq_some_iff.mp hrun
    rw [List.getElem?_set_self hlt]
    simp [hjob]
  · rw [List.getElem?_set_ne (Ne.symm hk)]

/-- A run whose supervisor is as far as before. -/
theorem undone_set_congr {k : Nat} (hrun : s.runs[k]? = some run)
    (hjob : run'.jobId = run.jobId) (hundone : run'.isUndone = run.isUndone)
    (ht : t.runs = s.runs.set k run') (j : String) (k' : Nat) :
    t.undone j k' ↔ s.undone j k' := by
  rw [undone_set_iff hrun hjob ht]
  split_ifs with hk
  · subst hk
    rw [hundone]
    unfold Sys.undone
    rw [hrun]
    simp
  · exact Iff.rfl

/-- Raising a signal leaves the supervisors where they are. -/
theorem undone_cancel_iff {jobId : String} (ht : t.runs = (s.cancel jobId).runs) (j : String)
    (k : Nat) : t.undone j k ↔ s.undone j k := by
  unfold Sys.undone
  rw [ht]
  unfold Sys.cancel
  split
  · exact Iff.rfl
  · rename_i k' _
    rw [List.getElem?_modify]
    by_cases hk : k' = k
    · subst hk
      cases s.runs[k']? <;> simp [Run.notifyOne, Run.isUndone]
    · simp [hk]

/-- A move of a supervisor that is not its `deregister` nor after it. -/
theorem isUndone_of_supervisorMove {now : Nat} {jobs : InMemoryJobStore}
    {registry : JobRegistry} {permits : Nat}
    (h : SupervisorMove now s run run' jobs registry permits) :
    (registry = s.registry ∧ run'.isUndone = run.isUndone) ∨
      (run.supervisor = .deregistering ∧ run'.isUndone = false ∧
        registry = s.registry.deregister run.jobId) := by
  cases h with
  | deregister hsup =>
      exact .inr ⟨hsup, rfl, rfl⟩
  | settled hsup =>
      rcases hsup with hsup | hsup <;> simp [Run.isUndone, hsup]
  | _ =>
      simp_all [Run.isUndone]

theorem isUndone_of_evolves (h : run.Evolves s run') (hu : run'.isUndone = true) :
    run.isUndone = true := by
  cases h with
  | moved hmove =>
      rcases isUndone_of_supervisorMove hmove with ⟨-, he⟩ | ⟨-, he, -⟩
      · rwa [← he]
      · rw [he] at hu
        cases hu
  | _ =>
      exact hu

/-- Only a start spawns and registers. -/
theorem quiet_of_stepHandler {now : Nat} {uuid : String} {hd hd' : Handler}
    (h : stepHandler now uuid s hd = some (hd', t)) (hspawn : ∀ j r, hd ≠ .startSpawn j r)
    (hregister : ∀ j k, hd ≠ .startRegister j k) :
    t.registry = s.registry ∧ ∀ j k, hd' ≠ .startRegister j k := by
  cases hd with
  | startSpawn j record =>
      exact absurd rfl (hspawn j record)
  | startRegister j k =>
      exact absurd rfl (hregister j k)
  | discardCancel j wasActive =>
      cases h
      refine ⟨?_, ?_⟩
      · unfold Sys.cancel
        split <;> rfl
      · cases wasActive <;> simp
  | _ =>
      simp only [stepHandler] at h
      repeat' split at h
      all_goals grind

/-- A handler moves between states in which it does not register. -/
theorem registering_set_congr {i : Nat} {hd hd' : Handler} (hhd : s.handlers[i]? = some hd)
    (hne : ∀ j k, hd ≠ .startRegister j k) (hne' : ∀ j k, hd' ≠ .startRegister j k)
    (ht : t.handlers = s.handlers.set i hd') (i' : Nat) (j : String) (k : Nat) :
    t.registering i' j k ↔ s.registering i' j k := by
  unfold Sys.registering
  rw [ht]
  by_cases hi : i = i'
  · subst hi
    simp [List.getElem?_set_self', hhd, hne, hne']
  · rw [List.getElem?_set_ne hi]

/-- A step that changes one run, but not how far its supervisor is. -/
theorem registryMove_of_set {k : Nat} (hrun : s.runs[k]? = some run)
    (hruns : t.runs = s.runs.set k run') (hjob : run'.jobId = run.jobId)
    (hundone : run'.isUndone = run.isUndone) (hregistry : t.registry = s.registry)
    (hhandlers : t.handlers = s.handlers) : RegistryMove s a t :=
  .quiet hregistry (undone_set_congr hrun hjob hundone hruns)
    (fun i j k => by unfold Sys.registering; rw [hhandlers])

theorem registryMove_of_stepHandler {i now : Nat} {uuid : String} {hd hd' : Handler} {u : Sys}
    (hhd : s.handlers[i]? = some hd) (hstep : stepHandler now uuid s hd = some (hd', u)) :
    RegistryMove s a { u with handlers := s.handlers.set i hd' } := by
  have hi : i < s.handlers.length := (List.getElem?_eq_some_iff.mp hhd).1
  cases hd with
  | startSpawn jobId record =>
      cases hstep
      refine .spawn i jobId rfl (fun j k => ?_) (fun i' j k => ?_)
      · unfold Sys.undone
        rw [List.getElem?_append]
        split_ifs with hk
        · have hne : k ≠ s.runs.length := by omega
          simp [hne]
        · have hnone : s.runs[k]? = none := by simpa using hk
          rw [hnone]
          by_cases hlen : k = s.runs.length
          · subst hlen
            simp only [Nat.sub_self, List.getElem?_cons_zero, Option.some.injEq,
              JobRecord.spawnRun, Run.isUndone, reduceCtorEq, false_and, exists_false, false_or,
              exists_eq_left', and_true]
            exact eq_comm
          · have hnone' : [record.spawnRun jobId][k - s.runs.length]? = none := by
              simp
              omega
            rw [hnone']
            simp [hlen]
      · unfold Sys.registering
        by_cases hii : i = i'
        · subst hii
          simp [List.getElem?_set_self hi, hhd, eq_comm]
        · have hne : i' ≠ i := Ne.symm hii
          simp [List.getElem?_set_ne hii, hne]
  | startRegister jobId k =>
      cases hstep
      refine .register i jobId k hhd rfl (fun j k' => Iff.rfl) (fun i' j k' => ?_)
      unfold Sys.registering
      by_cases hii : i = i'
      · subst hii
        simp [List.getElem?_set_self hi]
      · have hne : i' ≠ i := Ne.symm hii
        simp [List.getElem?_set_ne hii, hne]
  | _ =>
      obtain ⟨hregistry, hne'⟩ := quiet_of_stepHandler hstep (by simp) (by simp)
      refine .quiet hregistry (fun j k => ?_)
        (registering_set_congr hhd (by simp) hne' rfl)
      rcases runs_of_stepHandler hstep with hruns | ⟨jobId, hruns⟩ | ⟨_, _, hspawn, -⟩
      · unfold Sys.undone
        rw [show Sys.runs _ = _ from hruns]
      · exact undone_cancel_iff hruns j k
      · cases hspawn

/-- **Every step is one of the moves of the registry.** -/
theorem registryMove_of_transition (h : Transition s a t) : RegistryMove s a t := by
  cases h with
  | arrive request =>
      refine .quiet rfl (fun _ _ => Iff.rfl) (fun i j k => ?_)
      unfold Sys.registering
      rw [List.getElem?_append]
      split_ifs with hi
      · exact Iff.rfl
      · have hnone : s.handlers[i]? = none := by simpa using hi
        rw [hnone]
        simp only [reduceCtorEq, iff_false]
        intro hreq
        obtain ⟨_, hx⟩ := List.getElem?_eq_some_iff.mp hreq
        cases request <;> simp [Request.handler] at hx
  | handler hhd hstep =>
      exact registryMove_of_stepHandler hhd hstep
  | @supervisor k _ _ run run' _ _ _ hrun hmove =>
      rcases isUndone_of_supervisorMove hmove with ⟨rfl, hundone⟩ | ⟨hsup, hundone, rfl⟩
      · exact registryMove_of_set hrun rfl hmove.jobId_eq hundone rfl rfl
      · refine .deregister run.jobId k ⟨run, hrun, rfl, by simp [Run.isUndone, hsup]⟩ ?_ rfl
          (fun j k' => ?_) (fun _ _ _ => Iff.rfl)
        · intro hfirst i j hreg
          exact hfirst run hrun hsup _ (List.mem_of_getElem? hreg) rfl
        · rw [undone_set_iff hrun hmove.jobId_eq rfl]
          split_ifs with hk <;> simp [hk, hundone]
  | call hrun hr =>
      exact registryMove_of_set hrun rfl rfl rfl rfl rfl
  | returned hrun hr =>
      exact registryMove_of_set hrun rfl rfl rfl rfl rfl
  | panicked hrun hr =>
      exact registryMove_of_set hrun rfl rfl rfl rfl rfl
  | aborted hrun hr =>
      exact registryMove_of_set hrun rfl rfl rfl rfl rfl

/-- One task of a job at a time, and the entry of a job is its undone supervisor,
unless a handler is about to register that one. -/
structure RegistryInv (s : Sys) : Prop where
  single : ∀ jobId, (s.underWay Run.isUndone jobId).Subsingleton
  spawned : ∀ i jobId k, s.registering i jobId k → s.undone jobId k
  distinct : ∀ i i' jobId jobId' k,
    s.registering i jobId k → s.registering i' jobId' k → i = i'
  entry : ∀ jobId k,
    s.registry jobId = some k ↔ s.undone jobId k ∧ ∀ i, ¬ s.registering i jobId k

theorem RegistryInv.initial (permits : Nat) (timeoutVar : Option String) :
    RegistryInv (Sys.initial permits timeoutVar) where
  single := underWay_initial permits timeoutVar
  spawned := by simp [Sys.registering, Sys.initial]
  distinct := by simp [Sys.registering, Sys.initial]
  entry := by simp [Sys.undone, Sys.initial]

/-- Two undone runs of one job are the same run. -/
theorem RegistryInv.undone_unique (hs : RegistryInv s) {jobId : String} {k k' : Nat}
    (h : s.undone jobId k) (h' : s.undone jobId k') : k = k' := by
  have hk : Sum.inr k ∈ s.underWay Run.isUndone jobId := h
  have hk' : Sum.inr k' ∈ s.underWay Run.isUndone jobId := h'
  exact Sum.inr.inj (hs.single jobId hk hk')

theorem lt_of_undone {jobId : String} {k : Nat} (h : s.undone jobId k) : k < s.runs.length := by
  obtain ⟨run, hrun, -⟩ := h
  exact (List.getElem?_eq_some_iff.mp hrun).1

/-- The invariant after a spawn: the new run has an index no handler and no entry
knows. -/
theorem RegistryInv.of_spawn (hs : RegistryInv s)
    (hsingle : ∀ jobId, (t.underWay Run.isUndone jobId).Subsingleton) {i : Nat} {jobId : String}
    (hregistry : t.registry = s.registry)
    (hundone : ∀ j k, t.undone j k ↔ s.undone j k ∨ (j = jobId ∧ k = s.runs.length))
    (hreg : ∀ i' j k, t.registering i' j k ↔
      s.registering i' j k ∨ (i' = i ∧ j = jobId ∧ k = s.runs.length)) : RegistryInv t := by
  refine ⟨hsingle, ?_, ?_, ?_⟩
  · intro i' j k hi'
    rcases (hreg i' j k).mp hi' with hi' | ⟨-, rfl, rfl⟩
    · exact (hundone j k).mpr (.inl (hs.spawned i' j k hi'))
    · exact (hundone _ _).mpr (.inr ⟨rfl, rfl⟩)
  · intro i₁ i₂ j₁ j₂ k h₁ h₂
    rcases (hreg i₁ j₁ k).mp h₁ with h₁ | ⟨rfl, rfl, rfl⟩
    · rcases (hreg i₂ j₂ k).mp h₂ with h₂ | ⟨rfl, rfl, rfl⟩
      · exact hs.distinct i₁ i₂ j₁ j₂ k h₁ h₂
      · exact absurd (lt_of_undone (hs.spawned _ _ _ h₁)) (Nat.lt_irrefl _)
    · rcases (hreg i₂ j₂ _).mp h₂ with h₂ | ⟨rfl, -, -⟩
      · exact absurd (lt_of_undone (hs.spawned _ _ _ h₂)) (Nat.lt_irrefl _)
      · rfl
  · intro j k
    rw [hregistry, hs.entry, hundone]
    simp only [hreg]
    constructor
    · rintro ⟨hk, hno⟩
      refine ⟨.inl hk, ?_⟩
      rintro i' (hi' | ⟨-, -, rfl⟩)
      · exact hno i' hi'
      · exact absurd (lt_of_undone hk) (Nat.lt_irrefl _)
    · rintro ⟨hk | ⟨rfl, rfl⟩, hno⟩
      · exact ⟨hk, fun i' hi' => hno i' (.inl hi')⟩
      · exact absurd (.inr ⟨rfl, rfl, rfl⟩) (hno i)

/-- The invariant after a registration. -/
theorem RegistryInv.of_register (hs : RegistryInv s)
    (hsingle : ∀ jobId, (t.underWay Run.isUndone jobId).Subsingleton) {i : Nat} {jobId : String}
    {k : Nat} (hi : s.registering i jobId k) (hregistry : t.registry = s.registry.register jobId k)
    (hundone : ∀ j k', t.undone j k' ↔ s.undone j k')
    (hreg : ∀ i' j k', t.registering i' j k' ↔ i' ≠ i ∧ s.registering i' j k') :
    RegistryInv t := by
  refine ⟨hsingle, ?_, ?_, ?_⟩
  · intro i' j k' hi'
    exact (hundone j k').mpr (hs.spawned i' j k' ((hreg i' j k').mp hi').2)
  · intro i₁ i₂ j₁ j₂ k' h₁ h₂
    exact hs.distinct i₁ i₂ j₁ j₂ k' ((hreg _ _ _).mp h₁).2 ((hreg _ _ _).mp h₂).2
  · intro j k'
    rw [hregistry, hundone]
    simp only [hreg, JobRegistry.register, Function.update_apply]
    split_ifs with hj
    · subst hj
      constructor
      · rintro ⟨⟩
        refine ⟨hs.spawned i _ _ hi, ?_⟩
        rintro i' ⟨hne, hi'⟩
        exact hne (hs.distinct i' i _ _ _ hi' hi)
      · rintro ⟨hk', -⟩
        rw [hs.undone_unique hk' (hs.spawned i _ _ hi)]
    · rw [hs.entry]
      constructor
      · rintro ⟨hk', hno⟩
        exact ⟨hk', fun i' hi' => hno i' hi'.2⟩
      · rintro ⟨hk', hno⟩
        refine ⟨hk', fun i' hi' => hno i' ⟨?_, hi'⟩⟩
        rintro rfl
        exact hj (by cases hi.symm.trans hi'; rfl)

/-- The invariant after a supervisor has taken its entry out: no handler is still to
register the run, and no other run of the job is undone. -/
theorem RegistryInv.of_deregister (hs : RegistryInv s)
    (hsingle : ∀ jobId, (t.underWay Run.isUndone jobId).Subsingleton) {jobId : String} {k : Nat}
    (hk : s.undone jobId k) (hfirst : ∀ i j, ¬ s.registering i j k)
    (hregistry : t.registry = s.registry.deregister jobId)
    (hundone : ∀ j k', t.undone j k' ↔ k' ≠ k ∧ s.undone j k')
    (hreg : ∀ i j k', t.registering i j k' ↔ s.registering i j k') : RegistryInv t := by
  refine ⟨hsingle, ?_, ?_, ?_⟩
  · intro i j k' hi
    have hi' := (hreg i j k').mp hi
    refine (hundone j k').mpr ⟨?_, hs.spawned i j k' hi'⟩
    rintro rfl
    exact hfirst i j hi'
  · simpa only [hreg] using hs.distinct
  · intro j k'
    rw [hregistry, hundone]
    simp only [hreg, JobRegistry.deregister, Function.update_apply]
    split_ifs with hj
    · subst hj
      simp only [false_iff]
      rintro ⟨⟨hne, hk'⟩, -⟩
      exact hne (hs.undone_unique hk' hk)
    · rw [hs.entry]
      constructor
      · rintro ⟨hk', hno⟩
        refine ⟨⟨?_, hk'⟩, hno⟩
        rintro rfl
        obtain ⟨run, hrun, rfl, -⟩ := hk
        obtain ⟨run', hrun', rfl, -⟩ := hk'
        rw [hrun] at hrun'
        cases hrun'
        exact hj rfl
      · rintro ⟨⟨-, hk'⟩, hno⟩
        exact ⟨hk', hno⟩

theorem RegistryInv.of_move (hs : RegistryInv s) (hG : RegistersInOrder s a)
    (hsingle : ∀ jobId, (t.underWay Run.isUndone jobId).Subsingleton)
    (h : RegistryMove s a t) : RegistryInv t := by
  cases h with
  | quiet hregistry hundone hreg =>
      refine ⟨hsingle, ?_, ?_, ?_⟩
      · simpa only [hreg, hundone] using hs.spawned
      · simpa only [hreg] using hs.distinct
      · simpa only [hregistry, hundone, hreg] using hs.entry
  | spawn i jobId hregistry hundone hreg =>
      exact hs.of_spawn hsingle hregistry hundone hreg
  | register i jobId k hi hregistry hundone hreg =>
      exact hs.of_register hsingle hi hregistry hundone hreg
  | deregister jobId k hk hfirst hregistry hundone hreg =>
      exact hs.of_deregister hsingle hk (hfirst hG.2) hregistry hundone hreg

theorem registryInv_of_reach {permits : Nat} {timeoutVar : Option String}
    (h : Reach step RegistersInOrder (Sys.initial permits timeoutVar) s) : RegistryInv s := by
  refine h.invariant (RegistryInv.initial permits timeoutVar) ?_
  intro s a t hs hG hstep
  have htr := transition_of_step hstep
  exact hs.of_move hG (underWay_subsingleton_of_step isUndone_of_evolves hs.single hG.1 htr)
    (registryMove_of_transition htr)

/-- `JobRegistry::cancel` signals the run of the entry. -/
theorem getElem?_cancel {jobId : String} {k : Nat} (hentry : s.registry jobId = some k)
    (hrun : s.runs[k]? = some run) : (s.cancel jobId).runs[k]? = some run.notifyOne := by
  unfold Sys.cancel
  simp only [hentry, List.getElem?_modify_eq, hrun, Option.map_eq_map, Option.map_some]

/-- **The registry is exact** in every state of such a run, apart from the moments
at which a handler stands between the spawn of a supervisor and its
registration; and where it is exact, a cancel signals the run whose supervisor
has not deregistered. -/
theorem registry_exact {permits : Nat} {timeoutVar : Option String}
    (h : Reach step RegistersInOrder (Sys.initial permits timeoutVar) s) (jobId : String) :
    (s.RegistryExact jobId ↔ ∀ i k, ¬ s.registering i jobId k) ∧
    (s.RegistryExact jobId → ∀ (k : Nat) (run : Run), s.runs[k]? = some run → run.jobId = jobId →
      run.isUndone = true → (s.cancel jobId).runs[k]? = some run.notifyOne) := by
  have hinv := registryInv_of_reach h
  refine ⟨⟨?_, ?_⟩, ?_⟩
  · intro hexact i k hi
    have hentry := (hexact k).mpr (hinv.spawned i jobId k hi)
    exact ((hinv.entry jobId k).mp hentry).2 i hi
  · intro hno k
    rw [hinv.entry]
    exact ⟨fun hk => hk.1, fun hk => ⟨hk, fun i => hno i k⟩⟩
  · intro hexact k run hrun hjob hundone
    exact getElem?_cancel ((hexact k).mpr ⟨run, hrun, hjob, hundone⟩) hrun

/-- A supervisor finishes its run before the handler that spawned it registers
it. -/
def lateRegister : List Action :=
  [.arrive (.createJob none none sampleProcess), .handler 0 0 "job",
    .arrive (.startProcessing "job"), .handler 1 0 "", .handler 1 0 "", .handler 1 0 "",
    .supervisor 0 0 false] ++ runnerSteps 21 0 ⟨"application/json", [0x33]⟩ ++
  [.supervisor 0 0 false, .supervisor 0 0 false, .supervisor 0 0 false, .handler 1 0 ""]

theorem lateRegister_staleEntry :
    ∃ s, Reach step AnyStep (Sys.initial 4 none) s ∧
      (∀ i k, ¬ s.registering i "job" k) ∧ ¬ s.RegistryExact "job" := by
  obtain ⟨s, hs, hP⟩ := exists_reach_of_runAll step (Sys.initial 4 none) lateRegister
    (fun s => s.registry "job" == some 0 && s.runs.all (fun run => !run.isUndone) &&
      s.handlers.all (fun hd => hd.registers == none))
    (allowed_anyStep _ _) (by decide)
  simp only [Bool.and_eq_true, beq_iff_eq, List.all_eq_true] at hP
  obtain ⟨⟨hentry, hdone⟩, hno⟩ := hP
  refine ⟨s, hs, ?_, ?_⟩
  · intro i k hi
    have := hno _ (List.mem_of_getElem? hi)
    simp [Handler.registers] at this
  · intro hexact
    obtain ⟨run, hrun, -, hundone⟩ := (hexact 0).mp hentry
    have := hdone run (List.mem_of_getElem? hrun)
    simp [hundone] at this

/-- A job runs to its end and is started again. -/
def restartAfterFinish : List Action :=
  [.arrive (.createJob none none sampleProcess), .handler 0 0 "job",
    .arrive (.startProcessing "job"),
    .handler 1 0 "", .handler 1 0 "", .handler 1 0 "", .handler 1 0 "",
    .supervisor 0 0 false] ++ runnerSteps 21 0 ⟨"application/json", [0x33]⟩ ++
  [.supervisor 0 0 false, .supervisor 0 0 false, .supervisor 0 0 false,
    .arrive (.startProcessing "job"),
    .handler 2 0 "", .handler 2 0 "", .handler 2 0 "", .handler 2 0 ""]

theorem registryExact_restart :
    ∃ s, Reach step RegistersInOrder (Sys.initial 4 none) s ∧
      s.registry "job" = some 1 ∧ s.RegistryExact "job" := by
  obtain ⟨s, hs, hP⟩ := exists_reach_of_runAll step (Sys.initial 4 none) restartAfterFinish
    (G := RegistersInOrder)
    (fun s => s.registry "job" == some 1 && s.handlers.all (fun hd => hd.registers == none))
    (by decide) (by decide)
  simp only [Bool.and_eq_true, beq_iff_eq, List.all_eq_true] at hP
  obtain ⟨hentry, hno⟩ := hP
  refine ⟨s, hs, hentry, (registry_exact hs "job").1.mpr ?_⟩
  intro i k hi
  have := hno _ (List.mem_of_getElem? hi)
  simp [Handler.registers] at this

end OrbitOpenEO
