import OrbitOpenEO.JobService.Backends
import OrbitOpenEO.JobService.Deliveries

/-!
# The service on its stores

`StoredService` is the service with the job store and the file store that `main` gives it.
A restart keeps the stores that outlive the process.  As long as the clock fits its type and
the file store serves the users, the service goes through the same steps as the one on
stores in memory (`Mirrors.live_rel`), and so what holds in every run of that one holds here.
-/

namespace OrbitOpenEO

open Lib Lib.Program

variable {J : JobStoreBackend} {F : FileStoreBackend}

/-- The id that a step draws for a job. -/
def Shell.draws (s : Shell) : Action → Option String
  | .handler h _ uuid =>
      match s.handlers[h]? with
      | some (.createJob _ _ _) => some uuid
      | _ => none
  | _ => none

/-- The user id that a step brings to the file store: jobs are users of it. -/
def Shell.brings (s : Shell) : Life → Option String
  | .serve a => s.draws a
  | .file request => some request.userId
  | .restart _ _ _ _ => none

/-- The key under which a file is stored or taken out in this step. -/
def Shell.writesKey (s : Shell) : Life → Option FileKey
  | .serve (.runner k _ _ _) => s.runs[k]?.bind (·.runner.putKey)
  | .serve _ => none
  | .file request => request.changes
  | .restart _ _ _ _ => none

/-- The reading of the clock in a step. -/
def Life.now : Life → Nat
  | .serve a => a.now
  | .file _ => 0
  | .restart now _ _ _ => now

/-- The service with its stores. -/
structure StoredService (J : JobStoreBackend) (F : FileStoreBackend) where
  shell : Shell
  jobs : J.State
  files : F.State

namespace StoredService

/-- A service that has not served a request, on new stores. -/
def initial (J : JobStoreBackend) (F : FileStoreBackend) (permits : Nat)
    (timeoutVar : Option String) : StoredService J F where
  shell := (Sys.initial permits timeoutVar).shell
  jobs := J.empty
  files := F.store.empty

/-- The service after a call on its stores. -/
def after (y : StoredService J F) (c : Call Shell) : StoredService J F where
  shell := (c.on J.step F.store.answer y.jobs y.files).1
  jobs := (c.on J.step F.store.answer y.jobs y.files).2.1
  files := (c.on J.step F.store.answer y.jobs y.files).2.2

/-- What a new process finds.  `recover_orphans` may fail, and then the server goes on. -/
def restart (now permits : Nat) (timeoutVar : Option String) (recovered : Bool)
    (y : StoredService J F) : StoredService J F where
  shell := { (Sys.initial permits timeoutVar).shell with issued := y.shell.issued }
  jobs :=
    if J.lasts then
      if recovered then (J.step y.jobs (.recoverOrphans (clock now))).2 else y.jobs
    else J.empty
  files := if F.lasts then y.files else F.store.empty

/-- One step of a service that may end at any moment. -/
def live (y : StoredService J F) : Life → Option (StoredService J F)
  | .serve a => (y.shell.ask a).map y.after
  | .file request => some { y with files := (F.store.handle y.files request).2 }
  | .restart now permits timeoutVar recovered =>
      some (y.restart now permits timeoutVar recovered)

/-- The record of a job, as the store gives it back. -/
def getJob (y : StoredService J F) (jobId : String) : Except JobError JobRecord :=
  (J.step y.jobs (.get jobId)).1.toRecord

/-- `get_results`. -/
def getResults (y : StoredService J F) (jobId : String) : Except Response Json :=
  manifest jobId (y.getJob jobId)

/-- What a handler goes on to do. -/
def next (y : StoredService J F) (now : Nat) (uuid : String) (hd : Handler) : Option Handler :=
  (y.shell.askHandler now uuid hd).map fun c => (c.on J.step F.store.answer y.jobs y.files).1.1

/-- The job lists an asset of this name. -/
def lists (y : StoredService J F) (key : FileKey) : Bool :=
  match y.getJob key.userId with
  | .ok record => record.assets.any (fun asset => asset.name == key.path)
  | .error _ => false

/-- No asset has this key, no runner is about to add one, and no download is about to read it. -/
def unclaimed (y : StoredService J F) (key : FileKey) : Bool :=
  !y.lists key &&
    y.shell.runs.all (fun run =>
      run.runner.attaching.all (fun (id, asset) => (⟨id, asset.name⟩ : FileKey) != key)) &&
    y.shell.handlers.all (fun hd => hd.readsKey != some key)

/-- Runners and file requests act only under unclaimed keys, the clock fits its type, and the
file store serves the users. -/
structure Careful (y : StoredService J F) (l : Life) : Prop where
  fresh : ∀ key ∈ y.shell.writesKey l, y.unclaimed key = true
  clock : l.now < 2 ^ 64
  served : ∀ userId ∈ y.shell.brings l, F.Serves userId

end StoredService

open StoredService

/-- What a runner or a handler of the service asks of the stores is plain. -/
structure Tame (Serves : String → Prop) (s : Sys) : Prop where
  issued : IssuedInv s
  traced : Traced (fun _ => True) s
  made : ∀ (k : Nat) (run : Run), s.runs[k]? = some run →
    run.Follows fun jobId program => program.AllCalls (RunCall.made jobId)
  reading : ∀ (i : Nat) key asset, s.handlers[i]? = some (.downloadRead key asset) →
    key.userId ∈ s.issued
  served : ∀ userId ∈ s.issued, Serves userId

section Tame

variable {Serves : String → Prop} {b : Backing} {s t : Sys} {a : Action}

theorem Tame.initial (permits : Nat) (timeoutVar : Option String) :
    Tame Serves (Sys.initial permits timeoutVar) where
  issued := IssuedInv.initial permits timeoutVar
  traced := Traced.initial permits timeoutVar
  made := by simp [Sys.initial]
  reading := by simp [Sys.initial]
  served := by simp [Sys.initial]

/-- An id that is drawn is the one of the step. -/
theorem draws_of_transition (h : Transition s a t) {jobId : String} (hin : jobId ∈ t.issued) :
    jobId ∈ s.issued ∨ s.shell.draws a = some jobId := by
  cases h with
  | @handler i now uuid hd hd' u hhd hstep =>
      cases hd with
      | createJob title description process =>
          simp only [stepHandler] at hstep
          split_ifs at hstep
          cases hstep
          have hdraws : s.shell.draws (.handler i now uuid) = some uuid := by
            have hshell : s.shell.handlers[i]? = s.handlers[i]? := rfl
            simp only [Shell.draws, hshell, hhd]
          rcases List.mem_cons.mp hin with rfl | hin
          · exact .inr hdraws
          · exact .inl hin
      | discardCancel j wasActive =>
          cases hstep
          refine .inl ?_
          unfold Sys.cancel at hin
          split at hin <;> exact hin
      | _ =>
          left
          have hissued : u.issued = s.issued := by
            simp only [stepHandler] at hstep
            repeat' split at hstep
            all_goals grind
          exact hissued ▸ hin
  | _ => exact .inl hin

theorem Tame.of_step (hs : Tame Serves s) (h : step s a = some t)
    (hserved : ∀ userId ∈ s.shell.draws a, Serves userId) : Tame Serves t := by
  have htr := transition_of_step h
  refine ⟨hs.issued.of_transition htr, hs.traced.of_transition hs.issued htr fun _ _ _ _ => trivial,
    ?_, ?_, ?_⟩
  · intro k run' hrun'
    rcases run_of_transition htr hrun' with ⟨run, hrun, hev⟩ | ⟨_, _, _, _, record, -, -, -, -, rfl⟩
    · exact (hs.made k run hrun).of_evolves allCalls_runJob (fun _ _ _ hp => hp.2) hev
    · intro program aborting hr
      cases hr
  · intro i key asset hhd'
    rcases handler_of_transition htr hhd' with hhd | ⟨_, _, hd, u, rfl, hhd, hstep, -⟩ |
      ⟨request, rfl, hd_eq⟩
    · exact issued_of_transition htr (hs.reading i key asset hhd)
    · obtain ⟨jobId, record, hget, -, rfl⟩ := reads_of_stepHandler hstep
      exact issued_of_transition htr (hs.issued.present jobId record hget)
    · cases request <;> cases hd_eq
  · intro userId hin
    rcases draws_of_transition htr hin with hin | hdraws
    · exact hs.served userId hin
    · exact hserved userId hdraws

theorem Tame.of_live (hs : Tame Serves s) {l : Life} (h : live b s l = some t)
    (hserved : ∀ userId ∈ s.shell.brings l, Serves userId) : Tame Serves t := by
  cases l with
  | serve a => exact hs.of_step h hserved
  | file request =>
      cases h
      exact ⟨⟨hs.issued.present, hs.issued.discarded⟩,
        ⟨hs.traced.stored, hs.traced.creating, hs.traced.starting, hs.traced.running⟩, hs.made,
        hs.reading, hs.served⟩
  | restart now permits timeoutVar recovered =>
      cases h
      refine ⟨⟨?_, by simp [Sys.restart, Sys.initial]⟩, hs.traced.restart,
        by simp [Sys.restart, Sys.initial], by simp [Sys.restart, Sys.initial], hs.served⟩
      intro jobId record' hget'
      obtain ⟨-, record, hget, -⟩ := get_restart hget'
      exact hs.issued.present jobId record hget

end Tame

/-- The operation of a call is one that all stores answer alike. -/
def Call.Plain {α : Type} (Serves : String → Prop) (store : InMemoryJobStore) : Call α → Prop
  | .done _ => True
  | .jobs op _ => op.Plain store
  | .files op _ => Serves op.userId ∧ op.isPlain = true

theorem Call.Plain.map {α β : Type} {Serves : String → Prop} {store : InMemoryJobStore}
    {c : Call α} (h : c.Plain Serves store) (f : α → β) : (c.map f).Plain Serves store := by
  cases c <;> exact h

/-- **A plain call** comes to the same on stores that are alike. -/
theorem Call.on_like {α : Type} {jobs : J.State} {files : F.State} {store : InMemoryJobStore}
    {fileStore : InMemoryFileStore} (hjobs : J.Like jobs store) (hfiles : F.Like files fileStore)
    {c : Call α} (hc : c.Plain F.Serves store) :
    (c.on J.step F.store.answer jobs files).1 = (c.onMemory store fileStore).1 ∧
      J.Like (c.on J.step F.store.answer jobs files).2.1 (c.onMemory store fileStore).2.1 ∧
      F.Like (c.on J.step F.store.answer jobs files).2.2 (c.onMemory store fileStore).2.2 := by
  cases c with
  | done a => exact ⟨rfl, hjobs, hfiles⟩
  | jobs op next =>
      obtain ⟨hreply, hlike⟩ := J.step_like hjobs op hc
      exact ⟨congrArg next hreply, hlike, hfiles⟩
  | files op next =>
      obtain ⟨hreply, hlike⟩ := F.answer_like hfiles op hc.1 hc.2
      exact ⟨congrArg next hreply, hjobs, hlike⟩

section Plain

variable {Serves : String → Prop} {s : Sys} {now : Nat}

theorem plain_askHandler (hs : Tame Serves s) {i : Nat} {uuid : String} {hd : Handler}
    (hhd : s.handlers[i]? = some hd) {c : Call (Handler × Shell)}
    (h : s.shell.askHandler now uuid hd = some c) : c.Plain Serves s.jobs := by
  cases hd with
  | createJob title description process =>
      simp only [Shell.askHandler] at h
      split_ifs at h with hdrawn
      cases h
      -- the id was never drawn, so no record has it
      intro r hr hid
      refine hdrawn ?_
      rcases SqliteJobStore.get_cases s.jobs uuid with ⟨-, -, hnone⟩ | ⟨r', -, -, hget, -, -⟩
      · have hany : s.jobs.inner.any (fun r => r.id == uuid) = true :=
          List.any_eq_true.mpr ⟨r, hr, beq_iff_eq.mpr hid⟩
        cases hnone.symm.trans hany
      · exact hs.issued.present uuid r' hget
  | downloadRead key asset =>
      cases h
      exact ⟨hs.served _ (hs.reading i key asset hhd), rfl⟩
  | startAcquire jobId record =>
      cases h
      trivial
  | replied response => cases h
  | _ =>
      cases h
      trivial

theorem plain_askSupervisor {s : Shell} {notified : Bool} {k : Nat} {run : Run} {c : Call Shell}
    {store : InMemoryJobStore} (h : s.askSupervisor now notified k run = some c) :
    c.Plain Serves store := by
  unfold Shell.askSupervisor Shell.askStatus at h
  repeat' split at h
  all_goals first
    | (cases h; trivial)
    | cases h

theorem plain_askCall (hs : Tame Serves s) {exec : Option (Except ExecError SyncResult)}
    {elapsed : F64} {jobId : String} (hin : jobId ∈ s.issued) {q : RunCall} (hq : q.made jobId) :
    (q.ask now exec elapsed).Plain Serves s.jobs := by
  cases q with
  | setProgress id progress => exact hq.2
  | put key bytes =>
      have hkey : key.userId ∈ s.issued := by rwa [show key.userId = jobId from hq]
      exact ⟨hs.served _ hkey, rfl⟩
  | _ => trivial

/-- **Every step** makes a plain call. -/
theorem plain_ask (hs : Tame Serves s) {a : Action} {c : Call Shell}
    (h : s.shell.ask a = some c) : c.Plain Serves s.jobs := by
  cases a with
  | arrive request =>
      cases h
      trivial
  | handler i now uuid =>
      simp only [Shell.ask, Option.bind_eq_bind, Option.bind_eq_some_iff] at h
      obtain ⟨hd, hhd, c', hc', hc⟩ := h
      cases hc
      exact (plain_askHandler hs hhd hc').map _
  | supervisor k now notified =>
      simp only [Shell.ask, Option.bind_eq_bind, Option.bind_eq_some_iff] at h
      obtain ⟨run, -, hc⟩ := h
      exact plain_askSupervisor hc
  | runner k now exec elapsed =>
      simp only [Shell.ask, Option.bind_eq_bind, Option.bind_eq_some_iff] at h
      obtain ⟨run, hrun, hc⟩ := h
      unfold Shell.askRunner at hc
      split at hc
      · next q next aborting hlive =>
          cases hc
          have hin := (hs.traced.running k run hrun).1
          exact (plain_askCall hs hin (hs.made k run hrun _ _ hlive).1).map _
      · cases hc
        trivial
      · cases hc
  | panic k =>
      simp only [Shell.ask, Option.bind_eq_bind, Option.bind_eq_some_iff] at h
      obtain ⟨run, -, hc⟩ := h
      split at hc <;> cases hc
      trivial
  | drop k =>
      simp only [Shell.ask, Option.bind_eq_bind, Option.bind_eq_some_iff] at h
      obtain ⟨run, -, hc⟩ := h
      split at hc <;> cases hc
      trivial

end Plain

/-- The service on the stores in memory that goes with it. -/
structure Mirrors (y : StoredService J F) (s : Sys) : Prop where
  shell : y.shell = s.shell
  jobs : J.Like y.jobs s.jobs
  files : F.Like y.files s.files
  tame : Tame F.Serves s

/-- The stores that outlive the process. -/
def backing (J : JobStoreBackend) (F : FileStoreBackend) : Backing := ⟨J.lasts, F.lasts⟩

section Mirrors

variable {y z : StoredService J F} {s t : Sys} {l : Life} {jobId : String}

theorem Mirrors.initial (permits : Nat) (timeoutVar : Option String) :
    Mirrors (StoredService.initial J F permits timeoutVar) (Sys.initial permits timeoutVar) where
  shell := rfl
  jobs := J.like_empty
  files := F.like_empty
  tame := Tame.initial permits timeoutVar

theorem Mirrors.getJob_eq (h : Mirrors y s) (jobId : String) :
    y.getJob jobId = s.jobs.get jobId :=
  congrArg StoreReply.toRecord (J.step_like h.jobs (.get jobId) trivial).1

theorem Mirrors.unclaimed_eq (h : Mirrors y s) (key : FileKey) :
    y.unclaimed key = s.unclaimed key := by
  unfold StoredService.unclaimed StoredService.lists Sys.unclaimed Sys.lists
  rw [h.getJob_eq, h.shell]
  rfl

theorem writesKey_shell (s : Sys) (l : Life) : s.shell.writesKey l = s.writesKey l := by
  cases l with
  | serve a => cases a <;> rfl
  | _ => rfl

/-- The condition on a step is that of the service in memory, and two more. -/
theorem Mirrors.careful_iff (h : Mirrors y s) :
    y.Careful l ↔
      LivesFresh s l ∧ l.now < 2 ^ 64 ∧ ∀ userId ∈ s.shell.brings l, F.Serves userId := by
  have hfresh : (∀ key ∈ y.shell.writesKey l, y.unclaimed key = true) ↔ LivesFresh s l := by
    unfold LivesFresh
    rw [h.shell, writesKey_shell]
    simp only [h.unclaimed_eq]
  rw [← hfresh, ← h.shell]
  exact ⟨fun hc => ⟨hc.fresh, hc.clock, hc.served⟩, fun hc => ⟨hc.1, hc.2.1, hc.2.2⟩⟩

theorem Mirrors.restart (h : Mirrors y s) {now : Nat} (hnow : now < 2 ^ 64) (permits : Nat)
    (timeoutVar : Option String) (recovered : Bool) :
    (y.restart now permits timeoutVar recovered).shell =
        (s.restart (backing J F) now permits timeoutVar recovered).shell ∧
      J.Like (y.restart now permits timeoutVar recovered).jobs
        (s.restart (backing J F) now permits timeoutVar recovered).jobs ∧
      F.Like (y.restart now permits timeoutVar recovered).files
        (s.restart (backing J F) now permits timeoutVar recovered).files := by
  refine ⟨?_, ?_, ?_⟩
  · have hissued : y.shell.issued = s.issued := congrArg Shell.issued h.shell
    unfold StoredService.restart
    rw [hissued]
    rfl
  · have hrecovered : J.Like (J.step y.jobs (.recoverOrphans (clock now))).2
        (s.jobs.recoverOrphans now).2 := by
      have hlike := (J.step_like h.jobs (.recoverOrphans (clock now)) trivial).2
      simpa only [InMemoryJobStore.step, toNat_clock hnow] using hlike
    have hlasts : (backing J F).dbUrl = J.lasts := rfl
    simp only [StoredService.restart, Sys.restart, hlasts]
    cases J.lasts with
    | false => exact J.like_empty
    | true =>
        cases recovered with
        | false => exact h.jobs
        | true => exact hrecovered
  · have hlasts : (backing J F).filesDir = F.lasts := rfl
    simp only [StoredService.restart, Sys.restart, hlasts]
    cases F.lasts with
    | false => exact F.like_empty
    | true => exact h.files

/-- **The service on its stores** goes step by step with the one on stores in memory. -/
theorem Mirrors.live_rel (h : Mirrors y s) (hc : y.Careful l) :
    Option.Rel Mirrors (y.live l) (live (backing J F) s l) := by
  obtain ⟨-, hnow, hserved⟩ := h.careful_iff.mp hc
  cases l with
  | serve a =>
      have hstep : live (backing J F) s (.serve a) = (s.shell.ask a).map (·.after s) :=
        step_eq_ask s hnow
      have hask : y.shell.ask a = s.shell.ask a := by rw [h.shell]
      rw [hstep, StoredService.live, hask]
      cases hcall : s.shell.ask a with
      | none => exact .none
      | some c =>
          obtain ⟨hshell, hjobs, hfiles⟩ := Call.on_like h.jobs h.files (plain_ask h.tame hcall)
          refine .some ⟨hshell, hjobs, hfiles, h.tame.of_step ?_ hserved⟩
          rw [step_eq_ask s hnow, hcall]
          rfl
  | file request =>
      have hfiles := F.handle_like h.files request (hserved request.userId rfl)
      exact .some ⟨h.shell, h.jobs, hfiles, h.tame.of_live (b := backing J F) rfl hserved⟩
  | restart now permits timeoutVar recovered =>
      obtain ⟨hshell, hjobs, hfiles⟩ := h.restart hnow permits timeoutVar recovered
      exact .some ⟨hshell, hjobs, hfiles, h.tame.of_live (b := backing J F) rfl hserved⟩

/-- A run goes with a run in memory, whatever more is asked of its steps. -/
theorem Mirrors.reach {A : List Run → Life → Prop} (h : Mirrors y s)
    (hreach : Reach StoredService.live (fun u l => u.Careful l ∧ A u.shell.runs l) y z) :
    ∃ t, Reach (live (backing J F)) (fun u l => LivesFresh u l ∧ A u.runs l) s t ∧
      Mirrors z t := by
  refine hreach.simulate ?_ h
  rintro u v l w hm ⟨hc, hA⟩ hstep
  have hrel := hm.live_rel hc
  rw [hstep] at hrel
  cases hlive : live (backing J F) v l with
  | none =>
      rw [hlive] at hrel
      cases hrel
  | some w' =>
      rw [hlive] at hrel
      cases hrel with
      | some hw =>
          have hruns : u.shell.runs = v.runs := congrArg Shell.runs hm.shell
          exact ⟨w', ⟨(hm.careful_iff.mp hc).1, hruns ▸ hA⟩, rfl, hw⟩

/-- A run in memory goes with a run on the stores, if the clock fits and the users are served. -/
theorem Mirrors.exists_reach {A : List Run → Life → Prop} (h : Mirrors y s)
    (hreach : Reach (live (backing J F))
      (fun u l => (LivesFresh u l ∧ l.now < 2 ^ 64 ∧ ∀ userId ∈ u.shell.brings l, F.Serves userId) ∧
        A u.runs l) s t) :
    ∃ z, Reach StoredService.live (fun u l => u.Careful l ∧ A u.shell.runs l) y z ∧
      Mirrors z t := by
  refine hreach.simulate (R := fun v u => Mirrors u v) ?_ h
  rintro v u l w hm ⟨hG, hA⟩ hstep
  have hc := hm.careful_iff.mpr hG
  have hrel := hm.live_rel hc
  rw [hstep] at hrel
  cases hlive : u.live l with
  | none =>
      rw [hlive] at hrel
      cases hrel
  | some w' =>
      rw [hlive] at hrel
      cases hrel with
      | some hw =>
          have hruns : u.shell.runs = v.runs := congrArg Shell.runs hm.shell
          exact ⟨w', ⟨hc, hruns ▸ hA⟩, rfl, hw⟩

end Mirrors

end OrbitOpenEO
