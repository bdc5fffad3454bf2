import OrbitOpenEO.JobService.Records

/-!
# Assets and files

A finishing runner stores its bytes under the job id and a file name, then adds
an asset with that name to the job record.  The file store replaces by key, the
record appends to a list; a job that is started again replaces the file of its
first run and lists the name twice, with two sizes.

`Stores` is the discipline of the runner: an `add_asset` comes right after the
`put` of the same name, with the length of the bytes put.  `AssetInv` ties the
two stores together.  It is preserved when a runner stores only under a key that
no asset, no other runner and no download refers to.
-/

namespace OrbitOpenEO

open Lib Lib.Program

/-- Neither of the two calls that make an asset. -/
def RunCall.isPlain : RunCall → Bool
  | .put _ _ => false
  | .addAsset _ _ => false
  | _ => true

/-- A program of the runner of a job, before which a file of this name and length
was put and is not yet an asset. -/
inductive Stores (jobId : String) : Option (String × Nat) → RunProgram RunOutcome → Prop
  | done (outcome : RunOutcome) : Stores jobId none (.done outcome)
  | plain {q : RunCall} {next : RunReply q → RunProgram RunOutcome} :
      q.isPlain = true → (∀ r, Stores jobId none (next r)) → Stores jobId none (.call q next)
  | put {key : FileKey} {bytes : Bytes}
      {next : RunReply (.put key bytes) → RunProgram RunOutcome} :
      key.userId = jobId → (∀ e, Stores jobId none (next (.error e))) →
      Stores jobId (some (key.path, bytes.length)) (next (.ok ())) →
      Stores jobId none (.call (.put key bytes) next)
  | attach {asset : JobAsset} {next : RunReply (.addAsset jobId asset) → RunProgram RunOutcome} :
      (∀ r, Stores jobId none (next r)) →
      Stores jobId (some (asset.name, asset.size)) (.call (.addAsset jobId asset) next)

section RunJob

variable (jobId userId : String)

theorem stores_recordTerminal (outcome : String) (result : RunOutcome) :
    Stores jobId none (recordTerminal outcome >>= fun _ => return result) :=
  .plain rfl fun _ => .plain rfl fun _ => .plain rfl fun _ => .done _

theorem stores_failure (result : RunOutcome) :
    Stores jobId none (do
      let _ ← ask (.setStatus jobId .error)
      publish jobId userId .failed
      return result) :=
  .plain rfl fun _ => .plain rfl fun _ => .done _

theorem stores_runFinalise : Stores jobId none (runFinalise jobId userId) := by
  refine .plain rfl fun _ => .plain rfl fun _ => .plain rfl fun r => ?_
  cases r with
  | error e =>
      exact .done _
  | ok u =>
      refine .plain rfl fun _ => .plain rfl fun _ => .plain rfl fun _ => ?_
      exact stores_recordTerminal jobId _ _

theorem stores_runPersist (result : SyncResult) :
    Stores jobId none (runPersist jobId userId result) := by
  refine .put rfl (fun e => stores_failure jobId userId _) ?_
  refine @Stores.attach jobId (resultAsset result) _ (fun r => ?_)
  cases r with
  | error e =>
      exact stores_failure jobId userId _
  | ok u =>
      exact stores_runFinalise jobId userId

/-- `run_job` keeps the discipline. -/
theorem stores_runJob (timeoutSecs : Nat) (body : Json) :
    Stores jobId none (runJob jobId userId timeoutSecs body) := by
  refine .plain rfl fun r => ?_
  cases r with
  | error e =>
      exact .done _
  | ok u =>
      refine .plain rfl fun _ => .plain rfl fun r => ?_
      cases r with
      | error e =>
          exact .done _
      | ok u =>
          refine .plain rfl fun _ => .plain rfl fun _ => .plain rfl fun _ => .plain rfl fun r => ?_
          match r with
          | none =>
              refine .plain rfl fun _ => .plain rfl fun _ => .plain rfl fun _ => ?_
              exact stores_recordTerminal jobId _ _
          | some (.ok result) =>
              exact .plain rfl fun _ => .plain rfl fun _ => stores_runPersist jobId userId result
          | some (.error e) =>
              refine .plain rfl fun _ => .plain rfl fun _ => ?_
              refine .plain rfl fun _ => .plain rfl fun _ => .plain rfl fun _ => ?_
              exact stores_recordTerminal jobId _ _

end RunJob

/-- The asset a program adds with its next call, and its job. -/
def nextAsset : RunProgram RunOutcome → Option (String × JobAsset)
  | .call (.addAsset id asset) _ => some (id, asset)
  | _ => none

/-- The asset a runner adds with its next call, and its job. -/
def Runner.attaching : Runner → Option (String × JobAsset)
  | .live program _ => nextAsset program
  | _ => none

/-- The key under which a runner stores a file with its next call. -/
def Runner.putKey : Runner → Option FileKey
  | .live (.call (.put key _) _) _ => some key
  | _ => none

/-- The file a download handler reads with its next call. -/
def Handler.readsKey : Handler → Option FileKey
  | .downloadRead key _ => some key
  | _ => none

/-- The key under which a runner stores a file in this step. -/
def Sys.putKey (s : Sys) : Action → Option FileKey
  | .runner k _ _ _ => s.runs[k]?.bind (·.runner.putKey)
  | _ => none

/-- The job lists an asset of this name. -/
def Sys.lists (s : Sys) (key : FileKey) : Bool :=
  match s.jobs.get key.userId with
  | .ok record => record.assets.any (fun asset => asset.name == key.path)
  | .error _ => false

/-- No asset has this key, no runner is about to add one, and no download is
about to read it. -/
def Sys.unclaimed (s : Sys) (key : FileKey) : Bool :=
  !s.lists key &&
    s.runs.all (fun run =>
      run.runner.attaching.all (fun (id, asset) => (⟨id, asset.name⟩ : FileKey) != key)) &&
    s.handlers.all (fun hd => hd.readsKey != some key)

/-- A runner stores its file only under an unclaimed key. -/
def StoresFresh (s : Sys) (a : Action) : Prop := ∀ key ∈ s.putKey a, s.unclaimed key = true

instance (s : Sys) (a : Action) : Decidable (StoresFresh s a) :=
  inferInstanceAs (Decidable (∀ key ∈ s.putKey a, s.unclaimed key = true))

/-- The file store holds this many bytes under the key. -/
def Sys.Holds (s : Sys) (key : FileKey) (size : Nat) : Prop :=
  ∃ bytes, s.files.get key = .ok bytes ∧ bytes.length = size

variable {s t : Sys} {a : Action} {run run' : Run}

theorem lists_eq_false_iff {key : FileKey} :
    s.lists key = false ↔
      ∀ record, s.jobs.get key.userId = .ok record →
        ∀ asset ∈ record.assets, asset.name ≠ key.path := by
  unfold Sys.lists
  cases s.jobs.get key.userId <;> simp

/-- The program of a runner at some point of the discipline. -/
def Run.Disciplined : Run → Prop :=
  Run.Follows (fun jobId program => ∃ pending, Stores jobId pending program)

/-- The program after a call that is not a successful `put`. -/
theorem stores_next {jobId : String} {q : RunCall} {next : RunReply q → RunProgram RunOutcome}
    {pending : Option (String × Nat)} (h : Stores jobId pending (.call q next)) (r : RunReply q) :
    Stores jobId none (next r) ∨
      ∃ key bytes, q = .put key bytes ∧
        Stores jobId (some (key.path, bytes.length)) (next r) := by
  cases h with
  | plain _ hnext =>
      exact .inl (hnext r)
  | @put key bytes _ huser herr hok =>
      cases r with
      | error e =>
          exact .inl (herr e)
      | ok u =>
          exact .inr ⟨key, bytes, rfl, hok⟩
  | attach hnext =>
      exact .inl (hnext r)

theorem disciplined_of_reach {G : Sys → Action → Prop} {permits : Nat}
    {timeoutVar : Option String} (h : Reach step G (Sys.initial permits timeoutVar) s) :
    ∀ (k : Nat) (run : Run), s.runs[k]? = some run → run.Disciplined := by
  refine follows_of_reach (fun _ _ _ _ => ⟨none, stores_runJob _ _ _ _⟩) ?_ h
  rintro jobId q next ⟨pending, hstores⟩ r
  rcases stores_next hstores r with hnext | ⟨_, _, _, hnext⟩
  · exact ⟨_, hnext⟩
  · exact ⟨_, hnext⟩

theorem nextAsset_of_stores_none {jobId : String} {program : RunProgram RunOutcome}
    (h : Stores jobId none program) : nextAsset program = none := by
  cases h with
  | done outcome =>
      rfl
  | @plain q next hq hnext =>
      cases q with
      | addAsset id asset =>
          cases hq
      | _ =>
          rfl
  | put huser herr hok =>
      rfl

theorem nextAsset_of_stores_some {jobId name : String} {size : Nat}
    {program : RunProgram RunOutcome} (h : Stores jobId (some (name, size)) program) :
    ∃ asset, nextAsset program = some (jobId, asset) ∧ asset.name = name ∧ asset.size = size := by
  cases h with
  | @attach asset next hnext =>
      exact ⟨asset, rfl, rfl, rfl⟩

/-- The effect of a step on the files and on the runners about to add an asset. -/
inductive AssetMove (s : Sys) (a : Action) (t : Sys) : Prop
  | quiet :
      t.files = s.files →
      (∀ (k : Nat) (run' : Run) x, t.runs[k]? = some run' → run'.runner.attaching = some x →
        ∃ run, s.runs[k]? = some run ∧ run.runner.attaching = some x) → AssetMove s a t
  | put (k : Nat) (run' : Run) (key : FileKey) (bytes : Bytes) (asset : JobAsset) :
      s.putKey a = some key → s.files.put key bytes = .ok t.files → t.jobs = s.jobs →
      t.handlers = s.handlers → t.runs = s.runs.set k run' →
      run'.runner.attaching = some (key.userId, asset) → asset.name = key.path →
      asset.size = bytes.length → AssetMove s a t

/-- Replacing a run by one that is not about to add an asset, or adds the same. -/
theorem assetMove_of_set {k : Nat} (hrun : s.runs[k]? = some run)
    (hruns : t.runs = s.runs.set k run') (hfiles : t.files = s.files)
    (hattaching : run'.runner.attaching = none ∨
      run'.runner.attaching = run.runner.attaching) : AssetMove s a t := by
  refine .quiet hfiles (fun i run₁ x hrun₁ hx => ?_)
  rw [hruns] at hrun₁
  rcases getElem?_set_cases hrun₁ with ⟨rfl, rfl⟩ | ⟨-, hrun₁⟩
  · rcases hattaching with hnone | hsame
    · rw [hnone] at hx
      cases hx
    · exact ⟨run, hrun, hsame ▸ hx⟩
  · exact ⟨run₁, hrun₁, hx⟩

theorem attaching_of_supervisorMove {now : Nat} {jobs : InMemoryJobStore}
    {registry : JobRegistry} {permits : Nat}
    (h : SupervisorMove now s run run' jobs registry permits) :
    run'.runner.attaching = none ∨ run'.runner.attaching = run.runner.attaching := by
  cases h with
  | spawn hsup =>
      exact .inl rfl
  | abort hsup =>
      refine .inr ?_
      cases hr : run.runner <;> rfl
  | _ =>
      exact .inr rfl

theorem assetMove_of_call {k now : Nat} {exec : Option (Except ExecError SyncResult)}
    {elapsed : F64} {q : RunCall} {next : RunReply q → RunProgram RunOutcome} {aborting : Bool}
    (hrun : s.runs[k]? = some run) (hr : run.runner = .live (.call q next) aborting)
    (hdisc : run.Disciplined) :
    AssetMove s (.runner k now exec elapsed)
      { s with
        runs := s.runs.set k
          { run with runner := .live (next (perform now exec elapsed s.jobs s.files q).1) aborting }
        jobs := (perform now exec elapsed s.jobs s.files q).2.1
        files := (perform now exec elapsed s.jobs s.files q).2.2 } := by
  obtain ⟨pending, hstores⟩ := hdisc _ _ hr
  cases q with
  | put key bytes =>
      cases hstores with
      | plain hq hnext =>
          cases hq
      | put huser herr hok =>
          cases hput : s.files.put key bytes with
          | ok files =>
              obtain ⟨asset, hat, hname, hsize⟩ := nextAsset_of_stores_some hok
              have hperform : perform now exec elapsed s.jobs s.files (.put key bytes) =
                  (.ok (), s.jobs, files) := by simp only [perform, hput]
              rw [hperform]
              rw [← huser] at hat
              exact .put k _ key bytes asset (by simp [Sys.putKey, hrun, hr, Runner.putKey])
                hput rfl rfl rfl hat hname hsize
          | error e =>
              have hperform : perform now exec elapsed s.jobs s.files (.put key bytes) =
                  (.error e, s.jobs, s.files) := by simp only [perform, hput]
              rw [hperform]
              exact assetMove_of_set hrun rfl rfl (.inl (nextAsset_of_stores_none (herr e)))
  | _ =>
      refine assetMove_of_set hrun rfl (files_of_perform (by simp)) (.inl ?_)
      rcases stores_next hstores _ with hnext | ⟨_, _, hq, _⟩
      · exact nextAsset_of_stores_none hnext
      · cases hq

/-- **Every step** leaves the files and adds no runner about to add an asset, or
is the `put` of such a runner. -/
theorem assetMove_of_transition
    (hdisc : ∀ (k : Nat) (run : Run), s.runs[k]? = some run → run.Disciplined)
    (h : Transition s a t) : AssetMove s a t := by
  cases h with
  | arrive request =>
      exact .quiet rfl (fun k run' x hrun' hx => ⟨run', hrun', hx⟩)
  | handler hhd hstep =>
      have hfiles := files_of_stepHandler hstep
      refine .quiet hfiles (fun k run' x hrun' hx => ?_)
      dsimp only at hrun'
      rcases runs_of_stepHandler hstep with hruns | ⟨jobId, hruns⟩ | ⟨jobId, record, -, -, hruns⟩
      · exact ⟨run', hruns ▸ hrun', hx⟩
      · rw [hruns] at hrun'
        obtain ⟨run, hrun, rfl | rfl⟩ := run_of_cancel hrun'
        · exact ⟨_, hrun, hx⟩
        · exact ⟨run, hrun, hx⟩
      · rw [hruns] at hrun'
        rcases getElem?_concat_cases hrun' with hrun | ⟨-, rfl⟩
        · exact ⟨run', hrun, hx⟩
        · cases hx
  | supervisor hrun hmove =>
      exact assetMove_of_set hrun rfl rfl (attaching_of_supervisorMove hmove)
  | call hrun hr =>
      exact assetMove_of_call hrun hr (hdisc _ _ hrun)
  | returned hrun hr =>
      exact assetMove_of_set hrun rfl rfl (.inl rfl)
  | panicked hrun hr =>
      exact assetMove_of_set hrun rfl rfl (.inl rfl)
  | aborted hrun hr =>
      exact assetMove_of_set hrun rfl rfl (.inl rfl)

/-- The two stores agree, also for the assets about to be added and the downloads
under way. -/
structure AssetInv (s : Sys) : Prop where
  nodup : ∀ jobId record, s.jobs.get jobId = .ok record →
    (record.assets.map (·.name)).Nodup
  listed : ∀ jobId record, s.jobs.get jobId = .ok record →
    ∀ asset ∈ record.assets, s.Holds ⟨jobId, asset.name⟩ asset.size
  attaching : ∀ (k : Nat) (run : Run) jobId asset, s.runs[k]? = some run →
    run.runner.attaching = some (jobId, asset) →
    s.Holds ⟨jobId, asset.name⟩ asset.size ∧ s.lists ⟨jobId, asset.name⟩ = false
  distinct : ∀ (k k' : Nat) (run run' : Run) jobId asset asset', s.runs[k]? = some run →
    s.runs[k']? = some run' → run.runner.attaching = some (jobId, asset) →
    run'.runner.attaching = some (jobId, asset') → asset.name = asset'.name → k = k'
  reading : ∀ (i : Nat) key asset, s.handlers[i]? = some (.downloadRead key asset) →
    s.Holds key asset.size
  replied : ∀ (i : Nat) contentType contentLength body,
    s.handlers[i]? = some (.replied (.file contentType contentLength body)) →
    contentLength = toString body.length

theorem AssetInv.initial (permits : Nat) (timeoutVar : Option String) :
    AssetInv (Sys.initial permits timeoutVar) where
  nodup := by
    intro jobId record hget
    cases hget
  listed := by
    intro jobId record hget
    cases hget
  attaching := by simp [Sys.initial]
  distinct := by simp [Sys.initial]
  reading := by simp [Sys.initial]
  replied := by simp [Sys.initial]

/-- A download handler reads an asset that its job lists. -/
theorem reads_of_stepHandler {now : Nat} {uuid : String} {hd : Handler} {u : Sys}
    {key : FileKey} {asset : JobAsset}
    (h : stepHandler now uuid s hd = some (.downloadRead key asset, u)) :
    ∃ jobId record, s.jobs.get jobId = .ok record ∧ asset ∈ record.assets ∧
      key = ⟨jobId, asset.name⟩ := by
  cases hd with
  | downloadGet jobId assetName =>
      simp only [stepHandler] at h
      split at h
      · cases h
      · rename_i record hget
        split at h
        · cases h
        · rename_i asset' hfind
          cases h
          exact ⟨jobId, record, hget, List.mem_of_find?_eq_some hfind,
            by rw [InMemoryJobStore.id_of_get hget]⟩
  | discardCancel jobId wasActive =>
      cases wasActive <;> cases h
  | _ =>
      simp only [stepHandler] at h
      repeat' split at h
      all_goals cases h

theorem jobProblem_ne_file (e : JobError) (contentType contentLength : String) (body : Bytes) :
    jobProblem e ≠ .file contentType contentLength body := by
  cases e <;> simp [jobProblem]

/-- A file is answered by a download handler, with the size its asset records. -/
theorem replies_of_stepHandler {now : Nat} {uuid : String} {hd : Handler} {u : Sys}
    {contentType contentLength : String} {body : Bytes}
    (h : stepHandler now uuid s hd =
      some (.replied (.file contentType contentLength body), u)) :
    ∃ key asset, hd = .downloadRead key asset ∧ s.files.get key = .ok body ∧
      contentLength = toString asset.size := by
  cases hd with
  | downloadRead key asset =>
      simp only [stepHandler] at h
      split at h
      · rename_i bytes hget
        cases h
        exact ⟨key, asset, rfl, hget, rfl⟩
      · cases h
      · cases h
  | discardCancel jobId wasActive =>
      cases wasActive <;> cases h
  | _ =>
      simp only [stepHandler] at h
      repeat' split at h
      all_goals simp [jobProblem_ne_file] at h

theorem holds_put {key : FileKey} {bytes : Bytes}
    (h : s.files.put key bytes = .ok t.files) : t.Holds key bytes.length :=
  ⟨bytes, by rw [InMemoryFileStore.get_put h, if_pos rfl], rfl⟩

theorem holds_of_put_ne {key k : FileKey} {bytes : Bytes} {size : Nat}
    (h : s.files.put key bytes = .ok t.files) (hk : k ≠ key) (hs : s.Holds k size) :
    t.Holds k size := by
  obtain ⟨b, hget, hlen⟩ := hs
  exact ⟨b, by rw [InMemoryFileStore.get_put h, if_neg hk, hget], hlen⟩

/-- What an unclaimed key says. -/
theorem unclaimed_iff {key : FileKey} :
    s.unclaimed key = true ↔
      s.lists key = false ∧
      (∀ run ∈ s.runs, ∀ id asset, run.runner.attaching = some (id, asset) →
        (⟨id, asset.name⟩ : FileKey) ≠ key) ∧
      ∀ hd ∈ s.handlers, hd.readsKey ≠ some key := by
  unfold Sys.unclaimed
  simp only [Bool.and_eq_true, Bool.not_eq_true', List.all_eq_true, bne_iff_ne, and_assoc,
    Option.all_eq_true, Prod.forall]

/-- Storing under an unclaimed key. -/
theorem AssetInv.of_put (hs : AssetInv s) {k : Nat} {run' : Run} {key : FileKey} {bytes : Bytes}
    {asset : JobAsset} (hfree : s.unclaimed key = true)
    (hput : s.files.put key bytes = .ok t.files) (hjobs : t.jobs = s.jobs)
    (hhandlers : t.handlers = s.handlers) (hruns : t.runs = s.runs.set k run')
    (hat : run'.runner.attaching = some (key.userId, asset)) (hname : asset.name = key.path)
    (hsize : asset.size = bytes.length) : AssetInv t := by
  obtain ⟨hlists, hrunners, hreaders⟩ := unclaimed_iff.mp hfree
  have hlists_t : ∀ key', t.lists key' = s.lists key' := by
    intro key'
    unfold Sys.lists
    rw [hjobs]
  refine ⟨?_, ?_, ?_, ?_, ?_, ?_⟩
  · rw [hjobs]
    exact hs.nodup
  · intro jobId record hget a ha
    rw [hjobs] at hget
    refine holds_of_put_ne hput ?_ (hs.listed jobId record hget a ha)
    rintro rfl
    exact lists_eq_false_iff.mp hlists record hget a ha rfl
  · intro k₁ run₁ jobId a hrun₁ ha
    rw [hruns] at hrun₁
    rw [hlists_t]
    rcases getElem?_set_cases hrun₁ with ⟨rfl, rfl⟩ | ⟨-, hrun₁⟩
    · rw [hat] at ha
      cases ha
      have hkey : (⟨key.userId, asset.name⟩ : FileKey) = key := by rw [hname]
      rw [hkey, hsize]
      exact ⟨holds_put hput, hlists⟩
    · obtain ⟨hholds, hunlisted⟩ := hs.attaching k₁ run₁ jobId a hrun₁ ha
      have hne := hrunners run₁ (List.mem_of_getElem? hrun₁) jobId a ha
      exact ⟨holds_of_put_ne hput hne hholds, hunlisted⟩
  · -- another runner about to add this name would have claimed the key
    intro k₁ k₂ run₁ run₂ jobId a₁ a₂ hrun₁ hrun₂ ha₁ ha₂ he
    rw [hruns] at hrun₁ hrun₂
    rcases getElem?_set_cases hrun₁ with ⟨rfl, rfl⟩ | ⟨-, h₁⟩
    · rcases getElem?_set_cases hrun₂ with ⟨rfl, rfl⟩ | ⟨-, h₂⟩
      · rfl
      · rw [hat] at ha₁
        cases ha₁
        refine absurd ?_ (hrunners run₂ (List.mem_of_getElem? h₂) _ a₂ ha₂)
        rw [← he, hname]
    · rcases getElem?_set_cases hrun₂ with ⟨rfl, rfl⟩ | ⟨-, h₂⟩
      · rw [hat] at ha₂
        cases ha₂
        refine absurd ?_ (hrunners run₁ (List.mem_of_getElem? h₁) _ a₁ ha₁)
        rw [he, hname]
      · exact hs.distinct k₁ k₂ run₁ run₂ jobId a₁ a₂ h₁ h₂ ha₁ ha₂ he
  · intro i key' a hhd
    rw [hhandlers] at hhd
    refine holds_of_put_ne hput ?_ (hs.reading i key' a hhd)
    rintro rfl
    exact hreaders _ (List.mem_of_getElem? hhd) rfl
  · rw [hhandlers]
    exact hs.replied

/-- The assets a job lists after a step: none, those it listed before, or these and
the one that a runner has just added. -/
theorem assets_of_recordMove {jobId : String} {record' : JobRecord}
    (h : RecordMove s a t jobId) (hget' : t.jobs.get jobId = .ok record') :
    record'.assets = [] ∨
    (∃ record, s.jobs.get jobId = .ok record ∧ record'.assets = record.assets) ∨
    (∃ (k : Nat) (run : Run) (asset : JobAsset)
        (next : RunReply (.addAsset jobId asset) → RunProgram RunOutcome) (aborting : Bool)
        (record : JobRecord),
      s.runs[k]? = some run ∧ run.runner = .live (.call (.addAsset jobId asset) next) aborting ∧
      t.runs = s.runs.set k { run with runner := .live (next (.ok ())) aborting } ∧
      s.jobs.get jobId = .ok record ∧ record'.assets = record.assets ++ [asset]) := by
  cases h with
  | same hsame =>
      exact .inr (.inl ⟨record', hsame ▸ hget', rfl⟩)
  | removed e hgone =>
      rw [hgone] at hget'
      cases hget'
  | created record₁ _ _ hget₁ hempty =>
      rw [hget₁] at hget'
      cases hget'
      exact .inl hempty
  | updated record₀ record₁ hget₀ hget₁ _ hassets =>
      rw [hget₁] at hget'
      cases hget'
      exact .inr (.inl ⟨record₀, hget₀, hassets⟩)
  | wrote _ record₀ record₁ hget₀ hget₁ _ hassets _ =>
      rw [hget₁] at hget'
      cases hget'
      exact .inr (.inl ⟨record₀, hget₀, hassets⟩)
  | attached k run asset next aborting record₀ record₁ hrun hr hget₀ hget₁ _ hassets hruns _ =>
      rw [hget₁] at hget'
      cases hget'
      exact .inr (.inr ⟨k, run, asset, next, aborting, record₀, hrun, hr, hruns, hget₀, hassets⟩)

/-- A runner about to add an asset finds its name unlisted, still after a step. -/
theorem AssetInv.unlisted_of_transition (hs : AssetInv s) {jobId : String} {asset : JobAsset}
    {k : Nat} (hdisc : ∀ (k : Nat) (run : Run), s.runs[k]? = some run → run.Disciplined)
    (hrun : s.runs[k]? = some run) (hat : run.runner.attaching = some (jobId, asset))
    (hrun' : t.runs[k]? = some run') (hat' : run'.runner.attaching = some (jobId, asset))
    (hmove : RecordMove s a t jobId) : t.lists ⟨jobId, asset.name⟩ = false := by
  have hunlisted := lists_eq_false_iff.mp (hs.attaching k run jobId asset hrun hat).2
  refine lists_eq_false_iff.mpr (fun record' hget' => ?_)
  dsimp only at hget' hunlisted ⊢
  rcases assets_of_recordMove hmove hget' with hassets | ⟨record, hget, hassets⟩ |
    ⟨k₀, run₀, asset₀, next, aborting, record, hrun₀, hr₀, hruns, hget, hassets⟩
  · simp [hassets]
  · rw [hassets]
    exact hunlisted record hget
  · rw [hassets]
    intro x hx
    rcases List.mem_append.mp hx with hx | hx
    · exact hunlisted record hget x hx
    · -- two runners about to add one name would be the same, and that one has moved on
      rw [List.mem_singleton.mp hx]
      intro he
      have hat₀ : run₀.runner.attaching = some (jobId, asset₀) := by
        rw [hr₀]
        rfl
      have hk := hs.distinct k₀ k run₀ run jobId asset₀ asset hrun₀ hrun hat₀ hat he
      subst hk
      rw [hruns] at hrun'
      rcases getElem?_set_cases hrun' with ⟨-, rfl⟩ | ⟨hne, -⟩
      · obtain ⟨pending, hstores⟩ := hdisc k₀ run₀ hrun₀ _ _ hr₀
        rcases stores_next hstores (.ok ()) with hnext | ⟨_, _, hq, _⟩
        · have hnone := nextAsset_of_stores_none hnext
          cases hnone.symm.trans hat'
        · cases hq
      · exact hne rfl

/-- A step that stores no file. -/
theorem AssetInv.of_quiet (hs : AssetInv s)
    (hdisc : ∀ (k : Nat) (run : Run), s.runs[k]? = some run → run.Disciplined)
    (h : Transition s a t) (hissued : IssuedInv s) (hfiles : t.files = s.files)
    (hkept : ∀ (k : Nat) (run' : Run) x, t.runs[k]? = some run' →
      run'.runner.attaching = some x →
      ∃ run, s.runs[k]? = some run ∧ run.runner.attaching = some x) : AssetInv t := by
  have hholds : ∀ key size, t.Holds key size ↔ s.Holds key size := by
    intro key size
    unfold Sys.Holds
    rw [hfiles]
  have hrecord := recordMove_of_transition hissued h
  refine ⟨?_, ?_, ?_, ?_, ?_, ?_⟩
  · intro jobId record' hget'
    rcases assets_of_recordMove (hrecord jobId) hget' with hassets | ⟨record, hget, hassets⟩ |
      ⟨k₀, run₀, asset₀, next, aborting, record, hrun₀, hr₀, -, hget, hassets⟩
    · simp [hassets]
    · rw [hassets]
      exact hs.nodup jobId record hget
    · have hunlisted := lists_eq_false_iff.mp
        (hs.attaching k₀ run₀ jobId asset₀ hrun₀ (by rw [hr₀]; rfl)).2 record hget
      rw [hassets, List.map_append, List.map_singleton]
      refine List.nodup_append.mpr ⟨hs.nodup jobId record hget, List.nodup_singleton _, ?_⟩
      intro name hname name' hname'
      obtain ⟨x, hx, rfl⟩ := List.mem_map.mp hname
      rw [List.mem_singleton.mp hname']
      exact hunlisted x hx
  · intro jobId record' hget' asset hmem
    rw [hholds]
    rcases assets_of_recordMove (hrecord jobId) hget' with hassets | ⟨record, hget, hassets⟩ |
      ⟨k₀, run₀, asset₀, next, aborting, record, hrun₀, hr₀, -, hget, hassets⟩
    · simp [hassets] at hmem
    · rw [hassets] at hmem
      exact hs.listed jobId record hget asset hmem
    · rw [hassets] at hmem
      rcases List.mem_append.mp hmem with hmem | hmem
      · exact hs.listed jobId record hget asset hmem
      · rw [List.mem_singleton.mp hmem]
        exact (hs.attaching k₀ run₀ jobId asset₀ hrun₀ (by rw [hr₀]; rfl)).1
  · intro k run' jobId asset hrun' hat'
    obtain ⟨run, hrun, hat⟩ := hkept k run' _ hrun' hat'
    exact ⟨(hholds _ _).mpr (hs.attaching k run jobId asset hrun hat).1,
      hs.unlisted_of_transition hdisc hrun hat hrun' hat' (hrecord jobId)⟩
  · intro k₁ k₂ run₁ run₂ jobId a₁ a₂ hrun₁ hrun₂ ha₁ ha₂ he
    obtain ⟨run₃, hrun₃, ha₃⟩ := hkept k₁ run₁ _ hrun₁ ha₁
    obtain ⟨run₄, hrun₄, ha₄⟩ := hkept k₂ run₂ _ hrun₂ ha₂
    exact hs.distinct k₁ k₂ run₃ run₄ jobId a₁ a₂ hrun₃ hrun₄ ha₃ ha₄ he
  · intro i key asset hhd'
    rw [hholds]
    rcases handler_of_transition h hhd' with hhd | ⟨now, uuid, hd, u, rfl, hhd, hstep, -⟩ |
      ⟨request, rfl, hd_eq⟩
    · exact hs.reading i key asset hhd
    · obtain ⟨jobId, record, hget, hmem, rfl⟩ := reads_of_stepHandler hstep
      exact hs.listed jobId record hget asset hmem
    · cases request <;> cases hd_eq
  · intro i contentType contentLength body hhd'
    rcases handler_of_transition h hhd' with hhd | ⟨now, uuid, hd, u, rfl, hhd, hstep, -⟩ |
      ⟨request, rfl, hd_eq⟩
    · exact hs.replied i contentType contentLength body hhd
    · obtain ⟨key, asset, rfl, hget, rfl⟩ := replies_of_stepHandler hstep
      obtain ⟨bytes, hbytes, hlen⟩ := hs.reading i key asset hhd
      rw [hget] at hbytes
      cases hbytes
      rw [hlen]
    · cases request <;> cases hd_eq

theorem assetInv_of_reach {permits : Nat} {timeoutVar : Option String}
    (h : Reach step StoresFresh (Sys.initial permits timeoutVar) s) : AssetInv s := by
  have hinv := h.invariant
    (I := fun s => Reach step StoresFresh (Sys.initial permits timeoutVar) s ∧ AssetInv s)
    ⟨.refl, AssetInv.initial permits timeoutVar⟩ ?_
  · exact hinv.2
  rintro s a t ⟨hreach, hs⟩ hG hstep
  refine ⟨.tail hreach hG hstep, ?_⟩
  have hdisc := disciplined_of_reach hreach
  have htr := transition_of_step hstep
  cases assetMove_of_transition hdisc htr with
  | quiet hfiles hkept =>
      exact hs.of_quiet hdisc htr (issuedInv_of_reach hreach) hfiles hkept
  | put k run' key bytes asset hkey hput hjobs hhandlers hruns hat hname hsize =>
      exact hs.of_put (hG key hkey) hput hjobs hhandlers hruns hat hname hsize

/-- **Assets and files agree** in every state of a run in which runners store only
under unclaimed keys: a finished job lists each name once, every listed asset has
a file of the recorded size, and every download announces the length of its body. -/
theorem finishedAssets_sound {permits : Nat} {timeoutVar : Option String}
    (h : Reach step StoresFresh (Sys.initial permits timeoutVar) s) :
    (∀ jobId record, s.jobs.get jobId = .ok record → record.status = .finished →
      (record.assets.map (·.name)).Nodup ∧
      ∀ asset ∈ record.assets, s.Holds ⟨record.id, asset.name⟩ asset.size) ∧
    ∀ contentType contentLength body,
      .replied (.file contentType contentLength body) ∈ s.handlers →
        contentLength = toString body.length := by
  have hinv := assetInv_of_reach h
  refine ⟨?_, ?_⟩
  · intro jobId record hget _
    refine ⟨hinv.nodup jobId record hget, ?_⟩
    rw [InMemoryJobStore.id_of_get hget]
    exact hinv.listed jobId record hget
  · intro contentType contentLength body hmem
    obtain ⟨i, hi⟩ := List.getElem?_of_mem hmem
    exact hinv.replied i contentType contentLength body hi

/-- A job is run to its end twice, with these results, and its first asset is
downloaded. -/
def runTwice (first second : SyncResult) (assetName : String) : List Action :=
  [.arrive (.createJob none none sampleProcess), .handler 0 0 "job",
    .arrive (.startProcessing "job"),
    .handler 1 0 "", .handler 1 0 "", .handler 1 0 "", .handler 1 0 "",
    .supervisor 0 0 false] ++ runnerSteps 21 0 first ++
  [.supervisor 0 0 false, .supervisor 0 0 false, .supervisor 0 0 false,
    .arrive (.startProcessing "job"),
    .handler 2 0 "", .handler 2 0 "", .handler 2 0 "", .handler 2 0 "",
    .supervisor 1 0 false] ++ runnerSteps 21 1 second ++
  [.arrive (.downloadAsset "job" assetName), .handler 3 0 "", .handler 3 0 ""]

/-- A finished job that is started again and returns a longer document lists its
name twice, and the download announces the old length. -/
theorem runTwice_wrongLength :
    ∃ s record body, Reach step AnyStep (Sys.initial 4 none) s ∧
      s.jobs.get "job" = .ok record ∧ record.status = .finished ∧
      ¬ (record.assets.map (·.name)).Nodup ∧
      s.handlers[3]? = some (.replied (.file "application/json" "1" body)) ∧
      body.length = 2 := by
  have h : ∃ s, runAll step (Sys.initial 4 none)
      (runTwice ⟨"application/json", [0x33]⟩ ⟨"application/json", [0x31, 0x32]⟩ "result.json") =
        some s ∧ ∃ record body, s.jobs.get "job" = .ok record ∧ record.status = .finished ∧
          record.assets.map (·.name) = ["result.json", "result.json"] ∧
          s.handlers[3]? = some (.replied (.file "application/json" "1" body)) ∧
          body.length = 2 :=
    ⟨_, rfl, _, _, rfl, rfl, rfl, rfl, rfl⟩
  obtain ⟨s, hs, record, body, hget, hstatus, hnames, hreply, hlen⟩ := h
  refine ⟨s, record, body, reach_of_runAll .refl (allowed_anyStep _ _) hs, hget, hstatus, ?_,
    hreply, hlen⟩
  rw [hnames]
  decide

theorem finishedAssets_sound_twoFiles :
    ∃ s record, Reach step StoresFresh (Sys.initial 4 none) s ∧
      s.jobs.get "job" = .ok record ∧ record.assets.length = 2 ∧
      (record.assets.map (·.name)).Nodup ∧
      (∀ asset ∈ record.assets, s.Holds ⟨record.id, asset.name⟩ asset.size) ∧
      ∃ body, .replied (.file "application/json" "1" body) ∈ s.handlers ∧
        "1" = toString body.length := by
  have h : ∃ s, runAll step (Sys.initial 4 none)
      (runTwice ⟨"application/json", [0x33]⟩ ⟨"image/tiff", [0x49, 0x49]⟩ "result.json") =
        some s ∧ ∃ record body, s.jobs.get "job" = .ok record ∧ record.status = .finished ∧
          record.assets.length = 2 ∧
          s.handlers[3]? = some (.replied (.file "application/json" "1" body)) :=
    ⟨_, rfl, _, _, rfl, rfl, rfl, rfl⟩
  have hall : Allowed step StoresFresh (Sys.initial 4 none)
      (runTwice ⟨"application/json", [0x33]⟩ ⟨"image/tiff", [0x49, 0x49]⟩ "result.json") := by
    decide
  obtain ⟨s, hs, record, body, hget, hstatus, htwo, hreply⟩ := h
  have hreach := reach_of_runAll .refl hall hs
  obtain ⟨hassets, hlengths⟩ := finishedAssets_sound hreach
  obtain ⟨hnodup, hholds⟩ := hassets "job" record hget hstatus
  have hmem := List.mem_of_getElem? hreply
  exact ⟨s, record, hreach, hget, htwo, hnodup, hholds, body, hmem, hlengths _ _ _ hmem⟩

end OrbitOpenEO
