import OrbitOpenEO.FileRoutes
import OrbitOpenEO.JobService.StoreCalls
import OrbitOpenEO.MapUpdate
import OrbitOpenEO.ProcessIds

/-!
# Results across restarts

`main` opens the job database that `--db-url` names and the directory that
`--files-dir` names; a store that is not given one begins empty with the process.
Jobs that were queued or running when the last process ended are turned into
failed ones.  A `Life` is a step of the service, a request to the routes under `/files`,
which act on the same store, or a restart at any moment, so that a run of `live` is the
service with all its crashes.

`get_results` announces the assets of a finished job.  What was announced once is kept
with its bytes until the job is deleted, if runners and file requests leave alone what
belongs to an asset and a job database comes with a files directory (`Kept.of_live`).
-/

namespace OrbitOpenEO

open Lib

/-- The stores that outlive a process: `--db-url` is given, `--files-dir` is given. -/
structure Backing where
  dbUrl : Bool
  filesDir : Bool

/-- What a new process finds.  `recover_orphans` may fail, and then the server goes on. -/
def Sys.restart (b : Backing) (now permits : Nat) (timeoutVar : Option String) (recovered : Bool)
    (s : Sys) : Sys :=
  { Sys.initial permits timeoutVar with
    issued := s.issued
    jobs :=
      if b.dbUrl then if recovered then (s.jobs.recoverOrphans now).2 else s.jobs else .empty
    files := if b.filesDir then s.files else .empty }

/-- A step of the service, a request for a file, or the end of the process and the start of the
next one. -/
inductive Life where
  | serve (a : Action)
  | file (request : FilesRequest)
  | restart (now permits : Nat) (timeoutVar : Option String) (recovered : Bool)

/-- One step of a service that may end at any moment. -/
def live (b : Backing) (s : Sys) : Life → Option Sys
  | .serve a => step s a
  | .file request => some { s with files := (FileBackend.memory.handle s.files request).2 }
  | .restart now permits timeoutVar recovered =>
      some (s.restart b now permits timeoutVar recovered)

/-- The key under which a file is stored or taken out in this step. -/
def Sys.writesKey (s : Sys) : Life → Option FileKey
  | .serve a => s.putKey a
  | .file request => request.changes
  | .restart _ _ _ _ => none

/-- Runners and file requests act only under unclaimed keys. -/
def LivesFresh (s : Sys) (l : Life) : Prop := ∀ key ∈ s.writesKey l, s.unclaimed key = true

instance (s : Sys) (l : Life) : Decidable (LivesFresh s l) :=
  inferInstanceAs (Decidable (∀ key ∈ s.writesKey l, s.unclaimed key = true))

/-- An entry of the `assets` of the manifest. -/
def itemAsset (id : String) (asset : JobAsset) : Json :=
  .obj [("file:size", .num (.posInt asset.size)),
    ("href", .str ("/jobs/" ++ id ++ "/results/" ++ asset.name)),
    ("roles", .arr [.str "data"]), ("type", .str asset.mediaType)]

/-- A link of the manifest. -/
def itemLink (href rel : String) : Json :=
  .obj [("href", .str href), ("rel", .str rel), ("type", .str "application/json")]

/-- The manifest of a job, a STAC Item without a footprint. -/
def resultItem (record : JobRecord) : Json :=
  .obj [("assets", .obj (BTreeMap.ofEntries
      (record.assets.map fun a => (a.name, itemAsset record.id a))).entries),
    ("bbox", .null), ("geometry", .null), ("id", .str record.id),
    ("links", .arr [itemLink ("/jobs/" ++ record.id ++ "/results") "self",
      itemLink ("/jobs/" ++ record.id) "canonical"]),
    ("properties", .obj [("datetime", .str (iso8601 record.updated)),
      ("title", (record.title.map Json.str).getD .null)]),
    ("stac_version", .str "1.0.0"), ("type", .str "Feature")]

/-- `get_results`, for what the store gives back: the manifest, or the answer without one. -/
def manifest (jobId : String) : Except JobError JobRecord → Except Response Json
  | .error e => .error (jobProblem e)
  | .ok record =>
      if record.status = .finished then .ok (resultItem record)
      else .error (.problem 404 "JobNotFinished"
        (some ("job '" ++ jobId ++ "' is in state '" ++ record.status.asStr ++ "'")))

/-- A manifest that announces an asset of the job. -/
def Announces (jobId : String) (asset : JobAsset) (doc : Json) : Prop :=
  (doc.get "assets").bind (·.get asset.name) = some (itemAsset jobId asset)

variable {b : Backing} {s t : Sys} {a : Action} {jobId : String} {asset : JobAsset}
variable {record : JobRecord} {bytes : Bytes} {now permits : Nat} {timeoutVar : Option String}
variable {recovered : Bool}

/-- A name that is listed once is announced as it is listed, and nothing else is. -/
theorem announced_iff (hget : s.jobs.get jobId = .ok record)
    (hnodup : (record.assets.map (·.name)).Nodup) :
    Announces jobId asset (resultItem record) ↔ asset ∈ record.assets := by
  have hkeys : ((record.assets.map fun a => (a.name, itemAsset record.id a)).map Prod.fst) =
      record.assets.map (·.name) := by
    rw [List.map_map]
    rfl
  change (BTreeMap.ofEntries
    (record.assets.map fun a => (a.name, itemAsset record.id a))).get asset.name = _ ↔ _
  rw [BTreeMap.get_ofEntries_eq_some_iff (hkeys ▸ hnodup), InMemoryJobStore.id_of_get hget,
    List.mem_map]
  constructor
  · rintro ⟨x, hx, heq⟩
    -- the entry shows the name, the size and the type, which is all of an asset
    simp only [itemAsset, Prod.mk.injEq, Json.obj.injEq, List.cons.injEq, Json.num.injEq,
      Number.posInt.injEq, Json.str.injEq] at heq
    obtain ⟨hname, ⟨-, hsize⟩, -, -, ⟨-, htype⟩, -⟩ := heq
    cases x
    cases asset
    dsimp only at hname hsize htype
    subst hname hsize htype
    exact hx
  · intro hx
    exact ⟨asset, hx, rfl⟩

/-- Looking for an element that the change leaves recognisable. -/
theorem find?_map_of_same {α : Type} {p : α → Bool} {f : α → α} (h : ∀ x, p (f x) = p x)
    (l : List α) : (l.map f).find? p = (l.find? p).map f := by
  rw [List.find?_map, show p ∘ f = p from funext h]

theorem get_recoverOrphans {store : InMemoryJobStore} (id : String) :
    (store.recoverOrphans now).2.get id =
      (store.get id).map fun r =>
        if r.status.isActive then ({ r with status := .error } : JobRecord).stamp now else r := by
  unfold InMemoryJobStore.recoverOrphans InMemoryJobStore.get
  dsimp only
  rw [find?_map_of_same]
  · cases store.inner.find? (fun r => r.id == id) <;> rfl
  · intro r
    split <;> rfl

/-- The records after a restart are those of the database, but for their status. -/
theorem get_restart {record' : JobRecord}
    (h : (s.restart b now permits timeoutVar recovered).jobs.get jobId = .ok record') :
    b.dbUrl = true ∧ ∃ record, s.jobs.get jobId = .ok record ∧
      record'.process = record.process ∧ record'.assets = record.assets := by
  unfold Sys.restart at h
  dsimp only at h
  split_ifs at h with hdb hrec
  · refine ⟨hdb, ?_⟩
    rw [get_recoverOrphans] at h
    cases hget : s.jobs.get jobId with
    | error e =>
        rw [hget] at h
        cases h
    | ok record =>
        rw [hget] at h
        simp only [Except.map, Except.ok.injEq] at h
        subst h
        refine ⟨record, rfl, ?_⟩
        split_ifs <;> exact ⟨rfl, rfl⟩
  · exact ⟨hdb, record', h, rfl, rfl⟩
  · cases h

/-- The invariants of a service with restarts. -/
structure Settled (s : Sys) : Prop where
  assets : AssetInv s
  issued : IssuedInv s
  disciplined : ∀ (k : Nat) (run : Run), s.runs[k]? = some run → run.Disciplined

theorem Settled.initial (permits : Nat) (timeoutVar : Option String) :
    Settled (Sys.initial permits timeoutVar) where
  assets := AssetInv.initial permits timeoutVar
  issued := IssuedInv.initial permits timeoutVar
  disciplined := by simp [Sys.initial]

/-- A call keeps the discipline of a runner. -/
theorem stores_call {q : RunCall} {next : RunReply q → RunProgram RunOutcome}
    (h : ∃ pending, Stores jobId pending (.call q next)) (r : RunReply q) :
    ∃ pending, Stores jobId pending (next r) := by
  obtain ⟨pending, hstores⟩ := h
  rcases stores_next hstores r with hnext | ⟨_, _, _, hnext⟩
  · exact ⟨_, hnext⟩
  · exact ⟨_, hnext⟩

theorem Settled.of_step (hs : Settled s) (hfresh : StoresFresh s a) (h : step s a = some t) :
    Settled t where
  assets := by
    have htr := transition_of_step h
    cases assetMove_of_transition hs.disciplined htr with
    | quiet hfiles hkept =>
        exact hs.assets.of_quiet hs.disciplined htr hs.issued hfiles hkept
    | put k run' key bytes asset hkey hput hjobs hhandlers hruns hat hname hsize =>
        exact hs.assets.of_put (hfresh key hkey) hput hjobs hhandlers hruns hat hname hsize
  issued := hs.issued.of_transition (transition_of_step h)
  disciplined := by
    intro k run' hrun'
    rcases run_of_transition (transition_of_step h) hrun' with ⟨run, hrun, hev⟩ |
      ⟨_, _, _, _, record, -, -, -, -, rfl⟩
    · exact (hs.disciplined k run hrun).of_evolves (fun _ _ _ _ => ⟨none, stores_runJob _ _ _ _⟩)
        (fun _ _ _ => stores_call) hev
    · intro program aborting hr
      cases hr

theorem claimed_of_listed (hget : s.jobs.get jobId = .ok record) (hmem : asset ∈ record.assets) :
    s.unclaimed ⟨jobId, asset.name⟩ ≠ true := by
  intro h
  exact lists_eq_false_iff.mp (unclaimed_iff.mp h).1 record hget asset hmem rfl

theorem claimed_of_reading {key : FileKey} {i : Nat} {x : JobAsset}
    (hhd : s.handlers[i]? = some (.downloadRead key x)) : s.unclaimed key ≠ true := by
  intro h
  exact (unclaimed_iff.mp h).2.2 _ (List.mem_of_getElem? hhd) rfl

theorem claimed_of_attaching {k : Nat} {run : Run} (hrun : s.runs[k]? = some run)
    (hat : run.runner.attaching = some (jobId, asset)) :
    s.unclaimed ⟨jobId, asset.name⟩ ≠ true := by
  intro h
  exact (unclaimed_iff.mp h).2.1 run (List.mem_of_getElem? hrun) jobId asset hat rfl

/-- The file of another key is as it was. -/
theorem get_handle {request : FilesRequest} {files : InMemoryFileStore} {key : FileKey}
    (hne : key ∉ request.changes) :
    (FileBackend.memory.handle files request).2.get key = files.get key := by
  rw [FileBackend.handle_snd, FileBackend.answer_memory]
  cases request with
  | list userId => rfl
  | download userId path => rfl
  | upload userId path body =>
      have hkey : key ≠ ⟨userId, path⟩ := fun h => hne (congrArg some h.symm)
      dsimp only [FilesRequest.op, InMemoryFileStore.step]
      cases hput : files.put ⟨userId, path⟩ body with
      | error e => rfl
      | ok files' => exact (InMemoryFileStore.get_put hput key).trans (if_neg hkey)
  | delete userId path =>
      have hkey : key ≠ ⟨userId, path⟩ := fun h => hne (congrArg some h.symm)
      dsimp only [FilesRequest.op, InMemoryFileStore.step]
      cases hdelete : files.delete ⟨userId, path⟩ with
      | error e => rfl
      | ok files' => exact (InMemoryFileStore.get_delete hdelete key).trans (if_neg hkey)

/-- A request for an unclaimed file leaves the claimed ones. -/
theorem get_handle_of_claimed {request : FilesRequest} (hfresh : LivesFresh s (.file request))
    {key : FileKey} (hclaim : s.unclaimed key ≠ true) :
    (FileBackend.memory.handle s.files request).2.get key = s.files.get key :=
  get_handle fun hkey => hclaim (hfresh key hkey)

/-- Changing files that nobody claims. -/
theorem AssetInv.of_files (hs : AssetInv s) {files : InMemoryFileStore}
    (hkept : ∀ key, s.unclaimed key ≠ true → files.get key = s.files.get key) :
    AssetInv { s with files := files } := by
  have hholds : ∀ key size, s.unclaimed key ≠ true → s.Holds key size →
      ({ s with files := files } : Sys).Holds key size := by
    rintro key size hclaim ⟨bytes, hget, hlen⟩
    exact ⟨bytes, (hkept key hclaim).trans hget, hlen⟩
  refine ⟨hs.nodup, ?_, ?_, hs.distinct, ?_, hs.replied⟩
  · intro jobId record hget asset hmem
    exact hholds _ _ (claimed_of_listed hget hmem) (hs.listed jobId record hget asset hmem)
  · intro k run jobId asset hrun hat
    obtain ⟨hheld, hunlisted⟩ := hs.attaching k run jobId asset hrun hat
    exact ⟨hholds _ _ (claimed_of_attaching hrun hat) hheld, hunlisted⟩
  · intro i key asset hhd
    exact hholds _ _ (claimed_of_reading hhd) (hs.reading i key asset hhd)

theorem Settled.of_file (hs : Settled s) {request : FilesRequest}
    (hfresh : LivesFresh s (.file request)) :
    Settled { s with files := (FileBackend.memory.handle s.files request).2 } where
  assets := hs.assets.of_files fun _ hclaim => get_handle_of_claimed hfresh hclaim
  issued := ⟨hs.issued.present, hs.issued.discarded⟩
  disciplined := hs.disciplined

/-- A restart on both stores, or without the database. -/
theorem Settled.restart (hs : Settled s) (hb : b.dbUrl = true → b.filesDir = true) :
    Settled (s.restart b now permits timeoutVar recovered) where
  assets := by
    refine ⟨?_, ?_, ?_, ?_, ?_, ?_⟩
    · intro jobId record' hget'
      obtain ⟨-, record, hget, -, hassets⟩ := get_restart hget'
      rw [hassets]
      exact hs.assets.nodup jobId record hget
    · intro jobId record' hget' asset hmem
      obtain ⟨hdb, record, hget, -, hassets⟩ := get_restart hget'
      obtain ⟨bytes, hbytes, hlen⟩ := hs.assets.listed jobId record hget asset (hassets ▸ hmem)
      refine ⟨bytes, ?_, hlen⟩
      rw [Sys.restart, if_pos (hb hdb)]
      exact hbytes
    · simp [Sys.restart, Sys.initial]
    · simp [Sys.restart, Sys.initial]
    · simp [Sys.restart, Sys.initial]
    · simp [Sys.restart, Sys.initial]
  issued := by
    refine ⟨?_, ?_⟩
    · intro jobId record' hget'
      obtain ⟨-, record, hget, -⟩ := get_restart hget'
      exact hs.issued.present jobId record hget
    · simp [Sys.restart, Sys.initial]
  disciplined := by simp [Sys.restart, Sys.initial]

theorem Settled.of_live (hs : Settled s) (hb : b.dbUrl = true → b.filesDir = true) {l : Life}
    (hfresh : LivesFresh s l) (h : live b s l = some t) : Settled t := by
  cases l with
  | serve a => exact hs.of_step hfresh h
  | file request =>
      cases h
      exact hs.of_file hfresh
  | restart now permits timeoutVar recovered =>
      cases h
      exact hs.restart hb

/-- The job is gone for good: its id was drawn, and no record has it. -/
def Sys.Gone (s : Sys) (jobId : String) : Prop :=
  jobId ∈ s.issued ∧ s.jobs.get jobId = .error (.notFound jobId)

/-- An asset and its bytes are kept as long as the job is, and for the downloads under way. -/
structure Kept (s : Sys) (jobId : String) (asset : JobAsset) (bytes : Bytes) : Prop where
  listed : s.Gone jobId ∨ ∃ record, s.jobs.get jobId = .ok record ∧ asset ∈ record.assets ∧
    s.files.get ⟨jobId, asset.name⟩ = .ok bytes
  reading : ∀ (i : Nat) x, s.handlers[i]? = some (.downloadRead ⟨jobId, asset.name⟩ x) →
    s.files.get ⟨jobId, asset.name⟩ = .ok bytes

theorem eq_notFound_of_get {store : InMemoryJobStore} {e : JobError}
    (h : store.get jobId = .error e) : e = .notFound jobId := by
  unfold InMemoryJobStore.get at h
  split at h
  · cases h
  · cases h
    rfl

/-- A file with a claim on it stays as it is. -/
theorem files_of_claimed {key : FileKey} (hmove : AssetMove s a t) (hfresh : StoresFresh s a)
    (hclaim : s.unclaimed key ≠ true) : t.files.get key = s.files.get key := by
  cases hmove with
  | quiet hfiles _ =>
      rw [hfiles]
  | put k run' key' bytes asset hkey hput _ _ _ _ _ _ =>
      rw [InMemoryFileStore.get_put hput, if_neg]
      rintro rfl
      exact hclaim (hfresh key hkey)

/-- The record of a job after a step, for someone who holds one of its assets. -/
theorem listed_of_recordMove (hissued : IssuedInv s) (htr : Transition s a t)
    (hget : s.jobs.get jobId = .ok record) (hmem : asset ∈ record.assets) :
    t.Gone jobId ∨ ∃ record', t.jobs.get jobId = .ok record' ∧ asset ∈ record'.assets := by
  have hin := issued_of_transition htr (hissued.present jobId record hget)
  cases recordMove_of_transition hissued htr jobId with
  | same hsame =>
      exact .inr ⟨record, hsame ▸ hget, hmem⟩
  | removed e hgone =>
      rw [eq_notFound_of_get hgone] at hgone
      exact .inl ⟨hin, hgone⟩
  | created _ hnew _ _ _ =>
      exact absurd (hissued.present jobId record hget) hnew
  | updated record₀ record₁ hget₀ hget₁ _ hassets =>
      cases hget.symm.trans hget₀
      exact .inr ⟨record₁, hget₁, hassets ▸ hmem⟩
  | wrote _ record₀ record₁ hget₀ hget₁ _ hassets _ =>
      cases hget.symm.trans hget₀
      exact .inr ⟨record₁, hget₁, hassets ▸ hmem⟩
  | attached _ _ _ _ _ record₀ record₁ _ _ hget₀ hget₁ _ hassets _ _ =>
      cases hget.symm.trans hget₀
      exact .inr ⟨record₁, hget₁, hassets ▸ List.mem_append_left _ hmem⟩

theorem Sys.Gone.of_transition (hissued : IssuedInv s) (hgone : s.Gone jobId)
    (htr : Transition s a t) : t.Gone jobId := by
  refine ⟨issued_of_transition htr hgone.1, ?_⟩
  cases recordMove_of_transition hissued htr jobId with
  | same hsame =>
      rw [hsame, hgone.2]
  | removed e hremoved =>
      rw [hremoved, eq_notFound_of_get hremoved]
  | created _ hnew _ _ _ =>
      exact absurd hgone.1 hnew
  | updated _ _ hget _ _ _ =>
      cases hgone.2.symm.trans hget
  | wrote _ _ _ hget _ _ _ _ =>
      cases hgone.2.symm.trans hget
  | attached _ _ _ _ _ _ _ _ _ hget _ _ _ _ _ =>
      cases hgone.2.symm.trans hget

theorem Kept.of_step (hk : Kept s jobId asset bytes) (hs : Settled s) (hfresh : StoresFresh s a)
    (h : step s a = some t) : Kept t jobId asset bytes := by
  have htr := transition_of_step h
  have hmove := assetMove_of_transition hs.disciplined htr
  refine ⟨?_, ?_⟩
  · rcases hk.listed with hgone | ⟨record, hget, hmem, hbytes⟩
    · exact .inl (hgone.of_transition hs.issued htr)
    · rcases listed_of_recordMove hs.issued htr hget hmem with hgone | ⟨record', hget', hmem'⟩
      · exact .inl hgone
      · refine .inr ⟨record', hget', hmem', ?_⟩
        rw [files_of_claimed hmove hfresh (claimed_of_listed hget hmem), hbytes]
  · intro i x hhd'
    rcases handler_of_transition htr hhd' with hhd | ⟨now, uuid, hd, u, rfl, hhd, hstep, -⟩ |
      ⟨request, rfl, hd_eq⟩
    · rw [files_of_claimed hmove hfresh (claimed_of_reading hhd)]
      exact hk.reading i x hhd
    · -- the download has just found the asset listed
      obtain ⟨j, record, hget, hmem, hkey⟩ := reads_of_stepHandler hstep
      obtain ⟨rfl, hname⟩ := FileKey.mk.inj hkey
      rcases hk.listed with hgone | ⟨_, _, _, hbytes⟩
      · cases hgone.2.symm.trans hget
      · rw [hname] at hbytes ⊢
        rw [files_of_claimed hmove hfresh (claimed_of_listed hget hmem), hbytes]
    · cases request <;> cases hd_eq

theorem Kept.restart (hk : Kept s jobId asset bytes) (hs : Settled s)
    (hb : b.dbUrl = true → b.filesDir = true) :
    Kept (s.restart b now permits timeoutVar recovered) jobId asset bytes := by
  refine ⟨?_, by simp [Sys.restart, Sys.initial]⟩
  have hin : jobId ∈ s.issued := by
    rcases hk.listed with hgone | ⟨record, hget, -⟩
    · exact hgone.1
    · exact hs.issued.present jobId record hget
  cases hget' : (s.restart b now permits timeoutVar recovered).jobs.get jobId with
  | error e =>
      rw [eq_notFound_of_get hget'] at hget'
      exact .inl ⟨hin, hget'⟩
  | ok record' =>
      obtain ⟨hdb, record, hget, -, hassets⟩ := get_restart hget'
      rcases hk.listed with hgone | ⟨record₀, hget₀, hmem, hbytes⟩
      · cases hgone.2.symm.trans hget
      · cases hget₀.symm.trans hget
        refine .inr ⟨record', rfl, hassets ▸ hmem, ?_⟩
        rw [Sys.restart, if_pos (hb hdb)]
        exact hbytes

theorem Kept.of_file (hk : Kept s jobId asset bytes) {request : FilesRequest}
    (hfresh : LivesFresh s (.file request)) :
    Kept { s with files := (FileBackend.memory.handle s.files request).2 } jobId asset
      bytes := by
  refine ⟨?_, ?_⟩
  · rcases hk.listed with hgone | ⟨record, hget, hmem, hbytes⟩
    · exact .inl hgone
    · refine .inr ⟨record, hget, hmem, ?_⟩
      exact (get_handle_of_claimed hfresh (claimed_of_listed hget hmem)).trans hbytes
  · intro i x hhd
    exact (get_handle_of_claimed hfresh (claimed_of_reading hhd)).trans (hk.reading i x hhd)

theorem Kept.of_live (hk : Kept s jobId asset bytes) (hs : Settled s)
    (hb : b.dbUrl = true → b.filesDir = true) {l : Life} (hfresh : LivesFresh s l)
    (h : live b s l = some t) : Kept t jobId asset bytes := by
  cases l with
  | serve a => exact hk.of_step hs hfresh h
  | file request =>
      cases h
      exact hk.of_file hfresh
  | restart now permits timeoutVar recovered =>
      cases h
      exact hk.restart hs hb

theorem Sys.Gone.of_live (hgone : s.Gone jobId) (hs : Settled s) {l : Life}
    (h : live b s l = some t) : t.Gone jobId := by
  cases l with
  | serve a => exact hgone.of_transition hs.issued (transition_of_step h)
  | file request =>
      cases h
      exact hgone
  | restart now permits timeoutVar recovered =>
      cases h
      refine ⟨hgone.1, ?_⟩
      cases hget' : (s.restart b now permits timeoutVar recovered).jobs.get jobId with
      | error e =>
          rw [eq_notFound_of_get hget']
      | ok record' =>
          obtain ⟨-, record, hget, -⟩ := get_restart hget'
          cases hgone.2.symm.trans hget

theorem settled_of_live (hb : b.dbUrl = true → b.filesDir = true) (hs : Settled s)
    (h : Reach (live b) LivesFresh s t) : Settled t :=
  h.invariant hs fun _ _ _ hi hfresh hstep => hi.of_live hb hfresh hstep

theorem kept_of_live (hb : b.dbUrl = true → b.filesDir = true) (hs : Settled s)
    (hk : Kept s jobId asset bytes) (h : Reach (live b) LivesFresh s t) :
    Settled t ∧ Kept t jobId asset bytes :=
  h.invariant (I := fun u => Settled u ∧ Kept u jobId asset bytes) ⟨hs, hk⟩
    fun _ _ _ hi hfresh hstep => ⟨hi.1.of_live hb hfresh hstep, hi.2.of_live hi.1 hb hfresh hstep⟩

theorem gone_of_live (hb : b.dbUrl = true → b.filesDir = true) (hs : Settled s)
    (hgone : s.Gone jobId) (h : Reach (live b) LivesFresh s t) : t.Gone jobId :=
  (h.invariant (I := fun u => Settled u ∧ u.Gone jobId) ⟨hs, hgone⟩
    fun _ _ _ hi hfresh hstep => ⟨hi.1.of_live hb hfresh hstep, hi.2.of_live hi.1 hstep⟩).2

/-- What is announced is listed, and there is a file for it. -/
theorem kept_of_announces (hs : Settled s) {doc : Json}
    (hdoc : manifest jobId (s.jobs.get jobId) = .ok doc) (h : Announces jobId asset doc) :
    ∃ bytes : Bytes, bytes.length = asset.size ∧ Kept s jobId asset bytes := by
  cases hget : s.jobs.get jobId with
  | error e =>
      rw [hget] at hdoc
      cases hdoc
  | ok record =>
      rw [hget] at hdoc
      simp only [manifest] at hdoc
      split_ifs at hdoc with hfinished
      cases hdoc
      have hmem := (announced_iff hget (hs.assets.nodup jobId record hget)).mp h
      obtain ⟨bytes, hbytes, hlen⟩ := hs.assets.listed jobId record hget asset hmem
      exact ⟨bytes, hlen, .inr ⟨record, hget, hmem, hbytes⟩, fun _ _ _ => hbytes⟩

/-- A name that is listed once is found with its asset. -/
theorem find?_of_mem {assets : List JobAsset} (hnodup : (assets.map (·.name)).Nodup)
    (hmem : asset ∈ assets) : assets.find? (fun x => x.name == asset.name) = some asset := by
  induction assets with
  | nil => cases hmem
  | cons x assets ih =>
      obtain ⟨hx, hnodup⟩ := List.nodup_cons.mp hnodup
      rcases List.mem_cons.mp hmem with rfl | hmem
      · exact List.find?_cons_of_pos (p := fun x : JobAsset => x.name == asset.name)
          (beq_self_eq_true _)
      · rw [List.find?_cons_of_neg, ih hnodup hmem]
        intro heq
        refine hx (List.mem_map.mpr ⟨asset, hmem, ?_⟩)
        exact (eq_of_beq heq).symm

end OrbitOpenEO
