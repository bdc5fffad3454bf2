import OrbitOpenEO.JobService.StoredService

/-!
# What the service hands out

A result that was announced is handed out ever after, also by later processes, exactly if
the jobs do not outlive the process without the files (`resultsStay_iff`).  And what a job
hands out is an answer that `sync_compute` may give to the request that created it
(`delivers_sync_answer`).  Both hold whichever stores the service is given.
-/

namespace OrbitOpenEO

open Lib Lib.Program

variable {J : JobStoreBackend} {F : FileStoreBackend} {y z : StoredService J F} {s t : Sys}
variable {jobId : String} {asset : JobAsset} {record : JobRecord} {bytes : Bytes}

/-- A download of an asset that is listed goes on to read its file. -/
theorem Mirrors.next_downloadGet (h : Mirrors y s) (hget : s.jobs.get jobId = .ok record)
    (hnodup : (record.assets.map (·.name)).Nodup) (hmem : asset ∈ record.assets) (now : Nat)
    (uuid : String) : y.next now uuid (.downloadGet jobId asset.name) =
      some (.downloadRead ⟨jobId, asset.name⟩ asset) := by
  have hget' : (J.step y.jobs (.get jobId)).1.toRecord = .ok record :=
    (h.getJob_eq jobId).trans hget
  simp only [StoredService.next, Shell.askHandler, Option.map_some, Call.on, hget',
    find?_of_mem hnodup hmem, InMemoryJobStore.id_of_get hget]

/-- A download that reads a file sends its bytes. -/
theorem Mirrors.next_downloadRead (h : Mirrors y s) {key : FileKey} (hserved : F.Serves key.userId)
    (hbytes : s.files.get key = .ok bytes) (now : Nat) (uuid : String) :
    y.next now uuid (.downloadRead key asset) =
      some (.replied (.file asset.mediaType (toString asset.size) bytes)) := by
  have hreply : (F.store.answer y.files (.get key)).1 = .ok (.bytes bytes) := by
    rw [(F.answer_like h.files (.get key) hserved rfl).1, InMemoryFileStore.step, hbytes]
    rfl
  simp only [StoredService.next, Shell.askHandler, Option.map_some, Call.on, hreply]
  rfl

/-- **What was announced is handed out ever after**, with the same bytes, until the job is gone:
manifests of the job announce it, a download that begins finds it, and one that is under way sends
these bytes and their number. -/
def ResultsStay (J : JobStoreBackend) (F : FileStoreBackend) : Prop :=
  ∀ permits timeoutVar (y : StoredService J F) jobId asset doc,
    Reach StoredService.live StoredService.Careful
      (StoredService.initial J F permits timeoutVar) y →
    y.getResults jobId = .ok doc → Announces jobId asset doc →
    ∃ bytes : Bytes, bytes.length = asset.size ∧
      ∀ z, Reach StoredService.live StoredService.Careful y z →
        ((∀ u, Reach StoredService.live StoredService.Careful z u →
            u.getJob jobId = .error (.notFound jobId)) ∨
          (∀ doc, z.getResults jobId = .ok doc → Announces jobId asset doc) ∧
          ∀ now uuid, z.next now uuid (.downloadGet jobId asset.name) =
            some (.downloadRead ⟨jobId, asset.name⟩ asset)) ∧
        ∀ (i : Nat) x, z.shell.handlers[i]? = some (.downloadRead ⟨jobId, asset.name⟩ x) →
          ∀ now uuid, z.next now uuid (.downloadRead ⟨jobId, asset.name⟩ x) =
            some (.replied (.file x.mediaType (toString bytes.length) bytes))

/-- The run in memory that goes with a run. -/
theorem Mirrors.reach_careful (h : Mirrors y s)
    (hreach : Reach StoredService.live StoredService.Careful y z) :
    ∃ t, Reach (live (backing J F)) LivesFresh s t ∧ Mirrors z t := by
  obtain ⟨t, ht, hm⟩ :=
    h.reach (A := fun _ _ => True) (hreach.mono fun _ _ hc => ⟨hc, trivial⟩)
  exact ⟨t, ht.mono fun _ _ hG => hG.1, hm⟩

theorem resultsStay (hb : J.lasts = true → F.lasts = true) : ResultsStay J F := by
  intro permits timeoutVar y jobId asset doc hreach hdoc hannounced
  obtain ⟨s, hs_reach, hm⟩ := (Mirrors.initial permits timeoutVar).reach_careful hreach
  have hs := settled_of_live hb (Settled.initial permits timeoutVar) hs_reach
  have hdoc' : manifest jobId (s.jobs.get jobId) = .ok doc := hm.getJob_eq jobId ▸ hdoc
  obtain ⟨bytes, hlen, hkept⟩ := kept_of_announces hs hdoc' hannounced
  refine ⟨bytes, hlen, fun z hz => ?_⟩
  obtain ⟨t, ht, hmt⟩ := hm.reach_careful hz
  obtain ⟨hst, hkt⟩ := kept_of_live hb hs hkept ht
  refine ⟨?_, ?_⟩
  · rcases hkt.listed with hgone | ⟨record, hget, hmem, -⟩
    · refine .inl fun u hu => ?_
      obtain ⟨r, hr, hmr⟩ := hmt.reach_careful hu
      rw [hmr.getJob_eq]
      exact (gone_of_live hb hst hgone hr).2
    · have hnodup := hst.assets.nodup jobId record hget
      refine .inr ⟨fun doc hdoc => ?_, hmt.next_downloadGet hget hnodup hmem⟩
      unfold StoredService.getResults at hdoc
      rw [hmt.getJob_eq, hget] at hdoc
      simp only [manifest] at hdoc
      split_ifs at hdoc
      cases hdoc
      exact (announced_iff hget hnodup).mpr hmem
  · intro i x hhd now uuid
    have hhd' : t.handlers[i]? = some (.downloadRead ⟨jobId, asset.name⟩ x) := by
      rwa [hmt.shell] at hhd
    have hbytes := hkt.reading i x hhd'
    obtain ⟨bytes', hbytes', hlen'⟩ := hst.assets.reading i _ x hhd'
    rw [hbytes] at hbytes'
    cases hbytes'
    rw [hlen']
    exact hmt.next_downloadRead (hmt.tame.served _ (hmt.tame.reading i _ x hhd')) hbytes now uuid

/-- A job is created and run to its end. -/
def runOnce (title : Option String) (process : Json) (result : SyncResult) : List Action :=
  [.arrive (.createJob title none process), .handler 0 0 "job",
    .arrive (.startProcessing "job"),
    .handler 1 0 "", .handler 1 0 "", .handler 1 0 "", .handler 1 0 "",
    .supervisor 0 0 false] ++ runnerSteps 21 0 result

/-- A step on unclaimed files, when the clock stands at zero and the users are these. -/
def SimpleLife (users : List String) (s : Sys) (l : Life) : Prop :=
  LivesFresh s l ∧ l.now = 0 ∧ ∀ userId ∈ s.shell.brings l, userId ∈ users

instance (users : List String) (s : Sys) (l : Life) : Decidable (SimpleLife users s l) :=
  inferInstanceAs (Decidable (_ ∧ _ ∧ ∀ userId ∈ s.shell.brings l, userId ∈ users))

theorem SimpleLife.careful {users : List String} (hserves : ∀ userId ∈ users, F.Serves userId)
    {l : Life} (h : SimpleLife users s l) :
    LivesFresh s l ∧ l.now < 2 ^ 64 ∧ ∀ userId ∈ s.shell.brings l, F.Serves userId := by
  obtain ⟨hfresh, hnow, husers⟩ := h
  refine ⟨hfresh, ?_, fun userId hu => hserves userId (husers userId hu)⟩
  rw [hnow]
  decide

/-- A simple run in memory goes with a run on the stores. -/
theorem Mirrors.exists_reach_simple (h : Mirrors y s) {users : List String}
    (hserves : ∀ userId ∈ users, F.Serves userId) {ls : List Life}
    (hallowed : Allowed (live (backing J F)) (SimpleLife users) s ls)
    (hrun : runAll (live (backing J F)) s ls = some t) :
    ∃ z, Reach StoredService.live StoredService.Careful y z ∧ Mirrors z t := by
  obtain ⟨z, hz, hm⟩ := h.exists_reach (A := fun _ _ => True)
    ((reach_of_runAll .refl hallowed hrun).mono fun _ _ hG => ⟨hG.careful hserves, trivial⟩)
  exact ⟨z, hz.mono fun _ _ hG => hG.1, hm⟩

/-- With jobs that outlive the process and files that do not, the results of a finished job are
announced after a restart, and there is no file any more. -/
theorem not_resultsStay_lostFiles (hjobs : J.lasts = true) (hfiles : F.lasts = false) :
    ¬ ResultsStay J F := by
  intro hstay
  have hbacking : backing J F = ⟨true, false⟩ := by
    unfold backing
    rw [hjobs, hfiles]
  have hserves : ∀ userId ∈ ["job"], F.Serves userId := fun userId _ =>
    F.serves_of_lost hfiles userId
  have hrun : ∃ s record t, runAll (live ⟨true, false⟩) (Sys.initial 4 none)
        ((runOnce none sampleProcess ⟨"application/json", [0x33]⟩).map .serve) = some s ∧
      s.jobs.get "job" = .ok record ∧ record.status = .finished ∧
      record.assets = [⟨"result.json", "application/json", 1⟩] ∧
      Allowed (live ⟨true, false⟩) (SimpleLife ["job"]) s
        [.restart 0 4 none true, .serve (.arrive (.downloadAsset "job" "result.json")),
          .serve (.handler 0 0 "")] ∧
      runAll (live ⟨true, false⟩) s [.restart 0 4 none true,
        .serve (.arrive (.downloadAsset "job" "result.json")), .serve (.handler 0 0 "")] = some t ∧
      t.handlers[0]? = some (.downloadRead ⟨"job", "result.json"⟩
        ⟨"result.json", "application/json", 1⟩) ∧
      t.files.get ⟨"job", "result.json"⟩ = .error .notFound :=
    ⟨_, _, _, rfl, rfl, rfl, rfl, by decide, rfl, rfl, rfl⟩
  rw [← hbacking] at hrun
  obtain ⟨s, record, t, hs, hget, hfinished, hassets, hallowed, ht, hhd, hanswer⟩ := hrun
  have hfirst : Allowed (live (backing J F)) (SimpleLife ["job"]) (Sys.initial 4 none)
      ((runOnce none sampleProcess ⟨"application/json", [0x33]⟩).map .serve) := by
    rw [hbacking]
    decide
  obtain ⟨y, hy, hmy⟩ :=
    (Mirrors.initial (J := J) (F := F) 4 none).exists_reach_simple hserves hfirst hs
  obtain ⟨z, hz, hmz⟩ := hmy.exists_reach_simple hserves hallowed ht
  have hnodup : (record.assets.map (·.name)).Nodup := by
    rw [hassets]
    decide
  have hdoc : y.getResults "job" = .ok (resultItem record) := by
    unfold StoredService.getResults
    rw [hmy.getJob_eq, hget]
    exact if_pos hfinished
  have hannounced : Announces "job" ⟨"result.json", "application/json", 1⟩ (resultItem record) :=
    (announced_iff hget hnodup).mpr (hassets ▸ List.mem_cons_self)
  obtain ⟨bytes, -, hstays⟩ := hstay 4 none y "job" _ _ hy hdoc hannounced
  have hhd' : z.shell.handlers[0]? = some (.downloadRead ⟨"job", "result.json"⟩
      ⟨"result.json", "application/json", 1⟩) := by rwa [hmz.shell]
  have hsent := (hstays z hz).2 0 _ hhd' 0 ""
  have hreply : (F.store.answer z.files (.get ⟨"job", "result.json"⟩)).1 = .error .notFound := by
    rw [(F.answer_like hmz.files (.get ⟨"job", "result.json"⟩)
      (F.serves_of_lost hfiles "job") rfl).1, InMemoryFileStore.step, hanswer]
    rfl
  simp only [StoredService.next, Shell.askHandler, Option.map_some, Call.on, hreply] at hsent
  cases hsent

/-- **Results stay exactly if the jobs do not outlive the process without the files.** -/
theorem resultsStay_iff (J : JobStoreBackend) (F : FileStoreBackend) :
    ResultsStay J F ↔ (J.lasts = true → F.lasts = true) := by
  refine ⟨fun h hjobs => ?_, resultsStay⟩
  cases hfiles : F.lasts with
  | true => rfl
  | false => exact absurd h (not_resultsStay_lostFiles hjobs hfiles)

/-- **A job delivers what the synchronous route answers.**  In every state of a service that may
end at any moment, each job was created by an accepted request, and every download from it is,
call by call, an answer that `sync_compute` may give to that request. -/
theorem delivers_sync_answer {P : Petgraph} {serdeText : Json → String}
    {evaluate : ProcessGraph → Except ExecError SyncResult → Prop} {permits : Nat}
    {timeoutVar : Option String} (hb : J.lasts = true → F.lasts = true)
    (h : Reach StoredService.live
      (fun u l => u.Careful l ∧ Orderly (MayAnswer serdeText evaluate)
        (fun title description process =>
          ∃ body, createJob P serdeText body = .ok ⟨title, description, process⟩) u.shell.runs l)
      (StoredService.initial J F permits timeoutVar) y) (hget : y.getJob jobId = .ok record) :
    ∃ body job, createJob P serdeText body = .ok job ∧ record.process = job.process ∧
      (((job.process.get "process").bind fun p => p.get "process_graph") = none →
        ∀ asset ∈ record.assets, ∃ answer, MayAnswer serdeText evaluate body answer ∧
          ∀ now uuid,
            y.next now uuid (.downloadGet jobId asset.name) =
              some (.downloadRead ⟨jobId, asset.name⟩ asset) ∧
            y.next now uuid (.downloadRead ⟨jobId, asset.name⟩ asset) =
              some (.replied (syncCompute answer))) := by
  obtain ⟨s, hs_reach, hm⟩ := (Mirrors.initial permits timeoutVar).reach h
  have hinv := orderlyInv_of_live hb hs_reach
  have hget' : s.jobs.get jobId = .ok record := (hm.getJob_eq jobId).symm.trans hget
  obtain ⟨title, description, body, hcreated⟩ := hinv.traced.stored jobId record hget'
  refine ⟨body, _, hcreated, rfl, fun hnested asset hmem => ?_⟩
  obtain ⟨result, hanswer, hasset, hbytes⟩ := hinv.rendered.listed jobId record hget' asset hmem
  refine ⟨.ok result, (mayAnswer_process hcreated hnested).mp hanswer, fun now uuid => ⟨?_, ?_⟩⟩
  · exact hm.next_downloadGet hget' (hinv.settled.assets.nodup jobId record hget') hmem now uuid
  · have hserves := hm.tame.served _ (hinv.settled.issued.present jobId record hget')
    rw [hm.next_downloadRead hserves hbytes now uuid, hasset]
    rfl

/-- The sum is created as a job and run to its end, a user uploads a file and takes it out again,
and then the next process starts. -/
def sumLives : List Life :=
  (runOnce (some "sum") sumJob.process ⟨"application/json", [0x33]⟩).map Life.serve ++
    [.file (.upload "alice" "notes.txt" [0x41]), .file (.delete "alice" "notes.txt"),
      .restart 0 4 none true]

/-- A runner calls the executor with a body that has a graph. -/
def Sys.asksForGraph (s : Sys) : Life → Bool
  | .serve (.runner k _ _ _) => (s.runs[k]?).all fun run =>
      match run.runner with
      | .live (.call (.runSync body _) _) _ =>
          match parseGraph (fun _ => "") body with
          | .ok _ => true
          | .error _ => false
      | _ => true
  | _ => true

theorem allowed_sumLives : Allowed (live ⟨true, true⟩)
    (fun s l => SimpleLife ["job", "alice"] s l ∧ s.asksForGraph l = true) (Sys.initial 4 none)
    sumLives := by
  decide

/-- An executor that answers every graph with the same document. -/
def sameDocument (_ : ProcessGraph) (answer : Except ExecError SyncResult) : Prop :=
  answer = .ok ⟨"application/json", [0x33]⟩

/-- The process belongs to a request that is accepted. -/
def CreatedBySources (title description : Option String) (process : Json) : Prop :=
  ∃ body, createJob Petgraph.bySources (fun _ => "") body = .ok ⟨title, description, process⟩

theorem orderly_sumLives : Allowed (live ⟨true, true⟩)
    (fun s l => SimpleLife ["job", "alice"] s l ∧
      Orderly (MayAnswer (fun _ => "") sameDocument) CreatedBySources s.runs l)
    (Sys.initial 4 none) sumLives := by
  refine allowed_iff.mpr fun before l after u heq hu => ?_
  obtain ⟨hsimple, hasks⟩ := allowed_iff.mp allowed_sumLives before l after u heq hu
  have hmem : l ∈ sumLives := heq ▸ List.mem_append_right _ List.mem_cons_self
  simp only [sumLives, runOnce, runnerSteps, List.mem_append, List.mem_map, List.mem_cons,
    List.not_mem_nil, or_false, List.mem_replicate] at hmem
  refine ⟨hsimple, ?_, ?_⟩
  · rintro title description process rfl
    have hsum : title = some "sum" ∧ description = none ∧ process = sumJob.process := by
      simpa using hmem
    obtain ⟨rfl, rfl, rfl⟩ := hsum
    exact ⟨sumRequest, createJob_sumRequest⟩
  · rintro k now answer elapsed run body timeoutSecs next aborting rfl hrun hlive
    have hanswer : k = 0 ∧ now = 0 ∧ answer = .ok ⟨"application/json", [0x33]⟩ ∧
        elapsed = .finite 1 := by simpa using hmem
    unfold Sys.asksForGraph at hasks
    dsimp only at hasks
    rw [hrun, Option.all_some, hlive] at hasks
    dsimp only at hasks
    unfold MayAnswer
    split at hasks
    · next graph hparse =>
        rw [hparse]
        exact hanswer.2.2.1
    · cases hasks

/-- A job database. -/
def sampleDatabase : JobStoreBackend :=
  .sqlite SqliteJobStore.plainSqlite (SqliteJobStore.OrderByCreated.stable _)

/-- A files directory for two users. -/
def sampleDirectory : FileStoreBackend :=
  .objectStore PathParser.byParts ObjectStore.assoc {userId | userId ∈ ["job", "alice"]}
    (by decide : ∀ u ∈ ["job", "alice"], Canonical u)
    (by decide : ∀ u ∈ ["job", "alice"], ∀ v ∈ ["job", "alice"],
      splitSlash u.toList <+: splitSlash v.toList → u = v)

theorem delivers_sync_answer_sum :
    ∃ (y : StoredService sampleDatabase sampleDirectory) (asset : JobAsset) (body : Json)
      (answer : Except ExecError SyncResult),
      Reach StoredService.live StoredService.Careful (.initial _ _ 4 none) y ∧
      MayAnswer (fun _ => "") sameDocument body answer ∧
      y.next 0 "" (.downloadGet "job" "result.json") =
        some (.downloadRead ⟨"job", "result.json"⟩ asset) ∧
      y.next 0 "" (.downloadRead ⟨"job", "result.json"⟩ asset) =
        some (.replied (syncCompute answer)) := by
  have hrun : ∃ s record, runAll (live ⟨true, true⟩) (Sys.initial 4 none) sumLives = some s ∧
      s.jobs.get "job" = .ok record ∧ record.process = sumJob.process ∧
      record.assets = [⟨"result.json", "application/json", 1⟩] := ⟨_, _, rfl, rfl, rfl, rfl⟩
  obtain ⟨s, record, hs, hget, hprocess, hassets⟩ := hrun
  have hserves : ∀ userId ∈ ["job", "alice"], sampleDirectory.Serves userId := fun _ hu => hu
  obtain ⟨y, hy, hm⟩ :=
    (Mirrors.initial (J := sampleDatabase) (F := sampleDirectory) 4 none).exists_reach
      (A := Orderly (MayAnswer (fun _ => "") sameDocument) CreatedBySources)
      ((reach_of_runAll .refl orderly_sumLives hs).mono fun _ _ hG =>
        ⟨hG.1.careful hserves, hG.2⟩)
  have hget' : y.getJob "job" = .ok record := (hm.getJob_eq "job").trans hget
  obtain ⟨body, job, -, hjob, hdelivers⟩ := delivers_sync_answer (fun _ => rfl) hy hget'
  have hnested : ((job.process.get "process").bind fun p => p.get "process_graph") = none := by
    rw [← hjob, hprocess]
    rfl
  obtain ⟨answer, hanswer, hdownload⟩ := hdelivers hnested _ (hassets ▸ List.mem_cons_self)
  obtain ⟨hlisted, hsent⟩ := hdownload 0 ""
  exact ⟨y, _, body, answer, hy.mono fun _ _ hG => hG.1, hanswer, hlisted, hsent⟩

end OrbitOpenEO
