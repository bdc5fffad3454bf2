import OrbitOpenEO.FileRoutes

/-!
# Who sees whose files

A store keeps bytes in places.  A key leads to a place, and a listing shows what lies
in some of them.  Users and jobs are isolated exactly if no one sees a place where
another one stores (`FileLayout.isolated_iff`).  In memory a place is a key; in an
object store it is a path, and a user may see below the own directory.
-/

namespace OrbitOpenEO

open Lib

/-- How a backend keeps its files: where a key leads, which places a listing shows, and
what lies in each. -/
structure FileLayout {σ : Type} (B : FileBackend σ) (Place : Type) where
  locate : FileKey → Except FileError Place
  Shows : String → Place → String → Prop
  content : σ → Place → Option Bytes
  Valid : σ → Prop
  valid_empty : Valid B.empty
  content_empty : ∀ l, content B.empty l = none
  put_eq_ok : ∀ {key bytes s t}, Valid s → B.put key bytes s = .ok t → Valid t ∧
    ∃ l, locate key = .ok l ∧ content t l = some bytes ∧ ∀ l', l' ≠ l → content t l' = content s l'
  put_refused : ∀ {key bytes s e}, B.put key bytes s = .error e → locate key = .error e
  get_eq : ∀ key s, B.get key s = locate key >>= fun l =>
    match content s l with
    | some bytes => .ok bytes
    | none => .error .notFound
  delete_eq_ok : ∀ {key s t}, Valid s → B.delete key s = .ok t → Valid t ∧
    ∃ l, locate key = .ok l ∧ ∀ l', l' ≠ l → content t l' = content s l'
  delete_refused : ∀ {key s e}, B.delete key s = .error e → locate key = .error e
  mem_listed : ∀ {userId s e}, Valid s → (e ∈ B.listed userId s ↔
    ∃ l bytes, content s l = some bytes ∧ Shows userId l e.path ∧ e.size = bytes.length)

namespace FileLayout

section Layout

variable {σ Place : Type} {B : FileBackend σ} (L : FileLayout B Place)

/-- The user stores there under some path. -/
def Stores (userId : String) (l : Place) : Prop := ∃ path, L.locate ⟨userId, path⟩ = .ok l

/-- The user stores there, or finds it in a listing. -/
def Sees (userId : String) (l : Place) : Prop := L.Stores userId l ∨ ∃ path, L.Shows userId l path

/-- No user sees a result, or a place where another user stores. -/
structure Apart (users jobs : Set String) : Prop where
  results : ∀ u ∈ users, ∀ j ∈ jobs, ∀ contentType l,
    L.locate (FileBackend.resultKey j contentType) = .ok l → ¬ L.Sees u l
  users : ∀ u ∈ users, ∀ v ∈ users, u ≠ v → ∀ l, L.Stores u l → ¬ L.Sees v l

variable {L} {s t : σ}

theorem content_handle (hs : L.Valid s) (r : FilesRequest) :
    L.Valid (B.handle s r).2 ∧
      ∀ l, ¬ L.Stores r.userId l → L.content (B.handle s r).2 l = L.content s l := by
  cases r with
  | list userId => exact ⟨hs, fun _ _ => rfl⟩
  | download userId path => exact ⟨hs, fun _ _ => rfl⟩
  | upload userId path body =>
      dsimp only [FileBackend.handle, FilesRequest.userId]
      unfold FileBackend.uploadFile
      cases hput : B.put ⟨userId, path⟩ body s with
      | error e => exact ⟨hs, fun _ _ => rfl⟩
      | ok t =>
          obtain ⟨ht, l, hl, _, hothers⟩ := L.put_eq_ok hs hput
          refine ⟨ht, fun l' hl' => hothers l' ?_⟩
          rintro rfl
          exact hl' ⟨path, hl⟩
  | delete userId path =>
      dsimp only [FileBackend.handle, FilesRequest.userId]
      unfold FileBackend.deleteFile
      cases hdelete : B.delete ⟨userId, path⟩ s with
      | error e => exact ⟨hs, fun _ _ => rfl⟩
      | ok t =>
          obtain ⟨ht, l, hl, hothers⟩ := L.delete_eq_ok hs hdelete
          refine ⟨ht, fun l' hl' => hothers l' ?_⟩
          rintro rfl
          exact hl' ⟨path, hl⟩

theorem content_storeResult (hs : L.Valid s) (jobId contentType : String) (body : Bytes) :
    L.Valid (B.storeResult jobId contentType body s) ∧
      ∀ l, L.locate (FileBackend.resultKey jobId contentType) ≠ .ok l →
        L.content (B.storeResult jobId contentType body s) l = L.content s l := by
  unfold FileBackend.storeResult
  cases hput : B.put (FileBackend.resultKey jobId contentType) body s with
  | error e => exact ⟨hs, fun _ _ => rfl⟩
  | ok t =>
      obtain ⟨ht, l, hl, _, hothers⟩ := L.put_eq_ok hs hput
      refine ⟨ht, fun l' hl' => hothers l' ?_⟩
      rintro rfl
      exact hl' hl

theorem valid_of_reached {users jobs : Set String} (h : B.Reached users jobs s) : L.Valid s := by
  refine Reach.invariant h L.valid_empty fun t event u ht _ hstep => ?_
  cases event with
  | request r =>
      cases hstep
      exact (content_handle ht r).1
  | result jobId contentType body =>
      cases hstep
      exact (content_storeResult ht jobId contentType body).1

theorem get_congr {key : FileKey} (h : ∀ l, L.locate key = .ok l → L.content s l = L.content t l) :
    B.get key s = B.get key t := by
  rw [L.get_eq, L.get_eq]
  cases hl : L.locate key with
  | error e => rfl
  | ok l =>
      dsimp only [bind, Except.bind]
      rw [h l hl]

/-- A response is made of what its user sees. -/
theorem sameResponse_of_sees (hs : L.Valid s) (ht : L.Valid t) {r : FilesRequest}
    (h : ∀ l, L.Sees r.userId l → L.content s l = L.content t l) :
    SameResponse (B.handle s r).1 (B.handle t r).1 := by
  cases r with
  | list userId =>
      intro e
      rw [L.mem_listed hs, L.mem_listed ht]
      refine exists_congr fun l => exists_congr fun bytes => and_congr_left fun hshows => ?_
      rw [h l (Or.inr ⟨_, hshows.1⟩)]
  | download userId path =>
      dsimp only [FileBackend.handle]
      unfold FileBackend.downloadFile
      have hget : B.get ⟨userId, path⟩ s = B.get ⟨userId, path⟩ t :=
        get_congr fun l hl => h l (Or.inl ⟨path, hl⟩)
      rw [hget]
      exact SameResponse.refl _
  | upload userId path body =>
      dsimp only [FileBackend.handle]
      unfold FileBackend.uploadFile
      cases hput : B.put ⟨userId, path⟩ body s with
      | ok s' =>
          obtain ⟨_, l, hl, _⟩ := L.put_eq_ok hs hput
          cases hput' : B.put ⟨userId, path⟩ body t with
          | ok t' => exact SameResponse.refl _
          | error e => cases hl.symm.trans (L.put_refused hput')
      | error e =>
          have hl := L.put_refused hput
          cases hput' : B.put ⟨userId, path⟩ body t with
          | ok t' =>
              obtain ⟨_, l, hl', _⟩ := L.put_eq_ok ht hput'
              cases hl.symm.trans hl'
          | error e' =>
              cases hl.symm.trans (L.put_refused hput')
              exact SameResponse.refl _
  | delete userId path =>
      dsimp only [FileBackend.handle]
      unfold FileBackend.deleteFile
      cases hdelete : B.delete ⟨userId, path⟩ s with
      | ok s' =>
          obtain ⟨_, l, hl, _⟩ := L.delete_eq_ok hs hdelete
          cases hdelete' : B.delete ⟨userId, path⟩ t with
          | ok t' => exact SameResponse.refl _
          | error e => cases hl.symm.trans (L.delete_refused hdelete')
      | error e =>
          have hl := L.delete_refused hdelete
          cases hdelete' : B.delete ⟨userId, path⟩ t with
          | ok t' =>
              obtain ⟨_, l, hl', _⟩ := L.delete_eq_ok ht hdelete'
              cases hl.symm.trans hl'
          | error e' =>
              cases hl.symm.trans (L.delete_refused hdelete')
              exact SameResponse.refl _

/-- What is put where a key leads lies there. -/
theorem exists_put {key : FileKey} {l : Place} (bytes : Bytes) (hl : L.locate key = .ok l) :
    ∃ t, B.put key bytes B.empty = .ok t ∧ L.Valid t ∧ L.content t l = some bytes := by
  cases hput : B.put key bytes B.empty with
  | error e => cases hl.symm.trans (L.put_refused hput)
  | ok t =>
      obtain ⟨ht, l', hl', hbytes, _⟩ := L.put_eq_ok L.valid_empty hput
      cases hl.symm.trans hl'
      exact ⟨t, rfl, ht, hbytes⟩

/-- What lies in one place only is seen in a response. -/
theorem exists_response_differs (ht : L.Valid t) {userId : String} {l : Place} {bytes : Bytes}
    (hbytes : L.content t l = some bytes) (hsees : L.Sees userId l) :
    ∃ r : FilesRequest, r.userId = userId ∧
      ¬ SameResponse (B.handle t r).1 (B.handle B.empty r).1 := by
  rcases hsees with ⟨path, hl⟩ | ⟨path, hshows⟩
  · refine ⟨.download userId path, rfl, ?_⟩
    dsimp only [FileBackend.handle]
    unfold FileBackend.downloadFile
    rw [L.get_eq, L.get_eq, hl]
    dsimp only [bind, Except.bind]
    rw [hbytes, L.content_empty]
    intro hsame
    cases hsame
  · refine ⟨.list userId, rfl, fun hsame => ?_⟩
    have hmem := (L.mem_listed (e := ⟨path, bytes.length⟩) ht).mpr ⟨l, bytes, hbytes, hshows, rfl⟩
    obtain ⟨l', bytes', hempty, _⟩ := (L.mem_listed L.valid_empty).mp ((hsame _).mp hmem)
    rw [L.content_empty] at hempty
    cases hempty

variable {users jobs : Set String}

theorem isolated_of_apart (h : L.Apart users jobs) : B.Isolated users jobs where
  resultsKept := fun s r jobId contentType hs hr hjob => by
    obtain ⟨_, hkept⟩ := content_handle (valid_of_reached (L := L) hs) r
    refine get_congr fun l hl => hkept l fun hstores => ?_
    exact h.results _ hr _ hjob _ _ hl (Or.inl hstores)
  resultsUnread := fun s r jobId contentType body hs hr hjob => by
    have hvalid := valid_of_reached (L := L) hs
    obtain ⟨hvalid', hkept⟩ := content_storeResult hvalid jobId contentType body
    refine sameResponse_of_sees hvalid' hvalid fun l hsees => hkept l fun hl => ?_
    exact h.results _ hr _ hjob _ _ hl hsees
  usersApart := fun s r r' hs hr hr' hne => by
    have hvalid := valid_of_reached (L := L) hs
    obtain ⟨hvalid', hkept⟩ := content_handle hvalid r
    refine sameResponse_of_sees hvalid' hvalid fun l hsees => hkept l fun hstores => ?_
    exact h.users _ hr _ hr' hne l hstores hsees

theorem apart_of_isolated (h : B.Isolated users jobs) : L.Apart users jobs where
  results := fun u hu j hj contentType l hl hsees => by
    obtain ⟨t, hput, ht, hbytes⟩ := exists_put [] hl
    obtain ⟨r, rfl, hdiffers⟩ := exists_response_differs ht hbytes hsees
    have hstored : B.storeResult j contentType [] B.empty = t := by
      unfold FileBackend.storeResult
      rw [hput]
    have hsame := h.resultsUnread B.empty r j contentType [] .refl hu hj
    rw [hstored] at hsame
    exact hdiffers hsame
  users := fun u hu v hv hne l hstores hsees => by
    obtain ⟨path, hl⟩ := hstores
    obtain ⟨t, hput, ht, hbytes⟩ := exists_put [] hl
    obtain ⟨r, rfl, hdiffers⟩ := exists_response_differs ht hbytes hsees
    have hstored : (B.handle B.empty (.upload u path [])).2 = t := by
      dsimp only [FileBackend.handle]
      unfold FileBackend.uploadFile
      rw [hput]
    have hsame := h.usersApart B.empty (.upload u path []) r .refl hu hv hne
    rw [hstored] at hsame
    exact hdiffers hsame

/-- **Isolation is a matter of places**: users and jobs are isolated if and only if no
one sees where another one stores. -/
theorem isolated_iff : B.Isolated users jobs ↔ L.Apart users jobs :=
  ⟨apart_of_isolated, isolated_of_apart⟩

end Layout

end FileLayout

theorem eq_error_of_bind_ok {ε α β : Type} {x : Except ε α} {f : α → β} {e : ε}
    (h : (x >>= fun a => .ok (f a)) = .error e) : x = .error e := by
  cases x with
  | error e' =>
      cases h
      rfl
  | ok a => cases h

/-- In memory a file lies under its key. -/
def FileLayout.memory : FileLayout FileBackend.memory FileKey where
  locate key := validatePath key.path >>= fun _ => .ok key
  Shows userId l path := l = ⟨userId, path⟩
  content store key := store.entries.lookup key
  Valid := InMemoryFileStore.Sorted
  valid_empty := InMemoryFileStore.sorted_empty
  content_empty _ := rfl
  put_eq_ok := by
    intro key bytes s t hs hput
    obtain ⟨_, hvalid, ht⟩ := bind_eq_ok_iff.mp hput
    cases ht
    refine ⟨InMemoryFileStore.sorted_insert key bytes hs, key, by rw [hvalid]; rfl, ?_, ?_⟩
    · rw [InMemoryFileStore.lookup_insert, if_pos rfl]
    · intro l hl
      rw [InMemoryFileStore.lookup_insert, if_neg hl]
  put_refused := by
    intro key bytes s e hput
    rw [eq_error_of_bind_ok hput]
    rfl
  get_eq key s := by
    dsimp only [FileBackend.memory]
    unfold InMemoryFileStore.get
    cases validatePath key.path <;> rfl
  delete_eq_ok := by
    intro key s t hs hdelete
    obtain ⟨_, hvalid, ht⟩ := bind_eq_ok_iff.mp hdelete
    cases ht
    refine ⟨List.Pairwise.filter _ hs, key, by rw [hvalid]; rfl, fun l hl => ?_⟩
    rw [lookup_filter_ne, if_neg hl]
  delete_refused := by
    intro key s e hdelete
    rw [eq_error_of_bind_ok hdelete]
    rfl
  mem_listed := by
    intro userId s e hs
    refine (InMemoryFileStore.mem_list hs).trans ?_
    constructor
    · rintro ⟨bytes, hlookup, hsize⟩
      exact ⟨_, bytes, hlookup, rfl, hsize⟩
    · rintro ⟨_, bytes, hlookup, rfl, hsize⟩
      exact ⟨bytes, hlookup, hsize⟩

/-- In an object store a file lies under its path, and a user whose id is a path is
shown what lies below it. -/
def FileLayout.object {σ : Type} (P : PathParser) (S : ObjectStore σ) :
    FileLayout (FileBackend.object P S) ObjPath where
  locate := ObjectStoreBackend.keyToPath P
  Shows userId p path := Canonical userId ∧
    p.parts = splitSlash userId.toList ++ splitSlash path.toList
  content s p := S.get p s
  Valid _ := True
  valid_empty := trivial
  content_empty := S.get_empty
  put_eq_ok := by
    intro key bytes s t _ hput
    obtain ⟨p, hp, ht⟩ := bind_eq_ok_iff.mp hput
    cases ht
    refine ⟨trivial, p, hp, ?_, fun q hq => ?_⟩
    · rw [S.get_put, if_pos rfl]
    · rw [S.get_put, if_neg hq]
  put_refused := by
    intro key bytes s e hput
    exact eq_error_of_bind_ok hput
  get_eq key s := rfl
  delete_eq_ok := by
    intro key s t _ hdelete
    obtain ⟨p, hp, ht⟩ := bind_eq_ok_iff.mp hdelete
    cases ht
    refine ⟨trivial, p, hp, fun q hq => ?_⟩
    rw [S.get_delete, if_neg hq]
  delete_refused := by
    intro key s e hdelete
    exact eq_error_of_bind_ok hdelete
  mem_listed := by
    intro userId s e _
    unfold FileBackend.listed
    dsimp only [FileBackend.object]
    cases hlist : ObjectStoreBackend.list P S userId s with
    | ok entries =>
        dsimp only
        rw [ObjectStoreBackend.mem_list hlist]
        constructor
        · rintro ⟨hcanonical, p, bytes, hget, hparts, hsize⟩
          exact ⟨p, bytes, hget, ⟨hcanonical, hparts⟩, hsize⟩
        · rintro ⟨p, bytes, hget, ⟨hcanonical, hparts⟩, hsize⟩
          exact ⟨hcanonical, p, bytes, hget, hparts, hsize⟩
    | error err =>
        refine iff_of_false List.not_mem_nil ?_
        rintro ⟨_, _, _, ⟨hcanonical, _⟩, _⟩
        obtain ⟨entries, hok⟩ := ObjectStoreBackend.exists_list (P := P) (S := S) hcanonical s
        cases hlist.symm.trans hok

/-- The path under which an object store keeps a file. -/
def KeptAt (key : FileKey) (p : ObjPath) : Prop :=
  validatePath key.path = .ok () ∧ p.parts = homeParts key.userId ++ splitSlash key.path.toList

/-- A path at which the user has a file, or which lies below the user id, if that is a
path itself. -/
def InReach (userId : String) (p : ObjPath) : Prop :=
  (∃ path, KeptAt ⟨userId, path⟩ p) ∨
    Canonical userId ∧ ∃ more, more ≠ [] ∧ p.parts = splitSlash userId.toList ++ more

/-- No result, and no file of another user, is kept in the reach of a user. -/
structure SeparatePaths (users jobs : Set String) : Prop where
  results : ∀ u ∈ users, ∀ j ∈ jobs, ∀ contentType p,
    KeptAt (FileBackend.resultKey j contentType) p → ¬ InReach u p
  users : ∀ u ∈ users, ∀ v ∈ users, u ≠ v → ∀ path p, KeptAt ⟨u, path⟩ p → ¬ InReach v p

section Backends

variable {σ : Type} {P : PathParser} {S : ObjectStore σ} {users jobs : Set String}

theorem locate_memory_eq_ok {key l : FileKey} :
    FileLayout.memory.locate key = .ok l ↔ validatePath key.path = .ok () ∧ key = l := by
  refine bind_eq_ok_iff.trans ?_
  constructor
  · rintro ⟨_, hvalid, hl⟩
    exact ⟨hvalid, Except.ok.inj hl⟩
  · rintro ⟨hvalid, rfl⟩
    exact ⟨(), hvalid, rfl⟩

theorem apart_memory_iff : FileLayout.memory.Apart users jobs ↔ ∀ u ∈ users, u ∉ jobs := by
  have hsees : ∀ {u l}, FileLayout.memory.Sees u l → l.userId = u := by
    rintro u l (⟨path, hl⟩ | ⟨path, rfl⟩)
    · rw [← (locate_memory_eq_ok.mp hl).2]
    · rfl
  constructor
  · intro h u hu hjob
    have hvalid : validatePath (defaultAssetName "application/json") = .ok () := by decide
    have hl : FileLayout.memory.locate (FileBackend.resultKey u "application/json") =
      .ok (FileBackend.resultKey u "application/json") := locate_memory_eq_ok.mpr ⟨hvalid, rfl⟩
    exact h.results u hu u hjob "application/json" _ hl (Or.inl ⟨_, hl⟩)
  · intro h
    refine ⟨fun u hu j hj contentType l hl hs => ?_, fun u _ v _ hne l hstores hs => ?_⟩
    · rw [← (locate_memory_eq_ok.mp hl).2] at hs
      exact h u hu (hsees hs ▸ hj)
    · exact hne ((hsees (Or.inl hstores)).symm.trans (hsees hs))

theorem sees_object_iff {u : String} {p : ObjPath} :
    (FileLayout.object P S).Sees u p ↔ InReach u p := by
  refine or_congr (exists_congr fun path => ObjectStoreBackend.keyToPath_eq_ok) ?_
  constructor
  · rintro ⟨path, hcanonical, hparts⟩
    exact ⟨hcanonical, _, splitSlash_ne_nil _, hparts⟩
  · rintro ⟨hcanonical, more, hne, hparts⟩
    obtain ⟨path, hpath⟩ := exists_splitSlash_eq
      (fun part hpart => p.valid part (hparts ▸ List.mem_append_right _ hpart)) hne
    exact ⟨path, hcanonical, hpath ▸ hparts⟩

theorem apart_object_iff : (FileLayout.object P S).Apart users jobs ↔ SeparatePaths users jobs := by
  constructor
  · intro h
    refine ⟨fun u hu j hj contentType p hp hs => ?_, fun u hu v hv hne path p hp hs => ?_⟩
    · exact h.results u hu j hj contentType p (ObjectStoreBackend.keyToPath_eq_ok.mpr hp)
        (sees_object_iff.mpr hs)
    · exact h.users u hu v hv hne p ⟨path, ObjectStoreBackend.keyToPath_eq_ok.mpr hp⟩
        (sees_object_iff.mpr hs)
  · intro h
    refine ⟨fun u hu j hj contentType p hp hs => ?_, fun u hu v hv hne p hp hs => ?_⟩
    · exact h.results u hu j hj contentType p (ObjectStoreBackend.keyToPath_eq_ok.mp hp)
        (sees_object_iff.mp hs)
    · obtain ⟨path, hp⟩ := hp
      exact h.users u hu v hv hne path p (ObjectStoreBackend.keyToPath_eq_ok.mp hp)
        (sees_object_iff.mp hs)

/-- **When users and jobs are isolated**: in memory, if no user id is the id of a job; in
an object store, if no one's files are in the reach of another one. -/
theorem namespaces_isolated_iff (P : PathParser) (S : ObjectStore σ) (users jobs : Set String) :
    (FileBackend.memory.Isolated users jobs ↔ ∀ u ∈ users, u ∉ jobs) ∧
      ((FileBackend.object P S).Isolated users jobs ↔ SeparatePaths users jobs) :=
  ⟨FileLayout.isolated_iff.trans apart_memory_iff, FileLayout.isolated_iff.trans apart_object_iff⟩

end Backends

/-- The result of a job is deleted as a file of a user whose id is that of the job. -/
theorem result_deleted_as_file :
    ¬ FileBackend.memory.Isolated {"7c9e6679-7425-40de-944b-e07fc1f90ae7"}
      {"7c9e6679-7425-40de-944b-e07fc1f90ae7"} := by
  intro h
  have hreached : FileBackend.memory.Reached {"7c9e6679-7425-40de-944b-e07fc1f90ae7"}
      {"7c9e6679-7425-40de-944b-e07fc1f90ae7"}
      (FileBackend.memory.storeResult "7c9e6679-7425-40de-944b-e07fc1f90ae7" "image/tiff" [7]
        FileBackend.memory.empty) :=
    .tail (a := .result "7c9e6679-7425-40de-944b-e07fc1f90ae7" "image/tiff" [7]) .refl
      (Set.mem_singleton _) rfl
  have hkept := h.resultsKept _
    (.delete "7c9e6679-7425-40de-944b-e07fc1f90ae7" "result.tif")
    "7c9e6679-7425-40de-944b-e07fc1f90ae7" "image/tiff" hreached (Set.mem_singleton _)
    (Set.mem_singleton _)
  exact absurd hkept (by decide)

end OrbitOpenEO
