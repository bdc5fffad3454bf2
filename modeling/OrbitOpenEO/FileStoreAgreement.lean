import OrbitOpenEO.ObjectFileStore
import OrbitOpenEO.Lib.Run

/-!
# The two file stores side by side

Both stores answer the same operations.  They differ for user ids that are no object
paths, and for user ids of which one is a directory of the other; between all other
user ids they agree (`file_stores_agree_iff`).
-/

namespace OrbitOpenEO

open Lib

/-- An operation on a file store. -/
inductive FileOp where
  | put (key : FileKey) (bytes : Bytes)
  | get (key : FileKey)
  | delete (key : FileKey)
  | list (userId : String)

/-- The user an operation is for. -/
def FileOp.userId : FileOp → String
  | .put key _ => key.userId
  | .get key => key.userId
  | .delete key => key.userId
  | .list userId => userId

/-- What an accepted operation gives back. -/
inductive FileAnswer where
  | done
  | bytes (bytes : Bytes)
  | entries (entries : List FileEntry)
deriving DecidableEq

/-- The result of an operation. -/
abbrev FileReply := Except FileError FileAnswer

/-- A change of the store, which stays as it is if the operation is refused. -/
def changed {σ : Type} (s : σ) : Except FileError σ → FileReply × σ
  | .ok t => (.ok .done, t)
  | .error e => (.error e, s)

/-- One operation on an `InMemoryFileStore`. -/
def InMemoryFileStore.step (store : InMemoryFileStore) : FileOp → FileReply × InMemoryFileStore
  | .put key bytes => changed store (store.put key bytes)
  | .get key => ((store.get key).map .bytes, store)
  | .delete key => changed store (store.delete key)
  | .list userId => (.ok (.entries (store.list userId)), store)

/-- One operation on an `ObjectStoreBackend`. -/
def ObjectStoreBackend.step {σ : Type} (P : PathParser) (S : ObjectStore σ) (s : σ) :
    FileOp → FileReply × σ
  | .put key bytes => changed s (put P S key bytes s)
  | .get key => ((get P S key s).map .bytes, s)
  | .delete key => changed s (delete P S key s)
  | .list userId => ((list P S userId s).map .entries, s)

/-- The same bytes, and the same set of entries. -/
def SameAnswer : FileAnswer → FileAnswer → Prop
  | .done, .done => True
  | .bytes b, .bytes b' => b = b'
  | .entries es, .entries es' => ∀ e, e ∈ es ↔ e ∈ es'
  | _, _ => False

/-- Both stores accept, and with the same answer, or both refuse, or both find
nothing. -/
def SameReply : FileReply → FileReply → Prop
  | .ok a, .ok a' => SameAnswer a a'
  | .error e, .error e' => e = .notFound ↔ e' = .notFound
  | _, _ => False

theorem sameReply_self (reply : FileReply) : SameReply reply reply := by
  cases reply with
  | error e => exact Iff.rfl
  | ok a =>
      cases a with
      | done => trivial
      | bytes b => exact Eq.refl b
      | entries es => exact fun e => Iff.rfl

/-- The stores agree for the given users. -/
structure FileStoresAgree {σ : Type} (P : PathParser) (S : ObjectStore σ) (users : Set String) :
    Prop where
  replies : ∀ ops : List FileOp, (∀ op ∈ ops, op.userId ∈ users) →
    List.Forall₂ SameReply (replies InMemoryFileStore.step .empty ops)
      (replies (ObjectStoreBackend.step P S) S.empty ops)
  injective : ∀ (key key' : FileKey) (p : ObjPath), key.userId ∈ users → key'.userId ∈ users →
    ObjectStoreBackend.keyToPath P key = .ok p → ObjectStoreBackend.keyToPath P key' = .ok p →
      key = key'

/-- No user id is a directory of another one. -/
def PrefixFree (users : Set String) : Prop :=
  ∀ u ∈ users, ∀ v ∈ users, splitSlash u.toList <+: splitSlash v.toList → u = v

section Agreement

variable {σ : Type} {P : PathParser} {S : ObjectStore σ} {users : Set String}

open ObjectStoreBackend

/-- Below two directories there is no common file. -/
theorem PrefixFree.eq_of_append (h : PrefixFree users) {u v : String} (hu : u ∈ users)
    (hv : v ∈ users) {as bs : List (List Char)}
    (heq : splitSlash u.toList ++ as = splitSlash v.toList ++ bs) : u = v ∧ as = bs := by
  have huv : u = v := by
    rcases List.prefix_or_prefix_of_prefix (List.prefix_append _ as)
      (heq ▸ List.prefix_append _ bs) with hpre | hpre
    · exact h u hu v hv hpre
    · exact (h v hv u hu hpre).symm
  subst huv
  exact ⟨rfl, List.append_cancel_left heq⟩

theorem keyToPath_canonical {key : FileKey} (h : Canonical key.userId) {p : ObjPath} :
    keyToPath P key = .ok p ↔ validatePath key.path = .ok () ∧
      p.parts = splitSlash key.userId.toList ++ splitSlash key.path.toList := by
  rw [keyToPath_eq_ok, homeParts_canonical h]

theorem keyToPath_injective (hcanonical : ∀ u ∈ users, Canonical u) (hfree : PrefixFree users)
    {key key' : FileKey} {p : ObjPath} (hkey : key.userId ∈ users) (hkey' : key'.userId ∈ users)
    (h : keyToPath P key = .ok p) (h' : keyToPath P key' = .ok p) : key = key' := by
  obtain ⟨_, hparts⟩ := (keyToPath_canonical (hcanonical _ hkey)).mp h
  obtain ⟨_, hparts'⟩ := (keyToPath_canonical (hcanonical _ hkey')).mp h'
  obtain ⟨huser, hpath⟩ := hfree.eq_of_append hkey hkey' (hparts.symm.trans hparts')
  have hpath' := String.toList_injective (splitSlash_injective hpath)
  cases key
  cases key'
  rw [FileKey.mk.injEq]
  exact ⟨huser, hpath'⟩

/-- The object store holds the files of the other one. -/
structure Represents (P : PathParser) (S : ObjectStore σ) (users : Set String)
    (store : InMemoryFileStore) (s : σ) : Prop where
  sorted : store.Sorted
  accepted : ∀ key bytes, store.entries.lookup key = some bytes →
    validatePath key.path = .ok () ∧ key.userId ∈ users
  stored : ∀ p bytes, S.get p s = some bytes ↔
    ∃ key, store.entries.lookup key = some bytes ∧ keyToPath P key = .ok p

theorem represents_empty : Represents P S users .empty S.empty where
  sorted := InMemoryFileStore.sorted_empty
  accepted := fun _ _ h => by cases h
  stored := fun p bytes => by
    rw [S.get_empty]
    constructor
    · intro h
      cases h
    · rintro ⟨_, h, _⟩
      cases h

variable {store : InMemoryFileStore} {s : σ}

section Step

variable (hcanonical : ∀ u ∈ users, Canonical u) (hfree : PrefixFree users)

include hcanonical hfree

/-- A file is found under the path of its key. -/
theorem Represents.get_eq (h : Represents P S users store s) {key : FileKey} {p : ObjPath}
    (hkey : key.userId ∈ users) (hp : keyToPath P key = .ok p) :
    S.get p s = store.entries.lookup key := by
  refine Option.ext fun bytes => ?_
  rw [h.stored]
  constructor
  · rintro ⟨key', hlookup, hp'⟩
    have heq := keyToPath_injective hcanonical hfree (h.accepted _ _ hlookup).2 hkey hp' hp
    rwa [heq] at hlookup
  · intro hlookup
    exact ⟨key, hlookup, hp⟩

theorem Represents.put (h : Represents P S users store s) {key : FileKey} {p : ObjPath}
    (bytes : Bytes) (hkey : key.userId ∈ users) (hvalid : validatePath key.path = .ok ())
    (hp : keyToPath P key = .ok p) :
    Represents P S users ⟨InMemoryFileStore.insert key bytes store.entries⟩ (S.put p bytes s) where
  sorted := InMemoryFileStore.sorted_insert key bytes h.sorted
  accepted := fun k b hk => by
    rw [InMemoryFileStore.lookup_insert] at hk
    split_ifs at hk with heq
    · rw [heq]
      exact ⟨hvalid, hkey⟩
    · exact h.accepted k b hk
  stored := fun q b => by
    simp only [S.get_put, InMemoryFileStore.lookup_insert]
    by_cases hq : q = p
    · subst hq
      rw [if_pos rfl]
      constructor
      · intro hb
        exact ⟨key, by rwa [if_pos rfl], hp⟩
      · rintro ⟨k, hk, hpk⟩
        split_ifs at hk with heq
        · exact hk
        · exact absurd (keyToPath_injective hcanonical hfree (h.accepted _ _ hk).2 hkey hpk hp) heq
    · rw [if_neg hq, h.stored]
      refine exists_congr fun k => and_congr_left fun hpk => ?_
      rw [if_neg]
      rintro rfl
      exact hq (Except.ok.inj (hpk.symm.trans hp))

theorem Represents.delete (h : Represents P S users store s) {key : FileKey} {p : ObjPath}
    (hkey : key.userId ∈ users) (hp : keyToPath P key = .ok p) :
    Represents P S users ⟨store.entries.filter (fun e => e.1 ≠ key)⟩ (S.delete p s) where
  sorted := List.Pairwise.filter _ h.sorted
  accepted := fun k b hk => by
    rw [lookup_filter_ne] at hk
    split_ifs at hk
    exact h.accepted k b hk
  stored := fun q b => by
    simp only [S.get_delete, lookup_filter_ne]
    by_cases hq : q = p
    · subst hq
      rw [if_pos rfl]
      constructor
      · intro hb
        cases hb
      · rintro ⟨k, hk, hpk⟩
        split_ifs at hk with heq
        exact absurd (keyToPath_injective hcanonical hfree (h.accepted _ _ hk).2 hkey hpk hp) heq
    · rw [if_neg hq, h.stored]
      refine exists_congr fun k => and_congr_left fun hpk => ?_
      rw [if_neg]
      rintro rfl
      exact hq (Except.ok.inj (hpk.symm.trans hp))

/-- A listing shows the same files. -/
theorem Represents.mem_list_iff (h : Represents P S users store s) {userId : String}
    (huser : userId ∈ users) {entries : List FileEntry} (hlist : list P S userId s = .ok entries)
    (e : FileEntry) : e ∈ store.list userId ↔ e ∈ entries := by
  rw [InMemoryFileStore.mem_list h.sorted, mem_list hlist,
    and_iff_right (hcanonical userId huser)]
  constructor
  · rintro ⟨bytes, hlookup, hsize⟩
    obtain ⟨hvalid, _⟩ := h.accepted _ _ hlookup
    obtain ⟨p, hp⟩ := exists_keyToPath (P := P) hvalid (hcanonical userId huser).storable
    obtain ⟨_, hparts⟩ := (keyToPath_canonical (hcanonical userId huser)).mp hp
    exact ⟨p, bytes, (h.stored p bytes).mpr ⟨_, hlookup, hp⟩, hparts, hsize⟩
  · rintro ⟨p, bytes, hget, hparts, hsize⟩
    obtain ⟨key, hlookup, hp⟩ := (h.stored p bytes).mp hget
    obtain ⟨_, hkey⟩ := h.accepted _ _ hlookup
    obtain ⟨_, hparts'⟩ := (keyToPath_canonical (hcanonical _ hkey)).mp hp
    obtain ⟨rfl, hpath⟩ := hfree.eq_of_append hkey huser (hparts'.symm.trans hparts)
    rw [← String.toList_injective (splitSlash_injective hpath)]
    exact ⟨bytes, hlookup, hsize⟩

/-- An operation that is no listing gets the very reply, and the stores go on to hold the same
files. -/
theorem Represents.step_eq (h : Represents P S users store s) {op : FileOp}
    (hop : op.userId ∈ users) (hlist : ∀ userId, op ≠ .list userId) :
    (ObjectStoreBackend.step P S s op).1 = (store.step op).1 ∧
      Represents P S users (store.step op).2 (ObjectStoreBackend.step P S s op).2 := by
  cases op with
  | put key bytes =>
      dsimp only [InMemoryFileStore.step, ObjectStoreBackend.step]
      unfold InMemoryFileStore.put ObjectStoreBackend.put
      cases hvalid : validatePath key.path with
      | error e =>
          rw [keyToPath_of_refused hvalid]
          exact ⟨rfl, h⟩
      | ok u =>
          obtain ⟨p, hp⟩ := exists_keyToPath (P := P) hvalid (hcanonical _ hop).storable
          rw [hp]
          exact ⟨rfl, h.put hcanonical hfree bytes hop hvalid hp⟩
  | get key =>
      dsimp only [InMemoryFileStore.step, ObjectStoreBackend.step]
      unfold InMemoryFileStore.get ObjectStoreBackend.get
      refine ⟨?_, h⟩
      cases hvalid : validatePath key.path with
      | error e =>
          rw [keyToPath_of_refused hvalid]
          rfl
      | ok u =>
          obtain ⟨p, hp⟩ := exists_keyToPath (P := P) hvalid (hcanonical _ hop).storable
          rw [hp]
          dsimp only [bind, Except.bind]
          rewrite [h.get_eq hcanonical hfree hop hp]
          cases store.entries.lookup key <;> rfl
  | delete key =>
      dsimp only [InMemoryFileStore.step, ObjectStoreBackend.step]
      unfold InMemoryFileStore.delete ObjectStoreBackend.delete
      cases hvalid : validatePath key.path with
      | error e =>
          rw [keyToPath_of_refused hvalid]
          exact ⟨rfl, h⟩
      | ok u =>
          obtain ⟨p, hp⟩ := exists_keyToPath (P := P) hvalid (hcanonical _ hop).storable
          rw [hp]
          exact ⟨rfl, h.delete hcanonical hfree hop hp⟩
  | list userId => exact absurd rfl (hlist userId)

/-- **One operation** gets the same reply, and the stores go on to hold the same
files. -/
theorem Represents.step (h : Represents P S users store s) (op : FileOp)
    (hop : op.userId ∈ users) :
    SameReply (store.step op).1 (ObjectStoreBackend.step P S s op).1 ∧
      Represents P S users (store.step op).2 (ObjectStoreBackend.step P S s op).2 := by
  cases op with
  | list userId =>
      have huser : userId ∈ users := hop
      obtain ⟨entries, hlist⟩ := exists_list (P := P) (S := S) (hcanonical userId huser) s
      dsimp only [InMemoryFileStore.step, ObjectStoreBackend.step]
      rw [hlist]
      refine ⟨?_, h⟩
      exact h.mem_list_iff hcanonical hfree huser hlist
  | _ =>
      obtain ⟨hreply, hnext⟩ := h.step_eq hcanonical hfree hop (by simp)
      rw [hreply]
      exact ⟨sameReply_self _, hnext⟩

end Step

/-- What a user stores under the name `x`. -/
def sampleKey (userId : String) : FileKey := ⟨userId, "x"⟩

theorem sampleKey_userId (userId : String) : (sampleKey userId).userId = userId := rfl

theorem validatePath_sampleKey (userId : String) :
    validatePath (sampleKey userId).path = .ok () := by
  have hvalid : validatePath "x" = .ok () := by decide
  exact hvalid

/-- The listings after a user has stored one file. -/
theorem listed_of_agree (h : FileStoresAgree P S users) {u v : String} (hu : u ∈ users)
    (hv : v ∈ users) :
    SameReply (.ok (.entries (InMemoryFileStore.list u ⟨[(sampleKey v, [])]⟩)))
      ((list P S u (changed S.empty (put P S (sampleKey v) [] S.empty)).2).map .entries) := by
  have hreplies := h.replies [.put (sampleKey v) [], .list u] (by
    simp only [List.forall_mem_cons]
    exact ⟨hv, hu, fun _ hop => absurd hop List.not_mem_nil⟩)
  have hput : InMemoryFileStore.put (sampleKey v) [] .empty = .ok ⟨[(sampleKey v, [])]⟩ := by
    unfold InMemoryFileStore.put
    rw [validatePath_sampleKey]
    rfl
  simp only [Lib.replies, List.forall₂_cons, InMemoryFileStore.step, ObjectStoreBackend.step,
    hput] at hreplies
  exact hreplies.2.1

/-- A user id that is no object path has no listing, whatever is stored for it. -/
theorem canonical_of_agree (h : FileStoresAgree P S users) {u : String} (hu : u ∈ users) :
    Canonical u := by
  have hsame := listed_of_agree h hu hu
  cases hlist : list P S u (changed S.empty (put P S (sampleKey u) [] S.empty)).2 with
  | error e =>
      rw [hlist] at hsame
      exact hsame.elim
  | ok entries =>
      rw [hlist] at hsame
      have hmem : (⟨"x", 0⟩ : FileEntry) ∈ InMemoryFileStore.list u ⟨[(sampleKey u, [])]⟩ := by
        unfold InMemoryFileStore.list sampleKey
        simp
      exact ((mem_list hlist).mp ((hsame _).mp hmem)).1

/-- A file in a directory of a user is listed for that user too. -/
theorem prefixFree_of_agree (h : FileStoresAgree P S users) : PrefixFree users := by
  intro u hu v hv hpre
  by_contra hne
  have hsame := listed_of_agree h hu hv
  have hcanonical := canonical_of_agree h hv
  obtain ⟨p, hp⟩ := exists_keyToPath (P := P) (validatePath_sampleKey v) hcanonical.storable
  have hcanonical' : Canonical (sampleKey v).userId := hcanonical
  obtain ⟨_, hparts⟩ := (keyToPath_canonical hcanonical').mp hp
  have hput : put P S (sampleKey v) [] S.empty = .ok (S.put p [] S.empty) := by
    unfold put
    rw [hp]
    rfl
  obtain ⟨entries, hlist⟩ := exists_list (P := P) (S := S) (canonical_of_agree h hu)
    (S.put p [] S.empty)
  obtain ⟨more, hmore⟩ := hpre
  rw [hput, changed, hlist] at hsame
  rw [sampleKey_userId, ← hmore, List.append_assoc] at hparts
  have hvalid : ∀ part ∈ more ++ splitSlash (sampleKey v).path.toList, ValidPart part :=
    fun part hpart => p.valid part (hparts ▸ List.mem_append_right _ hpart)
  obtain ⟨rest, hrest⟩ := exists_splitSlash_eq hvalid
    (List.append_ne_nil_of_right_ne_nil _ (splitSlash_ne_nil _))
  have hmem : (⟨rest, 0⟩ : FileEntry) ∈ entries := by
    rw [mem_list hlist]
    refine ⟨canonical_of_agree h hu, p, [], ?_, hrest ▸ hparts, rfl⟩
    rw [S.get_put, if_pos rfl]
  have hlisted := (hsame _).mpr hmem
  unfold InMemoryFileStore.list sampleKey at hlisted
  rw [List.filter_cons_of_neg (by simpa using Ne.symm hne)] at hlisted
  exact absurd hlisted List.not_mem_nil

/-- **When the two stores agree**: the user ids are object paths, written as such paths
are, and none is a directory of another. -/
theorem file_stores_agree_iff (P : PathParser) (S : ObjectStore σ) (users : Set String) :
    FileStoresAgree P S users ↔ (∀ u ∈ users, Canonical u) ∧ PrefixFree users := by
  constructor
  · intro h
    exact ⟨fun u hu => canonical_of_agree h hu, prefixFree_of_agree h⟩
  · rintro ⟨hcanonical, hfree⟩
    refine ⟨fun ops hops => ?_, fun key key' p hkey hkey' => ?_⟩
    · exact replies_related (fun _ _ op hR hop => hR.step hcanonical hfree op hop) ops _ _
        represents_empty hops
    · exact keyToPath_injective hcanonical hfree hkey hkey'

end Agreement

/-- The file `x` of the user `a/b` is the file `b/x` of the user `a`, in one store
only. -/
theorem slash_in_userId : ¬ List.Forall₂ SameReply
    (replies InMemoryFileStore.step .empty
      [.put ⟨"a/b", "x"⟩ [7], .get ⟨"a", "b/x"⟩])
    (replies (ObjectStoreBackend.step .byParts .assoc) []
      [.put ⟨"a/b", "x"⟩ [7], .get ⟨"a", "b/x"⟩]) := by
  have hmemory : replies InMemoryFileStore.step .empty
      [.put ⟨"a/b", "x"⟩ [7], .get ⟨"a", "b/x"⟩] = [.ok .done, .error .notFound] := rfl
  have hobject : replies (ObjectStoreBackend.step .byParts .assoc) []
      [.put ⟨"a/b", "x"⟩ [7], .get ⟨"a", "b/x"⟩] = [.ok .done, .ok (.bytes [7])] := rfl
  rw [hmemory, hobject]
  simp only [List.forall₂_cons]
  exact fun h => h.2.1

end OrbitOpenEO
