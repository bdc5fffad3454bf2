import OrbitOpenEO.Workspace
import OrbitOpenEO.Lib.Run
import Mathlib.Tactic.NormNum

/-!
# The file cache and the fetch

`FileCache` keeps downloaded files under the hash of their URL and drops the
least recently used ones when they take too much room.  A fetch asks the cache
first; on a miss it signs the URL, downloads the window into the scratch
directory and hands a copy to the cache.

What the cache holds is a window of the remote file, and the key does not say
which one.  A run of fetches serves every request its own window only if a
request that finds an entry asks for the window the entry was made for, be it
by this executor or by one before it on the same directory.
-/

namespace OrbitOpenEO

open Lib

/-- `now_secs`. -/
def nowSecs (P : Platform) (w : World) : Nat := P.nanos w.clockReads / 1000000000

/-- The clock has been read. -/
def World.tick (w : World) : World := { w with clockReads := w.clockReads + 1 }

/-- The entries of the cache. -/
abbrev CacheIndex := List (String × CacheEntry)

namespace CacheIndex

/-- The bytes all entries take. -/
def total (index : CacheIndex) : Nat := (index.map (fun e => e.2.sizeBytes)).sum

/-- `min_by_key(last_access)`: the first of the least recently used entries. -/
def lru : CacheIndex → Option (String × CacheEntry)
  | [] => none
  | e :: es =>
      match lru es with
      | none => some e
      | some m => if m.2.lastAccess < e.2.lastAccess then some m else some e

/-- A hit renews the access time. -/
def touch (index : CacheIndex) (key : String) (time : Nat) : CacheIndex :=
  index.map (fun e => if e.1 = key then (e.1, { e.2 with lastAccess := time }) else e)

/-- `HashMap::insert`: a known key gets the new value, a new one goes to its slot. -/
def insert (index : CacheIndex) (slot : Nat) (key : String) (entry : CacheEntry) : CacheIndex :=
  if (index.lookup key).isSome then
    index.map (fun e => if e.1 = key then (key, entry) else e)
  else index.take slot ++ (key, entry) :: index.drop slot

/-- The loop of `evict_if_needed`, with the files it removes. -/
def evict (maxBytes : Nat) : Nat → CacheIndex → (PathBuf → Option Raster) →
    CacheIndex × (PathBuf → Option Raster)
  | 0, index, files => (index, files)
  | n + 1, index, files =>
      if total index ≤ maxBytes then (index, files)
      else
        match lru index with
        | none => (index, files)
        | some e =>
            evict maxBytes n (index.filter (fun x => x.1 ≠ e.1))
              (Function.update files e.2.path none)

end CacheIndex

theorem cachePath_inj {root : PathBuf} {a b : String} (h : cachePath root a = cachePath root b) :
    a = b :=
  String.append_right_inj _ |>.mp h

namespace CacheIndex

/-- What is used least recently is the first of its kind. -/
theorem lru_split {m : String × CacheEntry} :
    ∀ {index : CacheIndex}, lru index = some m →
      ∃ front back, index = front ++ m :: back ∧
        (∀ x ∈ front, m.2.lastAccess < x.2.lastAccess) ∧
          ∀ x ∈ back, m.2.lastAccess ≤ x.2.lastAccess
  | [], h => by
      cases h
  | e :: es, h => by
      unfold lru at h
      cases hes : lru es with
      | none =>
          rw [hes] at h
          cases h
          have hnil : es = [] := by
            cases es with
            | nil =>
                rfl
            | cons x xs =>
                unfold lru at hes
                split at hes
                · cases hes
                · split at hes <;> cases hes
          subst hnil
          exact ⟨[], [], rfl, nofun, nofun⟩
      | some m' =>
          obtain ⟨front, back, rfl, hfront, hback⟩ := lru_split hes
          simp only [hes] at h
          split at h
          · rename_i hlt
            cases h
            refine ⟨e :: front, back, rfl, ?_, hback⟩
            rw [List.forall_mem_cons]
            exact ⟨hlt, hfront⟩
          · rename_i hge
            cases h
            have hle : m.2.lastAccess ≤ m'.2.lastAccess := not_lt.mp hge
            refine ⟨[], front ++ m' :: back, rfl, nofun, ?_⟩
            intro x hx
            rcases List.mem_append.mp hx with hx | hx
            · exact hle.trans (hfront x hx).le
            · rcases List.mem_cons.mp hx with rfl | hx
              · exact hle
              · exact hle.trans (hback x hx)

theorem lru_spec {m : String × CacheEntry} {index : CacheIndex} (h : lru index = some m) :
    m ∈ index ∧ ∀ x ∈ index, m.2.lastAccess ≤ x.2.lastAccess := by
  obtain ⟨front, back, rfl, hfront, hback⟩ := lru_split h
  refine ⟨List.mem_append_right _ List.mem_cons_self, ?_⟩
  intro x hx
  rcases List.mem_append.mp hx with hx | hx
  · exact (hfront x hx).le
  · rcases List.mem_cons.mp hx with rfl | hx
    · exact le_rfl
    · exact hback x hx

/-- Every entry is a file of the cache directory, under its own key. -/
def Placed (root : PathBuf) (index : CacheIndex) : Prop :=
  (index.map Prod.fst).Nodup ∧ ∀ e ∈ index, e.2.path = cachePath root e.1

theorem Placed.filter {root : PathBuf} {index : CacheIndex} (h : Placed root index)
    (q : String × CacheEntry → Bool) : Placed root (index.filter q) :=
  ⟨h.1.sublist (List.filter_sublist.map _), fun e he => h.2 e (List.mem_filter.mp he).1⟩

/-- Eviction keeps the files of the entries it keeps. -/
theorem evict_keeps {root : PathBuf} (maxBytes : Nat) :
    ∀ (n : Nat) {index : CacheIndex} (files : PathBuf → Option Raster), Placed root index →
      Placed root (evict maxBytes n index files).1 ∧
        ∀ e ∈ (evict maxBytes n index files).1,
          e ∈ index ∧ (evict maxBytes n index files).2 e.2.path = files e.2.path
  | 0, _, _, h => ⟨h, fun _ he => ⟨he, rfl⟩⟩
  | n + 1, index, files, h => by
      unfold evict
      split
      · exact ⟨h, fun _ he => ⟨he, rfl⟩⟩
      · split
        · exact ⟨h, fun _ he => ⟨he, rfl⟩⟩
        · rename_i m hm
          obtain ⟨hplaced, hkept⟩ := evict_keeps maxBytes n
            (Function.update files m.2.path none) (h.filter (fun x => x.1 ≠ m.1))
          refine ⟨hplaced, ?_⟩
          intro e he
          obtain ⟨hmem, hfile⟩ := hkept e he
          obtain ⟨hmem, hne⟩ := List.mem_filter.mp hmem
          refine ⟨hmem, ?_⟩
          rw [hfile, Function.update_of_ne]
          rw [h.2 e hmem, h.2 m (lru_spec hm).1]
          intro heq
          exact absurd (cachePath_inj heq) (by simpa using hne)

theorem total_cons (e : String × CacheEntry) (index : CacheIndex) :
    total (e :: index) = e.2.sizeBytes + total index := rfl

theorem total_append (front back : CacheIndex) :
    total (front ++ back) = total front + total back := by
  rw [total, List.map_append, List.sum_append]
  rfl

theorem total_sublist {index index' : CacheIndex} (h : List.Sublist index index') :
    total index ≤ total index' := by
  induction h with
  | slnil =>
      exact le_rfl
  | cons e _ ih =>
      rw [total_cons]
      exact ih.trans (Nat.le_add_left _ _)
  | cons_cons e _ ih =>
      rw [total_cons, total_cons]
      exact Nat.add_le_add_left ih _

/-- The bytes of the entries that the eviction takes after one used at this time: those used
later, and of those used in the same second the ones behind it. -/
def beyond (front back : CacheIndex) (time : Nat) : Nat :=
  total (front.filter fun e => time < e.2.lastAccess) +
    total (back.filter fun e => time ≤ e.2.lastAccess)

/-- An entry that fits beside those that would be evicted after it is kept. -/
theorem evict_survives {maxBytes : Nat} {new : String × CacheEntry} :
    ∀ {n : Nat} {front back : CacheIndex} {files : PathBuf → Option Raster},
      ((front ++ new :: back).map Prod.fst).Nodup →
      new.2.sizeBytes + beyond front back new.2.lastAccess ≤ maxBytes →
      new ∈ (evict maxBytes n (front ++ new :: back) files).1
  | 0, _, _, _, _, _ => List.mem_append_right _ List.mem_cons_self
  | n + 1, front, back, files, hnd, hfits => by
      have hmem : new ∈ front ++ new :: back := List.mem_append_right _ List.mem_cons_self
      unfold evict
      split
      · exact hmem
      · rename_i htotal
        split
        · exact hmem
        · rename_i m hm
          -- What goes is another entry, or else all that is left would fit.
          have hother : new.1 ≠ m.1 := by
            intro hkey
            have hnew : m = new := List.inj_on_of_nodup_map hnd (lru_spec hm).1 hmem hkey.symm
            subst hnew
            obtain ⟨front', back', hsplit, hfront, hback⟩ := lru_split hm
            obtain ⟨hnotin, hnotin'⟩ : m ∉ front' ∧ m ∉ back' := by
              have hnodup := hnd.of_map
              rw [hsplit, List.nodup_middle, List.nodup_cons, List.mem_append, not_or] at hnodup
              exact hnodup.1
            obtain ⟨rfl, -, rfl⟩ := (List.append_cons_inj_of_notMem hnotin hnotin').mp hsplit.symm
            apply htotal
            rw [total_append, total_cons]
            rw [beyond, List.filter_eq_self.mpr (by simpa using hfront),
              List.filter_eq_self.mpr (by simpa using hback)] at hfits
            omega
          have hkeep : (front ++ new :: back).filter (fun x => x.1 ≠ m.1) =
              front.filter (fun x => x.1 ≠ m.1) ++ new :: back.filter (fun x => x.1 ≠ m.1) := by
            rw [List.filter_append, List.filter_cons_of_pos (by simpa using hother)]
          rw [hkeep]
          refine evict_survives ?_ (le_trans (Nat.add_le_add_left ?_ _) hfits)
          · rw [← hkeep]
            exact hnd.sublist (List.filter_sublist.map _)
          · exact Nat.add_le_add (total_sublist (List.filter_sublist.filter _))
              (total_sublist (List.filter_sublist.filter _))

theorem mem_touch {index : CacheIndex} {key : String} {time : Nat} {e : String × CacheEntry}
    (h : e ∈ touch index key time) : ∃ e' ∈ index, e.1 = e'.1 ∧ e.2.path = e'.2.path := by
  obtain ⟨e', he', rfl⟩ := List.mem_map.mp h
  refine ⟨e', he', ?_⟩
  split
  · exact ⟨rfl, rfl⟩
  · exact ⟨rfl, rfl⟩

theorem keys_touch (index : CacheIndex) (key : String) (time : Nat) :
    (touch index key time).map Prod.fst = index.map Prod.fst := by
  rw [touch, List.map_map]
  refine List.map_congr_left ?_
  intro e _
  simp only [Function.comp_apply]
  split <;> rfl

/-- A new key goes into the index beside the entries it has. -/
theorem mem_insert_of_miss {index : CacheIndex} {slot : Nat} {key : String} {entry : CacheEntry}
    (hmiss : index.lookup key = none) {e : String × CacheEntry} :
    e ∈ insert index slot key entry ↔ e = (key, entry) ∨ e ∈ index := by
  have hsplit : e ∈ index ↔ e ∈ index.take slot ∨ e ∈ index.drop slot := by
    rw [← List.mem_append, List.take_append_drop]
  simp only [insert, hmiss, Option.isSome_none, Bool.false_eq_true, if_false, List.mem_append,
    List.mem_cons, hsplit]
  exact or_left_comm

theorem keys_insert_of_miss {index : CacheIndex} {slot : Nat} {key : String} {entry : CacheEntry}
    (hmiss : index.lookup key = none) (hnd : (index.map Prod.fst).Nodup) :
    ((insert index slot key entry).map Prod.fst).Nodup := by
  have hkey : key ∉ index.map Prod.fst := by
    intro h
    obtain ⟨e, he, hek⟩ := List.mem_map.mp h
    have := List.lookup_eq_none_iff.mp hmiss e he
    simp [hek] at this
  have hperm : (insert index slot key entry).Perm ((key, entry) :: index) := by
    simp only [insert, hmiss, Option.isSome_none, Bool.false_eq_true, if_false]
    refine List.perm_middle.trans ?_
    rw [List.take_append_drop]
  rw [(hperm.map Prod.fst).nodup_iff]
  exact List.nodup_cons.mpr ⟨hkey, hnd⟩

end CacheIndex

section Fetch

variable (P : Platform)

/-- `FileCache::open`: the files of the directory, each with its length and the time of its
last access, go into the index under their names. -/
def fileCacheOpen (root : PathBuf) (maxBytes : Nat) (listing : List (String × Nat × Nat)) :
    FileCache :=
  ⟨root, maxBytes, listing.map fun file => (file.1, ⟨cachePath root file.1, file.2.1, file.2.2⟩)⟩

/-- `FileCache::get`. -/
def cacheGet (href : String) : Eval (Option PathBuf) := fun w =>
  match w.cache with
  | none => .ok none w
  | some cache =>
      match cache.index.lookup (P.keyFor href) with
      | none => .ok none w
      | some entry =>
          .ok (some entry.path)
            { w.tick with
              cache := some { cache with
                index := CacheIndex.touch cache.index (P.keyFor href) (nowSecs P w) } }

/-- `FileCache::evict_if_needed`. -/
def evictIfNeeded (cache : FileCache) (w : World) : World :=
  if cache.maxBytes = 0 then { w with cache := some cache }
  else
    let r := CacheIndex.evict cache.maxBytes cache.index.length cache.index w.files
    { w with cache := some { cache with index := r.1 }, files := r.2 }

/-- `FileCache::insert`: copy the file into the cache directory. -/
def cacheInsert (cache : FileCache) (href : String) (src : PathBuf) : Eval PathBuf := fun w =>
  let dst := cachePath cache.root (P.keyFor href)
  match w.files src with
  | none => .error (.backend s!"FileCache insert {href}: {P.noSuchFile src}") w
  | some r =>
      let w := w.write dst (some r)
      let entry := ⟨dst, P.sizeBytes r, nowSecs P w⟩
      .ok dst (evictIfNeeded
        { cache with
          index := CacheIndex.insert cache.index (P.slot (P.keyFor href)) (P.keyFor href) entry }
        w.tick)

/-- `Downloader::download` into a file. -/
def downloadTo (signed : String) (dst : PathBuf) (crop : CropWindow) (cropCrs : Option String) :
    Eval Unit := fun w =>
  match P.download signed crop cropCrs with
  | .ok r => .ok () (w.write dst (some r))
  | .error e => .error e (w.write dst (P.leftover (w.files dst)))

/-- The blocking part of `fetch_with_cache_async`: sign, download, hand to the cache. -/
def fetchBlocking (href : String) (dst : PathBuf) (crop : CropWindow) (cropCrs : Option String) :
    Eval PathBuf := do
  let signed ← attempt (P.sign href)
  downloadTo P signed dst crop cropCrs
  fun w =>
    match w.cache with
    | some cache => cacheInsert P cache href dst w
    | none => .ok dst w

/-- `fetch_with_cache_async`; `checkUrl` is the URL policy. -/
def fetchWithCacheAsync (checkUrl : String → Except String Unit) (href : String) (dst : PathBuf)
    (crop : CropWindow) (cropCrs : Option String) : Eval PathBuf := do
  attempt ((checkUrl href).mapError (fun e => .backend s!"url_policy: {e}"))
  match ← cacheGet P href with
  | some cached => pure cached
  | none => fetchBlocking P href dst crop cropCrs

end Fetch

section FetchSpec

variable {P : Platform} {href : String} {dst p : PathBuf} {crop : CropWindow}
  {cropCrs : Option String} {w w' : World}

/-- A directory has each name once, so what `open` makes of it is placed. -/
theorem placed_fileCacheOpen {root : PathBuf} (maxBytes : Nat)
    {listing : List (String × Nat × Nat)} (hnames : (listing.map Prod.fst).Nodup) :
    CacheIndex.Placed root (fileCacheOpen root maxBytes listing).index := by
  refine ⟨?_, ?_⟩
  · rw [fileCacheOpen, List.map_map]
    exact hnames
  · intro e he
    obtain ⟨file, -, rfl⟩ := List.mem_map.mp he
    rfl

/-- The state after a file has been downloaded and handed to the cache. -/
def cachedWorld (P : Platform) (cache : FileCache) (href : String) (dst : PathBuf) (r : Raster)
    (w : World) : World :=
  let path := cachePath cache.root (P.keyFor href)
  evictIfNeeded
    { cache with
      index := CacheIndex.insert cache.index (P.slot (P.keyFor href)) (P.keyFor href)
        ⟨path, P.sizeBytes r, nowSecs P w⟩ }
    ((w.write dst (some r)).write path (some r)).tick

theorem fetchBlocking_eq_ok (h : fetchBlocking P href dst crop cropCrs w = .ok p w') :
    ∃ signed r, P.sign href = .ok signed ∧ P.download signed crop cropCrs = .ok r ∧
      ((w.cache = none ∧ p = dst ∧ w' = w.write dst (some r)) ∨
        ∃ cache, w.cache = some cache ∧ p = cachePath cache.root (P.keyFor href) ∧
          w' = cachedWorld P cache href dst r w) := by
  unfold fetchBlocking at h
  obtain ⟨signed, hsign, hrest⟩ := attempt_bind_eq_ok_iff.mp h
  obtain ⟨_, w₁, hdown, hinsert⟩ := act_bind_eq_ok_iff.mp hrest
  unfold downloadTo at hdown
  split at hdown
  · rename_i r hr
    cases hdown
    refine ⟨signed, r, hsign, hr, ?_⟩
    split at hinsert
    · rename_i cache hcache
      simp only [cacheInsert, World.write_files, Function.update_self] at hinsert
      cases hinsert
      exact Or.inr ⟨cache, hcache, rfl, rfl⟩
    · rename_i hcache
      cases hinsert
      exact Or.inl ⟨hcache, rfl, rfl⟩
  · cases hdown

theorem fetchBlocking_eq_error {e : ExecError}
    (h : fetchBlocking P href dst crop cropCrs w = .error e w') :
    w' = w ∨ ∃ content, w' = w.write dst content := by
  simp only [fetchBlocking, bind, EStateM.bind] at h
  cases hsign : P.sign href with
  | error e' =>
      simp only [attempt, hsign] at h
      cases h
      exact Or.inl rfl
  | ok signed =>
      simp only [attempt, hsign, downloadTo] at h
      cases hdown : P.download signed crop cropCrs with
      | error e' =>
          simp only [hdown] at h
          cases h
          exact Or.inr ⟨_, rfl⟩
      | ok r =>
          simp only [hdown] at h
          split at h
          · simp only [cacheInsert, World.write_files, Function.update_self] at h
            cases h
          · cases h

/-- How a fetch can return: with a cached file, or with a new one. -/
theorem fetchWithCacheAsync_eq_ok {checkUrl : String → Except String Unit}
    (h : fetchWithCacheAsync P checkUrl href dst crop cropCrs w = .ok p w') :
    (∃ cache entry, w.cache = some cache ∧ cache.index.lookup (P.keyFor href) = some entry ∧
      p = entry.path ∧
      w' = { w.tick with
        cache := some { cache with
          index := CacheIndex.touch cache.index (P.keyFor href) (nowSecs P w) } }) ∨
    ((∀ cache, w.cache = some cache → cache.index.lookup (P.keyFor href) = none) ∧
      fetchBlocking P href dst crop cropCrs w = .ok p w') := by
  unfold fetchWithCacheAsync at h
  obtain ⟨_, _, hrest⟩ := attempt_bind_eq_ok_iff.mp h
  obtain ⟨found, w₁, hget, hfound⟩ := act_bind_eq_ok_iff.mp hrest
  unfold cacheGet at hget
  split at hget
  · rename_i hcache
    cases hget
    exact Or.inr ⟨by simp [hcache], hfound⟩
  · rename_i cache hcache
    split at hget
    · rename_i hlookup
      cases hget
      refine Or.inr ⟨?_, hfound⟩
      intro cache' hcache'
      rw [hcache] at hcache'
      cases hcache'
      exact hlookup
    · rename_i entry hlookup
      cases hget
      obtain ⟨rfl, rfl⟩ := act_pure_eq_ok_iff.mp hfound
      exact Or.inl ⟨cache, entry, hcache, hlookup, rfl, rfl⟩

/-- A failed fetch has at most written its destination, after a miss. -/
theorem fetchWithCacheAsync_eq_error {checkUrl : String → Except String Unit} {e : ExecError}
    (h : fetchWithCacheAsync P checkUrl href dst crop cropCrs w = .error e w') :
    w' = w ∨ ((∀ cache, w.cache = some cache → cache.index.lookup (P.keyFor href) = none) ∧
      ∃ content, w' = w.write dst content) := by
  simp only [fetchWithCacheAsync, bind, EStateM.bind] at h
  cases hurl : checkUrl href with
  | error e' =>
      simp only [attempt, hurl, Except.mapError] at h
      cases h
      exact Or.inl rfl
  | ok _ =>
      simp only [attempt, hurl, Except.mapError, cacheGet] at h
      cases hcache : w.cache with
      | none =>
          simp only [hcache] at h
          refine (fetchBlocking_eq_error h).imp_right fun hw => ⟨?_, hw⟩
          intro cache hsome
          cases hsome
      | some cache =>
          cases hlookup : cache.index.lookup (P.keyFor href) with
          | none =>
              simp only [hcache, hlookup] at h
              refine (fetchBlocking_eq_error h).imp_right fun hw => ⟨?_, hw⟩
              intro cache' hsome
              cases hsome
              exact hlookup
          | some entry =>
              simp only [hcache, hlookup] at h
              cases h

/-- What `evict_if_needed` keeps. -/
theorem evictIfNeeded_spec (cache : FileCache) (w : World)
    (hplaced : CacheIndex.Placed cache.root cache.index) :
    ∃ index, (evictIfNeeded cache w).cache = some { cache with index := index } ∧
      CacheIndex.Placed cache.root index ∧
      (∀ e ∈ index, e ∈ cache.index ∧
        (evictIfNeeded cache w).files e.2.path = w.files e.2.path) ∧
      ∀ front new back, cache.index = front ++ new :: back →
        cache.maxBytes = 0 ∨
          new.2.sizeBytes + CacheIndex.beyond front back new.2.lastAccess ≤ cache.maxBytes →
        new ∈ index := by
  unfold evictIfNeeded
  split
  · refine ⟨cache.index, rfl, hplaced, fun _ he => ⟨he, rfl⟩, ?_⟩
    intro front new back hsplit _
    rw [hsplit]
    exact List.mem_append_right _ List.mem_cons_self
  · rename_i hmax
    obtain ⟨hindex, hkept⟩ :=
      CacheIndex.evict_keeps cache.maxBytes cache.index.length w.files hplaced
    refine ⟨_, rfl, hindex, hkept, ?_⟩
    rintro front new back hsplit (h0 | hfits)
    · exact absurd h0 hmax
    · have hnd := hplaced.1
      rw [hsplit] at hnd ⊢
      exact CacheIndex.evict_survives hnd hfits

/-- What the cache holds after it got a new file: the entries that are left are old
ones or the new one, and their files are as they were written. -/
theorem cachedWorld_spec (dst : PathBuf) (w : World) {cache : FileCache} (r : Raster)
    (hplaced : CacheIndex.Placed cache.root cache.index)
    (hmiss : cache.index.lookup (P.keyFor href) = none) :
    ∃ index, (cachedWorld P cache href dst r w).cache = some { cache with index := index } ∧
      CacheIndex.Placed cache.root index ∧
      (∀ e ∈ index, (e = (P.keyFor href, ⟨cachePath cache.root (P.keyFor href), P.sizeBytes r,
          nowSecs P w⟩) ∨ e ∈ cache.index) ∧
        (cachedWorld P cache href dst r w).files e.2.path =
          Function.update (Function.update w.files dst (some r))
            (cachePath cache.root (P.keyFor href)) (some r) e.2.path) ∧
      (cache.maxBytes = 0 ∨ P.sizeBytes r + CacheIndex.beyond
          (cache.index.take (P.slot (P.keyFor href))) (cache.index.drop (P.slot (P.keyFor href)))
          (nowSecs P w) ≤ cache.maxBytes →
        (P.keyFor href, ⟨cachePath cache.root (P.keyFor href), P.sizeBytes r, nowSecs P w⟩) ∈
          index) := by
  have hplaced' : CacheIndex.Placed cache.root
      (CacheIndex.insert cache.index (P.slot (P.keyFor href)) (P.keyFor href)
        ⟨cachePath cache.root (P.keyFor href), P.sizeBytes r, nowSecs P w⟩) := by
    refine ⟨CacheIndex.keys_insert_of_miss hmiss hplaced.1, ?_⟩
    intro e he
    rcases (CacheIndex.mem_insert_of_miss hmiss).mp he with rfl | he
    · rfl
    · exact hplaced.2 e he
  obtain ⟨index, hcache, hindex, hkept, hsurvives⟩ :=
    evictIfNeeded_spec
      { cache with
        index := CacheIndex.insert cache.index (P.slot (P.keyFor href)) (P.keyFor href)
          ⟨cachePath cache.root (P.keyFor href), P.sizeBytes r, nowSecs P w⟩ }
      ((w.write dst (some r)).write (cachePath cache.root (P.keyFor href)) (some r)).tick hplaced'
  refine ⟨index, hcache, hindex, ?_, ?_⟩
  · intro e he
    obtain ⟨hmem, hfile⟩ := hkept e he
    exact ⟨(CacheIndex.mem_insert_of_miss hmiss).mp hmem, hfile⟩
  · refine hsurvives (cache.index.take (P.slot (P.keyFor href)))
      (P.keyFor href, ⟨cachePath cache.root (P.keyFor href), P.sizeBytes r, nowSecs P w⟩)
      (cache.index.drop (P.slot (P.keyFor href))) ?_
    simp only [CacheIndex.insert, hmiss, Option.isSome_none, Bool.false_eq_true, if_false]

end FetchSpec

/-- A request for a window of a remote file. -/
structure FetchRequest where
  href : String
  dst : PathBuf
  crop : CropWindow
  crs : Option String

/-- Two requests ask for the same window of the same file. -/
def FetchRequest.SameWindow (r r' : FetchRequest) : Prop :=
  r.href = r'.href ∧ r.crop = r'.crop ∧ r.crs = r'.crs

/-- The raster a request asks for. -/
def FetchRequest.Downloads (P : Platform) (r : FetchRequest) (raster : Raster) : Prop :=
  ∃ signed, P.sign r.href = .ok signed ∧ P.download signed r.crop r.crs = .ok raster

/-- The shared state, the requests served so far, and what each was given. -/
structure FetchState where
  world : World
  history : List FetchRequest
  served : List (FetchRequest × Option Raster)

namespace FetchState

variable (P : Platform) (checkUrl : String → Except String Unit)

/-- Serve one request.  A failed fetch only leaves its traces in the files. -/
def step (s : FetchState) (r : FetchRequest) : Option FetchState :=
  match fetchWithCacheAsync P checkUrl r.href r.dst r.crop r.crs s.world with
  | .ok p w => some ⟨w, s.history ++ [r], s.served ++ [(r, w.files p)]⟩
  | .error _ w => some { s with world := w }

/-- The last request served under a key. -/
def latest (history : List FetchRequest) (key : String) : Option FetchRequest :=
  history.reverse.find? (fun r => P.keyFor r.href = key)

/-- The condition on a request.  If the cache has an entry for its URL, the last
request for that URL was for the same window; a new file fits into the cache beside the
entries that would be evicted after it; and it is not downloaded over a cached file, nor to
the place of its own copy. -/
structure OwnWindow (s : FetchState) (r : FetchRequest) : Prop where
  hit : ∀ cache, s.world.cache = some cache →
    (cache.index.lookup (P.keyFor r.href)).isSome = true →
    ∃ r', latest P s.history (P.keyFor r.href) = some r' ∧ r'.SameWindow r
  room : ∀ cache raster, s.world.cache = some cache →
    cache.index.lookup (P.keyFor r.href) = none → r.Downloads P raster →
    cache.maxBytes = 0 ∨ P.sizeBytes raster + CacheIndex.beyond
      (cache.index.take (P.slot (P.keyFor r.href)))
      (cache.index.drop (P.slot (P.keyFor r.href))) (nowSecs P s.world) ≤ cache.maxBytes
  outside : ∀ cache, s.world.cache = some cache →
    cache.index.lookup (P.keyFor r.href) = none →
    r.dst ≠ cachePath cache.root (P.keyFor r.href) ∧ ∀ e ∈ cache.index, r.dst ≠ e.2.path

/-- Every request was given the window it asked for. -/
def AllServed (s : FetchState) : Prop :=
  ∀ x ∈ s.served, ∃ raster, x.1.Downloads P raster ∧ x.2 = some raster

/-- The entries that this history accounts for hold the windows of its last requests. -/
def Accounted (w : World) (history : List FetchRequest) : Prop :=
  ∀ cache, w.cache = some cache → ∀ e ∈ cache.index, ∀ r, latest P history e.1 = some r →
    ∃ raster, r.Downloads P raster ∧ w.files e.2.path = some raster

/-- What an executor finds when it starts: files, and the cache as `open` leaves it, with an
entry for each file that earlier executors left in the directory.  Requests of theirs may be
known, whose files then hold their windows; of the other files nothing is said. -/
structure Found where
  world : World
  earlier : List FetchRequest
  placed : ∀ cache, world.cache = some cache → CacheIndex.Placed cache.root cache.index
  accounted : Accounted P world earlier

/-- An executor over a directory about whose files nothing is known. -/
def Found.fresh (files : PathBuf → Option Raster) (root : PathBuf) (maxBytes : Nat)
    (listing : List (String × Nat × Nat)) (hnames : (listing.map Prod.fst).Nodup) : Found P where
  world := ⟨files, some (fileCacheOpen root maxBytes listing), 0, []⟩
  earlier := []
  placed := by
    rintro _ ⟨⟩
    exact placed_fileCacheOpen maxBytes hnames
  accounted := by
    rintro _ ⟨⟩ e _ r hlatest
    cases hlatest

/-- The start of an executor. -/
def start (found : Found P) : FetchState := ⟨found.world, found.earlier, []⟩

/-- What every state of a run keeps: an entry of the cache holds the window of the
last request served under its key. -/
structure Inv (s : FetchState) : Prop where
  placed : ∀ cache, s.world.cache = some cache → CacheIndex.Placed cache.root cache.index
  accounted : Accounted P s.world s.history
  served : s.AllServed P

variable {P checkUrl}

theorem latest_append (history : List FetchRequest) (r : FetchRequest) (key : String) :
    latest P (history ++ [r]) key =
      if P.keyFor r.href = key then some r else latest P history key := by
  rw [latest, List.reverse_append, List.reverse_singleton, List.singleton_append, List.find?_cons]
  by_cases h : P.keyFor r.href = key
  · simp [h]
  · simp [h, latest]

theorem start_inv (found : Found P) : (start P found).Inv P :=
  ⟨found.placed, found.accounted, nofun⟩

/-- A hit: the entry was made for this window, and only access times change. -/
theorem Inv.hit {s : FetchState} {r : FetchRequest} (hs : s.Inv P) (hown : s.OwnWindow P r)
    {cache : FileCache} {entry : CacheEntry} (hcache : s.world.cache = some cache)
    (hlookup : cache.index.lookup (P.keyFor r.href) = some entry) :
    Inv P ⟨{ s.world.tick with
        cache := some { cache with
          index := CacheIndex.touch cache.index (P.keyFor r.href) (nowSecs P s.world) } },
      s.history ++ [r], s.served ++ [(r, s.world.files entry.path)]⟩ := by
  have hentry : (P.keyFor r.href, entry) ∈ cache.index := mem_of_lookup_eq_some hlookup
  -- What the entry holds is what this request asks for.
  have hdown : ∃ raster, r.Downloads P raster ∧ s.world.files entry.path = some raster := by
    obtain ⟨r', hlatest, hhref, hcrop, hcrs⟩ := hown.hit cache hcache (by simp [hlookup])
    obtain ⟨raster, ⟨signed, hsign, hraster⟩, hfile⟩ :=
      hs.accounted cache hcache _ hentry r' hlatest
    rw [hhref] at hsign
    rw [hcrop, hcrs] at hraster
    exact ⟨raster, ⟨signed, hsign, hraster⟩, hfile⟩
  refine ⟨?_, ?_, ?_⟩
  · rintro _ ⟨⟩
    refine ⟨?_, ?_⟩
    · rw [CacheIndex.keys_touch]
      exact (hs.placed cache hcache).1
    · intro e he
      obtain ⟨e', he', hkey, hpath⟩ := CacheIndex.mem_touch he
      rw [hpath, hkey]
      exact (hs.placed cache hcache).2 e' he'
  · rintro _ ⟨⟩ e he r' hlatest
    obtain ⟨e', he', hkey, hpath⟩ := CacheIndex.mem_touch he
    rw [latest_append, hkey] at hlatest
    rw [hpath]
    by_cases hk : P.keyFor r.href = e'.1
    · have hsame : (P.keyFor r.href, entry) = e' :=
        List.inj_on_of_nodup_map (hs.placed cache hcache).1 hentry he' hk
      rw [if_pos hk] at hlatest
      cases hlatest
      rw [← hsame]
      exact hdown
    · rw [if_neg hk] at hlatest
      exact hs.accounted cache hcache e' he' r' hlatest
  · intro x hx
    rcases List.mem_append.mp hx with hx | hx
    · exact hs.served x hx
    · rw [List.mem_singleton] at hx
      subst hx
      exact hdown

/-- A miss with a cache: the new file survives its own insertion. -/
theorem Inv.miss {s : FetchState} {r : FetchRequest} (hs : s.Inv P) (hown : s.OwnWindow P r)
    {cache : FileCache} {raster : Raster} (hcache : s.world.cache = some cache)
    (hmiss : cache.index.lookup (P.keyFor r.href) = none) (hr : r.Downloads P raster) :
    Inv P ⟨cachedWorld P cache r.href r.dst raster s.world, s.history ++ [r],
      s.served ++ [(r, (cachedWorld P cache r.href r.dst raster s.world).files
        (cachePath cache.root (P.keyFor r.href)))]⟩ := by
  obtain ⟨index, hcache', hplaced, hfiles, hsurvives⟩ :=
    cachedWorld_spec r.dst s.world raster (hs.placed cache hcache) hmiss
  have hnew := hsurvives (hown.room cache raster hcache hmiss hr)
  refine ⟨?_, ?_, ?_⟩
  · intro c hc
    rw [hcache'] at hc
    cases hc
    exact hplaced
  · intro c hc e he r' hlatest
    rw [hcache'] at hc
    cases hc
    obtain ⟨hwhich, hfile⟩ := hfiles e he
    rw [latest_append] at hlatest
    rcases hwhich with rfl | hold
    · rw [if_pos rfl] at hlatest
      cases hlatest
      exact ⟨raster, hr, by rw [hfile, Function.update_self]⟩
    · -- An old entry has another key, and so another file.
      have hk : P.keyFor r.href ≠ e.1 := by
        intro hk
        have := List.lookup_eq_none_iff.mp hmiss e hold
        simp [hk] at this
      rw [if_neg hk] at hlatest
      obtain ⟨raster', hr', hfile'⟩ := hs.accounted cache hcache e hold r' hlatest
      refine ⟨raster', hr', ?_⟩
      rw [hfile, Function.update_of_ne, Function.update_of_ne, hfile']
      · exact ((hown.outside cache hcache hmiss).2 e hold).symm
      · rw [(hs.placed cache hcache).2 e hold]
        exact fun heq => hk (cachePath_inj heq).symm
  · intro x hx
    rcases List.mem_append.mp hx with hx | hx
    · exact hs.served x hx
    · rw [List.mem_singleton] at hx
      subst hx
      refine ⟨raster, hr, ?_⟩
      have := (hfiles _ hnew).2
      rw [this, Function.update_self]

/-- A file that no entry names changes: the cache is as it was. -/
theorem Inv.write {s : FetchState} (hs : s.Inv P) {dst : PathBuf} {content : Option Raster}
    (houtside : ∀ cache, s.world.cache = some cache → ∀ e ∈ cache.index, dst ≠ e.2.path)
    {history : List FetchRequest} {served : List (FetchRequest × Option Raster)}
    (hhistory : ∀ cache, s.world.cache = some cache → history = s.history)
    (hserved : ∀ x ∈ served, ∃ raster, x.1.Downloads P raster ∧ x.2 = some raster) :
    Inv P ⟨s.world.write dst content, history, served⟩ := by
  refine ⟨fun cache hcache => hs.placed cache hcache, ?_, hserved⟩
  intro cache hcache e he r hlatest
  rw [hhistory cache hcache] at hlatest
  obtain ⟨raster, hr, hfile⟩ := hs.accounted cache hcache e he r hlatest
  refine ⟨raster, hr, ?_⟩
  rw [World.write_files, Function.update_of_ne (houtside cache hcache e he).symm, hfile]

/-- One request keeps the invariant, whether it is served or fails. -/
theorem step_inv {s s' : FetchState} {r : FetchRequest} (hs : s.Inv P) (hown : s.OwnWindow P r)
    (h : s.step P checkUrl r = some s') : s'.Inv P := by
  unfold step at h
  split at h
  · rename_i p w hok
    cases h
    rcases fetchWithCacheAsync_eq_ok hok with
      ⟨cache, entry, hcache, hlookup, rfl, rfl⟩ | ⟨hmiss, hblock⟩
    · exact hs.hit hown hcache hlookup
    · obtain ⟨signed, raster, hsign, hraster, hcase⟩ := fetchBlocking_eq_ok hblock
      have hr : r.Downloads P raster := ⟨signed, hsign, hraster⟩
      rcases hcase with ⟨hno, rfl, rfl⟩ | ⟨cache, hcache, rfl, rfl⟩
      · refine hs.write (by simp [hno]) (by simp [hno]) ?_
        intro x hx
        rcases List.mem_append.mp hx with hx | hx
        · exact hs.served x hx
        · rw [List.mem_singleton] at hx
          subst hx
          exact ⟨raster, hr, by simp⟩
      · exact hs.miss hown hcache (hmiss cache hcache) hr
  · rename_i e w herr
    cases h
    rcases fetchWithCacheAsync_eq_error herr with rfl | ⟨hmiss, content, rfl⟩
    · exact ⟨hs.placed, hs.accounted, hs.served⟩
    · exact hs.write (fun cache hcache => (hown.outside cache hcache (hmiss cache hcache)).2)
        (fun _ _ => rfl) hs.served

/-- **In every run of fetches in which no request finds the window of another one
in the cache, every request is given its own window.** -/
theorem reach_allServed {found : Found P} {s : FetchState}
    (h : Reach (step P checkUrl) (OwnWindow P) (start P found) s) : s.AllServed P :=
  (h.invariant (start_inv found) fun _ _ _ hs hown hstep => step_inv hs hown hstep).served

/-- A request for a band of a scene over a window of the given width. -/
def bandWindow (href : String) (width : ℚ) : FetchRequest :=
  ⟨href, "/work/B04_0.tif", ⟨0, 0, width, 1⟩, some "EPSG:4326"⟩

/-- A request for the red band. -/
def redWindow (width : ℚ) : FetchRequest := bandWindow "https://example.com/B04.tif" width

theorem bandWindow_outside (href : String) (width : ℚ) (key : String) :
    (bandWindow href width).dst ≠ cachePath "/cache" key := by
  intro h
  have hlist := congrArg String.toList h
  simp [bandWindow, cachePath] at hlist

/-- An executor over an empty directory. -/
def emptyDirectory : Found Platform.exact :=
  .fresh Platform.exact (fun _ => none) "/cache" 0 [] List.nodup_nil

/-- A directory with the red band from an earlier executor and a file nobody accounts for. -/
def usedDirectory : Found Platform.exact where
  world :=
    ⟨Function.update (fun _ => none) "/cache/https://example.com/B04.tif"
        (some ⟨1, 1, 1 - 0, 0 - 1, fun _ _ => .finite 1⟩),
      some (fileCacheOpen "/cache" 8 [("unknown", 4, 0), ("https://example.com/B04.tif", 2, 0)]),
      0, []⟩
  earlier := [redWindow 1]
  placed := by
    rintro _ ⟨⟩
    exact placed_fileCacheOpen 8 (by decide)
  accounted := by
    rintro _ ⟨⟩ e he r hlatest
    obtain ⟨file, hfile, rfl⟩ := List.mem_map.mp he
    simp only [List.mem_cons, List.not_mem_nil, or_false] at hfile
    rcases hfile with rfl | rfl
    · cases hlatest
    · cases hlatest
      refine ⟨_, ⟨_, rfl, rfl⟩, ?_⟩
      simp [redWindow, bandWindow, cachePath]

theorem reach_allServed_again : ∃ s,
    Reach (step Platform.exact (fun _ => .ok ())) (OwnWindow Platform.exact)
        (start Platform.exact usedDirectory) s ∧
      s.served.length = 2 ∧ s.AllServed Platform.exact := by
  have hreach : ∃ s, Reach (step Platform.exact (fun _ => .ok ())) (OwnWindow Platform.exact)
      (start Platform.exact usedDirectory) s ∧ s.served.length = 2 := by
    refine ⟨_, .tail (a := bandWindow "https://example.com/B03.tif" 1)
      (.tail (a := redWindow 1) .refl ?_ rfl) ?_ rfl, rfl⟩
    · refine ⟨?_, ?_, ?_⟩
      · rintro _ ⟨⟩ _
        exact ⟨redWindow 1, rfl, rfl, rfl, rfl⟩
      · rintro _ raster ⟨⟩ hmiss
        cases hmiss
      · rintro _ ⟨⟩ hmiss
        cases hmiss
    · refine ⟨?_, ?_, ?_⟩
      · rintro _ ⟨⟩ hsome
        cases hsome
      · rintro _ raster ⟨⟩ _ ⟨_, ⟨⟩, ⟨⟩⟩
        exact Or.inr (by decide)
      · rintro _ ⟨⟩ _
        refine ⟨bandWindow_outside _ 1 _, ?_⟩
        intro e he
        rcases List.mem_cons.mp he with rfl | he
        · exact bandWindow_outside _ 1 "unknown"
        · rcases List.mem_cons.mp he with rfl | he
          · exact bandWindow_outside _ 1 "https://example.com/B04.tif"
          · cases he
  obtain ⟨s, hs, hlen⟩ := hreach
  exact ⟨s, hs, hlen, reach_allServed hs⟩

/-- A request for a wider window is given the narrow one. -/
theorem wider_window_given_narrow : ∃ s,
    Reach (step Platform.exact (fun _ => .ok ())) AnyStep
        (start Platform.exact emptyDirectory) s ∧
      ¬ s.AllServed Platform.exact := by
  refine ⟨_, .tail (a := redWindow 2) (.tail (a := redWindow 1) .refl trivial rfl) trivial rfl, ?_⟩
  intro h
  obtain ⟨raster, ⟨signed, hsign, hraster⟩, hgiven⟩ :=
    h _ (List.mem_append_right _ (List.mem_singleton_self _))
  cases hsign
  cases hraster
  have hwidth := congrArg (Option.map Raster.pixelWidth) hgiven
  have hwidth' : (some ((1 : ℚ) - 0)) = some ((2 : ℚ) - 0) := hwidth
  norm_num at hwidth'

end FetchState

end OrbitOpenEO
