import OrbitOpenEO.CacheTasks
import Mathlib.Algebra.BigOperators.Group.Finset.Basic
import Mathlib.Algebra.GroupWithZero.Nat
import Mathlib.Algebra.Order.BigOperators.Group.Finset

/-!
# Working sets of the file cache

The cache drops the entry that was used the longest time ago.  What that is good for: from
some second on let the tasks ask for the keys of a set only, whose files fit into the cache
together.  A key that has been found or entered since then stays, whatever the tasks do in
the meantime, and in whichever order (`working_set_stays`).

An entry that goes is the oldest of all, so had it been used since then, all would have
been, and they fit.
-/

namespace OrbitOpenEO

open Lib

namespace CacheIndex

/-- The key has an entry that was used at that time or later. -/
def Recent (since : Nat) (key : String) (index : CacheIndex) : Prop :=
  ∃ e ∈ index, e.1 = key ∧ since ≤ e.2.lastAccess

/-- What was used at that time or later is of the set, and no entry of the set is heavier
than it says. -/
def Weighs (weight : String → Nat) (W : Finset String) (since : Nat) (index : CacheIndex) : Prop :=
  ∀ e ∈ index, (e.1 ∈ W → e.2.sizeBytes ≤ weight e.1) ∧ (since ≤ e.2.lastAccess → e.1 ∈ W)

section Recent

variable {weight : String → Nat} {W : Finset String} {since : Nat} {index index' : CacheIndex}
  {key : String}

theorem Recent.mem_keys (h : Recent since key index) : key ∈ index.map Prod.fst := by
  obtain ⟨e, he, rfl, -⟩ := h
  exact List.mem_map_of_mem he

theorem Weighs.subset (h : Weighs weight W since index) (hsub : ∀ e ∈ index', e ∈ index) :
    Weighs weight W since index' :=
  fun e he => h e (hsub e he)

/-- If all was used since then, all fits. -/
theorem total_le_of_weighs (hnodup : (index.map Prod.fst).Nodup)
    (h : Weighs weight W since index) (hall : ∀ e ∈ index, since ≤ e.2.lastAccess) :
    total index ≤ ∑ k ∈ W, weight k := by
  have hin : ∀ e ∈ index, e.1 ∈ W := fun e he => (h e he).2 (hall e he)
  have hsizes : total index ≤ ((index.map Prod.fst).map weight).sum := by
    rw [List.map_map]
    exact List.sum_le_sum fun e he => (h e he).1 (hin e he)
  have hkeys : (index.map Prod.fst).toFinset ⊆ W := by
    intro k hk
    obtain ⟨e, he, rfl⟩ := List.mem_map.mp (List.mem_toFinset.mp hk)
    exact hin e he
  calc total index ≤ ((index.map Prod.fst).map weight).sum := hsizes
    _ = ∑ k ∈ (index.map Prod.fst).toFinset, weight k := (List.sum_toFinset weight hnodup).symm
    _ ≤ ∑ k ∈ W, weight k := Finset.sum_le_sum_of_subset hkeys

/-- Eviction keeps the recent entries of a set that fits. -/
theorem recent_evict {maxBytes : Nat} (hfits : ∑ k ∈ W, weight k ≤ maxBytes) (n : Nat)
    (index : CacheIndex) (files : PathBuf → Option Raster) (hnodup : (index.map Prod.fst).Nodup)
    (hweighs : Weighs weight W since index) (hrecent : Recent since key index) :
    Recent since key (evict maxBytes n index files).1 := by
  induction n generalizing index files with
  | zero =>
      exact hrecent
  | succ n ih =>
      unfold evict
      split
      · exact hrecent
      · rename_i hover
        split
        · exact hrecent
        · rename_i m hm
          obtain ⟨hmem, holdest⟩ := lru_spec hm
          obtain ⟨e, he, rfl, hsince⟩ := hrecent
          -- were the oldest one recent, all would be
          have hne : e.1 ≠ m.1 := by
            intro heq
            have hem : e = m := List.inj_on_of_nodup_map hnodup he hmem heq
            subst hem
            have htotal := total_le_of_weighs hnodup hweighs fun x hx =>
              hsince.trans (holdest x hx)
            exact hover (htotal.trans hfits)
          refine ih _ _ (hnodup.sublist (List.filter_sublist.map _))
            (hweighs.subset fun x hx => (List.mem_filter.mp hx).1) ⟨e, ?_, rfl, hsince⟩
          exact List.mem_filter.mpr ⟨he, by simpa using hne⟩

theorem recent_touch {key' : String} {time : Nat} (htime : since ≤ time)
    (hrecent : Recent since key index) : Recent since key (touch index key' time) := by
  obtain ⟨e, he, rfl, hsince⟩ := hrecent
  refine ⟨_, List.mem_map_of_mem he, ?_, ?_⟩
  · split <;> rfl
  · split
    · exact htime
    · exact hsince

theorem recent_touch_self {time : Nat} (htime : since ≤ time) (hmem : key ∈ index.map Prod.fst) :
    Recent since key (touch index key time) := by
  obtain ⟨e, he, rfl⟩ := List.mem_map.mp hmem
  refine ⟨_, List.mem_map_of_mem he, ?_, ?_⟩
  · rw [if_pos rfl]
  · rw [if_pos rfl]
    exact htime

theorem Weighs.touch {time : Nat} (h : Weighs weight W since index) (hkey : key ∈ W) :
    Weighs weight W since (touch index key time) := by
  intro e he
  obtain ⟨e', he', rfl⟩ := List.mem_map.mp he
  split
  · rename_i heq
    exact ⟨fun hin => (h e' he').1 hin, fun _ => heq ▸ hkey⟩
  · exact h e' he'

theorem recent_insert {slot : Nat} {key' : String} {entry : CacheEntry}
    (htime : since ≤ entry.lastAccess) (hrecent : Recent since key index) :
    Recent since key (insert index slot key' entry) := by
  obtain ⟨e, he, rfl, hsince⟩ := hrecent
  by_cases hkey : e.1 = key'
  · exact ⟨_, mem_insert_self index slot key' entry, hkey.symm, htime⟩
  · exact ⟨e, mem_insert_of_ne he hkey, rfl, hsince⟩

theorem Weighs.insert {slot : Nat} {entry : CacheEntry} (h : Weighs weight W since index)
    (hkey : key ∈ W) (hsize : entry.sizeBytes ≤ weight key) :
    Weighs weight W since (insert index slot key entry) := by
  intro e he
  rcases mem_insert he with rfl | ⟨he, -⟩
  · exact ⟨fun _ => hsize, fun _ => hkey⟩
  · exact h e he

end Recent

end CacheIndex

namespace CacheSys

section WorkingSet

variable (P : Platform) (weight : String → Nat) (W : Finset String) (since : Nat)

/-- A task of a phase asks for keys of the set and enters files that are no heavier than it
says, and none clears the cache. -/
def Keeps : CacheTask → Prop
  | .get url => P.keyFor url ∈ W
  | .enter key size => key ∈ W ∧ size ≤ weight key
  | .clear => False
  | _ => True

instance : (task : CacheTask) → Decidable (Keeps P weight W task)
  | .get url => inferInstanceAs (Decidable (P.keyFor url ∈ W))
  | .enter key size => inferInstanceAs (Decidable (key ∈ W ∧ size ≤ weight key))
  | .clear => .isFalse id
  | .insert _ _ | .measure _ | .evict _ | .finish _ => .isTrue trivial
  | .found _ | .cleared | .inserted _ | .failed => .isTrue trivial

/-- A step of a phase: the clock is past that time, and the task keeps to the set. -/
def Within (s : CacheSys) : CacheAction → Prop
  | .step k now _ => since ≤ now ∧ ∀ task ∈ s.tasks[k]?, Keeps P weight W task
  | _ => True

instance (s : CacheSys) : (a : CacheAction) → Decidable (Within P weight W since s a)
  | .step k now _ =>
      inferInstanceAs (Decidable (since ≤ now ∧ ∀ task ∈ s.tasks[k]?, Keeps P weight W task))
  | .callGet _ | .callInsert _ _ | .callClear | .write _ _ => .isTrue trivial

/-- The key that a step finds or enters. -/
def uses (s : CacheSys) : CacheAction → Option String
  | .step k _ _ =>
      match s.tasks[k]? with
      | some (.get url) => (s.cache.index.lookup (P.keyFor url)).map fun _ => P.keyFor url
      | some (.enter key _) => some key
      | _ => none
  | _ => none

/-- A phase starts: what the index has is older, and the set fits. -/
structure PhaseStart (s : CacheSys) : Prop where
  placed : CacheIndex.Placed s.cache.root s.cache.index
  measured : ∀ e ∈ s.cache.index, e.1 ∈ W → e.2.sizeBytes ≤ weight e.1
  older : ∀ e ∈ s.cache.index, e.2.lastAccess < since
  fits : s.cache.maxBytes = 0 ∨ ∑ k ∈ W, weight k ≤ s.cache.maxBytes

/-- What holds throughout a phase. -/
structure InPhase (s : CacheSys) : Prop where
  placed : CacheIndex.Placed s.cache.root s.cache.index
  weighs : CacheIndex.Weighs weight W since s.cache.index
  fits : s.cache.maxBytes = 0 ∨ ∑ k ∈ W, weight k ≤ s.cache.maxBytes

variable {P weight W since}
variable {s t : CacheSys} {a : CacheAction} {key : String}

theorem PhaseStart.inPhase (h : PhaseStart weight W since s) : InPhase weight W since s :=
  ⟨h.placed, fun e he => ⟨h.measured e he, fun hsince => absurd (h.older e he) (not_lt.mpr hsince)⟩,
    h.fits⟩

/-- What a step of a phase does to the index. -/
inductive IndexStep (P : Platform) (weight : String → Nat) (W : Finset String) (since : Nat)
    (s : CacheSys) (a : CacheAction) (index : CacheIndex) : Prop
  | keep (huse : s.uses P a = none) (hindex : index = s.cache.index)
  | touch (key : String) (now : Nat) (hnow : since ≤ now) (hkey : key ∈ W)
      (huse : s.uses P a = some key) (hmem : key ∈ s.cache.index.map Prod.fst)
      (hindex : index = CacheIndex.touch s.cache.index key now)
  | enter (key : String) (slot size now : Nat) (hnow : since ≤ now) (hkey : key ∈ W)
      (hsize : size ≤ weight key) (huse : s.uses P a = some key)
      (hindex : index =
        CacheIndex.insert s.cache.index slot key ⟨cachePath s.cache.root key, size, now⟩)
  | evict (huse : s.uses P a = none) (hmax : s.cache.maxBytes ≠ 0)
      (hindex : index =
        (CacheIndex.evict s.cache.maxBytes s.cache.index.length s.cache.index s.files).1)

theorem indexStep (hG : Within P weight W since s a) (h : step P s a = some t) :
    t.cache.root = s.cache.root ∧ t.cache.maxBytes = s.cache.maxBytes ∧
      IndexStep P weight W since s a t.cache.index := by
  rcases step_cases h with ⟨task, -, -, -, rfl, ha⟩ | ⟨path, content, -, rfl, ha⟩ |
    ⟨k, now, slot, task, task', s', rfl, htask, hstep, rfl⟩
  · refine ⟨rfl, rfl, .keep ?_ rfl⟩
    cases a with
    | step k now slot => exact absurd rfl (ha k now slot)
    | _ => rfl
  · refine ⟨rfl, rfl, .keep ?_ rfl⟩
    cases a with
    | step k now slot => exact absurd rfl (ha k now slot)
    | _ => rfl
  · obtain ⟨hnow, hG⟩ := hG
    replace hG := hG task htask
    obtain ⟨-, hroot, hmax⟩ := stepTask_frame hstep
    refine ⟨hroot, hmax, ?_⟩
    cases task with
    | get url =>
        simp only [stepTask] at hstep
        split at hstep
        · rename_i hlookup
          cases hstep
          exact .keep (by simp [uses, htask, hlookup]) rfl
        · rename_i entry hlookup
          cases hstep
          exact .touch (P.keyFor url) now hnow hG (by simp [uses, htask, hlookup])
            (List.mem_map_of_mem (f := Prod.fst) (mem_of_lookup_eq_some hlookup)) rfl
    | clear => exact hG.elim
    | enter key size =>
        cases hstep
        exact .enter key slot size now hnow hG.1 hG.2 (by simp [uses, htask]) rfl
    | evict key =>
        simp only [stepTask] at hstep
        split at hstep
        · cases hstep
          exact .keep (by simp [uses, htask]) rfl
        · rename_i hbound
          cases hstep
          exact .evict (by simp [uses, htask]) hbound rfl
    | insert url src =>
        simp only [stepTask] at hstep
        split at hstep <;> cases hstep <;> exact .keep (by simp [uses, htask]) rfl
    | measure key =>
        simp only [stepTask] at hstep
        split at hstep <;> cases hstep <;> exact .keep (by simp [uses, htask]) rfl
    | finish key =>
        cases hstep
        exact .keep (by simp [uses, htask]) rfl
    | found path => cases hstep
    | cleared => cases hstep
    | inserted path => cases hstep
    | failed => cases hstep

theorem InPhase.next (hs : InPhase weight W since s) (hG : Within P weight W since s a)
    (h : step P s a = some t) : InPhase weight W since t := by
  obtain ⟨hroot, hmax, hindex⟩ := indexStep hG h
  refine ⟨?_, ?_, hmax ▸ hs.fits⟩
  · rw [hroot]
    cases hindex with
    | keep _ hindex => rw [hindex]; exact hs.placed
    | touch key now _ _ _ _ hindex => rw [hindex]; exact hs.placed.touch key now
    | enter key slot size now _ _ _ _ hindex =>
        rw [hindex]; exact hs.placed.insert slot key size now
    | evict _ _ hindex =>
        rw [hindex]; exact (CacheIndex.evict_keeps _ _ s.files hs.placed).1
  · cases hindex with
    | keep _ hindex => rw [hindex]; exact hs.weighs
    | touch key now _ hkey _ _ hindex => rw [hindex]; exact hs.weighs.touch hkey
    | enter key slot size now _ hkey hsize _ hindex =>
        rw [hindex]; exact hs.weighs.insert hkey hsize
    | evict _ _ hindex =>
        rw [hindex]
        exact hs.weighs.subset fun e he =>
          ((CacheIndex.evict_keeps _ _ s.files hs.placed).2 e he).1

theorem InPhase.reach (hs : InPhase weight W since s)
    (h : Reach (step P) (Within P weight W since) s t) : InPhase weight W since t :=
  h.invariant hs fun _ _ _ hs hG hstep => hs.next hG hstep

/-- A recent key stays. -/
theorem InPhase.recent_next (hs : InPhase weight W since s) (hG : Within P weight W since s a)
    (h : step P s a = some t) (hrecent : CacheIndex.Recent since key s.cache.index) :
    CacheIndex.Recent since key t.cache.index := by
  obtain ⟨-, -, hindex⟩ := indexStep hG h
  cases hindex with
  | keep _ hindex => rw [hindex]; exact hrecent
  | touch key' now hnow _ _ _ hindex =>
      rw [hindex]; exact CacheIndex.recent_touch hnow hrecent
  | enter key' slot size now hnow _ _ _ hindex =>
      rw [hindex]; exact CacheIndex.recent_insert hnow hrecent
  | evict _ hmax hindex =>
      rw [hindex]
      exact CacheIndex.recent_evict (hs.fits.resolve_left hmax) _ _ _ hs.placed.1 hs.weighs hrecent

/-- A key that is found or entered is recent. -/
theorem recent_of_uses (hG : Within P weight W since s a) (h : step P s a = some t)
    (huse : s.uses P a = some key) : CacheIndex.Recent since key t.cache.index := by
  obtain ⟨-, -, hindex⟩ := indexStep hG h
  cases hindex with
  | keep hnone _ => cases hnone.symm.trans huse
  | touch key' now hnow _ huse' hmem hindex =>
      cases huse'.symm.trans huse
      rw [hindex]
      exact CacheIndex.recent_touch_self hnow hmem
  | enter key' slot size now hnow _ _ huse' hindex =>
      cases huse'.symm.trans huse
      rw [hindex]
      exact ⟨_, CacheIndex.mem_insert_self _ _ _ _, rfl, hnow⟩
  | evict hnone _ _ => cases hnone.symm.trans huse

/-- The file of a key that keeps its entry stays: the copies replace it, and the evictions
remove the files of other keys. -/
theorem file_stays (hplaced : CacheIndex.Placed s.cache.root s.cache.index)
    (hG : Within P weight W since s a) (h : step P s a = some t)
    (hmem : key ∈ t.cache.index.map Prod.fst) (hfile : (s.file key).isSome = true) :
    (t.file key).isSome = true := by
  rcases step_cases h with ⟨task, -, -, -, rfl, -⟩ | ⟨path, content, hpath, rfl, -⟩ |
    ⟨k, now, slot, task, task', s', rfl, htask, hstep, rfl⟩
  · exact hfile
  · have hother : Function.update s.files path content (cachePath s.cache.root key) =
        s.file key := Function.update_of_ne (hpath key).symm _ _
    exact (congrArg Option.isSome hother).trans hfile
  · cases task with
    | clear =>
        exact (hG.2 _ htask).elim
    | insert url src =>
        simp only [stepTask] at hstep
        split at hstep
        · cases hstep
          exact hfile
        · cases hstep
          simp only [file, Function.update_apply]
          split
          · rfl
          · exact hfile
    | evict key' =>
        simp only [stepTask] at hstep
        split at hstep
        · cases hstep
          exact hfile
        · cases hstep
          have hkept : ¬ CacheIndex.Drops s.cache.index (CacheIndex.evict s.cache.maxBytes
              s.cache.index.length s.cache.index s.files).1 key := fun hdrop => hdrop.2 hmem
          have hstays := CacheIndex.evict_files_of_not_drops s.cache.maxBytes
            s.cache.index.length s.cache.index s.files hplaced hkept
          exact (congrArg Option.isSome hstays).trans hfile
    | get url =>
        simp only [stepTask] at hstep
        split at hstep <;> cases hstep <;> exact hfile
    | measure key' =>
        simp only [stepTask] at hstep
        split at hstep <;> cases hstep <;> exact hfile
    | enter key' size =>
        cases hstep
        exact hfile
    | finish key' =>
        cases hstep
        exact hfile
    | found path => cases hstep
    | cleared => cases hstep
    | inserted path => cases hstep
    | failed => cases hstep

/-- A recent key stays with its file. -/
theorem InPhase.recent_reach (hs : InPhase weight W since s)
    (h : Reach (step P) (Within P weight W since) s t)
    (hrecent : CacheIndex.Recent since key s.cache.index) :
    CacheIndex.Recent since key t.cache.index ∧
      ((s.file key).isSome = true → (t.file key).isSome = true) := by
  have hinv := h.invariant
    (I := fun t => InPhase weight W since t ∧ CacheIndex.Recent since key t.cache.index ∧
      ((s.file key).isSome = true → (t.file key).isSome = true)) ⟨hs, hrecent, id⟩ ?_
  · exact hinv.2
  · rintro t a u ⟨ht, hrecent, hfile⟩ hG hstep
    have hnext := ht.recent_next hG hstep hrecent
    exact ⟨ht.next hG hstep, hnext,
      fun hthere => file_stays ht.placed hG hstep hnext.mem_keys (hfile hthere)⟩

/-- What is in the index is found, under its path. -/
theorem get_finds (hplaced : CacheIndex.Placed s.cache.root s.cache.index)
    (hmem : key ∈ s.cache.index.map Prod.fst) {k : Nat} {url : String}
    (htask : s.tasks[k]? = some (.get url)) (hkey : P.keyFor url = key) (now slot : Nat) :
    ∃ u, step P s (.step k now slot) = some u ∧ u.files = s.files ∧
      u.tasks[k]? = some (.found (some (cachePath s.cache.root key))) := by
  subst hkey
  cases hlookup : s.cache.index.lookup (P.keyFor url) with
  | none =>
      obtain ⟨e, he, hkey⟩ := List.mem_map.mp hmem
      have := List.lookup_eq_none_iff.mp hlookup e he
      simp [hkey] at this
  | some entry =>
      have hpath : entry.path = cachePath s.cache.root (P.keyFor url) :=
        hplaced.2 (P.keyFor url, entry) (mem_of_lookup_eq_some hlookup)
      have hlt := (List.getElem?_eq_some_iff.mp htask).1
      refine ⟨{ s.withIndex (CacheIndex.touch s.cache.index (P.keyFor url) now) with
        tasks := s.tasks.set k (.found (some entry.path)) }, ?_, rfl, ?_⟩
      · simp [step, htask, stepTask, hlookup, withIndex]
      · rw [← hpath, List.getElem?_set_self hlt]

/-- **The working set stays.**  A key that was found or entered in a phase is found by every
later `get` of the phase, and a file that was there then is still there. -/
theorem working_set_stays {s₀ : CacheSys} (h₀ : PhaseStart weight W since s₀)
    (h : Reach (step P) (Within P weight W since) s₀ s) (hG : Within P weight W since s a)
    (hstep : step P s a = some t) (huse : s.uses P a = some key) {t' : CacheSys}
    (h' : Reach (step P) (Within P weight W since) t t') {k : Nat} {url : String}
    (htask : t'.tasks[k]? = some (.get url)) (hkey : P.keyFor url = key) (now slot : Nat) :
    ∃ u, step P t' (.step k now slot) = some u ∧
      u.tasks[k]? = some (.found (some (cachePath t'.cache.root key))) ∧
      ((t.file key).isSome = true → (u.files (cachePath t'.cache.root key)).isSome = true) := by
  have hs := h₀.inPhase.reach h
  have ht := hs.next hG hstep
  obtain ⟨hrecent, hfile⟩ := ht.recent_reach h' (recent_of_uses hG hstep huse)
  obtain ⟨u, hu, hfiles, hfound⟩ := get_finds (ht.reach h').placed hrecent.mem_keys htask hkey
    now slot
  exact ⟨u, hu, hfound, fun hthere => by rw [hfiles]; exact hfile hthere⟩

end WorkingSet

/-- A cache of twenty bytes with an old file of ten, and two of eight bytes to insert. -/
def oldCache : CacheSys where
  cache := ⟨"/cache", 20, [("old", ⟨"/cache/old", 10, 3⟩)]⟩
  files := fun p =>
    if p = "/cache/old" then some (sampleFile 5) else if p = "/small" then some (sampleFile 4)
    else none
  tasks := []
  evictions := 0

/-- The first file is inserted, the second drives the old one out, and the first is asked for. -/
def insertAndGet : List CacheAction :=
  [.callInsert "b" "/small"] ++ List.replicate 5 (.step 1 9 0) ++ [.callGet "a"]

theorem working_set_stays_oldCache :
    ∃ t' u, step Platform.exact t' (.step 2 9 0) = some u ∧
      CacheIndex.Drops oldCache.cache.index t'.cache.index "old" ∧
      u.tasks[2]? = some (.found (some "/cache/a")) ∧ (u.files "/cache/a").isSome = true := by
  let G := Within Platform.exact (fun _ => 8) {"a", "b"} 9
  have h₀ : PhaseStart (fun _ => 8) {"a", "b"} 9 oldCache :=
    ⟨⟨by decide, by decide⟩, by decide, by decide, .inr (by decide)⟩
  have hbefore : Allowed (step Platform.exact) G oldCache
      [.callInsert "a" "/small", .step 0 9 0, .step 0 9 0] := by decide
  obtain ⟨s, hs, hG, t, ht, huse, hfile, hafter⟩ : ∃ s,
      runAll (step Platform.exact) oldCache
        [.callInsert "a" "/small", .step 0 9 0, .step 0 9 0] = some s ∧ G s (.step 0 9 0) ∧
      ∃ t, step Platform.exact s (.step 0 9 0) = some t ∧
        s.uses Platform.exact (.step 0 9 0) = some "a" ∧ (t.file "a").isSome = true ∧
        ∃ t', runAll (step Platform.exact) t insertAndGet = some t' ∧
          Allowed (step Platform.exact) G t insertAndGet ∧ t'.cache.root = "/cache" ∧
          t'.tasks[2]? = some (.get "a") ∧
          CacheIndex.Drops oldCache.cache.index t'.cache.index "old" :=
    ⟨_, rfl, by decide, _, rfl, rfl, rfl, _, rfl, by decide, rfl, rfl, by decide⟩
  obtain ⟨t', ht', hall, hroot, htask, hdrop⟩ := hafter
  obtain ⟨u, hu, hfound, hthere⟩ := working_set_stays h₀ (reach_of_runAll .refl hbefore hs) hG ht
    huse (reach_of_runAll .refl hall ht') htask rfl 9 0
  rw [hroot] at hfound hthere
  exact ⟨t', u, hu, hdrop, hfound, hthere hfile⟩

end CacheSys

end OrbitOpenEO
