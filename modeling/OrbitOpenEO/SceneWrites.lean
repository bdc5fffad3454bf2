import OrbitOpenEO.ConfinedFiles
import OrbitOpenEO.Lib.Writes

/-!
# Loops over scenes as batches of writes

A dataset over one file, or over a data file and a mask, computes the content of its
output file from what is in its inputs.  The loop over the bands and scenes of a cube is
then a batch of writes.  `OutputsApart` says that the files of different scenes do not get
in each other's way, and under it the loop goes through exactly if each scene does, and
leaves in each file what its scene computes from the files at the start.
-/

namespace OrbitOpenEO

open Lib

/-- Whether a name is accepted does not depend on where it comes from. -/
theorem validateIdentifier_field {name field field' : String}
    (h : validateIdentifier name field = .ok ()) : validateIdentifier name field' = .ok () := by
  unfold validateIdentifier at h ⊢
  dsimp only at h ⊢
  split_ifs at h ⊢
  all_goals
    generalize name.toList.find? (fun c => !(c.isAlphanum || c == '_' || c == '-' || c == '.')) =
      found at h ⊢
    cases found
  · cases h
  · cases h
  · rfl
  · cases h

theorem scenePath_of_noSlash {dir : PathBuf} {stem suffix : String} {t : Nat}
    (hstem : NoSlash stem) (hsuffix : suffix ∈ sceneSuffixes) :
    scenePath dir stem suffix t = dir ++ "/" ++ (stem ++ suffix ++ toString t ++ ".tif") := by
  refine if_neg ?_
  intro hhead
  have hslash := List.mem_of_mem_head? hhead
  simp only [String.toList_append, List.mem_append] at hslash
  have hnone : ∀ s ∈ sceneSuffixes, '/' ∉ s.toList := by decide
  rcases hslash with ((h | h) | h) | h
  · exact hstem h
  · exact hnone suffix hsuffix h
  · exact noSlash_nat t h
  · exact absurd h (by decide)

theorem getElem?_sceneFiles {dir : PathBuf} {stem suffix : String} {n t : Nat} {p : PathBuf} :
    (sceneFiles dir stem suffix n)[t]? = some p ↔ t < n ∧ p = scenePath dir stem suffix t := by
  rw [sceneFiles, List.getElem?_map, Option.map_eq_some_iff]
  constructor
  · rintro ⟨t', ht', rfl⟩
    obtain ⟨hlt, rfl⟩ := List.getElem?_eq_some_iff.mp ht'
    rw [List.length_range] at hlt
    rw [List.getElem_range]
    exact ⟨hlt, rfl⟩
  · rintro ⟨ht, rfl⟩
    exact ⟨t, List.getElem?_range ht, rfl⟩

theorem forall₂_sceneFiles {dir : PathBuf} {R : PathBuf → PathBuf → Prop}
    {stem suffix : String} {n : Nat} {ps : List PathBuf} (hlength : ps.length = n)
    (h : ∀ (t : Nat) (p : PathBuf), t < n → ps[t]? = some p → R (scenePath dir stem suffix t) p) :
    List.Forall₂ R (sceneFiles dir stem suffix n) ps := by
  refine List.forall₂_iff_get.mpr ⟨by rw [length_sceneFiles, hlength], ?_⟩
  intro t ht ht'
  have hfirst : (sceneFiles dir stem suffix n).get ⟨t, ht⟩ = scenePath dir stem suffix t :=
    (getElem?_sceneFiles.mp (List.getElem?_eq_getElem ht)).2
  rw [hfirst]
  exact h t _ (by simpa using ht) (List.getElem?_eq_getElem ht')

/-- Files of different bands or scenes are different, if the names of the bands are
components of a path. -/
theorem scenePath_parts {dir : PathBuf} {stem stem' suffix suffix' : String} {t t' : Nat}
    (hstem : NoSlash stem) (hstem' : NoSlash stem') (hs : suffix ∈ sceneSuffixes)
    (hs' : suffix' ∈ sceneSuffixes)
    (h : scenePath dir stem suffix t = scenePath dir stem' suffix' t') :
    stem ++ suffix = stem' ++ suffix' ∧ t = t' := by
  rw [scenePath_of_noSlash hstem hs, scenePath_of_noSlash hstem' hs'] at h
  obtain ⟨hname, ht⟩ := numbered_scenePath_inj hs hs' h
  exact ⟨(String.append_right_inj _).mp hname, ht⟩

theorem scenePath_distinct {dir : PathBuf} {bands : List (String × List PathBuf)}
    {suffix : String} (hsuffix : suffix ∈ sceneSuffixes)
    (hnames : ∀ e ∈ bands, validateIdentifier e.1 "mask.bands" = .ok ())
    {e e' : String × List PathBuf} (he : e ∈ bands) (he' : e' ∈ bands) {t t' : Nat}
    (h : scenePath dir e.1 suffix t = scenePath dir e'.1 suffix t') : e.1 = e'.1 ∧ t = t' := by
  obtain ⟨hname, ht⟩ := scenePath_parts (noSlash_of_validateIdentifier (hnames e he))
    (noSlash_of_validateIdentifier (hnames e' he')) hsuffix hsuffix h
  exact ⟨(String.append_left_inj _).mp hname, ht⟩

section Writes

variable (P : Platform)

/-- A raster computed from two files that can be opened together. -/
def pairWrite (compute : Raster → Raster → Raster) (data mask out : PathBuf) :
    Write PathBuf Raster where
  out := out
  reads := [data, mask]
  compute files := (files data).bind fun d => (files mask).bind fun m =>
    if (P.refuse [d, m]).isNone then some (compute d m) else none
  compute_congr := by
    intro f g h
    rw [h data (by simp), h mask (by simp)]

/-- A raster computed from one file. -/
def singleWrite (compute : List Raster → Raster) (source out : PathBuf) :
    Write PathBuf Raster where
  out := out
  reads := [source]
  compute files := (files source).bind fun r =>
    if (P.refuse [r]).isNone then some (compute [r]) else none
  compute_congr := by
    intro f g h
    rw [h source (by simp)]

variable {P}

theorem performs_reductionWithMask (data mask out : PathBuf) (fail : Stage → String → String)
    (compute : Raster → Raster → Raster) :
    Performs World.files True [pairWrite P compute data mask out] ()
      (reductionWithMask P data mask out fail compute) := by
  intro w
  have hrun : runWrites [pairWrite P compute data mask out] w.files =
      ((pairWrite P compute data mask out).compute w.files).bind fun r =>
        some (Function.update w.files out (some r)) := rfl
  rw [hrun]
  unfold reductionWithMask pairWrite
  dsimp only
  cases w.files data with
  | none =>
      exact fun _ => rfl
  | some d =>
      cases w.files mask with
      | none =>
          exact fun _ => rfl
      | some m =>
          simp only [Option.bind_some]
          rcases P.refuse [d, m] with _ | ⟨stage, e⟩
          · exact ⟨trivial, trivial, rfl⟩
          · cases stage <;> exact fun _ => rfl

theorem performs_reduction (source out : PathBuf) (fail : Stage → String → String)
    (compute : List Raster → Raster) :
    Performs World.files True [singleWrite P compute source out] ()
      (reduction P [source] out fail compute) := by
  intro w
  have hrun : runWrites [singleWrite P compute source out] w.files =
      ((singleWrite P compute source out).compute w.files).bind fun r =>
        some (Function.update w.files out (some r)) := rfl
  rw [hrun]
  unfold reduction singleWrite
  dsimp only
  cases hfile : w.files source with
  | none =>
      simp only [List.find?_cons, hfile, Option.isNone_none]
      exact fun _ => rfl
  | some r =>
      simp only [List.find?_cons, hfile, Option.isNone_some, List.find?_nil, List.filterMap_cons,
        List.filterMap_nil, Option.bind_some]
      rcases P.refuse [r] with _ | ⟨stage, e⟩
      · exact ⟨trivial, trivial, rfl⟩
      · cases stage <;> exact fun _ => rfl

/-- The writes of a loop over the bands, scene by scene: `out` names the files. -/
def bandWrites (P : Platform) (compute : Raster → Raster → Raster) (out : String → Nat → PathBuf)
    (masks : List PathBuf) (bands : List (String × List PathBuf)) : List (Write PathBuf Raster) :=
  bands.flatMap fun e => (e.2.zip masks).zipIdx.map fun p =>
    pairWrite P compute p.1.1 p.1.2 (out e.1 p.2)

theorem mem_zipIdx_zip {data masks : List PathBuf} {p : (PathBuf × PathBuf) × Nat} :
    p ∈ (data.zip masks).zipIdx ↔ data[p.2]? = some p.1.1 ∧ masks[p.2]? = some p.1.2 := by
  rw [List.mem_zipIdx_iff_getElem?, List.getElem?_zip_eq_some]

theorem forall_mem_bandWrites {compute : Raster → Raster → Raster} {out : String → Nat → PathBuf}
    {masks : List PathBuf} {bands : List (String × List PathBuf)}
    {Q : Write PathBuf Raster → Prop} :
    (∀ a ∈ bandWrites P compute out masks bands, Q a) ↔
      ∀ e ∈ bands, ∀ (t : Nat) (d m : PathBuf), e.2[t]? = some d → masks[t]? = some m →
        Q (pairWrite P compute d m (out e.1 t)) := by
  simp only [bandWrites, List.mem_flatMap, List.mem_map]
  constructor
  · intro h e he t d m hd hm
    exact h _ ⟨e, he, ((d, m), t), mem_zipIdx_zip.mpr ⟨hd, hm⟩, rfl⟩
  · rintro h a ⟨e, he, p, hp, rfl⟩
    obtain ⟨hd, hm⟩ := mem_zipIdx_zip.mp hp
    exact h e he p.2 p.1.1 p.1.2 hd hm

/-- No file of a loop over bands and scenes stands for two scenes, is one of the masks or
is what another scene reads. -/
structure OutputsApart (out : String → Nat → PathBuf) (masks : List PathBuf)
    (bands : List (String × List PathBuf)) : Prop where
  distinct : ∀ e ∈ bands, ∀ e' ∈ bands, ∀ t t', out e.1 t = out e'.1 t' → e.1 = e'.1 ∧ t = t'
  notMask : ∀ e ∈ bands, ∀ t < masks.length, out e.1 t ∉ masks
  notRead : ∀ e ∈ bands, ∀ e' ∈ bands, ∀ t < masks.length, ∀ t', e'.2[t']? = some (out e.1 t) →
    e.1 = e'.1 ∧ t = t'

/-- The scenes of a loop have different numbers. -/
theorem pairwise_zipIdx {α : Type} (xs : List α) : xs.zipIdx.Pairwise fun p q => p.2 ≠ q.2 := by
  refine List.pairwise_map.mp ?_
  rw [List.zipIdx_map_snd]
  exact List.nodup_range'

theorem writesApart_bandWrites {compute : Raster → Raster → Raster}
    {out : String → Nat → PathBuf} {masks : List PathBuf} {bands : List (String × List PathBuf)}
    (hnd : (bands.map Prod.fst).Nodup) (h : OutputsApart out masks bands) :
    WritesApart (bandWrites P compute out masks bands) := by
  have hpair : ∀ e ∈ bands, ∀ e' ∈ bands, ∀ t d m t' d' m', masks[t]? = some m →
      e'.2[t']? = some d' → masks[t']? = some m' → ¬ (e.1 = e'.1 ∧ t = t') →
      (pairWrite P compute d m (out e.1 t)).out ∉
          (pairWrite P compute d' m' (out e'.1 t')).reads ∧
        (pairWrite P compute d m (out e.1 t)).out ≠
          (pairWrite P compute d' m' (out e'.1 t')).out := by
    intro e he e' he' t d m t' d' m' hm hd' hm' hne
    have ht : t < masks.length := (List.getElem?_eq_some_iff.mp hm).1
    have hreads : out e.1 t ∉ [d', m'] := by
      intro hmem
      rcases List.mem_pair.mp hmem with rfl | rfl
      · exact hne (h.notRead e he e' he' t ht t' hd')
      · exact h.notMask e he t ht (List.mem_of_getElem? hm')
    exact ⟨hreads, fun heq => hne (h.distinct e he e' he' t t' heq)⟩
  refine List.pairwise_flatMap.mpr ⟨?_, ?_⟩
  · intro e he
    refine List.pairwise_map.mpr ((pairwise_zipIdx (e.2.zip masks)).imp_of_mem ?_)
    intro p q hp hq hpq
    obtain ⟨_, hm⟩ := mem_zipIdx_zip.mp hp
    obtain ⟨hd', hm'⟩ := mem_zipIdx_zip.mp hq
    exact hpair e he e he p.2 p.1.1 p.1.2 q.2 q.1.1 q.1.2 hm hd' hm' fun heq => hpq heq.2
  · have hbands : bands.Pairwise fun e e' => e.1 ≠ e'.1 := List.pairwise_map.mp hnd
    refine hbands.imp_of_mem ?_
    intro e e' he he' hee' a ha b hb
    obtain ⟨p, hp, rfl⟩ := List.mem_map.mp ha
    obtain ⟨q, hq, rfl⟩ := List.mem_map.mp hb
    obtain ⟨_, hm⟩ := mem_zipIdx_zip.mp hp
    obtain ⟨hd', hm'⟩ := mem_zipIdx_zip.mp hq
    exact hpair e he e' he' p.2 p.1.1 p.1.2 q.2 q.1.1 q.1.2 hm hd' hm' fun heq => hee' heq.1

/-- The loop over the scenes of one band. -/
theorem performs_scenes {compute : Raster → Raster → Raster} {out : Nat → PathBuf}
    (data masks : List PathBuf) {body : (PathBuf × PathBuf) × Nat → Eval PathBuf}
    (h : ∀ p, Performs World.files True [pairWrite P compute p.1.1 p.1.2 (out p.2)] (out p.2)
      (body p)) :
    Performs World.files True
      ((data.zip masks).zipIdx.map fun p => pairWrite P compute p.1.1 p.1.2 (out p.2))
      ((List.range (data.zip masks).length).map out) (mapEach body (data.zip masks).zipIdx) := by
  have hloop := performs_mapEach fun p (_ : p ∈ (data.zip masks).zipIdx) => h p
  rw [map_zipIdx_snd (data.zip masks) out, ← List.map_eq_flatMap] at hloop
  exact hloop.congr (by simp)

/-- All scenes of all bands go through exactly if each pair of files can be read and
opened together. -/
theorem runWrites_bandWrites_isSome_iff {compute : Raster → Raster → Raster}
    {out : String → Nat → PathBuf} {masks : List PathBuf} {bands : List (String × List PathBuf)}
    (hnd : (bands.map Prod.fst).Nodup) (h : OutputsApart out masks bands)
    (files : PathBuf → Option Raster) :
    (runWrites (bandWrites P compute out masks bands) files).isSome ↔
      ∀ e ∈ bands, ∀ (t : Nat) (d m : PathBuf), e.2[t]? = some d → masks[t]? = some m →
        ∃ data mask, files d = some data ∧ files m = some mask ∧ P.refuse [data, mask] = none := by
  rw [runWrites_isSome_iff (writesApart_bandWrites hnd h), forall_mem_bandWrites]
  refine forall₂_congr fun e _ => forall_congr' fun t => forall_congr' fun d => forall_congr'
    fun m => forall₂_congr fun _ _ => ?_
  simp only [pairWrite, Option.isSome_iff_exists, Option.bind_eq_some_iff,
    Option.ite_none_right_eq_some, Option.isNone_iff_eq_none]
  constructor
  · rintro ⟨_, data, hdata, mask, hmask, hr, _⟩
    exact ⟨data, mask, hdata, hmask, hr⟩
  · rintro ⟨data, mask, hdata, hmask, hr⟩
    exact ⟨compute data mask, data, hdata, mask, hmask, hr, rfl⟩

/-- What the loop leaves in the file of a scene. -/
theorem runWrites_bandWrites_out {compute : Raster → Raster → Raster}
    {out : String → Nat → PathBuf} {masks : List PathBuf} {bands : List (String × List PathBuf)}
    (hnd : (bands.map Prod.fst).Nodup) (h : OutputsApart out masks bands)
    {files files' : PathBuf → Option Raster}
    (hrun : runWrites (bandWrites P compute out masks bands) files = some files')
    {e : String × List PathBuf} (he : e ∈ bands) {t : Nat} {d m : PathBuf}
    (hd : e.2[t]? = some d) (hm : masks[t]? = some m) :
    ∃ data mask, files d = some data ∧ files m = some mask ∧
      files' (out e.1 t) = some (compute data mask) := by
  have hsome := (runWrites_bandWrites_isSome_iff hnd h files).mp (by rw [hrun]; rfl)
  obtain ⟨data, mask, hdata, hmask, hr⟩ := hsome e he t d m hd hm
  have hout := forall_mem_bandWrites.mp
    (fun a ha => runWrites_out (writesApart_bandWrites hnd h) hrun ha) e he t d m hd hm
  refine ⟨data, mask, hdata, hmask, hout.trans ?_⟩
  simp [pairWrite, hdata, hmask, hr]

end Writes

end OrbitOpenEO
