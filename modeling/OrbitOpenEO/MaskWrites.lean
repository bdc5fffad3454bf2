import OrbitOpenEO.SceneWrites

/-!
# The loops of the masking operations

`mask_scl_dilation`, `mask_from_values` and `mask` as batches of writes.  When the
classification is on the grid of the data, the first loop of `mask_scl_dilation` changes
nothing; the second one succeeds exactly if all its scenes are `Maskable`.
-/

namespace OrbitOpenEO

open Lib

/-- The file of a scene of a band that `mask` has worked on. -/
abbrev maskPath (dir : PathBuf) (b : String) (t : Nat) : PathBuf := scenePath dir b "_mask_t" t

/-- The file of a scene that `mask_from_values` has written. -/
abbrev classMaskPath (dir : PathBuf) (t : Nat) : PathBuf :=
  scenePath dir "mask" "_from_values_t" t

/-- All scenes of these bands can be masked: for each there is a classification, the name
of its band may be used for a file, and both files can be read and opened together. -/
structure Maskable (P : Platform) (files : PathBuf → Option Raster) (sclPaths : List PathBuf)
    (bands : List (String × List PathBuf)) : Prop where
  nonempty : bands ≠ []
  scenes : ∀ e ∈ bands, e.2.length = sclPaths.length
  names : ∀ e ∈ bands, validateIdentifier e.1 "mask.bands" = .ok ()
  readable : ∀ e ∈ bands, ∀ (t : Nat) (d s : PathBuf), e.2[t]? = some d → sclPaths[t]? = some s →
    ∃ data scl, files d = some data ∧ files s = some scl ∧ P.refuse [data, scl] = none

/-- The files of a cube are none of those that the routes write, except that the file of a
scene may be the one that is written for this scene. -/
structure RoutesApart (dir : PathBuf) (sclPaths : List PathBuf)
    (bands : List (String × List PathBuf)) : Prop where
  sclClass : ∀ t < sclPaths.length, classMaskPath dir t ∉ sclPaths
  sclMasked : ∀ e ∈ bands, ∀ t < sclPaths.length, maskedPath dir e.1 t ∉ sclPaths
  sclMask : ∀ e ∈ bands, ∀ t < sclPaths.length, maskPath dir e.1 t ∉ sclPaths
  dataClass : ∀ e ∈ bands, ∀ t < sclPaths.length, classMaskPath dir t ∉ e.2
  dataMasked : ∀ e ∈ bands, ∀ e' ∈ bands, ∀ t < sclPaths.length, ∀ t',
    e'.2[t']? = some (maskedPath dir e.1 t) → e.1 = e'.1 ∧ t = t'
  dataMask : ∀ e ∈ bands, ∀ e' ∈ bands, ∀ t < sclPaths.length, ∀ t',
    e'.2[t']? = some (maskPath dir e.1 t) → e.1 = e'.1 ∧ t = t'

/-- The classification band is on the grid of all other bands. -/
structure SclOnGrid (w : World) (cube : DataCube) (sclPaths : List PathBuf) : Prop where
  scl : cube.bands.get "SCL" = some sclPaths
  grid : ∀ e ∈ (cube.bands.remove "SCL").entries, ∀ (t : Nat) (d s : PathBuf), e.2[t]? = some d →
    sclPaths[t]? = some s → ∀ data scl, w.files d = some data → w.files s = some scl →
      sameGrid scl data = true

section Dilation

variable {P : Platform} {dir : PathBuf} {files : PathBuf → Option Raster}
  {sclPaths : List PathBuf} {bands : List (String × List PathBuf)}

/-- On the grid of the data the classification is taken as it is. -/
theorem resampleSclToDataGrid_onGrid {s d out : PathBuf} {v : World}
    (hgrid : ∀ data scl, v.files d = some data → v.files s = some scl →
      sameGrid scl data = true) :
    Outcome (fun r v' => v' = v ∧ r = s)
      (fun _ => ¬ ∃ data scl, v.files d = some data ∧ v.files s = some scl)
      (resampleSclToDataGrid P s d out v) := by
  unfold resampleSclToDataGrid
  cases hd : v.files d with
  | none =>
      rintro ⟨_, _, hdata, _⟩
      cases hdata
  | some data =>
      cases hs : v.files s with
      | none =>
          rintro ⟨_, _, _, hscl⟩
          cases hscl
      | some scl =>
          dsimp only
          rw [if_pos (hgrid data scl hd hs)]
          exact ⟨rfl, rfl⟩

theorem resampleBand_onGrid {e : String × List PathBuf} (he : e ∈ bands)
    (hgrid : ∀ (t : Nat) (d s : PathBuf), e.2[t]? = some d → sclPaths[t]? = some s →
      ∀ data scl, files d = some data → files s = some scl → sameGrid scl data = true)
    {v : World} (hv : v.files = files) :
    Outcome
      (fun r v' => v'.files = files ∧ r = (e.1, sclPaths) ∧
        validateIdentifier e.1 "mask.bands" = .ok ())
      (fun _ => ¬ Maskable P files sclPaths bands) (resampleBand P dir sclPaths e v) := by
  unfold resampleBand
  have hname : Outcome
      (fun _ v' => v' = v ∧ validateIdentifier e.1 "mask.bands" = .ok ())
      (fun _ => ¬ Maskable P files sclPaths bands)
      ((attempt (validateIdentifier e.1 "mask_scl_dilation.bands") : Eval Unit) v) := by
    cases hvalid : validateIdentifier e.1 "mask_scl_dilation.bands" with
    | ok u =>
        exact ⟨rfl, validateIdentifier_field hvalid⟩
    | error err =>
        intro hm
        rw [validateIdentifier_field (hm.names e he)] at hvalid
        cases hvalid
  refine Outcome.bind hname ?_
  rintro _ _ ⟨rfl, hvalid⟩
  refine Outcome.bind (outcome_mapEach (I := fun v => v.files = files) (R := fun _ _ => True)
    (Q := fun (p : PathBuf × Nat) (y : PathBuf) (_ : World) => y = p.1) (fun _ => trivial)
    (fun _ _ _ _ _ => trivial) (fun _ _ _ _ _ _ h => h) ?_ _ hv) ?_
  · intro p hp v' hv'
    have hs : sclPaths[p.2]? = some p.1 := List.mem_zipIdx_iff_getElem?.mp hp
    cases hd : e.2[p.2]? with
    | none =>
        intro hm
        have hlength := (List.getElem?_eq_some_iff.mp hs).1
        have hshort := List.getElem?_eq_none_iff.mp hd
        have hscenes := hm.scenes e he
        omega
    | some d =>
        dsimp only
        refine (resampleSclToDataGrid_onGrid (hv' ▸ hgrid p.2 d p.1 hd hs)).imp ?_ ?_
        · rintro _ _ ⟨rfl, rfl⟩
          exact ⟨hv', trivial, rfl⟩
        · intro _ hmissing hm
          obtain ⟨data, scl, hdata, hscl, _⟩ := hm.readable e he p.2 d p.1 hd hs
          exact hmissing ⟨data, scl, hv' ▸ hdata, hv' ▸ hscl⟩
  · rintro outs v' ⟨hv', _, houts⟩
    have hpaths : outs = sclPaths := by
      have hmap : outs = sclPaths.zipIdx.map Prod.fst := by
        rw [← List.forall₂_eq_eq_eq, List.forall₂_map_right_iff]
        exact houts.flip
      rw [hmap, List.zipIdx_map_fst]
    exact ⟨hv', by rw [hpaths], hvalid⟩

theorem performs_noteScl (b : String) (t : Nat) (p : PathBuf) :
    Performs World.files True [] () (noteScl b t p) := by
  intro w
  unfold noteScl
  cases w.files p with
  | none =>
      exact ⟨rfl, trivial, rfl⟩
  | some scl =>
      exact ⟨rfl, trivial, rfl⟩

theorem performs_maskSclBand {values : List Nat} {resampled : List (String × List PathBuf)}
    {e : String × List PathBuf} (hscl : resampled.lookup e.1 = some sclPaths) :
    Performs World.files True
      ((e.2.zip sclPaths).zipIdx.map fun p =>
        pairWrite P (maskSclWorker P values) p.1.1 p.1.2 (maskedPath dir e.1 p.2))
      (e.1, sceneFiles dir e.1 "_masked_t" (e.2.zip sclPaths).length)
      (maskSclBand P dir values resampled e) := by
  unfold maskSclBand
  rw [hscl]
  dsimp only
  have hbody : ∀ p : (PathBuf × PathBuf) × Nat, Performs World.files True
      [pairWrite P (maskSclWorker P values) p.1.1 p.1.2 (maskedPath dir e.1 p.2)]
      (maskedPath dir e.1 p.2)
      (do
        noteScl e.1 p.2 p.1.2
        reductionWithMask P p.1.1 p.1.2 (maskedPath dir e.1 p.2) (maskSclError e.1 p.2)
          (maskSclWorker P values)
        pure (maskedPath dir e.1 p.2)) := by
    intro p
    have hwrite := (performs_reductionWithMask (P := P) p.1.1 p.1.2 (maskedPath dir e.1 p.2)
      (maskSclError e.1 p.2) (maskSclWorker P values)).bind
        (f := fun _ => pure (maskedPath dir e.1 p.2)) (performs_pure _)
    exact ((performs_noteScl e.1 p.2 p.1.2).bind (f := fun _ => _) hwrite).congr (by simp)
  have hloop := (performs_scenes e.2 sclPaths hbody).bind
    (f := fun outs => pure (e.1, outs)) (performs_pure _)
  rw [List.append_nil] at hloop
  exact hloop.congr (by simp)

theorem outputsApart_masked
    (hnames : ∀ e ∈ bands, validateIdentifier e.1 "mask.bands" = .ok ())
    (hapart : RoutesApart dir sclPaths bands) :
    OutputsApart (maskedPath dir) sclPaths bands where
  distinct _ he _ he' _ _ h := scenePath_distinct (by decide) hnames he he' h
  notMask := hapart.sclMasked
  notRead := hapart.dataMasked

/-- The bands of a loop with the files that it has written. -/
abbrev writtenBands (dir : PathBuf) (suffix : String) (n : Nat)
    (bands : List (String × List PathBuf)) : List (String × List PathBuf) :=
  bands.map fun e => (e.1, sceneFiles dir e.1 suffix n)

theorem writtenBands_of_scenes {suffix : String}
    (h : ∀ e ∈ bands, e.2.length = sclPaths.length) :
    bands.map (fun e => (e.1, sceneFiles dir e.1 suffix (e.2.zip sclPaths).length)) =
      writtenBands dir suffix sclPaths.length bands := by
  refine List.map_congr_left ?_
  intro e he
  rw [List.length_zip, h e he, Nat.min_self]

/-- The cube that `mask_scl_dilation` returns. -/
def dilationResult (dir : PathBuf) (cube : DataCube) (sclPaths : List PathBuf) : DataCube :=
  maskSclOutput { cube with bands := cube.bands.remove "SCL" } "SCL" sclPaths
    (writtenBands dir "_masked_t" sclPaths.length (cube.bands.remove "SCL").entries)

/-- The first loop changes no file. -/
theorem resampleLoop_onGrid
    (hgrid : ∀ e ∈ bands, ∀ (t : Nat) (d s : PathBuf), e.2[t]? = some d → sclPaths[t]? = some s →
      ∀ data scl, files d = some data → files s = some scl → sameGrid scl data = true)
    {v : World} (hv : v.files = files) :
    Outcome
      (fun resampled v' => v'.files = files ∧ resampled = bands.map (fun e => (e.1, sclPaths)) ∧
        ∀ e ∈ bands, validateIdentifier e.1 "mask.bands" = .ok ())
      (fun _ => ¬ Maskable P files sclPaths bands)
      (mapEach (resampleBand P dir sclPaths) bands v) := by
  refine (outcome_mapEach (I := fun v => v.files = files) (R := fun _ _ => True)
    (Q := fun (e r : String × List PathBuf) (_ : World) => r = (e.1, sclPaths) ∧
      validateIdentifier e.1 "mask.bands" = .ok ()) (fun _ => trivial)
    (fun _ _ _ _ _ => trivial) (fun _ _ _ _ _ _ h => h) ?_ v hv).imp ?_ (fun _ h => h)
  · intro e he v hv
    exact (resampleBand_onGrid he (hgrid e he) hv).imp
      (fun _ _ h => ⟨h.1, trivial, h.2.1, h.2.2⟩) fun _ h => h
  · rintro resampled v ⟨hv, _, hall⟩
    refine ⟨hv, ?_, ?_⟩
    · rw [← List.forall₂_eq_eq_eq, List.forall₂_map_right_iff]
      exact (hall.imp fun _ _ h => h.1).flip
    · intro e he
      obtain ⟨_, _, _, hname⟩ := forall₂_exists_right hall he
      exact hname

/-- The second loop is a batch of writes. -/
theorem performs_maskSclLoop {values : List Nat} (hnd : (bands.map Prod.fst).Nodup)
    (hscenes : ∀ e ∈ bands, e.2.length = sclPaths.length) :
    Performs World.files True
      (bandWrites P (maskSclWorker P values) (maskedPath dir) sclPaths bands)
      (writtenBands dir "_masked_t" sclPaths.length bands)
      (mapEach (maskSclBand P dir values (bands.map fun e => (e.1, sclPaths))) bands) := by
  have hlookup : ∀ e ∈ bands,
      (bands.map fun e => (e.1, sclPaths)).lookup e.1 = some sclPaths := by
    intro e he
    refine (BTreeMap.lookup_eq_some_iff_mem ?_).mpr (List.mem_map.mpr ⟨e, he, rfl⟩)
    rw [List.map_map]
    exact hnd
  have hband : ∀ e ∈ bands, Performs World.files True _
      (e.1, sceneFiles dir e.1 "_masked_t" (e.2.zip sclPaths).length)
      (maskSclBand P dir values (bands.map fun e => (e.1, sclPaths)) e) :=
    fun e he => performs_maskSclBand (hlookup e he)
  have hloop := performs_mapEach hband
  rw [writtenBands_of_scenes hscenes] at hloop
  exact hloop.congr (by simp)

/-- The bands can be masked exactly if the batch goes through. -/
theorem maskable_iff_isSome {values : List Nat} (hnd : (bands.map Prod.fst).Nodup)
    (hempty : bands ≠ []) (hscenes : ∀ e ∈ bands, e.2.length = sclPaths.length)
    (hnames : ∀ e ∈ bands, validateIdentifier e.1 "mask.bands" = .ok ())
    (hapart : RoutesApart dir sclPaths bands) :
    Maskable P files sclPaths bands ↔
      (runWrites (bandWrites P (maskSclWorker P values) (maskedPath dir) sclPaths bands)
        files).isSome := by
  rw [runWrites_bandWrites_isSome_iff hnd (outputsApart_masked hnames hapart)]
  exact ⟨fun hm => hm.readable, fun hreadable => ⟨hempty, hscenes, hnames, hreadable⟩⟩

/-- **The call succeeds exactly if all bands but the classification can be masked**, and
then it has done their writes. -/
theorem maskSclDilation_outcome {cube : DataCube} {values : List Nat} {w : World}
    (hgrid : SclOnGrid w cube sclPaths)
    (hapart : RoutesApart dir sclPaths (cube.bands.remove "SCL").entries) :
    Outcome
      (fun out v => Maskable P w.files sclPaths (cube.bands.remove "SCL").entries ∧
        out = dilationResult dir cube sclPaths ∧
        runWrites (bandWrites P (maskSclWorker P values) (maskedPath dir) sclPaths
          (cube.bands.remove "SCL").entries) w.files = some v.files)
      (fun _ => ¬ Maskable P w.files sclPaths (cube.bands.remove "SCL").entries)
      (maskSclDilation P dir cube "SCL" values w) := by
  unfold maskSclDilation DataCube.takeBand dilationResult
  rw [hgrid.scl]
  dsimp only
  have hnd : ((cube.bands.remove "SCL").entries.map Prod.fst).Nodup :=
    (cube.bands.remove "SCL").keys_nodup
  have hgrid' := hgrid.grid
  generalize (cube.bands.remove "SCL").entries = bands at hapart hnd hgrid' ⊢
  by_cases hempty : bands = []
  · rw [if_pos hempty]
    exact fun hm => hm.nonempty hempty
  rw [if_neg hempty]
  cases hfind : bands.find? (fun e => e.2.length ≠ sclPaths.length) with
  | some e =>
      intro hm
      have hdiffers := List.find?_some hfind
      rw [decide_eq_true_eq] at hdiffers
      exact hdiffers (hm.scenes e (List.mem_of_find?_eq_some hfind))
  | none =>
      have hscenes : ∀ e ∈ bands, e.2.length = sclPaths.length := by
        simpa using List.find?_eq_none.mp hfind
      refine Outcome.bind (resampleLoop_onGrid hgrid' rfl) ?_
      rintro resampled v ⟨hv, rfl, hnames⟩
      have hiff : Maskable P w.files sclPaths bands ↔
          (runWrites (bandWrites P (maskSclWorker P values) (maskedPath dir) sclPaths bands)
            w.files).isSome :=
        maskable_iff_isSome hnd hempty hscenes hnames hapart
      have hloop : Outcome _ _
          (mapEach (maskSclBand P dir values (bands.map fun e => (e.1, sclPaths))) bands v) :=
        performs_maskSclLoop hnd hscenes v
      rw [hv] at hloop
      refine Outcome.bind (hloop.imp (fun _ _ h => h) ?_) ?_
      · intro _ hnone hm
        rw [hiff, hnone trivial] at hm
        cases hm
      · rintro masked v' ⟨rfl, _, hrun⟩
        exact ⟨hiff.mpr (by rw [hrun]; rfl), rfl, hrun⟩

end Dilation

section Mask

variable {P : Platform} {dir : PathBuf} {files files' : PathBuf → Option Raster}
  {sclPaths masks : List PathBuf} {bands : List (String × List PathBuf)}

/-- The writes of `mask_from_values`. -/
def classWrites (P : Platform) (dir : PathBuf) (values : List Nat) (sclPaths : List PathBuf) :
    List (Write PathBuf Raster) :=
  sclPaths.zipIdx.map fun p =>
    singleWrite P (maskFromValuesWorker P values) p.1 (classMaskPath dir p.2)

theorem forall_mem_classWrites {values : List Nat} {Q : Write PathBuf Raster → Prop} :
    (∀ a ∈ classWrites P dir values sclPaths, Q a) ↔
      ∀ (t : Nat) (s : PathBuf), sclPaths[t]? = some s →
        Q (singleWrite P (maskFromValuesWorker P values) s (classMaskPath dir t)) := by
  simp only [classWrites, List.mem_map]
  constructor
  · intro h t s hs
    exact h _ ⟨(s, t), List.mem_zipIdx_iff_getElem?.mpr hs, rfl⟩
  · rintro h a ⟨p, hp, rfl⟩
    exact h p.2 p.1 (List.mem_zipIdx_iff_getElem?.mp hp)

theorem classMaskPath_inj {t t' : Nat} (h : classMaskPath dir t = classMaskPath dir t') :
    t = t' :=
  scenePath_inj (by decide) (by decide) h

theorem writesApart_classWrites {values : List Nat}
    (hapart : ∀ t < sclPaths.length, classMaskPath dir t ∉ sclPaths) :
    WritesApart (classWrites P dir values sclPaths) := by
  refine List.pairwise_map.mpr ((pairwise_zipIdx sclPaths).imp_of_mem ?_)
  intro p q hp hq hpq
  have hs := List.mem_zipIdx_iff_getElem?.mp hp
  have hs' := List.mem_zipIdx_iff_getElem?.mp hq
  refine ⟨fun hread => ?_, fun heq => hpq (classMaskPath_inj heq)⟩
  have hclass : classMaskPath dir p.2 = q.1 := List.mem_singleton.mp hread
  refine hapart p.2 (List.getElem?_eq_some_iff.mp hs).1 ?_
  rw [hclass]
  exact List.mem_of_getElem? hs'

theorem runWrites_classWrites_isSome_iff {values : List Nat}
    (hapart : ∀ t < sclPaths.length, classMaskPath dir t ∉ sclPaths) :
    (runWrites (classWrites P dir values sclPaths) files).isSome ↔
      ∀ (t : Nat) (s : PathBuf), sclPaths[t]? = some s →
        ∃ scl, files s = some scl ∧ P.refuse [scl] = none := by
  rw [runWrites_isSome_iff (writesApart_classWrites hapart), forall_mem_classWrites]
  refine forall_congr' fun t => forall₂_congr fun s _ => ?_
  simp only [singleWrite, Option.isSome_iff_exists, Option.bind_eq_some_iff,
    Option.ite_none_right_eq_some, Option.isNone_iff_eq_none]
  constructor
  · rintro ⟨_, scl, hscl, hr, _⟩
    exact ⟨scl, hscl, hr⟩
  · rintro ⟨scl, hscl, hr⟩
    exact ⟨_, scl, hscl, hr, rfl⟩

/-- The mask of a scene after `mask_from_values`. -/
theorem runWrites_classWrites_out {values : List Nat}
    (hapart : ∀ t < sclPaths.length, classMaskPath dir t ∉ sclPaths)
    (hrun : runWrites (classWrites P dir values sclPaths) files = some files') {t : Nat}
    {s : PathBuf} (hs : sclPaths[t]? = some s) :
    ∃ scl, files s = some scl ∧
      files' (classMaskPath dir t) = some (maskFromValuesWorker P values [scl]) := by
  have hsome := (runWrites_classWrites_isSome_iff hapart).mp (by rw [hrun]; rfl)
  obtain ⟨scl, hscl, hr⟩ := hsome t s hs
  have hout := forall_mem_classWrites.mp
    (fun a ha => runWrites_out (writesApart_classWrites hapart) hrun ha) t s hs
  refine ⟨scl, hscl, hout.trans ?_⟩
  simp [singleWrite, hscl, hr]

/-- All other files are as they were. -/
theorem runWrites_classWrites_of_ne {values : List Nat}
    (hrun : runWrites (classWrites P dir values sclPaths) files = some files') {p : PathBuf}
    (hp : ∀ t < sclPaths.length, classMaskPath dir t ≠ p) : files' p = files p := by
  refine runWrites_of_ne hrun (forall_mem_classWrites.mpr ?_)
  intro t s hs
  exact (hp t (List.getElem?_eq_some_iff.mp hs).1).symm

/-- **`mask_from_values` succeeds exactly if there is a scene and its writes go
through.** -/
theorem maskFromValues_outcome {cube : DataCube} {values : List Nat} {w : World}
    (hscl : cube.bands.get "SCL" = some sclPaths) :
    Outcome
      (fun out v => sclPaths ≠ [] ∧
        out = maskFromValuesOutput { cube with bands := cube.bands.remove "SCL" } "SCL" "mask"
          (sceneFiles dir "mask" "_from_values_t" sclPaths.length) ∧
        runWrites (classWrites P dir values sclPaths) w.files = some v.files)
      (fun _ => sclPaths ≠ [] → runWrites (classWrites P dir values sclPaths) w.files = none)
      (maskFromValues P dir cube "SCL" "mask" values w) := by
  unfold maskFromValues DataCube.takeBand
  rw [hscl]
  dsimp only
  cases sclPaths with
  | nil =>
      exact fun h => absurd rfl h
  | cons s ss =>
      have hne : s :: ss ≠ [] := List.cons_ne_nil s ss
      dsimp only
      generalize s :: ss = sclPaths at hne ⊢
      have hround : ∀ p ∈ sclPaths.zipIdx, Performs World.files True
          [singleWrite P (maskFromValuesWorker P values) p.1 (classMaskPath dir p.2)]
          (classMaskPath dir p.2)
          (do
            reduction P [p.1] (classMaskPath dir p.2) (sceneError "mask_from_values" p.2)
              (maskFromValuesWorker P values)
            pure (classMaskPath dir p.2)) := by
        intro p _
        exact ((performs_reduction p.1 (classMaskPath dir p.2) (sceneError "mask_from_values" p.2)
          (maskFromValuesWorker P values)).bind (f := fun _ => pure (classMaskPath dir p.2))
            (performs_pure _)).congr (by simp)
      have hloop := performs_mapEach hround w
      rw [map_zipIdx_snd sclPaths (classMaskPath dir), ← List.map_eq_flatMap] at hloop
      refine Outcome.bind (hloop.imp (fun _ _ h => h) ?_) ?_
      · intro _ hnone _
        exact hnone fun _ _ => trivial
      · rintro outs v ⟨rfl, _, hrun⟩
        exact ⟨hne, rfl, hrun⟩

theorem performs_maskBand {replacement : Int} {e : String × List PathBuf} :
    Performs World.files (validateIdentifier e.1 "mask.bands" = .ok ())
      ((e.2.zip masks).zipIdx.map fun p =>
        pairWrite P (maskWorker P replacement) p.1.1 p.1.2 (maskPath dir e.1 p.2))
      (e.1, sceneFiles dir e.1 "_mask_t" (e.2.zip masks).length)
      (maskBand P dir replacement masks e) := by
  have hbody : ∀ p : (PathBuf × PathBuf) × Nat, Performs World.files True
      [pairWrite P (maskWorker P replacement) p.1.1 p.1.2 (maskPath dir e.1 p.2)]
      (maskPath dir e.1 p.2)
      (do
        reductionWithMask P p.1.1 p.1.2 (maskPath dir e.1 p.2) (maskError e.1 p.2)
          (maskWorker P replacement)
        pure (maskPath dir e.1 p.2)) := by
    intro p
    exact ((performs_reductionWithMask p.1.1 p.1.2 (maskPath dir e.1 p.2) (maskError e.1 p.2)
      (maskWorker P replacement)).bind (f := fun _ => pure (maskPath dir e.1 p.2))
        (performs_pure _)).congr (by simp)
  have hloop := (performs_scenes e.2 masks hbody).bind
    (f := fun outs => pure (e.1, outs)) (performs_pure _)
  rw [List.append_nil] at hloop
  exact ((performs_attempt (validateIdentifier e.1 "mask.bands")).bind
    (f := fun _ => _) hloop).congr (by simp)

/-- The loop of `mask` is a batch of writes behind the check of the names. -/
theorem performs_maskLoop {replacement : Int}
    (hscenes : ∀ e ∈ bands, e.2.length = masks.length) :
    Performs World.files (∀ e ∈ bands, validateIdentifier e.1 "mask.bands" = .ok ())
      (bandWrites P (maskWorker P replacement) (maskPath dir) masks bands)
      (writtenBands dir "_mask_t" masks.length bands)
      (mapEach (maskBand P dir replacement masks) bands) := by
  have hband : ∀ e ∈ bands, Performs World.files
      (validateIdentifier e.1 "mask.bands" = .ok ()) _
      (e.1, sceneFiles dir e.1 "_mask_t" (e.2.zip masks).length)
      (maskBand P dir replacement masks e) :=
    fun _ _ => performs_maskBand
  have hloop := performs_mapEach hband
  rw [writtenBands_of_scenes hscenes] at hloop
  exact hloop

/-- The cube that `mask` returns. -/
def maskResult (dir : PathBuf) (cube : DataCube) (sclPaths : List PathBuf) : DataCube :=
  maskOutput cube (writtenBands dir "_mask_t" sclPaths.length (maskableBands cube))
    sclPaths.length 0

/-- The bands that `mask` works on have the same number of scenes as the mask, and names
that may be used for files. -/
def MaskInputs (masks : List PathBuf) (bands : List (String × List PathBuf)) : Prop :=
  (∀ e ∈ bands, e.2.length = masks.length) ∧
    ∀ e ∈ bands, validateIdentifier e.1 "mask.bands" = .ok ()

theorem mask_outcome (masks : List PathBuf) {cube maskCube : DataCube} {k : String}
    {replacement : Int} {w : World} (hentries : maskCube.bands.entries = [(k, masks)]) :
    Outcome
      (fun out v => MaskInputs masks (maskableBands cube) ∧
        out = maskOutput cube (writtenBands dir "_mask_t" masks.length (maskableBands cube))
          masks.length replacement ∧
        runWrites (bandWrites P (maskWorker P replacement) (maskPath dir) masks
          (maskableBands cube)) w.files = some v.files)
      (fun _ => MaskInputs masks (maskableBands cube) →
        runWrites (bandWrites P (maskWorker P replacement) (maskPath dir) masks
          (maskableBands cube)) w.files = none)
      (mask P dir cube maskCube replacement w) := by
  unfold mask
  rw [hentries]
  dsimp only
  cases hfind : (maskableBands cube).find? (fun e => e.2.length ≠ masks.length) with
  | some e =>
      intro hinputs
      have hdiffers := List.find?_some hfind
      rw [decide_eq_true_eq] at hdiffers
      exact absurd (hinputs.1 e (List.mem_of_find?_eq_some hfind)) hdiffers
  | none =>
      have hscenes : ∀ e ∈ maskableBands cube, e.2.length = masks.length := by
        simpa using List.find?_eq_none.mp hfind
      have hloop : Outcome _ _
          (mapEach (maskBand P dir replacement masks) (maskableBands cube) w) :=
        performs_maskLoop hscenes w
      refine Outcome.bind (hloop.imp (fun _ _ h => h) fun _ hnone hinputs => hnone hinputs.2) ?_
      rintro masked v ⟨rfl, hnames, hrun⟩
      exact ⟨⟨hscenes, hnames⟩, rfl, hrun⟩

end Mask

end OrbitOpenEO
