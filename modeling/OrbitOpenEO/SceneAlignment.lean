import OrbitOpenEO.CubeCalls

/-!
# Scenes stay aligned

A scene is known only by its position: entry `t` of every band's path list and
entry `t` of the datetimes belong together.  `InStep` says that these lists fit,
for a given assignment of times to files, and that `scene_count` is their common
length.  All operations keep it but one: joining the bands of two cubes takes
the scene count of the first and puts the lists of both side by side.
-/

namespace OrbitOpenEO

open Lib

/-- All lists of a cube have `scene_count` entries, and the file at position `t`
of a band was taken at the `t`-th of the datetimes, if there are any. -/
def InStep (time : PathBuf → String) (c : DataCube) : Prop :=
  ∃ n, c.sceneCount = some n ∧
    (∀ b paths, c.bands.get b = some paths → paths.length = n) ∧
    (∀ dts, c.datetimes = some dts → dts.length = n ∧
      ∀ b paths, c.bands.get b = some paths → paths.map time = dts)

section InStep

variable {time : PathBuf → String}

/-- Leaving out, renaming or reordering bands keeps the lists aligned. -/
theorem InStep.of_bands {c out : DataCube} (h : InStep time c)
    (hcount : out.sceneCount = c.sceneCount) (hdts : out.datetimes = c.datetimes)
    (hbands : ∀ b paths, out.bands.get b = some paths → ∃ b', c.bands.get b' = some paths) :
    InStep time out := by
  obtain ⟨n, hn, hlen, htime⟩ := h
  refine ⟨n, hcount ▸ hn, ?_, ?_⟩
  · intro b paths hget
    obtain ⟨b', hb'⟩ := hbands b paths hget
    exact hlen b' paths hb'
  · intro dts hd
    rw [hdts] at hd
    obtain ⟨hdlen, hall⟩ := htime dts hd
    refine ⟨hdlen, ?_⟩
    intro b paths hget
    obtain ⟨b', hb'⟩ := hbands b paths hget
    exact hall b' paths hb'

/-- Without datetimes only the lengths count. -/
theorem inStep_of_lengths {out : DataCube} {n : Nat} (hcount : out.sceneCount = some n)
    (hdts : out.datetimes = none)
    (hlen : ∀ b paths, out.bands.get b = some paths → paths.length = n) : InStep time out := by
  refine ⟨n, hcount, hlen, ?_⟩
  intro dts hd
  rw [hdts] at hd
  cases hd

theorem map_pick {α β : Type} (f : α → β) (keep : List Nat) (xs : List α) :
    (pick keep xs).map f = pick keep (xs.map f) := by
  simp [pick, List.map_filterMap]

/-- Pruning all lists by the same positions keeps them aligned. -/
theorem filterTemporal_inStep {c out : DataCube} {start stop : Option String}
    (h : InStep time c) (hok : filterTemporal c start stop = .ok out) : InStep time out := by
  obtain ⟨dts, hdts, _, rfl⟩ := filterTemporal_eq_ok_iff.mp hok
  obtain ⟨n, _, hlen, htime⟩ := h
  obtain ⟨hdlen, hall⟩ := htime dts hdts
  have hkeep : ∀ i ∈ keepScenes start stop dts, i < dts.length := fun _ => lt_of_mem_keepScenes
  -- Every band of an aligned cube has the length of the time axis, so all are pruned.
  have hpruned : ∀ b paths,
      (c.bands.mapValues (fun paths =>
        if paths.length = dts.length then pick (keepScenes start stop dts) paths
        else paths)).get b = some paths →
      ∃ paths', c.bands.get b = some paths' ∧ paths = pick (keepScenes start stop dts) paths' := by
    intro b paths hget
    rw [BTreeMap.get_mapValues, Option.map_eq_some_iff] at hget
    obtain ⟨paths', hpaths', rfl⟩ := hget
    have hl : paths'.length = dts.length := by rw [hlen b paths' hpaths', hdlen]
    exact ⟨paths', hpaths', by rw [if_pos hl]⟩
  refine ⟨_, rfl, ?_, ?_⟩
  · intro b paths hget
    obtain ⟨paths', hpaths', rfl⟩ := hpruned b paths hget
    rw [length_pick]
    intro i hi
    rw [hlen b paths' hpaths', ← hdlen]
    exact hkeep i hi
  · rintro _ ⟨⟩
    refine ⟨length_pick hkeep, ?_⟩
    intro b paths hget
    obtain ⟨paths', hpaths', rfl⟩ := hpruned b paths hget
    rw [map_pick, hall b paths' hpaths']

/-- A mask writes one file for each scene of each band and forwards the rest. -/
theorem maskOutput_inStep {c : DataCube} {dir : PathBuf} {n : Nat} {replacement : Int}
    (h : InStep time c) (hne : maskableBands c ≠ [])
    (hlen : ∀ e ∈ maskableBands c, e.2.length = n) :
    InStep time (maskOutput c
      ((maskableBands c).map (fun e => (e.1, sceneFiles dir e.1 "_mask_t" n))) n replacement) := by
  obtain ⟨m, _, hm, _⟩ := h
  have hnm : n = m := by
    obtain ⟨e, he⟩ := List.exists_mem_of_ne_nil _ hne
    have hget : c.bands.get e.1 = some e.2 :=
      (c.bands.get_eq_some_iff e.1 e.2).mpr (List.mem_filter.mp he).1
    rw [← hlen e he, hm e.1 e.2 hget]
  refine inStep_of_lengths rfl rfl ?_
  intro b paths hget
  rw [maskOutput, BTreeMap.get_insertAll, Option.or_eq_some_iff] at hget
  rcases hget with hget | ⟨_, hget⟩
  · have hmem := BTreeMap.mem_of_lastEntry hget
    have hget' : c.bands.get b = some paths :=
      (c.bands.get_eq_some_iff b paths).mpr (List.mem_filter.mp hmem).1
    rw [hm b paths hget', hnm]
  · rw [BTreeMap.get_ofEntries] at hget
    obtain ⟨e, _, he⟩ := List.mem_map.mp (BTreeMap.mem_of_lastEntry hget)
    cases he
    simp

theorem maskSclOutput_inStep {rest : DataCube} {dir : PathBuf} {scl : String}
    {sclPaths : List PathBuf} :
    InStep time (maskSclOutput rest scl sclPaths
      (rest.bands.entries.map
        (fun e => (e.1, sceneFiles dir e.1 "_masked_t" sclPaths.length)))) := by
  refine inStep_of_lengths rfl rfl ?_
  intro b paths hget
  rw [maskSclOutput, BTreeMap.get_insert] at hget
  split at hget
  · cases hget
    rfl
  · rw [BTreeMap.get_ofEntries] at hget
    obtain ⟨e, _, he⟩ := List.mem_map.mp (BTreeMap.mem_of_lastEntry hget)
    cases he
    simp

/-- Resolving overlapping bands needs lists of one length, so both cubes have it. -/
theorem mergedFrom_inStep {c1 c2 : DataCube} {bands : BTreeMap (List PathBuf)}
    (h1 : InStep time c1) (h2 : InStep time c2) (hover : bandsOverlap c1 c2 = true)
    (hsome : ∀ b paths, bands.get b = some paths → Resolved c1.bands c2.bands b paths)
    (hcommon : ∀ b p1 p2, c1.bands.get b = some p1 → c2.bands.get b = some p2 →
      p1.length = p2.length) :
    InStep time (mergedFrom c1 bands) := by
  obtain ⟨n1, hn1, hlen1, _⟩ := h1
  obtain ⟨n2, _, hlen2, _⟩ := h2
  have hn : n2 = n1 := by
    obtain ⟨b, hb1, hb2⟩ := List.any_eq_true.mp hover
    obtain ⟨p1, hp1⟩ := (c1.bands.mem_keys_iff_get b).mp hb1
    obtain ⟨p2, hp2⟩ := (c2.bands.containsKey_iff b).mp hb2
    rw [← hlen2 b p2 hp2, ← hlen1 b p1 hp1, hcommon b p1 p2 hp1 hp2]
  refine inStep_of_lengths hn1 rfl ?_
  intro b paths hget
  have hres := hsome b paths hget
  unfold Resolved at hres
  cases hb1 : c1.bands.get b with
  | none =>
      cases hb2 : c2.bands.get b with
      | none =>
          simp [hb1, hb2] at hres
      | some p2 =>
          rw [hb1, hb2] at hres
          rw [hres, hlen2 b p2 hb2, hn]
  | some p1 =>
      cases hb2 : c2.bands.get b with
      | none =>
          rw [hb1, hb2] at hres
          rw [hres, hlen1 b p1 hb1]
      | some p2 =>
          rw [hb1, hb2] at hres
          rw [hres.2, hlen1 b p1 hb1]

/-- **A join of disjoint bands is aligned exactly when the scene counts agree**,
or when the second cube brings no band. -/
theorem mergeDisjoint_inStep_iff {c1 c2 : DataCube} (h1 : InStep time c1) (h2 : InStep time c2)
    (hover : bandsOverlap c1 c2 = false) :
    InStep time (mergeDisjoint c1 c2) ↔
      c2.bands.entries = [] ∨ c1.sceneCount = c2.sceneCount := by
  obtain ⟨n1, hn1, hlen1, _⟩ := h1
  obtain ⟨n2, hn2, hlen2, _⟩ := h2
  constructor
  · rintro ⟨n, hn, hlen, _⟩
    rcases List.eq_nil_or_concat' c2.bands.entries with hnil | ⟨es, e, hes⟩
    · exact Or.inl hnil
    · right
      have hmem : (e.1, e.2) ∈ c2.bands.entries := by simp [hes]
      have hget2 : c2.bands.get e.1 = some e.2 := (c2.bands.get_eq_some_iff _ _).mpr hmem
      have hno : c1.bands.get e.1 = none := by
        cases hc1 : c1.bands.get e.1 with
        | none =>
            rfl
        | some p =>
            have hkey := (c1.bands.mem_keys_iff_get e.1).mpr ⟨p, hc1⟩
            have := List.any_eq_false.mp hover e.1 hkey
            simp [BTreeMap.containsKey, hget2] at this
      have hget : (mergeDisjoint c1 c2).bands.get e.1 = some e.2 := by
        rw [get_mergeDisjoint hover, hno, hget2, Option.none_or]
      have hnn : some n1 = some n := hn1.symm.trans hn
      rw [hn1, hn2, hnn, ← hlen2 _ _ hget2, hlen _ _ hget]
  · intro hfit
    refine inStep_of_lengths hn1 rfl ?_
    intro b paths hget
    rw [get_mergeDisjoint hover, Option.or_eq_some_iff] at hget
    rcases hget with hget | ⟨_, hget⟩
    · exact hlen1 b paths hget
    · rcases hfit with hnil | hcount
      · have := (c2.bands.get_eq_some_iff b paths).mp hget
        rw [hnil] at this
        cases this
      · rw [hn1, hn2, Option.some.injEq] at hcount
        rw [hlen2 b paths hget, hcount]

/-- A join of disjoint bands in the call has cubes with the same scene count, or
a second cube without bands. -/
def MergeFits (args : Args) : Prop :=
  ∀ c1 c2, MergeArgs args (.cube c1) (.cube c2) → bandsOverlap c1 c2 = false →
    c2.bands.entries = [] ∨ c1.sceneCount = c2.sceneCount

/-- A file on its own is a cube of one scene. -/
theorem fromRasterEnvelope_inStep (path : PathBuf) :
    InStep time (DataCube.fromRasterEnvelope path) := by
  refine inStep_of_lengths (n := 1) rfl rfl ?_
  intro b paths hget
  rw [DataCube.fromRasterEnvelope, BTreeMap.get_insert] at hget
  split at hget
  · cases hget
    rfl
  · simp at hget

theorem mergeCubes_inStep_iff {P : Platform} {dir : PathBuf} {args : Args} {w w' : World}
    {v : Envelope} {out : DataCube}
    (hin : ∀ c, CubeProcess.mergeCubes.IsInput args c → InStep time c)
    (hok : evalMergeCubes P dir args w = .ok v w')
    (hout : DataCube.fromEnvelopeOwned v = .ok out) :
    InStep time out ↔ MergeFits args := by
  obtain ⟨v1, v2, hargs, hcase⟩ := evalMergeCubes_returns P dir args w v w' hok
  have hin1 : ∀ c, DataCube.fromEnvelopeOwned v1 = .ok c → InStep time c :=
    fun c hc => hin c ⟨v1, v2, hargs, Or.inl hc⟩
  have hin2 : ∀ c, DataCube.fromEnvelopeOwned v2 = .ok c → InStep time c :=
    fun c hc => hin c ⟨v1, v2, hargs, Or.inr hc⟩
  -- The arguments are those the condition speaks about.
  have hsame : ∀ c1 c2, MergeArgs args (.cube c1) (.cube c2) → v1 = .cube c1 ∧ v2 = .cube c2 := by
    intro c1 c2 h
    exact ⟨Option.some.inj (hargs.1.symm.trans h.1), Option.some.inj (hargs.2.symm.trans h.2)⟩
  rcases hcase with ⟨c1, c2, rfl, rfl, hover, rfl⟩ |
    ⟨c1, c2, bands, rfl, rfl, hover, rfl, hres, hcommon⟩ |
    ⟨hover, path, rfl⟩
  · cases hout
    rw [mergeDisjoint_inStep_iff (hin1 c1 rfl) (hin2 c2 rfl) hover]
    constructor
    · intro hfit c1' c2' hargs' _
      obtain ⟨h1, h2⟩ := hsame c1' c2' hargs'
      cases h1
      cases h2
      exact hfit
    · intro hfits
      exact hfits c1 c2 hargs hover
  · cases hout
    refine iff_of_true (mergedFrom_inStep (hin1 c1 rfl) (hin2 c2 rfl) hover hres hcommon) ?_
    intro c1' c2' hargs' hno
    obtain ⟨h1, h2⟩ := hsame c1' c2' hargs'
    cases h1
    cases h2
    rw [hover] at hno
    cases hno
  · cases hout
    refine iff_of_true (fromRasterEnvelope_inStep path) ?_
    intro c1 c2 hargs' hno
    obtain ⟨h1, h2⟩ := hsame c1 c2 hargs'
    rw [hover c1 c2 h1 h2] at hno
    cases hno

/-- **A cube operation keeps the scenes aligned exactly when it is no join of
cubes with different scene counts.** -/
theorem cubeProcess_inStep_iff {P : Platform} {dir : PathBuf} {p : CubeProcess} {args : Args}
    {w w' : World} {v : Envelope} {out : DataCube}
    (hin : ∀ c, p.IsInput args c → InStep time c)
    (hok : p.eval P dir args w = .ok v w')
    (hout : DataCube.fromEnvelopeOwned v = .ok out) :
    InStep time out ↔ (p = .mergeCubes → MergeFits args) := by
  cases p with
  | filterTemporal =>
      obtain ⟨c, start, stop, out', hc, hfilter, rfl⟩ :=
        evalFilterTemporal_eq_ok (attempt_eq_ok_iff.mp hok).1
      cases hout
      exact iff_of_true (filterTemporal_inStep (hin c hc) hfilter) nofun
  | filterBands =>
      obtain ⟨c, requested, out', hc, hfilter, rfl⟩ :=
        evalFilterBands_eq_ok (attempt_eq_ok_iff.mp hok).1
      cases hout
      obtain ⟨_, hget, hrest⟩ := filterBands_eq_ok hfilter
      refine iff_of_true ((hin c hc).of_bands (by rw [hrest]) (by rw [hrest]) ?_) nofun
      intro b paths hb
      rw [hget] at hb
      split at hb
      · exact ⟨b, hb⟩
      · cases hb
  | renameLabels =>
      obtain ⟨c, out', hc, hrename, rfl⟩ := evalRenameLabels_eq_ok (attempt_eq_ok_iff.mp hok).1
      cases hout
      obtain ⟨_, _, hget, hrest⟩ := renameLabels_eq_ok hrename
      exact iff_of_true ((hin c hc).of_bands (by rw [hrest]) (by rw [hrest])
        fun b paths hb => ⟨_, hget b paths hb⟩) nofun
  | addDimension =>
      obtain ⟨c, extras, hc, rfl⟩ := evalAddDimension_eq_ok (attempt_eq_ok_iff.mp hok).1
      cases hout
      exact iff_of_true ((hin c hc).of_bands rfl rfl fun b _ hb => ⟨b, hb⟩) nofun
  | dropDimension =>
      obtain ⟨c, extras, hc, rfl⟩ := evalDropDimension_eq_ok (attempt_eq_ok_iff.mp hok).1
      cases hout
      exact iff_of_true ((hin c hc).of_bands rfl rfl fun b _ hb => ⟨b, hb⟩) nofun
  | mergeCubes =>
      rw [mergeCubes_inStep_iff hin hok hout]
      exact ⟨fun h _ => h, fun h => h rfl⟩
  | mask =>
      obtain ⟨c, n, replacement, hc, hne, hlen, rfl⟩ := evalMask_returns P dir args w v w' hok
      cases hout
      exact iff_of_true (maskOutput_inStep (hin c (Or.inl hc)) hne hlen) nofun
  | maskSclDilation =>
      obtain ⟨c, sclPaths, _, _, _, rfl⟩ := evalMaskSclDilation_returns P dir args w v w' hok
      cases hout
      exact iff_of_true maskSclOutput_inStep nofun

end InStep

/-- A cube of two scenes with their times. -/
def twoScenes : DataCube :=
  { bands := (BTreeMap.empty.insert "B04" ["r0", "r1"]).insert "B08" ["n0", "n1"]
    sceneCount := some 2
    datetimes := some ["2024-01-01T10:00:00Z", "2024-01-11T10:00:00Z"] }

/-- The times of the files of `twoScenes`. -/
def twoScenesTime (p : PathBuf) : String :=
  if p = "r0" ∨ p = "n0" then "2024-01-01T10:00:00Z" else "2024-01-11T10:00:00Z"

theorem twoScenes_inStep : InStep twoScenesTime twoScenes := by
  have hbands : ∀ b paths, twoScenes.bands.get b = some paths →
      paths = ["r0", "r1"] ∨ paths = ["n0", "n1"] := by
    intro b paths hget
    simp only [twoScenes, BTreeMap.get_insert, BTreeMap.get_empty] at hget
    split at hget
    · cases hget
      exact Or.inr rfl
    · split at hget
      · cases hget
        exact Or.inl rfl
      · cases hget
  refine ⟨2, rfl, ?_, ?_⟩
  · intro b paths hget
    rcases hbands b paths hget with rfl | rfl <;> rfl
  · rintro _ ⟨⟩
    refine ⟨rfl, ?_⟩
    intro b paths hget
    rcases hbands b paths hget with rfl | rfl <;> decide

/-- A node that keeps the second scene of `twoScenes`. -/
def secondSceneArgs : Args :=
  (BTreeMap.empty.insert "data" (.cube twoScenes)).insert "extent"
    (.value (.arr [.str "2024-01-05", .null]) .missingEnvelope)

theorem cubeProcess_inStep_secondScene : ∃ out w,
    CubeProcess.filterTemporal.eval Platform.exact "/work" secondSceneArgs World.empty =
      .ok (.cube out) w ∧ out.sceneCount = some 1 ∧ InStep twoScenesTime out := by
  have hrun : ∃ out w,
      CubeProcess.filterTemporal.eval Platform.exact "/work" secondSceneArgs World.empty =
        .ok (.cube out) w ∧ out.sceneCount = some 1 := ⟨_, _, rfl, rfl⟩
  obtain ⟨out, w, hok, hcount⟩ := hrun
  refine ⟨out, w, hok, hcount, (cubeProcess_inStep_iff ?_ hok rfl).mpr nofun⟩
  rintro c ⟨v, hv, hc⟩
  cases hv
  cases hc
  exact twoScenes_inStep

/-- The second cube of a join, with one scene only. -/
def oneScene : DataCube :=
  { bands := BTreeMap.empty.insert "VV" ["v0"], sceneCount := some 1 }

/-- A join of `twoScenes` and `oneScene`. -/
def unequalJoinArgs : Args :=
  (BTreeMap.empty.insert "cube1" (.cube twoScenes)).insert "cube2" (.cube oneScene)

/-- The join lists two scenes, and one of its bands has a single file. -/
theorem unequalJoin_not_inStep :
    (∀ c, CubeProcess.mergeCubes.IsInput unequalJoinArgs c → InStep twoScenesTime c) ∧
      ∃ out w, CubeProcess.mergeCubes.eval Platform.exact "/work" unequalJoinArgs World.empty =
        .ok (.cube out) w ∧ ¬ InStep twoScenesTime out := by
  refine ⟨?_, _, _, rfl, ?_⟩
  · rintro c ⟨v1, v2, ⟨h1, h2⟩, hc⟩
    cases h1
    cases h2
    rcases hc with hc | hc
    · cases hc
      exact twoScenes_inStep
    · cases hc
      refine inStep_of_lengths (n := 1) rfl rfl ?_
      intro b paths hget
      rw [oneScene, BTreeMap.get_insert] at hget
      split at hget
      · cases hget
        rfl
      · simp at hget
  · rintro ⟨n, hn, hlen, _⟩
    have h2 : n = 2 := by
      cases hn
      rfl
    have h1 : ["v0"].length = n := hlen "VV" ["v0"] rfl
    simp [h2] at h1

end OrbitOpenEO
