import OrbitOpenEO.MaskedPixels

/-!
# Reducing over the bands

`reduce_dimension` over the bands stacks the files of a scene, one layer for every band that
is no classification, and runs the reducer on the valid values of each pixel.  A single band
is handed on without the reducer, and a classification is left out, though the comment on the
function promises to forward it.

The names of the files that a call writes hold the number of the scene, so that no scene is
written over the result of another.
-/

namespace OrbitOpenEO

open Lib

section Bands

variable (P : Platform) (dir : PathBuf)

/-- `eval_reduce_dimension_bands`. -/
def evalReduceDimensionBands (args : Args) : Eval Envelope := do
  let a ← attempt (reduceArgs args "reduce_dimension(bands)")
  let out ← reduceBands P dir a.2 a.1
  pure (.cube out)

/-- The bands that are reduced, in order. -/
def reducedBands (cube : DataCube) : List (String × List PathBuf) :=
  cube.bands.entries.filter (fun e => e.1 ≠ "SCL")

/-- The files of a scene, in the order of the bands. -/
def sceneInputs (cube : DataCube) (t : Nat) : List PathBuf :=
  (reducedBands cube).filterMap (fun e => e.2[t]?)

/-- The file of a scene of the result. -/
def sceneName (t nanos : Nat) : String := s!"reduce_bands_t{t}_{nanos}.tif"

/-- The raster holds the reduced value of every pixel. -/
def HoldsReduced (kind : ReducerKind) (inputs : List Raster) (out : Raster) : Prop :=
  ∀ row < out.rows, ∀ col < out.cols,
    out.pixel row col = reducePixel P kind (inputs.map fun r => r.pixel row col)

/-- Every scene of the result is the reducer applied to the values of each pixel, read from
the files as they are when the scene is reduced. -/
def ScenesReduced (kind : ReducerKind) (cube : DataCube) (w : World) (out : DataCube)
    (w' : World) : Prop :=
  ∃ paths, out.bands.get "result" = some paths ∧
    (∀ e ∈ reducedBands cube, paths.length = e.2.length) ∧
      ∀ (t : Nat) (p : PathBuf), paths[t]? = some p → ∀ inputs : List Raster,
        (sceneInputs cube t).map (filesAt w w' paths t) = inputs.map some →
          ∃ r, w'.files p = some r ∧ HoldsReduced P kind inputs r

/-- All scenes are reduced, and a classification is handed on. -/
structure ReducesBands (kind : ReducerKind) (cube : DataCube) (w : World) (out : DataCube)
    (w' : World) : Prop where
  scl : ∀ paths, cube.bands.get "SCL" = some paths → out.bands.get "SCL" = some paths
  scenes : ScenesReduced P kind cube w out w'

/-- The reducer gives back every value of a single band. -/
def FixesSingleBand (kind : ReducerKind) (cube : DataCube) (w : World) : Prop :=
  ∀ e, reducedBands cube = [e] → ∀ p ∈ e.2, ∀ r, w.files p = some r → HoldsReduced P kind [r] r

variable {P dir}

theorem get_reduceOutput {band : String} {paths : List PathBuf} {producedBy key : String} :
    (reduceOutput band paths producedBy).bands.get key = if key = band then some paths else none := by
  rw [reduceOutput, BTreeMap.get_insert, BTreeMap.get_empty]

/-- A single band is the result, and no file is touched. -/
theorem reduceBands_single {cube : DataCube} {kind : ReducerKind} {e : String × List PathBuf}
    (he : reducedBands cube = [e]) {w w' : World} {out : DataCube}
    (h : reduceBands P dir cube kind w = .ok out w') :
    out.bands.get "result" = some e.2 ∧ w' = w := by
  rw [reducedBands] at he
  rw [reduceBands, he] at h
  obtain ⟨rfl, rfl⟩ := act_pure_eq_ok_iff.mp h
  exact ⟨get_reduceOutput.trans (if_pos rfl), rfl⟩

theorem scratch_sceneName (t n : Nat) :
    scratch dir (sceneName t n) =
      dir ++ "/reduce_bands" ++ "_t" ++ toString t ++ "_" ++ toString n ++ ".tif" := by
  have hname : sceneName t n =
      "reduce_bands_t" ++ (toString t ++ ("_" ++ (toString n ++ ".tif"))) := by
    change s!"reduce_bands_t{t}_{n}.tif" = _
    simp only [String.append_assoc]
    rfl
  have hfront : dir ++ "/reduce_bands" ++ "_t" = dir ++ "/" ++ "reduce_bands_t" := by
    rw [String.append_assoc, String.append_assoc]
    rfl
  have hhead : "reduce_bands_t".toList.head? = some 'r' := rfl
  rw [hname, scratch_of_head hhead (by decide), hfront]
  simp only [String.append_assoc]

/-- The body of the loop over the scenes. -/
def reduceScene (P : Platform) (dir : PathBuf) (cube : DataCube) (kind : ReducerKind) (t : Nat) :
    Eval PathBuf := do
  let nanos ← now P
  let out := scratch dir (sceneName t nanos)
  reduction P (sceneInputs cube t) out (reduceBandsError t) (reduceWorker P kind)
  pure out

/-- What the reducer needs, and what it writes. -/
def SceneReduced (P : Platform) (cube : DataCube) (kind : ReducerKind) (t : Nat) (w : World)
    (r : Raster) : Prop :=
  (∀ p ∈ sceneInputs cube t, (w.files p).isSome = true) ∧
    r = reduceWorker P kind ((sceneInputs cube t).filterMap w.files)

theorem reduceScene_ok {cube : DataCube} {kind : ReducerKind} {t : Nat} {w w' : World}
    {p : PathBuf} (h : reduceScene P dir cube kind t w = .ok p w') :
    (∃ n, p = scratch dir (sceneName t n)) ∧
      ∃ r, w'.files = Function.update w.files p (some r) ∧ SceneReduced P cube kind t w r := by
  obtain ⟨nanos, w₁, hnow, h⟩ := act_bind_eq_ok_iff.mp h
  cases hnow
  obtain ⟨u, w₂, hred, h⟩ := act_bind_eq_ok_iff.mp h
  obtain ⟨rfl, rfl⟩ := act_pure_eq_ok_iff.mp h
  obtain ⟨r, hfiles, hreduced⟩ := reduction_writesFile P _ _ _ _ _ _ _ hred
  exact ⟨⟨_, rfl⟩, r, hfiles, hreduced⟩

/-- The scenes are written to different files. -/
theorem nodup_of_reduceScenes {cube : DataCube} {kind : ReducerKind} {ts : List Nat}
    (hts : ts.Nodup) {w w' : World} {paths : List PathBuf}
    (h : mapEach (reduceScene P dir cube kind) ts w = .ok paths w') :
    paths.Nodup ∧ paths.length = ts.length := by
  have hround : ∀ t ∈ ts, Returns (fun p => ∃ n, p = scratch dir (sceneName t n))
      (reduceScene P dir cube kind t) := fun t _ w p w' hp => (reduceScene_ok hp).1
  have hnames := mapEach_returns_forall₂ hround w paths w' h
  refine ⟨nodup_of_forall₂ hnames (hts.imp ?_), hnames.length_eq.symm⟩
  rintro t t' hne p ⟨n, rfl⟩ ⟨n', heq⟩
  rw [scratch_sceneName, scratch_sceneName] at heq
  exact hne (stamped_inj heq).2

/-- Two or more bands run through the loop. -/
theorem reduceBands_loop {cube : DataCube} {kind : ReducerKind}
    (hmany : (reducedBands cube).length ≠ 1) {w w' : World} {out : DataCube}
    (h : reduceBands P dir cube kind w = .ok out w') :
    ∃ scenes paths, (∀ e ∈ reducedBands cube, e.2.length = scenes) ∧
      mapEach (reduceScene P dir cube kind) (List.range scenes) w = .ok paths w' ∧
      out = reduceOutput "result" paths s!"reduce_dimension(bands, {kind.label})" := by
  revert h
  unfold reduceBands
  have hbands : cube.bands.entries.filter (fun e => e.1 ≠ "SCL") = reducedBands cube := rfl
  rw [hbands]
  rcases hcases : reducedBands cube with _ | ⟨⟨key, first⟩, _ | ⟨second, rest⟩⟩
  case nil =>
    intro h
    cases h
  case cons.nil =>
    rw [hcases] at hmany
    exact absurd rfl hmany
  case cons.cons =>
    dsimp only
    cases hequal : ((key, first) :: second :: rest).find? (fun e => e.2.length ≠ first.length) with
    | some e =>
        intro h
        cases h
    | none =>
        intro h
        obtain ⟨paths, w₁, hloop, h⟩ := act_bind_eq_ok_iff.mp h
        obtain ⟨rfl, rfl⟩ := act_pure_eq_ok_iff.mp h
        refine ⟨first.length, paths, fun e he => ?_, ?_, rfl⟩
        · simpa using List.find?_eq_none.mp hequal e he
        · unfold reduceScene sceneInputs
          rw [hcases]
          exact hloop

theorem scl_lost {cube : DataCube} {kind : ReducerKind} {w w' : World} {out : DataCube}
    (h : reduceBands P dir cube kind w = .ok out w') : out.bands.get "SCL" = none := by
  by_cases hone : (reducedBands cube).length = 1
  case pos =>
    obtain ⟨e, he⟩ := List.length_eq_one_iff.mp hone
    rw [reducedBands] at he
    rw [reduceBands, he] at h
    obtain ⟨rfl, -⟩ := act_pure_eq_ok_iff.mp h
    exact get_reduceOutput.trans (if_neg (by decide))
  case neg =>
    obtain ⟨_, paths, -, -, rfl⟩ := reduceBands_loop hone h
    exact get_reduceOutput.trans (if_neg (by decide))

theorem holdsReduced_worker (kind : ReducerKind) (inputs : List Raster) :
    HoldsReduced P kind inputs (reduceWorker P kind inputs) := by
  intro row _ col _
  cases inputs <;> rfl

/-- All values are there if every file is. -/
theorem filterMap_eq_of_map_eq {α β : Type} {f : α → Option β} {xs : List α} {ys : List β}
    (h : xs.map f = ys.map some) : xs.filterMap f = ys := by
  have hid := congrArg (List.filterMap id) h
  rwa [List.filterMap_map, List.filterMap_map, Function.id_comp, Function.id_comp,
    List.filterMap_some] at hid

/-- Two or more bands are reduced as they should be. -/
theorem scenes_of_many {cube : DataCube} {kind : ReducerKind}
    (hmany : (reducedBands cube).length ≠ 1) {w w' : World} {out : DataCube}
    (h : reduceBands P dir cube kind w = .ok out w') :
    ScenesReduced P kind cube w out w' := by
  obtain ⟨scenes, paths, hequal, hloop, rfl⟩ := reduceBands_loop hmany h
  obtain ⟨hnd, hlen⟩ := nodup_of_reduceScenes List.nodup_range hloop
  rw [List.length_range] at hlen
  refine ⟨paths, get_reduceOutput.trans (if_pos rfl), fun e he => hlen.trans (hequal e he).symm,
    fun t p hp inputs hinputs => ?_⟩
  have ht : (List.range scenes)[t]? = some t := by
    have hlt := (List.getElem?_eq_some_iff.mp hp).1
    rw [List.getElem?_range (hlen ▸ hlt)]
  have hround : ∀ t ∈ List.range scenes, ∀ w p w', reduceScene P dir cube kind t w = .ok p w' →
      ∃ r, w'.files = Function.update w.files p (some r) ∧ SceneReduced P cube kind t w r :=
    fun t _ w p w' hp => (reduceScene_ok hp).2
  obtain ⟨-, hrounds⟩ := mapEach_returned_files hround hnd hloop
  obtain ⟨r, wt, hr, ⟨-, hreduced⟩, hwt⟩ := hrounds t t p ht hp
  refine ⟨r, hr, ?_⟩
  rw [hwt, filterMap_eq_of_map_eq hinputs] at hreduced
  subst hreduced
  exact holdsReduced_worker kind inputs

/-- A single band is as it should be if the reducer gives back its values. -/
theorem scenes_of_single_iff {cube : DataCube} {kind : ReducerKind} {e : String × List PathBuf}
    (he : reducedBands cube = [e]) {w w' : World} {out : DataCube}
    (h : reduceBands P dir cube kind w = .ok out w') :
    ScenesReduced P kind cube w out w' ↔
      ∀ p ∈ e.2, ∀ r, w.files p = some r → HoldsReduced P kind [r] r := by
  obtain ⟨hresult, rfl⟩ := reduceBands_single he h
  have hat : ∀ t, filesAt w' w' e.2 t = w'.files := by
    intro t
    funext p
    rw [filesAt, ite_self]
  constructor
  · rintro ⟨paths, hpaths, -, hscenes⟩ p hp r hr
    cases hresult.symm.trans hpaths
    obtain ⟨t, ht⟩ := List.mem_iff_getElem?.mp hp
    have hinputs : (sceneInputs cube t).map (filesAt w' w' e.2 t) = [r].map some := by
      rw [sceneInputs, he, List.filterMap_cons, ht, List.filterMap_nil, hat, List.map_singleton,
        List.map_singleton, hr]
    obtain ⟨r', hr', hreduced⟩ := hscenes t p ht [r] hinputs
    cases hr.symm.trans hr'
    exact hreduced
  · intro hfixed
    refine ⟨e.2, hresult, fun e' he' => ?_, fun t p hp inputs hinputs => ?_⟩
    · rw [he] at he'
      rw [List.mem_singleton.mp he']
    · rw [sceneInputs, he, List.filterMap_cons, hp, List.filterMap_nil, hat,
        List.map_singleton] at hinputs
      rcases inputs with _ | ⟨r, _ | ⟨_, _⟩⟩
      case nil =>
        cases hinputs
      case cons.nil =>
        have hr : w'.files p = some r := by simpa using hinputs
        exact ⟨r, hr, hfixed p (List.mem_of_getElem? hp) r hr⟩
      case cons.cons =>
        cases (List.cons.inj hinputs).2

end Bands

/-- The bands are reduced as they should be if there is no classification, and a single band
consists of values that the reducer gives back. -/
theorem reduceBands_uniform_iff (P : Platform) (dir : PathBuf) (args : Args) (kind : ReducerKind)
    (cube out : DataCube) (w w' : World)
    (hargs : reduceArgs args "reduce_dimension(bands)" = .ok (kind, cube))
    (h : evalReduceDimensionBands P dir args w = .ok (.cube out) w') :
    ReducesBands P kind cube w out w' ↔
      cube.bands.get "SCL" = none ∧ FixesSingleBand P kind cube w := by
  have hrun : reduceBands P dir cube kind w = .ok out w' := by
    obtain ⟨a, w₁, ha, h⟩ := act_bind_eq_ok_iff.mp h
    obtain ⟨hread, rfl⟩ := attempt_eq_ok_iff.mp ha
    cases hargs.symm.trans hread
    obtain ⟨out', w₂, hout, h⟩ := act_bind_eq_ok_iff.mp h
    obtain ⟨hcube, rfl⟩ := act_pure_eq_ok_iff.mp h
    cases hcube
    exact hout
  have hscl : (∀ paths, cube.bands.get "SCL" = some paths → out.bands.get "SCL" = some paths) ↔
      cube.bands.get "SCL" = none := by
    rw [scl_lost hrun, Option.eq_none_iff_forall_ne_some]
    simp
  rw [← hscl]
  by_cases hone : (reducedBands cube).length = 1
  case pos =>
    obtain ⟨e, he⟩ := List.length_eq_one_iff.mp hone
    have hfixed : FixesSingleBand P kind cube w ↔
        ∀ p ∈ e.2, ∀ r, w.files p = some r → HoldsReduced P kind [r] r := by
      rw [FixesSingleBand, he]
      exact ⟨fun hall => hall e rfl, fun hall e' he' => (List.cons.inj he').1 ▸ hall⟩
    rw [hfixed, ← scenes_of_single_iff he hrun]
    exact ⟨fun hred => ⟨hred.scl, hred.scenes⟩, fun hboth => ⟨hboth.1, hboth.2⟩⟩
  case neg =>
    have hfixed : FixesSingleBand P kind cube w := by
      intro e he
      rw [he] at hone
      exact absurd rfl hone
    exact ⟨fun hred => ⟨hred.scl, hfixed⟩, fun hboth => ⟨hboth.1, scenes_of_many hone hrun⟩⟩

/-- Every file holds one pixel with the value 7. -/
def sevens : World := { World.empty with files := fun _ => some ⟨1, 1, 10, -10, fun _ _ => .finite 7⟩ }

/-- Two bands of one scene. -/
def redAndInfrared : DataCube :=
  { bands := BTreeMap.ofEntries [("B04", ["red.tif"]), ("B08", ["nir.tif"])] }

/-- A band and a classification. -/
def redAndScl : DataCube :=
  { bands := BTreeMap.ofEntries [("B04", ["red.tif"]), ("SCL", ["scl.tif"])] }

/-- Counting over the bands. -/
def countBands (cube : DataCube) : EStateM.Result ExecError World Envelope :=
  evalReduceDimensionBands Platform.exact "/work" (countArgs cube "bands") sevens

theorem reduceBands_uniform_iff_sample :
    returnsCube (countBands redAndInfrared) = true ∧
      (ReducesBands Platform.exact (.builtin .count) redAndInfrared sevens
          (cubeOf (countBands redAndInfrared)) (finalState (countBands redAndInfrared)) ↔
        redAndInfrared.bands.get "SCL" = none ∧
          FixesSingleBand Platform.exact (.builtin .count) redAndInfrared sevens) := by
  have hrun : returnsCube (countBands redAndInfrared) = true := by decide +kernel
  exact ⟨hrun, reduceBands_uniform_iff Platform.exact "/work" (countArgs redAndInfrared "bands")
    (.builtin .count) redAndInfrared _ sevens _ (reduceArgs_countArgs _ _ _)
    (eq_ok_of_returnsCube hrun)⟩

/-- The values of a single band are not counted, and the classification is gone. -/
theorem singleBand_notCounted :
    returnsCube (countBands redAndScl) = true ∧
      pixelAt (finalState (countBands redAndScl)) (cubeOf (countBands redAndScl)) "result" 0 0 0 =
        some (.finite 7) ∧
      reducePixel Platform.exact (.builtin .count) [.finite 7] = .finite 1 ∧
      (cubeOf (countBands redAndScl)).bands.get "SCL" = none := by
  decide +kernel

end OrbitOpenEO
