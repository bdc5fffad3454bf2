import OrbitOpenEO.CubeCalls
import Mathlib.Tactic.NormNum

/-!
# Physical units and reduction

`apply` turns stored numbers into physical ones with the scale and offset of the
band, `reduce_dimension` works on the stored numbers.  A mean, a median, an
extreme value, the first or the last scene could be taken before or after, if
the reduced band kept its scale.  The cube a reduction returns has no scale map,
so the two orders agree only for a band that is physical already.

Pixel values are rational numbers here, and the arithmetic is exact.
-/

namespace OrbitOpenEO

open Lib

/-- The operations that matter for scaling and reducing do not round. -/
structure Platform.Exact (P : Platform) : Prop where
  add64 : ∀ p q : ℚ, P.f64.add (.finite p) (.finite q) = .finite (p + q)
  mul64 : ∀ p q : ℚ, P.f64.mul (.finite p) (.finite q) = .finite (p * q)
  toF32 : ∀ q : ℚ, P.toF32 (.finite q) = .finite q
  ofInt : ∀ n : Int, P.f32.ofInt n = .finite n
  add32 : ∀ p q : ℚ, P.f32.add (.finite p) (.finite q) = .finite (p + q)
  div32 : ∀ p q : ℚ, q ≠ 0 → P.f32.div (.finite p) (.finite q) = .finite (p / q)

/-- The callback returns its input. -/
def IdentityCallback (P : Platform) (subPg : Json) : Prop :=
  ∀ q : ℚ, evalApplySubgraph P subPg (.finite q) = .ok (.finite q)

/-- The reducers that commute with a change of units. -/
def unitReducers : List Reducer := [.mean, .median, .min, .max, .first, .last]

/-- Every pixel of every scene is a number and not the no-data mark. -/
def NoGaps (scenes : List Raster) : Prop :=
  ∀ s ∈ scenes, ∀ row col, ∃ q : ℚ, s.pixel row col = .finite q ∧ q ≠ -9999

section Reducers

variable {f : MathOps} {stack : List F64}

/-- The values of a list are numbers. -/
def AllNumbers (stack : List F64) : Prop := ∀ v ∈ stack, ∃ q : ℚ, v = .finite q

theorem getD_number (h : AllNumbers stack) {i : Nat} (hi : i < stack.length) :
    ∃ q : ℚ, stack.getD i .nan = .finite q := by
  have hget : stack.getD i .nan = stack.get ⟨i, hi⟩ := by simp [hi]
  rw [hget]
  exact h _ (List.get_mem stack ⟨i, hi⟩)

/-- A fold that goes from number to number ends at one. -/
theorem foldl_number {op : F64 → F64 → F64}
    (hop : ∀ p q : ℚ, ∃ r : ℚ, op (.finite p) (.finite q) = .finite r) :
    ∀ {stack : List F64}, AllNumbers stack → ∀ p : ℚ, ∃ r : ℚ,
      stack.foldl op (.finite p) = .finite r
  | [], _, p => ⟨p, rfl⟩
  | v :: stack, h, p => by
      obtain ⟨q, rfl⟩ := h v List.mem_cons_self
      obtain ⟨r, hr⟩ := hop p q
      rw [List.foldl_cons, hr]
      exact foldl_number hop (fun v hv => h v (List.mem_cons_of_mem _ hv)) r

theorem min_number (p q : ℚ) : ∃ r : ℚ, F64.min (.finite p) (.finite q) = .finite r := by
  simp only [F64.min, reduceCtorEq, if_false]
  split
  · exact ⟨q, rfl⟩
  · exact ⟨p, rfl⟩

theorem max_number (p q : ℚ) : ∃ r : ℚ, F64.max (.finite p) (.finite q) = .finite r := by
  simp only [F64.max, reduceCtorEq, if_false]
  split
  · exact ⟨q, rfl⟩
  · exact ⟨p, rfl⟩

theorem min_posInf (q : ℚ) : F64.min .posInf (.finite q) = .finite q := by
  simp [F64.min, F64.lt]

theorem max_negInf (q : ℚ) : F64.max .negInf (.finite q) = .finite q := by
  simp [F64.max, F64.lt]

end Reducers

section Exact

variable {P : Platform} (hP : P.Exact)
include hP

theorem sumOf_number {stack : List F64} (h : AllNumbers stack) :
    ∃ r : ℚ, sumOf P.f32 stack = .finite r := by
  rw [sumOf, hP.ofInt]
  exact foldl_number (fun p q => ⟨p + q, hP.add32 p q⟩) h _

theorem medianOf_number {stack : List F64} (h : AllNumbers stack) (hne : stack ≠ []) :
    ∃ r : ℚ, medianOf P.f32 stack = .finite r := by
  have hsorted : AllNumbers (sortStack stack) := by
    intro v hv
    exact h v ((List.perm_insertionSort _ stack).mem_iff.mp hv)
  have hpos : 0 < (sortStack stack).length := by
    rw [sortStack, List.length_insertionSort]
    exact List.length_pos_iff.mpr hne
  unfold medianOf
  dsimp only
  split
  · exact getD_number hsorted (by omega)
  · obtain ⟨p, hp⟩ := getD_number hsorted (i := (sortStack stack).length / 2 - 1) (by omega)
    obtain ⟨q, hq⟩ := getD_number hsorted (i := (sortStack stack).length / 2) (by omega)
    rw [hp, hq, hP.add32, hP.ofInt, hP.div32 _ _ (by norm_num)]
    exact ⟨_, rfl⟩

/-- A reduction of numbers is a number. -/
theorem applyReducer_number {r : Reducer} (hr : r ∈ unitReducers) {stack : List F64}
    (h : AllNumbers stack) (hne : stack ≠ []) :
    ∃ q : ℚ, applyReducer P.f32 stack r = .finite q := by
  obtain ⟨v, rest, rfl⟩ := List.exists_cons_of_ne_nil hne
  obtain ⟨q, rfl⟩ := h v List.mem_cons_self
  have hrest : AllNumbers rest := fun v hv => h v (List.mem_cons_of_mem _ hv)
  simp only [unitReducers, List.mem_cons, List.not_mem_nil, or_false] at hr
  rcases hr with rfl | rfl | rfl | rfl | rfl | rfl
  · obtain ⟨s, hs⟩ := sumOf_number hP h
    have hlen : ((((F64.finite q :: rest).length : Nat) : Int) : ℚ) ≠ 0 := by
      simp only [List.length_cons]
      exact_mod_cast Nat.succ_ne_zero rest.length
    exact ⟨_, by rw [applyReducer, hs, hP.ofInt, hP.div32 _ _ hlen]⟩
  · exact medianOf_number hP h hne
  · rw [applyReducer, List.foldl_cons, min_posInf]
    exact foldl_number min_number hrest q
  · rw [applyReducer, List.foldl_cons, max_negInf]
    exact foldl_number max_number hrest q
  · exact ⟨q, rfl⟩
  · refine h _ ?_
    rw [applyReducer, List.getLastD_cons]
    exact List.getLastD_mem_cons

/-- The reduction of a single number is that number. -/
theorem applyReducer_singleton {r : Reducer} (hr : r ∈ unitReducers) (q : ℚ) :
    applyReducer P.f32 [.finite q] r = .finite q := by
  simp only [unitReducers, List.mem_cons, List.not_mem_nil, or_false] at hr
  rcases hr with rfl | rfl | rfl | rfl | rfl | rfl
  · simp [applyReducer, sumOf, hP.ofInt, hP.add32, hP.div32]
  · simp [applyReducer, medianOf, sortStack]
  · exact min_posInf q
  · exact max_negInf q
  · rfl
  · rfl

variable {subPg : Json} (hid : IdentityCallback P subPg)
include hid

theorem applyPixel_number (scale : ℚ × ℚ) {q : ℚ} (hq : q ≠ -9999) :
    applyPixel P subPg scale (.finite q) = .finite (q * scale.1 + scale.2) := by
  have hfeq : F64.feq (.finite q) sentinelNdviNa = false := by simpa [F64.feq, sentinelNdviNa]
  simp [applyPixel, F64.isFinite, hfeq, hP.mul64, hP.add64, hid _, hP.toF32]

/-- Without a scale `apply` leaves a number as it is, and also the no-data mark. -/
theorem applyPixel_one_zero (q : ℚ) : applyPixel P subPg (1, 0) (.finite q) = .finite q := by
  by_cases hq : q = -9999
  · subst hq
    simp [applyPixel, F64.isFinite, F64.feq, sentinelNdviNa]
  · rw [applyPixel_number hP hid _ hq]
    simp

omit hP hid in
theorem reduceStack_numbers {vs : List F64} (h : ∀ v ∈ vs, ∃ q : ℚ, v = .finite q ∧ q ≠ -9999) :
    reduceStack vs = vs := by
  refine List.filter_eq_self.mpr ?_
  intro v hv
  obtain ⟨q, rfl, hq⟩ := h v hv
  simpa [isData, F64.isFinite, F64.feq, sentinelNdviNa]

omit hP hid in
theorem reducePixel_numbers (r : Reducer) {vs : List F64} (hne : vs ≠ [])
    (h : ∀ v ∈ vs, ∃ q : ℚ, v = .finite q ∧ q ≠ -9999) :
    reducePixel P (.builtin r) vs = applyReducer P.f32 vs r := by
  obtain ⟨v, rest, rfl⟩ := List.exists_cons_of_ne_nil hne
  rw [reducePixel, reduceStack_numbers h]
  rfl

omit hP hid in
theorem pixelwise_pixel (g : List F64 → F64) {rs : List Raster} (hne : rs ≠ []) (row col : Nat) :
    (pixelwise g rs).pixel row col = g (rs.map (fun s => s.pixel row col)) := by
  obtain ⟨r, rest, rfl⟩ := List.exists_cons_of_ne_nil hne
  rfl

end Exact

/-- The pixels that `apply` writes after a reduction that returned the cube `red`. -/
def reduceThenApply (P : Platform) (subPg : Json) (red : DataCube) (band : String) (r : Reducer)
    (scenes : List Raster) : Raster :=
  applyWorker P subPg (red.scaleOf band) [reduceWorker P (.builtin r) scenes]

/-- The pixels that a reduction writes after `apply` on every scene of `cube`. -/
def applyThenReduce (P : Platform) (subPg : Json) (cube : DataCube) (band : String) (r : Reducer)
    (scenes : List Raster) : Raster :=
  reduceWorker P (.builtin r)
    (scenes.map (fun s => applyWorker P subPg (cube.scaleOf band) [s]))

/-- The two orders give the same pixels, for all scenes without gaps. -/
def UnitsCommute (P : Platform) (subPg : Json) (cube red : DataCube) (band : String)
    (r : Reducer) : Prop :=
  ∀ scenes, scenes ≠ [] → NoGaps scenes → ∀ row col,
    (reduceThenApply P subPg red band r scenes).pixel row col =
      (applyThenReduce P subPg cube band r scenes).pixel row col

/-- A reduction over time returns a cube without scales. -/
theorem reduceTime_returns (P : Platform) (dir : PathBuf) (cube : DataCube) (kind : ReducerKind) :
    Returns (fun out => ∃ band paths label, out = reduceOutput band paths label)
      (reduceTime P dir cube kind) := by
  unfold reduceTime
  split
  · exact returns_throw
  · split
    · exact returns_throw
    · exact returns_throw
    · refine Returns.bind (Q := fun _ => True) (fun _ _ _ _ => trivial) fun nanos _ => ?_
      refine Returns.bind (Q := fun _ => True) (fun _ _ _ _ => trivial) fun _ _ => ?_
      exact returns_pure ⟨_, _, _, rfl⟩

theorem NoGaps.values {scenes : List Raster} (h : NoGaps scenes) (row col : Nat) :
    ∀ v ∈ scenes.map (fun s => s.pixel row col), ∃ q : ℚ, v = .finite q ∧ q ≠ -9999 := by
  intro v hv
  obtain ⟨s, hs, rfl⟩ := List.mem_map.mp hv
  exact h s hs row col

/-- After a reduction that lost the scale, `apply` shows the reduced value. -/
theorem reduceThenApply_pixel {P : Platform} (hP : P.Exact) {subPg : Json}
    (hid : IdentityCallback P subPg) {red : DataCube} {band : String} {r : Reducer}
    (hr : r ∈ unitReducers) (hlost : red.scaleOf band = (1, 0)) {scenes : List Raster}
    (hne : scenes ≠ []) (hgaps : NoGaps scenes) (row col : Nat) :
    (reduceThenApply P subPg red band r scenes).pixel row col =
      applyReducer P.f32 (scenes.map (fun s => s.pixel row col)) r := by
  have hvalues := hgaps.values row col
  have hne' : scenes.map (fun s => s.pixel row col) ≠ [] := by simpa using hne
  have hnumbers : AllNumbers (scenes.map (fun s => s.pixel row col)) := by
    intro v hv
    obtain ⟨q, hq, _⟩ := hvalues v hv
    exact ⟨q, hq⟩
  obtain ⟨q, hq⟩ := applyReducer_number hP hr hnumbers hne'
  rw [reduceThenApply, hlost, applyWorker, pixelwise_pixel _ (List.cons_ne_nil _ _)]
  simp only [List.map_cons, List.map_nil, reduceWorker]
  rw [pixelwise_pixel _ hne, reducePixel_numbers r hne' hvalues, hq, applyPixel_one_zero hP hid]

theorem applyThenReduce_pixel {P : Platform} {subPg : Json} {cube : DataCube} {band : String}
    {r : Reducer} {scenes : List Raster} (hne : scenes ≠ []) (row col : Nat) :
    (applyThenReduce P subPg cube band r scenes).pixel row col =
      reducePixel P (.builtin r)
        (scenes.map (fun s => applyPixel P subPg (cube.scaleOf band) (s.pixel row col))) := by
  rw [applyThenReduce, reduceWorker, pixelwise_pixel _ (by simpa using hne), List.map_map]
  rfl

/-- The reduction of one value, also when it is the no-data mark. -/
theorem reducePixel_singleton {P : Platform} (hP : P.Exact) {r : Reducer}
    (hr : r ∈ unitReducers) (q : ℚ) : reducePixel P (.builtin r) [.finite q] = .finite q := by
  by_cases hq : q = -9999
  · subst hq
    rfl
  · rw [reducePixel_numbers r (List.cons_ne_nil _ _) (by simpa using hq),
      applyReducer_singleton hP hr]

/-- One scene of one value shows what the scale does to that value. -/
theorem UnitsCommute.fixed {P : Platform} (hP : P.Exact) {subPg : Json}
    (hid : IdentityCallback P subPg) {cube red : DataCube} {band : String} {r : Reducer}
    (hr : r ∈ unitReducers) (hlost : red.scaleOf band = (1, 0))
    (h : UnitsCommute P subPg cube red band r) {q : ℚ} (hq : q ≠ -9999) :
    q = q * (cube.scaleOf band).1 + (cube.scaleOf band).2 := by
  have hgaps : NoGaps [⟨1, 1, 10, -10, fun _ _ => .finite q⟩] := by
    intro s hs row col
    rw [List.mem_singleton] at hs
    subst hs
    exact ⟨q, rfl, hq⟩
  have hpixel := h _ (List.cons_ne_nil _ _) hgaps 0 0
  rw [reduceThenApply_pixel hP hid hr hlost (List.cons_ne_nil _ _) hgaps,
    applyThenReduce_pixel (List.cons_ne_nil _ _)] at hpixel
  simp only [List.map_cons, List.map_nil] at hpixel
  rw [applyReducer_singleton hP hr, applyPixel_number hP hid _ hq,
    reducePixel_singleton hP hr] at hpixel
  exact F64.finite.inj hpixel

/-- **Reducing before or after a change of units gives the same values exactly
when there is nothing to change**: the band has the scale one and the offset
zero. -/
theorem unitsCommute_iff {P : Platform} (hP : P.Exact) {subPg : Json}
    (hid : IdentityCallback P subPg) {dir : PathBuf} {cube red : DataCube} {band : String}
    {r : Reducer} (hr : r ∈ unitReducers) {w w' : World}
    (hred : reduceTime P dir cube (.builtin r) w = .ok red w') :
    UnitsCommute P subPg cube red band r ↔ cube.scaleOf band = (1, 0) := by
  have hlost : red.scaleOf band = (1, 0) := by
    obtain ⟨_, _, _, rfl⟩ := reduceTime_returns P dir cube (.builtin r) w red w' hred
    rfl
  constructor
  · intro hcomm
    have hoffset := hcomm.fixed hP hid hr hlost (q := 0) (by norm_num)
    have hscale := hcomm.fixed hP hid hr hlost (q := 1) (by norm_num)
    rw [zero_mul, zero_add] at hoffset
    rw [← hoffset, one_mul, add_zero] at hscale
    exact Prod.ext hscale.symm hoffset.symm
  · intro hone scenes hne hgaps row col
    have hsame : scenes.map (fun s => applyPixel P subPg (cube.scaleOf band) (s.pixel row col)) =
        scenes.map (fun s => s.pixel row col) := by
      refine List.map_congr_left ?_
      intro s hs
      obtain ⟨q, hq, _⟩ := hgaps s hs row col
      rw [hone, hq, applyPixel_one_zero hP hid]
    rw [reduceThenApply_pixel hP hid hr hlost hne hgaps, applyThenReduce_pixel hne, hsame,
      reducePixel_numbers r (by simpa using hne) (hgaps.values row col)]

theorem Platform.exact_exact : Platform.exact.Exact where
  add64 _ _ := rfl
  mul64 _ _ := rfl
  toF32 _ := rfl
  ofInt _ := rfl
  add32 _ _ := rfl
  div32 _ _ hq := if_neg hq

/-- The callback `x + 0`. -/
def addZero : Json :=
  .obj [("sum", .obj [("arguments",
    .obj [("data", .arr [.obj [("from_parameter", .str "x")], .num (.posInt 0)])]),
    ("process_id", .str "add"), ("result", .bool true)])]

theorem addZero_identity : IdentityCallback Platform.exact addZero := by
  intro q
  have hsum : evalApplySubgraph Platform.exact addZero (.finite q) =
      .ok (.finite (q + ((0 : Int) : ℚ))) := rfl
  rw [hsum]
  simp

/-- A cube of one band and one scene, with the given scale. -/
def singleBand (scale : ℚ × ℚ) : DataCube :=
  { bands := BTreeMap.empty.insert "B04" ["r0"]
    bandScales := BTreeMap.empty.insert "B04" scale
    sceneCount := some 1 }

/-- The file of `singleBand`. -/
def singleBandWorld : World :=
  { World.empty with
    files := fun p => if p = "r0" then some ⟨1, 1, 10, -10, fun _ _ => .finite 3000⟩ else none }

theorem unitsCommute_singleBand : ∃ red w,
    reduceTime Platform.exact "/work" (singleBand (1, 0)) (.builtin .median) singleBandWorld =
        .ok red w ∧
      UnitsCommute Platform.exact addZero (singleBand (1, 0)) red "B04" .median := by
  have hrun : ∃ red w, reduceTime Platform.exact "/work" (singleBand (1, 0)) (.builtin .median)
      singleBandWorld = .ok red w := ⟨_, _, rfl⟩
  obtain ⟨red, w, hred⟩ := hrun
  exact ⟨red, w, hred, (unitsCommute_iff Platform.exact_exact addZero_identity (by decide)
    hred).mpr rfl⟩

/-- Reflectances stored as integers: after the reduction a value of 1 stays 1,
and before it becomes 0.0001. -/
theorem reflectances_not_unitsCommute : ∃ red w,
    reduceTime Platform.exact "/work" (singleBand (1 / 10000, 0)) (.builtin .median)
        singleBandWorld = .ok red w ∧
      ¬ UnitsCommute Platform.exact addZero (singleBand (1 / 10000, 0)) red "B04" .median := by
  refine ⟨_, _, rfl, ?_⟩
  intro h
  have hone := h.fixed Platform.exact_exact addZero_identity (by decide) rfl (q := 1) (by norm_num)
  have hscale : (singleBand (1 / 10000, 0)).scaleOf "B04" = (1 / 10000, 0) := rfl
  rw [hscale] at hone
  norm_num at hone

end OrbitOpenEO
