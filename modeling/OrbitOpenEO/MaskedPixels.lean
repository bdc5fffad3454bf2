import OrbitOpenEO.CubeCalls
import OrbitOpenEO.SceneFiles

/-!
# Masked pixels in the step after

`mask` without a replacement writes the smallest 16-bit number into the masked
pixels, `mask_scl_dilation` writes zero.  A step that follows should take such a
pixel for a gap.  `ndvi` does, since it takes every number that is not positive
for one.  `apply` and `reduce_dimension` only know the mark of the float outputs
and values that are not finite, so for them a masked pixel is data.
-/

namespace OrbitOpenEO

open Lib

/-- The two operations that mask. -/
inductive MaskKind where
  | mask
  | maskSclDilation
deriving DecidableEq

namespace MaskKind

/-- The evaluator. -/
def eval (P : Platform) (dir : PathBuf) : MaskKind → Args → Eval Envelope
  | .mask, args => evalMask P dir args
  | .maskSclDilation, args => evalMaskSclDilation P dir args

/-- How the files are named. -/
def suffix : MaskKind → String
  | .mask => "_mask_t"
  | .maskSclDilation => "_masked_t"

/-- The number written into a masked pixel. -/
def marker : MaskKind → Int
  | .mask => i16Min
  | .maskSclDilation => 0

/-- No replacement value is asked for. -/
def NoReplacement (args : Args) : MaskKind → Prop
  | .mask => ∀ v, args.get "replacement" = some v → v.json = some .null
  | .maskSclDilation => True

theorem suffix_mem (mk : MaskKind) : mk.suffix ∈ sceneSuffixes := by
  cases mk <;> decide

theorem marker_range (mk : MaskKind) : i16Min ≤ mk.marker ∧ mk.marker ≤ i16Max := by
  cases mk <;> decide

theorem marker_nonpos (mk : MaskKind) : mk.marker ≤ 0 := by
  cases mk <;> decide

end MaskKind

/-- The operations that only rewrite a cube's metadata. -/
def metadataProcesses : List CubeProcess :=
  [.filterTemporal, .filterBands, .renameLabels, .addDimension, .dropDimension]

/-- The cubes that come from a masking call by operations on metadata. -/
inductive MaskedCube (P : Platform) (dir : PathBuf) (mk : MaskKind) (w : World) : DataCube → Prop
  | masked {args : Args} {w₀ : World} {c : DataCube} : mk.NoReplacement args →
      mk.eval P dir args w₀ = .ok (.cube c) w → MaskedCube P dir mk w c
  | metadata {p : CubeProcess} {args : Args} {c c' : DataCube} : MaskedCube P dir mk w c →
      p ∈ metadataProcesses → ArgCube args "data" c →
      p.eval P dir args w = .ok (.cube c') w → MaskedCube P dir mk w c'

/-- The value a file has at a pixel. -/
def valueAt (w : World) (row col : Nat) (p : PathBuf) : Option F64 :=
  (w.files p).map (fun r => r.pixel row col)

/-- The file of a band at a scene was written by the masking call, and holds the
mark at a pixel. -/
def Marked (dir : PathBuf) (mk : MaskKind) (w : World) (c : DataCube) (b : String)
    (t row col : Nat) :
    Prop :=
  ∃ b₀ n, c.bands.get b = some (sceneFiles dir b₀ mk.suffix n) ∧ t < n ∧
    valueAt w row col (scenePath dir b₀ mk.suffix t) = some (.finite mk.marker)

/-- The value a cube has at a pixel of a scene. -/
def pixelAt (w : World) (c : DataCube) (b : String) (t row col : Nat) : Option F64 :=
  ((c.bands.get b).bind (fun paths => paths[t]?)).bind (valueAt w row col)

/-- The values of a band at the scenes other than `t`. -/
def otherScenes (w : World) (c : DataCube) (b : String) (t row col : Nat) : List F64 :=
  (((c.bands.get b).getD []).eraseIdx t).filterMap (valueAt w row col)

/-- The values of the other bands at scene `t`. -/
def otherBands (w : World) (c : DataCube) (b : String) (t row col : Nat) : List F64 :=
  (c.bands.entries.filter (fun e => e.1 ≠ "SCL" && e.1 ≠ b)).filterMap
    (fun e => (e.2[t]?).bind (valueAt w row col))

/-- The steps that read the files of a masked cube. -/
inductive NextKind where
  | ndvi
  | apply
  | reduceTime
  | reduceBands
deriving DecidableEq

/-- A step takes the pixel of band `b` at scene `t` for a gap: `ndvi` and `apply`
write their no-data mark, and a reduction gives what it gives without that
value. -/
def TreatsAsNoData (P : Platform) (dir : PathBuf) (w : World) (c : DataCube) (b : String)
    (t row col : Nat) : NextKind → Prop
  | .ndvi => ∀ args out w', ArgCube args "data" c → evalNdvi P dir args w = .ok (.cube out) w' →
      (b = argStrOr args "red" "B04" ∨ b = argStrOr args "nir" "B08") →
      pixelAt w' out (argStrOr args "target_band" "ndvi") t row col = some sentinelNdviNa
  | .apply => ∀ args out w', ArgCube args "data" c → evalApply P dir args w = .ok (.cube out) w' →
      b ≠ "SCL" → pixelAt w' out b t row col = some sentinelNdviNa
  | .reduceTime => ∀ args kind out w', reduceArgs args "reduce_dimension" = .ok (kind, c) →
      argStrOr args "dimension" "" ∈ ["t", "time", "temporal"] →
      evalReduceDimension P dir args w = .ok (.cube out) w' → primaryBand c = some b →
      pixelAt w' out b 0 row col = some (reducePixel P kind (otherScenes w c b t row col))
  | .reduceBands => ∀ args kind out w',
      reduceArgs args "reduce_dimension(bands)" = .ok (kind, c) →
      argStrOr args "dimension" "" ∈ ["bands", "band"] →
      evalReduceDimension P dir args w = .ok (.cube out) w' → b ≠ "SCL" →
      1 < (numericBands c).length →
      pixelAt w' out "result" t row col = some (reducePixel P kind (otherBands w c b t row col))

/-- Every pixel a masking call has marked is a gap for a step of this kind. -/
def StaysMasked (mk : MaskKind) (next : NextKind) : Prop :=
  ∀ P dir w c, MaskedCube P dir mk w c → ∀ b t row col, Marked dir mk w c b t row col →
    TreatsAsNoData P dir w c b t row col next

/-- The loop of a successful `ndvi`. -/
theorem ndvi_loop {P : Platform} {dir : PathBuf} {c out : DataCube} {red nir target : String}
    {w w' : World} (h : ndvi P dir c red nir target w = .ok out w') :
    ∃ reds nirs paths, c.bands.get red = some reds ∧ (c.bands.remove red).get nir = some nirs ∧
      reds.length = nirs.length ∧
      mapEach
        (fun (e : (PathBuf × PathBuf) × Nat) => do
          let out := scenePath dir target "_t" e.2
          reduction P [e.1.1, e.1.2] out (sceneError "ndvi" e.2) (ndviWorker P)
          pure out)
        (reds.zip nirs).zipIdx w = .ok paths w' := by
  obtain ⟨reds, nirs, hred, hnir, hlen, _⟩ := ndvi_returns P dir c red nir target w out w' h
  simp only [ndvi, DataCube.takeBand, hred, hnir] at h
  split at h
  · cases h
  · obtain ⟨paths, w₁, hloop, h⟩ := act_bind_eq_ok_iff.mp h
    obtain ⟨_, rfl⟩ := act_pure_eq_ok_iff.mp h
    exact ⟨reds, nirs, paths, hred, hnir, hlen, hloop⟩

/-- What `ndvi` leaves in the file of scene `t`, computed from a state in which
only the files of earlier scenes are new. -/
theorem ndvi_files {P : Platform} {dir : PathBuf} {target : String} {reds nirs paths : List PathBuf}
    {w w' : World}
    (h : mapEach
      (fun (e : (PathBuf × PathBuf) × Nat) => do
        let out := scenePath dir target "_t" e.2
        reduction P [e.1.1, e.1.2] out (sceneError "ndvi" e.2) (ndviWorker P)
        pure out)
      (reds.zip nirs).zipIdx w = .ok paths w')
    {t : Nat} {r n : PathBuf} (hr : reds[t]? = some r) (hn : nirs[t]? = some n) :
    ∃ (wt : World) (dr dn : Raster),
      w'.files (scenePath dir target "_t" t) = some (ndviWorker P [dr, dn]) ∧
      wt.files r = some dr ∧ wt.files n = some dn ∧
      ∀ p, (∀ k < t, p ≠ scenePath dir target "_t" k) → wt.files p = w.files p := by
  have hwrites : ∀ e ∈ (reds.zip nirs).zipIdx, WritesFile (scenePath dir target "_t" e.2)
      (fun w r => (∀ p ∈ [e.1.1, e.1.2], (w.files p).isSome = true) ∧
        r = ndviWorker P ([e.1.1, e.1.2].filterMap w.files))
      (do
        let out := scenePath dir target "_t" e.2
        reduction P [e.1.1, e.1.2] out (sceneError "ndvi" e.2) (ndviWorker P)
        pure out) :=
    fun e _ => (reduction_writesFile P _ _ _ _).then_pure _
  have hpair : (reds.zip nirs)[t]? = some (r, n) := by simp [List.getElem?_zip_eq_some, hr, hn]
  obtain ⟨content, wt, hcontent, ⟨hsome, rfl⟩, hframe⟩ :=
    sceneLoop_files (by decide) hwrites h hpair
  obtain ⟨dr, hdr⟩ := Option.isSome_iff_exists.mp (hsome r (by simp))
  obtain ⟨dn, hdn⟩ := Option.isSome_iff_exists.mp (hsome n (by simp))
  refine ⟨wt, dr, dn, ?_, hdr, hdn, hframe⟩
  rw [hcontent]
  simp [hdr, hdn]

/-- The index is not computed where one of its bands is not positive. -/
theorem ndviWorker_sentinel (P : Platform) (dr dn : Raster) {row col : Nat}
    (h : P.readI16 (dr.pixel row col) ≤ 0 ∨ P.readI16 (dn.pixel row col) ≤ 0) :
    (ndviWorker P [dr, dn]).pixel row col = sentinelNdviNa :=
  if_pos h

/-- A marked file is still what it was when its scene is read. -/
theorem Marked.read {dir : PathBuf} (mk : MaskKind) {w wt : World} (b₀ : String) {target : String}
    {t : Nat} (hframe : ∀ p, (∀ k < t, p ≠ scenePath dir target "_t" k) → wt.files p = w.files p) :
    wt.files (scenePath dir b₀ mk.suffix t) = w.files (scenePath dir b₀ mk.suffix t) := by
  refine hframe _ ?_
  intro k hk heq
  have := scenePath_inj mk.suffix_mem (by decide) heq
  omega

/-- `ndvi` writes its no-data mark wherever one of its bands is masked. -/
theorem ndvi_staysMasked (mk : MaskKind) : StaysMasked mk .ndvi := by
  intro P dir w c _ b t row col hmarked args out w' hc hok hb
  obtain ⟨b₀, n, hband, ht, hvalue⟩ := hmarked
  rw [valueAt, Option.map_eq_some_iff] at hvalue
  obtain ⟨r, hfile, hpixel⟩ := hvalue
  obtain ⟨c', out', hc', hndvi, hout⟩ := evalNdvi_eq_ok hok
  cases hout
  obtain rfl := hc.unique hc'
  obtain ⟨reds, nirs, paths, hred, hnir, hlen, hloop⟩ := ndvi_loop hndvi
  obtain ⟨reds', _, hred', _, _, hout⟩ := ndvi_returns P dir c _ _ _ w out w' hndvi
  rw [hred] at hred'
  cases hred'
  have hmasked : (sceneFiles dir b₀ mk.suffix n)[t]? = some (scenePath dir b₀ mk.suffix t) := by
    simp [sceneFiles, ht]
  have hmark : P.readI16 (r.pixel row col) ≤ 0 := by
    rw [hpixel, P.readI16_stored _ mk.marker_range.1 mk.marker_range.2]
    exact mk.marker_nonpos
  -- Scene `t` of both bands is there, and one of the two files is the marked one.
  have hscene : ∃ pr pn, reds[t]? = some pr ∧ nirs[t]? = some pn ∧
      (pr = scenePath dir b₀ mk.suffix t ∨ pn = scenePath dir b₀ mk.suffix t) := by
    rcases hb with rfl | rfl
    · rw [hband] at hred
      cases hred
      have htn : t < nirs.length := by
        rw [← hlen, length_sceneFiles]
        exact ht
      exact ⟨_, nirs.get ⟨t, htn⟩, hmasked, by simp [htn], Or.inl rfl⟩
    · rw [BTreeMap.get_remove] at hnir
      split at hnir
      · cases hnir
      · rw [hband] at hnir
        cases hnir
        have htr : t < reds.length := by
          rw [hlen, length_sceneFiles]
          exact ht
        exact ⟨reds.get ⟨t, htr⟩, _, by simp [htr], hmasked, Or.inr rfl⟩
  obtain ⟨pr, pn, hpr, hpn, hwhich⟩ := hscene
  obtain ⟨wt, dr, dn, hcontent, hdr, hdn, hframe⟩ := ndvi_files hloop hpr hpn
  have hread := (Marked.read mk b₀ hframe).trans hfile
  have htr : t < reds.length := (List.getElem?_eq_some_iff.mp hpr).1
  have hout_t : (out.bands.get (argStrOr args "target_band" "ndvi")).bind (fun paths => paths[t]?) =
      some (scenePath dir (argStrOr args "target_band" "ndvi") "_t" t) := by
    rw [hout, get_ndviOutput_target]
    simp [sceneFiles, htr]
  have hgap : P.readI16 (dr.pixel row col) ≤ 0 ∨ P.readI16 (dn.pixel row col) ≤ 0 := by
    rcases hwhich with rfl | rfl
    · rw [hdr] at hread
      cases hread
      exact Or.inl hmark
    · rw [hdn] at hread
      cases hread
      exact Or.inr hmark
  rw [pixelAt, hout_t, Option.bind_some, valueAt, hcontent, Option.map_some,
    ndviWorker_sentinel P dr dn hgap]

/-- A scene of two bands and its classification, which is a cloud shadow. -/
def shadowScene : DataCube :=
  { bands := ((BTreeMap.empty.insert "B04" ["r0"]).insert "B08" ["n0"]).insert "SCL" ["s0"]
    sceneCount := some 1 }

/-- The files of `shadowScene`. -/
def shadowWorld : World :=
  { World.empty with
    files := fun p =>
      if p = "r0" ∨ p = "n0" then some ⟨1, 1, 10, -10, fun _ _ => .finite 3000⟩
      else if p = "s0" then some ⟨1, 1, 10, -10, fun _ _ => .finite 3⟩
      else none }

/-- A masking node: every pixel is masked. -/
def shadowArgs : Args :=
  (BTreeMap.empty.insert "data" (.cube shadowScene)).insert "mask"
    (.cube { bands := BTreeMap.empty.insert "mask" ["s0"], sceneCount := some 1 })

/-- The cube a call has returned. -/
def cubeOf : EStateM.Result ExecError World Envelope → DataCube
  | .ok (.cube c) _ => c
  | _ => DataCube.new

/-- The masking call on `shadowScene`. -/
def shadowMasked (mk : MaskKind) : EStateM.Result ExecError World Envelope :=
  mk.eval Platform.exact "/work" shadowArgs shadowWorld

/-- Whether a call has returned a cube. -/
def returnsCube : EStateM.Result ExecError World Envelope → Bool
  | .ok (.cube _) _ => true
  | _ => false

theorem eq_ok_of_returnsCube {r : EStateM.Result ExecError World Envelope}
    (h : returnsCube r = true) : r = .ok (.cube (cubeOf r)) (finalState r) := by
  unfold returnsCube at h
  split at h
  · rfl
  · cases h

theorem shadowMasked_maskedCube (mk : MaskKind) :
    MaskedCube Platform.exact "/work" mk (finalState (shadowMasked mk))
      (cubeOf (shadowMasked mk)) := by
  have hno : mk.NoReplacement shadowArgs := by
    cases mk with
    | mask =>
        intro v hv
        simp [shadowArgs, BTreeMap.get_insert] at hv
    | maskSclDilation =>
        trivial
  refine .masked hno (eq_ok_of_returnsCube ?_)
  cases mk <;> decide +kernel

theorem shadowMasked_marked (mk : MaskKind) :
    Marked "/work" mk (finalState (shadowMasked mk)) (cubeOf (shadowMasked mk)) "B04" 0 0 0 := by
  refine ⟨"B04", 1, ?_, Nat.one_pos, ?_⟩
  · cases mk <;> decide +kernel
  · cases mk <;> decide +kernel

/-- The callback `x < x`, which is zero everywhere. -/
def neverCallback : Json :=
  .obj [("process_graph", .obj [("lt", .obj [("arguments",
    .obj [("data", .arr [.obj [("from_parameter", .str "x")], .obj [("from_parameter", .str "x")]])]),
    ("process_id", .str "lt"), ("result", .bool true)])])]

/-- A node that applies the callback. -/
def neverArgs (c : DataCube) : Args :=
  (BTreeMap.empty.insert "data" (.cube c)).insert "process" (.value neverCallback .missingEnvelope)

/-- The reducer that counts. -/
def countReducer : Json :=
  .obj [("process_graph", .obj [("n", .obj [("arguments",
    .obj [("data", .obj [("from_parameter", .str "data")])]),
    ("process_id", .str "count"), ("result", .bool true)])])]

/-- A node that counts along a dimension. -/
def countArgs (c : DataCube) (dim : String) : Args :=
  ((BTreeMap.empty.insert "data" (.cube c)).insert "reducer"
    (.value countReducer .missingEnvelope)).insert "dimension" (.value (.str dim) .missingEnvelope)

theorem argCube_neverArgs (c : DataCube) : ArgCube (neverArgs c) "data" c :=
  ⟨.cube c, by simp [neverArgs, BTreeMap.get_insert], rfl⟩

theorem reduceArgs_countArgs (c : DataCube) (dim who : String) :
    reduceArgs (countArgs c dim) who = .ok (.builtin .count, c) := by
  have hreducer :
      (countArgs c dim).get "reducer" = some (.value countReducer .missingEnvelope) := by
    simp [countArgs, BTreeMap.get_insert]
  have hdata : (countArgs c dim).get "data" = some (.cube c) := by
    simp [countArgs, BTreeMap.get_insert]
  have hparse : parseReducerSubgraph countReducer = .ok (.builtin .count) := rfl
  simp only [reduceArgs, hreducer, Envelope.toValue, hparse, requireArg, hdata]
  rfl

theorem dimension_countArgs (c : DataCube) (dim : String) :
    argStrOr (countArgs c dim) "dimension" "" = dim := by
  simp [argStrOr, countArgs, Envelope.asStr, Envelope.json, Json.asStr]

/-- `apply` computes the callback on a masked pixel. -/
theorem apply_not_staysMasked (mk : MaskKind) : ¬ StaysMasked mk .apply := by
  intro h
  have hrun : returnsCube (evalApply Platform.exact "/work" (neverArgs (cubeOf (shadowMasked mk)))
      (finalState (shadowMasked mk))) = true := by
    cases mk <;> decide +kernel
  have hpixel := h _ _ _ _ (shadowMasked_maskedCube mk) _ _ _ _ (shadowMasked_marked mk)
    (neverArgs (cubeOf (shadowMasked mk))) _ _ (argCube_neverArgs _) (eq_ok_of_returnsCube hrun)
    (by decide)
  revert hpixel
  cases mk <;> decide +kernel

/-- A reduction over time counts a masked pixel. -/
theorem reduceTime_not_staysMasked (mk : MaskKind) : ¬ StaysMasked mk .reduceTime := by
  intro h
  have hrun : returnsCube (evalReduceDimension Platform.exact "/work"
      (countArgs (cubeOf (shadowMasked mk)) "t") (finalState (shadowMasked mk))) = true := by
    cases mk <;> decide +kernel
  have hpixel := h _ _ _ _ (shadowMasked_maskedCube mk) _ _ _ _ (shadowMasked_marked mk)
    (countArgs (cubeOf (shadowMasked mk)) "t") _ _ _ (reduceArgs_countArgs _ _ _)
    (by rw [dimension_countArgs]; decide) (eq_ok_of_returnsCube hrun)
    (by cases mk <;> decide +kernel)
  revert hpixel
  cases mk <;> decide +kernel

/-- A reduction over the bands counts a masked pixel. -/
theorem reduceBands_not_staysMasked (mk : MaskKind) : ¬ StaysMasked mk .reduceBands := by
  intro h
  have hrun : returnsCube (evalReduceDimension Platform.exact "/work"
      (countArgs (cubeOf (shadowMasked mk)) "bands") (finalState (shadowMasked mk))) = true := by
    cases mk <;> decide +kernel
  have hpixel := h _ _ _ _ (shadowMasked_maskedCube mk) _ _ _ _ (shadowMasked_marked mk)
    (countArgs (cubeOf (shadowMasked mk)) "bands") _ _ _ (reduceArgs_countArgs _ _ _)
    (by rw [dimension_countArgs]; decide) (eq_ok_of_returnsCube hrun) (by decide)
    (by cases mk <;> decide +kernel)
  revert hpixel
  cases mk <;> decide +kernel

/-- **A masked pixel stays a gap in the next step exactly when that step is
`ndvi`.** -/
theorem staysMasked_iff (mk : MaskKind) (next : NextKind) : StaysMasked mk next ↔ next = .ndvi := by
  cases next with
  | ndvi =>
      exact iff_of_true (ndvi_staysMasked mk) rfl
  | apply =>
      exact iff_of_false (apply_not_staysMasked mk) nofun
  | reduceTime =>
      exact iff_of_false (reduceTime_not_staysMasked mk) nofun
  | reduceBands =>
      exact iff_of_false (reduceBands_not_staysMasked mk) nofun

/-- The node `apply` after `mask`: the masked pixel of the shadow becomes zero. -/
theorem shadow_masked_then_zero :
    Marked "/work" .mask (finalState (shadowMasked .mask)) (cubeOf (shadowMasked .mask)) "B04" 0 0 0 ∧
      ∃ out w, evalApply Platform.exact "/work" (neverArgs (cubeOf (shadowMasked .mask)))
          (finalState (shadowMasked .mask)) = .ok (.cube out) w ∧
        pixelAt w out "B04" 0 0 0 = some (.finite 0) ∧ ¬ StaysMasked .mask .apply := by
  refine ⟨shadowMasked_marked .mask, _, _, eq_ok_of_returnsCube (by decide +kernel), ?_,
    apply_not_staysMasked .mask⟩
  decide +kernel

end OrbitOpenEO
