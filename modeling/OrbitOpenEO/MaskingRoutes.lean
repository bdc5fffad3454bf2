import OrbitOpenEO.MaskWrites
import OrbitOpenEO.MaskedPixels

/-!
# Two routes to a masked cube

The pixels of some classes can be cleared with one call of `mask_scl_dilation`, or with
`mask_from_values` followed by `mask` with zero as the replacement.  At a pixel both do
the same.  They differ in the bands they work on: `mask_scl_dilation` masks every band
but the classification, `mask` leaves the index bands out of its result and hands a
band named `scl` on as it is.

When no file of the cube is in the way of a write, each route succeeds exactly if the
scenes of its bands can be masked, and the two return the same exactly if they work on
the same bands.
-/

namespace OrbitOpenEO

open Lib

/-- A list of classes as an argument. -/
def classArgument (values : List Nat) : Envelope :=
  .value (.arr (values.map fun v => .num (.posInt v))) .missingEnvelope

/-- The arguments of `mask_scl_dilation(data, mask2_values)`. -/
def dilationArgs (cube : DataCube) (values : List Nat) : Args :=
  (BTreeMap.empty.insert "data" (.cube cube)).insert "mask2_values" (classArgument values)

/-- The arguments of `mask_from_values(data, "SCL", values)`. -/
def classMaskArgs (cube : DataCube) (values : List Nat) : Args :=
  ((BTreeMap.empty.insert "data" (.cube cube)).insert "band"
    (.value (.str "SCL") .missingEnvelope)).insert "values" (classArgument values)

/-- The arguments of `mask(data, mask, replacement = 0)`. -/
def maskArgs (cube : DataCube) (mask : Envelope) : Args :=
  ((BTreeMap.empty.insert "data" (.cube cube)).insert "mask" mask).insert "replacement"
    (.value (.num (.posInt 0)) .missingEnvelope)

section Routes

variable (P : Platform) (dir : PathBuf) (cube : DataCube) (values : List Nat)

/-- `mask_scl_dilation(data, mask2_values)`. -/
def dilationRoute : Eval Envelope := evalMaskSclDilation P dir (dilationArgs cube values)

/-- `mask(data, mask_from_values(data, "SCL", values), replacement = 0)`. -/
def maskRoute : Eval Envelope := do
  let classMask ← evalMaskFromValues P dir (classMaskArgs cube values)
  evalMask P dir (maskArgs cube classMask)

end Routes

/-- The same pixels on the same frame. -/
structure Raster.Same (r r' : Raster) : Prop where
  rows : r.rows = r'.rows
  cols : r.cols = r'.cols
  pixel : ∀ row < r.rows, ∀ col < r.cols, r.pixel row col = r'.pixel row col

/-- Two cubes have the same bands, and in every band the same rasters, scene by scene. -/
structure SameCube (c : DataCube) (w : World) (c' : DataCube) (w' : World) : Prop where
  bands : ∀ b, b ∈ c.bands.keys ↔ b ∈ c'.bands.keys
  scenes : ∀ b ps ps', c.bands.get b = some ps → c'.bands.get b = some ps' →
    List.Forall₂ (fun p p' => Option.Rel Raster.Same (w.files p) (w'.files p')) ps ps'

/-- Both calls fail, or both return the same cube. -/
def RoutesAgree :
    EStateM.Result ExecError World Envelope → EStateM.Result ExecError World Envelope → Prop
  | .error _ _, .error _ _ => True
  | .ok (.cube c) w, .ok (.cube c') w' => SameCube c w c' w'
  | _, _ => False

/-- What the routes rely on: small numbers are kept, and whether rasters can be opened and
processed together is a matter of their frames. -/
structure Platform.MasksByFrame (P : Platform) : Prop where
  ofInt_zero : P.f64.ofInt 0 = .finite 0
  readU8_stored : ∀ n : Nat, n ≤ 255 → P.readU8 (.finite n) = n
  refuse_frame : ∀ data scl mask : Raster, mask.rows = scl.rows → mask.cols = scl.cols →
    mask.pixelWidth = scl.pixelWidth → mask.pixelHeight = scl.pixelHeight →
    P.refuse [data, mask] = P.refuse [data, scl]
  refuse_alone : ∀ data scl, P.refuse [data, scl] = none → P.refuse [scl] = none

section Calls

variable {P : Platform} {dir : PathBuf} {cube : DataCube} {values : List Nat}

theorem parseMaskValues_classes (hvalues : ∀ v ∈ values, v ≤ 255) :
    parseMaskValues (values.map fun v => .num (.posInt v)) = .ok values := by
  induction values with
  | nil =>
      rfl
  | cons v vs ih =>
      rw [List.forall_mem_cons] at hvalues
      have hv : ¬ 255 < v := Nat.not_lt.mpr hvalues.1
      rw [List.map_cons, parseMaskValues, ih hvalues.2]
      simp [Json.asU64, hv, bind, Except.bind]

theorem filterMap_classes (hvalues : ∀ v ∈ values, v ≤ 255) :
    ((values.map fun v => Json.num (.posInt v)).filterMap Json.asU64).filter (fun v => v ≤ 255) =
      values := by
  have hsome : (Json.asU64 ∘ fun v => Json.num (.posInt v)) = some := rfl
  rw [List.filterMap_map, hsome, List.filterMap_some, List.filter_eq_self]
  intro v hv
  exact decide_eq_true (hvalues v hv)

/-- The first route is the body of `mask_scl_dilation` on the bands `SCL` and the rest. -/
theorem dilationRoute_eq (hvalues : ∀ v ∈ values, v ≤ 255) :
    dilationRoute P dir cube values =
      maskSclDilation P dir cube "SCL" values >>= fun out => pure (.cube out) := by
  have hname : argStrOr (dilationArgs cube values) "scl_band_name" "SCL" = "SCL" := by
    simp [dilationArgs, argStrOr, BTreeMap.get_insert]
  have hmask2 : mask2Values (dilationArgs cube values) = values := by
    rw [mask2Values, argArray, dilationArgs, BTreeMap.get_insert_self]
    exact filterMap_classes hvalues
  have hdata : (dilationArgs cube values).get "data" = some (.cube cube) := by
    simp [dilationArgs, BTreeMap.get_insert]
  unfold dilationRoute evalMaskSclDilation
  rw [hname, hmask2, requireArg, hdata]
  rfl

theorem evalMaskFromValues_classMaskArgs (hne : values ≠ []) (hlength : values.length ≤ 4096)
    (hvalues : ∀ v ∈ values, v ≤ 255) :
    evalMaskFromValues P dir (classMaskArgs cube values) =
      maskFromValues P dir cube "SCL" "mask" values >>= fun out => pure (.cube out) := by
  have hclasses : maskValues P (classMaskArgs cube values) = .ok values := by
    rw [maskValues, classMaskArgs, BTreeMap.get_insert_self]
    dsimp only [classArgument, Envelope.json]
    rw [if_neg (by simpa using hlength), parseMaskValues_classes hvalues]
    exact if_neg hne
  have hband : argStrOr (classMaskArgs cube values) "band" "SCL" = "SCL" := by
    simp [classMaskArgs, argStrOr, BTreeMap.get_insert, Envelope.asStr, Envelope.json, Json.asStr]
  have htarget : argStrOr (classMaskArgs cube values) "target_band" "mask" = "mask" := by
    simp [classMaskArgs, argStrOr, BTreeMap.get_insert]
  have hdata : (classMaskArgs cube values).get "data" = some (.cube cube) := by
    simp [classMaskArgs, BTreeMap.get_insert]
  unfold evalMaskFromValues
  rw [hclasses, hband, htarget, requireArg, hdata]
  rfl

/-- The call of `mask` needs a band to work on. -/
theorem evalMask_maskArgs_outcome (hP : P.MasksByFrame) {classMask : DataCube} {w : World}
    {Q : DataCube → World → Prop} {F : World → Prop} (hempty : maskableBands cube = [] → F w)
    (hmask : maskableBands cube ≠ [] → Outcome Q F (mask P dir cube classMask 0 w)) :
    Outcome (fun v t => ∃ out, v = .cube out ∧ maskableBands cube ≠ [] ∧ Q out t) F
      (evalMask P dir (maskArgs cube (.cube classMask)) w) := by
  have hreplacement : maskReplacement P (maskArgs cube (.cube classMask)) = .ok 0 := by
    rw [maskReplacement, maskArgs, BTreeMap.get_insert_self]
    dsimp only [Envelope.json, Number.asF64]
    have hzero : P.f64.ofInt ((0 : Nat) : Int) = .finite 0 := hP.ofInt_zero
    rw [hzero]
    rfl
  have hdata : (maskArgs cube (.cube classMask)).get "data" = some (.cube cube) := by
    simp [maskArgs, BTreeMap.get_insert]
  have hclass : (maskArgs cube (.cube classMask)).get "mask" = some (.cube classMask) := by
    simp [maskArgs, BTreeMap.get_insert]
  unfold evalMask
  rw [hreplacement, requireArg, hdata, requireArg, hclass]
  by_cases hbands : maskableBands cube = []
  · change Outcome _ F ((if maskableBands cube = [] then _ else _ : Eval Envelope) w)
    rw [if_pos hbands]
    exact hempty hbands
  · change Outcome _ F ((if maskableBands cube = [] then _ else _ : Eval Envelope) w)
    rw [if_neg hbands]
    change Outcome _ F
      ((mask P dir cube classMask 0 >>= fun out => (pure (Envelope.cube out) : Eval Envelope)) w)
    refine Outcome.bind (hmask hbands) ?_
    intro out t hout
    exact ⟨out, rfl, hbands, hout⟩

/-- The other bands contain all bands that `mask` works on. -/
theorem mem_rest_of_mem_maskableBands {e : String × List PathBuf}
    (he : e ∈ maskableBands cube) : e ∈ (cube.bands.remove "SCL").entries := by
  obtain ⟨hmem, hkept⟩ := List.mem_filter.mp he
  refine List.mem_filter.mpr ⟨hmem, ?_⟩
  rw [Bool.and_eq_true, Bool.not_eq_true'] at hkept
  rw [decide_eq_true_eq]
  intro hname
  rw [hname] at hkept
  cases hkept.1

theorem nodup_maskableBands : ((maskableBands cube).map Prod.fst).Nodup :=
  cube.bands.keys_nodup.sublist (List.filter_sublist.map Prod.fst)

theorem RoutesApart.mono {sclPaths : List PathBuf} {bands bands' : List (String × List PathBuf)}
    (h : RoutesApart dir sclPaths bands) (hsub : ∀ e ∈ bands', e ∈ bands) :
    RoutesApart dir sclPaths bands' where
  sclClass := h.sclClass
  sclMasked e he := h.sclMasked e (hsub e he)
  sclMask e he := h.sclMask e (hsub e he)
  dataClass e he := h.dataClass e (hsub e he)
  dataMasked e he e' he' := h.dataMasked e (hsub e he) e' (hsub e' he')
  dataMask e he e' he' := h.dataMask e (hsub e he) e' (hsub e' he')

/-- The files of `mask` are none of the class masks. -/
theorem outputsApart_mask {sclPaths : List PathBuf} {bands : List (String × List PathBuf)}
    (hnames : ∀ e ∈ bands, validateIdentifier e.1 "mask.bands" = .ok ())
    (hapart : RoutesApart dir sclPaths bands) :
    OutputsApart (maskPath dir) (sceneFiles dir "mask" "_from_values_t" sclPaths.length)
      bands where
  distinct _ he _ he' _ _ h := scenePath_distinct (by decide) hnames he he' h
  notMask := by
    intro e he t _ hmem
    obtain ⟨t', _, heq⟩ := List.mem_map.mp hmem
    obtain ⟨hname, _⟩ := scenePath_parts (by decide)
      (noSlash_of_validateIdentifier (hnames e he)) (by decide) (by decide) heq
    have hsuffix : "_mask_t".toList <:+ ("mask" ++ "_from_values_t").toList := by
      rw [hname, String.toList_append]
      exact List.suffix_append _ _
    revert hsuffix
    decide
  notRead e he e' he' t ht := hapart.dataMask e he e' he' t (by simpa using ht)

/-- A class mask stands in for the classification it was computed from. -/
theorem refuse_classMask (hP : P.MasksByFrame) (data scl : Raster) :
    P.refuse [data, maskFromValuesWorker P values [scl]] = P.refuse [data, scl] :=
  hP.refuse_frame data scl _ rfl rfl rfl rfl

section Masking

variable {sclPaths : List PathBuf} {bands : List (String × List PathBuf)}
  {files files' : PathBuf → Option Raster}

/-- Where a band can be masked, all class masks can be computed. -/
theorem Maskable.classWrites_isSome (hP : P.MasksByFrame)
    (hm : Maskable P files sclPaths bands)
    (hclass : ∀ t < sclPaths.length, classMaskPath dir t ∉ sclPaths) :
    (runWrites (classWrites P dir values sclPaths) files).isSome := by
  refine (runWrites_classWrites_isSome_iff hclass).mpr ?_
  intro t s hs
  obtain ⟨e, he⟩ := List.exists_mem_of_ne_nil _ hm.nonempty
  have ht : t < e.2.length := by
    rw [hm.scenes e he]
    exact (List.getElem?_eq_some_iff.mp hs).1
  obtain ⟨data, scl, _, hscl, hr⟩ := hm.readable e he t _ s (List.getElem?_eq_getElem ht) hs
  exact ⟨scl, hscl, hP.refuse_alone data scl hr⟩

/-- After the class masks have been computed, the masking goes through exactly if the
bands can be masked by the classification. -/
theorem maskable_iff_mask_isSome (hP : P.MasksByFrame) (hapart : RoutesApart dir sclPaths bands)
    (hnd : (bands.map Prod.fst).Nodup) (hempty : bands ≠ [])
    (hscenes : ∀ e ∈ bands, e.2.length = sclPaths.length)
    (hnames : ∀ e ∈ bands, validateIdentifier e.1 "mask.bands" = .ok ())
    (hclass : runWrites (classWrites P dir values sclPaths) files = some files') :
    Maskable P files sclPaths bands ↔
      (runWrites (bandWrites P (maskWorker P 0) (maskPath dir)
        (sceneFiles dir "mask" "_from_values_t" sclPaths.length) bands) files').isSome := by
  rw [runWrites_bandWrites_isSome_iff hnd (outputsApart_mask hnames hapart)]
  have hdata : ∀ e ∈ bands, ∀ (t : Nat) (d : PathBuf), e.2[t]? = some d → files' d = files d := by
    intro e he t d hd
    refine runWrites_classWrites_of_ne hclass ?_
    rintro t' ht' rfl
    exact hapart.dataClass e he t' ht' (List.mem_of_getElem? hd)
  constructor
  · intro hm e he t d m hd hmask
    obtain ⟨ht, rfl⟩ := getElem?_sceneFiles.mp hmask
    have hs := List.getElem?_eq_getElem ht
    obtain ⟨data, scl, hd', hscl, hr⟩ := hm.readable e he t d _ hd hs
    obtain ⟨scl', hscl', hout⟩ := runWrites_classWrites_out hapart.sclClass hclass hs
    rw [hscl] at hscl'
    cases hscl'
    refine ⟨data, _, (hdata e he t d hd).trans hd', hout, ?_⟩
    rw [refuse_classMask hP, hr]
  · intro h
    refine ⟨hempty, hscenes, hnames, ?_⟩
    intro e he t d s hd hs
    have ht := (List.getElem?_eq_some_iff.mp hs).1
    obtain ⟨data, mask, hd', hmask, hr⟩ :=
      h e he t d _ hd (getElem?_sceneFiles.mpr ⟨ht, rfl⟩)
    obtain ⟨scl, hscl, hout⟩ := runWrites_classWrites_out hapart.sclClass hclass hs
    rw [hout] at hmask
    cases hmask
    rw [refuse_classMask hP] at hr
    exact ⟨data, scl, (hdata e he t d hd).symm.trans hd', hscl, hr⟩

/-- **The first route succeeds exactly if all bands but the classification can be
masked.** -/
theorem dilationRoute_outcome {w : World} (hvalues : ∀ v ∈ values, v ≤ 255)
    (hgrid : SclOnGrid w cube sclPaths)
    (hapart : RoutesApart dir sclPaths (cube.bands.remove "SCL").entries) :
    Outcome
      (fun v t => Maskable P w.files sclPaths (cube.bands.remove "SCL").entries ∧
        v = .cube (dilationResult dir cube sclPaths) ∧
        runWrites (bandWrites P (maskSclWorker P values) (maskedPath dir) sclPaths
          (cube.bands.remove "SCL").entries) w.files = some t.files)
      (fun _ => ¬ Maskable P w.files sclPaths (cube.bands.remove "SCL").entries)
      (dilationRoute P dir cube values w) := by
  rw [dilationRoute_eq hvalues]
  refine Outcome.bind (maskSclDilation_outcome hgrid hapart) ?_
  rintro out t ⟨hm, rfl, hrun⟩
  exact ⟨hm, rfl, hrun⟩

/-- **The second route succeeds exactly if there is a scene and the bands that `mask` works
on can be masked.** -/
theorem maskRoute_outcome {w : World} (hP : P.MasksByFrame) (hne : values ≠ [])
    (hlength : values.length ≤ 4096) (hvalues : ∀ v ∈ values, v ≤ 255)
    (hscl : cube.bands.get "SCL" = some sclPaths)
    (hapart : RoutesApart dir sclPaths (maskableBands cube)) :
    Outcome
      (fun v t => (sclPaths ≠ [] ∧ Maskable P w.files sclPaths (maskableBands cube)) ∧
        v = .cube (maskResult dir cube sclPaths) ∧
        ∃ files, runWrites (classWrites P dir values sclPaths) w.files = some files ∧
          runWrites (bandWrites P (maskWorker P 0) (maskPath dir)
            (sceneFiles dir "mask" "_from_values_t" sclPaths.length) (maskableBands cube))
            files = some t.files)
      (fun _ => ¬ (sclPaths ≠ [] ∧ Maskable P w.files sclPaths (maskableBands cube)))
      (maskRoute P dir cube values w) := by
  unfold maskRoute
  rw [evalMaskFromValues_classMaskArgs hne hlength hvalues, bind_assoc]
  refine Outcome.bind ((maskFromValues_outcome hscl).imp (fun _ _ h => h) ?_) ?_
  · rintro _ hnone ⟨hscenes, hm⟩
    have hsome : (runWrites (classWrites P dir values sclPaths) w.files).isSome :=
      hm.classWrites_isSome hP hapart.sclClass
    rw [hnone hscenes] at hsome
    cases hsome
  · rintro classMask v ⟨hscenes, rfl, hclass⟩
    rw [pure_bind]
    have hiff : ∀ _ : MaskInputs (sceneFiles dir "mask" "_from_values_t" sclPaths.length)
        (maskableBands cube), maskableBands cube ≠ [] →
        (Maskable P w.files sclPaths (maskableBands cube) ↔
          (runWrites (bandWrites P (maskWorker P 0) (maskPath dir)
            (sceneFiles dir "mask" "_from_values_t" sclPaths.length) (maskableBands cube))
            v.files).isSome) :=
      fun hinputs hempty => maskable_iff_mask_isSome hP hapart nodup_maskableBands hempty
        (by simpa using hinputs.1) hinputs.2 hclass
    refine (evalMask_maskArgs_outcome hP (fun hbands hboth => hboth.2.nonempty hbands)
      fun hbands => (mask_outcome (sceneFiles dir "mask" "_from_values_t" sclPaths.length)
        rfl).imp (fun _ _ h => h) ?_).imp ?_ (fun _ h => h)
    · rintro _ hnone ⟨_, hm⟩
      have hinputs : MaskInputs (sceneFiles dir "mask" "_from_values_t" sclPaths.length)
          (maskableBands cube) := ⟨by simpa using hm.scenes, hm.names⟩
      rw [hiff hinputs hbands, hnone hinputs] at hm
      cases hm
    · rintro _ t ⟨_, rfl, hbands, hinputs, rfl, hrun⟩
      refine ⟨⟨hscenes, (hiff hinputs hbands).mpr (by rw [hrun]; rfl)⟩, ?_, v.files, hclass, hrun⟩
      rw [length_sceneFiles, maskResult]

end Masking

/-- At a pixel the two routes do the same. -/
theorem maskWorker_classMask (hP : P.MasksByFrame) (data scl : Raster) :
    maskWorker P 0 data (maskFromValuesWorker P values [scl]) =
      maskSclWorker P values data scl := by
  have hset : ∀ x : F64,
      P.readU8 (if P.readU8 x ∈ values then .finite 1 else .finite 0) = 0 ↔
        P.readU8 x ∉ values := by
    intro x
    by_cases hx : P.readU8 x ∈ values
    · have hone : P.readU8 (.finite 1) = 1 := hP.readU8_stored 1 (by decide)
      simp [hx, hone]
    · have hzero : P.readU8 (.finite 0) = 0 := hP.readU8_stored 0 (by decide)
      simp [hx, hzero]
  have hpixel : ∀ row col, P.readU8 ((maskFromValuesWorker P values [scl]).pixel row col) = 0 ↔
      P.readU8 (scl.pixel row col) ∉ values := fun row col => hset (scl.pixel row col)
  unfold maskWorker maskSclWorker
  congr 1
  funext row col
  simp only [hpixel]
  rfl

/-- A raster that masking leaves as it is: it is zero in the masked pixels and holds 16-bit
numbers elsewhere. -/
def KeptByMasking (P : Platform) (values : List Nat) (data scl : Raster) : Prop :=
  ∀ row < data.rows, ∀ col < data.cols, data.pixel row col =
    if P.readU8 (scl.pixel row col) ∈ values then .finite 0
    else .finite (P.readI16 (data.pixel row col))

theorem same_maskSclWorker_iff {data scl : Raster} (hgrid : sameGrid scl data = true) :
    (maskSclWorker P values data scl).Same data ↔ KeptByMasking P values data scl := by
  have hframe : scl.cols = data.cols ∧ scl.rows = data.rows := by
    simp only [sameGrid, Bool.and_eq_true, beq_iff_eq] at hgrid
    exact hgrid.1.1
  have hpixel : ∀ row < data.rows, ∀ col < data.cols,
      (maskSclWorker P values data scl).pixel row col =
        if P.readU8 (scl.pixel row col) ∈ values then .finite 0
        else .finite (P.readI16 (data.pixel row col)) := by
    intro row hrow col hcol
    rw [maskSclWorker, hframe.1, hframe.2]
    by_cases hclass : P.readU8 (scl.pixel row col) ∈ values
    · simp [hclass]
    · simp [hclass, hrow, hcol]
  constructor
  · intro h row hrow col hcol
    rw [← hpixel row hrow col hcol]
    exact (h.pixel row hrow col hcol).symm
  · intro h
    refine ⟨rfl, rfl, ?_⟩
    intro row hrow col hcol
    rw [hpixel row hrow col hcol]
    exact (h row hrow col hcol).symm

theorem scl_not_mem_rest : "SCL" ∉ (cube.bands.remove "SCL").entries.map Prod.fst := by
  intro hmem
  obtain ⟨e, he, hname⟩ := List.mem_map.mp hmem
  exact of_decide_eq_true (List.mem_filter.mp he).2 hname

theorem mem_keys_dilationResult {sclPaths : List PathBuf} {b : String} :
    b ∈ (dilationResult dir cube sclPaths).bands.keys ↔ b = "SCL" ∨ b ∈ cube.bands.keys := by
  have hkeys := @mem_keys_maskSclOutput cube "SCL" sclPaths
    (fun b => sceneFiles dir b "_masked_t" sclPaths.length) b
  exact hkeys

theorem mem_keys_maskResult {sclPaths : List PathBuf} {b : String} :
    b ∈ (maskResult dir cube sclPaths).bands.keys ↔
      b ∈ cube.bands.keys ∧ b ∉ F32_INDEX_BANDS := by
  have hkeys := @mem_keys_maskOutput cube
    (fun b => sceneFiles dir b "_mask_t" sclPaths.length) sclPaths.length 0 b
  exact hkeys

theorem get_dilationResult_eq_some_iff {sclPaths ps : List PathBuf} {b : String} :
    (dilationResult dir cube sclPaths).bands.get b = some ps ↔
      (b = "SCL" ∧ ps = sclPaths) ∨
        ∃ e ∈ (cube.bands.remove "SCL").entries, b = e.1 ∧
          ps = sceneFiles dir e.1 "_masked_t" sclPaths.length := by
  have hwritten : ((writtenBands dir "_masked_t" sclPaths.length
      (cube.bands.remove "SCL").entries).map Prod.fst).Nodup := by
    rw [List.map_map]
    exact (cube.bands.remove "SCL").keys_nodup
  rw [dilationResult, maskSclOutput, BTreeMap.get_insert]
  by_cases hb : b = "SCL"
  · rw [if_pos hb, Option.some.injEq]
    constructor
    · rintro rfl
      exact Or.inl ⟨hb, rfl⟩
    · rintro (⟨_, rfl⟩ | ⟨e, he, heq, _⟩)
      · rfl
      · exact absurd (List.mem_map.mpr ⟨e, he, heq.symm.trans hb⟩) scl_not_mem_rest
  · rw [if_neg hb, BTreeMap.get_ofEntries_eq_some_iff hwritten, List.mem_map]
    constructor
    · rintro ⟨e, he, heq⟩
      cases heq
      exact Or.inr ⟨e, he, rfl, rfl⟩
    · rintro (⟨hscl, _⟩ | ⟨e, he, rfl, rfl⟩)
      · exact absurd hscl hb
      · exact ⟨e, he, rfl⟩

theorem get_maskResult_eq_some_iff {sclPaths ps : List PathBuf} {b : String} :
    (maskResult dir cube sclPaths).bands.get b = some ps ↔
      (isSclName b = true ∧ cube.bands.get b = some ps) ∨
        ∃ e ∈ maskableBands cube, b = e.1 ∧
          ps = sceneFiles dir e.1 "_mask_t" sclPaths.length := by
  have hwritten : ((writtenBands dir "_mask_t" sclPaths.length
      (maskableBands cube)).map Prod.fst).Nodup := by
    rw [List.map_map]
    exact nodup_maskableBands
  have hforwarded : ((cube.bands.entries.filter fun e => isSclName e.1).map Prod.fst).Nodup :=
    cube.bands.keys_nodup.sublist (List.filter_sublist.map Prod.fst)
  have hlast : ∀ ps, BTreeMap.lastEntry (cube.bands.entries.filter fun e => isSclName e.1) b =
      some ps ↔ isSclName b = true ∧ cube.bands.get b = some ps := by
    intro ps
    rw [← BTreeMap.get_ofEntries, BTreeMap.get_ofEntries_eq_some_iff hforwarded, List.mem_filter,
      BTreeMap.get_eq_some_iff, and_comm]
  have hmasked : (BTreeMap.ofEntries (writtenBands dir "_mask_t" sclPaths.length
      (maskableBands cube))).get b = some ps ↔
        ∃ e ∈ maskableBands cube, b = e.1 ∧
          ps = sceneFiles dir e.1 "_mask_t" sclPaths.length := by
    rw [BTreeMap.get_ofEntries_eq_some_iff hwritten, List.mem_map]
    simp only [Prod.mk.injEq, eq_comm]
  rw [maskResult, maskOutput, BTreeMap.get_insertAll, Option.or_eq_some_iff, hlast, hmasked]
  refine or_congr_right' ?_
  intro hnot
  refine and_iff_right_of_imp ?_
  rintro ⟨e, he, rfl, _⟩
  rw [Option.eq_none_iff_forall_ne_some]
  intro ps' hps'
  have hscl := ((hlast ps').mp hps').1
  have hkept := (List.mem_filter.mp he).2
  rw [Bool.and_eq_true, Bool.not_eq_true', hscl] at hkept
  cases hkept.1

/-- Both calls have gone through: the files they started from and those they left. -/
structure BothReturned (P : Platform) (dir : PathBuf) (cube : DataCube) (values : List Nat)
    (sclPaths : List PathBuf) (w w₁ w₂ : World) : Prop where
  rest : Maskable P w.files sclPaths (cube.bands.remove "SCL").entries
  dilation : runWrites (bandWrites P (maskSclWorker P values) (maskedPath dir) sclPaths
    (cube.bands.remove "SCL").entries) w.files = some w₁.files
  mask : ∃ files, runWrites (classWrites P dir values sclPaths) w.files = some files ∧
    runWrites (bandWrites P (maskWorker P 0) (maskPath dir)
      (sceneFiles dir "mask" "_from_values_t" sclPaths.length) (maskableBands cube))
      files = some w₂.files

namespace BothReturned

variable {sclPaths : List PathBuf} {w w₁ w₂ : World}
  (h : BothReturned P dir cube values sclPaths w w₁ w₂)
  (hapart : RoutesApart dir sclPaths (cube.bands.remove "SCL").entries)

include h

/-- A file that the first route does not write. -/
theorem dilation_of_ne {p : PathBuf}
    (hp : ∀ e ∈ (cube.bands.remove "SCL").entries, ∀ t < sclPaths.length,
      maskedPath dir e.1 t ≠ p) : w₁.files p = w.files p := by
  refine runWrites_of_ne h.dilation (forall_mem_bandWrites.mpr ?_)
  intro e he t d s _ hs
  exact (hp e he t (List.getElem?_eq_some_iff.mp hs).1).symm

/-- A file that the second route does not write. -/
theorem mask_of_ne {p : PathBuf} (hclass : ∀ t < sclPaths.length, classMaskPath dir t ≠ p)
    (hp : ∀ e ∈ maskableBands cube, ∀ t < sclPaths.length, maskPath dir e.1 t ≠ p) :
    w₂.files p = w.files p := by
  obtain ⟨files, hfirst, hsecond⟩ := h.mask
  rw [runWrites_of_ne hsecond (forall_mem_bandWrites.mpr ?_),
    runWrites_classWrites_of_ne hfirst hclass]
  intro e he t d m _ hm
  obtain ⟨ht, _⟩ := getElem?_sceneFiles.mp hm
  exact (hp e he t ht).symm

include hapart

/-- The classification is as it was. -/
theorem scl_kept {s : PathBuf} (hs : s ∈ sclPaths) :
    w₁.files s = w.files s ∧ w₂.files s = w.files s := by
  refine ⟨h.dilation_of_ne ?_, h.mask_of_ne ?_ ?_⟩
  · rintro e he t ht rfl
    exact hapart.sclMasked e he t ht hs
  · rintro t ht rfl
    exact hapart.sclClass t ht hs
  · rintro e he t ht rfl
    exact hapart.sclMask e (mem_rest_of_mem_maskableBands he) t ht hs

/-- What the first route leaves for a scene. -/
theorem dilation_scene {e : String × List PathBuf} (he : e ∈ (cube.bands.remove "SCL").entries)
    {t : Nat} {d s : PathBuf} (hd : e.2[t]? = some d) (hs : sclPaths[t]? = some s) :
    ∃ data scl, w.files d = some data ∧ w.files s = some scl ∧
      w₁.files (maskedPath dir e.1 t) = some (maskSclWorker P values data scl) :=
  runWrites_bandWrites_out (cube.bands.remove "SCL").keys_nodup
    (outputsApart_masked h.rest.names hapart) h.dilation he hd hs

/-- What the second route leaves for a scene of a band that `mask` works on: the same. -/
theorem mask_scene (hP : P.MasksByFrame) {e : String × List PathBuf}
    (he : e ∈ maskableBands cube) {t : Nat} {d s : PathBuf} (hd : e.2[t]? = some d)
    (hs : sclPaths[t]? = some s) :
    ∃ data scl, w.files d = some data ∧ w.files s = some scl ∧
      w₂.files (maskPath dir e.1 t) = some (maskSclWorker P values data scl) := by
  obtain ⟨files, hfirst, hsecond⟩ := h.mask
  have hsub := hapart.mono fun e (he : e ∈ maskableBands cube) => mem_rest_of_mem_maskableBands he
  have hnames : ∀ e ∈ maskableBands cube, validateIdentifier e.1 "mask.bands" = .ok () :=
    fun e he => h.rest.names e (mem_rest_of_mem_maskableBands he)
  have ht := (List.getElem?_eq_some_iff.mp hs).1
  obtain ⟨data, mask, hdata, hmask, hout⟩ := runWrites_bandWrites_out nodup_maskableBands
    (outputsApart_mask hnames hsub) hsecond he hd (getElem?_sceneFiles.mpr ⟨ht, rfl⟩)
  obtain ⟨scl, hscl, hclass⟩ := runWrites_classWrites_out hapart.sclClass hfirst hs
  rw [hclass] at hmask
  cases hmask
  have hread : files d = w.files d := by
    refine runWrites_classWrites_of_ne hfirst ?_
    rintro t' ht' rfl
    exact hsub.dataClass e he t' ht' (List.mem_of_getElem? hd)
  exact ⟨data, scl, hread.symm.trans hdata, hscl, by rw [hout, maskWorker_classMask hP]⟩

/-- What the second route leaves for a scene of a band that it hands on. -/
theorem forwarded_scene {e : String × List PathBuf} (he : e ∈ (cube.bands.remove "SCL").entries)
    (hscl : isSclName e.1 = true) {t : Nat} {d : PathBuf} (hd : e.2[t]? = some d) :
    w₂.files d = w.files d := by
  refine h.mask_of_ne ?_ ?_
  · rintro t' ht' rfl
    exact hapart.dataClass e he t' ht' (List.mem_of_getElem? hd)
  · rintro e' he' t' ht' rfl
    obtain ⟨hname, _⟩ :=
      hapart.dataMask e' (mem_rest_of_mem_maskableBands he') e he t' ht' t hd
    have hkept := (List.mem_filter.mp he').2
    rw [Bool.and_eq_true, Bool.not_eq_true', hname, hscl] at hkept
    cases hkept.1

end BothReturned

/-- The other bands are those that `mask` works on and hands on, and what it hands on is as
`mask_scl_dilation` would make it. -/
structure BandsAlike (P : Platform) (w : World) (cube : DataCube) (values : List Nat)
    (sclPaths : List PathBuf) : Prop where
  index : ∀ e ∈ (cube.bands.remove "SCL").entries, e.1 ∉ F32_INDEX_BANDS
  scl : ∀ e ∈ (cube.bands.remove "SCL").entries, e.1 = "scl" → ∀ (t : Nat) (d s : PathBuf),
    e.2[t]? = some d → sclPaths[t]? = some s → ∀ data scl, w.files d = some data →
      w.files s = some scl → KeptByMasking P values data scl

/-- The inputs for which the routes agree: the bands that the first masks and those that
the second masks can be masked or not together, and if they can, the bands are alike. -/
structure RoutesMatch (P : Platform) (w : World) (cube : DataCube) (values : List Nat)
    (sclPaths : List PathBuf) : Prop where
  together : Maskable P w.files sclPaths (cube.bands.remove "SCL").entries ↔
    sclPaths ≠ [] ∧ Maskable P w.files sclPaths (maskableBands cube)
  alike : Maskable P w.files sclPaths (cube.bands.remove "SCL").entries →
    BandsAlike P w cube values sclPaths

section Match

variable {sclPaths : List PathBuf} {w w₁ w₂ : World}

theorem Raster.Same.refl (r : Raster) : r.Same r :=
  ⟨rfl, rfl, fun _ _ _ _ => rfl⟩

/-- A band that both routes mask has the same rasters. -/
theorem BothReturned.masked_scenes (h : BothReturned P dir cube values sclPaths w w₁ w₂)
    (hP : P.MasksByFrame)
    (hapart : RoutesApart dir sclPaths (cube.bands.remove "SCL").entries)
    {e : String × List PathBuf} (he : e ∈ maskableBands cube) :
    List.Forall₂ (fun p p' => Option.Rel Raster.Same (w₁.files p) (w₂.files p'))
      (sceneFiles dir e.1 "_masked_t" sclPaths.length)
      (sceneFiles dir e.1 "_mask_t" sclPaths.length) := by
  have hrest := mem_rest_of_mem_maskableBands he
  refine forall₂_sceneFiles (length_sceneFiles dir e.1 "_mask_t" sclPaths.length) ?_
  intro t p ht hp
  obtain ⟨_, rfl⟩ := getElem?_sceneFiles.mp hp
  have hs := List.getElem?_eq_getElem ht
  have ht' : t < e.2.length := by
    rw [h.rest.scenes e hrest]
    exact ht
  have hd := List.getElem?_eq_getElem ht'
  obtain ⟨data, scl, hdata, hscl, hout⟩ := h.dilation_scene hapart hrest hd hs
  obtain ⟨data', scl', hdata', hscl', hout'⟩ := h.mask_scene hapart hP he hd hs
  rw [hdata] at hdata'
  rw [hscl] at hscl'
  cases hdata'
  cases hscl'
  rw [hout, hout']
  exact .some (Raster.Same.refl _)

/-- A band that only the first route masks has the same rasters if it is zero in the masked
pixels already. -/
theorem BothReturned.forwarded_scenes (h : BothReturned P dir cube values sclPaths w w₁ w₂)
    (hgrid : SclOnGrid w cube sclPaths)
    (hapart : RoutesApart dir sclPaths (cube.bands.remove "SCL").entries)
    (halike : BandsAlike P w cube values sclPaths) {e : String × List PathBuf}
    (he : e ∈ (cube.bands.remove "SCL").entries) (hname : e.1 = "scl") :
    List.Forall₂ (fun p p' => Option.Rel Raster.Same (w₁.files p) (w₂.files p'))
      (sceneFiles dir e.1 "_masked_t" sclPaths.length) e.2 := by
  have hsclName : isSclName e.1 = true := by
    rw [hname]
    rfl
  refine forall₂_sceneFiles (h.rest.scenes e he) ?_
  intro t d ht hd
  have hs := List.getElem?_eq_getElem ht
  obtain ⟨data, scl, hdata, hscl, hout⟩ := h.dilation_scene hapart he hd hs
  rw [hout, h.forwarded_scene hapart he hsclName hd, hdata]
  refine .some ((same_maskSclWorker_iff (hgrid.grid e he t d _ hd hs data scl hdata hscl)).mpr ?_)
  exact halike.scl e he hname t d _ hd hs data scl hdata hscl

/-- The cubes of two calls that have gone through are the same exactly if the bands are
alike. -/
theorem BothReturned.sameCube_iff (h : BothReturned P dir cube values sclPaths w w₁ w₂)
    (hP : P.MasksByFrame) (hgrid : SclOnGrid w cube sclPaths)
    (hapart : RoutesApart dir sclPaths (cube.bands.remove "SCL").entries) :
    SameCube (dilationResult dir cube sclPaths) w₁ (maskResult dir cube sclPaths) w₂ ↔
      BandsAlike P w cube values sclPaths := by
  constructor
  · intro hsame
    refine ⟨?_, ?_⟩
    · intro e he
      have hkey : e.1 ∈ cube.bands.keys :=
        List.mem_map.mpr ⟨e, (List.mem_filter.mp he).1, rfl⟩
      have hfirst := (hsame.bands e.1).mp (mem_keys_dilationResult.mpr (Or.inr hkey))
      exact (mem_keys_maskResult.mp hfirst).2
    · intro e he hname t d s hd hs data scl hdata hscl
      have hsclName : isSclName e.1 = true := by
        rw [hname]
        rfl
      have hget : cube.bands.get e.1 = some e.2 :=
        (cube.bands.get_eq_some_iff e.1 e.2).mpr (List.mem_filter.mp he).1
      have hscenes := hsame.scenes e.1 _ _
        (get_dilationResult_eq_some_iff.mpr (Or.inr ⟨e, he, rfl, rfl⟩))
        (get_maskResult_eq_some_iff.mpr (Or.inl ⟨hsclName, hget⟩))
      obtain ⟨p, hp, hrel⟩ := forall₂_getElem? hscenes hd
      obtain ⟨_, rfl⟩ := getElem?_sceneFiles.mp hp
      obtain ⟨data', scl', hdata', hscl', hout⟩ := h.dilation_scene hapart he hd hs
      rw [hdata] at hdata'
      rw [hscl] at hscl'
      cases hdata'
      cases hscl'
      rw [hout, h.forwarded_scene hapart he hsclName hd, hdata] at hrel
      cases hrel with
      | some hsame =>
          exact (same_maskSclWorker_iff (hgrid.grid e he t d s hd hs data scl hdata hscl)).mp hsame
  · intro halike
    refine ⟨?_, ?_⟩
    · intro b
      rw [mem_keys_dilationResult, mem_keys_maskResult]
      have hscl : "SCL" ∈ cube.bands.keys :=
        (cube.bands.mem_keys_iff_get "SCL").mpr ⟨sclPaths, hgrid.scl⟩
      have hkeys : ∀ k ∈ cube.bands.keys, k ∉ F32_INDEX_BANDS := by
        intro k hk
        by_cases hname : k = "SCL"
        · rw [hname]
          decide
        · obtain ⟨e, he, rfl⟩ := List.mem_map.mp hk
          exact halike.index e (List.mem_filter.mpr ⟨he, decide_eq_true hname⟩)
      constructor
      · rintro (rfl | hb)
        · exact ⟨hscl, hkeys _ hscl⟩
        · exact ⟨hb, hkeys b hb⟩
      · exact fun hb => Or.inr hb.1
    · intro b ps ps' hps hps'
      rcases get_dilationResult_eq_some_iff.mp hps with ⟨rfl, rfl⟩ | ⟨e, he, rfl, rfl⟩
      · rcases get_maskResult_eq_some_iff.mp hps' with ⟨_, hget⟩ | ⟨e, he, hname, _⟩
        · rw [hgrid.scl] at hget
          cases hget
          refine List.forall₂_same.mpr ?_
          intro s hs
          obtain ⟨hfirst, hsecond⟩ := h.scl_kept hapart hs
          rw [hfirst, hsecond]
          cases w.files s with
          | none =>
              exact .none
          | some r =>
              exact .some (Raster.Same.refl r)
        · have hmem := List.mem_map.mpr ⟨e, mem_rest_of_mem_maskableBands he, hname.symm⟩
          exact absurd hmem scl_not_mem_rest
      · have hname : e.1 ≠ "SCL" := of_decide_eq_true (List.mem_filter.mp he).2
        rcases get_maskResult_eq_some_iff.mp hps' with ⟨hscl, hget⟩ | ⟨e', he', heq, rfl⟩
        · have hlower : e.1 = "scl" := by
            rw [isSclName, Bool.or_eq_true, beq_iff_eq, beq_iff_eq] at hscl
            exact hscl.resolve_left hname
          have hentry : cube.bands.get e.1 = some e.2 :=
            (cube.bands.get_eq_some_iff e.1 e.2).mpr (List.mem_filter.mp he).1
          rw [hentry] at hget
          cases hget
          exact h.forwarded_scenes hgrid hapart halike he hlower
        · rw [heq]
          exact h.masked_scenes hP hapart he'

/-- **The routes agree exactly on inputs that match**: both calls fail, or both return the
same bands with the same rasters. -/
theorem routes_agree_iff (hP : P.MasksByFrame) (hne : values ≠ [])
    (hlength : values.length ≤ 4096) (hvalues : ∀ v ∈ values, v ≤ 255)
    (hgrid : SclOnGrid w cube sclPaths)
    (hapart : RoutesApart dir sclPaths (cube.bands.remove "SCL").entries) :
    RoutesAgree (dilationRoute P dir cube values w) (maskRoute P dir cube values w) ↔
      RoutesMatch P w cube values sclPaths := by
  have hfirst := dilationRoute_outcome (P := P) hvalues hgrid hapart
  have hsecond := maskRoute_outcome (w := w) hP hne hlength hvalues hgrid.scl
    (hapart.mono fun _ he => mem_rest_of_mem_maskableBands he)
  generalize dilationRoute P dir cube values w = first at hfirst ⊢
  generalize maskRoute P dir cube values w = second at hsecond ⊢
  cases first with
  | error e w₁ =>
      have hno : ¬ Maskable P w.files sclPaths (cube.bands.remove "SCL").entries := hfirst
      cases second with
      | error e' w₂ =>
          exact iff_of_true trivial ⟨iff_of_false hno hsecond, fun hm => absurd hm hno⟩
      | ok v w₂ =>
          obtain ⟨hboth, rfl, _⟩ := hsecond
          exact iff_of_false (fun h => h) fun hmatch => hno (hmatch.together.mpr hboth)
  | ok v w₁ =>
      obtain ⟨hrest, rfl, hdilation⟩ := hfirst
      cases second with
      | error e' w₂ =>
          exact iff_of_false (fun h => h) fun hmatch => hsecond (hmatch.together.mp hrest)
      | ok v' w₂ =>
          obtain ⟨hboth, rfl, hmask⟩ := hsecond
          have h : BothReturned P dir cube values sclPaths w w₁ w₂ := ⟨hrest, hdilation, hmask⟩
          have hcubes := h.sameCube_iff hP hgrid hapart
          constructor
          · intro hagree
            exact ⟨iff_of_true hrest hboth, fun _ => hcubes.mp hagree⟩
          · intro hmatch
            exact hcubes.mpr (hmatch.alike hrest)

/-- Files that the routes write for no scene are no reason to disagree. -/
theorem routesApart_of_fresh {bands : List (String × List PathBuf)}
    (hclass : ∀ t < sclPaths.length, ∀ ps ∈ sclPaths :: bands.map Prod.snd,
      classMaskPath dir t ∉ ps)
    (hmasked : ∀ e ∈ bands, ∀ t < sclPaths.length, ∀ ps ∈ sclPaths :: bands.map Prod.snd,
      maskedPath dir e.1 t ∉ ps ∧ maskPath dir e.1 t ∉ ps) :
    RoutesApart dir sclPaths bands where
  sclClass t ht := hclass t ht sclPaths List.mem_cons_self
  sclMasked e he t ht := (hmasked e he t ht sclPaths List.mem_cons_self).1
  sclMask e he t ht := (hmasked e he t ht sclPaths List.mem_cons_self).2
  dataClass e he t ht :=
    hclass t ht e.2 (List.mem_cons_of_mem _ (List.mem_map.mpr ⟨e, he, rfl⟩))
  dataMasked e he e' he' t ht _ hd :=
    absurd (List.mem_of_getElem? hd)
      (hmasked e he t ht e'.2 (List.mem_cons_of_mem _ (List.mem_map.mpr ⟨e', he', rfl⟩))).1
  dataMask e he e' he' t ht _ hd :=
    absurd (List.mem_of_getElem? hd)
      (hmasked e he t ht e'.2 (List.mem_cons_of_mem _ (List.mem_map.mpr ⟨e', he', rfl⟩))).2

/-- A cube with a scene, without index bands and without a band `scl` is an input on which
the routes agree. -/
theorem routesMatch_of_plain (hscenes : sclPaths ≠ [])
    (hplain : ∀ e ∈ (cube.bands.remove "SCL").entries, e.1 ∉ F32_INDEX_BANDS ∧ e.1 ≠ "scl") :
    RoutesMatch P w cube values sclPaths := by
  have hbands : (cube.bands.remove "SCL").entries = maskableBands cube := by
    refine List.filter_congr ?_
    intro e he
    by_cases hname : e.1 = "SCL"
    · simp [hname, isSclName]
    · obtain ⟨hindex, hscl⟩ := hplain e (List.mem_filter.mpr ⟨he, decide_eq_true hname⟩)
      simp [hname, isSclName, hindex, hscl]
  refine ⟨?_, ?_⟩
  · rw [← hbands]
    exact (and_iff_right hscenes).symm
  · intro _
    refine ⟨fun e he => (hplain e he).1, ?_⟩
    intro e he hname
    exact absurd hname (hplain e he).2

end Match

end Calls

theorem exact_masksByFrame : Platform.exact.MasksByFrame where
  ofInt_zero := rfl
  readU8_stored n _ := by
    change ((n : ℚ).num).toNat = n
    rw [Rat.num_natCast, Int.toNat_natCast]
  refuse_frame _ _ _ _ _ _ _ := rfl
  refuse_alone _ _ _ := rfl

/-- All files of `shadowWorld` have one frame. -/
theorem shadowWorld_sameGrid {p q : PathBuf} {r r' : Raster} (hp : shadowWorld.files p = some r)
    (hq : shadowWorld.files q = some r') : sameGrid r' r = true := by
  have hframe : ∀ {p : PathBuf} {r : Raster}, shadowWorld.files p = some r →
      ∃ v, r = ⟨1, 1, 10, -10, fun _ _ => v⟩ := by
    intro p r h
    simp only [shadowWorld] at h
    split_ifs at h
    · cases h
      exact ⟨_, rfl⟩
    · cases h
      exact ⟨_, rfl⟩
  obtain ⟨v, rfl⟩ := hframe hp
  obtain ⟨v', rfl⟩ := hframe hq
  simp [sameGrid]

/-- The scene of `shadowWorld` with an index band in place of the second data band. -/
def indexScene : DataCube :=
  { bands := ((BTreeMap.empty.insert "B04" ["r0"]).insert "ndvi" ["n0"]).insert "SCL" ["s0"]
    sceneCount := some 1 }

/-- The index band is masked by the one route and left out by the other. -/
theorem indexScene_routes_differ :
    SclOnGrid shadowWorld indexScene ["s0"] ∧
      ¬ RoutesAgree (dilationRoute Platform.exact "/work" indexScene [3] shadowWorld)
        (maskRoute Platform.exact "/work" indexScene [3] shadowWorld) := by
  refine ⟨⟨by decide, fun _ _ _ _ _ _ _ _ _ hd hs => shadowWorld_sameGrid hd hs⟩, ?_⟩
  have hfirst : returnsCube (dilationRoute Platform.exact "/work" indexScene [3] shadowWorld) =
      true := by decide +kernel
  have hsecond : returnsCube (maskRoute Platform.exact "/work" indexScene [3] shadowWorld) =
      true := by decide +kernel
  rw [eq_ok_of_returnsCube hfirst, eq_ok_of_returnsCube hsecond]
  intro hsame
  have hindex := (hsame.bands "ndvi").mp (by decide +kernel)
  revert hindex
  decide +kernel

/-- The routes agree on `shadowScene`, where all pixels are shadows. -/
theorem shadowScene_routes_agree :
    RoutesAgree (dilationRoute Platform.exact "/work" shadowScene [3] shadowWorld)
        (maskRoute Platform.exact "/work" shadowScene [3] shadowWorld) ∧
      RoutesMatch Platform.exact shadowWorld shadowScene [3] ["s0"] := by
  have hmatch : RoutesMatch Platform.exact shadowWorld shadowScene [3] ["s0"] :=
    routesMatch_of_plain (List.cons_ne_nil _ _) (by decide)
  refine ⟨?_, hmatch⟩
  refine (routes_agree_iff exact_masksByFrame (List.cons_ne_nil _ _) (by decide) (by decide)
    ⟨by decide, fun _ _ _ _ _ _ _ _ _ hd hs => shadowWorld_sameGrid hd hs⟩ ?_).mpr hmatch
  exact routesApart_of_fresh (by decide) (by decide)

end OrbitOpenEO
