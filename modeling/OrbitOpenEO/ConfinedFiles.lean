import OrbitOpenEO.ResampledScl
import OrbitOpenEO.SpatialOps

/-!
# Files in the scratch directory

A name without a separator that ends as the files of the evaluators do is one
component of a path.  `validate_identifier` accepts no name with a separator, so the
evaluators that ask it write into the scratch directory itself, whatever they are
given.
-/

namespace OrbitOpenEO

open Lib

/-- The text has no separator. -/
def NoSlash (s : String) : Prop := '/' ∉ s.toList

instance (s : String) : Decidable (NoSlash s) := by
  unfold NoSlash
  infer_instance

/-- One normal component of a path. -/
def NormalComponent (name : String) : Prop :=
  NoSlash name ∧ name ≠ "" ∧ name ≠ "." ∧ name ≠ ".."

/-- A file of the directory, not of another one. -/
def Confined (dir path : PathBuf) : Prop :=
  ∃ name, NormalComponent name ∧ path = scratch dir name

theorem noSlash_append {s t : String} : NoSlash (s ++ t) ↔ NoSlash s ∧ NoSlash t := by
  unfold NoSlash
  rw [String.toList_append, List.mem_append, not_or]

theorem noSlash_nat (n : Nat) : NoSlash (toString n) := by
  unfold NoSlash
  rw [Nat.toString_eq_repr, Nat.toList_repr]
  intro hmem
  have hdigit := Nat.isDigit_of_mem_toDigits (by decide) (by decide) hmem
  cases hdigit

/-- A name that was accepted has no separator. -/
theorem noSlash_of_validateIdentifier {name field : String}
    (h : validateIdentifier name field = .ok ()) : NoSlash name := by
  intro hslash
  have hrefused : (name.toList.find?
      (fun c => !(c.isAlphanum || c == '_' || c == '-' || c == '.'))).isSome :=
    List.find?_isSome.mpr ⟨'/', hslash, by decide⟩
  obtain ⟨c, hc⟩ := Option.isSome_iff_exists.mp hrefused
  unfold validateIdentifier at h
  rw [hc] at h
  split_ifs at h

theorem noSlash_of_validateAll {field : String} :
    ∀ {names : List String}, validateAll field names = .ok () → ∀ name ∈ names, NoSlash name
  | [], _ => fun _ h => absurd h List.not_mem_nil
  | name :: names, h => by
      unfold validateAll at h
      obtain ⟨_, hname, hnames⟩ := bind_eq_ok_iff.mp h
      rw [List.forall_mem_cons]
      exact ⟨noSlash_of_validateIdentifier hname, noSlash_of_validateAll hnames⟩

/-- Names with an ending are components if they have no separator. -/
theorem confined_of_noSlash {dir : PathBuf} {front ending : String} (hfront : NoSlash front)
    (hending : NoSlash ending) (hlength : 2 < ending.length) :
    Confined dir (scratch dir (front ++ ending)) := by
  have hlong : ∀ s : String, s.length ≤ 2 → front ++ ending ≠ s := by
    rintro s hs rfl
    rw [String.length_append] at hs
    omega
  exact ⟨_, ⟨noSlash_append.mpr ⟨hfront, hending⟩, hlong _ (by decide), hlong _ (by decide),
    hlong _ (by decide)⟩, rfl⟩

/-- A relative name that leads to a file of the directory has no separator. -/
theorem noSlash_of_confined {dir : PathBuf} {name : String}
    (h : Confined dir (scratch dir name)) (hrelative : name.toList.head? ≠ some '/') :
    NoSlash name := by
  obtain ⟨plain, ⟨hplain, _⟩, hpath⟩ := h
  have hhead : plain.toList.head? ≠ some '/' := fun h =>
    hplain (List.mem_of_mem_head? h)
  unfold scratch at hpath
  rw [if_neg hrelative, if_neg hhead, String.append_right_inj] at hpath
  rw [hpath]
  exact hplain

theorem scenePath_confined (dir : PathBuf) {stem suffix : String} (hstem : NoSlash stem)
    (hsuffix : NoSlash suffix) (t : Nat) : Confined dir (scenePath dir stem suffix t) :=
  confined_of_noSlash
    (noSlash_append.mpr ⟨noSlash_append.mpr ⟨hstem, hsuffix⟩, noSlash_nat t⟩) (by decide)
    (by decide)

/-- The files with the time in their names. -/
theorem stamped_confined (dir : PathBuf) {front : String} (hfront : NoSlash front)
    (nanos : Nat) : Confined dir (scratch dir s!"{front}_{nanos}.tif") :=
  confined_of_noSlash
    (noSlash_append.mpr ⟨noSlash_append.mpr ⟨hfront, by decide⟩, noSlash_nat nanos⟩) (by decide)
    (by decide)

/-- The event is no write outside the directory. -/
def Inside (dir : PathBuf) : Event → Prop
  | .wrote path => Confined dir path
  | .sclUsed _ _ _ => True

section Evaluators

variable {P : Platform} {tools : SpatialTools} {dir : PathBuf} {w v : World} {args : Args}

theorem ends_now {α : Type} {I : World → Prop} {f : Nat → Eval α}
    (h : Ends I (f (P.nanos w.clockReads) w.tick)) : Ends I ((now P >>= f) w) := h

/-- A new reading of the clock is no write. -/
theorem LogsOnly.bind_now {α : Type} {Ok : Event → Prop} {f : Nat → Eval α}
    (h : ∀ nanos v', LogsOnly Ok w v' → Ends (LogsOnly Ok w) (f nanos v'))
    (hv : LogsOnly Ok w v) : Ends (LogsOnly Ok w) ((now P >>= f) v) :=
  h _ _ hv

theorem evalNdvi_inside
    (htarget : ∀ c reds nirs, ArgCube args "data" c →
      c.bands.get (argStrOr args "red" "B04") = some reds →
      (c.bands.remove (argStrOr args "red" "B04")).get (argStrOr args "nir" "B08") = some nirs →
      reds.length = nirs.length → reds ≠ [] → NoSlash (argStrOr args "target_band" "ndvi")) :
    Ends (LogsOnly (Inside dir) w) (evalNdvi P dir args w) := by
  refine evalNdvi_logs fun c reds nirs hc hred hnir hlength t ht => ?_
  have hne : reds ≠ [] := by
    rintro rfl
    cases ht
  exact scenePath_confined dir (htarget c reds nirs hc hred hnir hlength hne) (by decide) t

theorem evalMask_inside : Ends (LogsOnly (Inside dir) w) (evalMask P dir args w) :=
  evalMask_logs fun _ _ _ _ hname t _ =>
    scenePath_confined dir (noSlash_of_validateIdentifier hname) (by decide) t

theorem evalMaskFromValues_inside :
    Ends (LogsOnly (Inside dir) w) (evalMaskFromValues P dir args w) :=
  evalMaskFromValues_logs fun _ _ _ htarget _ t _ =>
    scenePath_confined dir (noSlash_of_validateIdentifier htarget) (by decide) t

theorem evalApply_inside : Ends (LogsOnly (Inside dir) w) (applyHandler P dir args w) := by
  have hw := LogsOnly.refl (Inside dir) w
  unfold applyHandler
  split
  · unfold evalApply
    refine outcome_attempt_bind hw fun subPg _ => ?_
    refine outcome_attempt_bind hw fun _ _ => ?_
    refine outcome_attempt_bind hw fun data _ => ?_
    refine outcome_attempt_bind hw fun cube _ => ?_
    refine Outcome.bind (Q := fun _ => LogsOnly (Inside dir) w) ?_ fun _ _ h => h
    unfold apply
    split
    · exact hw
    · refine outcome_attempt_bind hw fun _ hnames => ?_
      refine Outcome.bind (ends_mapEach ?_ w hw) fun _ _ h => h
      intro k hk v hv
      have hname := noSlash_of_validateAll hnames k hk
      unfold applyBand
      rcases cube.bands.get k with _ | _ | ⟨path, paths⟩
      · exact hv
      · exact hv
      · refine Outcome.bind (ends_sceneLoop ?_ v hv) fun _ _ h => h
        intro x t _ u hu
        refine LogsOnly.bind_now (fun nanos u hu => ?_) hu
        refine Outcome.bind (ends_reduction hu ?_) fun _ _ h => h
        exact fun _ => hu.write (stamped_confined dir (noSlash_append.mpr
          ⟨noSlash_append.mpr ⟨noSlash_append.mpr ⟨by decide, hname⟩, by decide⟩,
            noSlash_nat t⟩) nanos)
  · exact hw

/-- The classification of a band is resampled into the directory, if it is. -/
theorem resampleBand_inside {sclPaths : List PathBuf} {e : String × List PathBuf}
    (hv : LogsOnly (Inside dir) w v) :
    Ends (LogsOnly (Inside dir) w) (resampleBand P dir sclPaths e v) := by
  unfold resampleBand
  refine outcome_attempt_bind hv fun _ hname => ?_
  refine Outcome.bind (ends_sceneLoop ?_ v hv) fun _ _ h => h
  intro sclPath t _ u hu
  have hout : Confined dir (scenePath dir ("scl_resampled_" ++ e.1) "_t" t) :=
    scenePath_confined dir
      (noSlash_append.mpr ⟨by decide, noSlash_of_validateIdentifier hname⟩) (by decide) t
  cases e.2[t]? with
  | none =>
      exact hu
  | some dataPath =>
      unfold resampleSclToDataGrid warpScl
      dsimp only
      split
      · exact hu
      · exact hu
      · split_ifs
        · exact hu
        · split
          · split_ifs
            · exact hu
            · split
              · exact hu
              · exact hu.write hout
          · split
            · exact hu
            · exact hu.write hout

theorem resampleBand_checks (sclPaths : List PathBuf) (e : String × List PathBuf) :
    Returns (fun _ => NoSlash e.1) (resampleBand P dir sclPaths e) := by
  unfold resampleBand
  refine Returns.bind (returns_attempt (Q := fun _ => NoSlash e.1)
    fun _ h => noSlash_of_validateIdentifier h) ?_
  exact fun _ hname => fun _ _ _ _ => hname

theorem evalMaskSclDilation_inside :
    Ends (LogsOnly (Inside dir) w) (evalMaskSclDilation P dir args w) := by
  have hw := LogsOnly.refl (Inside dir) w
  unfold evalMaskSclDilation
  refine outcome_attempt_bind hw fun _ _ => ?_
  refine outcome_attempt_bind hw fun data _ => ?_
  refine outcome_attempt_bind hw fun cube _ => ?_
  refine Outcome.bind (Q := fun _ => LogsOnly (Inside dir) w) ?_ fun _ _ h => h
  unfold maskSclDilation
  rcases cube.takeBand (argStrOr args "scl_band_name" "SCL") with _ | ⟨sclPaths, rest⟩
  · exact hw
  · dsimp only
    split_ifs
    · exact hw
    · cases rest.bands.entries.find? (fun e => e.2.length ≠ sclPaths.length) with
      | some e =>
          exact hw
      | none =>
          -- The bands of the second loop are those that were checked in the first.
          have hchecked : Returns
              (List.Forall₂ (fun e (_ : String × List PathBuf) => NoSlash e.1)
                rest.bands.entries)
              (mapEach (resampleBand P dir sclPaths) rest.bands.entries) :=
            mapEach_returns_forall₂ fun e _ => resampleBand_checks sclPaths e
          refine Outcome.bind
            (ends_mapEach (fun e _ v hv => resampleBand_inside hv) w hw).and_eq ?_
          rintro resampled u ⟨hu, hloop⟩
          have hnames := hchecked w resampled u hloop
          refine Outcome.bind (ends_mapEach ?_ u hu) fun _ _ h => h
          intro e he v hv
          unfold maskSclBand
          cases resampled.lookup e.1 with
          | none =>
              exact hv
          | some scls =>
              refine Outcome.bind (ends_sceneLoop ?_ v hv) fun _ _ h => h
              intro x t _ u hu
              refine Outcome.bind
                (ends_noteScl hu fun _ _ => hu.snoc (e := .sclUsed _ _ _) trivial rfl) ?_
              intro _ v hv
              refine Outcome.bind (ends_reductionWithMask hv ?_) fun _ _ h => h
              obtain ⟨_, _, hname⟩ := forall₂_exists_right hnames he
              exact fun _ => hv.write (scenePath_confined dir hname (by decide) t)

theorem reduceBands_inside {cube : DataCube} {kind : ReducerKind} :
    Ends (LogsOnly (Inside dir) w) (reduceBands P dir cube kind w) := by
  have hw := LogsOnly.refl (Inside dir) w
  unfold reduceBands
  generalize cube.bands.entries.filter _ = bands
  rcases bands with _ | ⟨⟨key, first⟩, _ | ⟨e, rest⟩⟩
  · exact hw
  · exact hw
  · dsimp only
    cases ((key, first) :: e :: rest).find? (fun e => e.2.length ≠ first.length) with
    | some e =>
        exact hw
    | none =>
        refine Outcome.bind (ends_mapEach ?_ w hw) fun _ _ h => h
        intro t _ v hv
        refine LogsOnly.bind_now (fun nanos v hv => ?_) hv
        have hout : Confined dir (scratch dir s!"reduce_bands_t{t}_{nanos}.tif") :=
          stamped_confined dir (noSlash_append.mpr ⟨by decide, noSlash_nat t⟩) nanos
        exact Outcome.bind (ends_reduction hv fun _ => hv.write hout) fun _ _ h => h

theorem reduceTime_inside {cube : DataCube} {kind : ReducerKind} :
    Ends (LogsOnly (Inside dir) w) (reduceTime P dir cube kind w) := by
  have hw := LogsOnly.refl (Inside dir) w
  unfold reduceTime
  cases primaryBand cube with
  | none =>
      exact hw
  | some key =>
      dsimp only
      rcases cube.takeBand key with _ | ⟨_ | ⟨path, paths⟩, _⟩
      · exact hw
      · exact hw
      · refine LogsOnly.bind_now (fun nanos v hv => ?_) hw
        have hout : Confined dir (scratch dir s!"reduce_{nanos}.tif") :=
          confined_of_noSlash (noSlash_append.mpr ⟨by decide, noSlash_nat nanos⟩) (by decide)
            (by decide)
        exact Outcome.bind (ends_reduction hv fun _ => hv.write hout) fun _ _ h => h

theorem evalReduceDimension_inside :
    Ends (LogsOnly (Inside dir) w) (evalReduceDimension P dir args w) := by
  have hw := LogsOnly.refl (Inside dir) w
  unfold evalReduceDimension
  cases (args.get "dimension").bind Envelope.asStr with
  | none =>
      exact hw
  | some dim =>
      dsimp only
      split_ifs
      · refine outcome_attempt_bind hw fun a _ => ?_
        exact Outcome.bind reduceBands_inside fun _ _ h => h
      · refine outcome_attempt_bind hw fun a _ => ?_
        exact Outcome.bind reduceTime_inside fun _ _ h => h
      · exact hw

/-- A band that both cubes have is resolved into new files. -/
theorem resolveBand_inside {kind : ReducerKind} {b1 b2 : BTreeMap (List PathBuf)} {band : String}
    (hname : ∀ p1 p2, b1.get band = some p1 → b2.get band = some p2 →
      p1.length = p2.length → p1 ≠ [] → NoSlash band)
    (hv : LogsOnly (Inside dir) w v) :
    Ends (LogsOnly (Inside dir) w) (resolveBand P dir kind b1 b2 band v) := by
  unfold resolveBand
  cases h1 : b1.get band with
  | none =>
      cases b2.get band <;> exact hv
  | some p1 =>
      cases h2 : b2.get band with
      | none =>
          exact hv
      | some p2 =>
          dsimp only
          split_ifs with hlength
          · exact hv
          · rw [ne_eq, not_not] at hlength
            refine Outcome.bind (ends_sceneLoop ?_ v hv) fun _ _ h => h
            intro x t ht u hu
            have hne : p1 ≠ [] := by
              rintro rfl
              simp at ht
            have hband := hname p1 p2 h1 h2 hlength hne
            refine LogsOnly.bind_now (fun nanos u hu => ?_) hu
            refine Outcome.bind (ends_reduction hu ?_) fun _ _ h => h
            exact fun _ => hu.write (stamped_confined dir (noSlash_append.mpr
              ⟨noSlash_append.mpr ⟨noSlash_append.mpr ⟨by decide, hband⟩, by decide⟩,
                noSlash_nat t⟩) nanos)

/-- A mosaic of the two values has its temporary file in the directory. -/
def MosaicInside (P : Platform) (dir : PathBuf) (w : World) (v1 v2 : Envelope) : Prop :=
  ∀ p1 p2, extractRasterPath v1 "cube1" = .ok p1 → extractRasterPath v2 "cube2" = .ok p2 →
    Confined dir (P.tempVrt w.tick.clockReads)

/-- The bands that a merge resolves have names without a separator, and if it makes a
mosaic then inside the directory. -/
structure MergesInside (P : Platform) (dir : PathBuf) (w : World) (v1 v2 : Envelope)
    (resolver : Option Json) : Prop where
  resolved : ∀ c1 c2 r, v1 = .cube c1 → v2 = .cube c2 → resolver = some r →
    ∀ band p1 p2, c1.bands.get band = some p1 → c2.bands.get band = some p2 →
      p1.length = p2.length → p1 ≠ [] → NoSlash band
  mosaic : (∀ c1 c2, v1 = .cube c1 → v2 = .cube c2 →
      bandsOverlap c1 c2 = true ∧ resolver = none) → MosaicInside P dir w v1 v2

theorem mergeMosaic_inside {v1 v2 : Envelope} (htemp : MosaicInside P dir w v1 v2) :
    Ends (LogsOnly (Inside dir) w) (mergeMosaic P dir v1 v2 w) := by
  have hw := LogsOnly.refl (Inside dir) w
  unfold mergeMosaic
  refine outcome_attempt_bind hw fun p1 h1 => ?_
  refine outcome_attempt_bind hw fun p2 h2 => ?_
  have hnoted : LogsOnly (Inside dir) w
      (w.tick.note (.wrote (P.tempVrt w.tick.clockReads))) :=
    hw.snoc (e := .wrote _) (htemp p1 p2 h1 h2) rfl
  have hout : Confined dir (scratch dir s!"mosaic_{P.nanos w.clockReads}.tif") :=
    confined_of_noSlash (noSlash_append.mpr ⟨by decide, noSlash_nat _⟩) (by decide) (by decide)
  refine ends_now ?_
  dsimp only
  split
  · split
    · exact hnoted.write hout
    · exact hnoted
  · exact hnoted
  · exact hnoted

theorem mergeCubes_inside {v1 v2 : Envelope} {resolver : Option Json}
    (hmerge : MergesInside P dir w v1 v2 resolver) :
    Ends (LogsOnly (Inside dir) w) (mergeCubes P dir v1 v2 resolver w) := by
  have hw := LogsOnly.refl (Inside dir) w
  unfold mergeCubes
  split
  · rename_i c1 c2
    split_ifs with hoverlap
    · cases resolver with
      | none =>
          refine mergeMosaic_inside (hmerge.mosaic ?_)
          rintro _ _ ⟨⟩ ⟨⟩
          exact ⟨hoverlap, rfl⟩
      | some r =>
          refine Outcome.bind (Q := fun _ => LogsOnly (Inside dir) w) ?_ fun _ _ h => h
          unfold mergeResolveOverlap
          refine outcome_attempt_bind hw fun kind _ => ?_
          refine Outcome.bind (ends_mapEach ?_ w hw) fun _ _ h => h
          exact fun band _ v hv => resolveBand_inside (hmerge.resolved c1 c2 r rfl rfl rfl band) hv
    · exact hw
  · rename_i hno
    exact mergeMosaic_inside (hmerge.mosaic fun c1 c2 h1 h2 => (hno c1 c2 h1 h2).elim)

theorem evalMergeCubes_inside
    (hmerge : ∀ v1 v2, MergeArgs args v1 v2 →
      MergesInside P dir w v1 v2 ((args.get "overlap_resolver").map Envelope.toValue)) :
    Ends (LogsOnly (Inside dir) w) (evalMergeCubes P dir args w) := by
  have hw := LogsOnly.refl (Inside dir) w
  unfold evalMergeCubes
  cases h1 : (args.get "cube1").or (args.get "data1") with
  | none =>
      exact hw
  | some v1 =>
      cases h2 : (args.get "cube2").or (args.get "data2") with
      | none =>
          exact hw
      | some v2 =>
          exact mergeCubes_inside (hmerge v1 v2 ⟨h1, h2⟩)

/-- A tool leaves the state as it is, or writes its file. -/
theorem ends_runTool {I : World → Prop} {dst : PathBuf} {fail : String → String}
    {run : World → ToolRun} (hv : I v) (hwrite : ∀ content, I (v.write dst content)) :
    Ends I (runTool dst fail run v) := by
  unfold runTool
  cases (run v).written with
  | none =>
      cases (run v).result <;> exact hv
  | some content =>
      cases (run v).result <;> exact hwrite content

theorem recropCubeToBbox_inside {data : Envelope} {crop : CropWindow} {crs who : String}
    (hwho : NoSlash who) :
    Ends (LogsOnly (Inside dir) w) (recropCubeToBbox P tools dir data crop crs who w) := by
  have hw := LogsOnly.refl (Inside dir) w
  unfold recropCubeToBbox
  refine outcome_attempt_bind hw fun cube _ => ?_
  split_ifs
  · exact hw
  · refine Outcome.bind (ends_mapEach ?_ w hw) fun _ _ h => h
    intro e _ v hv
    unfold recropBand
    refine outcome_attempt_bind hv fun _ hname => ?_
    refine Outcome.bind (ends_sceneLoop ?_ v hv) fun _ _ h => h
    intro x t _ u hu
    refine LogsOnly.bind_now (fun nanos u hu => ?_) hu
    have hout : Confined dir (scratch dir s!"{who}_{e.1}_t{t}_{nanos}.tif") :=
      stamped_confined dir (noSlash_append.mpr ⟨noSlash_append.mpr ⟨noSlash_append.mpr
        ⟨noSlash_append.mpr ⟨hwho, by decide⟩, noSlash_of_validateIdentifier hname⟩, by decide⟩,
          noSlash_nat t⟩) nanos
    exact Outcome.bind (ends_runTool hu fun _ => hu.write hout) fun _ _ h => h

theorem evalFilterBbox_inside :
    Ends (LogsOnly (Inside dir) w) (evalFilterBbox P tools dir args w) := by
  have hw := LogsOnly.refl (Inside dir) w
  unfold evalFilterBbox
  refine outcome_attempt_bind hw fun data _ => ?_
  refine outcome_attempt_bind hw fun extent _ => ?_
  refine outcome_attempt_bind hw fun parsed _ => ?_
  refine outcome_attempt_bind hw fun _ _ => ?_
  exact recropCubeToBbox_inside (by decide)

theorem evalFilterSpatial_inside :
    Ends (LogsOnly (Inside dir) w) (evalFilterSpatial P tools dir args w) := by
  have hw := LogsOnly.refl (Inside dir) w
  unfold evalFilterSpatial
  refine outcome_attempt_bind hw fun data _ => ?_
  refine outcome_attempt_bind hw fun geometries _ => ?_
  cases geojsonBbox P geometries.toValue with
  | none =>
      exact hw
  | some crop =>
      exact recropCubeToBbox_inside (by decide)

theorem warpOne_inside {epsg : Nat} {src : PathBuf} {tag : String} (htag : NoSlash tag)
    (hv : LogsOnly (Inside dir) w v) :
    Ends (LogsOnly (Inside dir) w) (warpOne P tools dir epsg src tag v) := by
  unfold warpOne
  refine LogsOnly.bind_now (fun nanos u hu => ?_) hv
  have hout : Confined dir (scratch dir s!"warp_epsg{epsg}_{tag}_{nanos}.tif") :=
    stamped_confined dir (noSlash_append.mpr ⟨noSlash_append.mpr
      ⟨noSlash_append.mpr ⟨by decide, noSlash_nat epsg⟩, by decide⟩, htag⟩) nanos
  exact Outcome.bind (ends_runTool hu fun _ => hu.write hout) fun _ _ h => h

/-- The bands of a cube that `resample_spatial` warps. -/
theorem evalResampleSpatial_inside
    (hbands : ∀ c, args.get "data" = some (.cube c) →
      ((args.get "projection").bind Envelope.json).bind Json.asU64 ≠ none →
      ((args.get "resolution").bind Envelope.json).any (isNonzeroResolution P) = false →
      ∀ e ∈ c.bands.entries, e.2 ≠ [] → NoSlash e.1) :
    Ends (LogsOnly (Inside dir) w) (evalResampleSpatial P tools dir args w) := by
  have hw := LogsOnly.refl (Inside dir) w
  unfold evalResampleSpatial
  cases hprojection : ((args.get "projection").bind Envelope.json).bind Json.asU64 with
  | none =>
      exact hw
  | some projection =>
      dsimp only
      split_ifs with hresolution
      · exact hw
      · refine outcome_attempt_bind hw fun data hdata => ?_
        have hdata' := requireArg_eq_ok hdata
        cases data with
        | raster path =>
            exact Outcome.bind (warpOne_inside (by decide) hw) fun _ _ h => h
        | bare _ =>
            exact hw
        | value _ _ =>
            exact hw
        | cube c =>
            dsimp only
            split_ifs
            · exact hw
            · refine Outcome.bind (ends_mapEach ?_ w hw) fun _ _ h => h
              intro e he v hv
              unfold warpBand
              refine Outcome.bind (ends_sceneLoop ?_ v hv) fun _ _ h => h
              intro x t ht u hu
              have hne : e.2 ≠ [] := List.ne_nil_of_length_pos (by omega)
              have hname : NoSlash e.1 := hbands c hdata' (by simp [hprojection])
                (by simpa using hresolution) e he hne
              exact warpOne_inside (noSlash_append.mpr
                ⟨noSlash_append.mpr ⟨hname, by decide⟩, noSlash_nat t⟩) hu

/-- The order in which the tasks of a call finish. -/
structure Schedule where
  order : List FetchTask → List FetchTask
  perm : ∀ ts, (order ts).Perm ts

/-- The bands of the tasks are those that were asked for. -/
theorem noSlash_of_task {req : LoadRequest} {scenes : List StacScene} {schedule : Schedule}
    (hrequest : checkRequest P req scenes = .ok ()) {t : FetchTask}
    (ht : t ∈ schedule.order (loadTasks scenes req.bands)) : NoSlash t.band := by
  have hbands : validateAll "load_collection.bands" req.bands = .ok () := by
    unfold checkRequest at hrequest
    split_ifs at hrequest
    obtain ⟨_, hbands, _⟩ := bind_eq_ok_iff.mp hrequest
    exact hbands
  have htask := (schedule.perm _).mem_iff.mp ht
  obtain ⟨s, _, hs⟩ := List.mem_flatMap.mp htask
  obtain ⟨band, hband, hhref⟩ := List.mem_filterMap.mp hs
  obtain ⟨href, _, rfl⟩ := Option.map_eq_some_iff.mp hhref
  exact noSlash_of_validateAll hbands band hband

theorem loadStream_inside {emit : FetchTask → CropWindow → String → Except ExecError Raster}
    {schedule : Schedule} {req : LoadRequest} {scenes : List StacScene} :
    Ends (LogsOnly (Inside dir) w) (loadStream P dir emit schedule.order req scenes w) :=
  loadStream_logs fun hrequest t ht =>
    confined_of_noSlash (noSlash_append.mpr ⟨noSlash_append.mpr
      ⟨noSlash_of_task hrequest ht, by decide⟩, noSlash_nat t.scene⟩) (by decide) (by decide)

/-- The fetch of the asset brings it into the cache, which does not have it. -/
def FillsCache (P : Platform) (checkUrl : String → Except String Unit) (req : LoadRequest)
    (cache : FileCache) (t : FetchTask) : Prop :=
  cache.index.lookup (P.keyFor t.href) = none ∧ checkUrl t.href = .ok () ∧
    ∃ signed r, P.sign t.href = .ok signed ∧ P.download signed req.crop (some req.crs) = .ok r

/-- The cache is the directory itself, or none of the tasks brings a file there. -/
def CacheInside (P : Platform) (dir : PathBuf) (checkUrl : String → Except String Unit)
    (req : LoadRequest) (tasks : List FetchTask) (cache : FileCache) : Prop :=
  (∀ t ∈ tasks, Confined dir (cachePath cache.root (P.keyFor t.href))) ∨
    ∀ t ∈ tasks, ¬ FillsCache P checkUrl req cache t

/-- The cache has the root and the keys it has had, as far as it matters. -/
def CacheKept (P : Platform) (dir : PathBuf) (tasks : List FetchTask) (w v : World) : Prop :=
  ∀ cache, v.cache = some cache → ∃ cache₀, w.cache = some cache₀ ∧ cache.root = cache₀.root ∧
    ((∀ t ∈ tasks, Confined dir (cachePath cache₀.root (P.keyFor t.href))) ∨
      cache.index.map Prod.fst = cache₀.index.map Prod.fst)

theorem lookup_eq_none_of_keys {α β : Type} {k : String} {xs : List (String × α)}
    {ys : List (String × β)} (hkeys : xs.map Prod.fst = ys.map Prod.fst)
    (h : xs.lookup k = none) : ys.lookup k = none := by
  rw [List.lookup_eq_none_iff] at h ⊢
  intro y hy
  have hy' : y.1 ∈ xs.map Prod.fst := hkeys ▸ List.mem_map_of_mem hy
  obtain ⟨x, hx, hxy⟩ := List.mem_map.mp hy'
  rw [← hxy]
  exact h x hx

theorem evictIfNeeded_root (cache : FileCache) (v : World) {cache' : FileCache}
    (h : (evictIfNeeded cache v).cache = some cache') : cache'.root = cache.root := by
  unfold evictIfNeeded at h
  split at h
  · cases h
    rfl
  · cases h
    rfl

/-- Only a URL that the policy allows is fetched. -/
theorem checkUrl_of_fetch {checkUrl : String → Except String Unit} {href : String}
    {dst p : PathBuf} {crop : CropWindow} {crs : Option String}
    (h : fetchWithCacheAsync P checkUrl href dst crop crs w = .ok p v) :
    checkUrl href = .ok () := by
  unfold fetchWithCacheAsync at h
  obtain ⟨_, hurl, _⟩ := attempt_bind_eq_ok_iff.mp h
  cases hcheck : checkUrl href with
  | ok _ =>
      rfl
  | error e =>
      rw [hcheck] at hurl
      cases hurl

theorem fetchTask_inside {checkUrl : String → Except String Unit} {req : LoadRequest}
    {tasks : List FetchTask}
    (hcache : ∀ cache, w.cache = some cache → CacheInside P dir checkUrl req tasks cache)
    {t : FetchTask} (ht : t ∈ tasks) (hband : NoSlash t.band)
    (hv : LogsOnly (Inside dir) w v ∧ CacheKept P dir tasks w v) :
    Ends (fun v => LogsOnly (Inside dir) w v ∧ CacheKept P dir tasks w v)
      (fetchTask P dir checkUrl req t v) := by
  have hdst : Confined dir (scratch dir s!"{t.band}_{t.scene}.tif") :=
    confined_of_noSlash (noSlash_append.mpr ⟨noSlash_append.mpr ⟨hband, by decide⟩,
      noSlash_nat t.scene⟩) (by decide) (by decide)
  obtain ⟨hlog, hkept⟩ := hv
  unfold fetchTask
  refine Outcome.bind (Q := fun _ v => LogsOnly (Inside dir) w v ∧ CacheKept P dir tasks w v) ?_
    fun _ _ h => h
  cases hfetch : fetchWithCacheAsync P checkUrl t.href (scratch dir s!"{t.band}_{t.scene}.tif")
      req.crop (some req.crs) v with
  | ok p v' =>
      rcases fetchWithCacheAsync_eq_ok hfetch with
        ⟨cache, entry, hcachev, _, _, rfl⟩ | ⟨hmiss, hblock⟩
      · refine ⟨hlog, ?_⟩
        rintro _ ⟨⟩
        obtain ⟨cache₀, h₀, hroot, hkeys⟩ := hkept cache hcachev
        exact ⟨cache₀, h₀, hroot, hkeys.imp_right (CacheIndex.keys_touch _ _ _).trans⟩
      · obtain ⟨signed, r, hsign, hdownload, hcase⟩ := fetchBlocking_eq_ok hblock
        rcases hcase with ⟨_, _, rfl⟩ | ⟨cache, hcachev, _, rfl⟩
        · exact ⟨hlog.write hdst, hkept⟩
        · obtain ⟨cache₀, h₀, hroot, hkeys⟩ := hkept cache hcachev
          -- The new file goes into the cache, so the cache has to be the directory.
          have hall : ∀ t ∈ tasks, Confined dir (cachePath cache₀.root (P.keyFor t.href)) := by
            rcases hkeys with hall | hkeys
            · exact hall
            · rcases hcache cache₀ h₀ with hall | hnone
              · exact hall
              · exact absurd ⟨lookup_eq_none_of_keys hkeys (hmiss cache hcachev),
                  checkUrl_of_fetch hfetch, signed, r, hsign, hdownload⟩ (hnone t ht)
          have hwrite : LogsOnly (Inside dir) w
              (v.write (scratch dir s!"{t.band}_{t.scene}.tif") (some r)) := hlog.write hdst
          refine ⟨hwrite.snoc (e := .wrote (cachePath cache.root (P.keyFor t.href))) ?_
            (cachedWorld_log _ _ _ _ _), ?_⟩
          · rw [hroot]
            exact hall t ht
          · intro cache' hcache'
            exact ⟨cache₀, h₀, (evictIfNeeded_root _ _ hcache').trans hroot, Or.inl hall⟩
  | error e v' =>
      rcases fetchWithCacheAsync_eq_error hfetch with rfl | ⟨_, content, rfl⟩
      · exact ⟨hlog, hkept⟩
      · exact ⟨hlog.write hdst, hkept⟩

theorem loadEager_inside {checkUrl : String → Except String Unit} {schedule : Schedule}
    {req : LoadRequest} {scenes : List StacScene}
    (hcache : checkRequest P req scenes = .ok () →
      checkTasks validateAssetHref (loadTasks scenes req.bands) = .ok () →
      ∀ cache, w.cache = some cache →
        CacheInside P dir checkUrl req (schedule.order (loadTasks scenes req.bands)) cache) :
    Ends (LogsOnly (Inside dir) w) (loadEager P dir checkUrl schedule.order req scenes w) := by
  have hw := LogsOnly.refl (Inside dir) w
  unfold loadEager
  refine outcome_attempt_bind hw fun _ hrequest => ?_
  refine outcome_attempt_bind hw fun _ htasks => ?_
  have hloop := ends_mapEach (fun t ht v hv => fetchTask_inside (hcache hrequest htasks) ht
    (noSlash_of_task hrequest ht) hv) w ⟨hw, fun cache h => ⟨cache, h, rfl, Or.inr rfl⟩⟩
  refine Outcome.bind (hloop.imp (fun _ _ h => h.1) fun _ h => h.1) fun ds v hv => ?_
  cases (collectBands scenes.length req.bands ds).entries.isEmpty <;> exact hv

end Evaluators

end OrbitOpenEO
