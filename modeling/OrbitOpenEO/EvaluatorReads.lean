import OrbitOpenEO.CubeNumbers
import OrbitOpenEO.HandlePaths
import OrbitOpenEO.PathConfinement
import OrbitOpenEO.PolygonStatistics
import OrbitOpenEO.Lib.RelatedRuns
import Mathlib.Data.List.Find

/-!
# What the evaluators read

`openedFiles` lists the files that a handler opens because of its arguments.  Two worlds
that have the same files on that list, and the same clock, are the same to the evaluator:
it returns the same value or fails with the same error, and leaves two such worlds.  The
masking by classes looks besides at the classifications it has resampled itself.
-/

namespace OrbitOpenEO

open Lib Handles

/-- The worlds have the same content in the files of a set, and the same clock. -/
structure AgreeOn (F : Set PathBuf) (u v : World) : Prop where
  files : Set.EqOn u.files v.files F
  clock : u.clockReads = v.clockReads

/-- The code depends on the files of a set and on no others. -/
abbrev ReadsOnly {α : Type} (F : Set PathBuf) (x : Eval α) : Prop := Respects (AgreeOn F) x

section Steps

variable {P : Platform} {F : Set PathBuf} {u v : World}

theorem AgreeOn.write (h : AgreeOn F u v) {out : PathBuf} {a b : Option Raster}
    (hcontent : out ∈ F → a = b) : AgreeOn F (u.write out a) (v.write out b) := by
  refine ⟨fun p hp => ?_, h.clock⟩
  simp only [World.write_files, Function.update_apply]
  split_ifs with hout
  · exact hcontent (hout ▸ hp)
  · exact h.files hp

theorem AgreeOn.write_same (h : AgreeOn F u v) (out : PathBuf) (a : Option Raster) :
    AgreeOn F (u.write out a) (v.write out a) :=
  h.write fun _ => rfl

/-- What a failed run leaves depends on what was there. -/
theorem AgreeOn.write_leftover (h : AgreeOn F u v) (out : PathBuf) :
    AgreeOn F (u.write out (P.leftover (u.files out))) (v.write out (P.leftover (v.files out))) :=
  h.write fun hout => congrArg P.leftover (h.files hout)

theorem reads_now : ReadsOnly F (now P) :=
  fun _ _ h => ⟨congrArg P.nanos h.clock, h.files, congrArg (· + 1) h.clock⟩

theorem reads_reduction {sources : List PathBuf} (hsources : ∀ p ∈ sources, p ∈ F) (out : PathBuf)
    (fail : Stage → String → String) (compute : List Raster → Raster) :
    ReadsOnly F (reduction P sources out fail compute) := by
  intro u v h
  have hfind : sources.find? (fun p => (u.files p).isNone) =
      sources.find? (fun p => (v.files p).isNone) :=
    List.find?_congr fun p hp => congrArg Option.isNone (h.files (hsources p hp))
  have hrasters : sources.filterMap u.files = sources.filterMap v.files :=
    List.filterMap_congr fun p hp => h.files (hsources p hp)
  unfold reduction
  rw [hfind, hrasters]
  cases sources.find? (fun p => (v.files p).isNone) with
  | some p => exact ⟨rfl, h⟩
  | none =>
      dsimp only
      split
      · exact ⟨rfl, h.write_leftover out⟩
      · exact ⟨rfl, h⟩
      · exact ⟨rfl, h.write_same out _⟩

theorem reads_reductionWithMask {data mask : PathBuf} (hdata : data ∈ F) (hmask : mask ∈ F)
    (out : PathBuf) (fail : Stage → String → String) (compute : Raster → Raster → Raster) :
    ReadsOnly F (reductionWithMask P data mask out fail compute) := by
  intro u v h
  unfold reductionWithMask
  rw [h.files hdata, h.files hmask]
  cases v.files data with
  | none => exact ⟨rfl, h⟩
  | some d =>
      cases v.files mask with
      | none => exact ⟨rfl, h⟩
      | some m =>
          dsimp only
          split
          · exact ⟨rfl, h.write_leftover out⟩
          · exact ⟨rfl, h⟩
          · exact ⟨rfl, h.write_same out _⟩

theorem reads_noteScl {path : PathBuf} (hpath : path ∈ F) (band : String) (t : Nat) :
    ReadsOnly F (noteScl band t path) := by
  intro u v h
  unfold noteScl
  rw [h.files hpath]
  cases v.files path with
  | none => exact ⟨rfl, h⟩
  | some scl => exact ⟨rfl, h.files, h.clock⟩

theorem reads_warpScl (sclPath out : PathBuf) (scl data : Raster) :
    ReadsOnly F (warpScl P sclPath out scl data) := by
  intro u v h
  unfold warpScl
  cases P.warp scl data with
  | error status => exact ⟨rfl, h⟩
  | ok r => exact ⟨rfl, h.write_same out _⟩

theorem reads_resampleSclToDataGrid {sclPath dataPath out : PathBuf} (hscl : sclPath ∈ F)
    (hdata : dataPath ∈ F) (hout : out ∈ F) :
    ReadsOnly F (resampleSclToDataGrid P sclPath dataPath out) := by
  intro u v h
  unfold resampleSclToDataGrid
  rw [h.files hdata, h.files hscl, h.files hout]
  cases v.files dataPath with
  | none => exact ⟨rfl, h⟩
  | some data =>
      cases v.files sclPath with
      | none => exact ⟨rfl, h⟩
      | some scl =>
          dsimp only
          split_ifs
          · exact ⟨rfl, h⟩
          · cases v.files out with
            | none => exact reads_warpScl _ _ _ _ u v h
            | some prev =>
                dsimp only
                split_ifs
                · exact ⟨rfl, h⟩
                · exact reads_warpScl _ _ _ _ u v h

theorem reads_runTool {dst : PathBuf} {fail : String → String} {run : World → ToolRun}
    (hrun : ∀ u v, AgreeOn F u v → run u = run v) : ReadsOnly F (runTool dst fail run) := by
  intro u v h
  unfold runTool
  rw [hrun u v h]
  dsimp only
  cases (run v).written with
  | none =>
      cases (run v).result with
      | ok _ => exact ⟨rfl, h⟩
      | error e => exact ⟨rfl, h⟩
  | some content =>
      cases (run v).result with
      | ok _ => exact ⟨rfl, h.write_same dst content⟩
      | error e => exact ⟨rfl, h.write_same dst content⟩

end Steps

section Scenes

variable {xs ys : List PathBuf} {p : PathBuf}

theorem mem_scenePairs_of_zip {e : PathBuf × PathBuf} (he : e ∈ xs.zip ys) :
    e.1 ∈ scenePairs xs ys ∧ e.2 ∈ scenePairs xs ys :=
  ⟨List.mem_flatMap.mpr ⟨e, he, by simp⟩, List.mem_flatMap.mpr ⟨e, he, by simp⟩⟩

/-- Of lists of one length every file stands in a pair. -/
theorem mem_scenePairs (hlength : xs.length = ys.length) :
    (∀ p ∈ xs, p ∈ scenePairs xs ys) ∧ ∀ p ∈ ys, p ∈ scenePairs xs ys := by
  have hfst : (xs.zip ys).map Prod.fst = xs := List.map_fst_zip hlength.le
  have hsnd : (xs.zip ys).map Prod.snd = ys := List.map_snd_zip hlength.ge
  constructor
  · intro p hp
    rw [← hfst] at hp
    obtain ⟨e, he, rfl⟩ := List.mem_map.mp hp
    exact (mem_scenePairs_of_zip he).1
  · intro p hp
    rw [← hsnd] at hp
    obtain ⟨e, he, rfl⟩ := List.mem_map.mp hp
    exact (mem_scenePairs_of_zip he).2

theorem mem_filesOf {es : List (String × List PathBuf)} {e : String × List PathBuf} (he : e ∈ es)
    (hp : p ∈ e.2) : p ∈ filesOf es :=
  List.mem_flatMap.mpr ⟨e, he, hp⟩

end Scenes

section Bodies

variable {P : Platform} {tools : SpatialTools} {dir : PathBuf} {F : Set PathBuf} {c : DataCube}

/-- A loop over the scenes of two bands, which reads both files of each scene. -/
theorem reads_scenePairs {β : Type} {xs ys : List PathBuf}
    {f : (PathBuf × PathBuf) × Nat → Eval β} (hF : ∀ p ∈ scenePairs xs ys, p ∈ F)
    (hf : ∀ e, e.1.1 ∈ F → e.1.2 ∈ F → ReadsOnly F (f e)) :
    ReadsOnly F (mapEach f (xs.zip ys).zipIdx) := by
  refine respects_mapEach fun e he => ?_
  have hscene := mem_scenePairs_of_zip (List.fst_mem_of_mem_zipIdx he)
  exact hf e (hF _ hscene.1) (hF _ hscene.2)

/-- A loop over the scenes of a band. -/
theorem reads_scenes {β : Type} {paths : List PathBuf} {f : PathBuf × Nat → Eval β}
    (hF : ∀ p ∈ paths, p ∈ F) (hf : ∀ e, e.1 ∈ F → ReadsOnly F (f e)) :
    ReadsOnly F (mapEach f paths.zipIdx) :=
  respects_mapEach fun e he => hf e (hF _ (List.fst_mem_of_mem_zipIdx he))

theorem reads_pair {a b : PathBuf} (ha : a ∈ F) (hb : b ∈ F) : ∀ p ∈ [a, b], p ∈ F := by
  intro p hp
  rcases List.mem_pair.mp hp with rfl | rfl
  · exact ha
  · exact hb

theorem reads_single {a : PathBuf} (ha : a ∈ F) : ∀ p ∈ [a], p ∈ F := by
  intro p hp
  obtain rfl := List.mem_singleton.mp hp
  exact ha

theorem ndvi_reads {red nir target : String}
    (hF : ∀ reds nirs, c.bands.get red = some reds →
      (c.bands.remove red).get nir = some nirs → reds.length = nirs.length →
        ∀ p ∈ scenePairs reds nirs, p ∈ F) :
    ReadsOnly F (ndvi P dir c red nir target) := by
  unfold ndvi DataCube.takeBand
  cases hred : c.bands.get red with
  | none => exact respects_throw _
  | some reds =>
      dsimp only
      cases hnir : (c.bands.remove red).get nir with
      | none => exact respects_throw _
      | some nirs =>
          dsimp only
          split
          · exact respects_throw _
          · rename_i hlength
            have hpairs := hF reds nirs hred hnir (not_not.mp (not_or.mp hlength).1)
            refine (reads_scenePairs hpairs fun e h1 h2 => ?_).thenPure
            exact (reads_reduction (reads_pair h1 h2) _ _ _).thenPure

theorem mask_reads {maskCube : DataCube} {replacement : Int}
    (hF : ∀ band maskPaths, maskCube.bands.entries = [(band, maskPaths)] →
      ∀ e ∈ maskableBands c, ∀ p ∈ scenePairs e.2 maskPaths, p ∈ F) :
    ReadsOnly F (mask P dir c maskCube replacement) := by
  unfold mask
  split
  · rename_i band maskPaths hentries
    split
    · exact respects_throw _
    · refine (respects_mapEach fun e he => ?_).thenPure
      refine respects_attempt_bind fun _ _ => ?_
      refine (reads_scenePairs (hF band maskPaths hentries e he) fun q h1 h2 => ?_).thenPure
      exact (reads_reductionWithMask h1 h2 _ _ _).thenPure
  · exact respects_throw _

theorem maskFromValues_reads {band target : String} {values : List Nat}
    (hF : ∀ paths, c.bands.get band = some paths → ∀ p ∈ paths, p ∈ F) :
    ReadsOnly F (maskFromValues P dir c band target values) := by
  unfold maskFromValues DataCube.takeBand
  cases hband : c.bands.get band with
  | none => exact respects_throw _
  | some paths =>
      dsimp only
      split
      · exact respects_throw _
      · exact respects_throw _
      · rename_i srcPaths rest hpaths
        cases hpaths
        refine (reads_scenes (hF paths hband) fun e he => ?_).thenPure
        exact (reads_reduction (reads_single he) _ _ _).thenPure

/-- The resampled classification is the given one or the file that is named after the band. -/
theorem resampleSclToDataGrid_returns {sclPath dataPath out : PathBuf} (hscl : sclPath ∈ F)
    (hout : out ∈ F) :
    Returns (fun p => p ∈ F) (resampleSclToDataGrid P sclPath dataPath out) := by
  intro w p w' h
  unfold resampleSclToDataGrid warpScl at h
  split at h
  · cases h
  · cases h
  · split_ifs at h
    · cases h
      exact hscl
    · split at h
      · split_ifs at h
        · cases h
          exact hout
        · split at h
          · cases h
          · cases h
            exact hout
      · split at h
        · cases h
        · cases h
          exact hout

/-- The resampled classifications of the bands, which are kept in the directory. -/
def resampledFiles (dir : PathBuf) : Set PathBuf :=
  {p | ∃ band t, p = scenePath dir ("scl_resampled_" ++ band) "_t" t}

theorem resampleBand_reads {sclPaths : List PathBuf} {e : String × List PathBuf}
    (hkept : resampledFiles dir ⊆ F) (hscl : ∀ p ∈ sclPaths, p ∈ F) (hdata : ∀ p ∈ e.2, p ∈ F) :
    ReadsOnly F (resampleBand P dir sclPaths e) ∧
      Returns (fun r => ∀ p ∈ r.2, p ∈ F) (resampleBand P dir sclPaths e) := by
  constructor
  · refine respects_attempt_bind fun _ _ => ?_
    refine (reads_scenes hscl fun q hq => ?_).thenPure
    split
    · exact respects_throw _
    · rename_i dataPath hget
      exact reads_resampleSclToDataGrid hq (hdata _ (List.mem_of_getElem? hget))
        (hkept ⟨e.1, q.2, rfl⟩)
  · refine Returns.bind (Q := fun _ => True) (fun _ _ _ _ => trivial) fun _ _ => ?_
    refine Returns.bind (mapEach_returns_forall₂ (Q := fun _ p => p ∈ F) fun q hq => ?_)
      fun outs houts => returns_pure fun p hp => ?_
    · split
      · exact returns_throw
      · exact resampleSclToDataGrid_returns (hscl _ (List.fst_mem_of_mem_zipIdx hq))
          (hkept ⟨e.1, q.2, rfl⟩)
    · obtain ⟨_, _, hp⟩ := forall₂_exists_left houts hp
      exact hp

theorem maskSclBand_reads {values : List Nat} {resampled : List (String × List PathBuf)}
    {e : String × List PathBuf} (hdata : ∀ p ∈ e.2, p ∈ F)
    (hresampled : ∀ r ∈ resampled, ∀ p ∈ r.2, p ∈ F) :
    ReadsOnly F (maskSclBand P dir values resampled e) := by
  unfold maskSclBand
  split
  · exact respects_throw _
  · rename_i scls hscls
    have hscls := hresampled _ (mem_of_lookup_eq_some hscls)
    refine (respects_mapEach fun q hq => ?_).thenPure
    obtain ⟨h1, h2⟩ := List.of_mem_zip (List.fst_mem_of_mem_zipIdx hq)
    refine (reads_noteScl (hscls _ h2) _ _).andThen fun _ => ?_
    exact (reads_reductionWithMask (hdata _ h1) (hscls _ h2) _ _ _).thenPure

theorem maskSclDilation_reads {scl : String} {values : List Nat} (hkept : resampledFiles dir ⊆ F)
    (hF : ∀ sclPaths, c.bands.get scl = some sclPaths →
      ∀ e ∈ (c.bands.remove scl).entries, ∀ p ∈ scenePairs e.2 sclPaths, p ∈ F) :
    ReadsOnly F (maskSclDilation P dir c scl values) := by
  unfold maskSclDilation DataCube.takeBand
  cases hscl : c.bands.get scl with
  | none => exact respects_throw _
  | some sclPaths =>
      dsimp only
      split
      · exact respects_throw _
      · split
        · exact respects_throw _
        · rename_i hfind
          have hfiles : ∀ e ∈ (c.bands.remove scl).entries,
              (∀ p ∈ e.2, p ∈ F) ∧ ∀ p ∈ sclPaths, p ∈ F := by
            intro e he
            have hlength : e.2.length = sclPaths.length := by
              simpa using List.find?_eq_none.mp hfind e he
            obtain ⟨h1, h2⟩ := mem_scenePairs hlength
            exact ⟨fun p hp => hF sclPaths hscl e he p (h1 p hp),
              fun p hp => hF sclPaths hscl e he p (h2 p hp)⟩
          refine (respects_mapEach fun e he =>
            (resampleBand_reads hkept (hfiles e he).2 (hfiles e he).1).1).bind
              (mapEach_returns_forall₂ fun e he =>
                (resampleBand_reads hkept (hfiles e he).2 (hfiles e he).1).2) ?_
          intro resampled hresampled
          refine (respects_mapEach fun e he => ?_).thenPure
          refine maskSclBand_reads (hfiles e he).1 fun r hr => ?_
          obtain ⟨_, _, hr⟩ := forall₂_exists_left hresampled hr
          exact hr

theorem apply_reads {subPg : Json}
    (hF : ∀ p ∈ filesOf (numericEntries (.ofExact c)), p ∈ F) :
    ReadsOnly F (apply P dir c subPg) := by
  unfold apply
  dsimp only
  split
  · exact respects_throw _
  · refine respects_attempt_bind fun _ _ => ?_
    refine (respects_mapEach fun band hband => ?_).thenPure
    unfold applyBand
    split
    · exact respects_throw _
    · exact respects_throw _
    · rename_i paths _ hget
      have hnumeric : (band, paths) ∈ numericEntries (.ofExact c) :=
        List.mem_filter.mpr ⟨(c.bands.get_eq_some_iff _ _).mp hget, (List.mem_filter.mp hband).2⟩
      refine (reads_scenes (fun p hp => hF p (mem_filesOf hnumeric hp)) fun e he => ?_).thenPure
      refine reads_now.andThen fun _ => ?_
      exact (reads_reduction (reads_single he) _ _ _).thenPure

theorem primaryBand_eq_pickKey (c : DataCube) : primaryBand c = pickKey c.bands.keys := by
  have hcontains : ∀ k, c.bands.containsKey k = c.bands.keys.contains k := by
    intro k
    rw [Bool.eq_iff_iff, BTreeMap.containsKey_iff, List.contains_iff_mem,
      BTreeMap.mem_keys_iff_get]
  unfold primaryBand pickKey
  simp only [hcontains]

theorem reduceTime_reads {kind : ReducerKind}
    (hF : ∀ p ∈ primaryFiles (.ofExact c), p ∈ F) : ReadsOnly F (reduceTime P dir c kind) := by
  unfold reduceTime DataCube.takeBand
  cases hband : primaryBand c with
  | none => exact respects_throw _
  | some band =>
      dsimp only
      cases hpaths : c.bands.get band with
      | none => exact respects_throw _
      | some paths =>
          have hprimary : primaryFiles (.ofExact c) = paths := by
            have hpicked : (pickKey c.bands.keys).bind (fun key => c.bands.get key) =
                some paths := by
              rw [← primaryBand_eq_pickKey, hband]
              exact hpaths
            exact congrArg (fun files => files.getD []) hpicked
          rw [hprimary] at hF
          dsimp only
          split
          · exact respects_throw _
          · exact respects_throw _
          · rename_i paths' rest hpair
            cases hpair
            refine reads_now.andThen fun _ => ?_
            exact (reads_reduction hF _ _ _).thenPure

theorem reduceBands_reads {kind : ReducerKind}
    (hF : (numericEntries (.ofExact c)).length ≠ 1 →
      ∀ p ∈ filesOf (numericEntries (.ofExact c)), p ∈ F) :
    ReadsOnly F (reduceBands P dir c kind) := by
  have hentries : c.bands.entries.filter (fun e => e.1 ≠ "SCL") = numericEntries (.ofExact c) := rfl
  unfold reduceBands
  rw [hentries]
  clear hentries
  generalize numericEntries (.ofExact c) = es at hF ⊢
  rcases es with _ | ⟨⟨key, first⟩, _ | ⟨second, rest⟩⟩
  · exact respects_throw _
  · exact respects_pure _
  · dsimp only
    split
    · exact respects_throw _
    · refine (respects_mapEach fun t _ => ?_).thenPure
      refine reads_now.andThen fun _ => ?_
      refine (reads_reduction (fun p hp => ?_) _ _ _).thenPure
      obtain ⟨e, he, hget⟩ := List.mem_filterMap.mp hp
      exact hF (by simp) p (mem_filesOf he (List.mem_of_getElem? hget))

theorem keys_stringsJson (m : BTreeMap (List PathBuf)) :
    (m.mapValues stringsJson).entries.map Prod.fst = m.keys :=
  List.map_map

theorem lookup_stringsJson (m : BTreeMap (List PathBuf)) (band : String) :
    (m.mapValues stringsJson).entries.lookup band = (m.get band).map stringsJson :=
  BTreeMap.get_mapValues stringsJson m band

theorem firstPath_mapValues (m : BTreeMap (List PathBuf)) :
    firstPath (m.mapValues stringsJson).entries =
      (pickKey m.keys).bind fun band => (m.get band).bind List.head? := by
  unfold firstPath
  rw [keys_stringsJson]
  cases pickKey m.keys with
  | none => rfl
  | some band =>
      rw [Option.bind_some, Option.bind_some, lookup_stringsJson]
      cases m.get band with
      | none => rfl
      | some paths => cases paths <;> rfl

/-- The band maps of a cube's JSON. -/
theorem bandsObject_toValue (h : c.FitsEnvelope) :
    ((Envelope.cube c).toValue.get "__cube").bind bandsObject =
      some (c.bands.mapValues stringsJson).entries := by
  have hbands : c.toValue.get "bands" = some (.obj (c.bands.mapValues stringsJson).entries) := by
    rw [← member_eq_get]
    exact h.bands_toValue
  have hinner : (Envelope.cube c).toValue.get "__cube" = some c.toValue := rfl
  rw [hinner, Option.bind_some]
  unfold bandsObject
  rw [hbands]

/-- What `extract_raster_path` takes from the JSON of an argument. -/
theorem extractRasterPath_toValue {errs : CubeEnvelope.SerdeErrors} {v : Envelope} {name : String}
    {p : PathBuf} (hfits : v.Fits) (h : OrbitOpenEO.extractRasterPath v name = .ok p) :
    Handles.extractRasterPath errs (some v.toValue) name = .ok p := by
  cases v with
  | raster path =>
      cases h
      rfl
  | cube c =>
      have hraster : (Envelope.cube c).toValue.get "__raster" = none := rfl
      have hfirst : firstPath (c.bands.mapValues stringsJson).entries = some p := by
        rw [firstPath_mapValues, ← primaryBand_eq_pickKey]
        unfold OrbitOpenEO.extractRasterPath at h
        dsimp only at h
        split at h
        · rename_i hp
          cases h
          exact hp
        · cases h
      unfold Handles.extractRasterPath
      dsimp only
      rw [hraster, bandsObject_toValue hfits]
      dsimp only
      rw [hfirst]
  | bare c => cases h
  | value v e =>
      cases v with
      | str s =>
          cases h
          rfl
      | _ => cases h

theorem mergeMosaic_reads {v1 v2 : Envelope}
    (hF : ∀ p1 p2, OrbitOpenEO.extractRasterPath v1 "cube1" = .ok p1 →
      OrbitOpenEO.extractRasterPath v2 "cube2" = .ok p2 → p1 ∈ F ∧ p2 ∈ F) :
    ReadsOnly F (mergeMosaic P dir v1 v2) := by
  refine respects_attempt_bind fun p1 h1 => respects_attempt_bind fun p2 h2 => ?_
  obtain ⟨h1, h2⟩ := hF p1 p2 h1 h2
  refine reads_now.andThen fun nanos u v h => ?_
  have hnote : ∀ e e', AgreeOn F (u.note e) (v.note e') := fun _ _ => ⟨h.files, h.clock⟩
  dsimp only
  rw [(hnote _ (.wrote (P.tempVrt v.clockReads))).files h1,
    (hnote _ (.wrote (P.tempVrt v.clockReads))).files h2]
  cases (v.note (.wrote (P.tempVrt v.clockReads))).files p1 with
  | none => exact ⟨rfl, hnote _ _⟩
  | some r1 =>
      cases (v.note (.wrote (P.tempVrt v.clockReads))).files p2 with
      | none => exact ⟨rfl, hnote _ _⟩
      | some r2 =>
          dsimp only
          cases P.mosaic r1 r2 with
          | ok r => exact ⟨rfl, (hnote _ _).write_same _ _⟩
          | error e => exact ⟨rfl, hnote _ _⟩

theorem mergeResolveOverlap_reads {c1 c2 : DataCube} {resolver : Json}
    (hF : ∀ band p1 p2, c1.bands.get band = some p1 → c2.bands.get band = some p2 →
      p1.length = p2.length → ∀ p ∈ scenePairs p1 p2, p ∈ F) :
    ReadsOnly F (mergeResolveOverlap P dir c1 c2 resolver) := by
  refine respects_attempt_bind fun kind _ => ?_
  refine (respects_mapEach fun band _ => ?_).thenPure
  unfold resolveBand
  split
  · rename_i p1 p2 h1 h2
    split
    · exact respects_throw _
    · rename_i hlength
      have hpairs := hF band p1 p2 h1 h2 (not_not.mp hlength)
      refine (reads_scenePairs hpairs fun e he1 he2 => ?_).thenPure
      refine reads_now.andThen fun _ => ?_
      exact (reads_reduction (reads_pair he1 he2) _ _ _).thenPure
  · exact respects_pure _
  · exact respects_pure _
  · exact respects_pure _

theorem recropCubeToBbox_reads {data : Envelope} {crop : CropWindow} {crs who : String}
    (hF : ∀ c, DataCube.fromEnvelopeOwned data = .ok c →
      ∀ p ∈ filesOf c.bands.entries, p ∈ F) :
    ReadsOnly F (recropCubeToBbox P tools dir data crop crs who) := by
  refine respects_attempt_bind fun c hc => ?_
  have hF := hF c (decodeCube_eq_ok hc)
  split
  · exact respects_throw _
  · refine (respects_mapEach fun e he => ?_).thenPure
    refine respects_attempt_bind fun _ _ => ?_
    refine (reads_scenes (fun p hp => hF p (mem_filesOf he hp)) fun q hq => ?_).thenPure
    refine reads_now.andThen fun _ => ?_
    refine (reads_runTool fun u v h => ?_).thenPure
    rw [h.files hq]

theorem warpOne_reads {epsg : Nat} {src : PathBuf} {tag : String} (hsrc : src ∈ F) :
    ReadsOnly F (warpOne P tools dir epsg src tag) := by
  refine reads_now.andThen fun _ => ?_
  refine (reads_runTool fun u v h => ?_).thenPure
  rw [h.files hsrc]

end Bodies

/-- The arguments of a call as its handler gets them. -/
def jsonArgs (args : Args) : BTreeMap Json := args.mapValues Envelope.toValue

/-- The cubes among the arguments fit their envelopes. -/
def ArgsFit (args : Args) : Prop := ∀ key v, args.get key = some v → v.Fits

section Arguments

variable {errs : CubeEnvelope.SerdeErrors} {ops : FloatOps} {args : Args}

theorem get_jsonArgs (args : Args) (key : String) :
    (jsonArgs args).get key = (args.get key).map Envelope.toValue :=
  BTreeMap.get_mapValues Envelope.toValue args key

theorem cubeArg_jsonArgs (hfit : ArgsFit args) {key : String} {c : DataCube}
    (h : ArgCube args key c) : cubeArg errs ops (jsonArgs args) key = some (.ofExact c) := by
  obtain ⟨v, hv, hc⟩ := h
  unfold cubeArg
  rw [get_jsonArgs, hv, Option.map_some, Option.bind_some,
    Envelope.fromEnvelopeOwned_toValue (hfit key v hv) hc]
  rfl

theorem asStr_toValue (v : Envelope) : v.toValue.asStr = v.asStr := by
  cases v <;> rfl

theorem bind_asStr_jsonArgs (args : Args) (key : String) :
    ((jsonArgs args).get key).bind Json.asStr = (args.get key).bind Envelope.asStr := by
  rw [get_jsonArgs, Option.bind_map]
  exact congrArg (Option.bind (args.get key)) (funext asStr_toValue)

theorem textArg_jsonArgs (args : Args) (key default : String) :
    textArg (jsonArgs args) key default = argStrOr args key default :=
  congrArg (fun text => text.getD default) (bind_asStr_jsonArgs args key)

end Arguments

section Reads

variable {P : Platform} {tools : SpatialTools} {dir : PathBuf} {F : Set PathBuf}
  {errs : CubeEnvelope.SerdeErrors} {ops : FloatOps} {args : Args}

/-- A call that takes a cube from its arguments and goes on with it. -/
theorem reads_argCube_bind {α : Type} {key missing notCube : String} {f : DataCube → Eval α}
    (hf : ∀ c, ArgCube args key c → ReadsOnly F (f c)) :
    ReadsOnly F (attempt (requireArg args key missing) >>= fun data =>
      attempt (decodeCube data notCube) >>= f) :=
  respects_attempt_bind fun data hdata => respects_attempt_bind fun c hc =>
    hf c ⟨data, requireArg_eq_ok hdata, decodeCube_eq_ok hc⟩

theorem evalNdvi_reads (hfit : ArgsFit args)
    (hF : ∀ p ∈ ndviFiles errs ops (jsonArgs args), p ∈ F) :
    ReadsOnly F (evalNdvi P dir args) := by
  refine reads_argCube_bind fun c hc => ?_
  refine (ndvi_reads fun reds nirs hred hnir hlength p hp => hF p ?_).thenPure
  unfold ndviFiles
  rw [cubeArg_jsonArgs hfit hc]
  simp only [textArg_jsonArgs, CubeEnvelope.DataCube.bands_ofExact, hred, hnir, if_pos hlength]
  exact hp

theorem evalMask_reads (hfit : ArgsFit args)
    (hF : ∀ p ∈ maskFiles errs ops (jsonArgs args), p ∈ F) :
    ReadsOnly F (evalMask P dir args) := by
  refine respects_attempt_bind fun replacement _ => reads_argCube_bind fun c hc => ?_
  split
  · exact respects_throw _
  · refine reads_argCube_bind fun maskCube hmask => ?_
    refine (mask_reads fun band maskPaths hentries e he p hp => hF p ?_).thenPure
    unfold maskFiles
    rw [cubeArg_jsonArgs hfit hc, cubeArg_jsonArgs hfit hmask]
    simp only [CubeEnvelope.DataCube.bands_ofExact, hentries]
    exact List.mem_flatMap.mpr ⟨e, he, hp⟩

theorem evalMaskFromValues_reads (hfit : ArgsFit args)
    (hF : ∀ p ∈ maskFromValuesFiles errs ops (jsonArgs args), p ∈ F) :
    ReadsOnly F (evalMaskFromValues P dir args) := by
  refine respects_attempt_bind fun _ _ => respects_attempt_bind fun _ _ => ?_
  refine respects_attempt_bind fun values _ => reads_argCube_bind fun c hc => ?_
  refine (maskFromValues_reads fun paths hpaths p hp => hF p ?_).thenPure
  unfold maskFromValuesFiles
  rw [cubeArg_jsonArgs hfit hc]
  simp only [textArg_jsonArgs, CubeEnvelope.DataCube.bands_ofExact, hpaths, Option.getD_some]
  exact hp

theorem evalMaskSclDilation_reads (hfit : ArgsFit args) (hkept : resampledFiles dir ⊆ F)
    (hF : ∀ p ∈ maskSclDilationFiles errs ops (jsonArgs args), p ∈ F) :
    ReadsOnly F (evalMaskSclDilation P dir args) := by
  refine respects_attempt_bind fun _ _ => reads_argCube_bind fun c hc => ?_
  refine (maskSclDilation_reads hkept fun sclPaths hscl e he p hp => hF p ?_).thenPure
  unfold maskSclDilationFiles
  rw [cubeArg_jsonArgs hfit hc]
  simp only [textArg_jsonArgs, CubeEnvelope.DataCube.bands_ofExact, hscl]
  exact List.mem_flatMap.mpr ⟨e, he, hp⟩

theorem applyHandler_reads (hfit : ArgsFit args)
    (hF : ∀ p ∈ applyFiles errs ops (jsonArgs args), p ∈ F) :
    ReadsOnly F (applyHandler P dir args) := by
  unfold applyHandler
  split
  · rename_i hprocess
    obtain ⟨process, hprocess⟩ := (BTreeMap.containsKey_iff _ _).mp hprocess
    refine respects_attempt_bind fun subPg _ => respects_attempt_bind fun _ _ => ?_
    refine reads_argCube_bind fun c hc => ?_
    refine (apply_reads fun p hp => hF p ?_).thenPure
    unfold applyFiles
    rw [cubeArg_jsonArgs hfit hc, get_jsonArgs, hprocess]
    exact hp
  · exact respects_pure _

theorem argCube_of_reduceArgs {who : String} {a : ReducerKind × DataCube}
    (h : reduceArgs args who = .ok a) : ArgCube args "data" a.2 := by
  unfold reduceArgs at h
  split at h
  · cases h
  · obtain ⟨kind, _, h⟩ := bind_eq_ok_iff.mp h
    obtain ⟨data, hdata, h⟩ := bind_eq_ok_iff.mp h
    obtain ⟨c, hc, h⟩ := bind_eq_ok_iff.mp h
    cases h
    exact ⟨data, requireArg_eq_ok hdata, decodeCube_eq_ok hc⟩

theorem evalReduceDimension_reads (hfit : ArgsFit args)
    (hF : ∀ p ∈ reduceDimensionFiles errs ops (jsonArgs args), p ∈ F) :
    ReadsOnly F (evalReduceDimension P dir args) := by
  unfold evalReduceDimension
  cases hdim : (args.get "dimension").bind Envelope.asStr with
  | none => exact respects_throw _
  | some dim =>
      dsimp only
      split
      · rename_i hbands
        refine respects_attempt_bind fun a ha => ?_
        refine (reduceBands_reads fun hlength p hp => hF p ?_).thenPure
        unfold reduceDimensionFiles
        rw [bind_asStr_jsonArgs, hdim, cubeArg_jsonArgs hfit (argCube_of_reduceArgs ha)]
        simp only [if_pos hbands, if_neg hlength]
        exact hp
      · rename_i hbands
        split
        · rename_i htime
          refine respects_attempt_bind fun a ha => ?_
          refine (reduceTime_reads fun p hp => hF p ?_).thenPure
          unfold reduceDimensionFiles
          rw [bind_asStr_jsonArgs, hdim, cubeArg_jsonArgs hfit (argCube_of_reduceArgs ha)]
          simp only [if_neg hbands, if_pos htime]
          exact hp
        · exact respects_throw _

theorem recrop_reads {data : Envelope} {crop : CropWindow} {crs who : String}
    (hfit : ArgsFit args) (hdata : args.get "data" = some data)
    (hF : ∀ p ∈ recropFiles errs ops (jsonArgs args), p ∈ F) :
    ReadsOnly F (recropCubeToBbox P tools dir data crop crs who) := by
  refine recropCubeToBbox_reads fun c hc p hp => hF p ?_
  unfold recropFiles
  rw [cubeArg_jsonArgs hfit ⟨data, hdata, hc⟩]
  exact hp

theorem evalFilterBbox_reads (hfit : ArgsFit args)
    (hF : ∀ p ∈ recropFiles errs ops (jsonArgs args), p ∈ F) :
    ReadsOnly F (evalFilterBbox P tools dir args) := by
  refine respects_attempt_bind fun data hdata => respects_attempt_bind fun extent _ => ?_
  refine respects_attempt_bind fun parsed _ => respects_attempt_bind fun _ _ => ?_
  exact recrop_reads hfit (requireArg_eq_ok hdata) hF

theorem evalFilterSpatial_reads (hfit : ArgsFit args)
    (hF : ∀ p ∈ recropFiles errs ops (jsonArgs args), p ∈ F) :
    ReadsOnly F (evalFilterSpatial P tools dir args) := by
  refine respects_attempt_bind fun data hdata => respects_attempt_bind fun geometries _ => ?_
  split
  · exact respects_throw _
  · exact recrop_reads hfit (requireArg_eq_ok hdata) hF

theorem or_jsonArgs (args : Args) (key key' : String) :
    ((jsonArgs args).get key).or ((jsonArgs args).get key') =
      ((args.get key).or (args.get key')).map Envelope.toValue := by
  rw [get_jsonArgs, get_jsonArgs, Option.map_or]

theorem fits_of_or (hfit : ArgsFit args) {key key' : String} {v : Envelope}
    (h : (args.get key).or (args.get key') = some v) : v.Fits := by
  rcases Option.or_eq_some_iff.mp h with h | ⟨_, h⟩
  · exact hfit key v h
  · exact hfit key' v h

/-- The names that both cubes have are found in the JSON of both. -/
theorem any_containsKey_eq (c1 c2 : DataCube) :
    (c1.bands.mapValues stringsJson).entries.any
      (fun e => containsKey e.1 (c2.bands.mapValues stringsJson).entries) = bandsOverlap c1 c2 := by
  have hcontains : ∀ band, containsKey band (c2.bands.mapValues stringsJson).entries =
      c2.bands.containsKey band := by
    intro band
    unfold containsKey
    rw [lookup_stringsJson, Option.isSome_map]
    rfl
  unfold bandsOverlap
  rw [← keys_stringsJson, List.any_map]
  exact congrArg _ (funext fun e => hcontains e.1)

theorem pathsOf_stringsJson (paths : List PathBuf) : pathsOf (stringsJson paths) = paths :=
  List.filterMap_map.trans List.filterMap_some

theorem mem_resolvedFiles {c1 c2 : DataCube} {band : String} {p1 p2 : List PathBuf} {p : PathBuf}
    (h1 : c1.bands.get band = some p1) (h2 : c2.bands.get band = some p2)
    (hlength : p1.length = p2.length) (hp : p ∈ scenePairs p1 p2) :
    p ∈ resolvedFiles (c1.bands.mapValues stringsJson).entries
      (c2.bands.mapValues stringsJson).entries := by
  have hlookup : (c2.bands.mapValues stringsJson).entries.lookup band = some (stringsJson p2) := by
    rw [lookup_stringsJson, h2]
    rfl
  have hentry : (band, stringsJson p1) ∈ (c1.bands.mapValues stringsJson).entries :=
    List.mem_map.mpr ⟨(band, p1), (c1.bands.get_eq_some_iff _ _).mp h1, rfl⟩
  refine List.mem_flatMap.mpr ⟨_, hentry, ?_⟩
  dsimp only
  rw [hlookup]
  dsimp only
  rw [pathsOf_stringsJson, pathsOf_stringsJson, if_pos hlength]
  exact hp

/-- A file or a text has no bands. -/
theorem bandsObject_of_extractRasterPath {v : Envelope} {name : String} {p : PathBuf}
    (h : OrbitOpenEO.extractRasterPath v name = .ok p) (hcube : ∀ c, v ≠ .cube c) :
    (v.toValue.get "__cube").bind bandsObject = none := by
  cases v with
  | raster path => rfl
  | cube c => exact absurd rfl (hcube c)
  | bare c => cases h
  | value v e =>
      cases v with
      | str s => rfl
      | _ => cases h

theorem mosaicFiles_toValue {v1 v2 : Envelope} {p1 p2 : PathBuf} (hfits1 : v1.Fits)
    (hfits2 : v2.Fits) (h1 : OrbitOpenEO.extractRasterPath v1 "cube1" = .ok p1)
    (h2 : OrbitOpenEO.extractRasterPath v2 "cube2" = .ok p2) :
    mosaicFiles errs v1.toValue v2.toValue = [p1, p2] := by
  unfold mosaicFiles
  rw [extractRasterPath_toValue hfits1 h1, extractRasterPath_toValue hfits2 h2]

theorem mergeMosaic_reads_of_files {v1 v2 : Envelope} (hfits1 : v1.Fits) (hfits2 : v2.Fits)
    (hF : ∀ p ∈ mosaicFiles errs v1.toValue v2.toValue, p ∈ F) :
    ReadsOnly F (mergeMosaic P dir v1 v2) := by
  refine mergeMosaic_reads fun p1 p2 hp1 hp2 => ?_
  rw [mosaicFiles_toValue hfits1 hfits2 hp1 hp2] at hF
  exact ⟨hF p1 (by simp), hF p2 (by simp)⟩

/-- Of two arguments that have files but are not both cubes, one has no bands. -/
theorem bandsObject_eq_none_or {v1 v2 : Envelope} {p1 p2 : PathBuf}
    (hcubes : ¬ ((∃ c1, v1 = .cube c1) ∧ ∃ c2, v2 = .cube c2))
    (h1 : OrbitOpenEO.extractRasterPath v1 "cube1" = .ok p1)
    (h2 : OrbitOpenEO.extractRasterPath v2 "cube2" = .ok p2) :
    (v1.toValue.get "__cube").bind bandsObject = none ∨
      (v2.toValue.get "__cube").bind bandsObject = none := by
  rcases not_and_or.mp hcubes with hcubes | hcubes
  · exact Or.inl (bandsObject_of_extractRasterPath h1 (not_exists.mp hcubes))
  · exact Or.inr (bandsObject_of_extractRasterPath h2 (not_exists.mp hcubes))

theorem evalMergeCubes_reads (hfit : ArgsFit args)
    (hF : ∀ p ∈ mergeCubesFiles errs (jsonArgs args), p ∈ F) :
    ReadsOnly F (evalMergeCubes P dir args) := by
  unfold evalMergeCubes
  split
  · exact respects_throw _
  · exact respects_throw _
  · rename_i v1 v2 h1 h2
    have hfits1 := fits_of_or hfit h1
    have hfits2 := fits_of_or hfit h2
    unfold mergeCubesFiles at hF
    rw [or_jsonArgs, or_jsonArgs, h1, h2, get_jsonArgs] at hF
    simp only [Option.map_some] at hF
    unfold mergeCubes
    split
    · -- Two cubes: their bands are joined, resolved scene by scene, or made a mosaic.
      simp only [bandsObject_toValue hfits1, bandsObject_toValue hfits2, any_containsKey_eq] at hF
      split
      · rename_i hoverlap
        rw [if_pos hoverlap] at hF
        cases hresolver : args.get "overlap_resolver" with
        | none =>
            rw [hresolver] at hF
            exact mergeMosaic_reads_of_files hfits1 hfits2 hF
        | some resolver =>
            rw [hresolver] at hF
            refine (mergeResolveOverlap_reads fun band p1 p2 hp1 hp2 hlength p hp => ?_).thenPure
            exact hF p (mem_resolvedFiles hp1 hp2 hlength hp)
      · exact respects_pure _
    · -- Anything else becomes a mosaic of two files.
      rename_i hcubes
      refine mergeMosaic_reads fun p1 p2 hp1 hp2 => ?_
      have hnone := bandsObject_eq_none_or
        (fun ⟨⟨c1, hc1⟩, c2, hc2⟩ => hcubes c1 c2 hc1 hc2) hp1 hp2
      split at hF
      · rename_i b1 b2 hb1 hb2
        rcases hnone with hnone | hnone
        · cases hnone.symm.trans hb1
        · cases hnone.symm.trans hb2
      · rw [mosaicFiles_toValue hfits1 hfits2 hp1 hp2] at hF
        exact ⟨hF p1 (by simp), hF p2 (by simp)⟩

theorem evalResampleSpatial_reads (hfit : ArgsFit args)
    (hF : ∀ p ∈ resampleSpatialFiles errs ops (jsonArgs args), p ∈ F) :
    ReadsOnly F (evalResampleSpatial P tools dir args) := by
  unfold evalResampleSpatial
  split
  · exact respects_throw _
  · dsimp only
    split
    · exact respects_throw _
    · refine respects_attempt_bind fun data hdata => ?_
      have hget := requireArg_eq_ok hdata
      have hjson : (jsonArgs args).get "data" = some data.toValue := by
        rw [get_jsonArgs, hget]
        rfl
      unfold resampleSpatialFiles at hF
      rw [hjson] at hF
      cases data with
      | raster path =>
          refine (warpOne_reads (hF path ?_)).thenPure
          exact List.mem_singleton_self path
      | cube c =>
          have hcube : cubeArg errs ops (jsonArgs args) "data" = some (.ofExact c) :=
            cubeArg_jsonArgs hfit ⟨_, hget, rfl⟩
          have hraster : (Envelope.cube c).toValue.get "__raster" = none := rfl
          have hinner : (Envelope.cube c).toValue.get "__cube" = some c.toValue := rfl
          simp only [hraster, hinner, hcube] at hF
          dsimp only
          split
          · exact respects_throw _
          · refine (respects_mapEach fun e he => ?_).thenPure
            refine (reads_scenes (fun p hp => hF p (mem_filesOf he hp)) fun q hq => ?_).thenPure
            exact warpOne_reads hq
      | bare c => exact respects_throw _
      | value v e => exact respects_throw _

end Reads

namespace Evaluator

/-- The process that an evaluator is the handler of, and its arguments, for those that open
files because of their arguments. -/
def call : Evaluator → Option (String × Args)
  | .ndvi args => some ("ndvi", args)
  | .mask args => some ("mask", args)
  | .maskSclDilation args => some ("mask_scl_dilation", args)
  | .maskFromValues args => some ("mask_from_values", args)
  | .apply args => some ("apply", args)
  | .reduceDimension args => some ("reduce_dimension", args)
  | .mergeCubes args => some ("merge_cubes", args)
  | .filterBbox args => some ("filter_bbox", args)
  | .filterSpatial args => some ("filter_spatial", args)
  | .resampleSpatial args => some ("resample_spatial", args)
  | .loadEager _ _ _ => none
  | .loadStream _ _ _ _ => none
  | .other _ => none

/-- The files in the directory that an evaluator looks at on its own. -/
def kept (dir : PathBuf) : Evaluator → Set PathBuf
  | .maskSclDilation _ => resampledFiles dir
  | _ => ∅

variable {D : Deployment} {errs : CubeEnvelope.SerdeErrors} {ops : FloatOps}

/-- **An evaluator reads no other files than those that its arguments name**, but for the
classifications it has resampled: worlds that agree on these files are the same to it. -/
theorem readsOnly_openedFiles {e : Evaluator} {process : String} {args : Args}
    (hcall : e.call = some (process, args)) (hfit : ArgsFit args) :
    ReadsOnly ({p | p ∈ openedFiles errs ops (jsonArgs args) process} ∪ e.kept D.scratchDir)
      (e.eval D) := by
  cases e with
  | loadEager => cases hcall
  | loadStream => cases hcall
  | other => cases hcall
  | ndvi =>
      cases hcall
      exact evalNdvi_reads hfit fun p hp => Or.inl hp
  | mask =>
      cases hcall
      exact evalMask_reads hfit fun p hp => Or.inl hp
  | maskSclDilation =>
      cases hcall
      exact evalMaskSclDilation_reads hfit Set.subset_union_right fun p hp => Or.inl hp
  | maskFromValues =>
      cases hcall
      exact evalMaskFromValues_reads hfit fun p hp => Or.inl hp
  | apply =>
      cases hcall
      exact applyHandler_reads hfit fun p hp => Or.inl hp
  | reduceDimension =>
      cases hcall
      exact evalReduceDimension_reads hfit fun p hp => Or.inl hp
  | mergeCubes =>
      cases hcall
      exact evalMergeCubes_reads hfit fun p hp => Or.inl hp
  | filterBbox =>
      cases hcall
      exact evalFilterBbox_reads hfit fun p hp => Or.inl hp
  | filterSpatial =>
      cases hcall
      exact evalFilterSpatial_reads hfit fun p hp => Or.inl hp
  | resampleSpatial =>
      cases hcall
      exact evalResampleSpatial_reads hfit fun p hp => Or.inl hp

end Evaluator

namespace PolygonStatistics

variable {σ : Type} {errs : CubeEnvelope.SerdeErrors} {P : Platform} {args : BTreeMap Json}

theorem primaryFiles_of_readBand {band : String} {paths : List PathBuf}
    (h : readBand errs P args = .ok (band, paths)) :
    aggregateSpatialFiles errs P.f64.toFloatOps args = paths := by
  unfold readBand at h
  obtain ⟨data, hdata, h⟩ := bind_eq_ok_iff.mp h
  have hget := orInvalid_eq_ok_iff.mp hdata
  split at h
  · cases h
  · rename_i cube hcube
    obtain ⟨picked, hpicked, h⟩ := bind_eq_ok_iff.mp h
    have hpick := orInvalid_eq_ok_iff.mp hpicked
    split at h
    · cases h
    · rename_i files hfiles
      cases h
      have harg : cubeArg errs P.f64.toFloatOps args "data" = some cube := by
        unfold cubeArg
        rw [hget, Option.bind_some, hcube]
        rfl
      unfold aggregateSpatialFiles
      rw [harg]
      dsimp only
      unfold primaryFiles
      rw [hpick, Option.bind_some, hfiles]
      rfl

/-- `eval_aggregate_spatial` reads the files that its arguments name. -/
theorem evalAggregateSpatial_reads (gdal : Gdal) (projections : Projections σ)
    {openFile : PathBuf → Except String GdalFile} {spatialRef : PathBuf → Option σ}
    (hsame : ∀ p ∈ aggregateSpatialFiles errs P.f64.toFloatOps args,
      gdal.openFile p = openFile p ∧ projections.spatialRef p = spatialRef p) :
    evalAggregateSpatial errs P gdal projections args =
      evalAggregateSpatial errs P { gdal with openFile := openFile }
        { projections with spatialRef := spatialRef } args := by
  have hscene : ∀ p ∈ aggregateSpatialFiles errs P.f64.toFloatOps args,
      openScene P gdal projections p = openScene P { gdal with openFile := openFile }
        { projections with spatialRef := spatialRef } p := by
    intro p hp
    obtain ⟨hopen, href⟩ := hsame p hp
    unfold openScene openTransform
    rw [hopen, href]
    rfl
  unfold evalAggregateSpatial
  cases hreq : readArgs errs P args with
  | error e => rfl
  | ok req =>
      obtain ⟨-, -, -, hband⟩ := readArgs_eq_ok_iff.mp hreq
      rw [primaryFiles_of_readBand hband] at hscene
      have hround : ∀ rows, ∀ p ∈ req.paths,
          addScene P gdal projections req.red req.rings rows p =
            addScene P { gdal with openFile := openFile }
              { projections with spatialRef := spatialRef } req.red req.rings rows p := by
        intro rows p hp
        unfold addScene
        rw [hscene p hp]
      exact congrArg (fun rows => rows >>= fun dataOut => .ok (req.reply dataOut))
        (foldlM_congr_of_mem hround _)

end PolygonStatistics

end OrbitOpenEO
