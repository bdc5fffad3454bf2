import OrbitOpenEO.CroppedWindows

/-!
# Hints about the metadata

A download can be told the reference system of its raster before it opens it.  The
hint changes nothing unless the window is projected for the system of the hint and the
raster has another one; then what was projected is used all the same.
-/

namespace OrbitOpenEO

open Lib

/-- A raster that can be opened and declares its reference system. -/
structure DeclaredSource (lib : Libraries) (src : String) where
  parsed : ParsedSource
  file : TiffFile
  others : List TiffFile
  epsg : Nat
  parse_eq : parseSource lib src = .ok parsed
  reader_eq : lib.openReader parsed = .ok ()
  ifds_eq : lib.readIfds parsed = .ok (file :: others)
  epsg_eq : file.epsg = some epsg

/-- The hint tells nothing that is used, or the truth, or what the call asks for anyway. -/
def HintHarmless (epsg : Nat) (crop : Option CropWindow) (cropCrs : Option String)
    (hint : Option BandMetadataHint) : Prop :=
  ∀ hinted asked, hint.bind BandMetadataHint.epsg = some hinted → hinted ≤ 65535 →
    crop.isSome → cropCrs.bind askedEpsg = some asked → hinted = epsg ∨ hinted = asked

section Decisions

variable {crs : String} {asked hinted epsg : Nat} {file : TiffFile}

theorem classifyReprojectFromHint_asked (hasked : askedEpsg crs = some asked) :
    classifyReprojectFromHint hinted (some crs) =
      if asked = hinted then .none else .epsgToEpsg hinted := by
  simp only [classifyReprojectFromHint, hasked]

theorem classifyReprojectFromHint_other (hasked : askedEpsg crs = none) :
    classifyReprojectFromHint hinted (some crs) = .fallback := by
  simp only [classifyReprojectFromHint, hasked]

theorem reprojectDecision_asked (hfile : file.epsg = some epsg)
    (hasked : askedEpsg crs = some asked) :
    reprojectDecision file (some crs) = if epsg = asked then .none else .epsgToEpsg epsg := by
  simp only [reprojectDecision, hasked, hfile]

theorem reprojectDecision_other (hasked : askedEpsg crs = none) :
    reprojectDecision file (some crs) = .fallbackToInProcess := by
  simp only [reprojectDecision, hasked]

/-- Without a projected window, the decision of the hint does not matter. -/
theorem effectiveCrop_unprojected (project : Projection) (crop : Option CropWindow)
    (cropCrs : Option String) (decision : Option HintDecision) :
    effectiveCrop project file crop cropCrs none decision =
      effectiveCrop project file crop cropCrs none none := by
  unfold effectiveCrop
  cases crop <;> cases reprojectDecision file cropCrs <;> rfl

end Decisions

section Hints

variable {lib : Libraries} {src : String} (s : DeclaredSource lib src) (project : Projection)
  {crop : Option CropWindow} {cropCrs : Option String} {hint : Option BandMetadataHint}

/-- What is left to do after a window was projected, or not, for the hint. -/
def DeclaredSource.decide (project : Projection) (crop : Option CropWindow)
    (cropCrs : Option String) (preprojected : Option CropWindow)
    (decision : Option HintDecision) : Except Failure SourceCrop := do
  match ← effectiveCrop project s.file crop cropCrs preprojected decision with
  | none => .ok (.inProcess crop cropCrs)
  | some (crop, cropCrs) => .ok (.inSourceCrs s.file crop cropCrs)

/-- A hint for which nothing is projected. -/
theorem sourceCrop_unprojected (hfallback : hintDecision hint cropCrs ≠ some .fallback)
    (h : ∀ hinted, hintDecision hint cropCrs = some (.epsgToEpsg hinted) → crop = none) :
    sourceCrop lib project src crop cropCrs hint = s.decide project crop cropCrs none none := by
  have hopen : openWithHint lib project s.parsed crop cropCrs (hintDecision hint cropCrs) =
      .ok (s.file :: s.others, none) := by
    unfold openWithHint
    rw [s.ifds_eq]
    split
    · rename_i hinted _ hdecision
      cases h _ hdecision
    · rfl
  unfold sourceCrop DeclaredSource.decide
  rw [s.parse_eq]
  dsimp only
  rw [if_neg hfallback, s.reader_eq, hopen]
  simp only [orError, Except.mapError, bind, Except.bind]
  rewrite [effectiveCrop_unprojected]
  rfl

theorem sourceCrop_none :
    sourceCrop lib project src crop cropCrs none = s.decide project crop cropCrs none none :=
  sourceCrop_unprojected s project (fun h => by cases h) (fun _ h => by cases h)

/-- A window that is projected, for the system with this code. -/
def DeclaredSource.projected (project : Projection) (c : CropWindow) (crs : String) (epsg : Nat) :
    Except Failure SourceCrop := do
  let projected ← orError (project c crs epsg)
  .ok (.inSourceCrs s.file (some projected) (some s!"EPSG:{epsg}"))

/-- A hint for which the window is projected: its system is used. -/
theorem sourceCrop_projected {c : CropWindow} {crs : String} {hinted : Nat}
    (h : hintDecision hint (some crs) = some (.epsgToEpsg hinted)) :
    sourceCrop lib project src (some c) (some crs) hint = s.projected project c crs hinted := by
  unfold sourceCrop DeclaredSource.projected openWithHint effectiveCrop
  rw [s.parse_eq, h]
  simp only [s.reader_eq, s.ifds_eq, orError, Except.mapError, bind, Except.bind]
  cases project c crs hinted <;> rfl

/-- Without a hint the system of the raster is used. -/
theorem decide_projected {c : CropWindow} {crs : String} {epsg : Nat}
    (h : reprojectDecision s.file (some crs) = .epsgToEpsg epsg) :
    s.decide project (some c) (some crs) none none = s.projected project c crs epsg := by
  unfold DeclaredSource.decide DeclaredSource.projected effectiveCrop projectToSource
  rw [h]
  simp only [orError, bind, Except.bind]
  cases (project c crs epsg).mapError Failure.error <;> rfl

/-- A hint that a window is projected for names a system that the call does not ask for. -/
theorem hintDecision_cases (hint : Option BandMetadataHint) (cropCrs : Option String) :
    (hintDecision hint cropCrs = none ∨ hintDecision hint cropCrs = some .none) ∨
      (hintDecision hint cropCrs = some .fallback ∧ ∃ crs, cropCrs = some crs ∧
        askedEpsg crs = none) ∨
      ∃ hinted crs asked, hintDecision hint cropCrs = some (.epsgToEpsg hinted) ∧
        hint.bind BandMetadataHint.epsg = some hinted ∧ hinted ≤ 65535 ∧ cropCrs = some crs ∧
        askedEpsg crs = some asked ∧ asked ≠ hinted := by
  unfold hintDecision
  cases hhint : hint.bind BandMetadataHint.epsg with
  | none =>
      exact Or.inl (Or.inl rfl)
  | some hinted =>
      rw [Option.bind_some]
      split_ifs with hle
      · cases cropCrs with
        | none =>
            exact Or.inl (Or.inr rfl)
        | some crs =>
            cases hasked : askedEpsg crs with
            | none =>
                rw [classifyReprojectFromHint_other hasked]
                exact Or.inr (Or.inl ⟨rfl, crs, rfl, hasked⟩)
            | some asked =>
                rw [classifyReprojectFromHint_asked hasked]
                split_ifs with heq
                · exact Or.inl (Or.inr rfl)
                · exact Or.inr (Or.inr ⟨hinted, crs, asked, rfl, rfl, hle, rfl, hasked, heq⟩)
      · exact Or.inl (Or.inl rfl)

/-- A harmless hint decides what is decided without it. -/
theorem sourceCrop_of_harmless (h : HintHarmless s.epsg crop cropCrs hint) :
    sourceCrop lib project src crop cropCrs hint =
      sourceCrop lib project src crop cropCrs none := by
  rw [sourceCrop_none s]
  obtain hnone | ⟨hfallback, crs, rfl, hasked⟩ |
    ⟨hinted, crs, asked, hdecision, hhint, hle, rfl, hasked, hne⟩ :=
      hintDecision_cases hint cropCrs
  · refine sourceCrop_unprojected s project ?_ ?_
    · rcases hnone with hnone | hnone <;> rw [hnone] <;> intro heq <;> cases heq
    · intro hinted heq
      rcases hnone with hnone | hnone <;> rw [hnone] at heq <;> cases heq
  · unfold sourceCrop DeclaredSource.decide effectiveCrop
    rw [s.parse_eq, reprojectDecision_other hasked]
    dsimp only
    rw [if_pos hfallback]
    cases crop <;> rfl
  · cases crop with
    | none =>
        refine sourceCrop_unprojected s project ?_ fun _ _ => rfl
        rw [hdecision]
        intro heq
        cases heq
    | some c =>
        have hepsg : hinted = s.epsg :=
          (h hinted asked hhint hle rfl hasked).resolve_right (Ne.symm hne)
        rw [sourceCrop_projected s project hdecision, hepsg]
        refine (decide_projected s project ?_).symm
        rw [reprojectDecision_asked s.epsg_eq hasked, if_neg (hepsg ▸ Ne.symm hne)]

/-- A projection for one call, which fails for the system of the hint. -/
def failsFor (hinted : Nat) (c : CropWindow) : Projection := fun _ _ epsg =>
  if epsg = hinted then .error (.other "") else .ok c

/-- Another hint is noticed as soon as the projections to the two systems differ. -/
theorem sourceCrop_ne_of_harmful (h : ¬ HintHarmless s.epsg crop cropCrs hint) :
    ∃ project, sourceCrop lib project src crop cropCrs hint ≠
      sourceCrop lib project src crop cropCrs none := by
  unfold HintHarmless at h
  push Not at h
  obtain ⟨hinted, asked, hhint, hle, hcrop, hasked, hepsg, hne⟩ := h
  obtain ⟨c, rfl⟩ := Option.isSome_iff_exists.mp hcrop
  obtain ⟨crs, rfl, hasked⟩ := Option.bind_eq_some_iff.mp hasked
  have hdecision : hintDecision hint (some crs) = some (.epsgToEpsg hinted) := by
    unfold hintDecision
    rw [hhint, Option.bind_some, if_pos hle, classifyReprojectFromHint_asked hasked,
      if_neg (Ne.symm hne)]
  refine ⟨failsFor hinted c, ?_⟩
  rw [sourceCrop_projected s _ hdecision, sourceCrop_none s]
  by_cases hsame : s.epsg = asked
  · have hdecide := reprojectDecision_asked s.epsg_eq hasked
    rw [if_pos hsame] at hdecide
    unfold DeclaredSource.decide DeclaredSource.projected effectiveCrop failsFor
    rw [hdecide, if_pos rfl]
    intro heq
    cases heq
  · have hdecide := reprojectDecision_asked s.epsg_eq hasked
    rw [if_neg hsame] at hdecide
    rw [decide_projected s _ hdecide]
    unfold DeclaredSource.projected failsFor
    rw [if_pos rfl, if_neg (Ne.symm hepsg)]
    intro heq
    cases heq

/-- The hint is advisory, whatever the projection, exactly if it is harmless. -/
theorem hint_advisory_iff (crop : Option CropWindow) (cropCrs : Option String)
    (hint : Option BandMetadataHint) :
    (∀ project,
      sourceCrop lib project src crop cropCrs hint =
          sourceCrop lib project src crop cropCrs none ∧
        downloadViaAsyncTiffWithCrsAndMeta lib project src crop cropCrs hint =
          downloadViaAsyncTiffWithCrsAndMeta lib project src crop cropCrs none) ↔
      HintHarmless s.epsg crop cropCrs hint := by
  constructor
  · intro h
    by_contra hharm
    obtain ⟨project, hne⟩ := sourceCrop_ne_of_harmful s hharm
    exact hne (h project).1
  · intro h project
    have heq := sourceCrop_of_harmless s project h
    refine ⟨heq, ?_⟩
    unfold downloadViaAsyncTiffWithCrsAndMeta
    rw [heq]

end Hints

def sampleDeclared : DeclaredSource (sampleLibraries none) "/data/b04.tif" where
  parsed := .localFile "/data" "b04.tif"
  file := sampleTiff none
  others := []
  epsg := 32632
  parse_eq := by rfl
  reader_eq := rfl
  ifds_eq := rfl
  epsg_eq := rfl

/-- A projection that finds the raster in one zone and two of its columns in the next. -/
def zoneProjection : Projection := fun _ _ epsg =>
  if epsg = 32632 then .ok ⟨0, 0, 30, 20⟩ else .ok ⟨10, 0, 30, 20⟩

theorem askedEpsg_wgs84 : askedEpsg "EPSG:4326" = some 4326 := by decide +kernel

theorem sampleSource_window_wide :
    (sampleSource none).window ⟨0, 0, 30, 20⟩ = some ⟨0, 0, 3, 2⟩ := by
  norm_num [TiledSource.window, projwin, sampleSource]
  exact ⟨rfl, rfl⟩

theorem sampleSource_window_narrow :
    (sampleSource none).window ⟨10, 0, 30, 20⟩ = some ⟨1, 0, 2, 2⟩ := by
  norm_num [TiledSource.window, projwin, sampleSource]
  rfl

/-- The window of a geographic crop is used in the zone of the hint, not of the raster. -/
theorem wrong_zone_changes_download :
    downloadViaAsyncTiffWithCrsAndMeta (sampleLibraries none) zoneProjection "/data/b04.tif"
        (some ⟨9, 48, 10, 49⟩) (some "EPSG:4326") (some ⟨some 32633⟩) ≠
      downloadViaAsyncTiffWithCrsAndMeta (sampleLibraries none) zoneProjection "/data/b04.tif"
        (some ⟨9, 48, 10, 49⟩) (some "EPSG:4326") none := by
  have hhint : hintDecision (some ⟨some 32633⟩) (some "EPSG:4326") =
      some (.epsgToEpsg 32633) := by
    simp [hintDecision, classifyReprojectFromHint_asked askedEpsg_wgs84]
  have hdecide := reprojectDecision_asked sampleDeclared.epsg_eq askedEpsg_wgs84
  have hnarrow := cropInSourceCrs_cuts (sampleSource none) ⟨10, 0, 30, 20⟩
    (some s!"EPSG:{(32633 : Nat)}")
  have hwide := cropInSourceCrs_cuts (sampleSource none) ⟨0, 0, 30, 20⟩
    (some s!"EPSG:{(32632 : Nat)}")
  unfold TiledSource.Cuts at hnarrow hwide
  rw [sampleSource_window_narrow, Option.filter_some,
    if_pos (by simp [PixelWindow.Meets, sampleSource, sampleTiff])] at hnarrow
  rw [sampleSource_window_wide, Option.filter_some,
    if_pos (by simp [PixelWindow.Meets, sampleSource, sampleTiff])] at hwide
  obtain ⟨narrow, hnarrow, -, hnarrowCols, -⟩ := hnarrow
  obtain ⟨wide, hwide, -, hwideCols, -⟩ := hwide
  unfold downloadViaAsyncTiffWithCrsAndMeta
  rw [sourceCrop_projected sampleDeclared _ hhint, sourceCrop_none sampleDeclared,
    decide_projected sampleDeclared _ hdecide]
  intro heq
  have hequal : narrow = wide := Except.ok.inj (hnarrow.symm.trans (heq.trans hwide))
  rw [hequal, hwideCols] at hnarrowCols
  cases hnarrowCols

end OrbitOpenEO
