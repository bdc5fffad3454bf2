import OrbitOpenEO.RasterDataset
import OrbitOpenEO.Workspace
import OrbitOpenEO.Lib.Boxes
import Mathlib.Data.List.Perm.Basic
import Mathlib.Data.Rat.Cast.Order

/-!
# The extent of several rasters

`compute_raster_union_extent` takes the corners of every raster into the target system and folds
them into one box.  It takes the upper left and the lower right corner.  In the system of a raster
they bound the other two, in another one they need not.
-/

namespace OrbitOpenEO

open Lib

/-- `BasicRasterInfo`. -/
structure BasicRasterInfo where
  rows : Nat
  cols : Nat
  bands : Nat
  epsg : Nat
  geoTransform : GeoTransform

/-- `read_basic_raster_info`. -/
def readBasicRasterInfo (gdal : Gdal) (path : PathBuf) : Except Failure BasicRasterInfo := do
  let ds ← orOther (fun e => s!"open {path}: {e}") (gdal.openFile path)
  .ok
    { rows := ds.rows
      cols := ds.cols
      bands := ds.bands.length
      epsg := ((ds.epsg.getD 0) % 0x100000000).toNat
      geoTransform := ds.geoTransform.toOption.getD ⟨0, 0, 0, 0, 0, 0⟩ }

/-- The reference systems of GDAL and the transformations between them, with their errors. -/
structure PointTransforms (σ : Type) where
  fromEpsg : Nat → Except String σ
  coordTransform : σ → σ → Except String (ℚ × ℚ → Except String (ℚ × ℚ))

namespace BasicRasterInfo

/-- The corners in `xs` and `ys`. -/
def diagonal (info : BasicRasterInfo) : List (ℚ × ℚ) :=
  let gt := info.geoTransform
  [(gt.originX, gt.originY),
    (gt.originX + info.cols * gt.pixelWidth, gt.originY + info.rows * gt.pixelHeight)]

/-- All four corners. -/
def corners (info : BasicRasterInfo) : List (ℚ × ℚ) :=
  [(0, 0), ((info.cols : ℚ), 0), (0, (info.rows : ℚ)), ((info.cols : ℚ), (info.rows : ℚ))].map
    fun p => info.geoTransform.pixelToCrs p.1 p.2

end BasicRasterInfo

section Extents

variable {σ : Type} (T : PointTransforms σ) (gdal : Gdal)

/-- How the loop takes points of a raster into the target system. -/
def toTarget (targetEpsg : Nat) (targetSr : σ) (info : BasicRasterInfo) :
    Except Failure (ℚ × ℚ → Except String (ℚ × ℚ)) := do
  let srcSr ←
    if 0 < info.epsg then
      orOther (fun e => s!"src EPSG:{info.epsg}: {e}") (T.fromEpsg info.epsg)
    else .ok targetSr
  if info.epsg ≠ targetEpsg ∧ 0 < info.epsg then
    orOther (fun e => s!"CoordTransform: {e}") (T.coordTransform srcSr targetSr)
  else .ok .ok

/-- The corners that a round of the loop finds. -/
def diagonalInTarget (targetEpsg : Nat) (targetSr : σ) (path : PathBuf) :
    Except Failure (List (ℚ × ℚ)) := do
  let info ← readBasicRasterInfo gdal path
  let xf ← toTarget T targetEpsg targetSr info
  orOther (fun e => s!"transform: {e}") (info.diagonal.mapM xf)

/-- The four accumulators before the loop. -/
def emptyExtent : Box F64 := ⟨.posInf, .posInf, .negInf, .negInf⟩

/-- The four accumulators after another corner. -/
def withCorner (b : Box F64) (p : ℚ × ℚ) : Box F64 where
  minX := F64.min b.minX (.finite p.1)
  minY := F64.min b.minY (.finite p.2)
  maxX := F64.max b.maxX (.finite p.1)
  maxY := F64.max b.maxY (.finite p.2)

/-- `compute_raster_union_extent`. -/
def computeRasterUnionExtent (files : List PathBuf) (targetEpsg : Nat) :
    Except Failure (Box F64) :=
  if files.isEmpty then
    .error (.error (.other "compute_raster_union_extent: empty input list"))
  else do
    let targetSr ← orOther (fun e => s!"target EPSG:{targetEpsg}: {e}") (T.fromEpsg targetEpsg)
    files.foldlM
      (fun b path => do
        let corners ← diagonalInTarget T gdal targetEpsg targetSr path
        .ok (corners.foldl withCorner b))
      emptyExtent

/-- The point lies in the box. -/
def Surrounds (b : Box F64) (p : ℚ × ℚ) : Prop :=
  (F64.le b.minX (.finite p.1) = true ∧ F64.le (.finite p.1) b.maxX = true) ∧
    F64.le b.minY (.finite p.2) = true ∧ F64.le (.finite p.2) b.maxY = true

/-- A box of fractions. -/
def finiteBox (b : Box ℚ) : Box F64 :=
  ⟨.finite b.minX, .finite b.minY, .finite b.maxX, .finite b.maxY⟩

theorem le_finite_iff (p q : ℚ) : F64.le (.finite p) (.finite q) = true ↔ p ≤ q := by
  simp [F64.le, F64.lt, F64.feq, le_iff_lt_or_eq]

theorem surrounds_finiteBox_iff {b : Box ℚ} {p : ℚ × ℚ} :
    Surrounds (finiteBox b) p ↔ b.Contains p := by
  simp only [Surrounds, finiteBox, le_finite_iff, Box.Contains]

theorem min_finite (p q : ℚ) : F64.min (.finite p) (.finite q) = .finite (min p q) := by
  simp only [F64.min, reduceCtorEq, if_false, F64.lt, decide_eq_true_eq]
  rw [min_comm, min_def_lt]
  split_ifs <;> rfl

theorem max_finite (p q : ℚ) : F64.max (.finite p) (.finite q) = .finite (max p q) := by
  simp only [F64.max, reduceCtorEq, if_false, F64.lt, decide_eq_true_eq]
  rw [max_def_lt]
  split_ifs <;> rfl

theorem foldl_withCorner_finiteBox (ps : List (ℚ × ℚ)) (b : Box ℚ) :
    ps.foldl withCorner (finiteBox b) =
      finiteBox ⟨(ps.map Prod.fst).foldl min b.minX, (ps.map Prod.snd).foldl min b.minY,
        (ps.map Prod.fst).foldl max b.maxX, (ps.map Prod.snd).foldl max b.maxY⟩ := by
  induction ps generalizing b with
  | nil =>
      rfl
  | cons p ps ih =>
      have hstep : withCorner (finiteBox b) p =
          finiteBox ⟨min b.minX p.1, min b.minY p.2, max b.maxX p.1, max b.maxY p.2⟩ := by
        simp only [withCorner, finiteBox, min_finite, max_finite]
      rw [List.foldl_cons, hstep, ih]
      rfl

/-- Of at least one point the loop finds the envelope. -/
theorem foldl_withCorner_emptyExtent {ps : List (ℚ × ℚ)} (h : ps ≠ []) :
    ∃ e, envelope ps = some e ∧ ps.foldl withCorner emptyExtent = finiteBox e := by
  cases ps with
  | nil =>
      exact absurd rfl h
  | cons p ps =>
      have hfirst : withCorner emptyExtent p = finiteBox ⟨p.1, p.2, p.1, p.2⟩ := rfl
      refine ⟨_, rfl, ?_⟩
      rw [List.foldl_cons, hfirst, foldl_withCorner_finiteBox]

/-- The images of the upper left and the lower right corner of a raster in the target system. -/
def DiagonalImages (targetEpsg : Nat) (targetSr : σ) (path : PathBuf) (ps : List (ℚ × ℚ)) : Prop :=
  ∃ info, readBasicRasterInfo gdal path = .ok info ∧
    ∃ xf, toTarget T targetEpsg targetSr info = .ok xf ∧
      List.Forall₂ (fun p q => xf p = .ok q) info.diagonal ps

theorem diagonalInTarget_eq_ok_iff {targetEpsg : Nat} {targetSr : σ} {path : PathBuf}
    {ps : List (ℚ × ℚ)} :
    diagonalInTarget T gdal targetEpsg targetSr path = .ok ps ↔
      DiagonalImages T gdal targetEpsg targetSr path ps := by
  simp only [diagonalInTarget, DiagonalImages, bind_eq_ok_iff, orOther_eq_ok_iff, mapM_eq_ok_iff]

theorem flatten_ne_nil {targetEpsg : Nat} {targetSr : σ} {files : List PathBuf}
    {found : List (List (ℚ × ℚ))} (hfiles : files ≠ [])
    (h : List.Forall₂ (DiagonalImages T gdal targetEpsg targetSr) files found) :
    found.flatten ≠ [] := by
  cases h with
  | nil =>
      exact absurd rfl hfiles
  | cons hps _ =>
      obtain ⟨info, _, xf, _, hps⟩ := hps
      intro hnil
      rw [List.flatten_cons, List.append_eq_nil_iff] at hnil
      have hlength : info.diagonal.length = 0 := by
        rw [hps.length_eq, hnil.1, List.length_nil]
      cases hlength

/-- The result is the smallest box around the images. -/
theorem computeRasterUnionExtent_eq_ok_iff {files : List PathBuf} {targetEpsg : Nat}
    {b : Box F64} :
    computeRasterUnionExtent T gdal files targetEpsg = .ok b ↔
      files ≠ [] ∧ ∃ targetSr, T.fromEpsg targetEpsg = .ok targetSr ∧
        ∃ found, List.Forall₂ (DiagonalImages T gdal targetEpsg targetSr) files found ∧
          ∃ e : Box ℚ, e.IsSmallest found.flatten ∧ b = finiteBox e := by
  unfold computeRasterUnionExtent
  cases files with
  | nil =>
      exact iff_of_false nofun fun h => h.1 rfl
  | cons path files =>
      have hfiles : path :: files ≠ [] := List.cons_ne_nil path files
      rw [if_neg (by simp), bind_eq_ok_iff, and_iff_right hfiles]
      simp only [orOther_eq_ok_iff, foldlM_eq_ok_iff, diagonalInTarget_eq_ok_iff]
      refine exists_congr fun targetSr => and_congr_right fun _ =>
        exists_congr fun found => and_congr_right fun hfound => ?_
      obtain ⟨e, henvelope, hfold⟩ :=
        foldl_withCorner_emptyExtent (flatten_ne_nil T gdal hfiles hfound)
      have he := envelope_isSmallest henvelope
      rw [hfold]
      constructor
      · rintro rfl
        exact ⟨e, he, rfl⟩
      · rintro ⟨e', he', rfl⟩
        rw [he.unique he']

/-- The point is where a corner of the raster is in the target system. -/
def IsCornerImage (targetEpsg : Nat) (targetSr : σ) (path : PathBuf) (q : ℚ × ℚ) : Prop :=
  ∃ info, readBasicRasterInfo gdal path = .ok info ∧
    ∃ xf, toTarget T targetEpsg targetSr info = .ok xf ∧ ∃ p ∈ info.corners, xf p = .ok q

/-- The extent has all corners of all rasters in it, and in every order of the files it is the
same. -/
def ExtentRight (files : List PathBuf) (targetEpsg : Nat) : Prop :=
  (∀ b targetSr, computeRasterUnionExtent T gdal files targetEpsg = .ok b →
    T.fromEpsg targetEpsg = .ok targetSr →
      ∀ path ∈ files, ∀ q, IsCornerImage T gdal targetEpsg targetSr path q → Surrounds b q) ∧
  ∀ files', files.Perm files' → ∀ b,
    computeRasterUnionExtent T gdal files targetEpsg = .ok b ↔
      computeRasterUnionExtent T gdal files' targetEpsg = .ok b

/-- On each side of the image of a corner, or level with it, is the image of an upper left or a
lower right one. -/
def DiagonalsBound (files : List PathBuf) (targetEpsg : Nat) : Prop :=
  ∀ targetSr found, T.fromEpsg targetEpsg = .ok targetSr →
    List.Forall₂ (DiagonalImages T gdal targetEpsg targetSr) files found →
      ∀ path ∈ files, ∀ q, IsCornerImage T gdal targetEpsg targetSr path q →
        Enclosed found.flatten q

theorem computeRasterUnionExtent_perm {files files' : List PathBuf} {targetEpsg : Nat}
    (h : files.Perm files') {b : Box F64}
    (hok : computeRasterUnionExtent T gdal files targetEpsg = .ok b) :
    computeRasterUnionExtent T gdal files' targetEpsg = .ok b := by
  rw [computeRasterUnionExtent_eq_ok_iff] at hok ⊢
  obtain ⟨hfiles, targetSr, htarget, found, hfound, e, he, rfl⟩ := hok
  obtain ⟨found', hfound', hperm⟩ := List.perm_comp_forall₂ h.symm hfound
  have hmem : ∀ p, p ∈ found'.flatten ↔ p ∈ found.flatten := fun p => hperm.flatten.mem_iff
  refine ⟨fun hnil => hfiles ?_, targetSr, htarget, found', hfound', e,
    ⟨fun p hp => he.contains p ((hmem p).mp hp),
      fun c hc => he.within c fun p hp => hc p ((hmem p).mpr hp)⟩, rfl⟩
  rw [hnil] at h
  exact h.eq_nil

theorem extentRight_iff (files : List PathBuf) (targetEpsg : Nat) :
    ExtentRight T gdal files targetEpsg ↔ DiagonalsBound T gdal files targetEpsg := by
  constructor
  · rintro ⟨hsurrounds, -⟩ targetSr found htarget hfound path hpath q hq
    have hfiles := List.ne_nil_of_mem hpath
    obtain ⟨e, henvelope⟩ :=
      Option.isSome_iff_exists.mp (envelope_isSome (flatten_ne_nil T gdal hfiles hfound))
    have hok : computeRasterUnionExtent T gdal files targetEpsg = .ok (finiteBox e) :=
      (computeRasterUnionExtent_eq_ok_iff T gdal).mpr
        ⟨hfiles, targetSr, htarget, found, hfound, e, envelope_isSmallest henvelope, rfl⟩
    have hcontains : e.Contains q :=
      surrounds_finiteBox_iff.mp (hsurrounds _ targetSr hok htarget path hpath q hq)
    exact (envelope_outermost henvelope).enclosed hcontains
  · intro hbound
    refine ⟨fun b targetSr hok htarget path hpath q hq => ?_, fun files' hperm b => ?_⟩
    · obtain ⟨_, targetSr', htarget', found, hfound, e, he, rfl⟩ :=
        (computeRasterUnionExtent_eq_ok_iff T gdal).mp hok
      cases htarget.symm.trans htarget'
      exact surrounds_finiteBox_iff.mpr
        ((hbound targetSr found htarget hfound path hpath q hq).contains he.contains)
    · exact ⟨computeRasterUnionExtent_perm T gdal hperm,
        computeRasterUnionExtent_perm T gdal hperm.symm⟩

/-- A raster of one pixel. -/
def onePixel : Gdal where
  pathExists _ := true
  openFile _ := .ok
    { rows := 1
      cols := 1
      rows_pos := Nat.one_pos
      cols_pos := Nat.one_pos
      bands := [fun _ _ => .finite 0]
      geoTransform := .ok ⟨0, 1, 0, 0, 0, -1⟩
      epsg := some 32631 }
  bandError := ""
  windowError := ""

/-- A transformation that turns the axes by an eighth. -/
def eighthTurn : PointTransforms Nat where
  fromEpsg := .ok
  coordTransform _ _ := .ok fun p => .ok (p.1 + p.2, p.1 - p.2)

/-- The upper right corner of the pixel is out of its extent. -/
theorem eighthTurn_cuts_corner : ¬ ExtentRight eighthTurn onePixel ["a.tif"] 3857 := by
  rintro ⟨hsurrounds, -⟩
  have hmax : (computeRasterUnionExtent eighthTurn onePixel ["a.tif"] 3857).map Box.maxX =
      .ok (.finite 0) := by
    decide +kernel
  have hcorner : IsCornerImage eighthTurn onePixel 3857 (3857 : Nat) "a.tif" (1, 1) :=
    ⟨_, rfl, _, rfl, (1, 0), by decide +kernel, by decide +kernel⟩
  cases hextent : computeRasterUnionExtent eighthTurn onePixel ["a.tif"] 3857 with
  | error e =>
      rw [hextent] at hmax
      cases hmax
  | ok b =>
      rw [hextent] at hmax
      have hle := (hsurrounds b _ hextent rfl "a.tif" List.mem_cons_self _ hcorner).1.2
      rw [Except.ok.inj hmax, le_finite_iff] at hle
      exact absurd hle (by decide)

end Extents
end OrbitOpenEO
