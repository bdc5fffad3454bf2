import OrbitOpenEO.CroppedWindows

/-!
# Windows of virtual rasters

The streaming path writes a small virtual raster for each band of each scene.  It rounds the
projected window of coordinates to pixels of the source, as the download in process does, and
writes down which pixels of the source go to which pixels of the output.  Size and
geotransform of the source may come from the catalogue without the file having been opened.
-/

namespace OrbitOpenEO

open Lib

/-- `SourceMeta`. -/
structure SourceMeta where
  colsTotal : Nat
  rowsTotal : Nat
  dtypeName : String
  nodata : Option ℚ
  srsWkt : String
  gt : GeoTransform

/-- `AoiWindow`. -/
structure AoiWindow where
  colOff : Int
  rowOff : Int
  cols : Nat
  rows : Nat
  outGt : GeoTransform

/-- What the streaming path uses from outside the repository besides the libraries of the
downloads. -/
structure VrtLibraries extends Libraries where
  fromWkt : String → Except String String
  /-- The text of an `f64` with one decimal. -/
  tenths : ℚ → String
  /-- The text of an `f64` with `{:.16e}`. -/
  scientific : ℚ → String

section Window

variable (lib : VrtLibraries)

/-- An error of a library, with the text put around it. -/
def orBackend {α : Type} (text : String → String) (r : Except String α) : Except ExecError α :=
  r.mapError (fun e => .backend (text e))

theorem orBackend_eq_ok_iff {α : Type} {text : String → String} {r : Except String α} {a : α} :
    orBackend text r = .ok a ↔ r = .ok a := by
  cases r with
  | error e =>
      simp [orBackend, Except.mapError]
  | ok b =>
      simp [orBackend, Except.mapError]

/-- The window of coordinates of `compute_aoi_window`, in the system of the source. -/
def aoiBounds (sm : SourceMeta) (crop : CropWindow) (cropCrs : String) :
    Except ExecError CropWindow := do
  let srcSr ← orBackend (fun e => s!"P3 src SpatialRef::from_wkt: {e}") (lib.fromWkt sm.srsWkt)
  let workSr ← orBackend (fun e => s!"P3 work SpatialRef::from_definition({cropCrs}): {e}")
    (lib.fromDefinition cropCrs)
  orBackend (fun e => s!"P3 CoordTransform: {e}") (lib.coordTransform workSr srcSr)
  orBackend (fun e => s!"P3 transform_bounds: {e}") (lib.transformBounds workSr srcSr crop)

/-- `compute_aoi_window`. -/
def computeAoiWindow (sm : SourceMeta) (crop : CropWindow) (cropCrs : String) :
    Except ExecError AoiWindow :=
  let originX := sm.gt.originX
  let pixW := sm.gt.pixelWidth
  let originY := sm.gt.originY
  let pixH := sm.gt.pixelHeight
  if pixW = 0 ∨ pixH = 0 then
    .error (.backend
      s!"P3 compute_aoi_window: degenerate geo_transform pix_w={lib.display pixW} pix_h={lib.display pixH}")
  else do
    let bounds ← aoiBounds lib sm crop cropCrs
    let colOff := ⌊(bounds.minX - originX) / pixW + 1 / 1000⌋
    let rowOff := ⌊(bounds.maxY - originY) / pixH + 1 / 1000⌋
    let snappedUlx := colOff * pixW + originX
    let snappedUly := rowOff * pixH + originY
    let cols := ⌈(bounds.maxX - snappedUlx) / pixW - 1 / 1000⌉
    let rows := ⌈(bounds.minY - snappedUly) / pixH - 1 / 1000⌉
    let src :=
      s!"src=[{lib.display originX},{lib.display originY}] {sm.colsTotal}x{sm.rowsTotal}"
    let projected :=
      s!"crop projects to [{lib.tenths bounds.minX},{lib.tenths bounds.maxX}] x [{lib.tenths bounds.minY},{lib.tenths bounds.maxY}]"
    if cols < 1 ∨ rows < 1 then
      .error (.backend s!"P3: degenerate projwin produces 0-pixel window ({src}, {projected})")
    else
      let inX := 0 < colOff + cols && colOff < sm.colsTotal
      let inY := 0 < rowOff + rows && rowOff < sm.rowsTotal
      if !inX || !inY then
        .error (.backend
          s!"P3: crop window does not intersect source raster ({src}, {projected})")
      else
        .ok
          { colOff := colOff
            rowOff := rowOff
            cols := cols.toNat
            rows := rows.toNat
            outGt := ⟨originX + colOff * pixW, pixW, 0, originY + rowOff * pixH, 0, pixH⟩ }

end Window

/-- The offsets and sizes of a `SrcRect` or a `DstRect`. -/
structure VrtRect where
  xOff : Nat
  yOff : Nat
  xSize : Nat
  ySize : Nat

/-- The `SrcRect` of `build_vrt_xml`: the part of the window in the source. -/
def srcRect (sm : SourceMeta) (win : AoiWindow) : VrtRect :=
  let readColStart := max win.colOff 0
  let readRowStart := max win.rowOff 0
  let readColEnd := min (max (win.colOff + win.cols) 0) sm.colsTotal
  let readRowEnd := min (max (win.rowOff + win.rows) 0) sm.rowsTotal
  ⟨readColStart.toNat, readRowStart.toNat, (max (readColEnd - readColStart) 0).toNat,
    (max (readRowEnd - readRowStart) 0).toNat⟩

/-- The `DstRect`: as large, and placed where the window starts. -/
def dstRect (sm : SourceMeta) (win : AoiWindow) : VrtRect :=
  ⟨(max win.colOff 0 - win.colOff).toNat, (max win.rowOff 0 - win.rowOff).toNat,
    (srcRect sm win).xSize, (srcRect sm win).ySize⟩

/-- `xml_escape`. -/
def xmlEscape (s : String) : String :=
  String.ofList (s.toList.flatMap (fun c =>
    if c = '<' then "&lt;".toList
    else if c = '>' then "&gt;".toList
    else if c = '&' then "&amp;".toList
    else if c = '"' then "&quot;".toList
    else if c = '\'' then "&apos;".toList
    else [c]))

/-- The attributes of a rectangle. -/
def VrtRect.attributes (r : VrtRect) : String :=
  s!"xOff=\"{r.xOff}\" yOff=\"{r.yOff}\" xSize=\"{r.xSize}\" ySize=\"{r.ySize}\""

/-- `format_geotransform`. -/
def formatGeotransform (lib : VrtLibraries) (gt : GeoTransform) : String :=
  ", ".intercalate ([gt.originX, gt.pixelWidth, gt.rowRotation, gt.originY, gt.columnRotation,
    gt.pixelHeight].map lib.scientific)

/-- `build_vrt_xml`. -/
def buildVrtXml (lib : VrtLibraries) (srcForVrt : String) (sm : SourceMeta) (win : AoiWindow) :
    String :=
  let nodataXml :=
    match sm.nodata with
    | some n => s!"    <NoDataValue>{lib.display n}</NoDataValue>\n"
    | none => ""
  String.join
    [s!"<VRTDataset rasterXSize=\"{win.cols}\" rasterYSize=\"{win.rows}\">\n",
      s!"  <SRS>{xmlEscape sm.srsWkt}</SRS>\n",
      s!"  <GeoTransform>{formatGeotransform lib win.outGt}</GeoTransform>\n",
      s!"  <VRTRasterBand dataType=\"{sm.dtypeName}\" band=\"1\">\n",
      nodataXml,
      "    <SimpleSource>\n",
      s!"      <SourceFilename relativeToVRT=\"0\">{xmlEscape srcForVrt}</SourceFilename>\n",
      "      <SourceBand>1</SourceBand>\n",
      s!"      <SrcRect {(srcRect sm win).attributes}/>\n",
      s!"      <DstRect {(dstRect sm win).attributes}/>\n",
      "    </SimpleSource>\n",
      "  </VRTRasterBand>\n",
      "</VRTDataset>\n"]

/-- One rounded axis: the window covers the interval up to a thousandth of a pixel at either
end, and exceeds it by less than a pixel. -/
theorem axis_covered {lo hi origin pix : ℚ} (hpix : pix ≠ 0) {off : Int} {n : Nat}
    (hoff : off = ⌊(lo - origin) / pix + 1 / 1000⌋)
    (hn : (n : Int) = ⌈(hi - (off * pix + origin)) / pix - 1 / 1000⌉) :
    (off - (lo - origin) / pix ≤ 1 / 1000 ∧ (lo - origin) / pix - off < 1) ∧
      (hi - origin) / pix - (off + n) ≤ 1 / 1000 ∧ off + n - (hi - origin) / pix < 1 := by
  rw [ceil_sub_snapped hpix] at hn
  have hend : (off : ℚ) + n = ⌈(hi - origin) / pix - 1 / 1000⌉ := by
    have hsum : off + n = ⌈(hi - origin) / pix - 1 / 1000⌉ := by omega
    exact_mod_cast hsum
  have hlow := Int.floor_le ((lo - origin) / pix + 1 / 1000)
  have hlow' := Int.lt_floor_add_one ((lo - origin) / pix + 1 / 1000)
  have hhigh := Int.le_ceil ((hi - origin) / pix - 1 / 1000)
  have hhigh' := Int.ceil_lt_add_one ((hi - origin) / pix - 1 / 1000)
  rw [← hoff] at hlow hlow'
  rw [← hend] at hhigh hhigh'
  refine ⟨⟨?_, ?_⟩, ?_, ?_⟩ <;> linarith

/-- A pixel coordinate lies in a rectangle. -/
def VrtRect.Holds (r : VrtRect) (col row : ℚ) : Prop :=
  (0 ≤ col ∧ col ≤ r.xSize) ∧ 0 ≤ row ∧ row ≤ r.ySize

/-- The edges of an output raster lie outside of the bounds or at most a thousandth of a pixel
inside, and less than a pixel outside. -/
structure CoversBounds (win : AoiWindow) (bounds : CropWindow) : Prop where
  left : (win.outGt.originX - bounds.minX) / win.outGt.pixelWidth ≤ 1 / 1000 ∧
    (bounds.minX - win.outGt.originX) / win.outGt.pixelWidth < 1
  right : (bounds.maxX - (win.outGt.pixelToCrs win.cols win.rows).1) / win.outGt.pixelWidth ≤
      1 / 1000 ∧
    ((win.outGt.pixelToCrs win.cols win.rows).1 - bounds.maxX) / win.outGt.pixelWidth < 1
  top : (win.outGt.originY - bounds.maxY) / win.outGt.pixelHeight ≤ 1 / 1000 ∧
    (bounds.maxY - win.outGt.originY) / win.outGt.pixelHeight < 1
  bottom : (bounds.minY - (win.outGt.pixelToCrs win.cols win.rows).2) / win.outGt.pixelHeight ≤
      1 / 1000 ∧
    ((win.outGt.pixelToCrs win.cols win.rows).2 - bounds.minY) / win.outGt.pixelHeight < 1

/-- What is promised of a window and the two rectangles written for it. -/
structure AoiExact (lib : VrtLibraries) (sm : SourceMeta) (crop : CropWindow) (cropCrs : String)
    (bounds : CropWindow) (win : AoiWindow) : Prop where
  nonempty : 0 < (srcRect sm win).xSize ∧ 0 < (srcRect sm win).ySize
  inSource : (srcRect sm win).xOff + (srcRect sm win).xSize ≤ sm.colsTotal ∧
    (srcRect sm win).yOff + (srcRect sm win).ySize ≤ sm.rowsTotal
  inOutput : (dstRect sm win).xOff + (dstRect sm win).xSize ≤ win.cols ∧
    (dstRect sm win).yOff + (dstRect sm win).ySize ≤ win.rows
  sameSize : (dstRect sm win).xSize = (srcRect sm win).xSize ∧
    (dstRect sm win).ySize = (srcRect sm win).ySize
  sameWorld : ∀ col row, (srcRect sm win).Holds col row →
    sm.gt.pixelToCrs ((srcRect sm win).xOff + col) ((srcRect sm win).yOff + row) =
      win.outGt.pixelToCrs ((dstRect sm win).xOff + col) ((dstRect sm win).yOff + row)
  covers : CoversBounds win bounds
  /-- For the same source, and a reference system that `load_collection` lets through. -/
  inProcess : ∀ file srcSr, file.cols = sm.colsTotal → file.rows = sm.rowsTotal →
    lib.fromWkt sm.srsWkt = .ok srcSr → (validateCrsSpec cropCrs).isOk →
    inProcessWindow lib.toLibraries file srcSr sm.gt (some crop) (some cropCrs) =
      .ok ⟨win.colOff, win.rowOff, win.cols, win.rows⟩

/-- The source has pixels, and its geotransform does not rotate. -/
structure PlainSource (sm : SourceMeta) : Prop where
  cols : 0 < sm.colsTotal
  rows : 0 < sm.rowsTotal
  unrotated : sm.gt.rowRotation = 0 ∧ sm.gt.columnRotation = 0

section AoiWindows

variable {lib : VrtLibraries} {sm : SourceMeta} {crop bounds : CropWindow} {cropCrs : String}
  {win : AoiWindow}

/-- What a successful `compute_aoi_window` returns. -/
structure Snapped (sm : SourceMeta) (bounds : CropWindow) (win : AoiWindow) : Prop where
  projected : projwin bounds sm.gt.originX sm.gt.pixelWidth sm.gt.originY sm.gt.pixelHeight =
    some ⟨win.colOff, win.rowOff, win.cols, win.rows⟩
  colOff : win.colOff = ⌊(bounds.minX - sm.gt.originX) / sm.gt.pixelWidth + 1 / 1000⌋
  rowOff : win.rowOff = ⌊(bounds.maxY - sm.gt.originY) / sm.gt.pixelHeight + 1 / 1000⌋
  cols : (win.cols : Int) = ⌈(bounds.maxX - (win.colOff * sm.gt.pixelWidth + sm.gt.originX)) /
    sm.gt.pixelWidth - 1 / 1000⌉
  rows : (win.rows : Int) = ⌈(bounds.minY - (win.rowOff * sm.gt.pixelHeight + sm.gt.originY)) /
    sm.gt.pixelHeight - 1 / 1000⌉
  inX : 0 < win.colOff + win.cols ∧ win.colOff < sm.colsTotal
  inY : 0 < win.rowOff + win.rows ∧ win.rowOff < sm.rowsTotal
  outGt : win.outGt = ⟨sm.gt.originX + win.colOff * sm.gt.pixelWidth, sm.gt.pixelWidth, 0,
    sm.gt.originY + win.rowOff * sm.gt.pixelHeight, 0, sm.gt.pixelHeight⟩

theorem computeAoiWindow_eq_ok (h : computeAoiWindow lib sm crop cropCrs = .ok win) :
    ∃ bounds, aoiBounds lib sm crop cropCrs = .ok bounds ∧ Snapped sm bounds win := by
  unfold computeAoiWindow at h
  dsimp only at h
  split at h
  · cases h
  · obtain ⟨bounds, hbounds, h⟩ := bind_eq_ok_iff.mp h
    refine ⟨bounds, hbounds, ?_⟩
    split at h
    · cases h
    · rename_i hpos
      split at h
      · cases h
      · rename_i hin
        cases h
        rw [not_or, Int.not_lt, Int.not_lt] at hpos
        simp only [Bool.or_eq_true, Bool.not_eq_true', Bool.and_eq_false_iff,
          decide_eq_false_iff_not, not_or, not_not] at hin
        refine ⟨?_, rfl, rfl, Int.toNat_of_nonneg (by omega), Int.toNat_of_nonneg (by omega), ?_, ?_,
          rfl⟩
        · unfold projwin
          dsimp only
          rw [if_neg (by omega)]
        · dsimp only
          omega
        · dsimp only
          omega

theorem srcRect_eq (h : Snapped sm bounds win) :
    ((srcRect sm win).xOff : Int) = max win.colOff 0 ∧
      ((srcRect sm win).yOff : Int) = max win.rowOff 0 ∧
      ((srcRect sm win).xSize : Int) =
        max (min (win.colOff + win.cols) sm.colsTotal - max win.colOff 0) 0 ∧
      ((srcRect sm win).ySize : Int) =
        max (min (win.rowOff + win.rows) sm.rowsTotal - max win.rowOff 0) 0 := by
  have hx := h.inX
  have hy := h.inY
  unfold srcRect
  dsimp only
  omega

theorem dstRect_eq (sm : SourceMeta) (win : AoiWindow) :
    ((dstRect sm win).xOff : Int) = max win.colOff 0 - win.colOff ∧
      ((dstRect sm win).yOff : Int) = max win.rowOff 0 - win.rowOff := by
  unfold dstRect
  dsimp only
  omega

/-- Both rectangles lie where they should, whatever the source. -/
theorem rects_inside (h : Snapped sm bounds win) :
    ((srcRect sm win).xOff + (srcRect sm win).xSize ≤ sm.colsTotal ∧
        (srcRect sm win).yOff + (srcRect sm win).ySize ≤ sm.rowsTotal) ∧
      (dstRect sm win).xOff + (dstRect sm win).xSize ≤ win.cols ∧
      (dstRect sm win).yOff + (dstRect sm win).ySize ≤ win.rows := by
  obtain ⟨hxOff, hyOff, hxSize, hySize⟩ := srcRect_eq h
  obtain ⟨hdx, hdy⟩ := dstRect_eq sm win
  have hx := h.inX
  have hy := h.inY
  have hsx : (dstRect sm win).xSize = (srcRect sm win).xSize := rfl
  have hsy : (dstRect sm win).ySize = (srcRect sm win).ySize := rfl
  omega

/-- The part of the window in the source is empty just when the source is. -/
theorem srcRect_nonempty_iff (h : Snapped sm bounds win) :
    (0 < (srcRect sm win).xSize ∧ 0 < (srcRect sm win).ySize) ↔
      0 < sm.colsTotal ∧ 0 < sm.rowsTotal := by
  obtain ⟨hxOff, hyOff, hxSize, hySize⟩ := srcRect_eq h
  have hx := h.inX
  have hy := h.inY
  have hpos := projwin_pos h.projected
  dsimp only at hpos
  omega

theorem pixelToCrs_dstRect (h : Snapped sm bounds win) (col row : ℚ) :
    win.outGt.pixelToCrs ((dstRect sm win).xOff + col) ((dstRect sm win).yOff + row) =
      (sm.gt.originX + ((srcRect sm win).xOff + col) * sm.gt.pixelWidth,
        sm.gt.originY + ((srcRect sm win).yOff + row) * sm.gt.pixelHeight) := by
  obtain ⟨hxOff, hyOff, -, -⟩ := srcRect_eq h
  obtain ⟨hdx, hdy⟩ := dstRect_eq sm win
  have hcol : ((dstRect sm win).xOff : ℚ) = (srcRect sm win).xOff - win.colOff := by
    have hint : ((dstRect sm win).xOff : Int) = (srcRect sm win).xOff - win.colOff := by omega
    exact_mod_cast hint
  have hrow : ((dstRect sm win).yOff : ℚ) = (srcRect sm win).yOff - win.rowOff := by
    have hint : ((dstRect sm win).yOff : Int) = (srcRect sm win).yOff - win.rowOff := by omega
    exact_mod_cast hint
  rw [h.outGt, GeoTransform.pixelToCrs, hcol, hrow]
  refine Prod.ext ?_ ?_
  · ring
  · ring

/-- The rectangles denote the same coordinates when the source does not rotate. -/
theorem sameWorld_iff (h : Snapped sm bounds win)
    (hpos : 0 < (srcRect sm win).xSize ∧ 0 < (srcRect sm win).ySize) :
    (∀ col row, (srcRect sm win).Holds col row →
      sm.gt.pixelToCrs ((srcRect sm win).xOff + col) ((srcRect sm win).yOff + row) =
        win.outGt.pixelToCrs ((dstRect sm win).xOff + col) ((dstRect sm win).yOff + row)) ↔
      sm.gt.rowRotation = 0 ∧ sm.gt.columnRotation = 0 := by
  have hcols : (1 : ℚ) ≤ (srcRect sm win).xSize := by exact_mod_cast hpos.1
  have hrows : (1 : ℚ) ≤ (srcRect sm win).ySize := by exact_mod_cast hpos.2
  simp only [pixelToCrs_dstRect h]
  simp only [GeoTransform.pixelToCrs, Prod.mk.injEq]
  constructor
  · intro hsame
    have horigin := hsame 0 0 ⟨⟨le_refl 0, by linarith⟩, le_refl 0, by linarith⟩
    have hcol := hsame 1 0 ⟨⟨zero_le_one, hcols⟩, le_refl 0, by linarith⟩
    have hrow := hsame 0 1 ⟨⟨le_refl 0, by linarith⟩, zero_le_one, hrows⟩
    constructor
    · linarith [horigin.1, hrow.1]
    · linarith [horigin.2, hcol.2]
  · rintro ⟨hrow, hcol⟩ col row -
    rw [hrow, hcol]
    constructor
    · ring
    · ring

/-- A distance from a grid line, in pixels. -/
theorem grid_distance {pix : ℚ} (hpix : pix ≠ 0) (origin x k : ℚ) :
    (x - (origin + k * pix)) / pix = (x - origin) / pix - k ∧
      (origin + k * pix - x) / pix = k - (x - origin) / pix := by
  constructor
  · field_simp
    ring
  · field_simp
    ring

theorem coversBounds_of_snapped (hw : 0 < sm.gt.pixelWidth) (hh : sm.gt.pixelHeight < 0)
    (h : Snapped sm bounds win) : CoversBounds win bounds := by
  obtain ⟨⟨hleft, hleft'⟩, hright, hright'⟩ := axis_covered hw.ne' h.colOff h.cols
  obtain ⟨⟨htop, htop'⟩, hbottom, hbottom'⟩ := axis_covered hh.ne h.rowOff h.rows
  have hx := grid_distance hw.ne' sm.gt.originX
  have hy := grid_distance hh.ne sm.gt.originY
  have hcorner : win.outGt.pixelToCrs win.cols win.rows =
      (sm.gt.originX + (win.colOff + win.cols) * sm.gt.pixelWidth,
        sm.gt.originY + (win.rowOff + win.rows) * sm.gt.pixelHeight) := by
    rw [h.outGt, GeoTransform.pixelToCrs]
    refine Prod.ext ?_ ?_
    · ring
    · ring
  constructor
  · rw [h.outGt, (hx _ _).1, (hx _ _).2]
    exact ⟨hleft, hleft'⟩
  · rw [hcorner, h.outGt, (hx _ _).1, (hx _ _).2]
    exact ⟨hright, hright'⟩
  · rw [h.outGt, (hy _ _).1, (hy _ _).2]
    exact ⟨htop, htop'⟩
  · rw [hcorner, h.outGt, (hy _ _).1, (hy _ _).2]
    exact ⟨hbottom, hbottom'⟩

/-- The window comes out as in the download in process. -/
theorem inProcessWindow_of_snapped (hbounds : aoiBounds lib sm crop cropCrs = .ok bounds)
    (h : Snapped sm bounds win) {file : TiffFile} {srcSr : String}
    (hcols : file.cols = sm.colsTotal) (hrows : file.rows = sm.rowsTotal)
    (hsr : lib.fromWkt sm.srsWkt = .ok srcSr) (hcrs : (validateCrsSpec cropCrs).isOk) :
    inProcessWindow lib.toLibraries file srcSr sm.gt (some crop) (some cropCrs) =
      .ok ⟨win.colOff, win.rowOff, win.cols, win.rows⟩ := by
  have hsame : inProcessBounds lib.toLibraries srcSr crop (some cropCrs) = .ok bounds := by
    unfold aoiBounds at hbounds
    obtain ⟨srcSr', hsr', hbounds⟩ := bind_eq_ok_iff.mp hbounds
    obtain ⟨workSr, hwork, hbounds⟩ := bind_eq_ok_iff.mp hbounds
    obtain ⟨u, htransform, hbounds⟩ := bind_eq_ok_iff.mp hbounds
    rw [orBackend_eq_ok_iff] at hsr' hwork htransform hbounds
    rw [hsr] at hsr'
    cases hsr'
    unfold inProcessBounds
    rw [Option.filter_some, if_pos hcrs]
    simp only [hwork, htransform, hbounds, orOther, bind, Except.bind]
  have hx := h.inX
  have hy := h.inY
  unfold inProcessWindow
  simp only [hsame, bind, Except.bind, h.projected]
  rw [if_neg]
  rw [hcols, hrows]
  simp [hx, hy]

/-- The window and its rectangles are right for every source that has pixels and does not
rotate. -/
theorem aoi_exact_iff (hw : 0 < sm.gt.pixelWidth) (hh : sm.gt.pixelHeight < 0)
    (h : computeAoiWindow lib sm crop cropCrs = .ok win) :
    ∃ bounds, aoiBounds lib sm crop cropCrs = .ok bounds ∧
      (AoiExact lib sm crop cropCrs bounds win ↔ PlainSource sm) := by
  obtain ⟨bounds, hbounds, hsnapped⟩ := computeAoiWindow_eq_ok h
  refine ⟨bounds, hbounds, ?_⟩
  constructor
  · intro hexact
    obtain ⟨hcols, hrows⟩ := (srcRect_nonempty_iff hsnapped).mp hexact.nonempty
    exact ⟨hcols, hrows, (sameWorld_iff hsnapped hexact.nonempty).mp hexact.sameWorld⟩
  · intro hplain
    have hnonempty := (srcRect_nonempty_iff hsnapped).mpr ⟨hplain.cols, hplain.rows⟩
    obtain ⟨hsource, houtput⟩ := rects_inside hsnapped
    exact
      { nonempty := hnonempty
        inSource := hsource
        inOutput := houtput
        sameSize := ⟨rfl, rfl⟩
        sameWorld := (sameWorld_iff hsnapped hnonempty).mpr hplain.unrotated
        covers := coversBounds_of_snapped hw hh hsnapped
        inProcess := fun file srcSr hcols hrows hsr hcrs =>
          inProcessWindow_of_snapped hbounds hsnapped hcols hrows hsr hcrs }

end AoiWindows

/-- Libraries that know one reference system. -/
def sampleVrtLibraries : VrtLibraries where
  toLibraries := sampleLibraries none
  fromWkt wkt := .ok wkt
  tenths _ := ""
  scientific _ := ""

/-- A source of the given size with pixels of ten metres. -/
def sampleMeta (cols rows : Nat) : SourceMeta where
  colsTotal := cols
  rowsTotal := rows
  dtypeName := "UInt16"
  nodata := none
  srsWkt := "EPSG:32632"
  gt := ⟨0, 10, 0, 0, 0, -10⟩

/-- A window of coordinates around the upper left corner of the source. -/
def cornerCrop : CropWindow := ⟨-15, -15, 25, 25⟩

/-- Its pixels. -/
def cornerWindow : AoiWindow := ⟨-2, -3, 5, 5, ⟨-20, 10, 0, 30, 0, -10⟩⟩

theorem computeAoiWindow_cornerCrop (n : Nat) :
    computeAoiWindow sampleVrtLibraries (sampleMeta n n) cornerCrop "EPSG:32632" =
      .ok cornerWindow := by
  have hcolOff : ⌊((-15 : ℚ) - 0) / 10 + 1 / 1000⌋ = -2 := by norm_num
  have hrowOff : ⌊((25 : ℚ) - 0) / -10 + 1 / 1000⌋ = -3 := by norm_num
  have hcols : ⌈((25 : ℚ) - ((-2 : Int) * 10 + 0)) / 10 - 1 / 1000⌉ = 5 := by norm_num
  have hrows : ⌈((-15 : ℚ) - ((-3 : Int) * -10 + 0)) / -10 - 1 / 1000⌉ = 5 := by norm_num
  have hbounds : aoiBounds sampleVrtLibraries (sampleMeta n n) cornerCrop "EPSG:32632" =
      .ok cornerCrop := rfl
  unfold computeAoiWindow
  rw [hbounds]
  have hinside : (-2 : Int) < n ∧ (-3 : Int) < n := by omega
  norm_num [sampleMeta, cornerCrop, cornerWindow, bind, Except.bind, hcolOff, hrowOff, hcols, hrows,
    hinside]
  rfl

theorem aoi_exact_iff_corner : ∃ bounds,
    aoiBounds sampleVrtLibraries (sampleMeta 4 4) cornerCrop "EPSG:32632" = .ok bounds ∧
      (AoiExact sampleVrtLibraries (sampleMeta 4 4) cornerCrop "EPSG:32632" bounds cornerWindow ↔
        PlainSource (sampleMeta 4 4)) :=
  aoi_exact_iff (by norm_num [sampleMeta]) (by norm_num [sampleMeta])
    (computeAoiWindow_cornerCrop 4)

/-- A source of no pixels gets a window all the same, and nothing is read into it. -/
theorem empty_source_window :
    computeAoiWindow sampleVrtLibraries (sampleMeta 0 0) cornerCrop "EPSG:32632" =
        .ok cornerWindow ∧
      (srcRect (sampleMeta 0 0) cornerWindow).xSize = 0 ∧
      ¬ AoiExact sampleVrtLibraries (sampleMeta 0 0) cornerCrop "EPSG:32632" cornerCrop
        cornerWindow := by
  refine ⟨computeAoiWindow_cornerCrop 0, rfl, ?_⟩
  intro h
  exact absurd h.nonempty.1 (Nat.lt_irrefl 0)

end OrbitOpenEO
