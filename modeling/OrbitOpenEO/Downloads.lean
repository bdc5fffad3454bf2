import OrbitOpenEO.LoadCollection
import OrbitOpenEO.RasterDataset
import OrbitOpenEO.UrlPolicy
import OrbitOpenEO.Lib.Painting
import Mathlib.Data.Rat.Floor

/-!
# Downloading a window

Two downloaders cut a window out of a raster.  `download_in_process_with_crs` reads it
with GDAL as one rectangle; `download_via_async_tiff_with_crs_and_meta` fetches the
tiles that the window meets and puts them together, and leaves to the other what it
does not support.

Arithmetic on coordinates is exact, tiles decode to the pixels of the raster, and the
file to write to can be written.  Pixels are what GDAL stores of them.
-/

namespace OrbitOpenEO

open Lib

/-- `GdalDataType`, with the types that both downloaders support. -/
inductive DataType where
  | uint16
  | int16
  | uint8
  | float32
  | other (name : String)
deriving DecidableEq

/-- The smallest and largest value of an integer type. -/
def DataType.bounds : DataType → Option (Int × Int)
  | .uint16 => some (0, 65535)
  | .int16 => some (-32768, 32767)
  | .uint8 => some (0, 255)
  | _ => none

/-- A number without its fraction. -/
def truncate (q : ℚ) : Int := if q < 0 then ⌈q⌉ else ⌊q⌋

/-- `NumCast::from` of an `f64`. -/
def DataType.numCast (toF32 : F64 → F64) (dtype : DataType) (x : F64) : Option F64 :=
  match dtype.bounds, x with
  | none, x => some (toF32 x)
  | some (low, high), .finite q =>
      if low - 1 < q ∧ q < high + 1 then some (.finite (truncate q)) else none
  | some _, .negZero => some (.finite 0)
  | some _, _ => none

/-- What the first directory of a TIFF file declares, and what GDAL reads of it. -/
structure TiffFile where
  rows : Nat
  cols : Nat
  rows_pos : 0 < rows
  cols_pos : 0 < cols
  samplesPerPixel : Nat
  dtype : DataType
  pixel : Nat → Nat → F64
  tileWidth : Option Nat
  tileHeight : Option Nat
  /-- What the tiles hold outside the raster. -/
  tilePadding : Nat → Nat → F64
  modelPixelScale : Option (List ℚ)
  modelTiepoint : Option (List ℚ)
  modelTransformation : Option (List ℚ)
  epsg : Option Nat
  noData : Option F64
  geoTransform : Except String GeoTransform
  spatialRef : Except String String

/-- A raster that was written. -/
structure WrittenRaster where
  rows : Nat
  cols : Nat
  geoTransform : GeoTransform
  dtype : DataType
  pixel : Nat → Nat → F64
  noData : Option F64
  spatialRef : Option String

/-- `ParsedSource`. -/
inductive ParsedSource where
  | s3 (bucket key region : String)
  | localFile (absDir fileName : String)

/-- `BandMetadataHint`: what is read of it. -/
structure BandMetadataHint where
  epsg : Option Nat

/-- What the downloaders use from outside the repository. -/
structure Libraries where
  toF32 : F64 → F64
  /-- The text of an `f64`. -/
  display : ℚ → String
  canonicalize : String → Except String (String × String)
  openReader : ParsedSource → Except GeoError Unit
  readIfds : ParsedSource → Except GeoError (List TiffFile)
  joinError : String
  gdalOpen : String → Except String TiffFile
  bandError : String
  fromDefinition : String → Except String String
  coordTransform : String → String → Except String Unit
  transformBounds : String → String → CropWindow → Except String CropWindow

/-- `project_bbox_to_source_crs`. -/
abbrev Projection := CropWindow → String → Nat → Except GeoError CropWindow

/-- An error with a text. -/
def failWith {α : Type} (text : String) : Except Failure α := .error (.error (.other text))

/-- `map_err`, where the error is one of `orbit_geo` already. -/
def orError {α : Type} : Except GeoError α → Except Failure α := Except.mapError Failure.error

/-- `strip_prefix`. -/
def stripPrefix (pre : String) (cs : List Char) : Option (List Char) :=
  if pre.toList.isPrefixOf cs then some (cs.drop pre.toList.length) else none

/-- `strip_suffix`. -/
def stripSuffix (suf : String) (cs : List Char) : Option (List Char) :=
  if suf.toList.isSuffixOf cs then some (cs.take (cs.length - suf.toList.length)) else none

/-- `parse_local_path`. -/
def parseLocalPath (lib : Libraries) (path : String) : Except GeoError ParsedSource :=
  match lib.canonicalize path with
  | .ok (dir, name) => .ok (.localFile dir name)
  | .error e => .error (.other s!"async_tiff: canonicalize {path}: {e}")

/-- The part of `parse_source` for a host of the S3 service. -/
def parseS3Host (host key : List Char) : Option ParsedSource :=
  let s3 (bucket key region : List Char) : ParsedSource :=
    .s3 (String.ofList bucket) (String.ofList key) (String.ofList region)
  (stripSuffix ".amazonaws.com" host).bind fun stripped =>
    let pathStyle :=
      ((stripPrefix "s3." stripped).or (stripPrefix "s3-" stripped)).bind fun region =>
        (splitOnce ['/'] key).map fun p => s3 p.1 p.2 region
    pathStyle.or
      (((splitOnce ".s3.".toList stripped).map fun p => s3 p.1 key p.2).or
        ((splitOnce ".s3-".toList stripped).map fun p => s3 p.1 key p.2))

/-- `parse_source`. -/
def parseSource (lib : Libraries) (src : String) : Except GeoError ParsedSource :=
  match stripPrefix "s3://" src.toList with
  | some rest =>
      match splitOnce ['/'] rest with
      | some (bucket, key) => .ok (.s3 (String.ofList bucket) (String.ofList key) "us-west-2")
      | none => .error (.other s!"async_tiff: s3 url missing key: {src}")
  | none =>
      match stripPrefix "file://" src.toList with
      | some rest => parseLocalPath lib (String.ofList rest)
      | none =>
          if ['/'].isPrefixOf src.toList then parseLocalPath lib src
          else
            match stripPrefix "https://" src.toList with
            | some rest =>
                let parsed := (splitOnce ['/'] rest).bind fun p =>
                  parseS3Host p.1 (p.2.takeWhile (· ≠ '?'))
                match parsed with
                | some parsed => .ok parsed
                | none =>
                    .error (.other
                      s!"async_tiff: unsupported https host (only s3 hosts handled): {src}")
            | none =>
                .error (.other
                  s!"async_tiff: unsupported scheme (expected s3://, file://, https://*.amazonaws.com, or /local/path): {src}")

/-- `PixelWindow`. -/
structure PixelWindow where
  colOff : Int
  rowOff : Int
  cols : Nat
  rows : Nat

/-- The rounding of `-projwin`, if it leaves a pixel. -/
def projwin (crop : CropWindow) (originX pixW originY pixH : ℚ) : Option PixelWindow :=
  let colOff := ⌊(crop.minX - originX) / pixW + 1 / 1000⌋
  let rowOff := ⌊(crop.maxY - originY) / pixH + 1 / 1000⌋
  let cols := ⌈(crop.maxX - (colOff * pixW + originX)) / pixW - 1 / 1000⌉
  let rows := ⌈(crop.minY - (rowOff * pixH + originY)) / pixH - 1 / 1000⌉
  if cols < 1 ∨ rows < 1 then none else some ⟨colOff, rowOff, cols.toNat, rows.toNat⟩

/-- The geotransform of a window. -/
def PixelWindow.geoTransform (window : PixelWindow) (originX pixW originY pixH : ℚ) :
    GeoTransform :=
  ⟨originX + window.colOff * pixW, pixW, 0, originY + window.rowOff * pixH, 0, pixH⟩

/-- Where the part of an axis that can be read starts. -/
def readStart (off : Int) : Nat := (max off 0).toNat

/-- Where it ends. -/
def readEnd (off : Int) (size total : Nat) : Nat := (min (max (off + size) 0) total).toNat

/-- A number cast to `usize`.  A negative one is larger than any index. -/
def asUsize (x : Int) : Option Nat := if 0 ≤ x then some x.toNat else none

section Download

variable (lib : Libraries)

/-- The fill and the copy of `copy_window_typed`; `none` if a slice is out of range. -/
def copyRows (file : TiffFile) (window : PixelWindow) : Option (Canvas F64) :=
  let readColStart := readStart window.colOff
  let readRowStart := readStart window.rowOff
  let readCols := readEnd window.colOff window.cols file.cols - readColStart
  let readRows := readEnd window.rowOff window.rows file.rows - readRowStart
  let fill := (file.noData.bind (file.dtype.numCast lib.toF32)).getD (.finite 0)
  let out := Canvas.blank (window.cols * window.rows) fill
  let readData : Slice F64 :=
    ⟨readCols * readRows,
      fun k => file.pixel (readRowStart + k / readCols) (readColStart + k % readCols)⟩
  if 0 < readCols && 0 < readRows then do
    let dstColStart ← asUsize (readColStart - window.colOff)
    let dstRowStart ← asUsize (readRowStart - window.rowOff)
    (List.range' 0 readRows).foldlM
      (fun out r =>
        out.copy ((dstRowStart + r) * window.cols + dstColStart) readData (r * readCols) readCols)
      out
  else some out

/-- `copy_window_typed`. -/
def copyWindowTyped (file : TiffFile) (spatialRef : String) (outGt : GeoTransform)
    (window : PixelWindow) : Except Failure WrittenRaster :=
  match copyRows lib file window with
  | none => .error .panic
  | some out =>
      .ok
        { rows := window.rows
          cols := window.cols
          geoTransform := outGt
          dtype := file.dtype
          pixel := fun r c => out.elem (r * window.cols + c)
          noData := file.noData
          spatialRef := some spatialRef }

/-- The window of coordinates of `download_in_process_with_crs`, in the system of the raster. -/
def inProcessBounds (srcSr : String) (w : CropWindow) (cropCrs : Option String) :
    Except Failure CropWindow := do
  let workSr ←
    match cropCrs.filter (fun c => (validateCrsSpec c).isOk) with
    | some c => orOther (fun e => s!"in_process from_definition {c}: {e}") (lib.fromDefinition c)
    | none => .ok srcSr
  orOther (fun e => s!"in_process CoordTransform: {e}") (lib.coordTransform workSr srcSr)
  orOther (fun e => s!"in_process transform_bounds: {e}") (lib.transformBounds workSr srcSr w)

/-- The window of `download_in_process_with_crs`. -/
def inProcessWindow (file : TiffFile) (srcSr : String) (gt : GeoTransform)
    (crop : Option CropWindow) (cropCrs : Option String) : Except Failure PixelWindow :=
  match crop with
  | none => .ok ⟨0, 0, file.cols, file.rows⟩
  | some w => do
      let bounds ← inProcessBounds lib srcSr w cropCrs
      let src :=
        s!"src=[{lib.display gt.originX},{lib.display gt.originY}] {file.cols}x{file.rows}"
      let projected :=
        s!"crop projects to [{lib.display bounds.minX},{lib.display bounds.maxX}] x [{lib.display bounds.minY},{lib.display bounds.maxY}]"
      match projwin bounds gt.originX gt.pixelWidth gt.originY gt.pixelHeight with
      | none =>
          failWith
            s!"in_process: degenerate projwin produces 0-pixel window ({src}, {projected})"
      | some window =>
          let inX := 0 < window.colOff + window.cols && window.colOff < file.cols
          let inY := 0 < window.rowOff + window.rows && window.rowOff < file.rows
          if !inX || !inY then
            failWith
              s!"in_process: crop window does not intersect source raster ({src}, {projected})"
          else .ok window

/-- `download_in_process_with_crs`. -/
def downloadInProcessWithCrs (src : String) (crop : Option CropWindow) (cropCrs : Option String) :
    Except Failure WrittenRaster := do
  let file ← orOther (fun e => s!"in_process open {src}: {e}") (lib.gdalOpen src)
  let gt ← orOther (fun e => s!"in_process geo_transform {src}: {e}") file.geoTransform
  let srcSr ← orOther (fun e => s!"in_process spatial_ref {src}: {e}") file.spatialRef
  if file.samplesPerPixel = 0 then failWith s!"in_process rasterband {src}: {lib.bandError}"
  else if gt.pixelWidth = 0 ∨ gt.pixelHeight = 0 then
    failWith
      s!"in_process: degenerate geo_transform pix_w={lib.display gt.pixelWidth} pix_h={lib.display gt.pixelHeight}"
  else do
    let window ← inProcessWindow lib file srcSr gt crop cropCrs
    match file.dtype with
    | .other name =>
        failWith
          s!"in_process: unsupported source dtype {name} (extend copy_window_typed dispatch)"
    | _ =>
        copyWindowTyped lib file srcSr
          (window.geoTransform gt.originX gt.pixelWidth gt.originY gt.pixelHeight) window

/-- `native_crs_pixel_window`. -/
def nativeCrsPixelWindow (crop : CropWindow) (originX pixW originY pixH : ℚ) :
    Except Failure PixelWindow :=
  if pixW = 0 ∨ pixH = 0 then
    failWith
      s!"async_tiff: degenerate geo_transform pix_w={lib.display pixW} pix_h={lib.display pixH}"
  else
    match projwin crop originX pixW originY pixH with
    | some window => .ok window
    | none =>
        failWith
          s!"async_tiff: degenerate projwin (crop=[{lib.display crop.minX},{lib.display crop.maxY}]-[{lib.display crop.maxX},{lib.display crop.minY}])"

/-- `tile_range`. -/
def tileRange (pixelStart pixelEnd tileSize : Nat) : Nat × Nat :=
  if pixelEnd ≤ pixelStart || tileSize == 0 then (0, 0)
  else (pixelStart / tileSize, (pixelEnd - 1) / tileSize + 1)

/-- A tile of a file, decoded. -/
def decodeTile (file : TiffFile) (tileW tileH tx ty : Nat) : Slice F64 where
  length := tileW * tileH
  elem k :=
    let (row, col) := (ty * tileH + k / tileW, tx * tileW + k % tileW)
    if row < file.rows ∧ col < file.cols then file.pixel row col else file.tilePadding row col

/-- `place_tile`; `none` if a slice is out of range. -/
def placeTile (out : Canvas F64) (window : PixelWindow) (tileX tileY : Nat)
    (tileData : Slice F64) (tileW tileH readColStart readRowStart readColEnd readRowEnd : Nat) :
    Option (Canvas F64) :=
  let tilePxX := tileX * tileW
  let tilePxY := tileY * tileH
  let copyColStart := max tilePxX readColStart
  let copyRowStart := max tilePxY readRowStart
  let copyColEnd := min (tilePxX + tileW) readColEnd
  let copyRowEnd := min (tilePxY + tileH) readRowEnd
  if copyColEnd ≤ copyColStart || copyRowEnd ≤ copyRowStart then some out
  else
    (List.range' copyRowStart (copyRowEnd - copyRowStart)).foldlM
      (fun out srcRow => do
        let srcIdx := (srcRow - tilePxY) * tileW + (copyColStart - tilePxX)
        let dstRow ← asUsize (srcRow - window.rowOff)
        let dstCol ← asUsize (copyColStart - window.colOff)
        out.copy (dstRow * window.cols + dstCol) tileData srcIdx (copyColEnd - copyColStart))
      out

/-- The indices of the tiles that a window meets, row by row. -/
def tileIndices (file : TiffFile) (window : PixelWindow) (tileW tileH : Nat) :
    List (Nat × Nat) :=
  let (colFirst, colEnd) := tileRange (readStart window.colOff)
    (readEnd window.colOff window.cols file.cols) tileW
  let (rowFirst, rowEnd) := tileRange (readStart window.rowOff)
    (readEnd window.rowOff window.rows file.rows) tileH
  (List.range' rowFirst (rowEnd - rowFirst)).flatMap fun ty =>
    (List.range' colFirst (colEnd - colFirst)).map fun tx => (tx, ty)

/-- The buffer of `stitch_and_write`. -/
def stitch (file : TiffFile) (window : PixelWindow) (tileW tileH : Nat) : Option (Canvas F64) :=
  (tileIndices file window tileW tileH).foldlM
    (fun out t =>
      placeTile out window t.1 t.2 (decodeTile file tileW tileH t.1 t.2) tileW tileH
        (readStart window.colOff) (readStart window.rowOff)
        (readEnd window.colOff window.cols file.cols)
        (readEnd window.rowOff window.rows file.rows))
    (Canvas.blank (window.cols * window.rows) (.finite 0))

/-- `stitch_and_write`.  A panic is one of the blocking task, which is joined. -/
def stitchAndWrite (file : TiffFile) (window : PixelWindow) (tileW tileH : Nat)
    (outGt : GeoTransform) : Except Failure WrittenRaster :=
  match stitch file window tileW tileH with
  | none => failWith s!"async_tiff: join: {lib.joinError}"
  | some out =>
      .ok
        { rows := window.rows
          cols := window.cols
          geoTransform := outGt
          dtype := file.dtype
          pixel := fun r c => out.elem (r * window.cols + c)
          noData := none
          spatialRef := none }

/-- `fetch_and_stitch_then_write`. -/
def fetchAndStitchThenWrite (src : String) (file : TiffFile) (tileW tileH : Nat)
    (originX pixW originY pixH : ℚ) (window : PixelWindow) : Except Failure WrittenRaster :=
  if file.samplesPerPixel ≠ 1 then
    downloadInProcessWithCrs lib src
      (some
        { minX := originX + window.colOff * pixW
          maxY := originY + window.rowOff * pixH
          maxX := originX + (window.colOff + window.cols) * pixW
          minY := originY + (window.rowOff + window.rows) * pixH }) none
  else if (tileIndices file window tileW tileH).isEmpty then
    failWith "async_tiff: crop window does not intersect any tile in the source"
  else
    match file.dtype with
    | .other name => failWith s!"async_tiff: unsupported dtype {name} (got {name})"
    | _ =>
        stitchAndWrite lib file window tileW tileH
          (window.geoTransform originX pixW originY pixH)

/-- `ifd_geo_transform`: origin and size of a pixel, by column and row. -/
def ifdGeoTransform (file : TiffFile) : Except Failure (ℚ × ℚ × ℚ × ℚ) :=
  let fromTie :=
    file.modelPixelScale.bind fun scale =>
      file.modelTiepoint.bind fun tp =>
        if 2 ≤ scale.length && 6 ≤ tp.length then
          let pixW := scale.getD 0 0
          let pixH := -scale.getD 1 0
          some (tp.getD 3 0 - tp.getD 0 0 * pixW, pixW, tp.getD 4 0 - tp.getD 1 0 * pixH, pixH)
        else none
  let fromMatrix :=
    file.modelTransformation.bind fun mt =>
      if mt.length == 16 && mt.getD 1 0 == 0 && mt.getD 4 0 == 0 then
        some (mt.getD 3 0, mt.getD 0 0, mt.getD 7 0, mt.getD 5 0)
      else none
  match fromTie.or fromMatrix with
  | some gt => .ok gt
  | none => failWith "async_tiff: source TIFF has no usable Model* geo tags"

/-- The part of `download_via_async_tiff_with_crs_and_meta` behind the decision about the
reference systems. -/
def cropInSourceCrs (src : String) (file : TiffFile) (crop : Option CropWindow)
    (cropCrs : Option String) : Except Failure WrittenRaster :=
  match file.tileWidth, file.tileHeight with
  | some tileW, some tileH => do
      let (originX, pixW, originY, pixH) ← ifdGeoTransform file
      let window ←
        match crop with
        | some c => nativeCrsPixelWindow lib c originX pixW originY pixH
        | none => .ok ⟨0, 0, file.cols, file.rows⟩
      fetchAndStitchThenWrite lib src file tileW tileH originX pixW originY pixH window
  | _, _ => downloadInProcessWithCrs lib src crop cropCrs

/-- `ReprojectAction`. -/
inductive ReprojectAction where
  | none
  | epsgToEpsg (srcEpsg : Nat)
  | fallbackToInProcess
deriving DecidableEq

/-- `HintDecision`. -/
inductive HintDecision where
  | none
  | epsgToEpsg (srcEpsg : Nat)
  | fallback
deriving DecidableEq

/-- `parse::<u16>()`. -/
def parseU16 (cs : List Char) : Option Nat :=
  let digits :=
    match cs with
    | '+' :: ds => ds
    | ds => ds
  if digits.isEmpty || !digits.all Char.isDigit then none
  else if numeral 10 digits ≤ 65535 then some (numeral 10 digits) else none

/-- The code that a reference system is named by, if it is. -/
def askedEpsg (crs : String) : Option Nat :=
  (stripPrefix "EPSG:" ((trimChars crs.toList).map Char.toUpper)).bind parseU16

/-- `classify_reproject_from_hint`. -/
def classifyReprojectFromHint (srcEpsg : Nat) (cropCrs : Option String) : HintDecision :=
  match cropCrs with
  | none => .none
  | some crs =>
      match askedEpsg crs with
      | some asked => if asked = srcEpsg then .none else .epsgToEpsg srcEpsg
      | none => .fallback

/-- `reproject_decision`. -/
def reprojectDecision (file : TiffFile) (cropCrs : Option String) : ReprojectAction :=
  match cropCrs with
  | none => .none
  | some crs =>
      match askedEpsg crs with
      | some asked =>
          match file.epsg with
          | some src => if src = asked then .none else .epsgToEpsg src
          | none => .fallbackToInProcess
      | none => .fallbackToInProcess

/-- What to make of the hint before the file is opened. -/
def hintDecision (hint : Option BandMetadataHint) (cropCrs : Option String) :
    Option HintDecision :=
  (hint.bind BandMetadataHint.epsg).bind fun srcEpsg =>
    if srcEpsg ≤ 65535 then some (classifyReprojectFromHint srcEpsg cropCrs) else none

variable (project : Projection)

/-- The directories of the file, with the window projected as the hint has it. -/
def openWithHint (parsed : ParsedSource) (crop : Option CropWindow) (cropCrs : Option String)
    (decision : Option HintDecision) : Except Failure (List TiffFile × Option CropWindow) :=
  match crop, decision, cropCrs with
  | some c, some (.epsgToEpsg srcEpsg), some userCrs => do
      let ifds ← orError (lib.readIfds parsed)
      let projected ← orError (project c userCrs srcEpsg)
      .ok (ifds, some projected)
  | _, _, _ => do
      let ifds ← orError (lib.readIfds parsed)
      .ok (ifds, none)

/-- Project a window as the file has it. -/
def projectToSource (c : CropWindow) (cropCrs : Option String) (srcEpsg : Nat)
    (inconsistency : String) : Except Failure (Option (Option CropWindow × Option String)) :=
  match cropCrs with
  | none => failWith inconsistency
  | some userCrs => do
      let projected ← orError (project c userCrs srcEpsg)
      .ok (some (some projected, some s!"EPSG:{srcEpsg}"))

/-- The window to cut and its reference system; `none` to leave it to the other
downloader. -/
def effectiveCrop (file : TiffFile) (crop : Option CropWindow) (cropCrs : Option String)
    (preprojected : Option CropWindow) (decision : Option HintDecision) :
    Except Failure (Option (Option CropWindow × Option String)) :=
  match crop, preprojected, decision, reprojectDecision file cropCrs with
  | some _, some projected, some (.epsgToEpsg srcEpsg), _ =>
      .ok (some (some projected, some s!"EPSG:{srcEpsg}"))
  | some c, none, _, .epsgToEpsg srcEpsg =>
      projectToSource project c cropCrs srcEpsg
        "async_tiff: reproject_decision inconsistency (EpsgToEpsg w/o crop_crs)"
  | none, _, _, .epsgToEpsg _ => .ok (some (none, cropCrs))
  | _, _, _, .fallbackToInProcess => .ok none
  | _, _, _, .none => .ok (some (crop, cropCrs))
  | some c, some _, _, .epsgToEpsg srcEpsg =>
      projectToSource project c cropCrs srcEpsg
        "async_tiff: defensive arm: EpsgToEpsg w/o crop_crs"

/-- What is left to do when the reference systems are decided: cut the window in process,
or cut it in the reference system of the raster. -/
inductive SourceCrop where
  | inProcess (crop : Option CropWindow) (cropCrs : Option String)
  | inSourceCrs (file : TiffFile) (crop : Option CropWindow) (cropCrs : Option String)

/-- The part of `download_via_async_tiff_with_crs_and_meta` up to that decision. -/
def sourceCrop (src : String) (crop : Option CropWindow) (cropCrs : Option String)
    (hint : Option BandMetadataHint) : Except Failure SourceCrop :=
  match parseSource lib src with
  | .error _ => .ok (.inProcess crop cropCrs)
  | .ok parsed =>
      if hintDecision hint cropCrs = some .fallback then .ok (.inProcess crop cropCrs)
      else do
        orError (lib.openReader parsed)
        let (ifds, preprojected) ←
          openWithHint lib project parsed crop cropCrs (hintDecision hint cropCrs)
        match ifds with
        | [] => failWith s!"async_tiff: no IFDs in {src}"
        | file :: _ =>
            match ← effectiveCrop project file crop cropCrs preprojected
              (hintDecision hint cropCrs) with
            | none => .ok (.inProcess crop cropCrs)
            | some (crop, cropCrs) => .ok (.inSourceCrs file crop cropCrs)

/-- `download_via_async_tiff_with_crs_and_meta`. -/
def downloadViaAsyncTiffWithCrsAndMeta (src : String) (crop : Option CropWindow)
    (cropCrs : Option String) (hint : Option BandMetadataHint) :
    Except Failure WrittenRaster := do
  match ← sourceCrop lib project src crop cropCrs hint with
  | .inProcess crop cropCrs => downloadInProcessWithCrs lib src crop cropCrs
  | .inSourceCrs file crop cropCrs => cropInSourceCrs lib src file crop cropCrs

/-- `download_via_async_tiff_with_crs`. -/
def downloadViaAsyncTiffWithCrs (src : String) (crop : Option CropWindow)
    (cropCrs : Option String) : Except Failure WrittenRaster :=
  downloadViaAsyncTiffWithCrsAndMeta lib project src crop cropCrs none

end Download

end OrbitOpenEO
