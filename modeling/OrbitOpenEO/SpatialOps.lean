import OrbitOpenEO.MaskOps
import OrbitOpenEO.LoadCollection
import OrbitOpenEO.ProcessIds

/-!
# Cropping and warping a cube

`filter_bbox` and `filter_spatial` cut every file of a cube to a window, and
`resample_spatial` warps every file to a reference system.  Both write a new file for
each band and scene, and leave the bands where they are.

The tools that write are GDAL's; nothing is assumed about what they leave in the file.
-/

namespace OrbitOpenEO

open Lib

/-- What a tool has written into its file, if anything, and how it ended. -/
structure ToolRun where
  written : Option (Option Raster)
  result : Except String Unit

/-- What cropping and warping use from outside the repository. -/
structure SpatialTools where
  /-- The text of an `f64`. -/
  display : ℚ → String
  /-- The text of a path that is none. -/
  pathError : Json → String
  /-- `download_in_process_with_crs` of a local file. -/
  recrop : PathBuf → Option Raster → CropWindow → String → ToolRun
  /-- `gdal_utils::warp`. -/
  warp : PathBuf → Option Raster → Nat → ToolRun

/-- Run a tool on a file. -/
def runTool (dst : PathBuf) (fail : String → String) (run : World → ToolRun) : Eval Unit := fun w =>
  let after :=
    match (run w).written with
    | some content => w.write dst content
    | none => w
  match (run w).result with
  | .ok _ => .ok () after
  | .error e => .error (.backend (fail e)) after

/-- The value of a finite float. -/
def F64.finite? : F64 → Option ℚ
  | .finite q => some q
  | .negZero => some 0
  | _ => none

section Windows

variable (P : Platform) (tools : SpatialTools)

/-- A number under a key.  Numbers of JSON are finite. -/
def numberAt (v : Json) (key : String) : Option ℚ :=
  ((v.get key).bind (Json.asF64 P.f64.toFloatOps)).bind F64.finite?

/-- `parse_bbox_crs`. -/
def parseBboxCrs (v : Option Json) : Except ExecError String :=
  let invalid (text : String) : Except ExecError String :=
    .error (.invalidGraph s!"spatial_extent.crs invalid: {text}")
  match v with
  | none => .ok "EPSG:4326"
  | some .null => .ok "EPSG:4326"
  | some (.num (.posInt n)) => .ok s!"EPSG:{n}"
  | some (.num (.negInt n)) => invalid s!"negative EPSG code {n}"
  | some (.num n) => invalid s!"non-integer numeric {P.jsonText (.num n)}"
  | some (.str s) =>
      let cs := trimChars s.toList
      if cs.isEmpty then invalid "empty string"
      else if cs.contains ':' then .ok (String.ofList cs)
      else if cs.all Char.isDigit then .ok s!"EPSG:{String.ofList cs}"
      else invalid s!"unqualified non-numeric string `{String.ofList cs}`"
  | some other => invalid s!"expected integer or string, got {P.jsonText other}"

/-- `parse_bbox`. -/
def parseBbox (v : Json) : Except ExecError (CropWindow × String) :=
  match numberAt P v "west", numberAt P v "south", numberAt P v "east", numberAt P v "north" with
  | some west, some south, some east, some north =>
      if east ≤ west then
        .error (.invalidGraph
          s!"spatial_extent: west ({tools.display west}) must be < east ({tools.display east})")
      else if north ≤ south then
        .error (.invalidGraph
          s!"spatial_extent: south ({tools.display south}) must be < north ({tools.display north})")
      else do
        let crs ← parseBboxCrs P (v.get "crs")
        .ok (⟨west, south, east, north⟩, crs)
  | _, _, _, _ =>
      .error (.invalidGraph "spatial_extent must have numeric west/south/east/north")

mutual

/-- The coordinate pairs that `walk` of `geojson_bbox` finds. -/
def coordPairs : Json → List (F64 × F64)
  | .arr (.num x :: .num y :: _) => [(x.asF64 P.f64.toFloatOps, y.asF64 P.f64.toFloatOps)]
  | .arr items => coordPairsOfItems items
  | .obj fields => coordPairsOfFields fields
  | _ => []

/-- The loop over the items of an array. -/
def coordPairsOfItems : List Json → List (F64 × F64)
  | [] => []
  | item :: items => coordPairs item ++ coordPairsOfItems items

/-- The loop over the values of an object. -/
def coordPairsOfFields : List (String × Json) → List (F64 × F64)
  | [] => []
  | (_, v) :: fields => coordPairs v ++ coordPairsOfFields fields

end

/-- `geojson_bbox`. -/
def geojsonBbox (v : Json) : Option CropWindow :=
  match numberAt P v "west", numberAt P v "south", numberAt P v "east", numberAt P v "north" with
  | some west, some south, some east, some north => some ⟨west, south, east, north⟩
  | _, _, _, _ =>
      let xs := (coordPairs P v).map Prod.fst
      let ys := (coordPairs P v).map Prod.snd
      match (xs.foldl F64.min .posInf).finite?, (ys.foldl F64.min .posInf).finite?,
        (xs.foldl F64.max .negInf).finite?, (ys.foldl F64.max .negInf).finite? with
      | some minX, some minY, some maxX, some maxY =>
          if minX < maxX ∧ minY < maxY then some ⟨minX, minY, maxX, maxY⟩ else none
      | _, _, _, _ => none

end Windows

section Recrop

variable (P : Platform) (tools : SpatialTools) (dir : PathBuf)

/-- The loop over the scenes of one band. -/
def recropBand (crop : CropWindow) (crs who : String) (e : String × List PathBuf) :
    Eval (String × List PathBuf) := do
  attempt (validateIdentifier e.1 s!"{who}.band_key")
  let outs ← mapEach
    (fun (p : PathBuf × Nat) => do
      let nanos ← now P
      let dst := scratch dir s!"{who}_{e.1}_t{p.2}_{nanos}.tif"
      runTool dst (fun err => s!"{who}: crop {e.1} t={p.2}: {err}")
        (fun w => tools.recrop p.1 (w.files p.1) crop crs)
      pure dst)
    e.2.zipIdx
  pure (e.1, outs)

/-- `recrop_cube_to_bbox`. -/
def recropCubeToBbox (data : Envelope) (crop : CropWindow) (crs who : String) :
    Eval Envelope := do
  let cube ← attempt (decodeCube data s!"{who}: input is not a cube")
  if cube.bands.entries.isEmpty then throw (.invalidGraph s!"{who}: cube has no bands")
  else do
    let bands ← mapEach (recropBand P tools dir crop crs who) cube.bands.entries
    pure (.cube
      { cube with
        bands := cube.bands.insertAll bands
        bbox := some crop.bbox })

/-- `eval_filter_bbox`. -/
def evalFilterBbox (args : Args) : Eval Envelope := do
  let data ← attempt (requireArg args "data" "filter_bbox: missing `data`")
  let extent ← attempt
    (requireArg args "extent" "filter_bbox: missing `extent` bounding box")
  let parsed ← attempt (parseBbox P tools extent.toValue)
  attempt ((validateCrsSpec parsed.2).mapError
    (fun e => .invalidGraph s!"filter_bbox.extent.crs: {e}"))
  recropCubeToBbox P tools dir data parsed.1 parsed.2 "filter_bbox"

/-- `eval_filter_spatial`. -/
def evalFilterSpatial (args : Args) : Eval Envelope := do
  let data ← attempt (requireArg args "data" "filter_spatial: missing `data`")
  let geometries ← attempt
    (requireArg args "geometries" "filter_spatial: missing `geometries`")
  match geojsonBbox P geometries.toValue with
  | none => throw (.invalidGraph
      "filter_spatial: could not derive a bbox from `geometries` (expected GeoJSON with numeric coordinates)")
  | some crop => recropCubeToBbox P tools dir data crop "EPSG:4326" "filter_spatial"

end Recrop

section Resample

variable (P : Platform) (tools : SpatialTools) (dir : PathBuf)

/-- `warp_one` of `eval_resample_spatial`. -/
def warpOne (targetEpsg : Nat) (src : PathBuf) (tag : String) : Eval PathBuf := do
  let nanos ← now P
  let dst := scratch dir s!"warp_epsg{targetEpsg}_{tag}_{nanos}.tif"
  runTool dst (fun err => s!"resample_spatial: warp {tag}: {err}")
    (fun w => tools.warp src (w.files src) targetEpsg)
  pure dst

/-- The loop over the scenes of one band. -/
def warpBand (targetEpsg : Nat) (e : String × List PathBuf) : Eval (String × List PathBuf) := do
  let outs ← mapEach
    (fun (p : PathBuf × Nat) => warpOne P tools dir targetEpsg p.1 s!"{e.1}_t{p.2}") e.2.zipIdx
  pure (e.1, outs)

/-- A resolution that would have to be looked at. -/
def isNonzeroResolution (v : Json) : Bool :=
  let nonzero (v : Json) : Bool :=
    match v.asF64 P.f64.toFloatOps with
    | some x => !x.isZero
    | none => false
  match v with
  | .num n => nonzero (.num n)
  | .arr items => items.any nonzero
  | _ => false

/-- The `__raster` that `resample_spatial` reads in a value that is no raster envelope. -/
def resampleRefusal (v : Json) (e : DataCubeError) : ExecError :=
  match v.get "__raster" with
  | some raster =>
      match raster.get "path" with
      | none => .invalidGraph "resample_spatial: __raster missing `path`"
      | some path => .invalidGraph s!"resample_spatial: bad raster.path: {tools.pathError path}"
  | none =>
      match v.get "__cube" with
      | some _ => .invalidGraph s!"resample_spatial: bad __cube: {e.toText}"
      | none => .invalidGraph "resample_spatial: `data` must be a __raster or __cube handle"

/-- `eval_resample_spatial`. -/
def evalResampleSpatial (args : Args) : Eval Envelope :=
  match ((args.get "projection").bind Envelope.json).bind Json.asU64 with
  | none => throw (.invalidGraph
      "resample_spatial: numeric `projection` (EPSG code) is required")
  | some projection => do
      let targetEpsg := projection % 2 ^ 32
      if ((args.get "resolution").bind Envelope.json).any (isNonzeroResolution P) then
        throw (.invalidGraph
          "resample_spatial: `resolution` is not supported by this backend (projection-only reprojection); omit it or set it to 0")
      else do
        let data ← attempt (requireArg args "data" "resample_spatial: missing `data`")
        match data with
        | .raster path => do
            let warped ← warpOne P tools dir targetEpsg path "r"
            pure (.raster warped)
        | .cube cube =>
            if cube.bands.entries.isEmpty then
              throw (.backend "resample_spatial: __cube.bands is empty")
            else do
              let bands ← mapEach (warpBand P tools dir targetEpsg) cube.bands.entries
              pure (.cube
                { cube with
                  bands := cube.bands.insertAll bands
                  bbox := none
                  extras := cube.extras.insert "target_epsg" (.num (.posInt targetEpsg)) })
        | .bare _ => throw (.invalidGraph
            "resample_spatial: `data` must be a __raster or __cube handle")
        | .value v e => throw (resampleRefusal tools v e)

end Resample

end OrbitOpenEO
