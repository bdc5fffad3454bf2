import OrbitOpenEO.HandlePaths
import OrbitOpenEO.Lib.Effect
import OrbitOpenEO.RasterDataset
import OrbitOpenEO.ReduceOps
import OrbitOpenEO.ScanlineRasterizer
import OrbitOpenEO.SpatialOps

/-!
# Statistics over polygons

`aggregate_spatial` collects the exterior rings of the polygons in its argument, draws each of
them on every scene of a band and reduces the pixels inside to one number.  The result has a
row for every ring, so that its rows stand for the geometries only if every geometry holds one
polygon.

Holes do not count, and coordinates are rational as in the rasteriser.
-/

namespace OrbitOpenEO
namespace PolygonStatistics

open Lib EoVector

/-- A ring in world coordinates. -/
abbrev WorldRing := List (ℚ × ℚ)

section Rings

variable (ops : FloatOps)

/-- `is_coord_pair`. -/
def isCoordPair : Json → Bool
  | .arr (.num _ :: .num _ :: _) => true
  | _ => false

/-- The first two numbers of a pair.  Numbers of JSON are finite. -/
def coordPair : Json → Option (ℚ × ℚ)
  | .arr (x :: y :: _) => do
      let x ← (x.asF64 ops).bind F64.finite?
      let y ← (y.asF64 ops).bind F64.finite?
      some (x, y)
  | _ => none

/-- An array of three or more pairs. -/
def isRing (xs : List Json) : Bool := !decide (xs.length < 3) && xs.all isCoordPair

/-- `ring_from_value`. -/
def ringFromValue : Json → Option WorldRing
  | .arr xs => if isRing xs then some (xs.filterMap (coordPair ops)) else none
  | _ => none

/-- The exterior ring of a polygon, its first one. -/
def exteriorRing : Option Json → List WorldRing
  | some (.arr (ring :: _)) => (ringFromValue ops ring).toList
  | _ => []

/-- The exterior rings of a multi-polygon. -/
def exteriorRings : Option Json → List WorldRing
  | some (.arr polys) => polys.flatMap fun poly => exteriorRing ops (some poly)
  | _ => []

mutual

/-- `collect_rings_inner`. -/
def collectRingsInner : Json → List WorldRing
  | .obj fs =>
      match (fs.lookup "type").bind Json.asStr with
      | some "Polygon" => exteriorRing ops (fs.lookup "coordinates")
      | some "MultiPolygon" => exteriorRings ops (fs.lookup "coordinates")
      | some "Feature" => ringsAt "geometry" fs
      | some "FeatureCollection" => ringsOfItemsAt "features" fs
      | some "GeometryCollection" => ringsOfItemsAt "geometries" fs
      | _ => exteriorRing ops (fs.lookup "coordinates")
  | .arr xs =>
      match ringFromValue ops (.arr xs) with
      | some ring => [ring]
      | none => ringsOfItems xs
  | _ => []

/-- The rings of a member of an object. -/
def ringsAt (key : String) : List (String × Json) → List WorldRing
  | [] => []
  | (k, v) :: fs => if k = key then collectRingsInner v else ringsAt key fs

/-- The rings of the items under a member of an object. -/
def ringsOfItemsAt (key : String) : List (String × Json) → List WorldRing
  | [] => []
  | (k, .arr xs) :: fs => if k = key then ringsOfItems xs else ringsOfItemsAt key fs
  | (k, _) :: fs => if k = key then [] else ringsOfItemsAt key fs

/-- The rings of the items of an array. -/
def ringsOfItems : List Json → List WorldRing
  | [] => []
  | v :: vs => collectRingsInner v ++ ringsOfItems vs

end

/-- `collect_exterior_rings`. -/
def collectExteriorRings (v : Json) : List WorldRing := collectRingsInner ops v

end Rings

/-- How an evaluation ends without a result. -/
inductive Stop where
  | error (e : ExecError)
  | panic
deriving DecidableEq

/-- `map_err` to a text of the backend. -/
def orBackend {α : Type} (text : String → String) : Except String α → Except Stop α
  | .ok a => .ok a
  | .error e => .error (.error (.backend s!"aggregate_spatial: {text e}"))

/-- `ok_or_else` with a text about the arguments. -/
def orInvalid {α : Type} (text : String) : Option α → Except Stop α
  | some a => .ok a
  | none => .error (.error (.invalidGraph s!"aggregate_spatial: {text}"))

/-- The coordinate systems of GDAL, with the order of the axes that GIS uses. -/
structure Projections (σ : Type) where
  /-- `spatial_ref().ok()` of an open file. -/
  spatialRef : PathBuf → Option σ
  /-- `SpatialRef::from_epsg(4326)`. -/
  epsg4326 : Except String σ
  /-- `CoordTransform::new`, and `transform_coords` of the first and second coordinates. -/
  coordTransform : σ → σ → Except String (List ℚ → List ℚ → Except String (List ℚ × List ℚ))

/-- What is kept of a scene for all rings. -/
structure Scene where
  rows : Nat
  cols : Nat
  geoTransform : GeoTransform
  raster : List F64
  xform : Option (List ℚ → List ℚ → Except String (List ℚ × List ℚ))

section Scenes

variable {σ : Type} (P : Platform) (gdal : Gdal) (projections : Projections σ)

/-- `into_shape_and_vec`, row by row. -/
def toVec (a : Array2 F64) : List F64 :=
  (List.range a.rows).flatMap fun r => (List.range a.cols).map fun c => P.toF32 (a.elem r c)

/-- The transformation from EPSG:4326, unless the file has no spatial reference. -/
def openTransform (path : PathBuf) :
    Except Stop (Option (List ℚ → List ℚ → Except String (List ℚ × List ℚ))) :=
  match projections.spatialRef path with
  | none => .ok none
  | some sr => do
      let src ← orBackend (fun e => s!"epsg4326: {e}") projections.epsg4326
      let xform ← orBackend (fun e => s!"CoordTransform: {e}") (projections.coordTransform src sr)
      .ok (some xform)

/-- The head of the loop over the paths. -/
def openScene (path : PathBuf) : Except Stop Scene := do
  let ds ← orBackend (fun e => s!"open {path}: {e}") (gdal.openFile path)
  let gt ← orBackend (fun e => s!"geo_transform: {e}") ds.geoTransform
  let band ← orBackend (fun e => s!"rasterband: {e}") (ds.rasterband gdal 1)
  let buf ← orBackend (fun e => s!"read: {e}") (readAs gdal ds band (0, 0) (ds.cols, ds.rows))
  let xform ← openTransform projections path
  if gt.pixelWidth = 0 ∨ gt.pixelHeight = 0 then
    .error (.error (.backend "aggregate_spatial: degenerate geo_transform"))
  else .ok ⟨ds.rows, ds.cols, gt, toVec P buf, xform⟩

/-- The ring in the coordinates of the raster. -/
def inRaster (scene : Scene) (ring : WorldRing) : Except Stop (List ℚ × List ℚ) :=
  match scene.xform with
  | none => .ok (ring.map Prod.fst, ring.map Prod.snd)
  | some xform =>
      orBackend (fun e => s!"transform_coords: {e}") (xform (ring.map Prod.fst) (ring.map Prod.snd))

/-- The ring in pixels. -/
def pixelRing (scene : Scene) (xs ys : List ℚ) : PolygonRing :=
  let gt := scene.geoTransform
  ⟨(xs.zip ys).map fun p =>
    ((p.1 - gt.originX) / gt.pixelWidth, (p.2 - gt.originY) / gt.pixelHeight)⟩

/-- The data inside a mask. -/
def insideValues (mask : List Nat) (raster : List F64) : List F64 :=
  (mask.zip raster).filterMap fun p => if p.1 = 1 ∧ isData p.2 = true then some p.2 else none

/-- The body of the loop over the rings. -/
def ringValue (red : Reducer) (scene : Scene) (ring : WorldRing) : Except Stop Json := do
  let (xs, ys) ← inRaster scene ring
  let pixRing := pixelRing scene xs ys
  if pixRing.isValid then
    match rasterise pixRing scene.rows scene.cols with
    | none => .error .panic
    | some (.error _) => .ok .null
    | some (.ok mask) =>
        let vals := insideValues mask scene.raster
        if vals.isEmpty then .ok .null else .ok (Json.ofF64 (applyReducer P.f32 vals red))
  else .ok .null

/-- The body of the loop over the paths: every row gets one value more. -/
def addScene (red : Reducer) (rings : List WorldRing) (dataOut : List (List Json))
    (path : PathBuf) : Except Stop (List (List Json)) := do
  let scene ← openScene P gdal projections path
  let column ← rings.mapM (ringValue P red scene)
  .ok (List.zipWith (fun row v => row ++ [v]) dataOut column)

end Scenes

/-- What the arguments ask for. -/
structure Request where
  red : Reducer
  rings : List WorldRing
  bandKey : String
  paths : List PathBuf

section Process

variable {σ : Type} (errs : CubeEnvelope.SerdeErrors) (P : Platform) (gdal : Gdal)
  (projections : Projections σ)

/-- The single statistic of a reducer. -/
def builtinReducer (reducer : Json) : Except Stop Reducer :=
  match parseReducerSubgraph reducer with
  | .error e => .error (.error e)
  | .ok (.builtin r) => .ok r
  | .ok (.subGraph _) => .error (.error (.invalidGraph
      "aggregate_spatial: compound reducer callbacks are not supported; use a single statistical reducer (mean/min/max/sum/median/count/…)"))

/-- The picked band and its files. -/
def readBand (args : BTreeMap Json) : Except Stop (String × List PathBuf) := do
  let data ← orInvalid "missing `data`" (args.get "data")
  match CubeEnvelope.DataCube.fromEnvelopeOwned errs P.f64.toFloatOps data with
  | .error e => .error (.error (.invalidGraph
      s!"aggregate_spatial: input is not a cube: {e.toText}"))
  | .ok cube =>
      let bandKey ← orInvalid "cube has no usable band" (Handles.pickKey cube.bands.keys)
      match cube.bands.get bandKey with
      | none => .error (.error (.backend s!"aggregate_spatial: band `{bandKey}` vanished"))
      | some paths => .ok (bandKey, paths)

/-- The head of `eval_aggregate_spatial`, up to the loops. -/
def readArgs (args : BTreeMap Json) : Except Stop Request := do
  let reducer ← orInvalid "missing `reducer` callback" (args.get "reducer")
  let red ← builtinReducer reducer
  let geometries ← orInvalid "missing `geometries`" (args.get "geometries")
  let rings := collectExteriorRings P.f64.toFloatOps geometries
  if rings.isEmpty then
    .error (.error (.invalidGraph
      "aggregate_spatial: no polygon geometries found (expected GeoJSON polygons)"))
  else
    let (bandKey, paths) ← readBand errs P args
    .ok ⟨red, rings, bandKey, paths⟩

/-- The object that is returned. -/
def Request.reply (req : Request) (dataOut : List (List Json)) : Json :=
  .obj [("aggregate_spatial", .obj
    [("band", .str req.bandKey), ("data", .arr (dataOut.map .arr)),
      ("geometry_count", .num (.posInt req.rings.length)), ("reducer", .str req.red.name),
      ("scene_count", .num (.posInt req.paths.length))])]

/-- `eval_aggregate_spatial`. -/
def evalAggregateSpatial (args : BTreeMap Json) : Except Stop Json := do
  let req ← readArgs errs P args
  let dataOut ← req.paths.foldlM (addScene P gdal projections req.red req.rings)
    (List.replicate req.rings.length [])
  .ok (req.reply dataOut)

end Process

section Geometries

variable (ops : FloatOps)

/-- The items under a member of an object. -/
def itemsAt (key : String) (fs : List (String × Json)) : List Json :=
  match fs.lookup key with
  | some (.arr xs) => xs
  | _ => []

/-- The input geometries: the members of a collection, those of an array that is no ring, and
otherwise the argument itself. -/
def members : Json → List Json
  | .obj fs =>
      match (fs.lookup "type").bind Json.asStr with
      | some "FeatureCollection" => itemsAt "features" fs
      | some "GeometryCollection" => itemsAt "geometries" fs
      | _ => [.obj fs]
  | .arr xs => if isRing xs then [.arr xs] else xs
  | v => [v]

/-- The coordinates of a polygon. -/
def isPolygon : Json → Bool
  | .arr (.arr ring :: _) => isRing ring
  | _ => false

mutual

/-- How many polygons a geometry holds. -/
def polygonCount : Json → Nat
  | .obj fs =>
      match (fs.lookup "type").bind Json.asStr with
      | some "MultiPolygon" => (itemsAt "coordinates" fs).countP isPolygon
      | some "Feature" => countAt "geometry" fs
      | some "FeatureCollection" => countOfItemsAt "features" fs
      | some "GeometryCollection" => countOfItemsAt "geometries" fs
      | _ => ((fs.lookup "coordinates").toList).countP isPolygon
  | .arr xs => if isRing xs then 1 else countOfItems xs
  | _ => 0

/-- The polygons of a member of an object. -/
def countAt (key : String) : List (String × Json) → Nat
  | [] => 0
  | (k, v) :: fs => if k = key then polygonCount v else countAt key fs

/-- The polygons of the items under a member of an object. -/
def countOfItemsAt (key : String) : List (String × Json) → Nat
  | [] => 0
  | (k, .arr xs) :: fs => if k = key then countOfItems xs else countOfItemsAt key fs
  | (k, _) :: fs => if k = key then 0 else countOfItemsAt key fs

/-- The polygons of the items of an array. -/
def countOfItems : List Json → Nat
  | [] => 0
  | v :: vs => polygonCount v + countOfItems vs

end

theorem ringsOfItems_eq (vs : List Json) :
    ringsOfItems ops vs = vs.flatMap (collectExteriorRings ops) := by
  induction vs with
  | nil =>
      rfl
  | cons v vs ih =>
      rw [ringsOfItems, ih]
      rfl

theorem ringsOfItemsAt_eq (key : String) (fs : List (String × Json)) :
    ringsOfItemsAt ops key fs = (itemsAt key fs).flatMap (collectExteriorRings ops) := by
  induction fs with
  | nil =>
      rfl
  | cons e fs ih =>
      obtain ⟨k, v⟩ := e
      rw [itemsAt, BTreeMap.lookup_cons_ite]
      by_cases hk : k = key
      · subst hk
        cases v <;> simp [ringsOfItemsAt, ringsOfItems_eq]
      · rw [if_neg (Ne.symm hk), ← itemsAt, ← ih]
        cases v <;> simp [ringsOfItemsAt, hk]

/-- The rings of an argument are those of its geometries, one after the other. -/
theorem collectExteriorRings_eq (v : Json) :
    collectExteriorRings ops v = (members v).flatMap (collectExteriorRings ops) := by
  cases v with
  | obj fs =>
      rw [members]
      split
      case h_1 htype =>
        rw [collectExteriorRings, collectRingsInner, htype]
        exact ringsOfItemsAt_eq ops "features" fs
      case h_2 htype =>
        rw [collectExteriorRings, collectRingsInner, htype]
        exact ringsOfItemsAt_eq ops "geometries" fs
      case h_3 =>
        exact (List.flatMap_singleton _ _).symm
  | arr xs =>
      rw [members]
      split
      case isTrue =>
        exact (List.flatMap_singleton _ _).symm
      case isFalse hring =>
        rw [collectExteriorRings, collectRingsInner, ringFromValue, if_neg hring]
        exact ringsOfItems_eq ops xs
  | _ =>
      exact (List.flatMap_singleton _ _).symm

theorem length_ringFromValue (v : Json) :
    (ringFromValue ops v).toList.length = if isPolygon (.arr [v]) then 1 else 0 := by
  cases v with
  | arr xs =>
      rw [ringFromValue, isPolygon]
      split <;> rfl
  | _ =>
      rfl

theorem length_exteriorRing (coords : Json) :
    (exteriorRing ops (some coords)).length = if isPolygon coords then 1 else 0 := by
  cases coords with
  | arr xs =>
      cases xs with
      | nil =>
          rfl
      | cons ring holes =>
          rw [exteriorRing, length_ringFromValue]
          cases ring <;> rfl
  | _ =>
      rfl

theorem length_exteriorRings (polys : List Json) :
    (exteriorRings ops (some (.arr polys))).length = polys.countP isPolygon := by
  rw [exteriorRings, List.length_flatMap]
  induction polys with
  | nil =>
      rfl
  | cons poly polys ih =>
      rw [List.map_cons, List.sum_cons, ih, length_exteriorRing, List.countP_cons, Nat.add_comm]

mutual

/-- Every polygon gives a ring. -/
theorem length_collectRingsInner : ∀ v : Json,
    (collectRingsInner ops v).length = polygonCount v
  | .obj fs => by
      have hsimple : (exteriorRing ops (fs.lookup "coordinates")).length =
          (fs.lookup "coordinates").toList.countP isPolygon := by
        cases fs.lookup "coordinates" with
        | none =>
            rfl
        | some coords =>
            rw [length_exteriorRing, Option.toList_some, List.countP_singleton]
      have hmulti : (exteriorRings ops (fs.lookup "coordinates")).length =
          (itemsAt "coordinates" fs).countP isPolygon := by
        rw [itemsAt]
        cases fs.lookup "coordinates" with
        | none =>
            rfl
        | some coords =>
            cases coords with
            | arr polys => exact length_exteriorRings ops polys
            | _ => rfl
      unfold collectRingsInner polygonCount
      split <;> simp_all [length_ringsAt fs, length_ringsOfItemsAt fs]
  | .arr xs => by
      unfold collectRingsInner polygonCount
      rw [ringFromValue]
      split <;> split <;> simp_all [length_ringsOfItems xs]
  | .null => rfl
  | .bool _ => rfl
  | .num _ => rfl
  | .str _ => rfl

theorem length_ringsAt {key : String} : ∀ fs : List (String × Json),
    (ringsAt ops key fs).length = countAt key fs
  | [] => rfl
  | (k, v) :: fs => by
      unfold ringsAt countAt
      split
      · exact length_collectRingsInner v
      · exact length_ringsAt fs

theorem length_ringsOfItemsAt {key : String} : ∀ fs : List (String × Json),
    (ringsOfItemsAt ops key fs).length = countOfItemsAt key fs
  | [] => rfl
  | (k, .arr xs) :: fs => by
      unfold ringsOfItemsAt countOfItemsAt
      split
      · exact length_ringsOfItems xs
      · exact length_ringsOfItemsAt fs
  | (k, .obj _) :: fs | (k, .null) :: fs | (k, .bool _) :: fs | (k, .num _) :: fs
  | (k, .str _) :: fs => by
      unfold ringsOfItemsAt countOfItemsAt
      split
      · rfl
      · exact length_ringsOfItemsAt fs

theorem length_ringsOfItems : ∀ vs : List Json,
    (ringsOfItems ops vs).length = countOfItems vs
  | [] => rfl
  | v :: vs => by
      rw [ringsOfItems, countOfItems, List.length_append, length_collectRingsInner v,
        length_ringsOfItems vs]

end

end Geometries

section Rows

variable {σ : Type} (errs : CubeEnvelope.SerdeErrors) (P : Platform) (gdal : Gdal)
  (projections : Projections σ)

/-- The value of a ring at the scene of a path. -/
def pathValue (red : Reducer) (ring : WorldRing) (path : PathBuf) : Except Stop Json := do
  let scene ← openScene P gdal projections path
  ringValue P red scene ring

/-- The values of a ring at all scenes. -/
def IsRow (red : Reducer) (paths : List PathBuf) (ring : WorldRing) (row : List Json) : Prop :=
  List.Forall₂ (fun path v => pathValue P gdal projections red ring path = .ok v) paths row

variable {errs P gdal projections}

theorem isRow_cons_iff {red : Reducer} {path : PathBuf} {paths : List PathBuf} {ring : WorldRing}
    {row : List Json} :
    IsRow P gdal projections red (path :: paths) ring row ↔
      ∃ scene v rest, openScene P gdal projections path = .ok scene ∧
        ringValue P red scene ring = .ok v ∧
        IsRow P gdal projections red paths ring rest ∧ row = v :: rest := by
  rw [IsRow, List.forall₂_cons_left_iff]
  constructor
  · rintro ⟨v, rest, hv, hrest, rfl⟩
    obtain ⟨scene, hscene, hvalue⟩ := bind_eq_ok_iff.mp hv
    exact ⟨scene, v, rest, hscene, hvalue, hrest, rfl⟩
  · rintro ⟨scene, v, rest, hscene, hvalue, hrest, rfl⟩
    exact ⟨v, rest, bind_eq_ok_iff.mpr ⟨scene, hscene, hvalue⟩, hrest, rfl⟩

theorem addScene_eq_ok_iff {red : Reducer} {rings : List WorldRing} {dataOut out : List (List Json)}
    {path : PathBuf} :
    addScene P gdal projections red rings dataOut path = .ok out ↔
      ∃ scene column, openScene P gdal projections path = .ok scene ∧
        List.Forall₂ (fun ring v => ringValue P red scene ring = .ok v) rings column ∧
        out = List.zipWith (fun row v => row ++ [v]) dataOut column := by
  rw [addScene, bind_eq_ok_iff]
  simp only [bind_eq_ok_iff, mapM_eq_ok_iff]
  constructor
  · rintro ⟨scene, hscene, column, hcolumn, hout⟩
    cases hout
    exact ⟨scene, column, hscene, hcolumn, rfl⟩
  · rintro ⟨scene, column, hscene, hcolumn, rfl⟩
    exact ⟨scene, hscene, column, hcolumn, rfl⟩

theorem forall₂_isRow_nil {red : Reducer} {rings : List WorldRing} {rows : List (List Json)} :
    List.Forall₂ (IsRow P gdal projections red []) rings rows ↔
      rows = List.replicate rings.length [] := by
  induction rings generalizing rows with
  | nil =>
      rw [List.forall₂_nil_left_iff]
      rfl
  | cons ring rings ih =>
      simp [List.forall₂_cons_left_iff, ih, IsRow, List.replicate_succ]

theorem zipWith_append_nil (dataOut : List (List Json)) :
    List.zipWith (· ++ ·) dataOut (List.replicate dataOut.length []) = dataOut := by
  induction dataOut with
  | nil =>
      rfl
  | cons row dataOut ih =>
      rw [List.length_cons, List.replicate_succ, List.zipWith_cons_cons, ih, List.append_nil]

/-- Appending one column and then more of them. -/
theorem zipWith_append_column {dataOut rest : List (List Json)} {column : List Json} :
    List.zipWith (· ++ ·) (List.zipWith (fun row v => row ++ [v]) dataOut column) rest =
      List.zipWith (· ++ ·) dataOut (List.zipWith (· :: ·) column rest) := by
  induction dataOut generalizing column rest with
  | nil =>
      rfl
  | cons row dataOut ih =>
      cases column with
      | nil =>
          rfl
      | cons v column =>
          cases rest with
          | nil =>
              rfl
          | cons vs rest =>
              simp [ih]

theorem zipWith_nil_append (rows : List (List Json)) :
    List.zipWith (· ++ ·) (List.replicate rows.length []) rows = rows := by
  induction rows with
  | nil =>
      rfl
  | cons row rows ih =>
      rw [List.length_cons, List.replicate_succ, List.zipWith_cons_cons, ih, List.nil_append]

theorem forall₂_isRow_cons {red : Reducer} {path : PathBuf} {paths : List PathBuf}
    {rings : List WorldRing} {rows : List (List Json)} (hrings : rings ≠ []) :
    List.Forall₂ (IsRow P gdal projections red (path :: paths)) rings rows ↔
      ∃ scene column rest, openScene P gdal projections path = .ok scene ∧
        List.Forall₂ (fun ring v => ringValue P red scene ring = .ok v) rings column ∧
        List.Forall₂ (IsRow P gdal projections red paths) rings rest ∧
        rows = List.zipWith (· :: ·) column rest := by
  constructor
  · intro h
    obtain ⟨scene, hscene⟩ : ∃ scene, openScene P gdal projections path = .ok scene := by
      obtain ⟨ring, hring⟩ := List.exists_mem_of_ne_nil rings hrings
      obtain ⟨row, -, hrow⟩ := forall₂_exists_right h hring
      obtain ⟨scene, -, -, hscene, -⟩ := isRow_cons_iff.mp hrow
      exact ⟨scene, hscene⟩
    refine ⟨scene, ?_⟩
    clear hrings
    induction h with
    | nil =>
        exact ⟨[], [], hscene, .nil, .nil, rfl⟩
    | cons hrow _ ih =>
        obtain ⟨column, rest, -, hcolumn, hrest, rfl⟩ := ih
        obtain ⟨scene', v, vs, hscene', hv, hvs, rfl⟩ := isRow_cons_iff.mp hrow
        cases hscene.symm.trans hscene'
        exact ⟨v :: column, vs :: rest, hscene, .cons hv hcolumn, .cons hvs hrest, rfl⟩
  · rintro ⟨scene, column, rest, hscene, hcolumn, hrest, rfl⟩
    clear hrings
    induction hcolumn generalizing rest with
    | nil =>
        cases hrest
        exact .nil
    | cons hv _ ih =>
        cases hrest with
        | cons hvs hrest =>
            exact .cons (isRow_cons_iff.mpr ⟨scene, _, _, hscene, hv, hvs, rfl⟩) (ih _ hrest)

/-- What the loop over the paths leaves: every row with its values appended. -/
theorem foldlM_addScene_eq_ok_iff {red : Reducer} {rings : List WorldRing} (hrings : rings ≠ [])
    {paths : List PathBuf} {dataOut out : List (List Json)} (hlen : dataOut.length = rings.length) :
    paths.foldlM (addScene P gdal projections red rings) dataOut = .ok out ↔
      ∃ rows, List.Forall₂ (IsRow P gdal projections red paths) rings rows ∧
        out = List.zipWith (· ++ ·) dataOut rows := by
  induction paths generalizing dataOut with
  | nil =>
      have hsame : List.zipWith (· ++ ·) dataOut (List.replicate rings.length []) = dataOut := by
        rw [← hlen]
        exact zipWith_append_nil dataOut
      simp only [forall₂_isRow_nil, exists_eq_left, hsame]
      exact ⟨fun h => (Except.ok.inj h).symm, fun h => congrArg Except.ok h.symm⟩
  | cons path paths ih =>
      rw [List.foldlM_cons, bind_eq_ok_iff]
      simp only [addScene_eq_ok_iff, forall₂_isRow_cons hrings]
      constructor
      · rintro ⟨mid, ⟨scene, column, hscene, hcolumn, rfl⟩, h⟩
        have hmid : (List.zipWith (fun row v => row ++ [v]) dataOut column).length =
            rings.length := by
          rw [List.length_zipWith, hlen, hcolumn.length_eq, Nat.min_self]
        obtain ⟨rows, hrows, rfl⟩ := (ih hmid).mp h
        exact ⟨_, ⟨scene, column, rows, hscene, hcolumn, hrows, rfl⟩, zipWith_append_column⟩
      · rintro ⟨_, ⟨scene, column, rows, hscene, hcolumn, hrows, rfl⟩, rfl⟩
        have hmid : (List.zipWith (fun row v => row ++ [v]) dataOut column).length =
            rings.length := by
          rw [List.length_zipWith, hlen, hcolumn.length_eq, Nat.min_self]
        exact ⟨_, ⟨scene, column, hscene, hcolumn, rfl⟩,
          (ih hmid).mpr ⟨rows, hrows, zipWith_append_column.symm⟩⟩

theorem orInvalid_eq_ok_iff {α : Type} {text : String} {x : Option α} {a : α} :
    orInvalid text x = .ok a ↔ x = some a := by
  cases x <;> simp [orInvalid]

theorem readArgs_eq_ok_iff {args : BTreeMap Json} {req : Request} :
    readArgs errs P args = .ok req ↔
      (∃ reducer, args.get "reducer" = some reducer ∧ builtinReducer reducer = .ok req.red) ∧
        (∃ geometries, args.get "geometries" = some geometries ∧
          req.rings = collectExteriorRings P.f64.toFloatOps geometries) ∧
        req.rings ≠ [] ∧ readBand errs P args = .ok (req.bandKey, req.paths) := by
  simp only [readArgs, bind_eq_ok_iff, orInvalid_eq_ok_iff]
  constructor
  · rintro ⟨reducer, hreducer, red, hred, geometries, hgeometries, h⟩
    split at h
    case isTrue =>
      cases h
    case isFalse hrings =>
      obtain ⟨⟨bandKey, paths⟩, hband, h⟩ := bind_eq_ok_iff.mp h
      cases h
      exact ⟨⟨reducer, hreducer, hred⟩, ⟨geometries, hgeometries, rfl⟩,
        fun hnil => hrings (List.isEmpty_iff.mpr hnil), hband⟩
  · rintro ⟨⟨reducer, hreducer, hred⟩, ⟨geometries, hgeometries, hrings⟩, hne, hband⟩
    refine ⟨reducer, hreducer, req.red, hred, geometries, hgeometries, ?_⟩
    rw [← hrings, if_neg (mt List.isEmpty_iff.mp hne)]
    exact bind_eq_ok_iff.mpr ⟨_, hband, rfl⟩

theorem readBand_insert (args : BTreeMap Json) (m : Json) :
    readBand errs P (args.insert "geometries" m) = readBand errs P args := by
  have hdata : (args.insert "geometries" m).get "data" = args.get "data" := by
    rw [BTreeMap.get_insert, if_neg (by decide)]
  rw [readBand, hdata, readBand]

/-- With other geometries the request differs in its rings. -/
theorem readArgs_insert {args : BTreeMap Json} {req : Request}
    (h : readArgs errs P args = .ok req) (m : Json) (req' : Request) :
    readArgs errs P (args.insert "geometries" m) = .ok req' ↔
      collectExteriorRings P.f64.toFloatOps m ≠ [] ∧
        req' = { req with rings := collectExteriorRings P.f64.toFloatOps m } := by
  obtain ⟨⟨reducer, hreducer, hred⟩, -, -, hband⟩ := readArgs_eq_ok_iff.mp h
  have hget : (args.insert "geometries" m).get "reducer" = some reducer := by
    rw [BTreeMap.get_insert, if_neg (by decide), hreducer]
  simp only [readArgs_eq_ok_iff, hget, BTreeMap.get_insert_self, readBand_insert, hband,
    Option.some.injEq, exists_eq_left', hred, Except.ok.injEq, Prod.mk.injEq]
  obtain ⟨red, rings, bandKey, paths⟩ := req'
  constructor
  · rintro ⟨rfl, rfl, hne, rfl, rfl⟩
    exact ⟨hne, rfl⟩
  · rintro ⟨hne, heq⟩
    cases heq
    exact ⟨rfl, rfl, hne, rfl, rfl⟩

theorem evalAggregateSpatial_eq_ok_iff {args : BTreeMap Json} {out : Json} :
    evalAggregateSpatial errs P gdal projections args = .ok out ↔
      ∃ req rows, readArgs errs P args = .ok req ∧
        List.Forall₂ (IsRow P gdal projections req.red req.paths) req.rings rows ∧
        out = req.reply rows := by
  constructor
  · intro h
    obtain ⟨req, hreq, h⟩ := bind_eq_ok_iff.mp h
    obtain ⟨dataOut, hdata, h⟩ := bind_eq_ok_iff.mp h
    have hrings := (readArgs_eq_ok_iff.mp hreq).2.2.1
    obtain ⟨rows, hrows, rfl⟩ :=
      (foldlM_addScene_eq_ok_iff hrings List.length_replicate).mp hdata
    cases h
    refine ⟨req, rows, hreq, hrows, ?_⟩
    rw [hrows.length_eq, zipWith_nil_append]
  · rintro ⟨req, rows, hreq, hrows, rfl⟩
    have hrings := (readArgs_eq_ok_iff.mp hreq).2.2.1
    refine bind_eq_ok_iff.mpr ⟨req, hreq, bind_eq_ok_iff.mpr ⟨rows, ?_, rfl⟩⟩
    refine (foldlM_addScene_eq_ok_iff hrings List.length_replicate).mpr ⟨rows, hrows, ?_⟩
    rw [hrows.length_eq, zipWith_nil_append]

/-- The rows of a reply. -/
def dataRows (out : Json) : Option (List Json) :=
  match (out.get "aggregate_spatial").bind (Json.get · "data") with
  | some (.arr rows) => some rows
  | _ => none

/-- The row is that of the geometry alone, and its values are the statistics of the scenes over
a polygon of the geometry. -/
structure IsRowOf {σ : Type} (errs : CubeEnvelope.SerdeErrors) (P : Platform) (gdal : Gdal)
    (projections : Projections σ) (args : BTreeMap Json) (req : Request) (m row : Json) : Prop where
  alone : ∃ out, evalAggregateSpatial errs P gdal projections (args.insert "geometries" m) = .ok out ∧
    dataRows out = some [row]
  statistics : ∃ ring ∈ collectExteriorRings P.f64.toFloatOps m, ∃ vs, row = .arr vs ∧
    IsRow P gdal projections req.red req.paths ring vs

theorem dataRows_reply (req : Request) (rows : List (List Json)) :
    dataRows (req.reply rows) = some (rows.map .arr) := rfl

/-- Where every element gives one item, the items stand for the elements. -/
theorem forall₂_of_flatMap {α β γ : Type} {f : α → List β} {R : β → γ → Prop} {as : List α}
    {cs : List γ} (hone : ∀ a ∈ as, (f a).length = 1) (h : List.Forall₂ R (as.flatMap f) cs) :
    List.Forall₂ (fun a c => ∃ b, f a = [b] ∧ R b c) as cs := by
  induction as generalizing cs with
  | nil =>
      cases h
      exact .nil
  | cons a as ih =>
      obtain ⟨ha, has⟩ := List.forall_mem_cons.mp hone
      obtain ⟨b, hb⟩ := List.length_eq_one_iff.mp ha
      rw [List.flatMap_cons, hb, List.singleton_append] at h
      cases h with
      | cons hR h =>
          exact .cons ⟨b, hb, hR⟩ (ih has h)

/-- A geometry with one ring has the row of the ring. -/
theorem isRowOf_of_ring {args : BTreeMap Json} {req : Request} {m : Json} {ring : WorldRing}
    {row : List Json} (hreq : readArgs errs P args = .ok req)
    (hring : collectExteriorRings P.f64.toFloatOps m = [ring])
    (hrow : IsRow P gdal projections req.red req.paths ring row) :
    IsRowOf errs P gdal projections args req m (.arr row) where
  alone := by
    refine ⟨_, evalAggregateSpatial_eq_ok_iff.mpr ⟨{ req with rings := [ring] }, [row], ?_,
      .cons hrow .nil, rfl⟩, rfl⟩
    rw [readArgs_insert hreq, hring]
    exact ⟨List.cons_ne_nil _ _, rfl⟩
  statistics := ⟨ring, hring ▸ List.mem_singleton_self ring, row, rfl, hrow⟩

/-- A geometry with a row of its own holds one polygon. -/
theorem IsRowOf.polygonCount_eq {args : BTreeMap Json} {req : Request} {m row : Json}
    (hreq : readArgs errs P args = .ok req)
    (h : IsRowOf errs P gdal projections args req m row) : polygonCount m = 1 := by
  obtain ⟨out, hout, hrows⟩ := h.alone
  obtain ⟨req', rows, hreq', hforall, rfl⟩ := evalAggregateSpatial_eq_ok_iff.mp hout
  obtain ⟨-, rfl⟩ := (readArgs_insert hreq m req').mp hreq'
  rw [dataRows_reply] at hrows
  have hone := congrArg List.length (Option.some.inj hrows)
  rw [List.length_map, ← hforall.length_eq, collectExteriorRings, length_collectRingsInner] at hone
  exact hone

end Rows

/-- The rows stand for the geometries if every geometry holds one polygon. -/
theorem rows_aligned_iff {σ : Type} (errs : CubeEnvelope.SerdeErrors) (P : Platform) (gdal : Gdal)
    (projections : Projections σ) (args : BTreeMap Json) (geometries out : Json)
    (hgeometries : args.get "geometries" = some geometries)
    (h : evalAggregateSpatial errs P gdal projections args = .ok out) :
    (∃ req rows, readArgs errs P args = .ok req ∧ dataRows out = some rows ∧
        List.Forall₂ (IsRowOf errs P gdal projections args req) (members geometries) rows) ↔
      ∀ m ∈ members geometries, polygonCount m = 1 := by
  obtain ⟨req, rows, hreq, hrows, rfl⟩ := evalAggregateSpatial_eq_ok_iff.mp h
  constructor
  · rintro ⟨req', rows', hreq', -, hforall⟩ m hm
    obtain ⟨row, -, hrow⟩ := forall₂_exists_right hforall hm
    exact hrow.polygonCount_eq hreq'
  · intro hone
    refine ⟨req, rows.map .arr, hreq, dataRows_reply req rows, ?_⟩
    obtain ⟨-, ⟨_, hget, hrings⟩, -, -⟩ := readArgs_eq_ok_iff.mp hreq
    cases hgeometries.symm.trans hget
    rw [hrings, collectExteriorRings_eq] at hrows
    have hlength : ∀ m ∈ members geometries,
        (collectExteriorRings P.f64.toFloatOps m).length = 1 := by
      intro m hm
      rw [collectExteriorRings, length_collectRingsInner, hone m hm]
    rw [List.forall₂_map_right_iff]
    refine (forall₂_of_flatMap hlength hrows).imp fun m row hrow => ?_
    obtain ⟨ring, hring, hvalues⟩ := hrow
    exact isRowOf_of_ring hreq hring hvalues

/-- A file with one row of two pixels. -/
def stripFile : GdalFile where
  rows := 1
  cols := 2
  rows_pos := Nat.one_pos
  cols_pos := Nat.two_pos
  bands := [fun _ col => .finite (5 + 2 * col)]
  geoTransform := .ok ⟨0, 1, 0, 0, 0, 1⟩
  epsg := none

/-- Every path leads to the file. -/
def stripGdal : Gdal where
  pathExists _ := true
  openFile _ := .ok stripFile
  bandError := "no such band"
  windowError := "no such window"

/-- No file has a spatial reference. -/
def noProjections : Projections Unit where
  spatialRef _ := none
  epsg4326 := .ok ()
  coordTransform _ _ := .error "no transformation"

/-- Errors without a text. -/
def plainErrs : CubeEnvelope.SerdeErrors := ⟨fun _ _ => "", fun _ _ => "", fun _ _ => ""⟩

/-- The square of one pixel. -/
def squareFeature (x : Nat) : Json :=
  let pair (a b : Nat) : Json := .arr [.num (.posInt a), .num (.posInt b)]
  .obj [("type", .str "Feature"), ("geometry", .obj [("type", .str "Polygon"),
    ("coordinates", .arr [.arr [pair x 0, pair (x + 1) 0, pair (x + 1) 1, pair x 1]])])]

/-- A feature without a polygon. -/
def pointFeature : Json :=
  .obj [("type", .str "Feature"), ("geometry", .obj [("type", .str "Point"),
    ("coordinates", .arr [.num (.posInt 0), .num (.posInt 0)])])]

/-- A collection of features. -/
def featureCollection (features : List Json) : Json :=
  .obj [("type", .str "FeatureCollection"), ("features", .arr features)]

/-- The arguments of a mean over a collection. -/
def meanArgs (features : List Json) : BTreeMap Json :=
  BTreeMap.ofEntries [
    ("data", .obj [("__cube", .obj [("bands", .obj [("B04", .arr [.str "b04.tif"])])])]),
    ("geometries", featureCollection features),
    ("reducer", .obj [("process_graph", .obj [("m", .obj [("process_id", .str "mean"),
      ("arguments", .obj []), ("result", .bool true)])])])]

/-- The number of rows that are returned. -/
def rowCount : Except Stop Json → Option Nat
  | .ok out => (dataRows out).map List.length
  | .error _ => none

theorem rowCount_eq_some_iff {r : Except Stop Json} {n : Nat} :
    rowCount r = some n ↔ ∃ out rows, r = .ok out ∧ dataRows out = some rows ∧ rows.length = n := by
  cases r with
  | error e =>
      simp [rowCount]
  | ok out =>
      simp [rowCount]

theorem rows_aligned_iff_sample :
    ∃ out, evalAggregateSpatial plainErrs .exact stripGdal noProjections
        (meanArgs [squareFeature 0, squareFeature 1]) = .ok out ∧
      ((∃ req rows, readArgs plainErrs .exact (meanArgs [squareFeature 0, squareFeature 1]) = .ok req ∧
          dataRows out = some rows ∧
          List.Forall₂ (IsRowOf plainErrs .exact stripGdal noProjections
            (meanArgs [squareFeature 0, squareFeature 1]) req)
            (members (featureCollection [squareFeature 0, squareFeature 1])) rows) ↔
        ∀ m ∈ members (featureCollection [squareFeature 0, squareFeature 1]),
          polygonCount m = 1) := by
  have htwo : rowCount (evalAggregateSpatial plainErrs .exact stripGdal noProjections
      (meanArgs [squareFeature 0, squareFeature 1])) = some 2 := by
    decide +kernel
  obtain ⟨out, -, hout, -⟩ := rowCount_eq_some_iff.mp htwo
  exact ⟨out, hout, rows_aligned_iff plainErrs .exact stripGdal noProjections
    (meanArgs [squareFeature 0, squareFeature 1])
    (featureCollection [squareFeature 0, squareFeature 1]) out rfl hout⟩

/-- A point is left out, and its row is that of the square behind it. -/
theorem point_leftOut :
    (members (featureCollection [pointFeature, squareFeature 0])).length = 2 ∧
      ∃ out rows, evalAggregateSpatial plainErrs .exact stripGdal noProjections
          (meanArgs [pointFeature, squareFeature 0]) = .ok out ∧
        dataRows out = some rows ∧ rows.length = 1 :=
  ⟨rfl, rowCount_eq_some_iff.mp (by decide +kernel)⟩

end PolygonStatistics
end OrbitOpenEO
