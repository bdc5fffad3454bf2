import OrbitOpenEO.CubeOps
import OrbitOpenEO.FileCache

/-!
# Loading a collection

`load_collection` takes the scenes a STAC search has found and makes a cube of
them.  The eager path downloads every requested band of every scene, with all
downloads running at once; the streaming path writes a small virtual raster for
each of them instead.  Both put the paths into one slot for each scene and band,
drop the bands that some scene lacks, and write the cube by hand.

The model starts where the search has answered.  The order in which the tasks
finish is a parameter.  A load fails with the first task that fails; what becomes of
the others is in `SpawnedTasks`.
-/

namespace OrbitOpenEO

open Lib

/-- `BandMetadata`: what the eager path reads of it. -/
structure BandMetadata where
  scale : Option ℚ
  offset : Option ℚ

/-- `StacScene`. -/
structure StacScene where
  id : String
  bands : BTreeMap String
  bandMetadata : BTreeMap BandMetadata
  datetime : Option String

/-- `band_aliases`. -/
def bandAliases (band : String) : List String :=
  match band with
  | "B01" => ["coastal", "B1"]
  | "B02" => ["blue", "B2"]
  | "B03" => ["green", "B3"]
  | "B04" => ["red", "Red", "B4"]
  | "B05" => ["rededge1", "rededge", "B5"]
  | "B06" => ["rededge2", "B6"]
  | "B07" => ["rededge3", "B7"]
  | "B08" => ["nir", "Nir", "NIR", "B8"]
  | "B8A" => ["nir08", "B8a"]
  | "B09" => ["nir09", "watervapor", "B9"]
  | "B11" => ["swir16", "SWIR16", "B11_swir"]
  | "B12" => ["swir22", "SWIR22", "B12_swir"]
  | "SCL" => ["scl"]
  | _ => []

/-- The entry of a band, or else of the first of its aliases that has one. -/
def resolveAlias {α : Type} (m : BTreeMap α) (band : String) : Option α :=
  (m.get band).or ((bandAliases band).findSome? m.get)

/-- `resolve_band_href`. -/
def resolveBandHref (scene : StacScene) (band : String) : Option String :=
  resolveAlias scene.bands band

/-- `resolve_band_metadata`. -/
def resolveBandMetadata (scene : StacScene) (band : String) : Option BandMetadata :=
  resolveAlias scene.bandMetadata band

/-- `char::is_whitespace`. -/
def isWhiteSpace (c : Char) : Bool :=
  let n := c.toNat
  (9 ≤ n && n ≤ 13) || n == 32 || n == 0x85 || n == 0xA0 || n == 0x1680 ||
    (0x2000 ≤ n && n ≤ 0x200A) || n == 0x2028 || n == 0x2029 || n == 0x202F || n == 0x205F ||
    n == 0x3000

/-- `str::trim`. -/
def trimChars (cs : List Char) : List Char :=
  ((cs.dropWhile isWhiteSpace).reverse.dropWhile isWhiteSpace).reverse

/-- `splitn(2, "://").nth(1)`. -/
def afterScheme : List Char → List Char
  | [] => []
  | c :: cs =>
      if "://".toList.isPrefixOf (c :: cs) then (c :: cs).drop 3 else afterScheme cs

/-- The host of a URL: without path, credentials and port. -/
def hostOf (href : String) : List Char :=
  let authority := (afterScheme href.toList).takeWhile (fun c => !(['/', '?', '#'].contains c))
  let host := (authority.reverse.takeWhile (· ≠ '@')).reverse
  host.takeWhile (· ≠ ':')

/-- `parse::<u8>()`. -/
def parseU8 (cs : List Char) : Option Nat :=
  let digits :=
    match cs with
    | '+' :: ds => ds
    | ds => ds
  if digits.isEmpty || !digits.all Char.isDigit then none
  else
    let n := digits.foldl (fun acc d => 10 * acc + (d.toNat - '0'.toNat)) 0
    if n ≤ 255 then some n else none

/-- `is_private_172`. -/
def isPrivate172 (h : List Char) : Bool :=
  if "172.".toList.isPrefixOf h then
    match parseU8 ((h.drop 4).takeWhile (· ≠ '.')) with
    | some n => 16 ≤ n && n ≤ 31
    | none => false
  else false

/-- `validate_asset_href`. -/
def validateAssetHref (href : String) : Except ExecError Unit :=
  let lower := href.toList.map Char.toLower
  let isS3 := "s3://".toList.isPrefixOf lower
  if !("https://".toList.isPrefixOf lower || "http://".toList.isPrefixOf lower || isS3) then
    .error (.invalidGraph
      s!"load_collection: asset href scheme not allowed (only http/https/s3): {href}")
  else
    let host := hostOf href
    let h := (trimChars host).map Char.toLower
    let starts (p : String) : Bool := p.toList.isPrefixOf h
    let blocked := h.isEmpty || h == "localhost".toList || h == "169.254.169.254".toList ||
      h == "metadata.google.internal".toList || starts "127." || starts "0." || starts "10." ||
      starts "192.168." || starts "169.254." || starts "[" || isPrivate172 h ||
      (!isS3 && !h.contains '.')
    if blocked then
      .error (.invalidGraph
        s!"load_collection: asset href host '{String.ofList host}' is blocked by the SSRF guard")
    else .ok ()

/-- `vsicurl_path`. -/
def vsicurlPath (href : String) : Except ExecError PathBuf :=
  if "https://".toList.isPrefixOf href.toList || "http://".toList.isPrefixOf href.toList then
    .ok s!"/vsicurl/{href}"
  else .error (.invalidGraph s!"P3 (ORBIT_VSICURL_STREAM): refusing non-http(s) href `{href}`")

/-- What a node asks for, and where. -/
structure LoadRequest where
  id : String
  crop : CropWindow
  crs : String
  bands : List String

/-- One band of one scene to be fetched. -/
structure FetchTask where
  scene : Nat
  band : String
  href : String

/-- The tasks of one scene. -/
def sceneTasks (bands : List String) (s : StacScene × Nat) : List FetchTask :=
  bands.filterMap (fun band => (resolveBandHref s.1 band).map (fun href => ⟨s.2, band, href⟩))

/-- The tasks of a call, scene by scene. -/
def loadTasks (scenes : List StacScene) (bands : List String) : List FetchTask :=
  scenes.zipIdx.flatMap (sceneTasks bands)

/-- Check every task before the first one runs. -/
def checkTasks (check : String → Except ExecError Unit) : List FetchTask → Except ExecError Unit
  | [] => .ok ()
  | t :: ts => do
      check t.href
      checkTasks check ts

/-- The path a task has delivered for its scene and band. -/
abbrev Delivery := Nat × String × PathBuf

/-- One empty slot for each scene under each requested band. -/
def emptySlots (n : Nat) (bands : List String) : BTreeMap (List (Option PathBuf)) :=
  bands.foldl (fun m band => m.insert band (List.replicate n none)) BTreeMap.empty

/-- Put a delivery into its slot. -/
def fillSlot (perBand : BTreeMap (List (Option PathBuf))) (d : Delivery) :
    BTreeMap (List (Option PathBuf)) :=
  match perBand.get d.2.1 with
  | some slots => perBand.insert d.2.1 (slots.set d.1 (some d.2.2))
  | none => perBand

/-- The bands all of whose slots are filled. -/
def fullBands (perBand : BTreeMap (List (Option PathBuf))) : BTreeMap (List PathBuf) :=
  BTreeMap.ofEntries (perBand.entries.filterMap (fun e =>
    if e.2.all Option.isSome then some (e.1, e.2.filterMap id) else none))

/-- The bands of the cube, from the deliveries in the order they came. -/
def collectBands (n : Nat) (bands : List String) (deliveries : List Delivery) :
    BTreeMap (List PathBuf) :=
  fullBands (deliveries.foldl fillSlot (emptySlots n bands))

/-- `[west, south, east, north]`. -/
def CropWindow.bbox (c : CropWindow) : List ℚ := [c.minX, c.minY, c.maxX, c.maxY]

/-- The scale and offset a scene's metadata declares for a band. -/
def declaredScale (scene : StacScene) (band : String) : ℚ × ℚ :=
  match resolveBandMetadata scene band with
  | some m => (m.scale.getD 1, m.offset.getD 0)
  | none => (1, 0)

/-- The scales of the eager path: those of the first scene that are not the identity. -/
def harvestScales (scenes : List StacScene) (bands : BTreeMap (List PathBuf)) :
    BTreeMap (ℚ × ℚ) :=
  match scenes with
  | [] => BTreeMap.empty
  | first :: _ =>
      BTreeMap.ofEntries (bands.keys.filterMap (fun band =>
        match resolveBandMetadata first band with
        | none => none
        | some m =>
            let scale := m.scale.getD 1
            let offset := m.offset.getD 0
            if scale ≠ 1 ∨ offset ≠ 0 then some (band, (scale, offset)) else none))

/-- The datetimes of the eager path: only when every scene has one. -/
def harvestDatetimes (scenes : List StacScene) : Option (List String) :=
  if scenes.all (fun s => s.datetime.isSome) then some (scenes.filterMap (fun s => s.datetime))
  else none

/-- The cube of the eager path. -/
def eagerCube (req : LoadRequest) (scenes : List StacScene) (bands : BTreeMap (List PathBuf)) :
    DataCube :=
  { bands := bands
    bandScales := harvestScales scenes bands
    collection := some req.id
    bbox := some req.crop.bbox
    sceneCount := some scenes.length
    datetimes := harvestDatetimes scenes }

/-- The marks of the streaming path, which decode as extra fields. -/
def streamMarks (crs : String) : BTreeMap Json :=
  (BTreeMap.empty.insert "crs" (.str crs)).insert "p3_vsicurl_stream" (.bool true)

/-- The cube of the streaming path. -/
def streamCube (req : LoadRequest) (scenes : List StacScene) (bands : BTreeMap (List PathBuf)) :
    DataCube :=
  { bands := bands
    collection := some req.id
    bbox := some req.crop.bbox
    sceneCount := some scenes.length
    extras := streamMarks req.crs }

/-- `str::contains`. -/
def containsText (pat : List Char) : List Char → Bool
  | [] => pat.isEmpty
  | c :: cs => pat.isPrefixOf (c :: cs) || containsText pat cs

/-- `validate_crs_spec`.  Its last loop looks for characters that the one before has
refused already. -/
def validateCrsSpec (crs : String) : Except String Unit :=
  if crs.utf8ByteSize = 0 ∨ 128 < crs.utf8ByteSize then .error "CRS spec length must be 1..=128"
  else
    match ["+nadgrids", "@", "+wktext"].find? (fun bad => containsText bad.toList crs.toList) with
    | some bad => .error s!"CRS spec contains disallowed token: {bad}"
    | none =>
        match crs.toList.find? (fun c =>
          !(c.isAlphanum || ['+', '-', '_', '=', '.', ':', '/', ',', ' '].contains c)) with
        | some c => .error s!"CRS spec contains disallowed character: '{c}'"
        | none => .ok ()

section Load

variable (P : Platform) (dir : PathBuf)

/-- The checks both paths make before they start. -/
def checkRequest (req : LoadRequest) (scenes : List StacScene) : Except ExecError Unit :=
  if scenes.isEmpty then
    .error (.backend
      s!"STAC search returned no scenes for collection `{req.id}` in bbox {P.debugFloats req.crop.bbox}")
  else if req.bands.isEmpty then
    .error (.invalidGraph "load_collection: `bands` argument must contain at least one band")
  else do
    validateAll "load_collection.bands" req.bands
    (validateCrsSpec req.crs).mapError
      (fun e => .invalidGraph s!"load_collection.spatial_extent.crs: {e}")

/-- A download task. -/
def fetchTask (checkUrl : String → Except String Unit) (req : LoadRequest) (t : FetchTask) :
    Eval Delivery := do
  let p ← fetchWithCacheAsync P checkUrl t.href (scratch dir s!"{t.band}_{t.scene}.tif") req.crop
    (some req.crs)
  pure (t.scene, t.band, p)

/-- The eager path of `eval_load_collection`; `order` says how the tasks finish.  After an error
no further one is awaited. -/
def loadEager (checkUrl : String → Except String Unit) (order : List FetchTask → List FetchTask)
    (req : LoadRequest) (scenes : List StacScene) : Eval DataCube := do
  attempt (checkRequest P req scenes)
  attempt (checkTasks validateAssetHref (loadTasks scenes req.bands))
  let deliveries ← mapEach (fetchTask P dir checkUrl req) (order (loadTasks scenes req.bands))
  let bands := collectBands scenes.length req.bands deliveries
  if bands.entries.isEmpty then
    throw (.backend
      s!"load_collection: none of the requested bands {debugNames req.bands} are present on every scene")
  else pure (eagerCube req scenes bands)

/-- A task of the streaming path; `emit` is `emit_cropped_vrt_p3`. -/
def emitTask (emit : FetchTask → CropWindow → String → Except ExecError Raster)
    (req : LoadRequest) (t : FetchTask) : Eval Delivery := fun w =>
  let dst := scratch dir s!"{t.band}_{t.scene}_p3.vrt"
  match emit t req.crop req.crs with
  | .ok r => .ok (t.scene, t.band, dst) (w.write dst (some r))
  | .error e => .error e w

/-- The streaming path of `eval_load_collection`. -/
def loadStream (emit : FetchTask → CropWindow → String → Except ExecError Raster)
    (order : List FetchTask → List FetchTask) (req : LoadRequest) (scenes : List StacScene) :
    Eval DataCube := do
  attempt (checkRequest P req scenes)
  attempt (checkTasks
    (fun href => do
      validateAssetHref href
      let _ ← vsicurlPath href
      .ok ())
    (loadTasks scenes req.bands))
  let deliveries ← mapEach (emitTask dir emit req) (order (loadTasks scenes req.bands))
  let bands := collectBands scenes.length req.bands deliveries
  if bands.entries.isEmpty then
    throw (.backend
      s!"load_collection (P3): none of the requested bands {debugNames req.bands} are present on every scene")
  else pure (streamCube req scenes bands)

end Load

end OrbitOpenEO
