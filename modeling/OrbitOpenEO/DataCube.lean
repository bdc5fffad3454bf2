import OrbitOpenEO.MapUpdate
import OrbitOpenEO.Executor

/-!
# The cube that travels between nodes

A raster process receives and returns a JSON envelope: `{"__cube": {...}}` with
the path lists of the bands and their metadata, or `{"__raster": {"path": ...}}`
for a single file.  `DataCube` is the typed content of the first,
`from_envelope_owned` accepts both.

An argument of a node is an `Envelope`: the decoded view of its JSON value.
Numbers of a cube come out of JSON text, so they are finite and kept exactly;
`CubeNumbers` relates them to the numbers of `CubeEnvelope`.
-/

namespace OrbitOpenEO

/-- A file path. -/
abbrev PathBuf := String

/-- `DataCube`: the payload under `__cube`. -/
structure DataCube where
  /-- Band name to the ordered list of per-scene file paths. -/
  bands : BTreeMap (List PathBuf) := BTreeMap.empty
  /-- Band name to `(scale, offset)`, with `physical = DN * scale + offset`. -/
  bandScales : BTreeMap (ℚ × ℚ) := BTreeMap.empty
  collection : Option String := none
  bbox : Option (List ℚ) := none
  sceneCount : Option Nat := none
  datetimes : Option (List String) := none
  times : Option Nat := none
  layers : Option Nat := none
  layerNames : Option (List String) := none
  sourceBand : Option String := none
  maskedBands : Option (List String) := none
  maskedBy : Option String := none
  replacement : Option Int := none
  extras : BTreeMap Json := BTreeMap.empty

/-- Errors raised when decoding or querying a cube. -/
inductive DataCubeError where
  | missingBand (band : String)
  | missingEnvelope
  | decode (msg : String)
deriving DecidableEq

/-- The text of a cube error. -/
def DataCubeError.toText : DataCubeError → String
  | .missingBand band => s!"DataCube missing required band: {band}"
  | .missingEnvelope => "DataCube envelope missing `__cube` key"
  | .decode msg => s!"DataCube decode failed: {msg}"

/-- A JSON value as the raster processes see it. -/
inductive Envelope where
  /-- `{"__cube": c}`. -/
  | cube (c : DataCube)
  /-- The inner object of a cube without its envelope. -/
  | bare (c : DataCube)
  /-- `{"__raster": {"path": path, ...}}`. -/
  | raster (path : PathBuf)
  /-- Any other value, with the reason why it is no cube. -/
  | value (v : Json) (e : DataCubeError)

/-- The resolved arguments of a node. -/
abbrev Args := BTreeMap Envelope

namespace DataCube

/-- `DataCube::new`. -/
def new : DataCube := {}

/-- `DataCube::take_band`: the paths of a band, and the cube without it. -/
def takeBand (cube : DataCube) (band : String) : Except DataCubeError (List PathBuf × DataCube) :=
  match cube.bands.get band with
  | some paths => .ok (paths, { cube with bands := cube.bands.remove band })
  | none => .error (.missingBand band)

/-- `DataCube::from_raster_envelope`: one file as a cube of one band and scene. -/
def fromRasterEnvelope (path : PathBuf) : DataCube :=
  { bands := BTreeMap.empty.insert "result" [path], sceneCount := some 1 }

/-- `DataCube::from_envelope_owned`. -/
def fromEnvelopeOwned : Envelope → Except DataCubeError DataCube
  | .cube c => .ok c
  | .bare c => .ok c
  | .raster path => .ok (fromRasterEnvelope path)
  | .value _ e => .error e

/-- The scale and offset that `apply` uses for a band: the identity when none is
recorded. -/
def scaleOf (cube : DataCube) (band : String) : ℚ × ℚ :=
  (cube.bandScales.get band).getD (1, 0)

end DataCube

/-- A list of names or paths as JSON. -/
def stringsJson (xs : List String) : Json := .arr (xs.map .str)

/-- An `f64` that came out of JSON text. -/
def ratJson (q : ℚ) : Json := .num (.float (.finite q))

/-- An `i64` as JSON. -/
def intJson (n : Int) : Json :=
  match n with
  | .ofNat m => .num (.posInt m)
  | .negSucc m => .num (.negInt (.negSucc m))

/-- A field that is left out when it is `None`. -/
def optField {α : Type} (key : String) (toJson : α → Json) (x : Option α) : List (String × Json) :=
  match x with
  | some v => [(key, toJson v)]
  | none => []

/-- `serde_json::to_value` of a cube. -/
def DataCube.toValue (cube : DataCube) : Json :=
  .obj (BTreeMap.ofEntries
    ([("bands", .obj (cube.bands.mapValues stringsJson).entries)] ++
      (if cube.bandScales.entries.isEmpty then []
        else [("band_scales",
          .obj (cube.bandScales.mapValues (fun p => .arr [ratJson p.1, ratJson p.2])).entries)]) ++
      optField "collection" Json.str cube.collection ++
      optField "bbox" (fun b => .arr (b.map ratJson)) cube.bbox ++
      optField "scene_count" (fun n => .num (.posInt n)) cube.sceneCount ++
      optField "datetimes" stringsJson cube.datetimes ++
      optField "times" (fun n => .num (.posInt n)) cube.times ++
      optField "layers" (fun n => .num (.posInt n)) cube.layers ++
      optField "layer_names" stringsJson cube.layerNames ++
      optField "source_band" Json.str cube.sourceBand ++
      optField "masked_bands" stringsJson cube.maskedBands ++
      optField "masked_by" Json.str cube.maskedBy ++
      optField "replacement" intJson cube.replacement ++
      cube.extras.entries)).entries

/-- The JSON value an argument stands for. -/
def Envelope.toValue : Envelope → Json
  | .cube c => .obj [("__cube", c.toValue)]
  | .bare c => c.toValue
  | .raster path => .obj [("__raster", .obj [("path", .str path)])]
  | .value v _ => v

namespace Envelope

/-- The plain JSON value of an argument that is no cube. -/
def json : Envelope → Option Json
  | .value v _ => some v
  | _ => none

/-- `Value::as_str`. -/
def asStr (v : Envelope) : Option String := v.json.bind Json.asStr

/-- `Value::as_array`. -/
def asArray (v : Envelope) : Option (List Json) :=
  match v.json with
  | some (.arr xs) => some xs
  | _ => none

end Envelope

/-- `filter_map(|v| v.as_str())` over an array. -/
def strings (xs : List Json) : List String := xs.filterMap Json.asStr

/-- A string argument with a default. -/
def argStrOr (args : Args) (key default : String) : String :=
  ((args.get key).bind Envelope.asStr).getD default

/-- An array argument. -/
def argArray (args : Args) (key : String) : Option (List Json) :=
  (args.get key).bind Envelope.asArray

/-- An argument that has to be there. -/
def requireArg (args : Args) (key missing : String) : Except ExecError Envelope :=
  match args.get key with
  | some v => .ok v
  | none => .error (.invalidGraph missing)

/-- `from_envelope_owned` with the caller's own text in front of the error. -/
def decodeCube (v : Envelope) (notCube : String) : Except ExecError DataCube :=
  match DataCube.fromEnvelopeOwned v with
  | .ok c => .ok c
  | .error e => .error (.invalidGraph s!"{notCube}: {e.toText}")

/-- `contains("..")`. -/
def containsDotDot : List Char → Bool
  | [] => false
  | c :: cs => (c == '.' && cs.head? == some '.') || containsDotDot cs

/-- `validate_identifier`: the names that may reach the file system. -/
def validateIdentifier (name field : String) : Except ExecError Unit :=
  let fail (msg : String) : Except ExecError Unit := .error (.invalidGraph s!"{field}: {msg}")
  if name.utf8ByteSize = 0 ∨ 64 < name.utf8ByteSize then
    fail s!"identifier length must be 1..=64 (got {name.utf8ByteSize})"
  else if name.toList.head? = some '-' ∨ name.toList.head? = some '.' then
    fail "identifier may not start with '-' or '.'"
  else
    match name.toList.find? (fun c => !(c.isAlphanum || c == '_' || c == '-' || c == '.')) with
    | some c => fail s!"identifier may only contain [A-Za-z0-9_.-]; found '{c}'"
    | none =>
        if containsDotDot name.toList then fail "identifier may not contain '..'"
        else .ok ()

/-- Check a list of names. -/
def validateAll (field : String) : List String → Except ExecError Unit
  | [] => .ok ()
  | name :: names => do
      validateIdentifier name field
      validateAll field names

/-- The `{:?}` text of a list of names. -/
def debugNames (names : List String) : String :=
  "[" ++ ", ".intercalate (names.map (fun n => "\"" ++ n ++ "\"")) ++ "]"

end OrbitOpenEO
