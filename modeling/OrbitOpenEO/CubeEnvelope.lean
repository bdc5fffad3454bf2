import OrbitOpenEO.DataCube
import OrbitOpenEO.Lib.FlattenedRecord

/-!
# The envelope of a cube

`to_envelope` writes a cube as JSON, `from_envelope` and `from_envelope_owned` read it.
The numbers of a cube are `f64`s here, as they are in the source, and every field has
its own default, rule for leaving it out, and decoder.

The order in which a JSON object gives its fields depends on how `serde_json` is built;
the round trip holds for every order (`envelope_laws`).
-/

namespace OrbitOpenEO
namespace CubeEnvelope

open Lib

/-- The order in which `serde_json::Map` gives its entries. -/
structure MapOrder where
  apply : List (String × Json) → List (String × Json)
  perm : ∀ fs, (apply fs).Perm fs

/-- The texts of the errors of `serde`: what was found, and what was expected. -/
structure SerdeErrors where
  invalidType : Json → String → String
  invalidValue : Json → String → String
  invalidLength : Nat → String → String

/-- A floating-point number, and a pair of them. -/
def encodePair (p : F64 × F64) : Json := .arr [.ofF64 p.1, .ofF64 p.2]

/-- A `u64`. -/
def encodeU64 (n : UInt64) : Json := .num (.posInt n.toNat)

/-- An `i64`. -/
def encodeI64 (n : Int64) : Json := intJson n.toInt

/-- An array. -/
def encodeVec {α : Type} (encode : α → Json) (xs : List α) : Json := .arr (xs.map encode)

/-- A map. -/
def encodeMap {α : Type} (order : MapOrder) (encode : α → Json) (m : BTreeMap α) : Json :=
  .obj (order.apply (m.mapValues encode).entries)

/-- An optional value. -/
def encodeOption {α : Type} (encode : α → Json) : Option α → Json
  | none => .null
  | some x => encode x

section Decoders

variable (errs : SerdeErrors) (ops : FloatOps) {α : Type} (decode : Json → Except String α)

/-- `String::deserialize`. -/
def decodeString : Json → Except String String
  | .str s => .ok s
  | v => .error (errs.invalidType v "a string")

/-- `PathBuf::deserialize`. -/
def decodePath : Json → Except String PathBuf
  | .str s => .ok s
  | v => .error (errs.invalidType v "path string")

/-- `f64::deserialize`. -/
def decodeF64 : Json → Except String F64
  | .num n => .ok (n.asF64 ops)
  | v => .error (errs.invalidType v "f64")

/-- `u64::deserialize`. -/
def decodeU64 : Json → Except String UInt64
  | .num (.posInt n) => .ok (.ofNat n)
  | .num (.negInt n) => .error (errs.invalidValue (.num (.negInt n)) "u64")
  | v => .error (errs.invalidType v "u64")

/-- `i64::deserialize`. -/
def decodeI64 : Json → Except String Int64
  | .num (.posInt n) =>
      if n < 2 ^ 63 then .ok (.ofNat n)
      else .error (errs.invalidValue (.num (.posInt n)) "i64")
  | .num (.negInt n) => .ok (.ofInt n)
  | v => .error (errs.invalidType v "i64")

/-- `Vec::deserialize`. -/
def decodeVec : Json → Except String (List α)
  | .arr xs => xs.mapM decode
  | v => .error (errs.invalidType v "a sequence")

/-- `(T, T)::deserialize`: elements are decoded before their number is looked at. -/
def decodePair : Json → Except String (α × α)
  | .arr [] => .error (errs.invalidLength 0 "a tuple of size 2")
  | .arr [x] => do
      let _ ← decode x
      .error (errs.invalidLength 1 "a tuple of size 2")
  | .arr (x :: y :: rest) => do
      let a ← decode x
      let b ← decode y
      if rest.isEmpty then .ok (a, b)
      else .error (errs.invalidLength (rest.length + 2) "fewer elements in array")
  | v => .error (errs.invalidType v "a tuple of size 2")

/-- `BTreeMap::deserialize`. -/
def decodeMap : Json → Except String (BTreeMap α)
  | .obj fs => do
      let es ← fs.mapM (fun e => do
        let x ← decode e.2
        .ok (e.1, x))
      .ok (BTreeMap.ofEntries es)
  | v => .error (errs.invalidType v "a map")

/-- `Option::deserialize`. -/
def decodeOption : Json → Except String (Option α)
  | .null => .ok none
  | v => (decode v).map some

end Decoders

/-- `DataCube`, but for its catch-all map. -/
inductive CubeField where
  | bands | bandScales | collection | bbox | sceneCount | datetimes | times | layers
  | layerNames | sourceBand | maskedBands | maskedBy | replacement
deriving DecidableEq

namespace CubeField

/-- The type of a field. -/
def Ty : CubeField → Type
  | bands => BTreeMap (List PathBuf)
  | bandScales => BTreeMap (F64 × F64)
  | collection | sourceBand | maskedBy => Option String
  | bbox => Option (List F64)
  | sceneCount | times | layers => Option UInt64
  | datetimes | layerNames | maskedBands => Option (List String)
  | replacement => Option Int64

/-- The name of a field in JSON. -/
def name : CubeField → String
  | bands => "bands"
  | bandScales => "band_scales"
  | collection => "collection"
  | bbox => "bbox"
  | sceneCount => "scene_count"
  | datetimes => "datetimes"
  | times => "times"
  | layers => "layers"
  | layerNames => "layer_names"
  | sourceBand => "source_band"
  | maskedBands => "masked_bands"
  | maskedBy => "masked_by"
  | replacement => "replacement"

/-- `#[serde(default)]`. -/
def default : ∀ f : CubeField, f.Ty
  | bands => BTreeMap.empty
  | bandScales => BTreeMap.empty
  | collection | bbox | sceneCount | datetimes | times | layers | layerNames | sourceBand
  | maskedBands | maskedBy | replacement => Option.none

/-- `#[serde(skip_serializing_if)]`. -/
def skip : ∀ f : CubeField, f.Ty → Bool
  | bands, _ => false
  | bandScales, m => (BTreeMap.entries m).isEmpty
  | collection, x | bbox, x | sceneCount, x | datetimes, x | times, x | layers, x
  | layerNames, x | sourceBand, x | maskedBands, x | maskedBy, x | replacement, x =>
      Option.isNone x

/-- The fields in the order in which they are declared. -/
def all : List CubeField :=
  [bands, bandScales, collection, bbox, sceneCount, datetimes, times, layers, layerNames,
    sourceBand, maskedBands, maskedBy, replacement]

theorem mem_all (f : CubeField) : f ∈ all := by
  cases f <;> decide

theorem name_injective : Function.Injective name := by
  have hall : ∀ f ∈ all, ∀ g ∈ all, name f = name g → f = g := by decide
  exact fun f g => hall f (mem_all f) g (mem_all g)

variable (order : MapOrder) (errs : SerdeErrors) (ops : FloatOps)

/-- How a field is written. -/
def encode : ∀ f : CubeField, f.Ty → Json
  | bands, m => encodeMap order (encodeVec .str) m
  | bandScales, m => encodeMap order encodePair m
  | collection, x | sourceBand, x | maskedBy, x => encodeOption .str x
  | bbox, x => encodeOption (encodeVec .ofF64) x
  | sceneCount, x | times, x | layers, x => encodeOption encodeU64 x
  | datetimes, x | layerNames, x | maskedBands, x => encodeOption (encodeVec .str) x
  | replacement, x => encodeOption encodeI64 x

/-- How a field is read. -/
def decode : ∀ f : CubeField, Json → Except String f.Ty
  | bands => decodeMap errs (decodeVec errs (decodePath errs))
  | bandScales => decodeMap errs (decodePair errs (decodeF64 errs ops))
  | collection | sourceBand | maskedBy => decodeOption (decodeString errs)
  | bbox => decodeOption (decodeVec errs (decodeF64 errs ops))
  | sceneCount | times | layers => decodeOption (decodeU64 errs)
  | datetimes | layerNames | maskedBands => decodeOption (decodeVec errs (decodeString errs))
  | replacement => decodeOption (decodeI64 errs)

/-- The attributes of the fields. -/
def format : RecordFormat CubeField Ty where
  fields := all
  name := name
  default := default
  skip := skip
  complete := mem_all
  nodup := by decide
  name_injective := name_injective

end CubeField

/-- `DataCube`. -/
structure DataCube where
  bands : BTreeMap (List PathBuf) := BTreeMap.empty
  bandScales : BTreeMap (F64 × F64) := BTreeMap.empty
  collection : Option String := none
  bbox : Option (List F64) := none
  sceneCount : Option UInt64 := none
  datetimes : Option (List String) := none
  times : Option UInt64 := none
  layers : Option UInt64 := none
  layerNames : Option (List String) := none
  sourceBand : Option String := none
  maskedBands : Option (List String) := none
  maskedBy : Option String := none
  replacement : Option Int64 := none
  extras : BTreeMap Json := BTreeMap.empty

namespace DataCube

/-- The value of a field. -/
def value (c : DataCube) : ∀ f : CubeField, f.Ty
  | .bands => c.bands
  | .bandScales => c.bandScales
  | .collection => c.collection
  | .bbox => c.bbox
  | .sceneCount => c.sceneCount
  | .datetimes => c.datetimes
  | .times => c.times
  | .layers => c.layers
  | .layerNames => c.layerNames
  | .sourceBand => c.sourceBand
  | .maskedBands => c.maskedBands
  | .maskedBy => c.maskedBy
  | .replacement => c.replacement

/-- The cube with the given values in its fields. -/
def ofValues (values : ∀ f : CubeField, f.Ty) (extras : BTreeMap Json) : DataCube where
  bands := values .bands
  bandScales := values .bandScales
  collection := values .collection
  bbox := values .bbox
  sceneCount := values .sceneCount
  datetimes := values .datetimes
  times := values .times
  layers := values .layers
  layerNames := values .layerNames
  sourceBand := values .sourceBand
  maskedBands := values .maskedBands
  maskedBy := values .maskedBy
  replacement := values .replacement
  extras := extras

theorem ofValues_value (c : DataCube) : ofValues c.value c.extras = c := rfl

section Envelope

variable (order : MapOrder) (errs : SerdeErrors) (ops : FloatOps)

/-- `serde_json::to_value` of a cube. -/
def toValue (c : DataCube) : Json :=
  .obj (order.apply (CubeField.format.write (CubeField.encode order) c.value c.extras.entries))

/-- `serde::de::Error::duplicate_field`. -/
def duplicateField (key : String) : String := s!"duplicate field `{key}`"

/-- `serde_json::from_value` of a cube. -/
def fromValue : Json → Except String DataCube
  | .obj fs =>
      match CubeField.format.read (CubeField.decode errs ops) duplicateField fs with
      | .ok (values, others) => .ok (ofValues values (BTreeMap.ofEntries others))
      | .error e => .error e
  | v => .error (errs.invalidType v "struct DataCube")

/-- `to_envelope`. -/
def toEnvelope (c : DataCube) : Json := .obj [("__cube", c.toValue order)]

/-- `Value::get`, and what `Map::remove` takes out. -/
def member (key : String) : Json → Option Json
  | .obj fs => fs.lookup key
  | _ => none

/-- Decode what is under `__cube`. -/
def decodeInner : Json → Except DataCubeError DataCube
  | .null => .error .missingEnvelope
  | inner =>
      match fromValue errs ops inner with
      | .ok c => .ok c
      | .error e => .error (.decode e)

/-- `from_envelope`. -/
def fromEnvelope (v : Json) : Except DataCubeError DataCube :=
  decodeInner errs ops ((member "__cube" v).getD v)

/-- `from_raster_envelope`. -/
def fromRasterEnvelope (raster : Json) : Except DataCubeError DataCube :=
  match (member "path" raster).bind Json.asStr with
  | some path => .ok { bands := BTreeMap.empty.insert "result" [path], sceneCount := some 1 }
  | none => .error (.decode "__raster envelope: missing `path` (string)")

/-- `from_envelope_owned`. -/
def fromEnvelopeOwned (v : Json) : Except DataCubeError DataCube :=
  match member "__raster" v with
  | some raster => fromRasterEnvelope raster
  | none =>
      match member "__cube" v with
      | some inner => decodeInner errs ops inner
      | none => decodeInner errs ops v

end Envelope

end DataCube

section RoundTrip

variable {order : MapOrder} {errs : SerdeErrors} {ops : FloatOps} {α : Type}
  {encode : α → Json} {decode : Json → Except String α}

theorem mapM_map_encode {α β : Type} {encode : α → β} {decode : β → Except String α} :
    ∀ {xs : List α}, (∀ x ∈ xs, decode (encode x) = .ok x) →
      (xs.map encode).mapM decode = .ok xs
  | [], _ => rfl
  | x :: xs, h => by
      obtain ⟨hx, hxs⟩ := List.forall_mem_cons.mp h
      rw [List.map_cons, List.mapM_cons, hx, mapM_map_encode hxs]
      rfl

theorem decodeVec_encodeVec {xs : List α} (h : ∀ x ∈ xs, decode (encode x) = .ok x) :
    decodeVec errs decode (encodeVec encode xs) = .ok xs :=
  mapM_map_encode h

theorem decodeF64_ofF64 {x : F64} (h : x.isFinite = true) :
    decodeF64 errs ops (.ofF64 x) = .ok x := by
  unfold Json.ofF64
  rw [if_pos h]
  rfl

theorem decodePair_encodePair {p : F64 × F64} (h : p.1.isFinite = true ∧ p.2.isFinite = true) :
    decodePair errs (decodeF64 errs ops) (encodePair p) = .ok p := by
  unfold encodePair decodePair
  dsimp only
  rw [decodeF64_ofF64 h.1, decodeF64_ofF64 h.2]
  rfl

theorem decodeU64_encodeU64 (n : UInt64) : decodeU64 errs (encodeU64 n) = .ok n :=
  congrArg Except.ok UInt64.ofNat_toNat

theorem decodeI64_encodeI64 (n : Int64) : decodeI64 errs (encodeI64 n) = .ok n := by
  have hback := Int64.ofInt_toInt n
  have hlt := Int64.toInt_lt n
  unfold encodeI64 intJson
  cases hn : n.toInt with
  | ofNat m =>
      rw [hn] at hback hlt
      have hm : m < 2 ^ 63 := Int.ofNat_lt.mp hlt
      unfold decodeI64
      dsimp only
      rw [if_pos hm, ← Int64.ofInt_eq_ofNat]
      exact congrArg Except.ok hback
  | negSucc m =>
      rw [hn] at hback
      exact congrArg Except.ok hback

/-- A map is built from its entries in any order. -/
theorem ofEntries_eq_of_perm {m : BTreeMap α} {es : List (String × α)} (h : es.Perm m.entries) :
    BTreeMap.ofEntries es = m := by
  refine BTreeMap.ext_get fun key => Option.ext fun v => ?_
  have hnodup : (es.map Prod.fst).Nodup := (h.map Prod.fst).nodup_iff.mpr m.keys_nodup
  rw [BTreeMap.get_ofEntries_eq_some_iff hnodup, BTreeMap.get_eq_some_iff]
  exact h.mem_iff

theorem decodeMap_encodeMap {m : BTreeMap α} (h : ∀ x ∈ m.values, decode (encode x) = .ok x) :
    decodeMap errs decode (encodeMap order encode m) = .ok m := by
  have hcomp : Relation.Comp (fun fs es => fs = es.map (fun e => (e.1, encode e.2))) List.Perm
      (order.apply (m.mapValues encode).entries) m.entries := by
    rw [List.eq_map_comp_perm]
    exact order.perm _
  obtain ⟨es, hes, hperm⟩ := hcomp
  have hread : (es.map (fun e => (e.1, encode e.2))).mapM (fun e => do
      let x ← decode e.2
      Except.ok (e.1, x)) = .ok es := by
    refine mapM_map_encode fun e he => ?_
    dsimp only
    rw [h e.2 (List.mem_map_of_mem (hperm.mem_iff.mp he))]
    rfl
  unfold decodeMap encodeMap
  dsimp only
  rw [hes, hread]
  exact congrArg Except.ok (ofEntries_eq_of_perm hperm)

theorem decodeOption_encodeOption {o : Option α} (hsome : o.isNone = false)
    (h : ∀ x, o = some x → decode (encode x) = .ok x ∧ encode x ≠ .null) :
    decodeOption decode (encodeOption encode o) = .ok o := by
  cases o with
  | none => cases hsome
  | some x =>
      obtain ⟨hx, hnull⟩ := h x rfl
      unfold encodeOption decodeOption
      dsimp only
      split
      · contradiction
      · rw [hx]
        rfl

/-- The numbers of the cube are finite. -/
structure DataCube.Finite (c : DataCube) : Prop where
  bandScales : ∀ p ∈ c.bandScales.values, p.1.isFinite = true ∧ p.2.isFinite = true
  bbox : ∀ b, c.bbox = some b → ∀ x ∈ b, x.isFinite = true

theorem decodeString_str (s : String) : decodeString errs (.str s) = .ok s := rfl

theorem decodePath_str (s : String) : decodePath errs (.str s) = .ok s := rfl

theorem encodeI64_ne_null (n : Int64) : encodeI64 n ≠ .null := by
  unfold encodeI64 intJson
  split <;> exact Json.noConfusion

/-- **Every field** that is written is read back. -/
theorem decode_encode_field {c : DataCube} (hfinite : c.Finite) {f : CubeField}
    (hskip : f.skip (c.value f) = false) :
    f.decode errs ops (f.encode order (c.value f)) = .ok (c.value f) := by
  have hstrings : ∀ {o : Option (List String)}, o.isNone = false →
      decodeOption (decodeVec errs (decodeString errs)) (encodeOption (encodeVec .str) o) = .ok o :=
    fun ho => decodeOption_encodeOption ho fun xs _ =>
      ⟨decodeVec_encodeVec fun s _ => decodeString_str s, Json.noConfusion⟩
  have hstring : ∀ {o : Option String}, o.isNone = false →
      decodeOption (decodeString errs) (encodeOption .str o) = .ok o :=
    fun ho => decodeOption_encodeOption ho fun s _ => ⟨decodeString_str s, Json.noConfusion⟩
  have hu64 : ∀ {o : Option UInt64}, o.isNone = false →
      decodeOption (decodeU64 errs) (encodeOption encodeU64 o) = .ok o :=
    fun ho => decodeOption_encodeOption ho fun n _ => ⟨decodeU64_encodeU64 n, Json.noConfusion⟩
  have hbands : decodeMap errs (decodeVec errs (decodePath errs))
      (encodeMap order (encodeVec .str) c.bands) = .ok c.bands :=
    decodeMap_encodeMap fun paths _ => decodeVec_encodeVec fun s _ => decodePath_str s
  have hscales : decodeMap errs (decodePair errs (decodeF64 errs ops))
      (encodeMap order encodePair c.bandScales) = .ok c.bandScales :=
    decodeMap_encodeMap fun p hp => decodePair_encodePair (hfinite.bandScales p hp)
  cases f with
  | bands => exact hbands
  | bandScales => exact hscales
  | collection => exact hstring hskip
  | sourceBand => exact hstring hskip
  | maskedBy => exact hstring hskip
  | bbox =>
      exact decodeOption_encodeOption hskip fun b hb =>
        ⟨decodeVec_encodeVec fun x hx => decodeF64_ofF64 (hfinite.bbox b hb x hx), Json.noConfusion⟩
  | sceneCount => exact hu64 hskip
  | times => exact hu64 hskip
  | layers => exact hu64 hskip
  | datetimes => exact hstrings hskip
  | layerNames => exact hstrings hskip
  | maskedBands => exact hstrings hskip
  | replacement =>
      exact decodeOption_encodeOption hskip fun n _ => ⟨decodeI64_encodeI64 n, encodeI64_ne_null n⟩

/-- A field that is left out has its default. -/
theorem default_eq_of_skip {c : DataCube} {f : CubeField} (hskip : f.skip (c.value f) = true) :
    f.default = c.value f := by
  have hnone : ∀ {β : Type} {o : Option β}, o.isNone = true → none = o := fun h =>
    (Option.isNone_iff_eq_none.mp h).symm
  cases f with
  | bands => cases hskip
  | bandScales => exact (BTreeMap.ext (List.isEmpty_iff.mp hskip)).symm
  | collection => exact hnone hskip
  | bbox => exact hnone hskip
  | sceneCount => exact hnone hskip
  | datetimes => exact hnone hskip
  | times => exact hnone hskip
  | layers => exact hnone hskip
  | layerNames => exact hnone hskip
  | sourceBand => exact hnone hskip
  | maskedBands => exact hnone hskip
  | maskedBy => exact hnone hskip
  | replacement => exact hnone hskip

/-- The catch-all map of the cube has no name of a field among its keys. -/
def DataCube.ExtrasForeign (c : DataCube) : Prop :=
  ∀ key ∈ c.extras.keys, ∀ f : CubeField, f.name ≠ key

/-- **The round trip** of a cube. -/
theorem fromValue_toValue {c : DataCube} (hfinite : c.Finite) (hextras : c.ExtrasForeign) :
    DataCube.fromValue errs ops (c.toValue order) = .ok c := by
  have hread : ∃ others, CubeField.format.read (CubeField.decode errs ops)
      DataCube.duplicateField (order.apply
        (CubeField.format.write (CubeField.encode order) c.value c.extras.entries)) =
          .ok (c.value, others) ∧ others.Perm c.extras.entries :=
    RecordFormat.read_of_perm_write (order.perm _) c.extras.keys_nodup hextras
      (fun _ => decode_encode_field hfinite) (fun _ => default_eq_of_skip)
  obtain ⟨others, hread, hperm⟩ := hread
  unfold DataCube.toValue DataCube.fromValue
  dsimp only
  rw [hread]
  dsimp only
  rw [ofEntries_eq_of_perm hperm, DataCube.ofValues_value]

end RoundTrip

/-- **The envelope of a cube**: both decoders give back a cube that was written, and they
give the same result on every value without a `__raster`. -/
theorem envelope_laws (order : MapOrder) (errs : SerdeErrors) (ops : FloatOps) :
    (∀ c : DataCube, c.Finite → c.ExtrasForeign →
      DataCube.fromEnvelope errs ops (c.toEnvelope order) = .ok c ∧
        DataCube.fromEnvelopeOwned errs ops (c.toEnvelope order) = .ok c) ∧
      ∀ v : Json, DataCube.member "__raster" v = none →
        DataCube.fromEnvelope errs ops v = DataCube.fromEnvelopeOwned errs ops v := by
  have hsame : ∀ v : Json, DataCube.member "__raster" v = none →
      DataCube.fromEnvelope errs ops v = DataCube.fromEnvelopeOwned errs ops v := by
    intro v hv
    unfold DataCube.fromEnvelope DataCube.fromEnvelopeOwned
    rw [hv]
    dsimp only
    cases DataCube.member "__cube" v with
    | none => rfl
    | some inner => rfl
  refine ⟨fun c hfinite hextras => ?_, hsame⟩
  have hread : DataCube.fromEnvelope errs ops (c.toEnvelope order) = .ok c := by
    have hvalue : DataCube.fromValue errs ops (c.toValue order) = .ok c :=
      fromValue_toValue hfinite hextras
    have hmember : DataCube.member "__cube" (c.toEnvelope order) = some (c.toValue order) := rfl
    unfold DataCube.fromEnvelope
    rw [hmember]
    unfold DataCube.toValue at hvalue ⊢
    dsimp only [Option.getD, DataCube.decodeInner]
    rw [hvalue]
  exact ⟨hread, (hsame _ rfl).symm.trans hread⟩

/-- A cube with a scale, a negative number and an entry in its catch-all map. -/
def sampleCube : DataCube where
  bands := BTreeMap.empty.insert "B04" ["/tmp/r0.tif", "/tmp/r1.tif"]
  bandScales := BTreeMap.empty.insert "B04" (.finite (1 / 10000), .negZero)
  bbox := some [.finite (-3 / 2), .finite 0]
  sceneCount := some 2
  replacement := some (-1)
  extras := BTreeMap.empty.insert "eo:note" (.arr [.null, .bool true])

/-- Objects keep the order in which they were written. -/
def MapOrder.asWritten : MapOrder := ⟨id, fun _ => .refl _⟩

/-- Texts that name what was expected. -/
def SerdeErrors.plain : SerdeErrors where
  invalidType _ expected := "invalid type, expected " ++ expected
  invalidValue _ expected := "invalid value, expected " ++ expected
  invalidLength _ expected := "invalid length, expected " ++ expected

theorem envelope_laws_sampleCube :
    DataCube.fromEnvelope .plain .exact (sampleCube.toEnvelope .asWritten) = .ok sampleCube ∧
      DataCube.fromEnvelopeOwned .plain .exact (sampleCube.toEnvelope .asWritten) =
        .ok sampleCube := by
  have hfinite : sampleCube.Finite := by
    refine ⟨by decide, fun b hb => ?_⟩
    cases hb
    decide
  have hextras : sampleCube.ExtrasForeign := by
    intro key hkey f
    have hkeys : sampleCube.extras.keys = ["eo:note"] := by decide
    rw [hkeys, List.mem_singleton] at hkey
    rw [hkey]
    cases f <;> decide
  exact (envelope_laws .asWritten .plain .exact).1 sampleCube hfinite hextras

end CubeEnvelope
end OrbitOpenEO
