import OrbitOpenEO.CubeEnvelope

/-!
# The numbers of a cube

The raster processes compute with the scales and corners of a cube as rationals and with
its counts as numbers; its envelope holds `f64`s, `u64`s and an `i64`.  The JSON that
stands for a cube in the arguments of a process is what `to_value` gives for the cube
with these numbers, and `from_envelope_owned` reads it back as that cube.
-/

namespace OrbitOpenEO

open Lib

theorem BTreeMap.entries_ofEntries_perm {α : Type} {es : List (String × α)}
    (hnodup : (es.map Prod.fst).Nodup) : (BTreeMap.ofEntries es).entries.Perm es := by
  have hkeys := (BTreeMap.ofEntries es).keys_nodup
  rw [List.perm_ext_iff_of_nodup (hkeys.of_map _) (hnodup.of_map _)]
  rintro ⟨k, v⟩
  rw [← BTreeMap.get_eq_some_iff, BTreeMap.get_ofEntries_eq_some_iff hnodup]

theorem BTreeMap.ofEntries_entries {α : Type} (m : BTreeMap α) :
    BTreeMap.ofEntries m.entries = m := by
  refine BTreeMap.ext_get fun k => ?_
  rw [BTreeMap.get_ofEntries, BTreeMap.lastEntry_entries]

namespace CubeEnvelope

/-- A `serde_json::Map` that is a `BTreeMap`. -/
def MapOrder.byKey : MapOrder where
  apply fs := if (fs.map Prod.fst).Nodup then (BTreeMap.ofEntries fs).entries else fs
  perm fs := by
    split_ifs with hnodup
    · exact BTreeMap.entries_ofEntries_perm hnodup
    · exact .refl _

theorem encodeMap_byKey {α : Type} (encode : α → Json) (m : BTreeMap α) :
    encodeMap .byKey encode m = .obj (m.mapValues encode).entries := by
  have hnodup : ((m.mapValues encode).entries.map Prod.fst).Nodup :=
    (m.mapValues encode).keys_nodup
  unfold encodeMap MapOrder.byKey
  dsimp only
  rw [if_pos hnodup, BTreeMap.ofEntries_entries]

/-- The cube with its numbers as its envelope holds them. -/
def DataCube.ofExact (c : OrbitOpenEO.DataCube) : DataCube where
  bands := c.bands
  bandScales := c.bandScales.mapValues fun p => (.finite p.1, .finite p.2)
  collection := c.collection
  bbox := c.bbox.map (List.map .finite)
  sceneCount := c.sceneCount.map .ofNat
  datetimes := c.datetimes
  times := c.times.map .ofNat
  layers := c.layers.map .ofNat
  layerNames := c.layerNames
  sourceBand := c.sourceBand
  maskedBands := c.maskedBands
  maskedBy := c.maskedBy
  replacement := c.replacement.map .ofInt
  extras := c.extras

@[simp] theorem DataCube.bands_ofExact (c : OrbitOpenEO.DataCube) :
    (DataCube.ofExact c).bands = c.bands := rfl

/-- The number that a finite `f64` is. -/
def exactOf : F64 → ℚ
  | .finite q => q
  | _ => 0

/-- The cube with the numbers that those of its envelope are. -/
def DataCube.exact (c : DataCube) : OrbitOpenEO.DataCube where
  bands := c.bands
  bandScales := c.bandScales.mapValues fun p => (exactOf p.1, exactOf p.2)
  collection := c.collection
  bbox := c.bbox.map (List.map exactOf)
  sceneCount := c.sceneCount.map UInt64.toNat
  datetimes := c.datetimes
  times := c.times.map UInt64.toNat
  layers := c.layers.map UInt64.toNat
  layerNames := c.layerNames
  sourceBand := c.sourceBand
  maskedBands := c.maskedBands
  maskedBy := c.maskedBy
  replacement := c.replacement.map Int64.toInt
  extras := c.extras

end CubeEnvelope

open CubeEnvelope

/-- The keys that mean something in an envelope or a cube. -/
def reservedKeys : List String := "__raster" :: "__cube" :: CubeField.all.map CubeField.name

namespace DataCube

/-- What the fields and the catch-all map of the cube write. -/
def written (c : DataCube) : List (String × Json) :=
  CubeField.format.write (CubeField.encode .byKey) (CubeEnvelope.DataCube.ofExact c).value
    c.extras.entries

theorem toList_option {α : Type} (key : String) (encode : α → Json) (x : Option α) :
    (if x.isNone then none else some (key, encodeOption encode x)).toList =
      optField key encode x := by
  cases x <;> rfl

theorem optField_map {α β : Type} {key : String} {encode : β → Json} {f : α → β}
    {encode' : α → Json} {x : Option α} (h : ∀ a ∈ x, encode (f a) = encode' a) :
    optField key encode (x.map f) = optField key encode' x := by
  cases x with
  | none => rfl
  | some a => exact congrArg (fun v => [(key, v)]) (h a rfl)

/-- The entry of a field, if it is written. -/
def entry (c : DataCube) (f : CubeField) : List (String × Json) :=
  (CubeField.format.entryOf (CubeField.encode .byKey)
    (CubeEnvelope.DataCube.ofExact c).value f).toList

theorem written_eq (c : DataCube) :
    written c = CubeField.all.flatMap (entry c) ++ c.extras.entries :=
  congrArg (· ++ c.extras.entries) (List.filterMap_eq_flatMap_toList _ _)

theorem entry_bands (c : DataCube) :
    entry c .bands = [("bands", .obj (c.bands.mapValues stringsJson).entries)] :=
  congrArg (fun v => [("bands", v)]) (encodeMap_byKey (encodeVec .str) c.bands)

theorem entry_bandScales (c : DataCube) :
    entry c .bandScales =
      if c.bandScales.entries.isEmpty then []
      else [("band_scales",
        .obj (c.bandScales.mapValues (fun p => .arr [ratJson p.1, ratJson p.2])).entries)] := by
  have hempty : (c.bandScales.mapValues
      fun p => (F64.finite p.1, F64.finite p.2)).entries.isEmpty =
        c.bandScales.entries.isEmpty := List.isEmpty_map
  have hpairs : (c.bandScales.mapValues fun p => (F64.finite p.1, F64.finite p.2)).mapValues
      encodePair = c.bandScales.mapValues (fun p => .arr [ratJson p.1, ratJson p.2]) :=
    BTreeMap.ext List.map_map
  have hentry : entry c .bandScales =
      (if (c.bandScales.mapValues
        fun p => (F64.finite p.1, F64.finite p.2)).entries.isEmpty then none
      else some ("band_scales", encodeMap .byKey encodePair
        (c.bandScales.mapValues fun p => (F64.finite p.1, F64.finite p.2)))).toList := rfl
  rw [hentry, hempty, encodeMap_byKey, hpairs]
  split <;> rfl

theorem finite_ofExact (c : DataCube) : (CubeEnvelope.DataCube.ofExact c).Finite := by
  constructor
  · intro p hp
    obtain ⟨e, he, rfl⟩ := List.mem_map.mp hp
    obtain ⟨e', _, rfl⟩ := List.mem_map.mp he
    exact ⟨rfl, rfl⟩
  · intro b hb x hx
    obtain ⟨b', _, rfl⟩ := Option.map_eq_some_iff.mp hb
    obtain ⟨q, _, rfl⟩ := List.mem_map.mp hx
    rfl

end DataCube

/-- The counts of the cube are `u64`s and its replacement is an `i64`; its catch-all map
has none of the keys that mean something. -/
structure DataCube.FitsEnvelope (c : DataCube) : Prop where
  counts : ∀ count ∈ [c.sceneCount, c.times, c.layers], ∀ n ∈ count, n < 2 ^ 64
  replacement : ∀ n ∈ c.replacement, -2 ^ 63 ≤ n ∧ n < 2 ^ 63
  extras : ∀ key ∈ c.extras.keys, key ∉ reservedKeys

namespace DataCube.FitsEnvelope

variable {c : DataCube}

theorem toNat_count (h : c.FitsEnvelope) {count : Option Nat}
    (hcount : count ∈ [c.sceneCount, c.times, c.layers]) :
    (count.map UInt64.ofNat).map UInt64.toNat = count := by
  cases count with
  | none => rfl
  | some n => exact congrArg some (UInt64.toNat_ofNat_of_lt' (h.counts _ hcount n rfl))

theorem toInt_replacement (h : c.FitsEnvelope) :
    (c.replacement.map Int64.ofInt).map Int64.toInt = c.replacement := by
  cases hr : c.replacement with
  | none => rfl
  | some n =>
      obtain ⟨hmin, hmax⟩ := h.replacement n hr
      exact congrArg some (Int64.toInt_ofInt_of_le hmin hmax)

/-- Nothing is lost: the numbers in the envelope give the cube back. -/
theorem exact_ofExact (h : c.FitsEnvelope) :
    (CubeEnvelope.DataCube.ofExact c).exact = c := by
  have hscales : (c.bandScales.mapValues fun p => (F64.finite p.1, F64.finite p.2)).mapValues
      (fun p => (exactOf p.1, exactOf p.2)) = c.bandScales := by
    refine BTreeMap.ext_get fun band => ?_
    rw [BTreeMap.get_mapValues, BTreeMap.get_mapValues, Option.map_map]
    exact Option.map_id_apply
  have hbbox : (c.bbox.map (List.map F64.finite)).map (List.map exactOf) = c.bbox := by
    rw [Option.map_map, List.map_comp_map]
    exact (congrArg (fun f => c.bbox.map f) List.map_id_fun).trans Option.map_id_apply
  unfold CubeEnvelope.DataCube.ofExact CubeEnvelope.DataCube.exact
  dsimp only
  rw [hscales, hbbox, h.toInt_replacement, h.toNat_count (by simp), h.toNat_count (by simp),
    h.toNat_count (by simp)]

/-- The catch-all map has no name of a field. -/
theorem extrasForeign (h : c.FitsEnvelope) :
    (CubeEnvelope.DataCube.ofExact c).ExtrasForeign := by
  rintro key hkey f rfl
  refine h.extras f.name hkey (List.mem_cons_of_mem _ (List.mem_cons_of_mem _ ?_))
  exact List.mem_map.mpr ⟨f, CubeField.mem_all f, rfl⟩

theorem optField_count (h : c.FitsEnvelope) (key : String) {count : Option Nat}
    (hcount : count ∈ [c.sceneCount, c.times, c.layers]) :
    optField key encodeU64 (count.map UInt64.ofNat) =
      optField key (fun n => .num (.posInt n)) count :=
  optField_map fun n hn => by
    unfold encodeU64
    rw [UInt64.toNat_ofNat_of_lt' (h.counts count hcount n hn)]

theorem optField_replacement (h : c.FitsEnvelope) (key : String) :
    optField key encodeI64 (c.replacement.map Int64.ofInt) = optField key intJson c.replacement :=
  optField_map fun n hn => by
    obtain ⟨hmin, hmax⟩ := h.replacement n hn
    unfold encodeI64
    rw [Int64.toInt_ofInt_of_le hmin hmax]

/-- The JSON of the cube is that of its numbers in the envelope. -/
theorem toValue_eq_written (h : c.FitsEnvelope) :
    c.toValue = .obj (BTreeMap.ofEntries (written c)).entries := by
  have hcollection : entry c .collection = optField "collection" .str c.collection :=
    toList_option _ _ _
  have hbbox : entry c .bbox = optField "bbox" (fun b => .arr (b.map ratJson)) c.bbox :=
    (toList_option _ _ _).trans (optField_map fun b _ => congrArg Json.arr List.map_map)
  have hsceneCount : entry c .sceneCount =
      optField "scene_count" (fun n => .num (.posInt n)) c.sceneCount :=
    (toList_option _ _ _).trans (h.optField_count "scene_count" (by simp))
  have hdatetimes : entry c .datetimes = optField "datetimes" stringsJson c.datetimes :=
    toList_option _ _ _
  have htimes : entry c .times = optField "times" (fun n => .num (.posInt n)) c.times :=
    (toList_option _ _ _).trans (h.optField_count "times" (by simp))
  have hlayers : entry c .layers = optField "layers" (fun n => .num (.posInt n)) c.layers :=
    (toList_option _ _ _).trans (h.optField_count "layers" (by simp))
  have hlayerNames : entry c .layerNames = optField "layer_names" stringsJson c.layerNames :=
    toList_option _ _ _
  have hsourceBand : entry c .sourceBand = optField "source_band" .str c.sourceBand :=
    toList_option _ _ _
  have hmaskedBands : entry c .maskedBands = optField "masked_bands" stringsJson c.maskedBands :=
    toList_option _ _ _
  have hmaskedBy : entry c .maskedBy = optField "masked_by" .str c.maskedBy :=
    toList_option _ _ _
  have hreplacement : entry c .replacement = optField "replacement" intJson c.replacement :=
    (toList_option _ _ _).trans (h.optField_replacement "replacement")
  unfold DataCube.toValue
  rw [written_eq]
  simp only [CubeField.all, List.flatMap_cons, List.flatMap_nil, List.append_nil, List.append_assoc,
    entry_bands, entry_bandScales, hcollection, hbbox, hsceneCount, hdatetimes, htimes, hlayers,
    hlayerNames, hsourceBand, hmaskedBands, hmaskedBy, hreplacement]

theorem nodup_written (h : c.FitsEnvelope) : ((written c).map Prod.fst).Nodup :=
  RecordFormat.nodup_keys_write c.extras.keys_nodup h.extrasForeign

/-- What the JSON of the cube has under a key. -/
theorem member_toValue (h : c.FitsEnvelope) {key : String} {v : Json} :
    CubeEnvelope.DataCube.member key c.toValue = some v ↔ (key, v) ∈ written c := by
  rw [h.toValue_eq_written]
  exact BTreeMap.get_ofEntries_eq_some_iff h.nodup_written

theorem bands_toValue (h : c.FitsEnvelope) :
    CubeEnvelope.DataCube.member "bands" c.toValue =
      some (.obj (c.bands.mapValues stringsJson).entries) := by
  refine h.member_toValue.mpr ?_
  rw [written_eq]
  refine List.mem_append_left _ (List.mem_flatMap.mpr ⟨.bands, CubeField.mem_all _, ?_⟩)
  rw [entry_bands]
  exact List.mem_singleton_self _

/-- A cube is no envelope. -/
theorem member_toValue_of_envelopeKey (h : c.FitsEnvelope) {key : String}
    (hkey : key ∈ ["__raster", "__cube"]) :
    CubeEnvelope.DataCube.member key c.toValue = none := by
  rw [Option.eq_none_iff_forall_ne_some]
  intro v hv
  have hreserved : key ∈ reservedKeys := by
    rcases List.mem_pair.mp hkey with rfl | rfl
    · exact List.mem_cons_self
    · exact List.mem_cons_of_mem _ List.mem_cons_self
  rcases List.mem_append.mp (h.member_toValue.mp hv) with hfield | hextra
  · obtain ⟨f, _, hf⟩ := List.mem_filterMap.mp hfield
    obtain ⟨_, rfl, _⟩ := RecordFormat.entryOf_eq_some_iff.mp hf
    have hname : ∀ g ∈ CubeField.all, CubeField.name g ∉ ["__raster", "__cube"] := by decide
    exact hname f (CubeField.mem_all f) hkey
  · exact h.extras key (List.mem_map.mpr ⟨_, hextra, rfl⟩) hreserved

variable {errs : SerdeErrors} {ops : FloatOps}

/-- **The JSON of the cube** is what `to_value` gives for the cube with its numbers as the
envelope holds them. -/
theorem toValue_ofExact (h : c.FitsEnvelope) :
    (CubeEnvelope.DataCube.ofExact c).toValue .byKey = c.toValue := by
  rw [h.toValue_eq_written]
  exact congrArg Json.obj (if_pos h.nodup_written)

theorem decodeInner_toValue (h : c.FitsEnvelope) :
    CubeEnvelope.DataCube.decodeInner errs ops c.toValue = .ok (.ofExact c) := by
  have hread : CubeEnvelope.DataCube.fromValue errs ops c.toValue = .ok (.ofExact c) := by
    rw [← h.toValue_ofExact]
    exact fromValue_toValue (finite_ofExact c) h.extrasForeign
  have hobj : ∃ fs, c.toValue = .obj fs := ⟨_, h.toValue_eq_written⟩
  obtain ⟨fs, hfs⟩ := hobj
  rw [hfs] at hread ⊢
  unfold CubeEnvelope.DataCube.decodeInner
  dsimp only
  rw [hread]

end DataCube.FitsEnvelope

/-- The cube of an argument, if it is one, fits its envelope. -/
def Envelope.Fits : Envelope → Prop
  | .cube c => c.FitsEnvelope
  | .bare c => c.FitsEnvelope
  | _ => True

/-- **Arguments are decoded from their JSON**: `from_envelope_owned` of the JSON that an
argument stands for gives the cube that the raster processes decode from the argument. -/
theorem Envelope.fromEnvelopeOwned_toValue {errs : SerdeErrors} {ops : FloatOps} {v : Envelope}
    {c : DataCube} (hfits : v.Fits) (h : DataCube.fromEnvelopeOwned v = .ok c) :
    CubeEnvelope.DataCube.fromEnvelopeOwned errs ops v.toValue = .ok (.ofExact c) := by
  cases v with
  | cube c' =>
      cases h
      have hraster : CubeEnvelope.DataCube.member "__raster" (Envelope.cube c).toValue = none := rfl
      have hinner : CubeEnvelope.DataCube.member "__cube" (Envelope.cube c).toValue =
          some c.toValue := rfl
      unfold CubeEnvelope.DataCube.fromEnvelopeOwned
      rw [hraster, hinner]
      exact DataCube.FitsEnvelope.decodeInner_toValue hfits
  | bare c' =>
      cases h
      have hcube : c.FitsEnvelope := hfits
      have hraster : CubeEnvelope.DataCube.member "__raster" (Envelope.bare c).toValue = none :=
        hcube.member_toValue_of_envelopeKey (by decide)
      have hinner : CubeEnvelope.DataCube.member "__cube" (Envelope.bare c).toValue = none :=
        hcube.member_toValue_of_envelopeKey (by decide)
      unfold CubeEnvelope.DataCube.fromEnvelopeOwned
      rw [hraster, hinner]
      exact hcube.decodeInner_toValue
  | raster path =>
      cases h
      rfl
  | value v e => cases h

end OrbitOpenEO
