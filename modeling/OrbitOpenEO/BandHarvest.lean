import OrbitOpenEO.LoadCollection
import OrbitOpenEO.MaskOps

/-!
# Harvesting the assets of an item

The searcher goes through the assets of a STAC item twice, once for the hrefs and once
for the metadata, and keeps what it finds under a canonical band name.  A requested band
is then looked up through the alias table.  Both passes see the same assets in the same
order, so the two lookups end at one asset.  They end at the asset whose key is the
requested name unless that name is no canonical one, or an alias comes first.
-/

namespace OrbitOpenEO

/-- `canonical_band_name`. -/
def canonicalBandName (k : String) : String :=
  match k with
  | "red" | "Red" => "B04"
  | "nir" | "Nir" | "NIR" => "B08"
  | "scl" => "SCL"
  | "blue" => "B02"
  | "green" => "B03"
  | "swir16" | "SWIR16" => "B11"
  | "swir22" | "SWIR22" => "B12"
  | "b02" | "b03" | "b04" | "b05" | "b06" | "b07" | "b08" | "b8a" | "b09" | "b11" | "b12" =>
      String.ofList (k.toList.map Char.toUpper)
  | other => other

/-- `stac_dtype_to_gdal_name`: a name that is not known goes through. -/
def stacDtypeToGdalName (s : String) : String :=
  match s with
  | "uint8" => "Byte"
  | "int8" => "Int8"
  | "uint16" => "UInt16"
  | "int16" => "Int16"
  | "uint32" => "UInt32"
  | "int32" => "Int32"
  | "uint64" => "UInt64"
  | "int64" => "Int64"
  | "float32" => "Float32"
  | "float64" => "Float64"
  | other => other

/-- `BandMetadata` with every field the searcher fills in. -/
structure AssetMetadata where
  epsg : Option Nat
  /-- In GDAL's order. -/
  geoTransform : Option (List F64)
  /-- Columns and rows. -/
  rasterSize : Option (Nat × Nat)
  dtype : Option String
  nodata : Option F64
  scale : Option F64
  offset : Option F64

/-- `as_array` on a member. -/
def arrayAt (v : Json) (key : String) : Option (List Json) :=
  match v.get key with
  | some (.arr xs) => some xs
  | _ => none

/-- `get("href")` as a string: an asset without one is passed over. -/
def hrefOf (asset : Json) : Option String := (asset.get "href").bind Json.asStr

section Metadata

variable (ops : FloatOps)

/-- `stac_transform_to_gdal`. -/
def stacTransformToGdal (arr : List Json) : Option (List F64) :=
  if arr.length < 6 then none
  else
    match (arr.take 6).filterMap (Json.asF64 ops) with
    | [a, b, c, d, e, f] => some [c, a, b, f, d, e]
    | _ => none

/-- `parse_asset_band_metadata`; `itemEpsg` is that of the whole item. -/
def parseAssetBandMetadata (asset : Json) (itemEpsg : Option Nat) : AssetMetadata :=
  let firstBand := (arrayAt asset "raster:bands").bind List.head?
  { epsg := (((asset.get "proj:epsg").bind Json.asU64).map (· % 2 ^ 32)).or itemEpsg
    geoTransform := (arrayAt asset "proj:transform").bind (stacTransformToGdal ops)
    rasterSize := (arrayAt asset "proj:shape").bind (fun arr => do
      let rows ← (arr[0]?).bind Json.asU64
      let cols ← (arr[1]?).bind Json.asU64
      some (cols, rows))
    dtype := ((firstBand.bind (Json.get · "data_type")).bind Json.asStr).map stacDtypeToGdalName
    nodata := (firstBand.bind (Json.get · "nodata")).bind (Json.asF64 ops)
    scale := (firstBand.bind (Json.get · "scale")).bind (Json.asF64 ops)
    offset := (firstBand.bind (Json.get · "offset")).bind (Json.asF64 ops) }

/-- One pass over the assets: what is read of an asset goes under the canonical name of its
key unless something is there already. -/
def harvest {α : Type} (read : Json → Option α) (assets : Json) : BTreeMap α :=
  match assets with
  | .obj fs =>
      fs.foldl
        (fun out a =>
          match read a.2 with
          | some x => orInsert out (canonicalBandName a.1) x
          | none => out)
        BTreeMap.empty
  | _ => BTreeMap.empty

/-- `collect_band_hrefs`. -/
def collectBandHrefs (assets : Json) : BTreeMap String := harvest hrefOf assets

/-- `collect_band_metadata`. -/
def collectBandMetadata (assets : Json) (itemEpsg : Option Nat) : BTreeMap AssetMetadata :=
  harvest
    (fun asset =>
      if (hrefOf asset).isNone then none else some (parseAssetBandMetadata ops asset itemEpsg))
    assets

end Metadata

/-- The first asset with an href that goes under the name. -/
def assetUnder (fs : List (String × Json)) (name : String) : Option (String × Json) :=
  fs.find? (fun a => (hrefOf a.2).isSome && canonicalBandName a.1 == name)

/-- The asset under the band's name, or else under the first of its aliases that has one. -/
def resolvedAsset (fs : List (String × Json)) (band : String) : Option (String × Json) :=
  (assetUnder fs band).or ((bandAliases band).findSome? (assetUnder fs))

section Harvest

variable {α : Type} {read : Json → Option α} {fs : List (String × Json)}

theorem mem_of_assetUnder {name : String} {a : String × Json} (h : assetUnder fs name = some a) :
    a ∈ fs ∧ (hrefOf a.2).isSome ∧ canonicalBandName a.1 = name := by
  have hmatch := List.find?_some h
  rw [Bool.and_eq_true, beq_iff_eq] at hmatch
  exact ⟨List.mem_of_find?_eq_some h, hmatch⟩

theorem assetUnder_cons (a : String × Json) (fs : List (String × Json)) (name : String) :
    assetUnder (a :: fs) name =
      if (hrefOf a.2).isSome ∧ canonicalBandName a.1 = name then some a else assetUnder fs name := by
  unfold assetUnder
  rw [List.find?_cons]
  by_cases ha : (hrefOf a.2).isSome ∧ canonicalBandName a.1 = name
  · simp [ha]
  · rw [if_neg ha]
    have hno : ((hrefOf a.2).isSome && canonicalBandName a.1 == name) = false := by
      rw [Bool.eq_false_iff, ne_eq, Bool.and_eq_true, beq_iff_eq]
      exact ha
    rw [hno]

theorem get_orInsert (m : BTreeMap α) (k : String) (x : α) (name : String) :
    (orInsert m k x).get name = (m.get name).or (if k = name then some x else none) := by
  unfold orInsert BTreeMap.containsKey
  by_cases hk : k = name
  · cases hget : m.get k with
    | none =>
        simp [← hk, hget]
    | some y =>
        simp [← hk, hget]
  · cases hget : m.get k with
    | none =>
        simp [BTreeMap.get_insert, hk, Ne.symm hk]
    | some y =>
        simp [hk]

/-- What the pass leaves under a name is read of the first asset that goes there. -/
theorem get_harvest (hread : ∀ v, (read v).isSome = (hrefOf v).isSome) (name : String) :
    (harvest read (.obj fs)).get name = (assetUnder fs name).bind (fun a => read a.2) := by
  have hfold : ∀ m : BTreeMap α,
      (fs.foldl
        (fun out a =>
          match read a.2 with
          | some x => orInsert out (canonicalBandName a.1) x
          | none => out) m).get name =
        (m.get name).or ((assetUnder fs name).bind (fun a => read a.2)) := by
    induction fs with
    | nil =>
        intro m
        simp [assetUnder]
    | cons a fs ih =>
        intro m
        rw [List.foldl_cons, ih, assetUnder_cons]
        have hhref := hread a.2
        cases hx : read a.2 with
        | none =>
            rw [hx] at hhref
            simp [← hhref]
        | some x =>
            rw [hx] at hhref
            by_cases hname : canonicalBandName a.1 = name
            · simp [get_orInsert, ← hhref, hname, hx]
            · simp [get_orInsert, hname]
  have hget := hfold BTreeMap.empty
  rwa [BTreeMap.get_empty, Option.none_or] at hget

/-- The lookup through the aliases reads of the asset it ends at. -/
theorem resolveAlias_harvest (hread : ∀ v, (read v).isSome = (hrefOf v).isSome) (band : String) :
    resolveAlias (harvest read (.obj fs)) band =
      (resolvedAsset fs band).bind (fun a => read a.2) := by
  have hget : (harvest read (.obj fs)).get =
      fun name => (assetUnder fs name).bind (fun a => read a.2) := funext (get_harvest hread)
  have hsome : ∀ name a, assetUnder fs name = some a → (read a.2).isSome := by
    intro name a ha
    rw [hread]
    exact (mem_of_assetUnder ha).2.1
  have haliases : ∀ names : List String,
      names.findSome? (fun name => (assetUnder fs name).bind (fun a => read a.2)) =
        (names.findSome? (assetUnder fs)).bind (fun a => read a.2) := by
    intro names
    induction names with
    | nil =>
        rfl
    | cons name names ih =>
        rw [List.findSome?_cons, List.findSome?_cons]
        cases hasset : assetUnder fs name with
        | none =>
            exact ih
        | some a =>
            obtain ⟨x, hx⟩ := Option.isSome_iff_exists.mp (hsome name a hasset)
            simp [hx]
  unfold resolveAlias resolvedAsset
  rw [hget, haliases]
  cases hasset : assetUnder fs band with
  | none =>
      simp [hasset]
  | some a =>
      obtain ⟨x, hx⟩ := Option.isSome_iff_exists.mp (hsome band a hasset)
      simp [hasset, hx]

end Harvest

theorem canonicalBandName_idem (k : String) :
    canonicalBandName (canonicalBandName k) = canonicalBandName k := by
  by_cases hk : k ∈ ["red", "Red", "nir", "Nir", "NIR", "scl", "blue", "green", "swir16", "SWIR16",
      "swir22", "SWIR22", "b02", "b03", "b04", "b05", "b06", "b07", "b08", "b8a", "b09", "b11",
      "b12"]
  · revert k
    decide
  · have hsame : canonicalBandName k = k := by
      simp only [List.mem_cons, List.not_mem_nil, or_false, not_or] at hk
      unfold canonicalBandName
      split
      all_goals simp_all
    rw [hsame, hsame]

/-- A name that is not canonical has no aliases. -/
theorem bandAliases_eq_nil {band : String} (h : canonicalBandName band ≠ band) :
    bandAliases band = [] := by
  unfold bandAliases
  split
  all_goals first | rfl | exact absurd rfl h

/-- A lookup of a name that is not canonical finds nothing. -/
theorem resolvedAsset_eq_none {fs : List (String × Json)} {band : String}
    (h : canonicalBandName band ≠ band) : resolvedAsset fs band = none := by
  have hnone : assetUnder fs band = none := by
    rw [← Option.not_isSome_iff_eq_none, Option.isSome_iff_exists]
    rintro ⟨a, ha⟩
    obtain ⟨-, -, hname⟩ := mem_of_assetUnder ha
    exact h (hname ▸ canonicalBandName_idem a.1)
  rw [resolvedAsset, hnone, bandAliases_eq_nil h]
  rfl

/-- `resolve_band_metadata`, with every field; `resolveBandMetadata` has those that the eager path
reads. -/
def resolveAssetMetadata (bandMetadata : BTreeMap AssetMetadata) (band : String) :
    Option AssetMetadata :=
  resolveAlias bandMetadata band

/-- What the two lookups of a band promise: they read of one asset with an href, or of none,
and an asset whose key is exactly the band's name is the one. -/
structure LockStep (ops : FloatOps) (fs : List (String × Json)) (itemEpsg : Option Nat)
    (band : String) : Prop where
  href : ∀ scene : StacScene, scene.bands = collectBandHrefs (.obj fs) →
    resolveBandHref scene band = (resolvedAsset fs band).bind (fun a => hrefOf a.2)
  metadata : resolveAssetMetadata (collectBandMetadata ops (.obj fs) itemEpsg) band =
    (resolvedAsset fs band).map (fun a => parseAssetBandMetadata ops a.2 itemEpsg)
  found : ∀ a, resolvedAsset fs band = some a → a ∈ fs ∧ (hrefOf a.2).isSome
  exact : ∀ v, (band, v) ∈ fs → (hrefOf v).isSome → resolvedAsset fs band = some (band, v)

/-- An asset with an href whose key is the band's name has a canonical key, and none before
it goes under that name. -/
def ExactKeyFirst (fs : List (String × Json)) (band : String) : Prop :=
  ∀ before v after, fs = before ++ (band, v) :: after → (hrefOf v).isSome →
    canonicalBandName band = band ∧
      ∀ a ∈ before, (hrefOf a.2).isSome → canonicalBandName a.1 ≠ band

section LockStep

variable {fs : List (String × Json)} {band : String}

theorem mem_of_resolvedAsset {a : String × Json} (h : resolvedAsset fs band = some a) :
    a ∈ fs ∧ (hrefOf a.2).isSome := by
  unfold resolvedAsset at h
  rcases Option.or_eq_some_iff.mp h with hown | ⟨-, halias⟩
  · exact ⟨(mem_of_assetUnder hown).1, (mem_of_assetUnder hown).2.1⟩
  · obtain ⟨name, -, hname⟩ := List.exists_of_findSome?_eq_some halias
    exact ⟨(mem_of_assetUnder hname).1, (mem_of_assetUnder hname).2.1⟩

/-- The metadata is read of the asset the href is read of. -/
theorem resolveAssetMetadata_eq (ops : FloatOps) (itemEpsg : Option Nat) :
    resolveAssetMetadata (collectBandMetadata ops (.obj fs) itemEpsg) band =
      (resolvedAsset fs band).map (fun a => parseAssetBandMetadata ops a.2 itemEpsg) := by
  unfold resolveAssetMetadata collectBandMetadata
  rw [resolveAlias_harvest]
  · cases hasset : resolvedAsset fs band with
    | none =>
        rfl
    | some a =>
        have hhref := (mem_of_resolvedAsset hasset).2
        simp [Option.isNone_iff_eq_none, Option.isSome_iff_ne_none.mp hhref]
  · intro v
    cases hrefOf v with
    | none =>
        rfl
    | some href =>
        rfl

theorem assetUnder_append (before : List (String × Json)) {a : String × Json}
    (after : List (String × Json)) {name : String} (hhref : (hrefOf a.2).isSome)
    (hname : canonicalBandName a.1 = name) :
    assetUnder (before ++ a :: after) name = (assetUnder before name).or (some a) := by
  unfold assetUnder
  rw [List.find?_append, List.find?_cons]
  simp [hhref, hname]

/-- The exact key is found just when it comes first under its name. -/
theorem resolvedAsset_exact_iff (hnd : (fs.map Prod.fst).Nodup) :
    (∀ v, (band, v) ∈ fs → (hrefOf v).isSome → resolvedAsset fs band = some (band, v)) ↔
      ExactKeyFirst fs band := by
  constructor
  · rintro hexact before v after rfl hhref
    have hfound := hexact v (by simp) hhref
    have hcanonical : canonicalBandName band = band := by
      by_contra hne
      rw [resolvedAsset_eq_none hne] at hfound
      cases hfound
    refine ⟨hcanonical, ?_⟩
    rw [resolvedAsset, assetUnder_append before after hhref hcanonical] at hfound
    cases hearlier : assetUnder before band with
    | none =>
        intro a ha hahref hname
        have hno := List.find?_eq_none.mp hearlier a ha
        simp [hahref, hname] at hno
    | some a =>
        rw [hearlier] at hfound
        obtain rfl : a = (band, v) := by simpa using hfound
        -- the key would be there twice
        rw [List.map_append, List.map_cons, List.nodup_middle, List.nodup_cons] at hnd
        exact absurd (List.mem_append_left _
          (List.mem_map_of_mem (mem_of_assetUnder hearlier).1)) hnd.1
  · intro hfirst v hv hhref
    obtain ⟨before, after, rfl⟩ := List.append_of_mem hv
    obtain ⟨hcanonical, hothers⟩ := hfirst before v after rfl hhref
    have hnone : assetUnder before band = none := by
      rw [assetUnder, List.find?_eq_none]
      intro a ha
      rw [Bool.and_eq_true, beq_iff_eq]
      exact fun h => hothers a ha h.1 h.2
    rw [resolvedAsset, assetUnder_append before after hhref hcanonical, hnone]
    rfl

/-- The two lookups never part; the exact key is found when it comes first. -/
theorem lockStep_iff (hnd : (fs.map Prod.fst).Nodup) (ops : FloatOps) (itemEpsg : Option Nat) :
    LockStep ops fs itemEpsg band ↔ ExactKeyFirst fs band := by
  constructor
  · intro h
    exact (resolvedAsset_exact_iff hnd).mp h.exact
  · intro h
    refine ⟨?_, resolveAssetMetadata_eq ops itemEpsg, fun a => mem_of_resolvedAsset,
      (resolvedAsset_exact_iff hnd).mpr h⟩
    intro scene hbands
    rw [resolveBandHref, hbands, collectBandHrefs, resolveAlias_harvest (fun _ => rfl)]

end LockStep

/-- An asset with an href. -/
def assetAt (href : String) : Json := .obj [("href", .str href)]

theorem lockStep_iff_aliasAfter :
    LockStep FloatOps.exact
        [("B04", assetAt "https://a.io/b04.tif"), ("red", assetAt "https://a.io/red.tif")] none
        "B04" ↔
      ExactKeyFirst
        [("B04", assetAt "https://a.io/b04.tif"), ("red", assetAt "https://a.io/red.tif")] "B04" :=
  lockStep_iff (by decide) FloatOps.exact none

/-- An asset that goes under another name is not found under its own key. -/
theorem red_asset_not_found :
    resolveAlias (collectBandHrefs (.obj [("red", assetAt "https://a.io/red.tif")])) "red" = none ∧
      ¬ LockStep FloatOps.exact [("red", assetAt "https://a.io/red.tif")] none "red" := by
  refine ⟨rfl, ?_⟩
  intro h
  have hfound := h.exact (assetAt "https://a.io/red.tif") (List.mem_singleton_self _) rfl
  rw [resolvedAsset_eq_none (by decide)] at hfound
  cases hfound

end OrbitOpenEO
