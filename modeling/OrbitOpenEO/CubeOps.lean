import OrbitOpenEO.DataCube
import OrbitOpenEO.ProcessIds

/-!
# Cube operations without pixels

The processes of `eval_cube_ops.rs` that only rewrite a cube's metadata.  Each
comes in two parts: the operation on a decoded cube, and the evaluator that
reads its arguments from a node and calls it.
-/

namespace OrbitOpenEO

/-- `normalise_iso`: a bare date becomes a timestamp. -/
def normaliseIso (s : String) (isStart : Bool) : String :=
  if s = ".." ∨ 'T' ∈ s.toList ∨ ':' ∈ s.toList then s
  else if s.utf8ByteSize = 10 ∧ s.toList.count '-' = 2 then
    if isStart then s ++ "T00:00:00Z" else s ++ "T23:59:59Z"
  else s

/-- The scenes whose time lies between the bounds, compared as texts. -/
def keepScenes (start stop : Option String) (datetimes : List String) : List Nat :=
  (datetimes.zipIdx.filter (fun p =>
    start.all (fun s => decide (s ≤ p.1)) && stop.all (fun e => decide (p.1 ≤ e)))).map Prod.snd

/-- The entries at the given positions. -/
def pick {α : Type} (keep : List Nat) (xs : List α) : List α :=
  keep.filterMap (fun i => xs[i]?)

/-- The body of `eval_filter_temporal`.  A band whose length is not that of the
time axis is left as it is. -/
def filterTemporal (cube : DataCube) (start stop : Option String) : Except ExecError DataCube :=
  match cube.datetimes with
  | none => .error (.invalidGraph
      "filter_temporal: cube has no per-scene datetimes (load_collection did not supply STAC `properties.datetime`); cannot filter by time")
  | some datetimes =>
      let keep := keepScenes start stop datetimes
      if keep.isEmpty then
        .error (.backend "filter_temporal: no scenes fall within the requested extent")
      else
        .ok { cube with
          bands := cube.bands.mapValues
            (fun paths => if paths.length = datetimes.length then pick keep paths else paths)
          datetimes := some (pick keep datetimes)
          sceneCount := some keep.length }

/-- `eval_filter_temporal`. -/
def evalFilterTemporal (args : Args) : Except ExecError Envelope := do
  let data ← requireArg args "data" "filter_temporal: missing `data`"
  match argArray args "extent" with
  | none => .error (.invalidGraph "filter_temporal: `extent` must be a 2-element array")
  | some [start, stop] =>
      let cube ← decodeCube data "filter_temporal: input is not a cube"
      let out ← filterTemporal cube
        (start.asStr.map (fun s => normaliseIso s true))
        (stop.asStr.map (fun s => normaliseIso s false))
      .ok (.cube out)
  | some _ =>
      .error (.invalidGraph "filter_temporal: `extent` must have exactly two elements")

/-- What a successful `filter_temporal` returns. -/
theorem filterTemporal_eq_ok_iff {cube out : DataCube} {start stop : Option String} :
    filterTemporal cube start stop = .ok out ↔
      ∃ datetimes, cube.datetimes = some datetimes ∧ keepScenes start stop datetimes ≠ [] ∧
        out = { cube with
          bands := cube.bands.mapValues (fun paths =>
            if paths.length = datetimes.length then pick (keepScenes start stop datetimes) paths
            else paths)
          datetimes := some (pick (keepScenes start stop datetimes) datetimes)
          sceneCount := some (keepScenes start stop datetimes).length } := by
  unfold filterTemporal
  cases hdt : cube.datetimes with
  | none =>
      simp
  | some datetimes =>
      by_cases hkeep : keepScenes start stop datetimes = []
      · simp [hkeep]
      · simp only [List.isEmpty_iff, hkeep, if_false, Except.ok.injEq, Option.some.injEq,
          exists_eq_left', ne_eq, not_false_eq_true, true_and]
        exact eq_comm

/-- The kept positions lie on the time axis. -/
theorem lt_of_mem_keepScenes {start stop : Option String} {datetimes : List String} {i : Nat}
    (h : i ∈ keepScenes start stop datetimes) : i < datetimes.length := by
  obtain ⟨p, hp, rfl⟩ := List.mem_map.mp h
  have hp' := (List.mem_filter.mp hp).1
  exact (List.getElem?_eq_some_iff.mp (List.mk_mem_zipIdx_iff_getElem?.mp hp')).1

theorem length_pick {α : Type} {xs : List α} :
    ∀ {keep : List Nat}, (∀ i ∈ keep, i < xs.length) → (pick keep xs).length = keep.length
  | [], _ => rfl
  | i :: keep, h => by
      rw [List.forall_mem_cons] at h
      have ih := length_pick h.2
      unfold pick at ih ⊢
      rw [List.filterMap_cons, List.getElem?_eq_getElem h.1]
      simpa using ih

/-- The loop that moves the requested bands over. -/
def keepBands (bands : BTreeMap (List PathBuf)) (requested : List String) :
    BTreeMap (List PathBuf) × BTreeMap (List PathBuf) :=
  requested.foldl
    (fun acc b =>
      match acc.1.get b with
      | some paths => (acc.1.remove b, acc.2.insert b paths)
      | none => acc)
    (bands, BTreeMap.empty)

/-- The body of `eval_filter_bands`. -/
def filterBands (cube : DataCube) (requested : List String) : Except ExecError DataCube :=
  match requested.find? (fun b => !cube.bands.containsKey b) with
  | some b => .error (.invalidGraph
      s!"filter_bands: band `{b}` not available (have: {debugNames cube.bands.keys})")
  | none =>
      .ok { cube with
        bands := (keepBands cube.bands requested).2
        layers := some requested.length
        layerNames := some requested }

/-- `eval_filter_bands`. -/
def evalFilterBands (args : Args) : Except ExecError Envelope := do
  let data ← requireArg args "data" "filter_bands: missing `data`"
  match argArray args "bands" with
  | none => .error (.invalidGraph "filter_bands: `bands` must be an array of band names")
  | some bands =>
      let requested := strings bands
      if requested.isEmpty then
        .error (.invalidGraph "filter_bands: `bands` array is empty")
      else
        let cube ← decodeCube data "filter_bands: input is not a cube"
        let out ← filterBands cube requested
        .ok (.cube out)

theorem get_keepBands (k : String) :
    ∀ (requested : List String) (acc : BTreeMap (List PathBuf) × BTreeMap (List PathBuf)),
      ((requested.foldl
        (fun acc b =>
          match acc.1.get b with
          | some paths => (acc.1.remove b, acc.2.insert b paths)
          | none => acc) acc).2).get k =
        if k ∈ requested then (acc.1.get k).or (acc.2.get k) else acc.2.get k
  | [], acc => by
      simp
  | b :: requested, acc => by
      rw [List.foldl_cons, get_keepBands k requested]
      cases hb : acc.1.get b with
      | none =>
          by_cases hk : k = b
          · simp [hk, hb]
          · simp [hk]
      | some paths =>
          simp only [BTreeMap.get_remove, BTreeMap.get_insert]
          by_cases hk : k = b
          · simp [hk, hb]
          · simp [hk]

/-- A successful `filter_bands` keeps the path lists of the requested bands, all
of which were there. -/
theorem filterBands_eq_ok {cube out : DataCube} {requested : List String}
    (h : filterBands cube requested = .ok out) :
    (∀ b ∈ requested, cube.bands.containsKey b = true) ∧
      (∀ k, out.bands.get k = if k ∈ requested then cube.bands.get k else none) ∧
      out = { cube with
        bands := out.bands
        layers := some requested.length
        layerNames := some requested } := by
  unfold filterBands at h
  cases hfind : requested.find? (fun b => !cube.bands.containsKey b) with
  | some b =>
      simp [hfind] at h
  | none =>
      simp only [hfind, Except.ok.injEq] at h
      subst h
      refine ⟨?_, ?_, rfl⟩
      · simpa using List.find?_eq_none.mp hfind
      · intro k
        simp [keepBands, get_keepBands]

/-- The old names of a renaming: given, or all bands in order. -/
def renameSources (cube : DataCube) (source : Option (List String)) (target : List String) :
    Except ExecError (List String) :=
  match source with
  | some src =>
      if src.length ≠ target.length then
        .error (.invalidGraph
          s!"rename_labels: source ({src.length}) and target ({target.length}) length mismatch")
      else .ok src
  | none =>
      if cube.bands.keys.length ≠ target.length then
        .error (.invalidGraph
          s!"rename_labels: cube has {cube.bands.keys.length} bands but target has {target.length} labels (omit source only for full rename)")
      else .ok cube.bands.keys

/-- The loop that moves the renamed bands: what is left, and what has moved. -/
def renameMoved : List (String × String) → BTreeMap (List PathBuf) → BTreeMap (List PathBuf) →
    Except ExecError (BTreeMap (List PathBuf) × BTreeMap (List PathBuf))
  | [], bands, renamed => .ok (bands, renamed)
  | (old, new) :: rest, bands, renamed => do
      validateIdentifier new "rename_labels.target"
      match bands.get old with
      | none => .error (.invalidGraph s!"rename_labels: source band `{old}` not found")
      | some paths => renameMoved rest (bands.remove old) (renamed.insert new paths)

/-- `entry(k).or_insert(v)`. -/
def orInsert {α : Type} (m : BTreeMap α) (k : String) (v : α) : BTreeMap α :=
  if m.containsKey k then m else m.insert k v

/-- The body of `eval_rename_labels`. -/
def renameLabels (cube : DataCube) (source : Option (List String)) (target : List String) :
    Except ExecError DataCube := do
  let oldKeys ← renameSources cube source target
  let moved ← renameMoved (oldKeys.zip target) cube.bands BTreeMap.empty
  let bands := moved.1.entries.foldl (fun acc e => orInsert acc e.1 e.2) moved.2
  .ok { cube with bands := bands, layerNames := some bands.keys }

/-- The old name of the band that ends up under the new name `b`: the last pair
with that target counts. -/
def movedFrom : List (String × String) → String → Option String
  | [], _ => none
  | (old, new) :: pairs, b => (movedFrom pairs b).or (if b = new then some old else none)

theorem movedFrom_isSome_iff {pairs : List (String × String)} {b : String} :
    (movedFrom pairs b).isSome ↔ b ∈ pairs.map Prod.snd := by
  induction pairs with
  | nil =>
      simp [movedFrom]
  | cons p pairs ih =>
      rw [movedFrom, Option.isSome_or, Bool.or_eq_true, ih, List.map_cons, List.mem_cons]
      by_cases hb : b = p.2
      · simp [hb]
      · simp [hb]

/-- The input band whose path list is found under `b` after a renaming. -/
def renamedFrom (pairs : List (String × String)) (b : String) : String :=
  (movedFrom pairs b).getD b

theorem renameMoved_eq_ok {b : String} :
    ∀ {pairs : List (String × String)} {bands renamed left moved : BTreeMap (List PathBuf)},
      renameMoved pairs bands renamed = .ok (left, moved) →
        (∀ paths, left.get b = some paths → bands.get b = some paths) ∧
        (∀ old, movedFrom pairs b = some old → moved.get b = bands.get old ∧
          (bands.get old).isSome = true) ∧
        (movedFrom pairs b = none → moved.get b = renamed.get b)
  | [], bands, renamed, left, moved, h => by
      simp only [renameMoved, Except.ok.injEq, Prod.mk.injEq] at h
      obtain ⟨rfl, rfl⟩ := h
      simp [movedFrom]
  | (old, new) :: pairs, bands, renamed, left, moved, h => by
      unfold renameMoved at h
      obtain ⟨_, _, h⟩ := Lib.bind_eq_ok_iff.mp h
      cases hold : bands.get old with
      | none =>
          simp [hold] at h
      | some paths =>
          simp only [hold] at h
          obtain ⟨hleft, hmoved, hkept⟩ := renameMoved_eq_ok (b := b) h
          refine ⟨?_, ?_, ?_⟩
          · intro paths' hget
            have := hleft paths' hget
            rw [BTreeMap.get_remove] at this
            split at this
            · cases this
            · exact this
          · intro src hsrc
            rw [movedFrom] at hsrc
            cases hrest : movedFrom pairs b with
            | some src' =>
                rw [hrest, Option.some_or, Option.some.injEq] at hsrc
                subst hsrc
                obtain ⟨hget, hsome⟩ := hmoved src' hrest
                rw [BTreeMap.get_remove] at hget hsome
                split at hsome
                · simp at hsome
                · rename_i hne
                  rw [if_neg hne] at hget
                  exact ⟨hget, hsome⟩
            | none =>
                rw [hrest, Option.none_or] at hsrc
                split at hsrc
                · rename_i hb
                  cases hsrc
                  rw [hkept hrest, hb, BTreeMap.get_insert_self, hold]
                  simp
                · cases hsrc
          · intro hnone
            rw [movedFrom, Option.or_eq_none_iff] at hnone
            rw [hkept hnone.1, BTreeMap.get_insert, if_neg]
            intro hb
            simp [hb] at hnone

theorem get_foldl_orInsert (k : String) :
    ∀ (es : List (String × List PathBuf)) (m : BTreeMap (List PathBuf)),
      (es.foldl (fun acc e => orInsert acc e.1 e.2) m).get k = (m.get k).or (es.lookup k)
  | [], m => by
      simp
  | e :: es, m => by
      rw [List.foldl_cons, get_foldl_orInsert k es, BTreeMap.lookup_cons_ite]
      unfold orInsert
      by_cases hk : k = e.1
      · cases hget : m.get e.1 with
        | none =>
            simp [BTreeMap.containsKey, hk, hget]
        | some paths =>
            simp [BTreeMap.containsKey, hk, hget]
      · split
        · simp
        · simp [BTreeMap.get_insert, hk]

/-- After a successful `rename_labels` every band has the path list of the band
it was renamed from, and nothing but the bands and their listing has changed. -/
theorem renameLabels_eq_ok {cube out : DataCube} {source : Option (List String)}
    {target : List String} (h : renameLabels cube source target = .ok out) :
    ∃ oldKeys, renameSources cube source target = .ok oldKeys ∧
      (∀ b paths, out.bands.get b = some paths →
        cube.bands.get (renamedFrom (oldKeys.zip target) b) = some paths) ∧
      out = { cube with bands := out.bands, layerNames := some out.bands.keys } := by
  unfold renameLabels at h
  obtain ⟨oldKeys, hold, h⟩ := Lib.bind_eq_ok_iff.mp h
  obtain ⟨⟨left, moved⟩, hmoved, h⟩ := Lib.bind_eq_ok_iff.mp h
  cases h
  refine ⟨oldKeys, hold, ?_, rfl⟩
  intro b paths hget
  obtain ⟨hleft, hsome, hnone⟩ := renameMoved_eq_ok (b := b) hmoved
  simp only [get_foldl_orInsert] at hget
  cases hfrom : movedFrom (oldKeys.zip target) b with
  | some old =>
      obtain ⟨hold', hisSome⟩ := hsome old hfrom
      rw [hold'] at hget
      obtain ⟨paths', hpaths'⟩ := Option.isSome_iff_exists.mp hisSome
      rw [hpaths', Option.some_or] at hget
      simpa [renamedFrom, hfrom, hpaths'] using hget
  | none =>
      rw [hnone hfrom, BTreeMap.get_empty, Option.none_or] at hget
      simpa [renamedFrom, hfrom] using hleft paths hget

/-- `eval_rename_labels`. -/
def evalRenameLabels (args : Args) : Except ExecError Envelope := do
  let data ← requireArg args "data" "rename_labels: missing `data`"
  let dimension := argStrOr args "dimension" "bands"
  if dimension ≠ "bands" ∧ dimension ≠ "band" then
    .error (.invalidGraph
      s!"rename_labels: only `bands` dimension supported (got `{dimension}`)")
  else
    match argArray args "target" with
    | none => .error (.invalidGraph "rename_labels: `target` must be an array")
    | some target =>
        let cube ← decodeCube data "rename_labels: input is not a cube"
        let out ← renameLabels cube ((argArray args "source").map strings) (strings target)
        .ok (.cube out)

/-- The body of `eval_add_dimension`: the dimension is noted under the extras. -/
def addDimension (cube : DataCube) (name : String) (label : Json) (dimType : String) : DataCube :=
  let added := (cube.extras.get "added_dimensions").getD (.arr [])
  let added :=
    match added with
    | .arr ds => .arr (ds ++ [.obj [("label", label), ("name", .str name), ("type", .str dimType)]])
    | other => other
  { cube with extras := cube.extras.insert "added_dimensions" added }

/-- `eval_add_dimension`. -/
def evalAddDimension (args : Args) : Except ExecError Envelope := do
  let data ← requireArg args "data" "add_dimension: missing `data`"
  match (args.get "name").bind Envelope.asStr with
  | none => .error (.invalidGraph "add_dimension: missing `name`")
  | some name => do
      validateIdentifier name "add_dimension.name"
      let cube ← decodeCube data "add_dimension: input is not a cube"
      .ok (.cube (addDimension cube name (((args.get "label").map Envelope.toValue).getD .null)
        (argStrOr args "type" "other")))

/-- The dimensions that may not be dropped. -/
def loadBearing : List String := ["bands", "band", "t", "time", "x", "y", "spatial"]

/-- The body of `eval_drop_dimension`. -/
def dropDimension (cube : DataCube) (name : String) : Except ExecError DataCube :=
  let notFound : Except ExecError DataCube := .error (.invalidGraph
    s!"drop_dimension: dimension `{name}` not found (only metadata dimensions added via add_dimension can be dropped)")
  match cube.extras.get "added_dimensions" with
  | some (.arr ds) =>
      let kept := ds.filter (fun d => decide ((d.get "name").bind Json.asStr ≠ some name))
      if kept.length = ds.length then notFound
      else .ok { cube with extras := cube.extras.insert "added_dimensions" (.arr kept) }
  | _ => notFound

theorem dropDimension_eq_ok {cube out : DataCube} {name : String}
    (h : dropDimension cube name = .ok out) : out = { cube with extras := out.extras } := by
  unfold dropDimension at h
  dsimp only at h
  split at h
  · split at h
    · cases h
    · cases h
      rfl
  · cases h

/-- `eval_drop_dimension`. -/
def evalDropDimension (args : Args) : Except ExecError Envelope := do
  let data ← requireArg args "data" "drop_dimension: missing `data`"
  match (args.get "name").bind Envelope.asStr with
  | none => .error (.invalidGraph "drop_dimension: missing `name`")
  | some name =>
      if name ∈ loadBearing then
        .error (.invalidGraph
          s!"drop_dimension: cannot drop load-bearing dimension `{name}` (only metadata dimensions added via add_dimension may be dropped)")
      else do
        let cube ← decodeCube data "drop_dimension: input is not a cube"
        let out ← dropDimension cube name
        .ok (.cube out)

/-- Whether two cubes have a band name in common. -/
def bandsOverlap (c1 c2 : DataCube) : Bool :=
  c1.bands.keys.any (fun k => c2.bands.containsKey k)

/-- The envelope both band joins of `merge_cubes` emit: three fields of the first
cube are copied, the rest is not. -/
def mergedFrom (c1 : DataCube) (bands : BTreeMap (List PathBuf)) : DataCube :=
  { bands := bands, bbox := c1.bbox, collection := c1.collection, sceneCount := c1.sceneCount }

/-- Case 1 of `eval_merge_cubes`. -/
def mergeDisjoint (c1 c2 : DataCube) : DataCube :=
  mergedFrom c1 ((BTreeMap.empty.insertAll c1.bands.entries).insertAll c2.bands.entries)

/-- Without a common name the join has the bands of both cubes. -/
theorem get_mergeDisjoint {c1 c2 : DataCube} (h : bandsOverlap c1 c2 = false) (b : String) :
    (mergeDisjoint c1 c2).bands.get b = (c1.bands.get b).or (c2.bands.get b) := by
  rw [mergeDisjoint, mergedFrom, BTreeMap.get_insertAll, BTreeMap.get_insertAll,
    BTreeMap.lastEntry_entries, BTreeMap.lastEntry_entries, BTreeMap.get_empty, Option.or_none]
  cases h1 : c1.bands.get b with
  | none =>
      simp
  | some paths =>
      have hmem : b ∈ c1.bands.keys := (c1.bands.mem_keys_iff_get b).mpr ⟨paths, h1⟩
      have hno : c2.bands.containsKey b = false := by
        simpa using List.any_eq_false.mp h b hmem
      rw [BTreeMap.containsKey, Option.isSome_eq_false_iff, Option.isNone_iff_eq_none] at hno
      rw [hno, Option.none_or, Option.some_or]

end OrbitOpenEO
