import OrbitOpenEO.LoadCollection
import OrbitOpenEO.RasterOps

/-!
# What loading returns

Both paths collect the delivered paths in the order the tasks finish, and the
result does not depend on it: a requested band is in the cube when every scene
has it, with one path for each scene in scene order.

The eager path takes the scales of all scenes from the first one, so they are
right for every scene only when all declare the same.  The streaming path writes
neither scales nor datetimes, so the two cubes agree only when the eager one has
none either.
-/

namespace OrbitOpenEO

open Lib

/-- The path delivered last for a scene and band. -/
def delivered : List Delivery → Nat → String → Option PathBuf
  | [], _, _ => none
  | d :: ds, i, b => (delivered ds i b).or (if d.1 = i ∧ d.2.1 = b then some d.2.2 else none)

theorem mem_of_delivered {i : Nat} {b : String} {p : PathBuf} :
    ∀ {ds : List Delivery}, delivered ds i b = some p → (i, b, p) ∈ ds
  | [], h => by
      cases h
  | d :: ds, h => by
      rw [delivered, Option.or_eq_some_iff] at h
      rcases h with h | ⟨_, h⟩
      · exact List.mem_cons_of_mem _ (mem_of_delivered h)
      · split at h
        · rename_i hd
          cases h
          rw [← hd.1, ← hd.2]
          exact List.mem_cons_self
        · cases h

theorem delivered_isSome {i : Nat} {b : String} {p : PathBuf} :
    ∀ {ds : List Delivery}, (i, b, p) ∈ ds → ∃ p', delivered ds i b = some p'
  | d :: ds, h => by
      rw [delivered]
      rcases List.mem_cons.mp h with rfl | h
      · cases delivered ds i b with
        | none =>
            exact ⟨p, by simp⟩
        | some p' =>
            exact ⟨p', rfl⟩
      · obtain ⟨p', hp'⟩ := delivered_isSome h
        exact ⟨p', by rw [hp', Option.some_or]⟩

theorem get_fillSlot (m : BTreeMap (List (Option PathBuf))) (d : Delivery) (b : String) :
    (fillSlot m d).get b =
      if b = d.2.1 then (m.get b).map (fun slots => slots.set d.1 (some d.2.2)) else m.get b := by
  unfold fillSlot
  cases hget : m.get d.2.1 with
  | none =>
      by_cases hb : b = d.2.1
      · simp [hb, hget]
      · simp [hb]
  | some slots =>
      by_cases hb : b = d.2.1
      · simp [hb, hget]
      · simp [hb, BTreeMap.get_insert]

/-- After all deliveries every slot holds the last path delivered for it. -/
theorem get_foldl_fillSlot (b : String) :
    ∀ (ds : List Delivery) (m : BTreeMap (List (Option PathBuf))),
      (ds.foldl fillSlot m).get b =
        (m.get b).map (fun slots => slots.mapIdx (fun i slot => (delivered ds i b).or slot))
  | [], m => by
      cases hget : m.get b with
      | none =>
          simp [hget]
      | some slots =>
          have hsame : slots.mapIdx (fun i slot => (delivered [] i b).or slot) = slots := by
            refine List.ext_getElem? ?_
            intro i
            simp [delivered]
          simp [hget, hsame]
  | d :: ds, m => by
      rw [List.foldl_cons, get_foldl_fillSlot b ds, get_fillSlot]
      by_cases hb : b = d.2.1
      · subst hb
        rw [if_pos rfl, Option.map_map]
        congr 1
        funext slots
        refine List.ext_getElem? ?_
        intro i
        simp only [Function.comp_apply, List.getElem?_mapIdx, List.getElem?_set, delivered]
        by_cases hi : d.1 = i
        · subst hi
          cases hslot : slots[d.1]? with
          | none =>
              simp [List.getElem?_eq_none_iff.mp hslot]
          | some slot =>
              have hlt := (List.getElem?_eq_some_iff.mp hslot).1
              simp [hlt]
        · simp [hi]
      · have hne : ∀ i, delivered (d :: ds) i b = delivered ds i b := by
          intro i
          rw [delivered, if_neg (fun h => hb h.2.symm), Option.or_none]
        simp only [if_neg hb, hne]

theorem get_foldl_insert_const {α : Type} (v : α) (b : String) :
    ∀ (bands : List String) (m : BTreeMap α),
      (bands.foldl (fun m band => m.insert band v) m).get b =
        if b ∈ bands then some v else m.get b
  | [], m => by
      simp
  | k :: bands, m => by
      rw [List.foldl_cons, get_foldl_insert_const v b bands, BTreeMap.get_insert]
      by_cases hb : b ∈ bands
      · simp [hb]
      · by_cases hk : b = k
        · simp [hk]
        · simp [hb, hk]

theorem get_emptySlots (n : Nat) (bands : List String) (b : String) :
    (emptySlots n bands).get b = if b ∈ bands then some (List.replicate n none) else none := by
  rw [emptySlots, get_foldl_insert_const, BTreeMap.get_empty]

/-- All slots are filled, with these paths. -/
theorem all_isSome_iff (slots : List (Option PathBuf)) (paths : List PathBuf) :
    (slots.all Option.isSome = true ∧ slots.filterMap id = paths) ↔ slots = paths.map some := by
  constructor
  · rintro ⟨hall, rfl⟩
    induction slots with
    | nil =>
        rfl
    | cons slot slots ih =>
        rw [List.all_cons, Bool.and_eq_true] at hall
        obtain ⟨p, rfl⟩ := Option.isSome_iff_exists.mp hall.1
        have hcons : (some p :: slots).filterMap id = p :: slots.filterMap id := rfl
        rw [hcons, List.map_cons, ← ih hall.2]
  · rintro rfl
    simp [List.filterMap_map]

theorem nodup_keys_filterMap {α β : Type} {f : String × α → Option (String × β)}
    (hf : ∀ e r, f e = some r → r.1 = e.1) {es : List (String × α)}
    (hnd : (es.map Prod.fst).Nodup) : ((es.filterMap f).map Prod.fst).Nodup := by
  induction es with
  | nil =>
      exact List.nodup_nil
  | cons e es ih =>
      rw [List.map_cons, List.nodup_cons] at hnd
      cases he : f e with
      | none =>
          rw [List.filterMap_cons_none he]
          exact ih hnd.2
      | some r =>
          rw [List.filterMap_cons_some he, List.map_cons, List.nodup_cons, hf e r he]
          refine ⟨?_, ih hnd.2⟩
          intro hmem
          obtain ⟨r', hr', heq⟩ := List.mem_map.mp hmem
          obtain ⟨e', he', hfe'⟩ := List.mem_filterMap.mp hr'
          exact hnd.1 (List.mem_map.mpr ⟨e', he', by rw [← hf e' r' hfe', heq]⟩)

theorem get_fullBands (perBand : BTreeMap (List (Option PathBuf))) (b : String)
    (paths : List PathBuf) :
    (fullBands perBand).get b = some paths ↔ perBand.get b = some (paths.map some) := by
  have hnd : ((perBand.entries.filterMap (fun e =>
      if e.2.all Option.isSome then some (e.1, e.2.filterMap id) else none)).map
        Prod.fst).Nodup := by
    refine nodup_keys_filterMap ?_ perBand.keys_nodup
    intro e r hr
    split at hr
    · cases hr
      rfl
    · cases hr
  rw [fullBands, BTreeMap.get_ofEntries_eq_some_iff hnd, List.mem_filterMap]
  constructor
  · rintro ⟨e, he, hr⟩
    split at hr
    · rename_i hall
      cases hr
      have hslots := (all_isSome_iff _ _).mp ⟨hall, rfl⟩
      rw [← hslots]
      exact (BTreeMap.get_eq_some_iff perBand _ _).mpr he
    · cases hr
  · intro hget
    obtain ⟨hall, hpaths⟩ := (all_isSome_iff (paths.map some) paths).mpr rfl
    refine ⟨(b, paths.map some), (BTreeMap.get_eq_some_iff perBand _ _).mp hget, ?_⟩
    rw [if_pos hall, hpaths]

/-- **What the slots leave**: a requested band is kept when every scene has
delivered it, with the delivered paths in scene order. -/
theorem get_collectBands (n : Nat) (bands : List String) (ds : List Delivery) (b : String)
    (paths : List PathBuf) :
    (collectBands n bands ds).get b = some paths ↔
      b ∈ bands ∧ (List.range n).map (fun i => delivered ds i b) = paths.map some := by
  rw [collectBands, get_fullBands, get_foldl_fillSlot, get_emptySlots]
  by_cases hb : b ∈ bands
  · have hslots : (List.replicate n (none : Option PathBuf)).mapIdx
        (fun i slot => (delivered ds i b).or slot) =
          (List.range n).map (fun i => delivered ds i b) := by
      refine List.ext_getElem? ?_
      intro i
      by_cases hi : i < n
      · simp [hi]
      · simp [hi]
    simp [hb, hslots]
  · simp [hb]

theorem mem_loadTasks {scenes : List StacScene} {bands : List String} {t : FetchTask} :
    t ∈ loadTasks scenes bands ↔
      ∃ s, scenes[t.scene]? = some s ∧ t.band ∈ bands ∧
        resolveBandHref s t.band = some t.href := by
  simp only [loadTasks, sceneTasks, List.mem_flatMap, List.mem_filterMap, Option.map_eq_some_iff]
  constructor
  · rintro ⟨⟨s, i⟩, hs, band, hband, href, hhref, rfl⟩
    exact ⟨s, List.mem_zipIdx_iff_getElem?.mp hs, hband, hhref⟩
  · rintro ⟨s, hs, hband, hhref⟩
    exact ⟨(s, t.scene), List.mem_zipIdx_iff_getElem?.mpr hs, t.band, hband, t.href, hhref, rfl⟩

/-- A task and its delivery: same scene and band, and a path the task can return. -/
def DeliveredBy (Fetched : FetchTask → PathBuf → Prop) (t : FetchTask) (d : Delivery) : Prop :=
  d.1 = t.scene ∧ d.2.1 = t.band ∧ Fetched t d.2.2

/-- A band every scene has: the scenes resolve it. -/
def OnEveryScene (scenes : List StacScene) (b : String) : Prop :=
  ∀ s ∈ scenes, ∃ href, resolveBandHref s b = some href

section Collected

variable {scenes : List StacScene} {bands : List String} {ts : List FetchTask}
  {ds : List Delivery} {Fetched : FetchTask → PathBuf → Prop}

theorem fetched_of_delivered (hperm : ts.Perm (loadTasks scenes bands))
    (hds : List.Forall₂ (DeliveredBy Fetched) ts ds) {i : Nat} {b : String} {p : PathBuf}
    (h : delivered ds i b = some p) :
    ∃ s href, scenes[i]? = some s ∧ b ∈ bands ∧ resolveBandHref s b = some href ∧
      Fetched ⟨i, b, href⟩ p := by
  obtain ⟨t, ht, rfl, rfl, hp⟩ := forall₂_exists_left hds (mem_of_delivered h)
  obtain ⟨s, hs, hband, hhref⟩ := mem_loadTasks.mp (hperm.mem_iff.mp ht)
  exact ⟨s, t.href, hs, hband, hhref, hp⟩

theorem delivered_of_resolves (hperm : ts.Perm (loadTasks scenes bands))
    (hds : List.Forall₂ (DeliveredBy Fetched) ts ds) {i : Nat} {b : String} {s : StacScene}
    {href : String} (hs : scenes[i]? = some s) (hb : b ∈ bands)
    (hhref : resolveBandHref s b = some href) : ∃ p, delivered ds i b = some p := by
  have ht : (⟨i, b, href⟩ : FetchTask) ∈ ts :=
    hperm.mem_iff.mpr (mem_loadTasks.mpr ⟨s, hs, hb, hhref⟩)
  obtain ⟨d, hd, hi, hband, _⟩ := forall₂_exists_right hds ht
  subst hi hband
  exact delivered_isSome hd

/-- **The collected bands are the requested ones that every scene has.** -/
theorem mem_keys_collectBands (hperm : ts.Perm (loadTasks scenes bands))
    (hds : List.Forall₂ (DeliveredBy Fetched) ts ds) {b : String} :
    b ∈ (collectBands scenes.length bands ds).keys ↔ b ∈ bands ∧ OnEveryScene scenes b := by
  rw [BTreeMap.mem_keys_iff_get]
  constructor
  · rintro ⟨paths, hget⟩
    obtain ⟨hb, hpaths⟩ := (get_collectBands _ _ _ _ _).mp hget
    refine ⟨hb, ?_⟩
    intro s hs
    obtain ⟨i, hi⟩ := List.mem_iff_getElem?.mp hs
    have hlt := (List.getElem?_eq_some_iff.mp hi).1
    have hslot : delivered ds i b ∈ paths.map some := by
      rw [← hpaths]
      exact List.mem_map.mpr ⟨i, List.mem_range.mpr hlt, rfl⟩
    obtain ⟨p, _, hp⟩ := List.mem_map.mp hslot
    obtain ⟨s', href, hs', _, hhref, _⟩ := fetched_of_delivered hperm hds hp.symm
    rw [hi] at hs'
    cases hs'
    exact ⟨href, hhref⟩
  · rintro ⟨hb, hall⟩
    have hsome : ∀ i ∈ List.range scenes.length, ∃ p, delivered ds i b = some p := by
      intro i hi
      have hi' := List.getElem?_eq_getElem (List.mem_range.mp hi)
      obtain ⟨href, hhref⟩ := hall _ (List.mem_of_getElem? hi')
      exact delivered_of_resolves hperm hds hi' hb hhref
    refine ⟨(List.range scenes.length).filterMap (fun i => delivered ds i b), ?_⟩
    rw [get_collectBands]
    refine ⟨hb, ?_⟩
    refine (all_isSome_iff _ _).mp ⟨?_, ?_⟩
    · rw [List.all_map, List.all_eq_true]
      intro i hi
      exact Option.isSome_iff_exists.mpr (hsome i hi)
    · rw [List.filterMap_map]
      rfl

/-- **Path `i` of a collected band is one fetched for scene `i` and this band.** -/
theorem get_collectBands_fetched (hperm : ts.Perm (loadTasks scenes bands))
    (hds : List.Forall₂ (DeliveredBy Fetched) ts ds) {b : String} {paths : List PathBuf}
    (hget : (collectBands scenes.length bands ds).get b = some paths) :
    List.Forall₂ (fun (e : StacScene × Nat) p => ∃ href,
      resolveBandHref e.1 b = some href ∧ Fetched ⟨e.2, b, href⟩ p) scenes.zipIdx paths := by
  obtain ⟨_, hpaths⟩ := (get_collectBands _ _ _ _ _).mp hget
  have hlen : scenes.length = paths.length := by
    simpa using congrArg List.length hpaths
  rw [List.forall₂_iff_get]
  refine ⟨by simpa using hlen, ?_⟩
  intro i hi hi'
  have hslot : delivered ds i b = some (paths.get ⟨i, hi'⟩) := by
    have h := congrArg (fun l => l[i]?) hpaths
    have hlt : i < scenes.length := by simpa using hi
    simpa [hlt, hi'] using h
  obtain ⟨s, href, hs, _, hhref, hp⟩ := fetched_of_delivered hperm hds hslot
  have hs' : scenes.zipIdx.get ⟨i, hi⟩ = (s, i) := by
    have hlt : i < scenes.length := by simpa using hi
    have hget' := (List.getElem?_eq_some_iff.mp hs).2
    simp [hget']
  rw [hs']
  exact ⟨href, hhref, hp⟩

end Collected

theorem harvestScales_cons (first : StacScene) (scenes : List StacScene)
    (bands : BTreeMap (List PathBuf)) :
    harvestScales (first :: scenes) bands =
      BTreeMap.ofEntries ((bands.keys.filter (fun band => declaredScale first band ≠ (1, 0))).map
        (fun band => (band, declaredScale first band))) := by
  simp only [harvestScales]
  rw [← List.filterMap_eq_map, List.filterMap_filter]
  congr 1
  refine List.filterMap_congr ?_
  intro band _
  cases hm : resolveBandMetadata first band with
  | none =>
      simp [declaredScale, hm]
  | some m =>
      by_cases hs : m.scale.getD 1 = 1
      · by_cases ho : m.offset.getD 0 = 0
        · simp [declaredScale, hm, hs, ho]
        · simp [declaredScale, hm, hs, ho]
      · simp [declaredScale, hm, hs]

theorem get_harvestScales {first : StacScene} {scenes : List StacScene}
    {bands : BTreeMap (List PathBuf)} {b : String} {v : ℚ × ℚ} :
    (harvestScales (first :: scenes) bands).get b = some v ↔
      b ∈ bands.keys ∧ declaredScale first b = v ∧ v ≠ (1, 0) := by
  have hnd : (((bands.keys.filter (fun band => declaredScale first band ≠ (1, 0))).map
      (fun band => (band, declaredScale first band))).map Prod.fst).Nodup := by
    rw [List.map_map]
    simpa [Function.comp_def] using bands.keys_nodup.filter _
  rw [harvestScales_cons, BTreeMap.get_ofEntries_eq_some_iff hnd, List.mem_map]
  constructor
  · rintro ⟨band, hband, heq⟩
    cases heq
    obtain ⟨hmem, hne⟩ := List.mem_filter.mp hband
    exact ⟨hmem, rfl, by simpa using hne⟩
  · rintro ⟨hb, rfl, hne⟩
    exact ⟨b, List.mem_filter.mpr ⟨hb, by simpa using hne⟩, rfl⟩

theorem harvestScales_eq_empty_iff {first : StacScene} {scenes : List StacScene}
    {bands : BTreeMap (List PathBuf)} :
    harvestScales (first :: scenes) bands = BTreeMap.empty ↔
      ∀ b ∈ bands.keys, declaredScale first b = (1, 0) := by
  constructor
  · intro hempty b hb
    by_contra hne
    have hget : (harvestScales (first :: scenes) bands).get b = some (declaredScale first b) :=
      get_harvestScales.mpr ⟨hb, rfl, hne⟩
    rw [hempty] at hget
    cases hget
  · intro hone
    refine BTreeMap.ext_get ?_
    intro b
    rw [BTreeMap.get_empty, Option.eq_none_iff_forall_ne_some]
    intro v hv
    obtain ⟨hb, rfl, hne⟩ := get_harvestScales.mp hv
    exact hne (hone b hb)

/-- The scale recorded for a band is the one the first scene declares. -/
theorem scaleOf_eagerCube {req : LoadRequest} {first : StacScene} {scenes : List StacScene}
    {bands : BTreeMap (List PathBuf)} {b : String} (hb : b ∈ bands.keys) :
    (eagerCube req (first :: scenes) bands).scaleOf b = declaredScale first b := by
  unfold DataCube.scaleOf
  by_cases hone : declaredScale first b = (1, 0)
  · have hnone : (harvestScales (first :: scenes) bands).get b = none := by
      rw [Option.eq_none_iff_forall_ne_some]
      intro v hv
      obtain ⟨_, rfl, hne⟩ := get_harvestScales.mp hv
      exact hne hone
    rw [eagerCube, hnone, hone]
    rfl
  · have hsome : (harvestScales (first :: scenes) bands).get b = some (declaredScale first b) :=
      get_harvestScales.mpr ⟨hb, rfl, hone⟩
    rw [eagerCube, hsome]
    rfl

theorem map_harvestDatetimes {scenes : List StacScene} {dts : List String}
    (h : harvestDatetimes scenes = some dts) :
    dts.map some = scenes.map (fun s => s.datetime) := by
  unfold harvestDatetimes at h
  split at h
  · rename_i hall
    cases h
    refine ((all_isSome_iff (scenes.map (fun s => s.datetime)) _).mp ⟨?_, ?_⟩).symm
    · rw [List.all_map]
      exact hall
    · rw [List.filterMap_map]
      rfl
  · cases h

theorem harvestDatetimes_eq_none_iff {scenes : List StacScene} :
    harvestDatetimes scenes = none ↔ ∃ s ∈ scenes, s.datetime = none := by
  unfold harvestDatetimes
  split
  · rename_i hall
    rw [List.all_eq_true] at hall
    refine iff_of_false nofun ?_
    rintro ⟨s, hs, hnone⟩
    have := hall s hs
    simp [hnone] at this
  · rename_i hall
    simpa using hall

section Eager

variable {P : Platform} {dir : PathBuf} {checkUrl : String → Except String Unit}
  {order : List FetchTask → List FetchTask} {req : LoadRequest} {scenes : List StacScene}
  {w w' : World} {cube : DataCube}

theorem scenes_ne_nil {u : Unit} (h : checkRequest P req scenes = .ok u) : scenes ≠ [] := by
  rintro rfl
  cases h

/-- Among the downloads of a call, one for this task has returned the path. -/
def FetchedIn (P : Platform) (dir : PathBuf) (checkUrl : String → Except String Unit)
    (order : List FetchTask → List FetchTask) (req : LoadRequest) (scenes : List StacScene)
    (w : World) (t : FetchTask) (p : PathBuf) : Prop :=
  RoundReturns (fetchTask P dir checkUrl req) (order (loadTasks scenes req.bands)) w t
    (t.scene, t.band, p)

theorem fetchTask_eq_ok {t : FetchTask} {d : Delivery}
    (h : fetchTask P dir checkUrl req t w = .ok d w') : d = (t.scene, t.band, d.2.2) := by
  unfold fetchTask at h
  obtain ⟨p, w₁, _, h⟩ := act_bind_eq_ok_iff.mp h
  obtain ⟨rfl, _⟩ := act_pure_eq_ok_iff.mp h
  rfl

theorem fetches_deliver {ds : List Delivery}
    (h : mapEach (fetchTask P dir checkUrl req) (order (loadTasks scenes req.bands)) w =
      .ok ds w') :
    List.Forall₂ (DeliveredBy (FetchedIn P dir checkUrl order req scenes w))
      (order (loadTasks scenes req.bands)) ds := by
  refine (mapEach_rounds h).imp ?_
  intro t d hround
  have hd : d = (t.scene, t.band, d.2.2) := by
    obtain ⟨_, _, _, _, _, _, _, hfetch⟩ := hround
    exact fetchTask_eq_ok hfetch
  refine ⟨by rw [hd], by rw [hd], ?_⟩
  rw [FetchedIn, ← hd]
  exact hround

/-- What the eager path returns for a list of scenes. -/
structure LoadsScenes (P : Platform) (dir : PathBuf) (checkUrl : String → Except String Unit)
    (order : List FetchTask → List FetchTask) (req : LoadRequest) (scenes : List StacScene)
    (w : World) (cube : DataCube) : Prop where
  /-- The bands are the requested names that resolve on every scene. -/
  names : ∀ b, b ∈ cube.bands.keys ↔ b ∈ req.bands ∧ OnEveryScene scenes b
  /-- Path `i` of a band is the file fetched for scene `i` and this band. -/
  files : ∀ b paths, cube.bands.get b = some paths →
    List.Forall₂ (fun (e : StacScene × Nat) p => ∃ href, resolveBandHref e.1 b = some href ∧
      FetchedIn P dir checkUrl order req scenes w ⟨e.2, b, href⟩ p) scenes.zipIdx paths
  /-- The datetimes, when present, are those of the scenes. -/
  times : ∀ dts, cube.datetimes = some dts → dts.map some = scenes.map (fun s => s.datetime)
  /-- The scale of a band is the one the first scene declares. -/
  scales : ∀ first, scenes.head? = some first →
    ∀ b ∈ cube.bands.keys, cube.scaleOf b = declaredScale first b

/-- For every scene the recorded scale of a band is the scene's own. -/
def OwnScales (scenes : List StacScene) (cube : DataCube) : Prop :=
  ∀ b ∈ cube.bands.keys, ∀ s ∈ scenes, cube.scaleOf b = declaredScale s b

theorem eagerCube_loads
    (horder : (order (loadTasks scenes req.bands)).Perm (loadTasks scenes req.bands))
    {ds : List Delivery}
    (h : mapEach (fetchTask P dir checkUrl req) (order (loadTasks scenes req.bands)) w =
      .ok ds w') :
    LoadsScenes P dir checkUrl order req scenes w
      (eagerCube req scenes (collectBands scenes.length req.bands ds)) where
  names _ := mem_keys_collectBands horder (fetches_deliver h)
  files _ _ hget := get_collectBands_fetched horder (fetches_deliver h) hget
  times _ hdts := map_harvestDatetimes hdts
  scales := by
    intro first hfirst b hb
    cases scenes with
    | nil =>
        cases hfirst
    | cons s scenes =>
        cases hfirst
        exact scaleOf_eagerCube hb

/-- How the eager path returns. -/
theorem loadEager_eq_ok (h : loadEager P dir checkUrl order req scenes w = .ok cube w') :
    scenes ≠ [] ∧ ∃ ds,
      mapEach (fetchTask P dir checkUrl req) (order (loadTasks scenes req.bands)) w = .ok ds w' ∧
        cube = eagerCube req scenes (collectBands scenes.length req.bands ds) := by
  unfold loadEager at h
  obtain ⟨_, hreq, h⟩ := attempt_bind_eq_ok_iff.mp h
  obtain ⟨_, _, h⟩ := attempt_bind_eq_ok_iff.mp h
  obtain ⟨ds, w₁, hfetch, h⟩ := act_bind_eq_ok_iff.mp h
  split at h
  · cases h
  · obtain ⟨rfl, rfl⟩ := act_pure_eq_ok_iff.mp h
    exact ⟨scenes_ne_nil hreq, ds, hfetch, rfl⟩

/-- **What the eager path returns, in whatever order the downloads finish**: the
scenes' files and times band by band, and the scales of the first scene.  It does
return when its checks pass, no download fails and some requested band is on every
scene. -/
theorem loadEager_loads
    (horder : (order (loadTasks scenes req.bands)).Perm (loadTasks scenes req.bands)) :
    (∀ cube w', loadEager P dir checkUrl order req scenes w = .ok cube w' →
      LoadsScenes P dir checkUrl order req scenes w cube) ∧
    (checkRequest P req scenes = .ok () →
      checkTasks validateAssetHref (loadTasks scenes req.bands) = .ok () →
      (∃ b ∈ req.bands, OnEveryScene scenes b) →
      ∀ ds w', mapEach (fetchTask P dir checkUrl req) (order (loadTasks scenes req.bands)) w =
          .ok ds w' →
        ∃ cube, loadEager P dir checkUrl order req scenes w = .ok cube w') := by
  constructor
  · intro cube w' h
    obtain ⟨_, ds, hfetch, rfl⟩ := loadEager_eq_ok h
    exact eagerCube_loads horder hfetch
  · rintro hreq hhosts ⟨b, hb, hall⟩ ds w' hfetch
    have hne : (collectBands scenes.length req.bands ds).entries.isEmpty = false := by
      obtain ⟨e, he, _⟩ :=
        List.mem_map.mp (((eagerCube_loads horder hfetch).names b).mpr ⟨hb, hall⟩)
      rw [List.isEmpty_eq_false_iff]
      exact List.ne_nil_of_mem he
    refine ⟨eagerCube req scenes (collectBands scenes.length req.bands ds), ?_⟩
    unfold loadEager
    refine attempt_bind_eq_ok_iff.mpr ⟨(), hreq, ?_⟩
    refine attempt_bind_eq_ok_iff.mpr ⟨(), hhosts, ?_⟩
    refine act_bind_eq_ok_iff.mpr ⟨ds, w', hfetch, ?_⟩
    simp only [hne, Bool.false_eq_true, if_false]
    rfl

/-- Two scenes of one tile; the second one was processed with another offset. -/
def mixedScenes : List StacScene :=
  [⟨"S2A_0400", BTreeMap.empty.insert "red" "https://example.com/a/B04.tif",
      BTreeMap.empty.insert "red" ⟨some (1 / 10000), some (-1 / 10)⟩, some "2023-06-01T00:00:00Z"⟩,
    ⟨"S2A_0301", BTreeMap.empty.insert "red" "https://example.com/b/B04.tif",
      BTreeMap.empty.insert "red" ⟨some (1 / 10000), none⟩, some "2021-06-01T00:00:00Z"⟩]

/-- A request for the red and an absent band, the red one twice. -/
def redRequest : LoadRequest := ⟨"sentinel-2-l2a", ⟨0, 0, 1, 1⟩, "EPSG:4326", ["B04", "B09", "B04"]⟩

theorem loadEager_loads_mixed : ∃ cube w',
    loadEager Platform.exact "/work" (fun _ => .ok ()) List.reverse redRequest mixedScenes
        World.empty = .ok cube w' ∧
      cube.bands.keys = ["B04"] ∧
      LoadsScenes Platform.exact "/work" (fun _ => .ok ()) List.reverse redRequest mixedScenes
        World.empty cube := by
  have hrun : ∃ cube w', loadEager Platform.exact "/work" (fun _ => .ok ()) List.reverse redRequest
      mixedScenes World.empty = .ok cube w' ∧ cube.bands.keys = ["B04"] := ⟨_, _, rfl, rfl⟩
  obtain ⟨cube, w', hload, hkeys⟩ := hrun
  exact ⟨cube, w', hload, hkeys, (loadEager_loads (List.reverse_perm _)).1 cube w' hload⟩

/-- The second scene is given the offset of the first. -/
theorem mixed_offsets_not_ownScales : ∃ cube w',
    loadEager Platform.exact "/work" (fun _ => .ok ()) id redRequest mixedScenes World.empty =
        .ok cube w' ∧
      ¬ OwnScales mixedScenes cube := by
  refine ⟨_, _, rfl, ?_⟩
  intro hown
  have hsecond := hown "B04" (by decide +kernel) _ (List.mem_cons_of_mem _ List.mem_cons_self)
  revert hsecond
  decide +kernel

end Eager

/-- The two cubes differ only in their files and in their extra fields. -/
structure SameButFiles (c₁ c₂ : DataCube) : Prop where
  /-- The same bands, with as many files each. -/
  bands : c₁.bands.mapValues List.length = c₂.bands.mapValues List.length
  fields : c₂ = { c₁ with bands := c₂.bands, extras := c₂.extras }

/-- The two calls fail alike or return such cubes. -/
def SameResult : Except ExecError DataCube → Except ExecError DataCube → Prop
  | .ok c₁, .ok c₂ => SameButFiles c₁ c₂
  | .error e₁, .error e₂ => e₁ = e₂
  | _, _ => False

namespace SameButFiles

variable {c₁ c₂ : DataCube}

theorem get_length (h : SameButFiles c₁ c₂) (b : String) :
    (c₁.bands.get b).map List.length = (c₂.bands.get b).map List.length := by
  rw [← BTreeMap.get_mapValues, ← BTreeMap.get_mapValues, h.bands]

theorem datetimes_eq (h : SameButFiles c₁ c₂) : c₁.datetimes = c₂.datetimes := by
  rw [h.fields]

theorem scaleOf_eq (h : SameButFiles c₁ c₂) (b : String) : c₁.scaleOf b = c₂.scaleOf b := by
  rw [h.fields]
  rfl

theorem keys_eq (h : SameButFiles c₁ c₂) : c₁.bands.keys = c₂.bands.keys := by
  have hkeys := congrArg BTreeMap.keys h.bands
  simpa [BTreeMap.keys, BTreeMap.mapValues, Function.comp_def] using hkeys

/-- `filter_temporal` treats the two alike. -/
theorem filterTemporal (h : SameButFiles c₁ c₂) (start stop : Option String) :
    SameResult (filterTemporal c₁ start stop) (filterTemporal c₂ start stop) := by
  unfold OrbitOpenEO.filterTemporal
  rw [← h.datetimes_eq]
  cases c₁.datetimes with
  | none =>
      rfl
  | some datetimes =>
      dsimp only
      split
      · rfl
      · refine ⟨?_, ?_⟩
        · refine BTreeMap.ext_get ?_
          intro b
          simp only [BTreeMap.get_mapValues, Option.map_map]
          have hkept : ∀ paths : List PathBuf,
              (if paths.length = datetimes.length then pick (keepScenes start stop datetimes) paths
                else paths).length =
              if paths.length = datetimes.length then (keepScenes start stop datetimes).length
                else paths.length := by
            intro paths
            split
            · rename_i hlen
              exact length_pick fun i hi => hlen ▸ lt_of_mem_keepScenes hi
            · rfl
          have hlen := congrArg (Option.map (fun n => if n = datetimes.length then
            (keepScenes start stop datetimes).length else n)) (h.get_length b)
          simpa only [Option.map_map, Function.comp_def, hkept] using hlen
        · rw [h.fields]

/-- `apply` treats the two alike. -/
theorem apply (h : SameButFiles c₁ c₂) (P : Platform) (subPg : Json) :
    numericBands c₁ = numericBands c₂ ∧
      ∀ b, applyWorker P subPg (c₁.scaleOf b) = applyWorker P subPg (c₂.scaleOf b) := by
  refine ⟨?_, ?_⟩
  · rw [numericBands, numericBands, h.keys_eq]
  · intro b
    rw [h.scaleOf_eq]

end SameButFiles

section Paths

variable {P : Platform} {dir : PathBuf} {checkUrl : String → Except String Unit}
  {emit : FetchTask → CropWindow → String → Except ExecError Raster}
  {order order' : List FetchTask → List FetchTask} {req : LoadRequest} {scenes : List StacScene}
  {w w' v v' : World} {ce cs : DataCube}

theorem loadEager_delivers (h : loadEager P dir checkUrl order req scenes w = .ok ce w') :
    scenes ≠ [] ∧ ∃ ds,
      List.Forall₂ (DeliveredBy (fun _ _ => True)) (order (loadTasks scenes req.bands)) ds ∧
        ce = eagerCube req scenes (collectBands scenes.length req.bands ds) := by
  obtain ⟨hne, ds, hfetch, rfl⟩ := loadEager_eq_ok h
  refine ⟨hne, ds, (fetches_deliver hfetch).imp ?_, rfl⟩
  exact fun _ _ hd => ⟨hd.1, hd.2.1, trivial⟩

theorem emitTask_returns (t : FetchTask) :
    Returns (DeliveredBy (fun _ _ => True) t) (emitTask dir emit req t) := by
  intro w d w' h
  unfold emitTask at h
  dsimp only at h
  split at h
  · cases h
    exact ⟨rfl, rfl, trivial⟩
  · cases h

theorem loadStream_delivers (h : loadStream P dir emit order req scenes w = .ok cs w') :
    ∃ ds,
      List.Forall₂ (DeliveredBy (fun _ _ => True)) (order (loadTasks scenes req.bands)) ds ∧
        cs = streamCube req scenes (collectBands scenes.length req.bands ds) := by
  unfold loadStream at h
  obtain ⟨_, _, h⟩ := attempt_bind_eq_ok_iff.mp h
  obtain ⟨_, _, h⟩ := attempt_bind_eq_ok_iff.mp h
  obtain ⟨ds, w₁, hemit, h⟩ := act_bind_eq_ok_iff.mp h
  refine ⟨ds, mapEach_returns_forall₂ (fun t _ => emitTask_returns t) _ _ _ hemit, ?_⟩
  split at h
  · cases h
  · obtain ⟨rfl, _⟩ := act_pure_eq_ok_iff.mp h
    rfl

/-- The collected bands have one path for each scene. -/
theorem mapValues_length_collectBands {bands : List String} {ts ts' : List FetchTask}
    {ds ds' : List Delivery} (hperm : ts.Perm (loadTasks scenes bands))
    (hperm' : ts'.Perm (loadTasks scenes bands))
    (hds : List.Forall₂ (DeliveredBy (fun _ _ => True)) ts ds)
    (hds' : List.Forall₂ (DeliveredBy (fun _ _ => True)) ts' ds') :
    (collectBands scenes.length bands ds).mapValues List.length =
      (collectBands scenes.length bands ds').mapValues List.length := by
  have hlen : ∀ (es : List Delivery) (b : String) (paths : List PathBuf),
      (collectBands scenes.length bands es).get b = some paths → paths.length = scenes.length := by
    intro es b paths hget
    have hpaths := ((get_collectBands _ _ _ _ _).mp hget).2
    simpa using (congrArg List.length hpaths).symm
  refine BTreeMap.ext_get ?_
  intro b
  rw [BTreeMap.get_mapValues, BTreeMap.get_mapValues]
  have hkeys : b ∈ (collectBands scenes.length bands ds).keys ↔
      b ∈ (collectBands scenes.length bands ds').keys := by
    rw [mem_keys_collectBands hperm hds, mem_keys_collectBands hperm' hds']
  rw [BTreeMap.mem_keys_iff_get, BTreeMap.mem_keys_iff_get] at hkeys
  cases hget : (collectBands scenes.length bands ds).get b with
  | none =>
      cases hget' : (collectBands scenes.length bands ds').get b with
      | none =>
          rfl
      | some paths' =>
          obtain ⟨paths, hpaths⟩ := hkeys.mpr ⟨paths', hget'⟩
          rw [hget] at hpaths
          cases hpaths
  | some paths =>
      obtain ⟨paths', hget'⟩ := hkeys.mp ⟨paths, hget⟩
      rw [hget', Option.map_some, Option.map_some, hlen ds b paths hget, hlen ds' b paths' hget']

/-- The two cubes differ only in file paths and markers, and `filter_temporal` and
`apply` treat them alike. -/
structure LoadsAgree (req : LoadRequest) (ce cs : DataCube) : Prop where
  same : SameButFiles ce cs
  plain : ce.extras = BTreeMap.empty
  marks : cs.extras = streamMarks req.crs
  temporal : ∀ start stop,
    SameResult (filterTemporal ce start stop) (filterTemporal cs start stop)
  apply : ∀ P subPg, numericBands ce = numericBands cs ∧
    ∀ b, applyWorker P subPg (ce.scaleOf b) = applyWorker P subPg (cs.scaleOf b)

/-- The cubes of the two paths agree when the eager one has neither scales nor
datetimes. -/
theorem loadsAgree_iff_fields {be bs : BTreeMap (List PathBuf)}
    (hbands : be.mapValues List.length = bs.mapValues List.length) :
    LoadsAgree req (eagerCube req scenes be) (streamCube req scenes bs) ↔
      harvestScales scenes be = BTreeMap.empty ∧ harvestDatetimes scenes = none := by
  constructor
  · intro h
    have hfields := h.same.fields
    exact ⟨(congrArg DataCube.bandScales hfields).symm, (congrArg DataCube.datetimes hfields).symm⟩
  · rintro ⟨hscales, hdatetimes⟩
    have hsame : SameButFiles (eagerCube req scenes be) (streamCube req scenes bs) := by
      refine ⟨hbands, ?_⟩
      rw [eagerCube, hscales, hdatetimes]
      rfl
    exact ⟨hsame, rfl, rfl, hsame.filterTemporal, hsame.apply⟩

/-- **The two paths agree exactly when some scene has no datetime and the first
scene declares no scale for a band of the cube.** -/
theorem loads_agree_iff
    (horder : (order (loadTasks scenes req.bands)).Perm (loadTasks scenes req.bands))
    (horder' : (order' (loadTasks scenes req.bands)).Perm (loadTasks scenes req.bands))
    (he : loadEager P dir checkUrl order req scenes w = .ok ce w')
    (hs : loadStream P dir emit order' req scenes v = .ok cs v') :
    LoadsAgree req ce cs ↔
      (∃ s ∈ scenes, s.datetime = none) ∧
        ∀ first, scenes.head? = some first →
          ∀ b ∈ req.bands, OnEveryScene scenes b → declaredScale first b = (1, 0) := by
  obtain ⟨hne, ds, hds, rfl⟩ := loadEager_delivers he
  obtain ⟨ds', hds', rfl⟩ := loadStream_delivers hs
  rw [loadsAgree_iff_fields (mapValues_length_collectBands horder horder' hds hds'),
    harvestDatetimes_eq_none_iff, and_comm]
  obtain ⟨first, rest, rfl⟩ := List.exists_cons_of_ne_nil hne
  refine and_congr_right' ?_
  rw [harvestScales_eq_empty_iff]
  constructor
  · rintro hone first' hfirst b hb hall
    cases hfirst
    exact hone b ((mem_keys_collectBands horder hds).mpr ⟨hb, hall⟩)
  · intro hone b hb
    obtain ⟨hmem, hall⟩ := (mem_keys_collectBands horder hds).mp hb
    exact hone first rfl b hmem hall

/-- A scene of a catalog that gives neither a datetime nor scales. -/
def plainScenes : List StacScene :=
  [⟨"dem_n47", BTreeMap.empty.insert "B04" "https://example.com/c/B04.tif", BTreeMap.empty, none⟩]

/-- The virtual raster over one pixel. -/
def emitPixel (_ : FetchTask) (_ : CropWindow) (_ : String) : Except ExecError Raster :=
  .ok ⟨1, 1, 1, -1, fun _ _ => .finite 1⟩

theorem loads_agree_plain : ∃ ce cs w' v',
    loadEager Platform.exact "/work" (fun _ => .ok ()) id redRequest plainScenes World.empty =
        .ok ce w' ∧
      loadStream Platform.exact "/work" emitPixel List.reverse redRequest plainScenes World.empty =
        .ok cs v' ∧
      LoadsAgree redRequest ce cs := by
  have heager : ∃ ce w', loadEager Platform.exact "/work" (fun _ => .ok ()) id redRequest
      plainScenes World.empty = .ok ce w' := ⟨_, _, rfl⟩
  have hstream : ∃ cs v', loadStream Platform.exact "/work" emitPixel List.reverse redRequest
      plainScenes World.empty = .ok cs v' := ⟨_, _, rfl⟩
  obtain ⟨ce, w', he⟩ := heager
  obtain ⟨cs, v', hs⟩ := hstream
  refine ⟨ce, cs, w', v', he, hs,
    (loads_agree_iff (List.Perm.refl _) (List.reverse_perm _) he hs).mpr ⟨?_, ?_⟩⟩
  · exact ⟨_, List.mem_cons_self, rfl⟩
  · rintro _ ⟨⟩ b _ _
    have hnone : resolveAlias (BTreeMap.empty : BTreeMap BandMetadata) b = none := by
      simp [resolveAlias, List.findSome?_eq_none_iff]
    simp [declaredScale, resolveBandMetadata, hnone]

/-- The streaming path drops the datetimes and the scales. -/
theorem stream_drops_times : ∃ ce cs w' v',
    loadEager Platform.exact "/work" (fun _ => .ok ()) id redRequest mixedScenes World.empty =
        .ok ce w' ∧
      loadStream Platform.exact "/work" emitPixel id redRequest mixedScenes World.empty =
        .ok cs v' ∧
      ce.datetimes = some ["2023-06-01T00:00:00Z", "2021-06-01T00:00:00Z"] ∧
      cs.datetimes = none ∧ ¬ LoadsAgree redRequest ce cs := by
  refine ⟨_, _, _, _, rfl, rfl, rfl, rfl, ?_⟩
  intro h
  cases h.same.datetimes_eq

end Paths

end OrbitOpenEO
