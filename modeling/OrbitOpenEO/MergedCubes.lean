import OrbitOpenEO.BandReduction

/-!
# What a merge keeps

`merge_cubes` joins two cubes.  Bands of one cube only are handed on, and a band of both is
reduced scene by scene by the overlap resolver, the value of the first cube before that of the
second.  Without a resolver, two cubes with a common band become a mosaic of one scene each,
which the function announces as its older, lenient behaviour.
-/

namespace OrbitOpenEO

open Lib

section Rounds

variable {α β : Type} {f : α → Eval β} {Wrote : β → PathBuf → Prop}

/-- A loop changes only what its rounds write. -/
theorem mapEach_files_of_notWrote {xs : List α}
    (hf : ∀ x ∈ xs, ∀ w y w', f x w = .ok y w' → ∀ p, ¬ Wrote y p → w'.files p = w.files p)
    {w w' : World} {ys : List β} (h : mapEach f xs w = .ok ys w') {p : PathBuf}
    (hp : ∀ y ∈ ys, ¬ Wrote y p) : w'.files p = w.files p := by
  induction xs generalizing w w' ys with
  | nil =>
      obtain ⟨_, rfl⟩ := act_pure_eq_ok_iff.mp h
      rfl
  | cons x xs ih =>
      rw [List.forall_mem_cons] at hf
      obtain ⟨y, w₁, hx, h⟩ := act_bind_eq_ok_iff.mp h
      obtain ⟨ys', w₂, hxs, h⟩ := act_bind_eq_ok_iff.mp h
      obtain ⟨rfl, rfl⟩ := act_pure_eq_ok_iff.mp h
      rw [List.forall_mem_cons] at hp
      rw [ih hf.2 hxs hp.2, hf.1 w y w₁ hx p hp.1]

/-- Every value of a loop was returned by a round between what was written before and what
was written after. -/
theorem mapEach_round {xs : List α}
    (hf : ∀ x ∈ xs, ∀ w y w', f x w = .ok y w' → ∀ p, ¬ Wrote y p → w'.files p = w.files p)
    {w w' : World} {ys : List β} (h : mapEach f xs w = .ok ys w') {y : β} (hy : y ∈ ys) :
    ∃ x ∈ xs, ∃ wi wi' before after, ys = before ++ y :: after ∧ f x wi = .ok y wi' ∧
      (∀ p, (∀ z ∈ before, ¬ Wrote z p) → wi.files p = w.files p) ∧
        ∀ p, (∀ z ∈ after, ¬ Wrote z p) → w'.files p = wi'.files p := by
  induction xs generalizing w w' ys with
  | nil =>
      obtain ⟨rfl, _⟩ := act_pure_eq_ok_iff.mp h
      cases hy
  | cons x xs ih =>
      rw [List.forall_mem_cons] at hf
      obtain ⟨y₀, w₁, hx, h⟩ := act_bind_eq_ok_iff.mp h
      obtain ⟨ys', w₂, hxs, h⟩ := act_bind_eq_ok_iff.mp h
      obtain ⟨rfl, rfl⟩ := act_pure_eq_ok_iff.mp h
      rcases List.mem_cons.mp hy with rfl | hy
      · exact ⟨x, List.mem_cons_self, w, w₁, [], ys', rfl, hx, fun _ _ => rfl,
          fun p hp => mapEach_files_of_notWrote hf.2 hxs hp⟩
      · obtain ⟨z, hz, wi, wi', before, after, rfl, hround, hbefore, hafter⟩ := ih hf.2 hxs hy
        refine ⟨z, List.mem_cons_of_mem _ hz, wi, wi', y₀ :: before, after, rfl, hround,
          fun p hp => ?_, hafter⟩
        rw [List.forall_mem_cons] at hp
        rw [hbefore p hp.2, hf.1 w y₀ w₁ hx p hp.1]

end Rounds

section Band

variable {P : Platform} {dir : PathBuf} {kind : ReducerKind}

/-- The file of a resolved scene. -/
def mergeName (band : String) (t nanos : Nat) : String := s!"merge_resolve_{band}_t{t}_{nanos}.tif"

theorem scratch_mergeName (band : String) (t n : Nat) :
    scratch dir (mergeName band t n) =
      dir ++ "/" ++ ("merge_resolve_" ++ band) ++ "_t" ++ toString t ++ "_" ++ toString n ++ ".tif" := by
  have hname : mergeName band t n =
      "merge_resolve_" ++ (band ++ ("_t" ++ (toString t ++ ("_" ++ (toString n ++ ".tif"))))) := by
    change s!"merge_resolve_{band}_t{t}_{n}.tif" = _
    simp only [String.append_assoc]
    rfl
  have hhead : "merge_resolve_".toList.head? = some 'm' := rfl
  rw [hname, scratch_of_head hhead (by decide)]
  simp only [String.append_assoc]

/-- The name shows the band and the scene. -/
theorem mergeName_inj {band₁ band₂ : String} {t₁ t₂ n₁ n₂ : Nat}
    (h : scratch dir (mergeName band₁ t₁ n₁) = scratch dir (mergeName band₂ t₂ n₂)) :
    band₁ = band₂ ∧ t₁ = t₂ := by
  rw [scratch_mergeName, scratch_mergeName] at h
  obtain ⟨hfront, ht⟩ := stamped_inj h
  rw [String.append_right_inj, String.append_right_inj] at hfront
  exact ⟨hfront, ht⟩

/-- The body of the loop over the scenes of a band. -/
def resolveScene (P : Platform) (dir : PathBuf) (kind : ReducerKind) (band : String)
    (e : (PathBuf × PathBuf) × Nat) : Eval PathBuf := do
  let nanos ← now P
  let out := scratch dir (mergeName band e.2 nanos)
  reduction P [e.1.1, e.1.2] out (resolveError band e.2) (reduceWorker P kind)
  pure out

/-- The raster is resolved from the two files of a scene. -/
def SceneResolved (P : Platform) (kind : ReducerKind) (a b : PathBuf)
    (files : PathBuf → Option Raster) (r : Raster) : Prop :=
  ∃ r₁ r₂, files a = some r₁ ∧ files b = some r₂ ∧ HoldsReduced P kind [r₁, r₂] r

theorem resolveScene_ok {band : String} {e : (PathBuf × PathBuf) × Nat} {w w' : World}
    {p : PathBuf} (h : resolveScene P dir kind band e w = .ok p w') :
    (∃ n, p = scratch dir (mergeName band e.2 n)) ∧
      ∃ r, w'.files = Function.update w.files p (some r) ∧
        SceneResolved P kind e.1.1 e.1.2 w.files r := by
  obtain ⟨nanos, w₁, hnow, h⟩ := act_bind_eq_ok_iff.mp h
  cases hnow
  obtain ⟨u, w₂, hred, h⟩ := act_bind_eq_ok_iff.mp h
  obtain ⟨rfl, rfl⟩ := act_pure_eq_ok_iff.mp h
  obtain ⟨r, hfiles, hsources, rfl⟩ := reduction_writesFile P _ _ _ _ _ _ _ hred
  obtain ⟨r₁, hr₁⟩ := Option.isSome_iff_exists.mp (hsources e.1.1 (by simp))
  obtain ⟨r₂, hr₂⟩ := Option.isSome_iff_exists.mp (hsources e.1.2 (by simp))
  have hvalues : [e.1.1, e.1.2].filterMap w.files = [r₁, r₂] := by
    rw [List.filterMap_cons_some hr₁, List.filterMap_cons_some hr₂, List.filterMap_nil]
  refine ⟨⟨_, rfl⟩, _, hfiles, r₁, r₂, hr₁, hr₂, ?_⟩
  change HoldsReduced P kind [r₁, r₂] (reduceWorker P kind ([e.1.1, e.1.2].filterMap w.files))
  rw [hvalues]
  exact holdsReduced_worker kind [r₁, r₂]

/-- The scenes of a band are written to different files. -/
theorem nodup_of_resolveScenes {band : String} {pairs : List (PathBuf × PathBuf)} {w w' : World}
    {paths : List PathBuf}
    (h : mapEach (resolveScene P dir kind band) pairs.zipIdx w = .ok paths w') :
    paths.Nodup ∧ paths.length = pairs.length ∧
      ∀ p ∈ paths, ∃ t n, p = scratch dir (mergeName band t n) := by
  have hround : ∀ e ∈ pairs.zipIdx, Returns (fun p => ∃ n, p = scratch dir (mergeName band e.2 n))
      (resolveScene P dir kind band e) := fun e _ w p w' hp => (resolveScene_ok hp).1
  have hnames := mapEach_returns_forall₂ hround w paths w' h
  have hscenes : pairs.zipIdx.Pairwise fun e e' => e.2 ≠ e'.2 := by
    have hnd : (pairs.zipIdx.map Prod.snd).Nodup := by
      rw [List.zipIdx_map_snd]
      exact List.nodup_range'
    exact List.pairwise_map.mp hnd
  refine ⟨nodup_of_forall₂ hnames (hscenes.imp ?_), ?_, fun p hp => ?_⟩
  · rintro e e' hne p ⟨n, rfl⟩ ⟨n', heq⟩
    exact hne (mergeName_inj heq).2
  · rw [← hnames.length_eq, List.length_zipIdx]
  · obtain ⟨e, -, n, hn⟩ := forall₂_exists_left hnames hp
    exact ⟨e.2, n, hn⟩

/-- The files of a band of both cubes: a resolved file for every scene, and nothing else
changes. -/
structure BandResolved (P : Platform) (dir : PathBuf) (kind : ReducerKind) (band : String)
    (p1 p2 paths : List PathBuf) (w w' : World) : Prop where
  same : p1.length = p2.length
  length : paths.length = p1.length
  named : ∀ p ∈ paths, ∃ t n, p = scratch dir (mergeName band t n)
  frame : ∀ p ∉ paths, w'.files p = w.files p
  scenes : ∀ (t : Nat) (a b p : PathBuf), p1[t]? = some a → p2[t]? = some b →
    paths[t]? = some p → ∃ r, w'.files p = some r ∧
      SceneResolved P kind a b (filesAt w w' paths t) r

theorem resolveBand_both {b1 b2 : BTreeMap (List PathBuf)} {band : String}
    {p1 p2 : List PathBuf} (h1 : b1.get band = some p1) (h2 : b2.get band = some p2)
    {w w' : World} {e : String × List PathBuf}
    (h : resolveBand P dir kind b1 b2 band w = .ok e w') :
    e.1 = band ∧ BandResolved P dir kind band p1 p2 e.2 w w' := by
  revert h
  rw [resolveBand, h1, h2]
  dsimp only
  split
  case isTrue =>
    intro h
    cases h
  case isFalse hsame =>
    intro h
    rw [ne_eq, not_not] at hsame
    obtain ⟨paths, w₁, hloop, h⟩ := act_bind_eq_ok_iff.mp h
    obtain ⟨rfl, rfl⟩ := act_pure_eq_ok_iff.mp h
    have hloop : mapEach (resolveScene P dir kind band) (p1.zip p2).zipIdx w = .ok paths w₁ := hloop
    obtain ⟨hnd, hlen, hnamed⟩ := nodup_of_resolveScenes hloop
    have hround : ∀ e ∈ (p1.zip p2).zipIdx, ∀ w p w', resolveScene P dir kind band e w = .ok p w' →
        ∃ r, w'.files = Function.update w.files p (some r) ∧
          SceneResolved P kind e.1.1 e.1.2 w.files r :=
      fun e _ w p w' hp => (resolveScene_ok hp).2
    obtain ⟨hframe, hscenes⟩ := mapEach_returned_files hround hnd hloop
    rw [List.length_zip, ← hsame, Nat.min_self] at hlen
    refine ⟨rfl, hsame, hlen, hnamed, hframe, fun t a b p ha hb hp => ?_⟩
    have hpair : (p1.zip p2).zipIdx[t]? = some ((a, b), t) := by
      simp [List.getElem?_zipIdx, List.getElem?_zip_eq_some, ha, hb]
    obtain ⟨r, wt, hr, hresolved, hwt⟩ := hscenes t _ p hpair hp
    rw [hwt] at hresolved
    exact ⟨r, hr, hresolved⟩

/-- A band of one cube is handed on, and nothing changes. -/
theorem resolveBand_single {b1 b2 : BTreeMap (List PathBuf)} {band : String}
    (hsingle : b1.get band = none ∨ b2.get band = none) {w w' : World} {e : String × List PathBuf}
    (h : resolveBand P dir kind b1 b2 band w = .ok e w') :
    w' = w ∧ e = (band, ((b1.get band).or (b2.get band)).getD []) := by
  revert h
  rw [resolveBand]
  rcases hsingle with hnone | hnone
  case inl =>
    rw [hnone]
    cases b2.get band <;> exact fun h => (act_pure_eq_ok_iff.mp h).symm.imp Eq.symm Eq.symm
  case inr =>
    rw [hnone]
    cases b1.get band <;> exact fun h => (act_pure_eq_ok_iff.mp h).symm.imp Eq.symm Eq.symm

end Band

section Cubes

variable {P : Platform} {dir : PathBuf} {c1 c2 : DataCube}

/-- A file was written for a band of both cubes. -/
def Wrote (c1 c2 : DataCube) (e : String × List PathBuf) (p : PathBuf) : Prop :=
  (c1.bands.get e.1).isSome = true ∧ (c2.bands.get e.1).isSome = true ∧ p ∈ e.2

/-- A file was written for one of the bands. -/
def WrittenFor (c1 c2 : DataCube) (bands : List (String × List PathBuf)) (p : PathBuf) : Prop :=
  ∃ e ∈ bands, Wrote c1 c2 e p

/-- A merge of two cubes that represents every band of both with all its scenes.  A resolved
scene was read from files that only the merge itself may have changed. -/
structure KeepsBothCubes (P : Platform) (c1 c2 : DataCube) (resolver : Option Json) (w : World)
    (out : DataCube) (w' : World) : Prop where
  first : ∀ b paths, c1.bands.get b = some paths → c2.bands.get b = none →
    out.bands.get b = some paths
  second : ∀ b paths, c1.bands.get b = none → c2.bands.get b = some paths →
    out.bands.get b = some paths
  both : ∀ b p1 p2, c1.bands.get b = some p1 → c2.bands.get b = some p2 →
    ∃ r kind paths, resolver = some r ∧ parseReducerSubgraph r = .ok kind ∧
      out.bands.get b = some paths ∧ paths.length = p1.length ∧ paths.length = p2.length ∧
        ∀ (t : Nat) (a b p : PathBuf), p1[t]? = some a → p2[t]? = some b → paths[t]? = some p →
          ∃ r files, w'.files p = some r ∧ SceneResolved P kind a b files r ∧
            ∀ q, ¬ WrittenFor c1 c2 out.bands.entries q → files q = w.files q

theorem resolveBand_name {kind : ReducerKind} {band : String} {w w' : World}
    {e : String × List PathBuf}
    (h : resolveBand P dir kind c1.bands c2.bands band w = .ok e w') : e.1 = band := by
  cases h1 : c1.bands.get band with
  | none =>
      rw [(resolveBand_single (.inl h1) h).2]
  | some p1 =>
      cases h2 : c2.bands.get band with
      | none =>
          rw [(resolveBand_single (.inr h2) h).2]
      | some p2 =>
          exact (resolveBand_both h1 h2 h).1

theorem resolveBand_frame {kind : ReducerKind} {band : String} {w w' : World}
    {e : String × List PathBuf}
    (h : resolveBand P dir kind c1.bands c2.bands band w = .ok e w') {p : PathBuf}
    (hp : ¬ Wrote c1 c2 e p) : w'.files p = w.files p := by
  have hname := resolveBand_name h
  subst hname
  cases h1 : c1.bands.get e.1 with
  | none =>
      rw [(resolveBand_single (.inl h1) h).1]
  | some p1 =>
      cases h2 : c2.bands.get e.1 with
      | none =>
          rw [(resolveBand_single (.inr h2) h).1]
      | some p2 =>
          refine (resolveBand_both h1 h2 h).2.frame p fun hmem => hp ⟨?_, ?_, hmem⟩
          · rw [h1, Option.isSome_some]
          · rw [h2, Option.isSome_some]

section Loop

variable {kind : ReducerKind} {keys : List String} {w w' : World}
  {bands : List (String × List PathBuf)}

/-- The loop over the bands returns one entry for each. -/
theorem resolvedBands_names
    (h : mapEach (resolveBand P dir kind c1.bands c2.bands) keys w = .ok bands w') :
    bands.map Prod.fst = keys := by
  have hround : ∀ band ∈ keys, Returns (fun e : String × List PathBuf => e.1 = band)
      (resolveBand P dir kind c1.bands c2.bands band) := fun _ _ _ _ _ he => resolveBand_name he
  have hnames := mapEach_returns_forall₂ hround w bands w' h
  clear h hround
  induction hnames with
  | nil =>
      rfl
  | cons he _ ih =>
      rw [List.map_cons, he, ih]

/-- The run of a band, between the files before and those after. -/
theorem exists_round
    (h : mapEach (resolveBand P dir kind c1.bands c2.bands) keys w = .ok bands w')
    {e : String × List PathBuf} (he : e ∈ bands) :
    ∃ wi wi' before after, bands = before ++ e :: after ∧
      resolveBand P dir kind c1.bands c2.bands e.1 wi = .ok e wi' ∧
      (∀ p, (∀ z ∈ before, ¬ Wrote c1 c2 z p) → wi.files p = w.files p) ∧
        ∀ p, (∀ z ∈ after, ¬ Wrote c1 c2 z p) → w'.files p = wi'.files p := by
  have hframe : ∀ band ∈ keys, ∀ w y w',
      resolveBand P dir kind c1.bands c2.bands band w = .ok y w' →
        ∀ p, ¬ Wrote c1 c2 y p → w'.files p = w.files p :=
    fun _ _ _ _ _ hx _ hp => resolveBand_frame hx hp
  obtain ⟨band, -, wi, wi', before, after, hsplit, hround, hbefore, hafter⟩ :=
    mapEach_round hframe h he
  rw [← resolveBand_name hround] at hround
  exact ⟨wi, wi', before, after, hsplit, hround, hbefore, hafter⟩

/-- A file that was written shows its band. -/
theorem exists_name_of_wrote
    (h : mapEach (resolveBand P dir kind c1.bands c2.bands) keys w = .ok bands w')
    {e : String × List PathBuf} (he : e ∈ bands) {p : PathBuf} (hp : Wrote c1 c2 e p) :
    ∃ t n, p = scratch dir (mergeName e.1 t n) := by
  obtain ⟨wi, wi', -, -, -, hround, -, -⟩ := exists_round h he
  obtain ⟨h1, h2, hmem⟩ := hp
  obtain ⟨p1, h1⟩ := Option.isSome_iff_exists.mp h1
  obtain ⟨p2, h2⟩ := Option.isSome_iff_exists.mp h2
  exact (resolveBand_both h1 h2 hround).2.named p hmem

/-- A band of both cubes is resolved scene by scene. -/
theorem resolved_of_both (hkeys : keys.Nodup)
    (h : mapEach (resolveBand P dir kind c1.bands c2.bands) keys w = .ok bands w')
    {e : String × List PathBuf} (he : e ∈ bands) {p1 p2 : List PathBuf}
    (h1 : c1.bands.get e.1 = some p1) (h2 : c2.bands.get e.1 = some p2) :
    e.2.length = p1.length ∧ e.2.length = p2.length ∧
      ∀ (t : Nat) (a b p : PathBuf), p1[t]? = some a → p2[t]? = some b → e.2[t]? = some p →
        ∃ r files, w'.files p = some r ∧ SceneResolved P kind a b files r ∧
          ∀ q, ¬ WrittenFor c1 c2 bands q → files q = w.files q := by
  have hnames := resolvedBands_names h
  obtain ⟨wi, wi', before, after, hsplit, hround, hbefore, hafter⟩ := exists_round h he
  obtain ⟨-, hband⟩ := resolveBand_both h1 h2 hround
  refine ⟨hband.length, hband.length.trans hband.same, fun t a b p ha hb hp => ?_⟩
  obtain ⟨r, hr, hresolved⟩ := hband.scenes t a b p ha hb hp
  have hmem := List.mem_of_getElem? hp
  refine ⟨r, filesAt wi wi' e.2 t, ?_, hresolved, fun q hq => ?_⟩
  · rw [hafter p fun z hz hwrote => ?_, hr]
    -- A later band has another name, and so do its files.
    obtain ⟨t₁, n₁, heq⟩ := hband.named p hmem
    have hz' : z ∈ bands := by
      rw [hsplit]
      exact List.mem_append_right _ (List.mem_cons_of_mem _ hz)
    obtain ⟨t₂, n₂, heq'⟩ := exists_name_of_wrote h hz' hwrote
    have hsame := (mergeName_inj (heq.symm.trans heq')).1
    rw [← hnames, hsplit, List.map_append, List.map_cons, List.nodup_append] at hkeys
    exact (List.nodup_cons.mp hkeys.2.1).1 (hsame ▸ List.mem_map_of_mem hz)
  · have hq' : ∀ z ∈ bands, ¬ Wrote c1 c2 z q := fun z hz hwrote => hq ⟨z, hz, hwrote⟩
    have hnot : q ∉ e.2.take t := by
      intro htake
      refine hq' e he ⟨?_, ?_, List.mem_of_mem_take htake⟩
      · rw [h1, Option.isSome_some]
      · rw [h2, Option.isSome_some]
    rw [filesAt, if_neg hnot]
    refine hbefore q fun z hz => hq' z ?_
    rw [hsplit]
    exact List.mem_append_left _ hz

end Loop

theorem not_both_of_disjoint (h : bandsOverlap c1 c2 = false) {b : String} {p1 p2 : List PathBuf}
    (h1 : c1.bands.get b = some p1) : c2.bands.get b ≠ some p2 := by
  intro h2
  have hmem : b ∈ c1.bands.keys := (c1.bands.mem_keys_iff_get b).mpr ⟨p1, h1⟩
  have hno := List.any_eq_false.mp h b hmem
  exact hno (by rw [BTreeMap.containsKey, h2, Option.isSome_some])

/-- Cubes without a common band are joined. -/
theorem mergeDisjoint_keeps (h : bandsOverlap c1 c2 = false) (resolver : Option Json) (w : World) :
    KeepsBothCubes P c1 c2 resolver w (mergeDisjoint c1 c2) w where
  first b paths h1 _ := by rw [get_mergeDisjoint h, h1, Option.some_or]
  second b paths h1 h2 := by rw [get_mergeDisjoint h, h1, Option.none_or, h2]
  both b p1 p2 h1 h2 := absurd h2 (not_both_of_disjoint h h1)

/-- With a resolver every band is kept or resolved. -/
theorem mergeResolveOverlap_keeps {resolver : Json} {w w' : World} {out : DataCube}
    (h : mergeResolveOverlap P dir c1 c2 resolver w = .ok out w') :
    KeepsBothCubes P c1 c2 (some resolver) w out w' := by
  obtain ⟨kind, w₁, hkind, h⟩ := act_bind_eq_ok_iff.mp h
  obtain ⟨hparsed, rfl⟩ := attempt_eq_ok_iff.mp hkind
  obtain ⟨bands, w₂, hloop, h⟩ := act_bind_eq_ok_iff.mp h
  obtain ⟨rfl, rfl⟩ := act_pure_eq_ok_iff.mp h
  have hkeys := (c1.bands.insertAll c2.bands.entries).keys_nodup
  have hnames := resolvedBands_names hloop
  have hget : ∀ b paths, (mergedFrom c1 (BTreeMap.ofEntries bands)).bands.get b = some paths ↔
      (b, paths) ∈ bands := by
    intro b paths
    exact BTreeMap.get_ofEntries_eq_some_iff (by rwa [hnames])
  have hentry : ∀ b, (c1.bands.get b).isSome = true ∨ (c2.bands.get b).isSome = true →
      ∃ paths, (b, paths) ∈ bands := by
    intro b hb
    have hmem : b ∈ bands.map Prod.fst := by
      rw [hnames, BTreeMap.mem_keys_insertAll, ← BTreeMap.keys, BTreeMap.mem_keys_iff_get,
        BTreeMap.mem_keys_iff_get, ← Option.isSome_iff_exists, ← Option.isSome_iff_exists]
      exact hb.symm
    obtain ⟨e, he, rfl⟩ := List.mem_map.mp hmem
    exact ⟨e.2, he⟩
  have hsingle : ∀ b paths, c1.bands.get b = none ∨ c2.bands.get b = none →
      (c1.bands.get b).or (c2.bands.get b) = some paths →
        (mergedFrom c1 (BTreeMap.ofEntries bands)).bands.get b = some paths := by
    intro b paths hnone hpaths
    obtain ⟨found, hmem⟩ := hentry b (by
      rw [← Bool.or_eq_true, ← Option.isSome_or, hpaths, Option.isSome_some])
    obtain ⟨wi, wi', -, -, -, hround, -, -⟩ := exists_round hloop hmem
    have hfound := (resolveBand_single hnone hround).2
    rw [hpaths, Option.getD_some] at hfound
    rw [hget, ← hfound]
    exact hmem
  refine ⟨fun b paths h1 h2 => ?_, fun b paths h1 h2 => ?_, fun b p1 p2 h1 h2 => ?_⟩
  · exact hsingle b paths (.inr h2) (by rw [h1, Option.some_or])
  · exact hsingle b paths (.inl h1) (by rw [h1, Option.none_or, h2])
  · obtain ⟨paths, hmem⟩ := hentry b (.inl (by rw [h1, Option.isSome_some]))
    obtain ⟨hlen1, hlen2, hscenes⟩ := resolved_of_both hkeys hloop hmem h1 h2
    refine ⟨resolver, kind, paths, rfl, hparsed, (hget b paths).mpr hmem, hlen1, hlen2,
      fun t a b p ha hb hp => ?_⟩
    obtain ⟨r, files, hr, hresolved, hfiles⟩ := hscenes t a b p ha hb hp
    refine ⟨r, files, hr, hresolved, fun q hq => hfiles q fun hwritten => hq ?_⟩
    obtain ⟨e, he, hwrote⟩ := hwritten
    exact ⟨e, (BTreeMap.get_eq_some_iff _ _ _).mp ((hget e.1 e.2).mpr he), hwrote⟩

end Cubes

/-- Two cubes that have no common band, or come with a resolver, are merged without a loss. -/
theorem evalMergeCubes_keeps (P : Platform) (dir : PathBuf) (args : Args) (c1 c2 : DataCube)
    (h1 : (args.get "cube1").or (args.get "data1") = some (.cube c1))
    (h2 : (args.get "cube2").or (args.get "data2") = some (.cube c2))
    (hresolver : bandsOverlap c1 c2 = true → args.get "overlap_resolver" ≠ none)
    (w w' : World) (v : Envelope) (h : evalMergeCubes P dir args w = .ok v w') :
    ∃ out, v = .cube out ∧
      KeepsBothCubes P c1 c2 ((args.get "overlap_resolver").map Envelope.toValue) w out w' := by
  revert h
  rw [evalMergeCubes, h1, h2]
  dsimp only
  unfold mergeCubes
  dsimp only
  cases hoverlap : bandsOverlap c1 c2 with
  | false =>
      intro h
      rw [if_neg Bool.false_ne_true] at h
      obtain ⟨rfl, rfl⟩ := act_pure_eq_ok_iff.mp h
      exact ⟨_, rfl, mergeDisjoint_keeps hoverlap _ w⟩
  | true =>
      obtain ⟨r, hr⟩ := Option.ne_none_iff_exists'.mp (hresolver hoverlap)
      rw [hr, if_pos rfl]
      intro h
      obtain ⟨out, w₁, hout, h⟩ := act_bind_eq_ok_iff.mp h
      obtain ⟨rfl, rfl⟩ := act_pure_eq_ok_iff.mp h
      exact ⟨out, rfl, mergeResolveOverlap_keeps hout⟩

/-- The red band of the second cube. -/
def otherRed : DataCube :=
  { bands := BTreeMap.ofEntries [("B04", ["other_red.tif"])] }

/-- Two scenes of a red band. -/
def redScenes (name : String) : DataCube :=
  { bands := BTreeMap.ofEntries [("B04", [name ++ "_0.tif", name ++ "_1.tif"])] }

/-- Counting where both cubes have a band. -/
def countMerged : Args :=
  ((BTreeMap.empty.insert "cube1" (.cube redAndInfrared)).insert "cube2" (.cube otherRed)).insert
    "overlap_resolver" (.value countReducer .missingEnvelope)

theorem evalMergeCubes_keeps_sample :
    returnsCube (evalMergeCubes Platform.exact "/work" countMerged sevens) = true ∧
      ∃ out, Envelope.cube (cubeOf (evalMergeCubes Platform.exact "/work" countMerged sevens)) =
          .cube out ∧
        KeepsBothCubes Platform.exact redAndInfrared otherRed
          ((countMerged.get "overlap_resolver").map Envelope.toValue) sevens out
          (finalState (evalMergeCubes Platform.exact "/work" countMerged sevens)) := by
  have hrun : returnsCube (evalMergeCubes Platform.exact "/work" countMerged sevens) = true := by
    decide +kernel
  have h1 : (countMerged.get "cube1").or (countMerged.get "data1") =
      some (.cube redAndInfrared) := by
    simp [countMerged, BTreeMap.get_insert]
  have h2 : (countMerged.get "cube2").or (countMerged.get "data2") = some (.cube otherRed) := by
    simp [countMerged, BTreeMap.get_insert]
  have hresolver : countMerged.get "overlap_resolver" ≠ none := by
    simp [countMerged]
  exact ⟨hrun, evalMergeCubes_keeps Platform.exact "/work" countMerged redAndInfrared otherRed
    h1 h2 (fun _ => hresolver) sevens _ _ (eq_ok_of_returnsCube hrun)⟩

/-- The one file that a call has returned. -/
def returnedRaster : EStateM.Result ExecError World Envelope → Option PathBuf
  | .ok (.raster path) _ => some path
  | _ => none

/-- Without a resolver two bands of two scenes become a mosaic of their first scenes. -/
theorem overlap_becomesMosaic :
    returnedRaster (evalMergeCubes Platform.exact "/work"
        ((BTreeMap.empty.insert "cube1" (.cube (redScenes "a"))).insert "cube2"
          (.cube (redScenes "b"))) sevens) = some "/work/mosaic_0.tif" ∧
      extractRasterPath (.cube (redScenes "a")) "cube1" = .ok "a_0.tif" ∧
        extractRasterPath (.cube (redScenes "b")) "cube2" = .ok "b_0.tif" := by
  decide +kernel

end OrbitOpenEO
