import OrbitOpenEO.SceneFiles
import OrbitOpenEO.CubeCalls
import OrbitOpenEO.LoadCollection

/-!
# What the calls log

Every write and every use of a classification raster is in the log.  For each
process there is a theorem that says which events a call can append, whether it
returns or fails half way.
-/

namespace OrbitOpenEO

open Lib

/-- Since `w` only events in `Ok` have happened. -/
def LogsOnly (Ok : Event → Prop) (w v : World) : Prop :=
  ∃ new, v.log = w.log ++ new ∧ ∀ e ∈ new, Ok e

section Logs

variable {P : Platform} {dir : PathBuf} {Ok : Event → Prop} {w v : World}

theorem LogsOnly.refl (Ok : Event → Prop) (w : World) : LogsOnly Ok w w :=
  ⟨[], by simp, by simp⟩

/-- One more event. -/
theorem LogsOnly.snoc {v' : World} {e : Event} (h : LogsOnly Ok w v) (he : Ok e)
    (hlog : v'.log = v.log ++ [e]) : LogsOnly Ok w v' := by
  obtain ⟨new, hnew, hok⟩ := h
  refine ⟨new ++ [e], by rw [hlog, hnew, List.append_assoc], ?_⟩
  intro e' he'
  rcases List.mem_append.mp he' with he' | he'
  · exact hok e' he'
  · rw [List.mem_singleton] at he'
    rw [he']
    exact he

theorem LogsOnly.write {p : PathBuf} {content : Option Raster} (h : LogsOnly Ok w v)
    (hp : Ok (.wrote p)) : LogsOnly Ok w (v.write p content) :=
  h.snoc hp rfl

/-- Processing rasters leaves the state as it is, or writes the output file. -/
theorem ends_reduction {I : World → Prop} {sources : List PathBuf} {out : PathBuf}
    {fail : Stage → String → String} {compute : List Raster → Raster} (hv : I v)
    (hwrite : ∀ content, I (v.write out content)) :
    Ends I (reduction P sources out fail compute v) := by
  unfold reduction
  split
  · exact hv
  · dsimp only
    split
    · exact hwrite _
    · exact hv
    · exact hwrite _

theorem ends_reductionWithMask {I : World → Prop} {data mask out : PathBuf}
    {fail : Stage → String → String} {compute : Raster → Raster → Raster} (hv : I v)
    (hwrite : ∀ content, I (v.write out content)) :
    Ends I (reductionWithMask P data mask out fail compute v) := by
  unfold reductionWithMask
  split
  · exact hv
  · exact hv
  · split
    · exact hwrite _
    · exact hv
    · exact hwrite _

/-- A loop over numbered scenes keeps what every round keeps. -/
theorem ends_sceneLoop {α β : Type} {I : World → Prop} {f : α × Nat → Eval β} {xs : List α}
    (hround : ∀ x t, t < xs.length → ∀ v, I v → Ends I (f (x, t) v)) (v : World)
    (hv : I v) : Ends I (mapEach f xs.zipIdx v) := by
  refine ends_mapEach ?_ v hv
  rintro ⟨x, t⟩ hx v hv
  exact hround x t (List.snd_lt_of_mem_zipIdx hx) v hv

theorem evalNdvi_logs {args : Args}
    (hout : ∀ c reds nirs, ArgCube args "data" c →
      c.bands.get (argStrOr args "red" "B04") = some reds →
      (c.bands.remove (argStrOr args "red" "B04")).get (argStrOr args "nir" "B08") = some nirs →
      reds.length = nirs.length → ∀ t < reds.length,
        Ok (.wrote (scenePath dir (argStrOr args "target_band" "ndvi") "_t" t))) :
    Ends (LogsOnly Ok w) (evalNdvi P dir args w) := by
  have hw := LogsOnly.refl Ok w
  unfold evalNdvi
  refine outcome_argCube_bind hw fun c hcube => ?_
  refine Outcome.bind (Q := fun _ => LogsOnly Ok w) ?_ fun _ _ h => h
  unfold ndvi DataCube.takeBand
  cases hred : c.bands.get (argStrOr args "red" "B04") with
  | none =>
      exact hw
  | some reds =>
      cases hnir : (c.bands.remove (argStrOr args "red" "B04")).get (argStrOr args "nir" "B08") with
      | none =>
          simp only [hnir]
          exact hw
      | some nirs =>
          simp only [hnir]
          split
          · exact hw
          · rename_i hlength
            refine Outcome.bind (ends_sceneLoop ?_ w hw) fun _ _ h => h
            intro x t ht v hv
            have ht' : t < reds.length := by
              rw [List.length_zip] at ht
              omega
            have hequal : reds.length = nirs.length := by
              by_contra hne
              exact hlength (Or.inl hne)
            refine Outcome.bind (ends_reduction hv ?_) fun _ _ h => h
            exact fun _ => hv.write (hout c reds nirs hcube hred hnir hequal t ht')

theorem evalMask_logs {args : Args}
    (hout : ∀ c, ArgCube args "data" c → ∀ e ∈ maskableBands c,
      validateIdentifier e.1 "mask.bands" = .ok () → ∀ t < e.2.length,
        Ok (.wrote (scenePath dir e.1 "_mask_t" t))) :
    Ends (LogsOnly Ok w) (evalMask P dir args w) := by
  have hw := LogsOnly.refl Ok w
  unfold evalMask
  refine outcome_attempt_bind hw fun replacement _ => ?_
  refine outcome_argCube_bind hw fun c hcube => ?_
  split
  · exact hw
  · refine outcome_attempt_bind hw fun maskData _ => ?_
    refine outcome_attempt_bind hw fun maskCube _ => ?_
    refine Outcome.bind (Q := fun _ => LogsOnly Ok w) ?_ fun _ _ h => h
    unfold mask
    rcases maskCube.bands.entries with _ | ⟨⟨k, maskPaths⟩, _ | ⟨e, es⟩⟩
    · exact hw
    · dsimp only
      cases (maskableBands c).find? (fun e => e.2.length ≠ maskPaths.length) with
      | some e =>
          exact hw
      | none =>
          refine Outcome.bind (ends_mapEach ?_ w hw) fun _ _ h => h
          intro e he v hv
          unfold maskBand
          refine outcome_attempt_bind hv fun _ hname => ?_
          refine Outcome.bind (ends_sceneLoop ?_ v hv) fun _ _ h => h
          intro x t ht u hu
          have ht' : t < e.2.length := by
            rw [List.length_zip] at ht
            omega
          refine Outcome.bind (ends_reductionWithMask hu ?_) fun _ _ h => h
          exact fun _ => hu.write (hout c hcube e he hname t ht')
    · exact hw

theorem evalMaskFromValues_logs {args : Args}
    (hout : ∀ c paths, ArgCube args "data" c →
      validateIdentifier (argStrOr args "target_band" "mask")
        "mask_from_values.target_band" = .ok () →
      c.bands.get (argStrOr args "band" "SCL") = some paths → ∀ t < paths.length,
        Ok (.wrote (scenePath dir (argStrOr args "target_band" "mask") "_from_values_t" t))) :
    Ends (LogsOnly Ok w) (evalMaskFromValues P dir args w) := by
  have hw := LogsOnly.refl Ok w
  unfold evalMaskFromValues
  refine outcome_attempt_bind hw fun _ _ => ?_
  refine outcome_attempt_bind hw fun _ htarget => ?_
  refine outcome_attempt_bind hw fun values _ => ?_
  refine outcome_argCube_bind hw fun c hcube => ?_
  refine Outcome.bind (Q := fun _ => LogsOnly Ok w) ?_ fun _ _ h => h
  unfold maskFromValues DataCube.takeBand
  cases hband : c.bands.get (argStrOr args "band" "SCL") with
  | none =>
      exact hw
  | some paths =>
      cases paths with
      | nil =>
          exact hw
      | cons path paths =>
          refine Outcome.bind (ends_sceneLoop ?_ w hw) fun _ _ h => h
          intro x t ht v hv
          refine Outcome.bind (ends_reduction hv ?_) fun _ _ h => h
          exact fun _ => hv.write (hout c _ hcube htarget hband t ht)

/-- A download writes no returned file: neither at its destination nor in the cache. -/
def DownloadFree (P : Platform) (dir : PathBuf) (returned : List PathBuf) (v : World)
    (t : FetchTask) : Prop :=
  scratch dir s!"{t.band}_{t.scene}.tif" ∉ returned ∧
    ∀ cache, v.cache = some cache → cachePath cache.root (P.keyFor t.href) ∉ returned

/-- So it is with a download that has to be made. -/
def DownloadApart (P : Platform) (dir : PathBuf) (returned : List PathBuf) (v : World)
    (t : FetchTask) : Prop :=
  (∀ cache, v.cache = some cache → cache.index.lookup (P.keyFor t.href) = none) →
    DownloadFree P dir returned v t

/-- Every download of a call is made in such a state. -/
def DownloadsApart (P : Platform) (dir : PathBuf) (checkUrl : String → Except String Unit)
    (req : LoadRequest) (returned : List PathBuf) : List FetchTask → World → Prop
  | [], _ => True
  | t :: ts, v => DownloadApart P dir returned v t ∧
      ∀ d v', fetchTask P dir checkUrl req t v = .ok d v' →
        DownloadsApart P dir checkUrl req returned ts v'

theorem evictIfNeeded_log (cache : FileCache) (v : World) :
    (evictIfNeeded cache v).log = v.log := by
  unfold evictIfNeeded
  split
  · rfl
  · rfl

theorem cachedWorld_log (cache : FileCache) (href : String) (dst : PathBuf) (r : Raster)
    (v : World) :
    (cachedWorld P cache href dst r v).log =
      v.log ++ [.wrote dst] ++ [.wrote (cachePath cache.root (P.keyFor href))] := by
  rw [cachedWorld, evictIfNeeded_log]
  rfl

variable {checkUrl : String → Except String Unit} {req : LoadRequest} {returned : List PathBuf}

theorem fetchBlocking_logs (hfree : ∀ p, p ∉ returned → Ok (.wrote p)) {t : FetchTask}
    (hv : LogsOnly Ok w v) (hapart : DownloadFree P dir returned v t) :
    Ends (LogsOnly Ok w) (fetchBlocking P t.href (scratch dir s!"{t.band}_{t.scene}.tif") req.crop
      (some req.crs) v) := by
  obtain ⟨hdst, hcached⟩ := hapart
  cases hblock : fetchBlocking P t.href (scratch dir s!"{t.band}_{t.scene}.tif") req.crop
      (some req.crs) v with
  | ok p v' =>
      obtain ⟨signed, r, _, _, hcase⟩ := fetchBlocking_eq_ok hblock
      rcases hcase with ⟨_, _, rfl⟩ | ⟨cache, hcache, _, rfl⟩
      · exact hv.write (hfree _ hdst)
      · have hwrite : LogsOnly Ok w (v.write (scratch dir s!"{t.band}_{t.scene}.tif") (some r)) :=
          hv.write (hfree _ hdst)
        exact hwrite.snoc (hfree _ (hcached cache hcache)) (cachedWorld_log _ _ _ _ _)
  | error e v' =>
      rcases fetchBlocking_eq_error hblock with rfl | ⟨content, rfl⟩
      · exact hv
      · exact hv.write (hfree _ hdst)

theorem fetchTask_logs (hfree : ∀ p, p ∉ returned → Ok (.wrote p)) {t : FetchTask}
    (hv : LogsOnly Ok w v) (hapart : DownloadApart P dir returned v t) :
    Ends (LogsOnly Ok w) (fetchTask P dir checkUrl req t v) := by
  unfold fetchTask
  refine Outcome.bind (Q := fun _ => LogsOnly Ok w) ?_ fun _ _ h => h
  cases hfetch : fetchWithCacheAsync P checkUrl t.href (scratch dir s!"{t.band}_{t.scene}.tif")
      req.crop (some req.crs) v with
  | ok p v' =>
      rcases fetchWithCacheAsync_eq_ok hfetch with ⟨cache, entry, _, _, _, rfl⟩ | ⟨hmiss, hblock⟩
      · exact hv
      · have hlogs : Ends (LogsOnly Ok w) (fetchBlocking P t.href
            (scratch dir s!"{t.band}_{t.scene}.tif") req.crop (some req.crs) v) :=
          fetchBlocking_logs hfree hv (hapart hmiss)
        rw [hblock] at hlogs
        exact hlogs
  | error e v' =>
      rcases fetchWithCacheAsync_eq_error hfetch with rfl | ⟨hmiss, content, rfl⟩
      · exact hv
      · exact hv.write (hfree _ (hapart hmiss).1)

theorem downloads_log (hfree : ∀ p, p ∉ returned → Ok (.wrote p)) :
    ∀ {ts : List FetchTask} {v : World}, LogsOnly Ok w v →
      DownloadsApart P dir checkUrl req returned ts v →
      Ends (LogsOnly Ok w) (mapEach (fetchTask P dir checkUrl req) ts v)
  | [], _, hv, _ => hv
  | t :: ts, v, hv, hapart => by
      refine Outcome.bind (fetchTask_logs hfree hv hapart.1).and_eq ?_
      rintro d v' ⟨hv', hd⟩
      exact Outcome.bind (downloads_log hfree hv' (hapart.2 d v' hd)) fun _ _ h => h

theorem loadEager_logs {order : List FetchTask → List FetchTask} {scenes : List StacScene}
    (hfree : ∀ p, p ∉ returned → Ok (.wrote p))
    (hapart : DownloadsApart P dir checkUrl req returned (order (loadTasks scenes req.bands)) w) :
    Ends (LogsOnly Ok w) (loadEager P dir checkUrl order req scenes w) := by
  have hw := LogsOnly.refl Ok w
  unfold loadEager
  refine outcome_attempt_bind hw fun _ _ => ?_
  refine outcome_attempt_bind hw fun _ _ => ?_
  refine Outcome.bind (downloads_log hfree hw hapart) fun ds v hv => ?_
  cases (collectBands scenes.length req.bands ds).entries.isEmpty <;> exact hv

variable {emit : FetchTask → CropWindow → String → Except ExecError Raster}

theorem emitTask_logs {t : FetchTask}
    (hout : ∀ r, emit t req.crop req.crs = .ok r →
      Ok (.wrote (scratch dir s!"{t.band}_{t.scene}_p3.vrt")))
    (hv : LogsOnly Ok w v) : Ends (LogsOnly Ok w) (emitTask dir emit req t v) := by
  unfold emitTask
  cases hemit : emit t req.crop req.crs with
  | ok r =>
      exact hv.write (hout r hemit)
  | error e =>
      exact hv

theorem loadStream_logs {order : List FetchTask → List FetchTask} {scenes : List StacScene}
    (hout : checkRequest P req scenes = .ok () → ∀ t ∈ order (loadTasks scenes req.bands),
      Ok (.wrote (scratch dir s!"{t.band}_{t.scene}_p3.vrt"))) :
    Ends (LogsOnly Ok w) (loadStream P dir emit order req scenes w) := by
  have hw := LogsOnly.refl Ok w
  unfold loadStream
  refine outcome_attempt_bind hw fun _ hrequest => ?_
  refine outcome_attempt_bind hw fun _ _ => ?_
  refine Outcome.bind (ends_mapEach ?_ w hw) fun ds v hv => ?_
  · exact fun t ht v hv => emitTask_logs (fun _ _ => hout hrequest t ht) hv
  · cases (collectBands scenes.length req.bands ds).entries.isEmpty <;> exact hv

end Logs

end OrbitOpenEO
