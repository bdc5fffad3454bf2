import OrbitOpenEO.LoadedCubes
import OrbitOpenEO.PlainUrls
import OrbitOpenEO.Lib.Notes

/-!
# Which assets are contacted

The two paths of `load_collection` once more, with a note of every href that the
server opens or fetches.  The eager path asks the URL policy before it fetches, the
streaming path only its own two guards, so there the policy must accept what the
guards let through.  And where the policy is the default one, it is deceived by the
hosts in disguise.

The order in which the tasks run is arbitrary.  In a load each task that has begun
contacts its href whatever becomes of the others, and there is an order in which it is
the first.
-/

namespace OrbitOpenEO

open Lib

/-- The policy as the executor asks it. -/
def UrlPolicy.checkUrl (policy : UrlPolicy) (href : String) : Except String Unit :=
  (policy.check href).mapError UrlPolicyError.text

/-- Evaluation code that notes the hrefs it opens or fetches. -/
abbrev Contacting := Noted ExecError World String

/-- The policy accepts the href. -/
def UrlPolicy.Accepts (policy : UrlPolicy) (href : String) : Prop := policy.check href = .ok ()

section Contacts

variable (P : Platform) (dir : PathBuf)

/-- The end of `fetch_with_cache_async`, behind the signature. -/
def downloadSigned (href : String) (dst : PathBuf) (crop : CropWindow) (cropCrs : Option String)
    (signed : String) : Eval PathBuf := do
  downloadTo P signed dst crop cropCrs
  fun w =>
    match w.cache with
    | some cache => cacheInsert P cache href dst w
    | none => .ok dst w

/-- `fetch_with_cache_async`. -/
def fetchContacts (checkUrl : String → Except String Unit) (href : String) (dst : PathBuf)
    (crop : CropWindow) (cropCrs : Option String) : Contacting PathBuf := do
  silent (attempt ((checkUrl href).mapError (fun e => .backend s!"url_policy: {e}")))
  match ← silent (cacheGet P href) with
  | some cached => pure cached
  | none =>
      let signed ← silent (attempt (P.sign href))
      note href
      silent (downloadSigned P href dst crop cropCrs signed)

/-- A download task. -/
def fetchTaskContacts (checkUrl : String → Except String Unit) (req : LoadRequest)
    (t : FetchTask) : Contacting Delivery := do
  let p ← fetchContacts P checkUrl t.href (scratch dir s!"{t.band}_{t.scene}.tif") req.crop
    (some req.crs)
  pure (t.scene, t.band, p)

/-- The eager path. -/
def loadEagerContacts (checkUrl : String → Except String Unit)
    (order : List FetchTask → List FetchTask) (req : LoadRequest) (scenes : List StacScene) :
    Contacting DataCube := do
  silent (attempt (checkRequest P req scenes))
  silent (attempt (checkTasks validateAssetHref (loadTasks scenes req.bands)))
  let deliveries ← mapEach (fetchTaskContacts P dir checkUrl req)
    (order (loadTasks scenes req.bands))
  let bands := collectBands scenes.length req.bands deliveries
  silent
    (if bands.entries.isEmpty then
      throw (.backend
        s!"load_collection: none of the requested bands {debugNames req.bands} are present on every scene")
    else pure (eagerCube req scenes bands))

/-- `probe_source`, where the metadata of the scene does not do. -/
def probeContacts (cached : Bool) (href : String) : Contacting Unit :=
  if cached then pure () else note href

/-- A task of the streaming path.  Without enough metadata the source is opened to look
at it; and the virtual raster opens it when it is read. -/
def emitContacts (cached : FetchTask → Bool)
    (emit : FetchTask → CropWindow → String → Except ExecError Raster) (req : LoadRequest)
    (t : FetchTask) : Contacting Delivery := do
  probeContacts (cached t) t.href
  let d ← silent (emitTask dir emit req t)
  note t.href
  pure d

/-- The guards of the streaming path. -/
def streamGuard (href : String) : Except ExecError Unit := do
  validateAssetHref href
  let _ ← vsicurlPath href
  .ok ()

/-- The streaming path. -/
def loadStreamContacts (cached : FetchTask → Bool)
    (emit : FetchTask → CropWindow → String → Except ExecError Raster)
    (order : List FetchTask → List FetchTask) (req : LoadRequest) (scenes : List StacScene) :
    Contacting DataCube := do
  silent (attempt (checkRequest P req scenes))
  silent (attempt (checkTasks streamGuard (loadTasks scenes req.bands)))
  let deliveries ← mapEach (emitContacts dir cached emit req) (order (loadTasks scenes req.bands))
  let bands := collectBands scenes.length req.bands deliveries
  silent
    (if bands.entries.isEmpty then
      throw (.backend
        s!"load_collection (P3): none of the requested bands {debugNames req.bands} are present on every scene")
    else pure (streamCube req scenes bands))

/-- If the request and all hrefs pass the checks of the streaming path, the policy
accepts the hrefs. -/
def GuardsAccepted (policy : UrlPolicy) (req : LoadRequest) (scenes : List StacScene) : Prop :=
  checkRequest P req scenes = .ok () →
    (∀ t ∈ loadTasks scenes req.bands, streamGuard t.href = .ok ()) →
      ∀ t ∈ loadTasks scenes req.bands, policy.Accepts t.href

end Contacts

section Erasure

variable {P : Platform} {dir : PathBuf} {checkUrl : String → Except String Unit}

theorem erases_fetchContacts (href : String) (dst : PathBuf) (crop : CropWindow)
    (cropCrs : Option String) :
    Erases (fetchContacts P checkUrl href dst crop cropCrs)
      (fetchWithCacheAsync P checkUrl href dst crop cropCrs) := by
  refine (erases_silent _).bind fun _ => (erases_silent _).bind fun found => ?_
  cases found with
  | some cached =>
      exact erases_pure cached
  | none =>
      refine (erases_silent _).bind fun signed => ?_
      exact (erases_silent (downloadSigned P href dst crop cropCrs signed)).note_bind

/-- Without its notes the eager path is `loadEager`. -/
theorem erases_loadEagerContacts (order : List FetchTask → List FetchTask) (req : LoadRequest)
    (scenes : List StacScene) :
    Erases (loadEagerContacts P dir checkUrl order req scenes)
      (loadEager P dir checkUrl order req scenes) := by
  refine (erases_silent _).bind fun _ => (erases_silent _).bind fun _ => ?_
  refine (Erases.mapEach (fun t => ?_) _).bind fun deliveries => erases_silent _
  exact (erases_fetchContacts _ _ _ _).bind fun _ => erases_pure _

/-- Without its notes the streaming path is `loadStream`. -/
theorem erases_loadStreamContacts (cached : FetchTask → Bool)
    (emit : FetchTask → CropWindow → String → Except ExecError Raster)
    (order : List FetchTask → List FetchTask) (req : LoadRequest) (scenes : List StacScene) :
    Erases (loadStreamContacts P dir cached emit order req scenes)
      (loadStream P dir emit order req scenes) := by
  refine (erases_silent _).bind fun _ => (erases_silent _).bind fun _ => ?_
  refine (Erases.mapEach (fun t => ?_) _).bind fun deliveries => erases_silent _
  have hemit : Erases (do
      let d ← silent (emitTask dir emit req t)
      note t.href
      pure d : Contacting Delivery) (emitTask dir emit req t) := by
    have h := (erases_silent (emitTask dir emit req t)).bind fun d =>
      (erases_pure (ε := ExecError) (σ := World) d).note_bind (t := t.href)
    rwa [bind_pure] at h
  unfold emitContacts probeContacts
  cases cached t with
  | true =>
      exact hemit
  | false =>
      exact hemit.note_bind

end Erasure

section Accepted

variable {P : Platform} {dir : PathBuf} {policy : UrlPolicy}

theorem checkTasks_eq_ok_iff {check : String → Except ExecError Unit} :
    ∀ {ts : List FetchTask}, checkTasks check ts = .ok () ↔ ∀ t ∈ ts, check t.href = .ok ()
  | [] => by simp [checkTasks]
  | t :: ts => by
      unfold checkTasks
      rw [bind_eq_ok_iff, List.forall_mem_cons, ← checkTasks_eq_ok_iff]
      exact ⟨fun ⟨_, ht, hts⟩ => ⟨ht, hts⟩, fun ⟨ht, hts⟩ => ⟨(), ht, hts⟩⟩

theorem accepts_of_checkUrl {href : String} {f : String → ExecError} {u : Unit}
    (h : (policy.checkUrl href).mapError f = .ok u) : policy.Accepts href := by
  unfold UrlPolicy.checkUrl at h
  unfold UrlPolicy.Accepts
  cases hcheck : policy.check href with
  | error e =>
      rw [hcheck] at h
      cases h
  | ok u =>
      rfl

variable {Ok : String → Prop}

/-- The eager path asks the policy first, and then the signer. -/
theorem notes_fetchContacts {href : String}
    (h : ∀ signed, policy.Accepts href → P.sign href = .ok signed → Ok href) (dst : PathBuf)
    (crop : CropWindow) (cropCrs : Option String) :
    Notes Ok (fetchContacts P policy.checkUrl href dst crop cropCrs) := by
  refine notes_check_bind fun _ hcheck => (notes_silent _).bind fun found => ?_
  cases found with
  | some cached =>
      exact notes_pure cached
  | none =>
      refine notes_check_bind fun signed hsign => ?_
      exact (notes_note (h signed (accepts_of_checkUrl hcheck) hsign)).bind fun _ => notes_silent _

theorem notes_loadEagerContacts {order : List FetchTask → List FetchTask} {req : LoadRequest}
    {scenes : List StacScene}
    (h : checkRequest P req scenes = .ok () →
      (∀ t ∈ loadTasks scenes req.bands, validateAssetHref t.href = .ok ()) →
        ∀ t ∈ order (loadTasks scenes req.bands), ∀ signed, policy.Accepts t.href →
          P.sign t.href = .ok signed → Ok t.href) :
    Notes Ok (loadEagerContacts P dir policy.checkUrl order req scenes) := by
  refine notes_check_bind fun _ hrequest => notes_check_bind fun _ hguards => ?_
  refine (Notes.mapEach fun t ht => ?_).bind fun deliveries => notes_silent _
  refine (notes_fetchContacts ?_ _ _ _).bind fun _ => notes_pure _
  exact h hrequest (checkTasks_eq_ok_iff.mp hguards) t ht

theorem notes_emitContacts {cached : FetchTask → Bool}
    {emit : FetchTask → CropWindow → String → Except ExecError Raster} {req : LoadRequest}
    {t : FetchTask} (ht : Ok t.href) : Notes Ok (emitContacts dir cached emit req t) := by
  have hprobe : Notes Ok (probeContacts (cached t) t.href) := by
    unfold probeContacts
    split
    · exact notes_pure ()
    · exact notes_note ht
  exact hprobe.bind fun _ => (notes_silent _).bind fun _ => (notes_note ht).bind fun _ =>
    notes_pure _

/-- The streaming path contacts what its guards let through. -/
theorem notes_loadStreamContacts {cached : FetchTask → Bool}
    {emit : FetchTask → CropWindow → String → Except ExecError Raster}
    {order : List FetchTask → List FetchTask} {req : LoadRequest} {scenes : List StacScene}
    (h : checkRequest P req scenes = .ok () →
      (∀ t ∈ loadTasks scenes req.bands, streamGuard t.href = .ok ()) →
        ∀ t ∈ order (loadTasks scenes req.bands), Ok t.href) :
    Notes Ok (loadStreamContacts P dir cached emit order req scenes) := by
  refine notes_check_bind fun _ hrequest => notes_check_bind fun _ hguards => ?_
  refine (Notes.mapEach fun t ht => notes_emitContacts ?_).bind fun deliveries => notes_silent _
  exact h hrequest (checkTasks_eq_ok_iff.mp hguards) t ht

theorem notesStay_fetchContacts {checkUrl : String → Except String Unit} (href : String)
    (dst : PathBuf) (crop : CropWindow) (cropCrs : Option String) :
    NotesStay (fetchContacts P checkUrl href dst crop cropCrs) := by
  refine (notesStay_silent _).bind fun _ => (notesStay_silent _).bind fun found => ?_
  cases found with
  | some cached =>
      exact notesStay_pure cached
  | none =>
      exact (notesStay_silent _).bind fun _ => (notesStay_note _).bind fun _ => notesStay_silent _

/-- Without a cache a download contacts an href that is accepted and signed. -/
theorem fetchContacts_takes {checkUrl : String → Except String Unit} {href signed : String}
    {w : World} (hurl : checkUrl href = .ok ()) (hsign : P.sign href = .ok signed)
    (hcache : w.cache = none) (dst : PathBuf) (crop : CropWindow) (cropCrs : Option String) :
    Ends (fun s => href ∈ s.2) (fetchContacts P checkUrl href dst crop cropCrs (w, [])) := by
  have hget : silent (τ := String) (cacheGet P href) (w, []) = .ok none (w, []) := by
    simp [silent, cacheGet, hcache]
  have hrun : fetchContacts P checkUrl href dst crop cropCrs (w, []) =
      silent (downloadSigned P href dst crop cropCrs signed) (w, [href]) := by
    unfold fetchContacts
    rw [hurl, hsign]
    change EStateM.bind (silent (cacheGet P href)) _ (w, []) = _
    rw [EStateM.bind, hget]
    rfl
  rw [hrun]
  exact notesStay_silent _ (w, [href]) href (List.mem_singleton_self href)

/-- A list from which an item has been taken to the front. -/
theorem exists_front {α : Type} {x : α} {xs : List α} (h : x ∈ xs) :
    ∃ rest, (x :: rest).Perm xs := by
  obtain ⟨before, after, rfl⟩ := List.append_of_mem h
  exact ⟨before ++ after, List.perm_middle.symm⟩

variable (dir) in
/-- In some order of the downloads an href that is accepted and signed is contacted. -/
theorem exists_downloaded {req : LoadRequest} {scenes : List StacScene} {t : FetchTask}
    {signed : String} (hrequest : checkRequest P req scenes = .ok ())
    (hguards : ∀ t ∈ loadTasks scenes req.bands, validateAssetHref t.href = .ok ())
    (ht : t ∈ loadTasks scenes req.bands) (haccepts : policy.Accepts t.href)
    (hsign : P.sign t.href = .ok signed) :
    ∃ order : List FetchTask → List FetchTask,
      (order (loadTasks scenes req.bands)).Perm (loadTasks scenes req.bands) ∧
        t.href ∈ notesOf (loadEagerContacts P dir policy.checkUrl order req scenes)
          World.empty := by
  obtain ⟨rest, hperm⟩ := exists_front ht
  have hurl : policy.checkUrl t.href = .ok () := by
    unfold UrlPolicy.checkUrl
    rw [haccepts]
    rfl
  refine ⟨fun _ => t :: rest, hperm, ?_⟩
  suffices h : Ends (fun s => t.href ∈ s.2)
      (loadEagerContacts P dir policy.checkUrl (fun _ => t :: rest) req scenes (World.empty, []))
    from h.finalState
  unfold loadEagerContacts
  rw [hrequest, checkTasks_eq_ok_iff.mpr hguards]
  change Ends (fun s => t.href ∈ s.2)
    ((mapEach (fetchTaskContacts P dir policy.checkUrl req) (t :: rest) >>= _) (World.empty, []))
  refine Outcome.bind (Q := fun _ s => t.href ∈ s.2) ?_ fun _ s h => notesStay_silent _ s _ h
  refine Outcome.bind (Q := fun _ s => t.href ∈ s.2) ?_ fun _ s h => ?_
  · refine Outcome.bind (Q := fun _ s => t.href ∈ s.2) ?_ fun _ s h => h
    exact fetchContacts_takes hurl hsign rfl _ _ _
  · refine ((NotesStay.mapEach (fun t => ?_) rest).bind fun _ => notesStay_pure _) s _ h
    exact (notesStay_fetchContacts _ _ _ _).bind fun _ => notesStay_pure _

/-- A raster without pixels. -/
def noPixels : Raster := ⟨0, 0, 0, 0, fun _ _ => .nan⟩

theorem notesStay_emitContacts (cached : FetchTask → Bool)
    (emit : FetchTask → CropWindow → String → Except ExecError Raster) (req : LoadRequest)
    (t : FetchTask) : NotesStay (emitContacts dir cached emit req t) := by
  have hprobe : NotesStay (probeContacts (cached t) t.href) := by
    unfold probeContacts
    split
    · exact notesStay_pure ()
    · exact notesStay_note _
  exact hprobe.bind fun _ => (notesStay_silent _).bind fun _ => (notesStay_note _).bind fun _ =>
    notesStay_pure _

variable (dir) in
/-- In some order of the emissions, if they succeed, an href of the call is contacted. -/
theorem exists_opened {req : LoadRequest} {scenes : List StacScene} {t : FetchTask}
    (hrequest : checkRequest P req scenes = .ok ())
    (hguards : ∀ t ∈ loadTasks scenes req.bands, streamGuard t.href = .ok ())
    (ht : t ∈ loadTasks scenes req.bands) :
    ∃ order : List FetchTask → List FetchTask,
      (order (loadTasks scenes req.bands)).Perm (loadTasks scenes req.bands) ∧
        t.href ∈ notesOf (loadStreamContacts P dir (fun _ => true) (fun _ _ _ => .ok noPixels)
          order req scenes) World.empty := by
  obtain ⟨rest, hperm⟩ := exists_front ht
  refine ⟨fun _ => t :: rest, hperm, ?_⟩
  suffices h : Ends (fun s => t.href ∈ s.2)
      (loadStreamContacts P dir (fun _ => true) (fun _ _ _ => .ok noPixels)
        (fun _ => t :: rest) req scenes (World.empty, []))
    from h.finalState
  unfold loadStreamContacts
  rw [hrequest, checkTasks_eq_ok_iff.mpr hguards]
  change Ends (fun s => t.href ∈ s.2)
    ((mapEach (emitContacts dir (fun _ => true) (fun _ _ _ => .ok noPixels) req) (t :: rest) >>= _)
      (World.empty, []))
  refine Outcome.bind (Q := fun _ s => t.href ∈ s.2) ?_ fun _ s h => notesStay_silent _ s _ h
  refine Outcome.bind (Q := fun _ s => t.href ∈ s.2) ?_ fun _ s h => ?_
  · exact List.mem_singleton_self t.href
  · exact ((NotesStay.mapEach (notesStay_emitContacts _ _ _) rest).bind fun _ =>
      notesStay_pure _) s _ h

end Accepted

section Default

variable (P : Platform) (domainToAscii : List UInt8 → Option (List Char))

/-- An `https` URL whose host is not internal, as a parser by the URL Standard reads it. -/
def PublicUrl (href : String) : Prop :=
  (∃ rest, HttpsUrl href.toList rest) ∧
    ∀ host, UrlHost.ofHttps domainToAscii href.toList = some host → isInternalHost host = false

/-- If the request and all hrefs pass the checks of a path, no internal host is in disguise
in those it can go on to open. -/
def NoneDisguised (guard : String → Except ExecError Unit) (opens : String → Prop)
    (req : LoadRequest) (scenes : List StacScene) : Prop :=
  checkRequest P req scenes = .ok () →
    (∀ t ∈ loadTasks scenes req.bands, guard t.href = .ok ()) →
      ∀ t ∈ loadTasks scenes req.bands, opens t.href → ¬ Disguised domainToAscii t.href

/-- The signer gives an answer. -/
def Signed (href : String) : Prop := ∃ signed, P.sign href = .ok signed

variable {P domainToAscii} {dir : PathBuf} {req : LoadRequest} {scenes : List StacScene}

theorem accepts_of_disguised {href : String} (h : Disguised domainToAscii href) :
    UrlPolicy.default.Accepts href := by
  obtain ⟨rest, w, _, hhttps, hw, _, _, htext⟩ := h
  exact check_default_iff.mpr ⟨rest, w, hhttps, hw, htext⟩

theorem publicUrl_iff {href : String} (h : UrlPolicy.default.Accepts href) :
    PublicUrl domainToAscii href ↔ ¬ Disguised domainToAscii href := by
  rw [← rightAbout_iff_not_disguised]
  constructor
  · exact fun hpublic _ => hpublic.2
  · intro hright
    obtain ⟨rest, _, hhttps, _⟩ := check_default_iff.mp h
    exact ⟨⟨rest, hhttps⟩, hright h⟩

theorem downloads_public_iff :
    (∀ order w, (order (loadTasks scenes req.bands)).Perm (loadTasks scenes req.bands) →
      ∀ href ∈ notesOf (loadEagerContacts P dir UrlPolicy.default.checkUrl order req scenes) w,
        PublicUrl domainToAscii href) ↔
      NoneDisguised P domainToAscii validateAssetHref (Signed P) req scenes := by
  constructor
  · rintro h hrequest hguards t ht ⟨signed, hsign⟩ hdisguised
    have haccepts := accepts_of_disguised hdisguised
    obtain ⟨order, hperm, hcontacted⟩ :=
      exists_downloaded dir hrequest hguards ht haccepts hsign
    exact (publicUrl_iff haccepts).mp (h order World.empty hperm t.href hcontacted) hdisguised
  · intro h order w hperm
    refine (notes_loadEagerContacts fun hrequest hguards t ht signed haccepts hsign => ?_).forall_mem
      w
    exact (publicUrl_iff haccepts).mpr (h hrequest hguards t (hperm.subset ht) ⟨signed, hsign⟩)

theorem streamed_public_iff :
    (∀ cached emit order w,
      (order (loadTasks scenes req.bands)).Perm (loadTasks scenes req.bands) →
        ∀ href ∈ notesOf (loadStreamContacts P dir cached emit order req scenes) w,
          UrlPolicy.default.Accepts href ∧ PublicUrl domainToAscii href) ↔
      GuardsAccepted P .default req scenes ∧
        NoneDisguised P domainToAscii streamGuard (fun _ => True) req scenes := by
  constructor
  · intro h
    have hboth : ∀ (_ : checkRequest P req scenes = .ok ())
        (_ : ∀ t ∈ loadTasks scenes req.bands, streamGuard t.href = .ok ()),
        ∀ t ∈ loadTasks scenes req.bands,
          UrlPolicy.default.Accepts t.href ∧ PublicUrl domainToAscii t.href := by
      intro hrequest hguards t ht
      obtain ⟨order, hperm, hopened⟩ := exists_opened dir hrequest hguards ht
      exact h _ _ order World.empty hperm t.href hopened
    refine ⟨fun hrequest hguards t ht => (hboth hrequest hguards t ht).1, ?_⟩
    intro hrequest hguards t ht _
    obtain ⟨haccepts, hpublic⟩ := hboth hrequest hguards t ht
    exact (publicUrl_iff haccepts).mp hpublic
  · rintro ⟨haccepted, hplain⟩ cached emit order w hperm
    refine (notes_loadStreamContacts fun hrequest hguards t ht => ?_).forall_mem w
    have haccepts := haccepted hrequest hguards t (hperm.subset ht)
    exact ⟨haccepts,
      (publicUrl_iff haccepts).mpr (hplain hrequest hguards t (hperm.subset ht) trivial)⟩

end Default

/-- **Contacted assets.**  The eager path contacts what the policy accepts; the
streaming path does so if and only if the policy accepts all that its guards let
through.  With the default policy the eager path contacts public `https` URLs only if
and only if no internal host is in disguise among those it can download; on the streaming
path the guards must not let through more than the policy accepts, either. -/
theorem asset_contacts (P : Platform) (dir : PathBuf) (policy : UrlPolicy)
    (domainToAscii : List UInt8 → Option (List Char)) (req : LoadRequest)
    (scenes : List StacScene) :
    (∀ order w,
      ∀ href ∈ notesOf (loadEagerContacts P dir policy.checkUrl order req scenes) w,
        policy.Accepts href) ∧
    ((∀ cached emit order w,
        (order (loadTasks scenes req.bands)).Perm (loadTasks scenes req.bands) →
          ∀ href ∈ notesOf (loadStreamContacts P dir cached emit order req scenes) w,
            policy.Accepts href) ↔
      GuardsAccepted P policy req scenes) ∧
    ((∀ order w, (order (loadTasks scenes req.bands)).Perm (loadTasks scenes req.bands) →
        ∀ href ∈ notesOf (loadEagerContacts P dir UrlPolicy.default.checkUrl order req scenes) w,
          PublicUrl domainToAscii href) ↔
      NoneDisguised P domainToAscii validateAssetHref (Signed P) req scenes) ∧
    ((∀ cached emit order w,
        (order (loadTasks scenes req.bands)).Perm (loadTasks scenes req.bands) →
          ∀ href ∈ notesOf (loadStreamContacts P dir cached emit order req scenes) w,
            UrlPolicy.default.Accepts href ∧ PublicUrl domainToAscii href) ↔
      GuardsAccepted P .default req scenes ∧
        NoneDisguised P domainToAscii streamGuard (fun _ => True) req scenes) := by
  refine ⟨fun order w => ?_, ⟨fun h hrequest hguards t ht => ?_, fun h => ?_⟩,
    downloads_public_iff, streamed_public_iff⟩
  · exact (notes_loadEagerContacts fun _ _ t _ _ haccepts _ => haccepts).forall_mem w
  · obtain ⟨order, hperm, hopened⟩ := exists_opened dir hrequest hguards ht
    exact h _ _ order World.empty hperm t.href hopened
  · intro cached emit order w horder
    refine (notes_loadStreamContacts fun hrequest hguards t ht => ?_).forall_mem w
    exact h hrequest hguards t (horder.subset ht)

/-- A scene whose asset is served without encryption. -/
def plainHttpScenes : List StacScene :=
  [⟨"S2A_0400", BTreeMap.empty.insert "B04" "http://example.com/a/B04.tif", BTreeMap.empty, none⟩]

/-- A scene whose asset is on an internal host, written with the dot of the root. -/
def rootedScenes : List StacScene :=
  [⟨"S2A_0400", BTreeMap.empty.insert "B04" "https://nas.local./B04.tif", BTreeMap.empty, none⟩]

/-- The streaming path opens the first, though the default policy refuses its scheme; and
the eager path downloads the second. -/
theorem plain_http_contacted :
    (notesOf (loadStreamContacts Platform.exact "/work" (fun _ => false) emitPixel id redRequest
        plainHttpScenes) World.empty =
      List.replicate 4 "http://example.com/a/B04.tif" ∧
    ¬ UrlPolicy.default.Accepts "http://example.com/a/B04.tif") ∧
    "https://nas.local./B04.tif" ∈ notesOf (loadEagerContacts Platform.exact "/work"
        UrlPolicy.default.checkUrl id redRequest rootedScenes) World.empty ∧
    ¬ PublicUrl asciiNames "https://nas.local./B04.tif" := by
  refine ⟨⟨rfl, by unfold UrlPolicy.Accepts; decide⟩, by decide +kernel, ?_⟩
  rintro ⟨_, hpublic⟩
  have hinternal : (UrlHost.ofHttps asciiNames "https://nas.local./B04.tif".toList).map
      isInternalHost = some true := by
    decide +kernel
  obtain ⟨host, hhost, htrue⟩ := Option.map_eq_some_iff.mp hinternal
  rw [hpublic host hhost] at htrue
  cases htrue

end OrbitOpenEO
