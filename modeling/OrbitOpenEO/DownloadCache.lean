import OrbitOpenEO.StagedFiles

/-!
# The download caches

`download_items` and `Client::download_asset` keep what they download in a directory, in a file
named after the URL.  A file that exists is not downloaded again, whoever has put it there: so a
file must never be there in part.  Bodies are written to a `.part` file and renamed.

`cache_complete` says of any number of calls, killed and started again at any moment, that a
cached file is a whole body.  Two calls at work at the same moment must not share a `.part` file,
and no asset may have a name that ends in `.part`: its own file would be written in place.
-/

namespace OrbitOpenEO
namespace Staged

open Lib Program StagedWrites

/-- A body. -/
abbrev Body := List UInt8

/-- What the name of a cached file is made of: the first digits of a hash, and the last segment
of a URL that can be parsed. -/
structure UrlNames where
  hexPrefix : String → String
  lastSegment : String → Option String

/-- How a download can fail. -/
inductive GetError where
  | send (msg : String)
  | status (code : String)
  | body (msg : String)
deriving DecidableEq

/-- What a download asks for beside its files. -/
inductive FetchCall where
  | createDirAll (dir : String)
  | buildClient
  | get (url : String)
deriving DecidableEq

/-- The replies. -/
abbrev FetchReply : FetchCall → Type
  | .createDirAll _ => Except String Unit
  | .buildClient => Except String Unit
  | .get _ => Except GetError Body

/-- A download that writes its bodies to files. -/
abbrev DownloadRep : FileReq FilePath Body FetchCall → Type := FileRep String String FetchReply

/-- `Path::file_stem`: what stands before the last dot, unless the name begins with it. -/
def fileStem (name : String) : List Char :=
  match name.toList.reverse.dropWhile fun c => c != '.' with
  | _ :: c :: before => (c :: before).reverse
  | _ => name.toList

/-- `Path::with_extension`. -/
def withExtension (name ext : String) : String :=
  String.ofList (fileStem name) ++ "." ++ ext

/-- The file of a URL. -/
def cachePath (names : UrlNames) (dir url fallback : String) : FilePath :=
  ⟨dir, names.hexPrefix url ++ "_" ++ (names.lastSegment url).getD fallback⟩

/-- The file that a body is written to. -/
def FilePath.part (path : FilePath) : FilePath := ⟨path.dir, withExtension path.name "part"⟩

/-- What both functions do for a URL: nothing if the file exists. -/
def fetchInto (text : GetError → String) (url : String) (path : FilePath) :
    Program DownloadRep (Except String FilePath) := do
  if ← @request _ DownloadRep (.present path) then pure (.ok path)
  else
    match ← @request _ DownloadRep (.other (.get url)) with
    | .error e => pure (.error (text e))
    | .ok bytes =>
        match ← @request _ DownloadRep (.fill path.part bytes) with
        | .error e => pure (.error e)
        | .ok () =>
            match ← @request _ DownloadRep (.rename path.part path) with
            | .error e => pure (.error e)
            | .ok () => pure (.ok path)

/-- The errors of `download_asset`. -/
def assetError (url : String) : GetError → String
  | .send e => "openEO http: " ++ e
  | .status code => "openEO asset download failed for " ++ url ++ ": " ++ code
  | .body e => "openEO http: " ++ e

/-- The errors of `download_items`. -/
def itemError (url : String) : GetError → String
  | .send e => "download " ++ url ++ ": " ++ e
  | .status e => "download " ++ url ++ ": " ++ e
  | .body e => "download body: " ++ e

/-- `Client::download_asset`. -/
def downloadAsset (names : UrlNames) (cacheDir assetUrl : String) :
    Program DownloadRep (Except String FilePath) := do
  match ← @request _ DownloadRep (.other (.createDirAll cacheDir)) with
  | .error e => pure (.error e)
  | .ok () =>
      fetchInto (assetError assetUrl) assetUrl (cachePath names cacheDir assetUrl "asset.bin")

/-- An item: its assets by key, with their URLs. -/
structure Item where
  assets : List (String × String)
deriving DecidableEq

/-- The assets that `DownloadOpts` selects. -/
def selected (assetKeys : Option (List String)) (items : List Item) : List (String × String) :=
  items.flatMap fun item => item.assets.filter fun asset =>
    match assetKeys with
    | some want => want.any fun k => k == asset.1
    | none => true

/-- The loop of `download_items`. -/
def downloadEach (names : UrlNames) (cacheDir : String) :
    List (String × String) → List FilePath → Program DownloadRep (Except String (List FilePath))
  | [], out => pure (.ok out)
  | (key, url) :: assets, out => do
      match ← fetchInto (itemError url) url (cachePath names cacheDir url (key ++ ".bin")) with
      | .error e => pure (.error e)
      | .ok path => downloadEach names cacheDir assets (out ++ [path])

/-- `download_items`. -/
def downloadItems (names : UrlNames) (cacheDir : String) (assetKeys : Option (List String))
    (items : List Item) : Program DownloadRep (Except String (List FilePath)) := do
  match ← @request _ DownloadRep (.other (.createDirAll cacheDir)) with
  | .error e => pure (.error e)
  | .ok () =>
      match ← @request _ DownloadRep (.other .buildClient) with
      | .error e => pure (.error ("reqwest builder: " ++ e))
      | .ok () =>
          match ← downloadEach names cacheDir (selected assetKeys items) [] with
          | .error e => pure (.error e)
          | .ok out => pure (.ok (out.mergeSort fun a b => decide (a.name ≤ b.name)))

/-- One call, with what it is to download. -/
inductive DownloadCall where
  | asset (url : String)
  | items (assetKeys : Option (List String)) (items : List Item)

namespace DownloadCall

variable (names : UrlNames) (dir : String)

/-- The URLs of a call and their files. -/
def targets : DownloadCall → List (String × FilePath)
  | .asset url => [(url, cachePath names dir url "asset.bin")]
  | .items assetKeys found =>
      (selected assetKeys found).map fun a => (a.2, cachePath names dir a.2 (a.1 ++ ".bin"))

/-- The call; `submit_and_download` collects what `download_asset` returns in a list, too. -/
def run : DownloadCall → Program DownloadRep (Except String (List FilePath))
  | .asset url => do
      match ← downloadAsset names dir url with
      | .error e => pure (.error e)
      | .ok path => pure (.ok [path])
  | .items assetKeys found => downloadItems names dir assetKeys found

/-- The files that a call writes to. -/
def parts (call : DownloadCall) : Set FilePath :=
  {p | ∃ x ∈ call.targets names dir, p = x.2.part}

end DownloadCall

section Calls

variable {ι : Type} (Sent : String → Body → Prop) (names : UrlNames) (dir : String)
  (calls : ι → DownloadCall)

/-- A job writes the bytes it was given. -/
def Writes (bytes c : Body) : Prop := c = bytes

/-- The bodies that servers send. -/
def Serves : (q : FetchCall) → FetchReply q → Prop
  | .get url, .ok bytes => Sent url bytes
  | _, _ => True

/-- The files of all calls. -/
def cached : Set FilePath := {p | ∃ i, ∃ x ∈ (calls i).targets names dir, p = x.2}

/-- A whole body for one of the URLs of a file. -/
def IsBody (p : FilePath) (c : Body) : Prop :=
  ∃ i, ∃ x ∈ (calls i).targets names dir, x.2 = p ∧ Sent x.1 c

/-- The discipline of the calls. -/
abbrev Keeps {α : Type} (own : Set FilePath) (Q : α → Held FilePath Body → Prop)
    (p : Program DownloadRep α) (h : Held FilePath Body) : Prop :=
  StagedWrites.Staged Writes (Serves Sent) (IsBody Sent names dir calls)
    (cached names dir calls) own Q p h

variable {Sent names dir calls}

/-- A file of which a call knows that it is there. -/
def Known (h : Held FilePath Body) (p : FilePath) : Prop := p ∈ h.known ∨ p ∈ h.made

/-- A URL is downloaded to its own file, and what was known before is not forgotten. -/
theorem keeps_fetchInto {own : Set FilePath} (text : GetError → String) {i : ι}
    {x : String × FilePath} (hx : x ∈ (calls i).targets names dir) (hown : x.2.part ∈ own)
    {h : Held FilePath Body} (hready : h.ready = none) :
    Keeps Sent names dir calls own
      (fun r h' => ∀ path, r = .ok path →
        path = x.2 ∧ h'.ready = none ∧ Known h' path ∧ ∀ p, Known h p → Known h' p)
      (fetchInto text x.1 x.2) h := by
  have hcached : x.2 ∈ cached names dir calls := ⟨i, x, hx, rfl⟩
  refine ⟨hcached, ?_⟩
  rintro (_ | _) h₁ ⟨-, rfl⟩
  · refine ⟨trivial, ?_⟩
    rintro (e | bytes) h₂ ⟨hsent, rfl⟩
    · exact nofun
    · refine ⟨⟨hown, hready⟩, ?_⟩
      rintro (e | ⟨⟩) h₃ ⟨-, rfl⟩
      · exact nofun
      · refine ⟨⟨hcached, bytes, rfl, ?_⟩, ?_⟩
        · rintro c rfl
          exact ⟨i, x, hx, rfl, hsent⟩
        · rintro (e | ⟨⟩) h₄ ⟨-, rfl⟩
          · exact nofun
          · rintro path ⟨⟩
            exact ⟨rfl, rfl, .inr (Set.mem_insert _ _),
              fun p hp => hp.imp id (Set.mem_insert_of_mem _)⟩
  · rintro path ⟨⟩
    exact ⟨rfl, hready, .inl (Set.mem_insert _ _), fun p hp => hp.imp (Set.mem_insert_of_mem _) id⟩

/-- The loop, after the files in `out`. -/
theorem keeps_downloadEach {own : Set FilePath} {i : ι} :
    ∀ (assets : List (String × String)) (out : List FilePath) (h : Held FilePath Body),
      (∀ a ∈ assets, (a.2, cachePath names dir a.2 (a.1 ++ ".bin")) ∈ (calls i).targets names dir ∧
        (cachePath names dir a.2 (a.1 ++ ".bin")).part ∈ own) →
      h.ready = none → (∀ p ∈ out, Known h p) →
      Keeps Sent names dir calls own
        (fun r h' => ∀ paths, r = .ok paths →
          paths = out ++ assets.map (fun a => cachePath names dir a.2 (a.1 ++ ".bin")) ∧
            ∀ p ∈ paths, Known h' p)
        (downloadEach names dir assets out) h
  | [], out, h, _, _, hout => by
      rintro paths ⟨⟩
      exact ⟨(List.append_nil out).symm, hout⟩
  | (key, url) :: assets, out, h, hassets, hready, hout => by
      obtain ⟨⟨htarget, hpart⟩, hassets⟩ := List.forall_mem_cons.mp hassets
      refine safe_bind (fun r h' hr => ?_)
        (keeps_fetchInto (itemError url) htarget hpart hready)
      cases r with
      | error e => exact nofun
      | ok path =>
          obtain ⟨rfl, hready', hknown, hmore⟩ := hr path rfl
          have hout' : ∀ p ∈ out ++ [cachePath names dir url (key ++ ".bin")], Known h' p := by
            intro p hp
            rcases List.mem_append.mp hp with hp | hp
            · exact hmore p (hout p hp)
            · rwa [List.mem_singleton.mp hp]
          refine safe_mono (fun r h'' hr paths hpaths => ?_)
            (keeps_downloadEach assets _ h' hassets hready' hout')
          obtain ⟨rfl, hall⟩ := hr paths hpaths
          refine ⟨?_, hall⟩
          rw [List.append_assoc, List.map_cons, List.singleton_append]

/-- What the value of a call says. -/
def Downloaded (names : UrlNames) (dir : String) (call : DownloadCall) :
    Except String (List FilePath) → Held FilePath Body → Prop
  | .ok paths, h => paths.Perm ((call.targets names dir).map Prod.snd) ∧ ∀ p ∈ paths, Known h p
  | .error _, _ => True

theorem keeps_run (i : ι) :
    Keeps Sent names dir calls
      ((calls i).parts names dir) (Downloaded names dir (calls i)) ((calls i).run names dir)
      .nothing := by
  cases hcall : calls i with
  | asset url =>
      have htarget : (url, cachePath names dir url "asset.bin") ∈ (calls i).targets names dir := by
        rw [hcall]
        exact List.mem_singleton_self _
      have hpart : (cachePath names dir url "asset.bin").part ∈
          (DownloadCall.asset url).parts names dir := ⟨_, List.mem_singleton_self _, rfl⟩
      refine ⟨trivial, ?_⟩
      rintro (e | ⟨⟩) h ⟨-, rfl⟩
      · exact trivial
      · refine safe_bind (fun r h hr => ?_) (keeps_fetchInto (assetError url) htarget hpart rfl)
        cases r with
        | error e => exact trivial
        | ok path =>
            obtain ⟨rfl, -, hknown, -⟩ := hr path rfl
            exact ⟨.rfl, fun p hp => by rwa [List.mem_singleton.mp hp]⟩
  | items assetKeys found =>
      have htargets : ∀ a ∈ selected assetKeys found,
          (a.2, cachePath names dir a.2 (a.1 ++ ".bin")) ∈ (calls i).targets names dir ∧
            (cachePath names dir a.2 (a.1 ++ ".bin")).part ∈
              (DownloadCall.items assetKeys found).parts names dir := by
        intro a ha
        have hmem := List.mem_map_of_mem
          (f := fun a => (a.2, cachePath names dir a.2 (a.1 ++ ".bin"))) ha
        refine ⟨?_, _, hmem, rfl⟩
        rw [hcall]
        exact hmem
      refine ⟨trivial, ?_⟩
      rintro (e | ⟨⟩) h ⟨-, rfl⟩
      · exact trivial
      · refine ⟨trivial, ?_⟩
        rintro (e | ⟨⟩) h ⟨-, rfl⟩
        · exact trivial
        · refine safe_bind (p := downloadEach names dir (selected assetKeys found) [])
            (fun r h hr => ?_) (keeps_downloadEach _ [] .nothing htargets rfl nofun)
          cases r with
          | error e => exact trivial
          | ok paths =>
              obtain ⟨rfl, hknown⟩ := hr paths rfl
              refine ⟨?_, fun p hp => hknown p (List.mem_mergeSort.mp hp)⟩
              refine (List.mergeSort_perm _ _).trans ?_
              rw [DownloadCall.targets, List.map_map]
              exact .rfl

/-- The name of a file ends in `.part`. -/
def IsPart (p : FilePath) : Prop := ∃ stem, p.name.toList = stem ++ ['.', 'p', 'a', 'r', 't']

theorem isPart_part (p : FilePath) : IsPart p.part :=
  ⟨fileStem p.name, by simp [FilePath.part, withExtension]⟩

/-- The calls share no file that they write to. -/
def Apart (names : UrlNames) (dir : String) (call call' : DownloadCall) : Prop :=
  Disjoint (call.parts names dir) (call'.parts names dir)

variable [DecidableEq ι]

/-- Any number of calls on one cache, any of which may be killed at any moment and started
again, those at work at the same moment apart from each other: if every file of the cache is a
whole body at first, it always is, and the files that a call returns are those of its assets,
each of them there as a whole body. -/
theorem cache_complete (hpart : ∀ i, ∀ x ∈ (calls i).targets names dir, ¬ IsPart x.2)
    {s t : Pool FilePath Body Body String String FetchCall FetchReply ι
      (Except String (List FilePath))}
    (hfree : ∀ i, s.live i = none)
    (hwhole : ∀ p ∈ cached names dir calls, ∀ c, s.files p = some c →
      IsBody Sent names dir calls p c)
    (hrun : Relation.ReflTransGen (Step Writes (Serves Sent) (fun i => (calls i).run names dir)
      fun i j => Apart names dir (calls i) (calls j)) s t) :
    (∀ p ∈ cached names dir calls, ∀ c, t.files p = some c → IsBody Sent names dir calls p c) ∧
    ∀ i paths, t.live i = some (.done (.ok paths)) →
      paths.Perm (((calls i).targets names dir).map Prod.snd) ∧
        ∀ p ∈ paths, ∃ c, t.files p = some c ∧ IsBody Sent names dir calls p c := by
  have hown : ∀ i, Disjoint ((calls i).parts names dir) (cached names dir calls) := by
    intro i
    rw [Set.disjoint_left]
    rintro p ⟨x, -, rfl⟩ ⟨j, y, hy, heq⟩
    exact hpart j y hy (heq ▸ isPart_part x.2)
  have hapart : ∀ i j, i ≠ j → Apart names dir (calls i) (calls j) →
      Disjoint ((calls i).parts names dir) ((calls j).parts names dir) := fun _ _ _ h => h
  have hkeeps : ∀ i, Keeps Sent names dir calls ((calls i).parts names dir)
      (Downloaded names dir (calls i)) ((calls i).run names dir) .nothing := keeps_run
  have hall : ∀ p ∈ cached names dir calls, ∀ c, t.files p = some c →
      IsBody Sent names dir calls p c := by
    intro p hp c hc
    rcases dst_intact hown hapart hkeeps hfree hrun hp with hsame | ⟨c', hc', hbody⟩
    · exact hwhole p hp c (hsame ▸ hc)
    · rw [hc] at hc'
      cases hc'
      exact hbody
  refine ⟨hall, fun i paths hdone => ?_⟩
  obtain ⟨h, ⟨hperm, hknown⟩, hholds⟩ := holds_of_returned hown hapart hkeeps hfree hrun hdone
  refine ⟨hperm, fun p hp => ?_⟩
  rcases hknown p hp with hmem | hmem
  · obtain ⟨hcached, hsome⟩ := hholds.known p hmem
    obtain ⟨c, hc⟩ := Option.isSome_iff_exists.mp hsome
    exact ⟨c, hc, hall p hcached c hc⟩
  · exact (hholds.made p hmem).2

end Calls

/-- Names that are short. -/
def sampleNames : UrlNames := ⟨fun _ => "00", fun _ => some "b4.tif"⟩

/-- One call for one asset. -/
def sampleCall : DownloadCall := .asset "https://host/b4.tif"

/-- An empty cache. -/
def emptyCache : Pool FilePath Body Body String String FetchCall FetchReply Unit
    (Except String (List FilePath)) :=
  ⟨fun _ => none, fun _ => none⟩

/-- Its file. -/
def samplePath : FilePath := ⟨"/cache", "00_b4.tif"⟩

theorem cache_complete_sample :
    ∃ t, Relation.ReflTransGen (Step Writes (Serves fun _ c => c = [7])
        (fun _ : Unit => sampleCall.run sampleNames "/cache")
        fun _ _ => Apart sampleNames "/cache" sampleCall sampleCall) emptyCache t ∧
      t.live () = some (.done (.ok [samplePath])) ∧ ∃ c, t.files samplePath = some c := by
  have hstart : Step Writes (Serves fun _ c => c = [7])
      (fun _ : Unit => sampleCall.run sampleNames "/cache")
      (fun _ _ => Apart sampleNames "/cache" sampleCall sampleCall) emptyCache
      ⟨emptyCache.files,
        Function.update emptyCache.live () (some (sampleCall.run sampleNames "/cache"))⟩ :=
    .start rfl nofun
  have hcreated := (Relation.ReflTransGen.single hstart).tail
    (.answer (i := ()) (q := .other (.createDirAll "/cache")) (r := Except.ok ()) rfl
      ⟨show Serves (fun _ c => c = [7]) (.createDirAll "/cache") (.ok ()) from trivial, rfl⟩)
  have habsent := hcreated.tail
    (.answer (i := ()) (q := .present samplePath) (r := false) rfl ⟨rfl, rfl⟩)
  have hgot := habsent.tail
    (.answer (i := ()) (q := .other (.get "https://host/b4.tif")) (r := Except.ok [7]) rfl
      ⟨show Serves (fun _ c => c = [7]) (.get "https://host/b4.tif") (.ok [7]) from rfl, rfl⟩)
  have hwritten := hgot.tail
    (.answer (i := ()) (q := .fill samplePath.part [7]) (r := Except.ok ()) rfl
      ⟨[7], rfl, rfl⟩)
  have hfile : Function.update emptyCache.files samplePath.part (some [7]) samplePath.part =
      some [7] := Function.update_self _ _ _
  have hrun := hwritten.tail
    (.answer (i := ()) (q := .rename samplePath.part samplePath) (r := Except.ok ()) rfl
      ⟨[7], hfile, rfl⟩)
  have hname : ∀ x ∈ sampleCall.targets sampleNames "/cache", ¬ IsPart x.2 := by
    rintro x hx ⟨stem, hstem⟩
    rw [List.mem_singleton.mp hx] at hstem
    have hlast := congrArg List.getLast? hstem
    simp [cachePath, sampleNames] at hlast
  have hdone := (cache_complete (fun _ => hname) (fun _ => rfl) (fun _ _ _ hc => by cases hc)
    hrun).2 () [samplePath] rfl
  obtain ⟨c, hc, -⟩ := hdone.2 samplePath (List.mem_singleton_self _)
  exact ⟨_, hrun, rfl, c, hc⟩

end Staged
end OrbitOpenEO
