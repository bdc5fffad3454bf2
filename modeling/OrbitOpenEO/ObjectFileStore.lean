import OrbitOpenEO.PathSafety

/-!
# The file store over an object store

`ObjectStoreBackend` keeps a file under the path that is read from the user id and the
path joined by a slash.  The object store is a map from paths to bytes which lists what
lies below a path.

`keyToPath_eq_ok` says where a key leads, and `mem_list` what a listing shows.
-/

namespace OrbitOpenEO

open Lib

/-- A part of an object path. -/
def ValidPart (part : List Char) : Prop :=
  NormalSegment part ∧ ∀ c ∈ part, c ≠ '/' ∧ 32 ≤ c.toNat ∧ c.toNat ≠ 127

instance : DecidablePred NormalSegment := fun seg => by
  unfold NormalSegment
  infer_instance

instance : DecidablePred ValidPart := fun part =>
  have := List.decidableBAll (fun c => c ≠ '/' ∧ 32 ≤ c.toNat ∧ c.toNat ≠ 127) part
  inferInstanceAs (Decidable (NormalSegment part ∧ _))

/-- `object_store::path::Path`. -/
@[ext] structure ObjPath where
  parts : List (List Char)
  valid : ∀ part ∈ parts, ValidPart part
deriving DecidableEq

namespace ObjPath

/-- The text of a path. -/
def toText (p : ObjPath) : List Char := ['/'].intercalate p.parts

end ObjPath

/-- A text without its first character, if that is a slash. -/
def dropLeading (s : List Char) : List Char :=
  if s.head? = some '/' then s.tail else s

/-- The parts of a text: a slash at either end is dropped. -/
def partsOf (s : List Char) : List (List Char) :=
  if dropLeading s = [] then []
  else if (dropLeading s).getLast? = some '/' then splitSlash (dropLeading s).dropLast
  else splitSlash (dropLeading s)

/-- `object_store::path::Path::parse`: a text is a path if its parts can be parts of one. -/
structure PathParser where
  parse : String → Except String ObjPath
  parse_eq_ok : ∀ (s : String) (p : ObjPath), parse s = .ok p ↔ p.parts = partsOf s.toList

/-- An object store that is a map from paths to bytes, and lists by whole parts.
Whether a listing shows the path it was asked for is left open. -/
structure ObjectStore (σ : Type) where
  empty : σ
  put : ObjPath → Bytes → σ → σ
  get : ObjPath → σ → Option Bytes
  delete : ObjPath → σ → σ
  list : ObjPath → σ → List (ObjPath × Nat)
  get_empty : ∀ p, get p empty = none
  get_put : ∀ p q bytes s, get q (put p bytes s) = if q = p then some bytes else get q s
  get_delete : ∀ p q s, get q (delete p s) = if q = p then none else get q s
  list_sound : ∀ p q size s, (q, size) ∈ list p s →
    p.parts <+: q.parts ∧ ∃ bytes, get q s = some bytes ∧ size = bytes.length
  list_complete : ∀ p q bytes s, p.parts <+: q.parts → p ≠ q → get q s = some bytes →
    (q, bytes.length) ∈ list p s

/-- A parser that reads exactly the paths. -/
def PathParser.byParts : PathParser where
  parse s :=
    if h : ∀ part ∈ partsOf s.toList, ValidPart part then .ok ⟨partsOf s.toList, h⟩
    else .error "invalid path"
  parse_eq_ok s p := by
    split_ifs with h
    · rw [Except.ok.injEq, ObjPath.ext_iff]
      exact eq_comm
    · constructor
      · intro hp
        cases hp
      · intro hp
        exact absurd (hp ▸ p.valid) h

/-- Bytes in a list. -/
def ObjectStore.assoc : ObjectStore (List (ObjPath × Bytes)) where
  empty := []
  put p bytes s := (p, bytes) :: s
  get p s := s.lookup p
  delete p s := s.filter (fun e => e.1 ≠ p)
  list p s := s.filterMap (fun e =>
    if p.parts <+: e.1.parts then (s.lookup e.1).map (fun bytes => (e.1, bytes.length)) else none)
  get_empty _ := rfl
  get_put p q bytes s := by
    by_cases hq : q = p
    · simp [hq]
    · rw [List.lookup_cons, beq_false_of_ne hq, if_neg hq]
  get_delete p q s := lookup_filter_ne p q s
  list_sound p q size s h := by
    obtain ⟨e, _, he⟩ := List.mem_filterMap.mp h
    split_ifs at he with hpre
    obtain ⟨bytes, hbytes, hpair⟩ := Option.map_eq_some_iff.mp he
    rw [Prod.mk.injEq] at hpair
    obtain ⟨rfl, rfl⟩ := hpair
    exact ⟨hpre, bytes, hbytes, rfl⟩
  list_complete p q bytes s hpre _ hget := by
    refine List.mem_filterMap.mpr ⟨(q, bytes), mem_of_lookup_eq_some hget, ?_⟩
    rw [if_pos hpre, hget]
    rfl

namespace ObjectStoreBackend

section Backend

variable {σ : Type} (P : PathParser) (S : ObjectStore σ)

/-- `key_to_path`. -/
def keyToPath (key : FileKey) : Except FileError ObjPath := do
  validatePath key.path
  match P.parse (key.userId ++ "/" ++ key.path) with
  | .ok p => .ok p
  | .error e => .error (.forbidden e)

/-- `put`. -/
def put (key : FileKey) (bytes : Bytes) (s : σ) : Except FileError σ := do
  let p ← keyToPath P key
  .ok (S.put p bytes s)

/-- `get`. -/
def get (key : FileKey) (s : σ) : Except FileError Bytes := do
  let p ← keyToPath P key
  match S.get p s with
  | some bytes => .ok bytes
  | none => .error .notFound

/-- `delete`: a file that is not there is no error. -/
def delete (key : FileKey) (s : σ) : Except FileError σ := do
  let p ← keyToPath P key
  .ok (S.delete p s)

/-- The entry of a listing: what follows the user id and a slash. -/
def entryOf (userId : String) (found : ObjPath × Nat) : Option FileEntry :=
  ((userId ++ "/").toList.isPrefixOf? found.1.toText).map
    (fun rest => ⟨String.ofList rest, found.2⟩)

/-- `list`. -/
def list (userId : String) (s : σ) : Except FileError (List FileEntry) :=
  match P.parse userId with
  | .error e => .error (.forbidden e)
  | .ok pre => .ok ((S.list pre s).filterMap (entryOf userId))

end Backend

end ObjectStoreBackend

theorem isPrefixOf?_eq_some_iff : ∀ {front s rest : List Char},
    front.isPrefixOf? s = some rest ↔ s = front ++ rest
  | [], s, rest => by simp [List.isPrefixOf?]
  | c :: front, [], rest => by simp [List.isPrefixOf?]
  | c :: front, d :: s, rest => by
      unfold List.isPrefixOf?
      rw [List.cons_append, List.cons.injEq]
      by_cases hc : c = d
      · rw [if_pos (beq_iff_eq.mpr hc), isPrefixOf?_eq_some_iff]
        exact (and_iff_right hc.symm).symm
      · rw [if_neg (by simpa using hc)]
        simp [Ne.symm hc]

/-- The characters of a segment. -/
theorem mem_of_mem_splitSlash : ∀ {cs seg : List Char}, seg ∈ splitSlash cs →
    ∀ c ∈ seg, c ∈ cs ∧ c ≠ '/'
  | [], seg, hseg, c, hc => by
      rw [List.mem_singleton.mp hseg] at hc
      exact absurd hc List.not_mem_nil
  | a :: cs, seg, hseg, c, hc => by
      obtain ⟨first, others, hcs⟩ := splitSlash_eq_cons cs
      by_cases ha : a = '/'
      · rw [ha, splitSlash_slash] at hseg
        rcases List.mem_cons.mp hseg with rfl | hseg
        · exact absurd hc List.not_mem_nil
        · exact (mem_of_mem_splitSlash hseg c hc).imp_left (List.mem_cons_of_mem a)
      · rw [splitSlash_cons_of_ne ha hcs] at hseg
        have ih : ∀ seg ∈ first :: others, ∀ c ∈ seg, c ∈ cs ∧ c ≠ '/' := by
          rw [← hcs]
          exact fun seg => mem_of_mem_splitSlash
        rcases List.mem_cons.mp hseg with rfl | hseg
        · rcases List.mem_cons.mp hc with rfl | hc
          · exact ⟨List.mem_cons_self, ha⟩
          · exact (ih first List.mem_cons_self c hc).imp_left (List.mem_cons_of_mem a)
        · exact (ih seg (List.mem_cons_of_mem _ hseg) c hc).imp_left (List.mem_cons_of_mem a)

/-- The segments of a text are its own. -/
theorem splitSlash_injective : Function.Injective splitSlash := by
  intro as bs h
  have hjoin := congrArg (List.intercalate ['/']) h
  rwa [splitSlash_eq_splitOn, splitSlash_eq_splitOn, List.intercalate_splitOn,
    List.intercalate_splitOn] at hjoin

theorem ObjPath.splitSlash_toText {p : ObjPath} (hp : p.parts ≠ []) :
    splitSlash p.toText = p.parts := by
  unfold ObjPath.toText
  rw [splitSlash_eq_splitOn]
  exact List.splitOn_intercalate '/'
    (fun part hpart hslash => ((p.valid part hpart).2 '/' hslash).1 rfl) hp

/-- Parts are the segments of a text. -/
theorem exists_splitSlash_eq {parts : List (List Char)} (h : ∀ part ∈ parts, ValidPart part)
    (hne : parts ≠ []) : ∃ text : String, splitSlash text.toList = parts := by
  refine ⟨String.ofList (ObjPath.toText ⟨parts, h⟩), ?_⟩
  rw [String.toList_ofList]
  exact ObjPath.splitSlash_toText (p := ⟨parts, h⟩) hne

/-- The directory of a user. -/
def homeParts (userId : String) : List (List Char) :=
  if userId.toList = [] then [] else splitSlash (dropLeading userId.toList)

/-- The files of the user can be stored. -/
def Storable (userId : String) : Prop := ∀ part ∈ homeParts userId, ValidPart part

/-- The user id is an object path, written as such paths are. -/
def Canonical (userId : String) : Prop := ∀ part ∈ splitSlash userId.toList, ValidPart part

instance : DecidablePred Storable := fun userId => by
  unfold Storable
  infer_instance

instance : DecidablePred Canonical := fun userId => by
  unfold Canonical
  infer_instance

theorem dropLeading_cons_of_ne {c : Char} (hc : c ≠ '/') (cs : List Char) :
    dropLeading (c :: cs) = c :: cs :=
  if_neg fun h => hc (Option.some.inj h)

/-- What a path ends in, if its segments are not empty. -/
theorem getLast?_ne_slash : ∀ {cs : List Char}, (∀ seg ∈ splitSlash cs, seg ≠ []) →
    cs.getLast? ≠ some '/' := by
  intro cs h hlast
  obtain ⟨front, rfl⟩ := List.getLast?_eq_some_iff.mp hlast
  rw [splitSlash_join] at h
  exact h [] (List.mem_append_right _ List.mem_cons_self) rfl

theorem partsOf_eq {s : List Char} (hne : dropLeading s ≠ [])
    (hlast : (dropLeading s).getLast? ≠ some '/') : partsOf s = splitSlash (dropLeading s) := by
  unfold partsOf
  rw [if_neg hne, if_neg hlast]

/-- The parts of a directory and a path in it. -/
theorem partsOf_join {home path : List Char} (hpath : ∀ seg ∈ splitSlash path, seg ≠ []) :
    partsOf (home ++ '/' :: path) =
      (if home = [] then [] else splitSlash (dropLeading home)) ++ splitSlash path := by
  have hpathne : path ≠ [] := by
    rintro rfl
    exact hpath [] List.mem_cons_self rfl
  have hne : ∀ front : List Char, front ++ '/' :: path ≠ [] := fun front =>
    List.append_ne_nil_of_right_ne_nil _ (List.cons_ne_nil _ _)
  have hlast : ∀ front : List Char, (front ++ '/' :: path).getLast? ≠ some '/' := by
    intro front h
    rw [List.getLast?_append_of_ne_nil _ (List.cons_ne_nil _ _),
      List.getLast?_cons_of_ne_nil hpathne] at h
    exact getLast?_ne_slash hpath h
  cases home with
  | nil => exact partsOf_eq hpathne (getLast?_ne_slash hpath)
  | cons c home =>
      rw [if_neg (List.cons_ne_nil c home)]
      by_cases hc : c = '/'
      · subst hc
        rw [← splitSlash_join]
        exact partsOf_eq (hne home) (hlast home)
      · have hdrop : dropLeading ((c :: home) ++ '/' :: path) = (c :: home) ++ '/' :: path :=
          dropLeading_cons_of_ne hc _
        have hparts := @partsOf_eq ((c :: home) ++ '/' :: path)
        rw [hdrop] at hparts
        rw [dropLeading_cons_of_ne hc, ← splitSlash_join]
        exact hparts (hne _) (hlast _)

/-- An accepted path is made of parts. -/
theorem validPart_of_validatePath {path : String} (h : validatePath path = .ok ()) :
    ∀ part ∈ splitSlash path.toList, ValidPart part := by
  have hsafe := safePath_of_validatePath h
  intro part hpart
  refine ⟨hsafe.segments part hpart, fun c hc => ?_⟩
  obtain ⟨hmem, hslash⟩ := mem_of_mem_splitSlash hpart c hc
  have hcontrol := (hsafe.chars c hmem).1
  unfold isControl at hcontrol
  rw [Bool.or_eq_false_iff, decide_eq_false_iff_not, Bool.and_eq_false_iff,
    decide_eq_false_iff_not, decide_eq_false_iff_not] at hcontrol
  refine ⟨hslash, ?_⟩
  omega

/-- A path as such paths are written has no slash at its ends. -/
theorem Canonical.dropLeading_eq {userId : String} (h : Canonical userId) :
    dropLeading userId.toList = userId.toList := by
  unfold dropLeading
  rw [if_neg]
  intro hhead
  obtain ⟨rest, hrest⟩ := List.head?_eq_some_iff.mp hhead
  unfold Canonical at h
  rw [hrest, splitSlash_slash] at h
  exact (h [] List.mem_cons_self).1.1 rfl

theorem Canonical.ne_nil {userId : String} (h : Canonical userId) : userId.toList ≠ [] := by
  intro hnil
  unfold Canonical at h
  rw [hnil] at h
  exact (h [] List.mem_cons_self).1.1 rfl

theorem homeParts_canonical {userId : String} (h : Canonical userId) :
    homeParts userId = splitSlash userId.toList := by
  unfold homeParts
  rw [if_neg h.ne_nil, h.dropLeading_eq]

theorem Canonical.storable {userId : String} (h : Canonical userId) : Storable userId := by
  unfold Storable
  rw [homeParts_canonical h]
  exact h

theorem partsOf_canonical {userId : String} (h : Canonical userId) :
    partsOf userId.toList = splitSlash userId.toList := by
  have hlast := getLast?_ne_slash fun seg hseg => (h seg hseg).1.1
  have hparts := @partsOf_eq userId.toList
  rw [h.dropLeading_eq] at hparts
  exact hparts h.ne_nil hlast

section Keys

variable {σ : Type} {P : PathParser} {S : ObjectStore σ}

namespace ObjectStoreBackend

/-- **Where a key leads**: to the path below the directory of its user. -/
theorem keyToPath_eq_ok {key : FileKey} {p : ObjPath} :
    keyToPath P key = .ok p ↔ validatePath key.path = .ok () ∧
      p.parts = homeParts key.userId ++ splitSlash key.path.toList := by
  unfold keyToPath
  rw [bind_eq_ok_iff]
  constructor
  · rintro ⟨_, hvalid, hparse⟩
    refine ⟨hvalid, ?_⟩
    cases hp : P.parse (key.userId ++ "/" ++ key.path) with
    | error e =>
        rw [hp] at hparse
        cases hparse
    | ok q =>
        rw [hp] at hparse
        cases hparse
        rw [(P.parse_eq_ok _ _).mp hp, toList_join, partsOf_join]
        · rfl
        · exact fun seg hseg => (validPart_of_validatePath hvalid seg hseg).1.1
  · rintro ⟨hvalid, hparts⟩
    refine ⟨(), hvalid, ?_⟩
    have hp : P.parse (key.userId ++ "/" ++ key.path) = .ok p := by
      rw [P.parse_eq_ok, hparts, toList_join, partsOf_join]
      · rfl
      · exact fun seg hseg => (validPart_of_validatePath hvalid seg hseg).1.1
    rw [hp]

theorem keyToPath_of_refused {key : FileKey} {e : FileError}
    (h : validatePath key.path = .error e) : keyToPath P key = .error e := by
  unfold keyToPath
  rw [h]
  rfl

/-- A key whose path is accepted leads somewhere if its user has a directory. -/
theorem exists_keyToPath {key : FileKey} (hvalid : validatePath key.path = .ok ())
    (hhome : Storable key.userId) : ∃ p, keyToPath P key = .ok p :=
  ⟨⟨_, List.forall_mem_append.mpr ⟨hhome, validPart_of_validatePath hvalid⟩⟩,
    keyToPath_eq_ok.mpr ⟨hvalid, rfl⟩⟩

/-- What is found below a directory that is named by a text. -/
theorem toText_eq_join_iff {p : ObjPath} {home rest : List Char} :
    p.toText = home ++ '/' :: rest ↔ (∀ part ∈ splitSlash home, ValidPart part) ∧
      p.parts = splitSlash home ++ splitSlash rest := by
  constructor
  · intro h
    have hne : p.parts ≠ [] := by
      intro hnil
      unfold ObjPath.toText at h
      rw [hnil] at h
      exact absurd h.symm (List.append_ne_nil_of_right_ne_nil _ (List.cons_ne_nil _ _))
    have hparts : p.parts = splitSlash home ++ splitSlash rest := by
      rw [← ObjPath.splitSlash_toText hne, h, splitSlash_join]
    refine ⟨fun part hpart => p.valid part ?_, hparts⟩
    rw [hparts]
    exact List.mem_append_left _ hpart
  · rintro ⟨_, hparts⟩
    unfold ObjPath.toText
    rw [hparts, ← splitSlash_join, splitSlash_eq_splitOn]
    exact List.intercalate_splitOn '/'

theorem entryOf_eq_some_iff {userId : String} {found : ObjPath × Nat} {e : FileEntry} :
    entryOf userId found = some e ↔
      Canonical userId ∧ found.1.parts = splitSlash userId.toList ++ splitSlash e.path.toList ∧
        e.size = found.2 := by
  have htext : (userId ++ "/").toList ++ e.path.toList = userId.toList ++ '/' :: e.path.toList := by
    rw [← String.toList_append]
    exact toList_join userId e.path
  unfold entryOf Canonical
  rw [← and_assoc, ← toText_eq_join_iff, ← htext, ← isPrefixOf?_eq_some_iff, Option.map_eq_some_iff]
  constructor
  · rintro ⟨rest, hrest, rfl⟩
    rw [String.toList_ofList]
    exact ⟨hrest, rfl⟩
  · rintro ⟨hrest, hsize⟩
    refine ⟨_, hrest, ?_⟩
    rw [String.ofList_toList, ← hsize]

/-- **What a listing shows**: what is stored below the directory of the user. -/
theorem mem_list {userId : String} {s : σ} {entries : List FileEntry} {e : FileEntry}
    (h : list P S userId s = .ok entries) :
    e ∈ entries ↔ Canonical userId ∧ ∃ p bytes, S.get p s = some bytes ∧
      p.parts = splitSlash userId.toList ++ splitSlash e.path.toList ∧
        e.size = bytes.length := by
  unfold list at h
  cases hparse : P.parse userId with
  | error err =>
      rw [hparse] at h
      cases h
  | ok pre =>
      rw [hparse] at h
      cases h
      simp only [List.mem_filterMap, entryOf_eq_some_iff]
      have hpre := (P.parse_eq_ok _ _).mp hparse
      constructor
      · rintro ⟨⟨p, size⟩, hmem, hcanonical, hparts, hsize⟩
        obtain ⟨_, bytes, hget, rfl⟩ := S.list_sound _ _ _ _ hmem
        exact ⟨hcanonical, p, bytes, hget, hparts, hsize⟩
      · rintro ⟨hcanonical, p, bytes, hget, hparts, hsize⟩
        rw [partsOf_canonical hcanonical] at hpre
        refine ⟨(p, bytes.length), ?_, hcanonical, hparts, hsize⟩
        refine S.list_complete pre p bytes s ?_ ?_ hget
        · rw [hpre, hparts]
          exact List.prefix_append _ _
        · rintro rfl
          rw [hpre] at hparts
          obtain ⟨seg, segs, hsplit⟩ := splitSlash_eq_cons e.path.toList
          rw [hsplit, List.self_eq_append_right] at hparts
          exact absurd hparts (List.cons_ne_nil _ _)

/-- A user id that is a path can be listed. -/
theorem exists_list {userId : String} (h : Canonical userId) (s : σ) :
    ∃ entries, list P S userId s = .ok entries := by
  have hparts : partsOf userId.toList = splitSlash userId.toList := partsOf_canonical h
  have hparse : P.parse userId = .ok ⟨splitSlash userId.toList, h⟩ :=
    (P.parse_eq_ok _ _).mpr hparts.symm
  unfold list
  rw [hparse]
  exact ⟨_, rfl⟩

end ObjectStoreBackend

end Keys

end OrbitOpenEO
