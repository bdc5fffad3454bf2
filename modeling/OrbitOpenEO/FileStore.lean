import Mathlib.Data.List.Basic
import Mathlib.Data.Char
import Mathlib.Data.String.Basic
import Mathlib.Data.Prod.Lex
import Mathlib.Tactic.Common

/-!
# The file store

`InMemoryFileStore` is an ordered map from keys to bytes behind a path check.
`put` replaces what is stored under its key; `get_put` is what later proofs use.
-/

namespace OrbitOpenEO

/-- Identity of one stored file. -/
structure FileKey where
  userId : String
  path : String
deriving DecidableEq

/-- The derived order of `FileKey`: by user, then by path. -/
def FileKey.lt (a b : FileKey) : Bool :=
  decide (a.userId < b.userId) || (a.userId == b.userId && decide (a.path < b.path))

namespace FileKey

theorem lt_iff {a b : FileKey} : a.lt b = true ↔ toLex (a.userId, a.path) < toLex (b.userId, b.path) := by
  unfold FileKey.lt
  rw [Prod.Lex.toLex_lt_toLex, Bool.or_eq_true, Bool.and_eq_true, decide_eq_true_eq,
    decide_eq_true_eq, beq_iff_eq]

theorem lt_trans {a b c : FileKey} (hab : a.lt b = true) (hbc : b.lt c = true) :
    a.lt c = true :=
  lt_iff.mpr ((lt_iff.mp hab).trans (lt_iff.mp hbc))

theorem not_lt_self (a : FileKey) : ¬ a.lt a = true := fun h => lt_irrefl _ (lt_iff.mp h)

theorem lt_of_not_lt {a b : FileKey} (hne : a ≠ b) (h : ¬ a.lt b = true) : b.lt a = true := by
  rw [lt_iff] at h ⊢
  refine lt_of_le_of_ne (not_lt.mp h) fun heq => hne ?_
  have hpair := toLex.injective heq
  rw [Prod.mk.injEq] at hpair
  cases a
  cases b
  rw [FileKey.mk.injEq]
  exact ⟨hpair.1.symm, hpair.2.symm⟩

end FileKey

/-- Listing entry returned by `list`. -/
structure FileEntry where
  path : String
  size : Nat
deriving DecidableEq

/-- Errors a file store can surface. -/
inductive FileError where
  | notFound
  | forbidden (reason : String)
  | io (msg : String)
deriving DecidableEq

/-- The text of a file-store error. -/
def FileError.toText : FileError → String
  | .notFound => "file not found"
  | .forbidden reason => s!"forbidden path: {reason}"
  | .io msg => s!"io error: {msg}"

/-- `char::to_digit(16)` of an ASCII byte. -/
def hexDigit (b : UInt8) : Option UInt8 :=
  if 48 ≤ b ∧ b ≤ 57 then some (b - 48)
  else if 65 ≤ b ∧ b ≤ 70 then some (b - 55)
  else if 97 ≤ b ∧ b ≤ 102 then some (b - 87)
  else none

/-- The loop of `percent_decode_once`: an escape needs two digits after the
percent sign, and other bytes are copied. -/
def percentDecodeBytes : List UInt8 → List UInt8
  | 37 :: hi :: lo :: rest =>
      match hexDigit hi, hexDigit lo with
      | some h, some l => (h * 16 + l) :: percentDecodeBytes rest
      | _, _ => 37 :: percentDecodeBytes (hi :: lo :: rest)
  | b :: rest => b :: percentDecodeBytes rest
  | [] => []

/-- `percent_decode_once`. -/
def percentDecodeOnce (s : String) : String :=
  if s.toList.contains '%' then
    match String.fromUTF8? ⟨(percentDecodeBytes s.toUTF8.toList).toArray⟩ with
    | some t => t
    | none => "\\0invalid"
  else s

/-- `{:04X}`. -/
def hexUpper4 (n : Nat) : String :=
  let digits := (Nat.toDigits 16 n).map Char.toUpper
  String.ofList (List.replicate (4 - digits.length) '0' ++ digits)

/-- `char::is_control`: the general category Cc. -/
def isControl (c : Char) : Bool := c.toNat < 32 || (127 ≤ c.toNat && c.toNat < 160)

/-- The characters `validate_path` refuses besides control characters. -/
def disallowedChars : List Char := ['\\', ':', '<', '>', '"', '|', '?', '*', '\x00']

/-- `{c:?}` of a refused character: only the backslash is escaped. -/
def debugChar (c : Char) : String :=
  if c = '\\' then "'\\\\'" else String.ofList ['\'', c, '\'']

/-- The loop of `validate_path` over the characters. -/
def checkChars : List Char → Except FileError Unit
  | [] => .ok ()
  | c :: cs =>
      if isControl c then .error (.forbidden ("control char U+" ++ hexUpper4 c.toNat))
      else if disallowedChars.contains c then
        .error (.forbidden ("disallowed char " ++ debugChar c))
      else checkChars cs

/-- `str::split('/')`: the parts between the slashes. -/
def splitSlash : List Char → List (List Char)
  | [] => [[]]
  | c :: cs =>
      match splitSlash cs with
      | [] => [[c]]
      | seg :: segs => if c = '/' then [] :: seg :: segs else (c :: seg) :: segs

/-- `validate_path`. -/
def validatePath (path : String) : Except FileError Unit := do
  let target := (percentDecodeOnce path).toList
  if target.isEmpty then throw (.forbidden "empty path")
  if target.head? = some '/' ∨ target.head? = some '\\' then throw (.forbidden "absolute path")
  if target.head? = some '-' then
    throw (.forbidden "leading dash (option-injection risk)")
  if target.head? = some '~' then throw (.forbidden "leading tilde (home-dir injection)")
  if target[1]? = some ':' ∧ (target.head?.any Char.isAlpha) then
    throw (.forbidden "drive-letter prefix")
  checkChars target
  if (splitSlash target).any (fun seg => seg == ['.', '.'] || seg == ['.'] || seg.isEmpty) then
    throw (.forbidden path)

/-- Stored bytes. -/
abbrev Bytes := List UInt8

/-- Taking out an entry leaves the others. -/
theorem lookup_filter_ne {κ β : Type} [DecidableEq κ] (key k : κ) :
    ∀ es : List (κ × β),
      (es.filter (fun e => e.1 ≠ key)).lookup k = if k = key then none else es.lookup k
  | [] => by simp
  | (k', b) :: es => by
      have ih := lookup_filter_ne key k es
      by_cases hkey : k' = key
      · subst hkey
        rw [List.filter_cons_of_neg (by simp), ih, List.lookup_cons]
        split_ifs with hk
        · rfl
        · rw [beq_false_of_ne hk]
      · rw [List.filter_cons_of_pos (by simpa using hkey), List.lookup_cons, List.lookup_cons, ih]
        by_cases hk : k = k'
        · subst hk
          simp only [beq_self_eq_true, if_neg hkey]
        · rw [beq_false_of_ne hk]

/-- `InMemoryFileStore`: the entries in key order. -/
structure InMemoryFileStore where
  entries : List (FileKey × Bytes)

namespace InMemoryFileStore

/-- `InMemoryFileStore::new`. -/
def empty : InMemoryFileStore := ⟨[]⟩

/-- `BTreeMap::insert`. -/
def insert (key : FileKey) (bytes : Bytes) : List (FileKey × Bytes) → List (FileKey × Bytes)
  | [] => [(key, bytes)]
  | (k, b) :: es =>
      if key = k then (key, bytes) :: es
      else if key.lt k then (key, bytes) :: (k, b) :: es
      else (k, b) :: insert key bytes es

/-- `put`. -/
def put (key : FileKey) (bytes : Bytes) (store : InMemoryFileStore) :
    Except FileError InMemoryFileStore := do
  validatePath key.path
  .ok ⟨insert key bytes store.entries⟩

/-- `get`. -/
def get (key : FileKey) (store : InMemoryFileStore) : Except FileError Bytes := do
  validatePath key.path
  match store.entries.lookup key with
  | some bytes => .ok bytes
  | none => .error .notFound

/-- `delete`. -/
def delete (key : FileKey) (store : InMemoryFileStore) : Except FileError InMemoryFileStore := do
  validatePath key.path
  .ok ⟨store.entries.filter (fun e => e.1 ≠ key)⟩

/-- `list`. -/
def list (userId : String) (store : InMemoryFileStore) : List FileEntry :=
  (store.entries.filter (fun e => e.1.userId == userId)).map
    (fun e => ⟨e.1.path, e.2.length⟩)

theorem lookup_insert (key k : FileKey) (bytes : Bytes) :
    ∀ es : List (FileKey × Bytes),
      (insert key bytes es).lookup k = if k = key then some bytes else es.lookup k
  | [] => by
      unfold insert
      by_cases hk : k = key
      · simp [hk]
      · have hne : (k == key) = false := by simpa using hk
        simp [List.lookup_cons, hk, hne]
  | (k', b) :: es => by
      unfold insert
      by_cases hk : k = key
      · subst hk
        by_cases hkk : k = k'
        · simp [hkk]
        · have hne : (k == k') = false := by simpa using hkk
          rw [if_neg hkk, if_pos rfl]
          by_cases hlt : k.lt k' = true
          · rw [if_pos hlt, List.lookup_cons_self]
          · rw [if_neg hlt, List.lookup_cons, hne, lookup_insert, if_pos rfl]
      · have hne : (k == key) = false := by simpa using hk
        rw [if_neg hk]
        split_ifs with hkk hlt
        · subst hkk
          simp [List.lookup_cons, hne]
        · rw [List.lookup_cons, hne]
        · rw [List.lookup_cons, List.lookup_cons, lookup_insert, if_neg hk]

/-- **What `put` does**: it replaces the bytes under its key and no others. -/
theorem get_put {key : FileKey} {bytes : Bytes} {store store' : InMemoryFileStore}
    (h : store.put key bytes = .ok store') (k : FileKey) :
    store'.get k = if k = key then .ok bytes else store.get k := by
  unfold put at h
  cases hv : validatePath key.path with
  | error e =>
      rw [hv] at h
      cases h
  | ok u =>
      rw [hv] at h
      cases h
      unfold get
      rw [lookup_insert]
      by_cases hk : k = key
      · subst hk
        simp only [hv, if_true]
        rfl
      · simp only [if_neg hk]

/-- **What `delete` does**: it takes the file out and leaves the others. -/
theorem get_delete {key : FileKey} {store store' : InMemoryFileStore}
    (h : store.delete key = .ok store') (k : FileKey) :
    store'.get k = if k = key then .error .notFound else store.get k := by
  unfold delete at h
  cases hv : validatePath key.path with
  | error e =>
      rw [hv] at h
      cases h
  | ok u =>
      rw [hv] at h
      cases h
      unfold get
      rw [lookup_filter_ne]
      by_cases hk : k = key
      · subst hk
        simp only [hv, if_true]
        rfl
      · simp only [if_neg hk]

/-- The entries are in key order. -/
def Sorted (store : InMemoryFileStore) : Prop :=
  store.entries.Pairwise (fun a b => a.1.lt b.1 = true)

theorem sorted_empty : empty.Sorted := List.Pairwise.nil

theorem mem_insert {key : FileKey} {bytes : Bytes} {e : FileKey × Bytes} :
    ∀ {es : List (FileKey × Bytes)}, e ∈ insert key bytes es → e = (key, bytes) ∨ e ∈ es
  | [], h => Or.inl (List.mem_singleton.mp h)
  | (k, b) :: es, h => by
      unfold insert at h
      split_ifs at h with hk hlt
      · exact (List.mem_cons.mp h).imp_right (List.mem_cons_of_mem _)
      · exact List.mem_cons.mp h
      · rcases List.mem_cons.mp h with rfl | h
        · exact Or.inr List.mem_cons_self
        · exact (mem_insert h).imp_right (List.mem_cons_of_mem _)

theorem sorted_insert (key : FileKey) (bytes : Bytes) :
    ∀ {es : List (FileKey × Bytes)}, es.Pairwise (fun a b => a.1.lt b.1 = true) →
      (insert key bytes es).Pairwise (fun a b => a.1.lt b.1 = true)
  | [], _ => List.pairwise_singleton _ _
  | (k, b) :: es, h => by
      obtain ⟨hk, hes⟩ := List.pairwise_cons.mp h
      unfold insert
      split_ifs with heq hlt
      · subst heq
        exact List.pairwise_cons.mpr ⟨hk, hes⟩
      · refine List.pairwise_cons.mpr ⟨?_, h⟩
        exact List.forall_mem_cons.mpr ⟨hlt, fun e he => FileKey.lt_trans hlt (hk e he)⟩
      · refine List.pairwise_cons.mpr ⟨fun e he => ?_, sorted_insert key bytes hes⟩
        rcases mem_insert he with rfl | he
        · exact FileKey.lt_of_not_lt heq hlt
        · exact hk e he

/-- In key order every entry is the one its key finds. -/
theorem lookup_eq_some_iff {key : FileKey} {bytes : Bytes} :
    ∀ {es : List (FileKey × Bytes)}, es.Pairwise (fun a b => a.1.lt b.1 = true) →
      (es.lookup key = some bytes ↔ (key, bytes) ∈ es)
  | [], _ => by simp
  | (k, b) :: es, h => by
      obtain ⟨hk, hes⟩ := List.pairwise_cons.mp h
      by_cases heq : key = k
      · subst heq
        rw [List.lookup_cons_self, Option.some.injEq, List.mem_cons, Prod.mk.injEq]
        constructor
        · rintro rfl
          exact Or.inl ⟨rfl, rfl⟩
        · rintro (⟨_, rfl⟩ | hmem)
          · rfl
          · exact absurd (hk _ hmem) (FileKey.not_lt_self key)
      · have hne : (key == k) = false := beq_false_of_ne heq
        rw [List.lookup_cons, hne, lookup_eq_some_iff hes, List.mem_cons, Prod.mk.injEq]
        exact ⟨Or.inr, fun hmem => hmem.resolve_left fun h => heq h.1⟩

theorem mem_list {store : InMemoryFileStore} (h : store.Sorted) {userId : String}
    {e : FileEntry} : e ∈ store.list userId ↔
      ∃ bytes, store.entries.lookup ⟨userId, e.path⟩ = some bytes ∧ e.size = bytes.length := by
  unfold list
  simp only [List.mem_map, List.mem_filter, beq_iff_eq]
  constructor
  · rintro ⟨⟨⟨u, path⟩, bytes⟩, ⟨hmem, rfl⟩, rfl⟩
    exact ⟨bytes, (lookup_eq_some_iff h).mpr hmem, rfl⟩
  · rintro ⟨bytes, hlookup, hsize⟩
    refine ⟨⟨⟨userId, e.path⟩, bytes⟩, ⟨(lookup_eq_some_iff h).mp hlookup, rfl⟩, ?_⟩
    rw [← hsize]

end InMemoryFileStore

example : validatePath "result.json" = .ok () := by decide

end OrbitOpenEO
