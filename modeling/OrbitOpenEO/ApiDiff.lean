import OrbitOpenEO.MapUpdate
import OrbitOpenEO.Lib.DelimitedCodes
import OrbitOpenEO.Lib.StableSort
import Mathlib.Data.List.Induction
import Mathlib.Data.Prod.Lex
import Mathlib.Data.String.Basic

/-!
# The differ of public surfaces

`diff` joins the symbols of two source trees by a key without the crate, one slot for each side
under every key, and sorts the rows by module path and name.  Its hash map hands the slots out in
an order that is not fixed, so that order is a parameter.

A slot holds one symbol: of several with one key only the last is left.  Rows of one module path
and name stay in the order of the hash map, as the kind is not compared.  `diffRight_iff` says
exactly when neither matters.
-/

namespace OrbitOpenEO
namespace ApiDiff

open Lib

/-- What kind of public symbol an entry represents. -/
inductive ItemKind where
  | fn
  | struct
  | enum
  | trait
  | typeAlias
  | const
  | static
  | mod
deriving DecidableEq

/-- `ItemKind::tag`. -/
def ItemKind.tag : ItemKind → String
  | .fn => "fn"
  | .struct => "struct"
  | .enum => "enum"
  | .trait => "trait"
  | .typeAlias => "type"
  | .const => "const"
  | .static => "static"
  | .mod => "mod"

/-- One public item observed in a source tree. -/
structure Symbol where
  crateName : String
  modulePath : String
  kind : ItemKind
  name : String
  signatureHash : String
deriving DecidableEq

/-- `Symbol::join_key`. -/
def Symbol.joinKey (s : Symbol) : String :=
  s.modulePath ++ "::" ++ s.kind.tag ++ "::" ++ s.name

/-- One row in the diff. -/
structure DiffRow where
  modulePath : String
  kind : ItemKind
  name : String
  inLeft : Bool
  inRight : Bool
  signatureMatch : Option Bool
  leftHash : Option String
  rightHash : Option String
deriving DecidableEq

/-- The symbols of the two sides under one key. -/
abbrev Slots := Option Symbol × Option Symbol

/-- The hash map as a list of its entries. -/
abbrev ByKey := List (String × Slots)

/-- `entry(key).or_insert((None, None))`, changed in place. -/
def enter (key : String) (f : Slots → Slots) : ByKey → ByKey
  | [] => [(key, f (none, none))]
  | e :: es => if e.1 = key then (key, f e.2) :: es else e :: enter key f es

/-- The two loops of `diff`. -/
def byKey (left right : List Symbol) : ByKey :=
  let lefts := left.foldl (fun m s => enter s.joinKey (fun p => (some s, p.2)) m) []
  right.foldl (fun m s => enter s.joinKey (fun p => (p.1, some s)) m) lefts

/-- The row of an entry; nothing where the code is `unreachable!`. -/
def rowOf (p : Slots) : Option DiffRow := do
  let any ← p.1.or p.2
  let signatureMatch :=
    match p with
    | (some a, some b) => some (a.signatureHash == b.signatureHash)
    | _ => none
  pure {
    modulePath := any.modulePath
    kind := any.kind
    name := any.name
    inLeft := p.1.isSome
    inRight := p.2.isSome
    signatureMatch
    leftHash := p.1.map Symbol.signatureHash
    rightHash := p.2.map Symbol.signatureHash }

/-- The comparison of `sort_by`: the module path, then the name. -/
def rowLe (a b : DiffRow) : Bool :=
  decide (a.modulePath < b.modulePath) || (a.modulePath == b.modulePath && decide (a.name ≤ b.name))

/-- `diff`.  `order` is the order in which the hash map hands out its entries. -/
def diff (order : ByKey → ByKey) (left right : List Symbol) : Option (List DiffRow) := do
  let rows ← (order (byKey left right)).mapM fun e => rowOf e.2
  pure (rows.mergeSort rowLe)

/-- A hash map hands out every entry once. -/
def IsOrder (order : ByKey → ByKey) : Prop := ∀ m, (order m).Perm m

/-- The row shows the module path, kind and name of the symbol. -/
def Shows (r : DiffRow) (s : Symbol) : Prop :=
  r.modulePath = s.modulePath ∧ r.kind = s.kind ∧ r.name = s.name

/-- Every symbol has a row with its signature hash on its side. -/
def LosesNothing (rows : List DiffRow) (left right : List Symbol) : Prop :=
  (∀ s ∈ left, ∃ r ∈ rows, Shows r s ∧ r.inLeft = true ∧ r.leftHash = some s.signatureHash) ∧
  ∀ s ∈ right, ∃ r ∈ rows, Shows r s ∧ r.inRight = true ∧ r.rightHash = some s.signatureHash

/-- The rows come out alike for other orders of the symbols and of the hash map. -/
def Reproducible (left right : List Symbol) : Prop :=
  ∀ order order' left' right', IsOrder order → IsOrder order' → left'.Perm left →
    right'.Perm right → diff order' left' right' = diff order left right

/-- No symbol is lost, and the rows can be reproduced. -/
def DiffRight (left right : List Symbol) : Prop :=
  (∀ order, IsOrder order →
    ∃ rows, diff order left right = some rows ∧ LosesNothing rows left right) ∧
  Reproducible left right

/-- Two symbols with the same module path, kind and name. -/
def Alike (s t : Symbol) : Prop :=
  s.modulePath = t.modulePath ∧ s.kind = t.kind ∧ s.name = t.name

/-- The condition on the symbols. -/
structure WellKeyed (left right : List Symbol) : Prop where
  /-- Symbols with one key differ in the crate only, and across the sides in the signature. -/
  alike : ∀ s ∈ left ++ right, ∀ t ∈ left ++ right, s.joinKey = t.joinKey → Alike s t
  hashLeft : ∀ s ∈ left, ∀ t ∈ left, s.joinKey = t.joinKey → s.signatureHash = t.signatureHash
  hashRight : ∀ s ∈ right, ∀ t ∈ right, s.joinKey = t.joinKey → s.signatureHash = t.signatureHash
  /-- No two kinds share a module path and a name. -/
  oneKind : ∀ s ∈ left ++ right, ∀ t ∈ left ++ right,
    s.modulePath = t.modulePath → s.name = t.name → s.kind = t.kind

theorem keys_enter (key : String) (f : Slots → Slots) (m : ByKey) :
    (enter key f m).map Prod.fst = if key ∈ m.map Prod.fst then m.map Prod.fst
      else m.map Prod.fst ++ [key] := by
  induction m with
  | nil =>
      rfl
  | cons e es ih =>
      by_cases he : e.1 = key
      · simp [enter, he]
      · have hne : ¬ key = e.1 := fun h => he h.symm
        simp only [enter, he, if_false, List.map_cons, ih, List.mem_cons, hne, false_or]
        split_ifs
        · rfl
        · rfl

theorem nodup_keys_enter {key : String} {f : Slots → Slots} {m : ByKey}
    (h : (m.map Prod.fst).Nodup) : ((enter key f m).map Prod.fst).Nodup := by
  rw [keys_enter]
  split_ifs with hmem
  · exact h
  · rw [← List.concat_eq_append]
    exact h.concat hmem

/-- The slots under a key, empty ones where there is no entry. -/
def slots (m : ByKey) (k : String) : Slots := (m.lookup k).getD (none, none)

theorem lookup_enter (key k : String) (f : Slots → Slots) (m : ByKey) :
    (enter key f m).lookup k = if k = key then some (f (slots m k)) else m.lookup k := by
  unfold slots
  induction m with
  | nil =>
      simp [enter, BTreeMap.lookup_cons_ite]
  | cons e es ih =>
      by_cases he : e.1 = key
      · by_cases hk : k = key
        · simp [enter, BTreeMap.lookup_cons_ite, he, hk]
        · simp [enter, BTreeMap.lookup_cons_ite, he, hk]
      · by_cases hk : k = e.1
        · simp [enter, BTreeMap.lookup_cons_ite, he, hk]
        · simp [enter, BTreeMap.lookup_cons_ite, he, hk, ih]

/-- The last symbol with a key. -/
def lastWith (l : List Symbol) (k : String) : Option Symbol :=
  l.reverse.find? fun s => s.joinKey == k

theorem lastWith_concat (l : List Symbol) (s : Symbol) (k : String) :
    lastWith (l ++ [s]) k = if s.joinKey = k then some s else lastWith l k := by
  unfold lastWith
  rw [List.reverse_concat, List.find?_cons]
  by_cases h : s.joinKey = k
  · simp [h]
  · simp [beq_false_of_ne h, h]

theorem of_lastWith {l : List Symbol} {k : String} {s : Symbol} (h : lastWith l k = some s) :
    s ∈ l ∧ s.joinKey = k :=
  ⟨List.mem_reverse.mp (List.mem_of_find?_eq_some h), by simpa using List.find?_some h⟩

theorem lastWith_eq_none_iff {l : List Symbol} {k : String} :
    lastWith l k = none ↔ ∀ s ∈ l, s.joinKey ≠ k := by
  simp [lastWith, List.find?_eq_none]

/-- A loop that writes one side leaves the last symbol of every key on it. -/
theorem lookup_foldl_enter (put : Symbol → Slots → Slots)
    (hput : ∀ s t p, put s (put t p) = put s p) (l : List Symbol) (m : ByKey) (k : String) :
    (l.foldl (fun m s => enter s.joinKey (put s) m) m).lookup k =
      match lastWith l k with
      | none => m.lookup k
      | some s => some (put s (slots m k)) := by
  induction l using List.reverseRecOn with
  | nil =>
      rfl
  | append_singleton l s ih =>
      rw [List.foldl_concat, lookup_enter, lastWith_concat]
      by_cases hk : k = s.joinKey
      · rw [if_pos hk, if_pos hk.symm]
        unfold slots at ih ⊢
        rw [ih]
        cases lastWith l k with
        | none =>
            rfl
        | some t =>
            dsimp only
            rw [Option.getD_some, hput]
      · rw [if_neg hk, if_neg (Ne.symm hk), ih]

theorem nodup_keys_foldl (put : Symbol → Slots → Slots) {m : ByKey}
    (h : (m.map Prod.fst).Nodup) (l : List Symbol) :
    ((l.foldl (fun m s => enter s.joinKey (put s) m) m).map Prod.fst).Nodup := by
  induction l generalizing m with
  | nil =>
      exact h
  | cons s l ih =>
      exact ih (nodup_keys_enter h)

theorem nodup_keys_byKey (left right : List Symbol) : ((byKey left right).map Prod.fst).Nodup :=
  nodup_keys_foldl _ (nodup_keys_foldl _ (by simp) left) right

/-- **The hash map holds the last symbol of each side under every key.** -/
theorem lookup_byKey (left right : List Symbol) (k : String) :
    (byKey left right).lookup k =
      match lastWith left k, lastWith right k with
      | none, none => none
      | a, b => some (a, b) := by
  unfold byKey
  dsimp only
  rw [lookup_foldl_enter (fun s p => (p.1, some s)) (fun _ _ _ => rfl)]
  unfold slots
  rw [lookup_foldl_enter (fun s p => (some s, p.2)) (fun _ _ _ => rfl)]
  cases lastWith left k with
  | none =>
      cases lastWith right k with
      | none =>
          rfl
      | some t =>
          rfl
  | some s =>
      cases lastWith right k with
      | none =>
          rfl
      | some t =>
          rfl

/-- The key that a row was joined under. -/
def DiffRow.key (r : DiffRow) : String := r.modulePath ++ "::" ++ r.kind.tag ++ "::" ++ r.name

theorem key_of_shows {r : DiffRow} {s : Symbol} (h : Shows r s) : r.key = s.joinKey := by
  unfold DiffRow.key Symbol.joinKey
  rw [h.1, h.2.1, h.2.2]

/-- The row of a key. -/
def rowAt (left right : List Symbol) (k : String) : Option DiffRow :=
  rowOf (lastWith left k, lastWith right k)

theorem rowOf_eq_some {p : Slots} {s : Symbol} (h : p.1.or p.2 = some s) :
    ∃ r, rowOf p = some r ∧ Shows r s ∧ r.inLeft = p.1.isSome ∧ r.inRight = p.2.isSome ∧
      r.leftHash = p.1.map Symbol.signatureHash ∧ r.rightHash = p.2.map Symbol.signatureHash := by
  unfold rowOf
  rw [h]
  exact ⟨_, rfl, ⟨rfl, rfl, rfl⟩, rfl, rfl, rfl, rfl⟩

theorem exists_of_rowOf {p : Slots} {r : DiffRow} (h : rowOf p = some r) :
    ∃ s, p.1.or p.2 = some s := by
  unfold rowOf at h
  cases hor : p.1.or p.2 with
  | none =>
      rw [hor] at h
      cases h
  | some s =>
      exact ⟨s, rfl⟩

/-- What the row of a key says. -/
theorem rowAt_spec {left right : List Symbol} {k : String} {r : DiffRow}
    (h : rowAt left right k = some r) :
    (∃ s ∈ left ++ right, Shows r s ∧ s.joinKey = k) ∧ r.key = k ∧
      r.inLeft = (lastWith left k).isSome ∧ r.inRight = (lastWith right k).isSome ∧
      r.leftHash = (lastWith left k).map Symbol.signatureHash ∧
      r.rightHash = (lastWith right k).map Symbol.signatureHash := by
  obtain ⟨s, hs⟩ := exists_of_rowOf h
  obtain ⟨r', hr', hshows, hfields⟩ := rowOf_eq_some hs
  obtain rfl : r' = r := Option.some.inj (hr'.symm.trans h)
  have hmem : s ∈ left ++ right ∧ s.joinKey = k := by
    rcases Option.or_eq_some_iff.mp hs with hl | ⟨-, hr⟩
    · exact ⟨List.mem_append_left _ (of_lastWith hl).1, (of_lastWith hl).2⟩
    · exact ⟨List.mem_append_right _ (of_lastWith hr).1, (of_lastWith hr).2⟩
  exact ⟨⟨s, hmem.1, hshows, hmem.2⟩, (key_of_shows hshows).trans hmem.2, hfields⟩

theorem exists_rowAt {left right : List Symbol} {s : Symbol} (h : s ∈ left ++ right) :
    ∃ r, rowAt left right s.joinKey = some r := by
  cases hor : (lastWith left s.joinKey).or (lastWith right s.joinKey) with
  | some t =>
      obtain ⟨r, hr, -⟩ := rowOf_eq_some (p := (lastWith left s.joinKey, lastWith right s.joinKey)) hor
      exact ⟨r, hr⟩
  | none =>
      obtain ⟨hl, hr⟩ := Option.or_eq_none_iff.mp hor
      rw [lastWith_eq_none_iff] at hl hr
      rcases List.mem_append.mp h with hs | hs
      · exact absurd rfl (hl s hs)
      · exact absurd rfl (hr s hs)

/-- The rows of all entries, not sorted yet. -/
def rowsOf (m : ByKey) : List DiffRow := m.filterMap fun e => rowOf e.2

theorem rowsOf_cons {e : String × Slots} {m : ByKey} {r : DiffRow} (h : rowOf e.2 = some r) :
    rowsOf (e :: m) = r :: rowsOf m :=
  List.filterMap_cons_some (f := fun e : String × Slots => rowOf e.2) h

theorem rowsOf_perm {m m' : ByKey} (h : m.Perm m') : (rowsOf m).Perm (rowsOf m') :=
  h.filterMap _

theorem mem_byKey_iff {left right : List Symbol} {k : String} {p : Slots} :
    (k, p) ∈ byKey left right ↔
      p = (lastWith left k, lastWith right k) ∧ ∃ r, rowAt left right k = some r := by
  rw [← BTreeMap.lookup_eq_some_iff_mem (nodup_keys_byKey left right), lookup_byKey, rowAt]
  cases hl : lastWith left k with
  | none =>
      cases hr : lastWith right k with
      | none =>
          simp [rowOf]
      | some t =>
          simp [rowOf, eq_comm]
  | some s =>
      simp [rowOf, eq_comm]

/-- Every entry has a row, under its key. -/
theorem exists_row {left right : List Symbol} {e : String × Slots} (h : e ∈ byKey left right) :
    ∃ r, rowOf e.2 = some r ∧ r.key = e.1 := by
  obtain ⟨k, p⟩ := e
  obtain ⟨rfl, r, hr⟩ := mem_byKey_iff.mp h
  exact ⟨r, hr, (rowAt_spec hr).2.1⟩

theorem mem_rowsOf_iff {left right : List Symbol} {r : DiffRow} :
    r ∈ rowsOf (byKey left right) ↔ ∃ k, rowAt left right k = some r := by
  unfold rowsOf
  rw [List.mem_filterMap]
  constructor
  · rintro ⟨⟨k, p⟩, he, hr⟩
    obtain ⟨rfl, -⟩ := mem_byKey_iff.mp he
    exact ⟨k, hr⟩
  · rintro ⟨k, hr⟩
    exact ⟨(k, _), mem_byKey_iff.mpr ⟨rfl, r, hr⟩, hr⟩

theorem map_key_rowsOf {m : ByKey} (h : ∀ e ∈ m, ∃ r, rowOf e.2 = some r ∧ r.key = e.1) :
    (rowsOf m).map DiffRow.key = m.map Prod.fst := by
  induction m with
  | nil =>
      rfl
  | cons e m ih =>
      obtain ⟨he, hm⟩ := List.forall_mem_cons.mp h
      obtain ⟨r, hr, hkey⟩ := he
      rw [rowsOf_cons hr, List.map_cons, List.map_cons, hkey, ih hm]

theorem nodup_rowsOf (left right : List Symbol) : (rowsOf (byKey left right)).Nodup := by
  refine List.Nodup.of_map DiffRow.key ?_
  rw [map_key_rowsOf fun e he => exists_row he]
  exact nodup_keys_byKey left right

theorem mapM_rowOf {m : ByKey} (h : ∀ e ∈ m, ∃ r, rowOf e.2 = some r) :
    (m.mapM fun e => rowOf e.2) = some (rowsOf m) := by
  induction m with
  | nil =>
      rfl
  | cons e m ih =>
      obtain ⟨⟨r, hr⟩, hm⟩ := List.forall_mem_cons.mp h
      rw [List.mapM_cons, hr, ih hm, rowsOf_cons hr]
      rfl

/-- **`diff` never reaches the branch without a symbol**: it sorts the rows of all entries. -/
theorem diff_eq {order : ByKey → ByKey} (h : IsOrder order) (left right : List Symbol) :
    diff order left right = some ((rowsOf (order (byKey left right))).mergeSort rowLe) := by
  have hrows : ∀ e ∈ order (byKey left right), ∃ r, rowOf e.2 = some r := by
    intro e he
    obtain ⟨r, hr, -⟩ := exists_row ((h _).mem_iff.mp he)
    exact ⟨r, hr⟩
  unfold diff
  rw [mapM_rowOf hrows]
  rfl

theorem mem_diff_iff {order : ByKey → ByKey} (h : IsOrder order) {left right : List Symbol}
    {rows : List DiffRow} (hrows : diff order left right = some rows) {r : DiffRow} :
    r ∈ rows ↔ ∃ k, rowAt left right k = some r := by
  rw [diff_eq h, Option.some.injEq] at hrows
  rw [← hrows, List.mem_mergeSort, (rowsOf_perm (h _)).mem_iff]
  exact mem_rowsOf_iff

/-- What the rows are sorted by. -/
def sortKey (r : DiffRow) : Lex (String × String) := toLex (r.modulePath, r.name)

theorem rowLe_eq : rowLe = Lib.byKey sortKey := by
  funext a b
  unfold rowLe Lib.byKey sortKey
  rw [Bool.eq_iff_iff, Bool.or_eq_true, Bool.and_eq_true, decide_eq_true_eq, beq_iff_eq,
    decide_eq_true_eq, decide_eq_true_eq, Prod.Lex.toLex_le_toLex]

/-- Symbols of one key give one row. -/
theorem rowOf_congr {p q : Slots}
    (hleft : Option.Rel (fun s t => Alike s t ∧ s.signatureHash = t.signatureHash) p.1 q.1)
    (hright : Option.Rel (fun s t => Alike s t ∧ s.signatureHash = t.signatureHash) p.2 q.2) :
    rowOf p = rowOf q := by
  obtain ⟨p₁, p₂⟩ := p
  obtain ⟨q₁, q₂⟩ := q
  cases hleft with
  | none =>
      cases hright with
      | none =>
          rfl
      | some h =>
          obtain ⟨⟨hpath, hkind, hname⟩, hhash⟩ := h
          simp [rowOf, hpath, hkind, hname, hhash]
  | some h =>
      obtain ⟨⟨hpath, hkind, hname⟩, hhash⟩ := h
      cases hright with
      | none =>
          simp [rowOf, hpath, hkind, hname, hhash]
      | some h' =>
          simp [rowOf, hpath, hkind, hname, hhash, h'.2]

/-- The last symbols of a key in two orders of one list. -/
theorem lastWith_perm {l l' : List Symbol} (h : l'.Perm l) {R : Symbol → Symbol → Prop}
    (hR : ∀ s ∈ l, ∀ t ∈ l, s.joinKey = t.joinKey → R s t) (k : String) :
    Option.Rel R (lastWith l' k) (lastWith l k) := by
  cases hl : lastWith l k with
  | none =>
      have hl' : lastWith l' k = none := by
        rw [lastWith_eq_none_iff] at hl ⊢
        exact fun s hs => hl s (h.mem_iff.mp hs)
      rw [hl']
      exact .none
  | some t =>
      obtain ⟨ht, hkt⟩ := of_lastWith hl
      cases hl' : lastWith l' k with
      | none =>
          exact absurd hkt (lastWith_eq_none_iff.mp hl' t (h.mem_iff.mpr ht))
      | some s =>
          obtain ⟨hs, hks⟩ := of_lastWith hl'
          exact .some (hR s (h.mem_iff.mp hs) t ht (hks.trans hkt.symm))

theorem rowAt_perm {left right left' right' : List Symbol} (h : WellKeyed left right)
    (hleft : left'.Perm left) (hright : right'.Perm right) (k : String) :
    rowAt left' right' k = rowAt left right k := by
  refine rowOf_congr (lastWith_perm hleft ?_ k) (lastWith_perm hright ?_ k)
  · exact fun s hs t ht hk => ⟨h.alike s (List.mem_append_left _ hs) t
      (List.mem_append_left _ ht) hk, h.hashLeft s hs t ht hk⟩
  · exact fun s hs t ht hk => ⟨h.alike s (List.mem_append_right _ hs) t
      (List.mem_append_right _ ht) hk, h.hashRight s hs t ht hk⟩

/-- Rows of one module path and name are one row. -/
theorem row_unique {left right : List Symbol} (h : WellKeyed left right) {k k' : String}
    {a b : DiffRow} (ha : rowAt left right k = some a) (hb : rowAt left right k' = some b)
    (hpath : a.modulePath = b.modulePath) (hname : a.name = b.name) : a = b := by
  obtain ⟨⟨s, hs, hshowsA, -⟩, hkeyA, -⟩ := rowAt_spec ha
  obtain ⟨⟨t, ht, hshowsB, -⟩, hkeyB, -⟩ := rowAt_spec hb
  have hkind : s.kind = t.kind := h.oneKind s hs t ht
    (hshowsA.1.symm.trans (hpath.trans hshowsB.1))
    (hshowsA.2.2.symm.trans (hname.trans hshowsB.2.2))
  have hkey : k = k' := by
    rw [← hkeyA, ← hkeyB, DiffRow.key, DiffRow.key, hpath, hname, hshowsA.2.1, hshowsB.2.1, hkind]
  rw [hkey, hb, Option.some.injEq] at ha
  exact ha.symm

/-- The row of a symbol shows it. -/
theorem exists_rowAt_shows {left right : List Symbol} (h : WellKeyed left right) {s : Symbol}
    (hs : s ∈ left ++ right) : ∃ r, rowAt left right s.joinKey = some r ∧ Shows r s := by
  obtain ⟨r, hr⟩ := exists_rowAt hs
  obtain ⟨⟨t, ht, hshows, hk⟩, -⟩ := rowAt_spec hr
  obtain ⟨hpath, hkind, hname⟩ := h.alike t ht s hs hk
  exact ⟨r, hr, hshows.1.trans hpath, hshows.2.1.trans hkind, hshows.2.2.trans hname⟩

/-- Where the symbols of a key have one signature, the last of them has it. -/
theorem hash_lastWith {l : List Symbol} (h : ∀ s ∈ l, ∀ t ∈ l, s.joinKey = t.joinKey →
    s.signatureHash = t.signatureHash) {s : Symbol} (hs : s ∈ l) :
    (lastWith l s.joinKey).isSome = true ∧
      (lastWith l s.joinKey).map Symbol.signatureHash = some s.signatureHash := by
  cases hlast : lastWith l s.joinKey with
  | none =>
      exact absurd rfl (lastWith_eq_none_iff.mp hlast s hs)
  | some u =>
      obtain ⟨hu, hku⟩ := of_lastWith hlast
      refine ⟨rfl, ?_⟩
      rw [Option.map_some, h u hu s hs hku]

theorem losesNothing_of_wellKeyed {order : ByKey → ByKey} (horder : IsOrder order)
    {left right : List Symbol} (h : WellKeyed left right) {rows : List DiffRow}
    (hrows : diff order left right = some rows) : LosesNothing rows left right := by
  constructor
  · intro s hs
    obtain ⟨r, hr, hshows⟩ := exists_rowAt_shows h (List.mem_append_left right hs)
    obtain ⟨-, -, hin, -, hhash, -⟩ := rowAt_spec hr
    obtain ⟨hsome, hsame⟩ := hash_lastWith h.hashLeft hs
    exact ⟨r, (mem_diff_iff horder hrows).mpr ⟨_, hr⟩, hshows, hin.trans hsome,
      hhash.trans hsame⟩
  · intro s hs
    obtain ⟨r, hr, hshows⟩ := exists_rowAt_shows h (List.mem_append_right left hs)
    obtain ⟨-, -, -, hin, -, hhash⟩ := rowAt_spec hr
    obtain ⟨hsome, hsame⟩ := hash_lastWith h.hashRight hs
    exact ⟨r, (mem_diff_iff horder hrows).mpr ⟨_, hr⟩, hshows, hin.trans hsome,
      hhash.trans hsame⟩

theorem reproducible_of_wellKeyed {left right : List Symbol} (h : WellKeyed left right) :
    Reproducible left right := by
  intro order order' left' right' horder horder' hleft hright
  have hmem : ∀ r, r ∈ rowsOf (byKey left' right') ↔ r ∈ rowsOf (byKey left right) := by
    intro r
    simp only [mem_rowsOf_iff, rowAt_perm h hleft hright]
  have hrows : (rowsOf (order' (byKey left' right'))).Perm (rowsOf (order (byKey left right))) :=
    (rowsOf_perm (horder' _)).trans
      (((List.perm_ext_iff_of_nodup (nodup_rowsOf _ _) (nodup_rowsOf _ _)).mpr hmem).trans
        (rowsOf_perm (horder _)).symm)
  rw [diff_eq horder, diff_eq horder', Option.some.injEq, rowLe_eq]
  refine (mergeSort_eq_of_perm (byKey_trans sortKey) (byKey_total sortKey) hrows.symm ?_).symm
  -- Rows that the comparison does not tell apart are the same row.
  intro a ha b hb hab hba
  have hkey : sortKey a = sortKey b :=
    le_antisymm (of_decide_eq_true hab) (of_decide_eq_true hba)
  rw [sortKey, sortKey, toLex_inj, Prod.mk.injEq] at hkey
  have hrow : ∀ r, r ∈ (rowsOf (order (byKey left right))) → ∃ k, rowAt left right k = some r :=
    fun r hr => mem_rowsOf_iff.mp ((rowsOf_perm (horder _)).mem_iff.mp hr)
  obtain ⟨k, hk⟩ := hrow a ha
  obtain ⟨k', hk'⟩ := hrow b hb
  exact row_unique h hk hk' hkey.1 hkey.2

theorem isOrder_id : IsOrder id := fun m => List.Perm.refl m

theorem isOrder_reverse : IsOrder List.reverse := fun m => List.reverse_perm m

/-- A row that shows a symbol is the row of its key. -/
theorem rowAt_of_shows {left right rows} (hrows : diff id left right = some rows) {r : DiffRow}
    {s : Symbol} (hr : r ∈ rows) (hshows : Shows r s) : rowAt left right s.joinKey = some r := by
  obtain ⟨k, hk⟩ := (mem_diff_iff isOrder_id hrows).mp hr
  have hkey : s.joinKey = k := (key_of_shows hshows).symm.trans (rowAt_spec hk).2.1
  rwa [hkey]

theorem exists_shows {left right rows} (h : LosesNothing rows left right) {s : Symbol}
    (hs : s ∈ left ++ right) : ∃ r ∈ rows, Shows r s := by
  rcases List.mem_append.mp hs with hs | hs
  · obtain ⟨r, hr, hshows, -⟩ := h.1 s hs
    exact ⟨r, hr, hshows⟩
  · obtain ⟨r, hr, hshows, -⟩ := h.2 s hs
    exact ⟨r, hr, hshows⟩

/-- Rows that the comparison does not tell apart come out in the order of the hash map. -/
theorem order_of_ties {m : ByKey} {a b : DiffRow} (hab : [a, b].Sublist (rowsOf m))
    (htie : rowLe a b = true) : [a, b].Sublist ((rowsOf m).mergeSort rowLe) := by
  rw [rowLe_eq] at htie ⊢
  exact List.pair_sublist_mergeSort (byKey_trans sortKey) (byKey_total sortKey) htie hab

/-- Two rows of a list stand in one order or in the other. -/
theorem sublist_or {l : List DiffRow} {a b : DiffRow} (ha : a ∈ l) (hb : b ∈ l) (hne : a ≠ b) :
    [a, b].Sublist l ∨ [b, a].Sublist l := by
  obtain ⟨before, after, rfl⟩ := List.append_of_mem ha
  rcases List.mem_append.mp hb with hb | hb
  · exact .inr ((List.singleton_sublist.mpr hb).append
      (List.singleton_sublist.mpr List.mem_cons_self))
  · rcases List.mem_cons.mp hb with rfl | hb
    · exact absurd rfl hne
    · exact .inl (List.sublist_append_of_sublist_right
        (List.cons_sublist_cons.mpr (List.singleton_sublist.mpr hb)))

/-- Different rows that tie are handed out in two orders by two hash maps. -/
theorem not_reproducible_of_tie {left right : List Symbol} {a b : DiffRow}
    (ha : a ∈ rowsOf (byKey left right)) (hb : b ∈ rowsOf (byKey left right)) (hne : a ≠ b)
    (hab : rowLe a b = true) (hba : rowLe b a = true) : ¬ Reproducible left right := by
  intro h
  have hsame := h id List.reverse left right isOrder_id isOrder_reverse (.refl _) (.refl _)
  rw [diff_eq isOrder_id, diff_eq isOrder_reverse, Option.some.injEq] at hsame
  have hreverse : rowsOf (byKey left right).reverse = (rowsOf (byKey left right)).reverse :=
    List.filterMap_reverse
  have hnodup : ((rowsOf (byKey left right)).mergeSort rowLe).Nodup :=
    (List.mergeSort_perm _ _).nodup_iff.mpr (nodup_rowsOf left right)
  -- Whichever row comes first, it comes last in the reversed list.
  have hswap : ∀ {x y : DiffRow}, [x, y].Sublist (rowsOf (byKey left right)) →
      rowLe x y = true → rowLe y x = true → False := by
    intro x y hxy hle hle'
    have hyx : [y, x].Sublist (rowsOf (byKey left right).reverse) := by
      rw [hreverse]
      exact List.reverse_sublist.mpr hxy
    have hsorted := order_of_ties hyx hle'
    rw [id_eq] at hsame
    rw [hsame] at hsorted
    exact not_sublist_swap hnodup (order_of_ties hxy hle) hsorted
  rcases sublist_or ha hb hne with hxy | hyx
  · exact hswap hxy hab hba
  · exact hswap hyx hba hab

/-- A side on which every symbol has a row with its signature has one signature for a key. -/
theorem hash_eq_of_rows {left right side : List Symbol} {rows : List DiffRow}
    (hrows : diff id left right = some rows) (hash : DiffRow → Option String)
    (hside : ∀ s ∈ side, ∃ r ∈ rows, Shows r s ∧ hash r = some s.signatureHash) :
    ∀ s ∈ side, ∀ t ∈ side, s.joinKey = t.joinKey → s.signatureHash = t.signatureHash := by
  intro s hs t ht hk
  obtain ⟨r, hr, hshows, hhash⟩ := hside s hs
  obtain ⟨r', hr', hshows', hhash'⟩ := hside t ht
  have hat := rowAt_of_shows hrows hr hshows
  rw [hk, rowAt_of_shows hrows hr' hshows', Option.some.injEq] at hat
  rw [hat, hhash, Option.some.injEq] at hhash'
  exact hhash'

theorem wellKeyed_of_diffRight {left right : List Symbol} (h : DiffRight left right) :
    WellKeyed left right := by
  obtain ⟨hlossless, hreproducible⟩ := h
  obtain ⟨rows, hrows, hloses⟩ := hlossless id isOrder_id
  have hrow : ∀ s ∈ left ++ right, ∃ r, rowAt left right s.joinKey = some r ∧ Shows r s := by
    intro s hs
    obtain ⟨r, hr, hshows⟩ := exists_shows hloses hs
    exact ⟨r, rowAt_of_shows hrows hr hshows, hshows⟩
  refine ⟨?_, ?_, ?_, ?_⟩
  · intro s hs t ht hk
    obtain ⟨r, hr, hpath, hkind, hname⟩ := hrow s hs
    obtain ⟨r', hr', hpath', hkind', hname'⟩ := hrow t ht
    rw [← hk, hr, Option.some.injEq] at hr'
    subst hr'
    exact ⟨hpath.symm.trans hpath', hkind.symm.trans hkind', hname.symm.trans hname'⟩
  · refine hash_eq_of_rows hrows DiffRow.leftHash fun s hs => ?_
    obtain ⟨r, hr, hshows, -, hhash⟩ := hloses.1 s hs
    exact ⟨r, hr, hshows, hhash⟩
  · refine hash_eq_of_rows hrows DiffRow.rightHash fun s hs => ?_
    obtain ⟨r, hr, hshows, -, hhash⟩ := hloses.2 s hs
    exact ⟨r, hr, hshows, hhash⟩
  · intro s hs t ht hpath hname
    by_contra hkind
    obtain ⟨r, hr, hshows⟩ := hrow s hs
    obtain ⟨r', hr', hshows'⟩ := hrow t ht
    have hne : r ≠ r' := fun heq => hkind (hshows.2.1.symm.trans (heq ▸ hshows'.2.1))
    have htie : sortKey r = sortKey r' := by
      rw [sortKey, sortKey, hshows.1, hshows.2.2, hshows'.1, hshows'.2.2, hpath, hname]
    refine not_reproducible_of_tie (mem_rowsOf_iff.mpr ⟨_, hr⟩) (mem_rowsOf_iff.mpr ⟨_, hr'⟩) hne
      ?_ ?_ hreproducible
    · rw [rowLe_eq]
      exact decide_eq_true htie.le
    · rw [rowLe_eq]
      exact decide_eq_true htie.ge

/-- **When a diff loses nothing and can be reproduced**: exactly if symbols of one key are alike,
have one signature on each side, and no two kinds share a module path and a name. -/
theorem diffRight_iff (left right : List Symbol) : DiffRight left right ↔ WellKeyed left right := by
  constructor
  · exact wellKeyed_of_diffRight
  · intro h
    refine ⟨fun order horder => ?_, reproducible_of_wellKeyed h⟩
    exact ⟨_, diff_eq horder left right, losesNothing_of_wellKeyed horder h (diff_eq horder _ _)⟩

/-- `pub enum Error` in the module `error` of two crates, with different variants. -/
def twoCrates : List Symbol :=
  [⟨"orbit-core", "error", .enum, "Error", "0000000000000001"⟩,
   ⟨"orbit-geo", "error", .enum, "Error", "0000000000000002"⟩]

/-- `pub mod warp` next to `pub fn warp`. -/
def moduleAndFunction : List Symbol :=
  [⟨"eo-raster", "ops", .mod, "warp", "0000000000000003"⟩,
   ⟨"eo-raster", "ops", .fn, "warp", "0000000000000004"⟩]

/-- The first error type is lost, and the module and the function change places. -/
theorem symbol_lost_rows_swapped :
    ¬ DiffRight twoCrates [] ∧ ¬ DiffRight moduleAndFunction [] := by
  constructor
  · intro h
    have hhash := (wellKeyed_of_diffRight h).hashLeft _ List.mem_cons_self _
      (List.mem_cons_of_mem _ List.mem_cons_self) rfl
    exact absurd hhash (by decide)
  · intro h
    have hkind := (wellKeyed_of_diffRight h).oneKind _ List.mem_cons_self _
      (List.mem_cons_of_mem _ List.mem_cons_self) rfl rfl
    exact absurd hkind (by decide)

end ApiDiff
end OrbitOpenEO
