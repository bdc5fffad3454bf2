import OrbitOpenEO.Json
import Mathlib.Data.List.Sort
import Mathlib.Tactic.Common

/-!
# Updates of ordered maps

`insert`, `remove` and the loops built from them on `BTreeMap<String, _>`.  The
entries are kept in key order throughout, and everything later modules use is
what `get` returns after each update.  A `BTreeSet<String>` is a map to `Unit`,
as it is in the standard library.
-/

namespace OrbitOpenEO
namespace BTreeMap

variable {α : Type}

theorem lookup_cons_ite (k : String) (e : String × α) (es : List (String × α)) :
    (e :: es).lookup k = if k = e.1 then some e.2 else es.lookup k := by
  obtain ⟨k', v⟩ := e
  rw [List.lookup_cons]
  by_cases h : k = k'
  · simp [h]
  · have h' : (k == k') = false := by simpa using h
    simp [h, h']

/-- The loop of `insert`: the entry goes to its place, over an entry of the same key. -/
def insertEntry (k : String) (v : α) : List (String × α) → List (String × α)
  | [] => [(k, v)]
  | e :: es =>
      if k < e.1 then (k, v) :: e :: es
      else if k = e.1 then (k, v) :: es
      else e :: insertEntry k v es

theorem fst_mem_insertEntry {k : String} {v : α} {p : String × α} :
    ∀ {es : List (String × α)}, p ∈ insertEntry k v es → p = (k, v) ∨ p ∈ es
  | [], h => by
      left
      simpa [insertEntry] using h
  | e :: es, h => by
      unfold insertEntry at h
      split at h
      · simpa using h
      · split at h
        · rcases List.mem_cons.mp h with h | h
          · exact Or.inl h
          · exact Or.inr (List.mem_cons_of_mem _ h)
        · rcases List.mem_cons.mp h with h | h
          · exact Or.inr (h ▸ List.mem_cons_self)
          · rcases fst_mem_insertEntry h with h | h
            · exact Or.inl h
            · exact Or.inr (List.mem_cons_of_mem _ h)

theorem sorted_insertEntry {k : String} {v : α} :
    ∀ {es : List (String × α)}, es.Pairwise (fun a b => a.1 < b.1) →
      (insertEntry k v es).Pairwise (fun a b => a.1 < b.1)
  | [], _ => by
      simp [insertEntry]
  | e :: es, h => by
      obtain ⟨he, hes⟩ := List.pairwise_cons.mp h
      unfold insertEntry
      split
      · rename_i hk
        refine List.pairwise_cons.mpr ⟨?_, h⟩
        intro p hp
        rcases List.mem_cons.mp hp with rfl | hp
        · exact hk
        · exact lt_trans hk (he p hp)
      · split
        · rename_i hk
          refine List.pairwise_cons.mpr ⟨?_, hes⟩
          intro p hp
          exact hk ▸ he p hp
        · rename_i hlt hne
          refine List.pairwise_cons.mpr ⟨?_, sorted_insertEntry hes⟩
          intro p hp
          rcases fst_mem_insertEntry hp with rfl | hp
          · exact lt_of_le_of_ne (not_lt.mp hlt) (Ne.symm hne)
          · exact he p hp

theorem lookup_insertEntry (k k' : String) (v : α) :
    ∀ {es : List (String × α)}, es.Pairwise (fun a b => a.1 < b.1) →
      (insertEntry k v es).lookup k' = if k' = k then some v else es.lookup k'
  | [], _ => by
      simp [insertEntry, lookup_cons_ite]
  | e :: es, h => by
      obtain ⟨_, hes⟩ := List.pairwise_cons.mp h
      unfold insertEntry
      split
      · rw [lookup_cons_ite]
      · split
        · rename_i hk
          rw [lookup_cons_ite, lookup_cons_ite k' e]
          by_cases h' : k' = k
          · simp [h']
          · simp [h', ← hk]
        · rename_i hne
          rw [lookup_cons_ite, lookup_insertEntry k k' v hes, lookup_cons_ite k' e]
          by_cases h' : k' = k
          · simp [h', hne]
          · simp [h']

/-- `BTreeMap::insert`. -/
def insert (m : BTreeMap α) (k : String) (v : α) : BTreeMap α where
  entries := insertEntry k v m.entries
  sorted := sorted_insertEntry m.sorted

/-- `BTreeMap::remove`, without the removed value. -/
def remove (m : BTreeMap α) (k : String) : BTreeMap α where
  entries := m.entries.filter (fun e => e.1 ≠ k)
  sorted := m.sorted.filter _

/-- `BTreeMap::contains_key`. -/
def containsKey (m : BTreeMap α) (k : String) : Bool := (m.get k).isSome

/-- A map filled by a loop of insertions: the last entry of a key counts. -/
def insertAll (m : BTreeMap α) (es : List (String × α)) : BTreeMap α :=
  es.foldl (fun acc e => acc.insert e.1 e.2) m

/-- `iter().collect()` into a fresh map. -/
def ofEntries (es : List (String × α)) : BTreeMap α := empty.insertAll es

@[simp] theorem get_empty (k : String) : (empty : BTreeMap α).get k = none := rfl

theorem get_insert (m : BTreeMap α) (k k' : String) (v : α) :
    (m.insert k v).get k' = if k' = k then some v else m.get k' :=
  lookup_insertEntry k k' v m.sorted

@[simp] theorem get_insert_self (m : BTreeMap α) (k : String) (v : α) :
    (m.insert k v).get k = some v := by
  simp [get_insert]

theorem get_remove (m : BTreeMap α) (k k' : String) :
    (m.remove k).get k' = if k' = k then none else m.get k' := by
  have h : ∀ es : List (String × α),
      (es.filter (fun e => e.1 ≠ k)).lookup k' = if k' = k then none else es.lookup k' := by
    intro es
    induction es with
    | nil =>
        simp
    | cons e es ih =>
        rw [List.filter_cons, lookup_cons_ite]
        by_cases he : e.1 = k
        · rw [if_neg (by simpa using he), ih]
          by_cases hk : k' = k
          · simp [hk]
          · simp [hk, he]
        · rw [if_pos (by simpa using he), lookup_cons_ite, ih]
          by_cases hk : k' = k
          · simp [hk, Ne.symm he]
          · simp [hk]
  exact h m.entries

theorem mem_keys_iff_get (m : BTreeMap α) (k : String) :
    k ∈ m.keys ↔ ∃ v, m.get k = some v := by
  simp only [mem_keys_iff, get_eq_some_iff]

theorem containsKey_iff (m : BTreeMap α) (k : String) :
    m.containsKey k = true ↔ ∃ v, m.get k = some v := by
  simp [containsKey, Option.isSome_iff_exists]

/-- The last entry with key `k`. -/
def lastEntry (es : List (String × α)) (k : String) : Option α := es.reverse.lookup k

theorem mem_of_lastEntry {k : String} {v : α} {es : List (String × α)}
    (h : lastEntry es k = some v) : (k, v) ∈ es := by
  rw [← List.mem_reverse]
  exact mem_of_lookup_eq_some h

theorem lookup_eq_some_iff_mem {k : String} {v : α} {es : List (String × α)}
    (hnd : (es.map Prod.fst).Nodup) : es.lookup k = some v ↔ (k, v) ∈ es := by
  induction es with
  | nil =>
      simp
  | cons e es ih =>
      rw [List.map_cons, List.nodup_cons] at hnd
      rw [lookup_cons_ite, List.mem_cons]
      by_cases hk : k = e.1
      · subst hk
        have hno : (e.1, v) ∉ es := fun h => hnd.1 (List.mem_map.mpr ⟨_, h, rfl⟩)
        rw [if_pos rfl, Option.some.injEq, Prod.ext_iff]
        simp [hno, eq_comm]
      · rw [if_neg hk, ih hnd.2, Prod.ext_iff]
        simp [hk]

/-- In a map every key has one entry, so first and last are the same. -/
theorem lastEntry_entries (m : BTreeMap α) (k : String) : lastEntry m.entries k = m.get k := by
  have hnd : (m.entries.reverse.map Prod.fst).Nodup := by
    rw [List.map_reverse, List.nodup_reverse]
    exact m.keys_nodup
  ext v
  rw [lastEntry, lookup_eq_some_iff_mem hnd, List.mem_reverse, get_eq_some_iff]

theorem get_insertAll (k : String) :
    ∀ (es : List (String × α)) (m : BTreeMap α),
      (m.insertAll es).get k = (lastEntry es k).or (m.get k)
  | [], m => by
      simp [insertAll, lastEntry]
  | e :: es, m => by
      have h := get_insertAll k es (m.insert e.1 e.2)
      rw [insertAll, List.foldl_cons, ← insertAll, h, get_insert]
      simp only [lastEntry, List.reverse_cons, List.lookup_append]
      by_cases hk : k = e.1
      · simp [hk, lookup_cons_ite]
      · simp [hk, lookup_cons_ite]

theorem get_ofEntries (es : List (String × α)) (k : String) :
    (ofEntries es).get k = lastEntry es k := by
  simp [ofEntries, get_insertAll]

/-- A list of entries with different keys gives the map of these entries. -/
theorem get_ofEntries_eq_some_iff {es : List (String × α)} (hnd : (es.map Prod.fst).Nodup)
    {k : String} {v : α} : (ofEntries es).get k = some v ↔ (k, v) ∈ es := by
  have hnd' : (es.reverse.map Prod.fst).Nodup := by
    rw [List.map_reverse, List.nodup_reverse]
    exact hnd
  rw [get_ofEntries, lastEntry, lookup_eq_some_iff_mem hnd', List.mem_reverse]

theorem lookup_isSome_iff {k : String} {es : List (String × α)} :
    (∃ v, es.lookup k = some v) ↔ k ∈ es.map Prod.fst := by
  induction es with
  | nil =>
      simp
  | cons e es ih =>
      rw [lookup_cons_ite, List.map_cons, List.mem_cons, ← ih]
      by_cases hk : k = e.1
      · simp [hk]
      · simp [hk]

/-- A map is determined by what `get` returns. -/
theorem ext_get {m₁ m₂ : BTreeMap α} (h : ∀ k, m₁.get k = m₂.get k) : m₁ = m₂ := by
  have hirrefl : Std.Irrefl (fun a b : String × α => a.1 < b.1) := ⟨fun a => lt_irrefl a.1⟩
  have hantisymm : Std.Antisymm (fun a b : String × α => a.1 < b.1) :=
    ⟨fun a b hab hba => absurd hab (lt_asymm hba)⟩
  have hentries : m₁.entries = m₂.entries := by
    refine m₁.sorted.eq_of_mem_iff m₂.sorted ?_
    rintro ⟨k, v⟩
    rw [← get_eq_some_iff, ← get_eq_some_iff, h]
  cases m₁
  cases m₂
  cases hentries
  rfl

theorem mem_keys_insert (m : BTreeMap α) (k : String) (v : α) (k' : String) :
    k' ∈ (m.insert k v).keys ↔ k' = k ∨ k' ∈ m.keys := by
  simp only [mem_keys_iff_get, get_insert]
  by_cases hk : k' = k
  · simp [hk]
  · simp [hk]

theorem mem_keys_insertAll (m : BTreeMap α) (es : List (String × α)) (k : String) :
    k ∈ (m.insertAll es).keys ↔ k ∈ es.map Prod.fst ∨ k ∈ m.keys := by
  have hlast : (∃ v, lastEntry es k = some v) ↔ k ∈ es.map Prod.fst := by
    rw [lastEntry, lookup_isSome_iff, List.map_reverse, List.mem_reverse]
  simp only [mem_keys_iff_get, get_insertAll]
  rw [← hlast]
  cases lastEntry es k <;> simp

theorem mem_keys_ofEntries (es : List (String × α)) (k : String) :
    k ∈ (ofEntries es).keys ↔ k ∈ es.map Prod.fst := by
  rw [ofEntries, mem_keys_insertAll]
  simp [mem_keys_iff_get]

end BTreeMap

/-- `BTreeSet<String>`. -/
abbrev BTreeSet := BTreeMap Unit

namespace BTreeSet

theorem mem_insert {s : BTreeSet} {x y : String} :
    y ∈ (BTreeMap.insert s x ()).keys ↔ y = x ∨ y ∈ s.keys := by
  simp only [BTreeMap.mem_keys_iff_get, BTreeMap.get_insert]
  by_cases h : y = x <;> simp [h]

end BTreeSet

end OrbitOpenEO
