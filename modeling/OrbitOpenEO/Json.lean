import Mathlib.Data.Rat.Defs
import Mathlib.Data.List.Nodup
import Mathlib.Data.String.Basic

/-!
# JSON documents and ordered maps

The data model shared by every route: `serde_json::Value`, its numbers, and
the `BTreeMap<String, _>` in which process graphs and arguments are kept.

* `F64` lists the values a Rust `f64` can take, with the finite non-zero ones
  as exact rationals.  Arithmetic on them is never fixed here: the modules that
  compute take a `FloatOps` as a parameter.
* `Json` keeps the fields of an object in iteration order; reading a field is
  `List.lookup`, the first field of that name.
* `BTreeMap` carries the proof that its keys increase, so that a map with a
  repeated or misplaced key cannot be built.
-/

namespace OrbitOpenEO

/-- The values of an `f64`.  A zero carries its sign, the rest are exact. -/
inductive F64 where
  | finite (q : ℚ)
  | negZero
  | posInf
  | negInf
  | nan
deriving DecidableEq

namespace F64

/-- `f64::is_finite`. -/
def isFinite : F64 → Bool
  | .finite _ => true
  | .negZero => true
  | _ => false

/-- The comparison `x == 0.0`. -/
def isZero : F64 → Bool
  | .finite q => q == 0
  | .negZero => true
  | _ => false

/-- The comparison `x < y`, false as soon as a NaN takes part. -/
def lt : F64 → F64 → Bool
  | .nan, _ => false
  | _, .nan => false
  | .negInf, .negInf => false
  | .negInf, _ => true
  | _, .negInf => false
  | .posInf, _ => false
  | _, .posInf => true
  | .negZero, .negZero => false
  | .negZero, .finite q => decide (0 < q)
  | .finite p, .negZero => decide (p < 0)
  | .finite p, .finite q => decide (p < q)

/-- `f64::clamp`: a NaN passes through. -/
def clamp (x lo hi : F64) : F64 :=
  if lt x lo then lo else if lt hi x then hi else x

end F64

/-- The arithmetic of `f64`, left open: rounding is never looked at. -/
structure FloatOps where
  add : F64 → F64 → F64
  sub : F64 → F64 → F64
  mul : F64 → F64 → F64
  div : F64 → F64 → F64
  ofInt : Int → F64

/-- An arithmetic without rounding, which agrees with `f64` on small integers. -/
def FloatOps.exact : FloatOps where
  add
    | .finite p, .finite q => .finite (p + q)
    | _, _ => .nan
  sub
    | .finite p, .finite q => .finite (p - q)
    | _, _ => .nan
  mul
    | .finite p, .finite q => .finite (p * q)
    | _, _ => .nan
  div
    | .finite p, .finite q => if q = 0 then .nan else .finite (p / q)
    | _, _ => .nan
  ofInt n := .finite n

/-- `serde_json::Number`: unsigned, negative or floating. -/
inductive Number where
  | posInt (n : Nat)
  | negInt (n : Int)
  | float (x : F64)
deriving DecidableEq

/-- `Number::as_f64`. -/
def Number.asF64 (ops : FloatOps) : Number → F64
  | .posInt n => ops.ofInt n
  | .negInt n => ops.ofInt n
  | .float x => x

/-- `serde_json::Value`. -/
inductive Json where
  | null
  | bool (b : Bool)
  | num (n : Number)
  | str (s : String)
  | arr (xs : List Json)
  | obj (fs : List (String × Json))

/-- What is read under a key is one of the entries. -/
theorem mem_of_lookup_eq_some {α β : Type} [BEq α] [LawfulBEq α] {k : α} {v : β}
    {es : List (α × β)} (h : es.lookup k = some v) : (k, v) ∈ es := by
  obtain ⟨before, after, rfl, -⟩ := List.lookup_eq_some_iff.mp h
  simp

/-- `Map::contains_key`. -/
def containsKey {α : Type} (k : String) (fs : List (String × α)) : Bool :=
  (fs.lookup k).isSome

namespace Json

/-- `Value::as_f64`. -/
def asF64 (ops : FloatOps) : Json → Option F64
  | .num n => some (n.asF64 ops)
  | _ => none

/-- `Value::as_str`. -/
def asStr : Json → Option String
  | .str s => some s
  | _ => none

/-- `Value::from(f64)`: a number that is not finite becomes `null`. -/
def ofF64 (x : F64) : Json :=
  if x.isFinite then .num (.float x) else .null

end Json

/-- `BTreeMap<String, α>`: the entries in key order. -/
@[ext] structure BTreeMap (α : Type) where
  entries : List (String × α)
  sorted : entries.Pairwise (fun a b => a.1 < b.1)

namespace BTreeMap

variable {α : Type}

/-- The empty map. -/
def empty : BTreeMap α := ⟨[], List.Pairwise.nil⟩

/-- `BTreeMap::get`. -/
def get (m : BTreeMap α) (k : String) : Option α := m.entries.lookup k

/-- `BTreeMap::keys`. -/
def keys (m : BTreeMap α) : List String := m.entries.map Prod.fst

/-- `BTreeMap::values`. -/
def values (m : BTreeMap α) : List α := m.entries.map Prod.snd

theorem keys_nodup (m : BTreeMap α) : m.keys.Nodup := by
  have hlt : m.keys.Pairwise (· < ·) := List.pairwise_map.mpr m.sorted
  exact hlt.imp (fun h => ne_of_lt h)

/-- Reading a key is finding its entry. -/
theorem get_eq_some_iff (m : BTreeMap α) (k : String) (v : α) :
    m.get k = some v ↔ (k, v) ∈ m.entries := by
  constructor
  · intro h
    exact mem_of_lookup_eq_some h
  · intro h
    obtain ⟨l₁, l₂, hl⟩ := List.append_of_mem h
    have hnd := m.keys_nodup
    rw [keys, hl, List.map_append, List.map_cons, List.nodup_middle, List.nodup_cons] at hnd
    refine List.lookup_eq_some_iff.mpr ⟨l₁, l₂, hl, ?_⟩
    intro p hp
    have hp' : p.1 ∈ l₁.map Prod.fst := List.mem_map_of_mem hp
    have hne : k ≠ p.1 := by
      intro h
      exact hnd.1 (List.mem_append_left _ (h ▸ hp'))
    simpa using hne

theorem mem_keys_iff (m : BTreeMap α) (k : String) :
    k ∈ m.keys ↔ ∃ v, (k, v) ∈ m.entries := by
  simp [keys]

/-- Mapping the values of a map leaves its keys as they are. -/
def mapValues {β : Type} (f : α → β) (m : BTreeMap α) : BTreeMap β where
  entries := m.entries.map (fun e => (e.1, f e.2))
  sorted := List.pairwise_map.mpr m.sorted

@[simp] theorem get_mapValues {β : Type} (f : α → β) (m : BTreeMap α) (k : String) :
    (m.mapValues f).get k = (m.get k).map f := by
  have h : ∀ es : List (String × α),
      (es.map (fun e => (e.1, f e.2))).lookup k = (es.lookup k).map f := by
    intro es
    induction es with
    | nil =>
        rfl
    | cons e es ih =>
        obtain ⟨k', v⟩ := e
        simp only [List.map_cons, List.lookup_cons, ih]
        cases k == k' <;> rfl
  exact h m.entries

section TryMap

variable {ε β : Type} (f : α → Except ε β)

/-- The loop of `tryMap`: the keys stay as they are. -/
def tryMapEntries : (es : List (String × α)) →
    Except ε {l : List (String × β) // l.map Prod.fst = es.map Prod.fst}
  | [] => .ok ⟨[], rfl⟩
  | (k, v) :: es =>
      match f v with
      | .error e => .error e
      | .ok w =>
          match tryMapEntries es with
          | .error e => .error e
          | .ok l => .ok ⟨(k, w) :: l.1, by simp [l.2]⟩

/-- A map built by a loop over another map that stops at the first error. -/
def tryMap (m : BTreeMap α) : Except ε (BTreeMap β) :=
  match tryMapEntries f m.entries with
  | .error e => .error e
  | .ok l =>
      .ok
        { entries := l.1
          sorted := by
            have h : (l.1.map Prod.fst).Pairwise (· < ·) := by
              rw [l.2]
              exact List.pairwise_map.mpr m.sorted
            exact List.pairwise_map.mp h }

variable {f}

theorem tryMapEntries_eq_ok {g : α → β} :
    ∀ {es : List (String × α)}, (∀ e ∈ es, f e.2 = .ok (g e.2)) →
      ∃ l, tryMapEntries f es = .ok l ∧ l.1 = es.map (fun e => (e.1, g e.2))
  | [], _ => ⟨_, rfl, rfl⟩
  | (k, v) :: es, h => by
      rw [List.forall_mem_cons] at h
      obtain ⟨l, hl, hval⟩ := tryMapEntries_eq_ok h.2
      refine ⟨⟨(k, g v) :: l.1, by simp [l.2]⟩, ?_, by simp [hval]⟩
      simp only [tryMapEntries, h.1, hl]

/-- A loop that never fails is a map. -/
theorem tryMap_eq_ok {g : α → β} {m : BTreeMap α}
    (h : ∀ v ∈ m.values, f v = .ok (g v)) :
    m.tryMap f = .ok (m.mapValues g) := by
  have h' : ∀ e ∈ m.entries, f e.2 = .ok (g e.2) := by
    intro e he
    exact h e.2 (List.mem_map_of_mem he)
  obtain ⟨l, hl, hval⟩ := tryMapEntries_eq_ok h'
  simp only [tryMap, hl, Except.ok.injEq]
  exact BTreeMap.ext hval

end TryMap

end BTreeMap

end OrbitOpenEO
