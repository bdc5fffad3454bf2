import OrbitOpenEO.Lib.Boxes
import OrbitOpenEO.SpatialOps
import Mathlib.Data.Rat.Cast.Order

/-!
# The envelope of GeoJSON

`filter_spatial` crops a cube to the box that `geojson_bbox` finds around its geometries.  The
box is meant to be that of the positions under the `coordinates` members.  The walk, however,
takes every array that begins with two numbers for a position, wherever it stands, and a box
without area is dropped.
-/

namespace OrbitOpenEO

open Lib

namespace GeoJson

/-- The pair of numbers that a position begins with. -/
abbrev Pair := Number × Number

/-- The value is a number. -/
def isNumber : Json → Bool
  | .num _ => true
  | _ => false

/-- The pairs of all items, each of which must have some. -/
def gather (f : Json → Option (List Pair)) : List Json → Option (List Pair)
  | [] => some []
  | v :: items => do
      let ps ← f v
      let qs ← gather f items
      some (ps ++ qs)

/-- The positions of an array of arrays, which is as deep as the type of geometry says. -/
def positionsAt : Nat → Json → Option (List Pair)
  | 0, .arr (.num x :: .num y :: rest) => if rest.all isNumber then some [(x, y)] else none
  | depth + 1, .arr items => gather (positionsAt depth) items
  | _, _ => none

/-- How deep the coordinates of a type of geometry are. -/
def depthOf : String → Option Nat
  | "Point" => some 0
  | "MultiPoint" => some 1
  | "LineString" => some 1
  | "MultiLineString" => some 2
  | "Polygon" => some 2
  | "MultiPolygon" => some 3
  | _ => none

mutual

/-- A geometry with the positions under its `coordinates` members.  It may have any other
members. -/
inductive Geometry : Json → List Pair → Prop
  | simple {fs : List (String × Json)} {type : String} {depth : Nat} {coords : Json}
      {ps : List Pair} : fs.lookup "type" = some (.str type) → depthOf type = some depth →
      fs.lookup "coordinates" = some coords → positionsAt depth coords = some ps →
      Geometry (.obj fs) ps
  | collection {fs : List (String × Json)} {items : List Json} {ps : List Pair} :
      fs.lookup "type" = some (.str "GeometryCollection") →
      fs.lookup "geometries" = some (.arr items) → Geometries items ps → Geometry (.obj fs) ps

/-- The members of a collection. -/
inductive Geometries : List Json → List Pair → Prop
  | nil : Geometries [] []
  | cons {item : Json} {items : List Json} {ps qs : List Pair} :
      Geometry item ps → Geometries items qs → Geometries (item :: items) (ps ++ qs)

end

/-- A feature, which may have no geometry. -/
inductive Feature : Json → List Pair → Prop
  | located {fs : List (String × Json)} {g : Json} {ps : List Pair} :
      fs.lookup "type" = some (.str "Feature") → fs.lookup "geometry" = some g →
      Geometry g ps → Feature (.obj fs) ps
  | unlocated {fs : List (String × Json)} : fs.lookup "type" = some (.str "Feature") →
      fs.lookup "geometry" = some .null → Feature (.obj fs) []

/-- The members of a feature collection. -/
inductive Features : List Json → List Pair → Prop
  | nil : Features [] []
  | cons {item : Json} {items : List Json} {ps qs : List Pair} :
      Feature item ps → Features items qs → Features (item :: items) (ps ++ qs)

/-- A text of GeoJSON. -/
inductive Text : Json → List Pair → Prop
  | geometry {v : Json} {ps : List Pair} : Geometry v ps → Text v ps
  | feature {v : Json} {ps : List Pair} : Feature v ps → Text v ps
  | collection {fs : List (String × Json)} {items : List Json} {ps : List Pair} :
      fs.lookup "type" = some (.str "FeatureCollection") →
      fs.lookup "features" = some (.arr items) → Features items ps → Text (.obj fs) ps

/-- An array that begins with the two numbers stands in the value. -/
inductive PairIn : Json → Pair → Prop
  | head (x y : Number) (rest : List Json) : PairIn (.arr (.num x :: .num y :: rest)) (x, y)
  | item {items : List Json} {v : Json} {p : Pair} :
      (∀ x y rest, items ≠ .num x :: .num y :: rest) → v ∈ items → PairIn v p →
      PairIn (.arr items) p
  | member {fields : List (String × Json)} {k : String} {v : Json} {p : Pair} :
      (k, v) ∈ fields → PairIn v p → PairIn (.obj fields) p

/-- The pair as floats. -/
def floats (ops : FloatOps) (p : Pair) : F64 × F64 := (p.1.asF64 ops, p.2.asF64 ops)

section Walk

variable (P : Platform)

theorem coordPairs_arr {items : List Json} (h : ∀ x y rest, items ≠ .num x :: .num y :: rest) :
    coordPairs P (.arr items) = coordPairsOfItems P items := by
  unfold coordPairs
  split
  case h_1 x y rest heq =>
    cases heq
    exact absurd rfl (h x y rest)
  case h_2 items' _ heq =>
    cases heq
    rfl
  case h_3 heq =>
    cases heq
  case h_4 hnone _ =>
    exact absurd rfl (hnone items)

theorem mem_coordPairsOfItems {items : List Json} {q : F64 × F64} :
    q ∈ coordPairsOfItems P items ↔ ∃ v ∈ items, q ∈ coordPairs P v := by
  induction items with
  | nil =>
      simp [coordPairsOfItems]
  | cons v items ih =>
      simp [coordPairsOfItems, ih]

theorem mem_coordPairsOfFields {fields : List (String × Json)} {q : F64 × F64} :
    q ∈ coordPairsOfFields P fields ↔ ∃ e ∈ fields, q ∈ coordPairs P e.2 := by
  induction fields with
  | nil =>
      simp [coordPairsOfFields]
  | cons e fields ih =>
      simp [coordPairsOfFields, ih]

theorem mem_coordPairs_of_pairIn {v : Json} {p : Pair} (h : PairIn v p) :
    floats P.f64.toFloatOps p ∈ coordPairs P v := by
  induction h with
  | head x y rest =>
      unfold coordPairs
      exact List.mem_singleton_self _
  | item hitems hmem _ ih =>
      rw [coordPairs_arr P hitems]
      exact (mem_coordPairsOfItems P).mpr ⟨_, hmem, ih⟩
  | member hmem _ ih =>
      unfold coordPairs
      exact (mem_coordPairsOfFields P).mpr ⟨_, hmem, ih⟩

/-- What the walk finds are such pairs. -/
theorem exists_pairIn_of_mem {q : F64 × F64} :
    ∀ {v : Json}, q ∈ coordPairs P v → ∃ p, PairIn v p ∧ floats P.f64.toFloatOps p = q
  | .null, h => by simp [coordPairs] at h
  | .bool _, h => by simp [coordPairs] at h
  | .num _, h => by simp [coordPairs] at h
  | .str _, h => by simp [coordPairs] at h
  | .arr items, h => by
      by_cases hitems : ∀ x y rest, items ≠ .num x :: .num y :: rest
      case pos =>
        rw [coordPairs_arr P hitems] at h
        obtain ⟨v, hv, hq⟩ := (mem_coordPairsOfItems P).mp h
        have := List.sizeOf_lt_of_mem hv
        obtain ⟨p, hp, heq⟩ := exists_pairIn_of_mem hq
        exact ⟨p, .item hitems hv hp, heq⟩
      case neg =>
        push Not at hitems
        obtain ⟨x, y, rest, rfl⟩ := hitems
        unfold coordPairs at h
        exact ⟨(x, y), .head x y rest, (List.mem_singleton.mp h).symm⟩
  | .obj fields, h => by
      unfold coordPairs at h
      obtain ⟨e, he, hq⟩ := (mem_coordPairsOfFields P).mp h
      have := List.sizeOf_lt_of_mem he
      have : sizeOf e.2 < sizeOf e := by
        cases e
        simp only [Prod.mk.sizeOf_spec]
        omega
      obtain ⟨p, hp, heq⟩ := exists_pairIn_of_mem hq
      exact ⟨p, .member he hp, heq⟩
termination_by v => sizeOf v

end Walk

/-- The number stands in the value. -/
inductive NumberIn : Json → Number → Prop
  | num (n : Number) : NumberIn (.num n) n
  | item {items : List Json} {v : Json} {n : Number} :
      v ∈ items → NumberIn v n → NumberIn (.arr items) n
  | member {fields : List (String × Json)} {k : String} {v : Json} {n : Number} :
      (k, v) ∈ fields → NumberIn v n → NumberIn (.obj fields) n

theorem PairIn.numberIn {v : Json} {p : Pair} (h : PairIn v p) :
    NumberIn v p.1 ∧ NumberIn v p.2 := by
  induction h with
  | head x y rest =>
      exact ⟨.item (by simp) (.num x), .item (by simp) (.num y)⟩
  | item _ hmem _ ih =>
      exact ⟨.item hmem ih.1, .item hmem ih.2⟩
  | member hmem _ ih =>
      exact ⟨.member hmem ih.1, .member hmem ih.2⟩

theorem positionsAt_num (depth : Nat) (n : Number) : positionsAt depth (.num n) = none := by
  cases depth <;> rfl

theorem gather_eq_some {f : Json → Option (List Pair)} {items : List Json} {ps : List Pair}
    (h : gather f items = some ps) :
    (∀ v ∈ items, f v ≠ none) ∧ ∀ p ∈ ps, ∃ v ∈ items, ∃ qs, f v = some qs ∧ p ∈ qs := by
  induction items generalizing ps with
  | nil =>
      cases h
      exact ⟨fun _ hv => absurd hv List.not_mem_nil, fun _ hp => absurd hp List.not_mem_nil⟩
  | cons v items ih =>
      obtain ⟨qs, hqs, h⟩ := Option.bind_eq_some_iff.mp h
      obtain ⟨rs, hrs, h⟩ := Option.bind_eq_some_iff.mp h
      cases h
      obtain ⟨hall, hmem⟩ := ih hrs
      refine ⟨List.forall_mem_cons.mpr ⟨by simp [hqs], hall⟩, fun p hp => ?_⟩
      rcases List.mem_append.mp hp with hp | hp
      · exact ⟨v, List.mem_cons_self, qs, hqs, hp⟩
      · obtain ⟨u, hu, hfound⟩ := hmem p hp
        exact ⟨u, List.mem_cons_of_mem v hu, hfound⟩

theorem pairIn_of_positionsAt {depth : Nat} {v : Json} {ps : List Pair}
    (h : positionsAt depth v = some ps) {p : Pair} (hp : p ∈ ps) : PairIn v p := by
  induction depth generalizing v ps with
  | zero =>
      unfold positionsAt at h
      split at h
      case h_1 x y rest _ =>
        split_ifs at h
        cases h
        cases List.mem_singleton.mp hp
        exact .head _ _ _
      case h_2 heq =>
        cases heq
      case h_3 =>
        cases h
  | succ depth ih =>
      unfold positionsAt at h
      split at h
      case h_1 heq =>
        cases heq
      case h_2 items heq =>
        cases heq
        obtain ⟨hall, hmem⟩ := gather_eq_some h
        obtain ⟨u, hu, qs, hqs, hp⟩ := hmem p hp
        refine .item ?_ hu (ih hqs hp)
        rintro x y rest rfl
        exact hall _ List.mem_cons_self (positionsAt_num depth x)
      case h_3 =>
        cases h

/-- An array whose items are no numbers is no pair. -/
theorem PairIn.item_of_notMem {items : List Json} {v : Json} {p : Pair}
    (hitems : ∀ n : Number, Json.num n ∉ items) (hv : v ∈ items) (h : PairIn v p) :
    PairIn (.arr items) p :=
  .item (fun x _ _ heq => hitems x (heq ▸ List.mem_cons_self)) hv h

theorem notMem_of_geometries (n : Number) : ∀ {items : List Json} {ps : List Pair},
    Geometries items ps → Json.num n ∉ items
  | _, _, .nil, hn => absurd hn List.not_mem_nil
  | _, _, .cons hitem hitems, hn => by
      rcases List.mem_cons.mp hn with rfl | hn
      · cases hitem
      · exact notMem_of_geometries n hitems hn

mutual

theorem pairIn_of_geometry {p : Pair} : ∀ {v : Json} {ps : List Pair}, Geometry v ps → p ∈ ps →
    PairIn v p
  | _, _, .simple _ _ hcoords hps, hp =>
      .member (mem_of_lookup_eq_some hcoords) (pairIn_of_positionsAt hps hp)
  | _, _, .collection _ hitems hgeometries, hp => by
      obtain ⟨v, hv, hpair⟩ := pairIn_of_geometries hgeometries hp
      exact .member (mem_of_lookup_eq_some hitems)
        (.item_of_notMem (fun n => notMem_of_geometries n hgeometries) hv hpair)

theorem pairIn_of_geometries {p : Pair} : ∀ {items : List Json} {ps : List Pair},
    Geometries items ps → p ∈ ps → ∃ v ∈ items, PairIn v p
  | _, _, .nil, hp => absurd hp List.not_mem_nil
  | _, _, .cons hitem hitems, hp => by
      rcases List.mem_append.mp hp with hp | hp
      · exact ⟨_, List.mem_cons_self, pairIn_of_geometry hitem hp⟩
      · obtain ⟨v, hv, hpair⟩ := pairIn_of_geometries hitems hp
        exact ⟨v, List.mem_cons_of_mem _ hv, hpair⟩

end

theorem pairIn_of_feature {v : Json} {ps : List Pair} (h : Feature v ps) {p : Pair}
    (hp : p ∈ ps) : PairIn v p := by
  cases h with
  | located _ hgeometry hg =>
      exact .member (mem_of_lookup_eq_some hgeometry) (pairIn_of_geometry hg hp)
  | unlocated =>
      exact absurd hp List.not_mem_nil

theorem pairIn_of_features {items : List Json} {ps : List Pair} (h : Features items ps) {p : Pair}
    (hp : p ∈ ps) : ∃ v ∈ items, PairIn v p := by
  induction h with
  | nil =>
      exact absurd hp List.not_mem_nil
  | cons hitem _ ih =>
      rcases List.mem_append.mp hp with hp | hp
      · exact ⟨_, List.mem_cons_self, pairIn_of_feature hitem hp⟩
      · obtain ⟨v, hv, hpair⟩ := ih hp
        exact ⟨v, List.mem_cons_of_mem _ hv, hpair⟩

theorem notMem_of_features {items : List Json} {ps : List Pair} (h : Features items ps)
    (n : Number) : Json.num n ∉ items := by
  induction h with
  | nil =>
      exact List.not_mem_nil
  | cons hitem _ ih =>
      intro hn
      rcases List.mem_cons.mp hn with rfl | hn
      · cases hitem
      · exact ih hn

/-- The walk finds every position. -/
theorem pairIn_of_text {v : Json} {ps : List Pair} (h : Text v ps) {p : Pair} (hp : p ∈ ps) :
    PairIn v p := by
  cases h with
  | geometry h =>
      exact pairIn_of_geometry h hp
  | feature h =>
      exact pairIn_of_feature h hp
  | collection _ hitems hfeatures =>
      obtain ⟨v, hv, hpair⟩ := pairIn_of_features hfeatures hp
      exact .member (mem_of_lookup_eq_some hitems)
        (.item_of_notMem (notMem_of_features hfeatures) hv hpair)

theorem lt_iff_of_finite {x y : F64} {a b : ℚ} (hx : x.finite? = some a)
    (hy : y.finite? = some b) : F64.lt x y = true ↔ a < b := by
  cases x <;> cases y <;> cases hx <;> cases hy <;> simp [F64.lt]

theorem ne_nan_of_finite {x : F64} {a : ℚ} (hx : x.finite? = some a) : x ≠ .nan := by
  rintro rfl
  cases hx

theorem finite?_min {x y : F64} {a b : ℚ} (hx : x.finite? = some a) (hy : y.finite? = some b) :
    (F64.min x y).finite? = some (min a b) := by
  have hlt := lt_iff_of_finite hy hx
  rw [F64.min, if_neg (ne_nan_of_finite hx), if_neg (ne_nan_of_finite hy)]
  split
  case isTrue h =>
    rw [hy, min_eq_right (hlt.mp h).le]
  case isFalse h =>
    rw [hx, min_eq_left (not_lt.mp fun hba => h (hlt.mpr hba))]

theorem finite?_max {x y : F64} {a b : ℚ} (hx : x.finite? = some a) (hy : y.finite? = some b) :
    (F64.max x y).finite? = some (max a b) := by
  have hlt := lt_iff_of_finite hx hy
  rw [F64.max, if_neg (ne_nan_of_finite hx), if_neg (ne_nan_of_finite hy)]
  split
  case isTrue h =>
    rw [hy, max_eq_right (hlt.mp h).le]
  case isFalse h =>
    rw [hx, max_eq_left (not_lt.mp fun hab => h (hlt.mpr hab))]

theorem min_posInf_of_finite {x : F64} {a : ℚ} (hx : x.finite? = some a) :
    F64.min .posInf x = x := by
  cases x <;> first | rfl | cases hx

theorem max_negInf_of_finite {x : F64} {a : ℚ} (hx : x.finite? = some a) :
    F64.max .negInf x = x := by
  cases x <;> first | rfl | cases hx

/-- Numbers with their values. -/
def Values (xs : List F64) (as : List ℚ) : Prop := List.Forall₂ (fun x a => x.finite? = some a) xs as

theorem finite?_foldl {op : F64 → F64 → F64} {g : ℚ → ℚ → ℚ}
    (hop : ∀ {x y a b}, x.finite? = some a → y.finite? = some b → (op x y).finite? = some (g a b))
    {xs : List F64} {as : List ℚ} (h : Values xs as) {x : F64} {a : ℚ} (hx : x.finite? = some a) :
    (xs.foldl op x).finite? = some (as.foldl g a) := by
  induction h generalizing x a with
  | nil =>
      exact hx
  | cons hy _ ih =>
      exact ih (hop hx hy)

/-- The number as a fraction. -/
def value (x : F64) : ℚ := x.finite?.getD 0

/-- A pair of numbers as a point. -/
def point (ops : FloatOps) (p : Pair) : ℚ × ℚ :=
  (value (p.1.asF64 ops), value (p.2.asF64 ops))

/-- The sides of a window. -/
def box (w : CropWindow) : Box ℚ := ⟨w.minX, w.minY, w.maxX, w.maxY⟩

/-- Whatever numbers are in the value, are finite. -/
def FiniteNumbers (ops : FloatOps) (v : Json) : Prop :=
  ∀ n, NumberIn v n → (n.asF64 ops).isFinite = true

/-- The four sides that an object names. -/
def namedBox (P : Platform) (v : Json) : Option (Box ℚ) := do
  let west ← numberAt P v "west"
  let south ← numberAt P v "south"
  let east ← numberAt P v "east"
  let north ← numberAt P v "north"
  some ⟨west, south, east, north⟩

theorem finite?_of_isFinite {x : F64} (h : x.isFinite = true) : x.finite? = some (value x) := by
  cases x <;> first | rfl | cases h

theorem values_map {xs : List F64} (h : ∀ x ∈ xs, x.isFinite = true) :
    Values xs (xs.map value) := by
  rw [Values, List.forall₂_map_right_iff, List.forall₂_same]
  exact fun x hx => finite?_of_isFinite (h x hx)

/-- The fold that begins at an infinity, over at least one number. -/
theorem finite?_foldl_map {op : F64 → F64 → F64} {g : ℚ → ℚ → ℚ} {start x : F64} {xs : List F64}
    (hop : ∀ {x y a b}, x.finite? = some a → y.finite? = some b → (op x y).finite? = some (g a b))
    (hstart : ∀ {x a}, x.finite? = some a → op start x = x)
    (h : ∀ y ∈ x :: xs, y.isFinite = true) :
    ((x :: xs).foldl op start).finite? = some ((xs.map value).foldl g (value x)) := by
  obtain ⟨hx, hxs⟩ := List.forall_mem_cons.mp h
  rw [List.foldl_cons, hstart (finite?_of_isFinite hx)]
  exact finite?_foldl hop (values_map hxs) (finite?_of_isFinite hx)

section Bbox

variable (P : Platform) {v : Json}

/-- The points of the pairs that the walk finds. -/
def foundPoints (v : Json) : List (ℚ × ℚ) :=
  (coordPairs P v).map fun q => (value q.1, value q.2)

/-- Without the four sides, the box is the envelope of what the walk finds, if it has an area. -/
theorem geojsonBbox_of_unnamed (hnamed : namedBox P v = none)
    (hfinite : ∀ q ∈ coordPairs P v, q.1.isFinite = true ∧ q.2.isFinite = true) :
    (geojsonBbox P v).map box =
      (envelope (foundPoints P v)).filter fun b => b.minX < b.maxX ∧ b.minY < b.maxY := by
  unfold geojsonBbox
  split
  case h_1 hwest hsouth heast hnorth =>
    simp [namedBox, hwest, hsouth, heast, hnorth] at hnamed
  case h_2 =>
    rw [foundPoints]
    cases hpairs : coordPairs P v with
    | nil =>
        rfl
    | cons q qs =>
        rw [hpairs] at hfinite
        have hfst : ∀ x ∈ q.1 :: qs.map Prod.fst, x.isFinite = true := by
          intro x hx
          rw [← List.map_cons] at hx
          obtain ⟨r, hr, rfl⟩ := List.mem_map.mp hx
          exact (hfinite r hr).1
        have hsnd : ∀ y ∈ q.2 :: qs.map Prod.snd, y.isFinite = true := by
          intro y hy
          rw [← List.map_cons] at hy
          obtain ⟨r, hr, rfl⟩ := List.mem_map.mp hy
          exact (hfinite r hr).2
        simp only [List.map_cons, finite?_foldl_map finite?_min min_posInf_of_finite hfst,
          finite?_foldl_map finite?_min min_posInf_of_finite hsnd,
          finite?_foldl_map finite?_max max_negInf_of_finite hfst,
          finite?_foldl_map finite?_max max_negInf_of_finite hsnd, envelope, List.map_map]
        rw [Option.filter_some]
        split_ifs with harea harea' harea'
        · rfl
        · exact absurd (decide_eq_true harea) harea'
        · exact absurd (of_decide_eq_true harea') harea
        · rfl

theorem geojsonBbox_of_named {b : Box ℚ} (hnamed : namedBox P v = some b) :
    (geojsonBbox P v).map box = some b := by
  obtain ⟨west, hwest, hnamed⟩ := Option.bind_eq_some_iff.mp hnamed
  obtain ⟨south, hsouth, hnamed⟩ := Option.bind_eq_some_iff.mp hnamed
  obtain ⟨east, heast, hnamed⟩ := Option.bind_eq_some_iff.mp hnamed
  obtain ⟨north, hnorth, hnamed⟩ := Option.bind_eq_some_iff.mp hnamed
  cases hnamed
  simp only [geojsonBbox, hwest, hsouth, heast, hnorth]
  rfl

theorem mem_foundPoints {a : ℚ × ℚ} :
    a ∈ foundPoints P v ↔ ∃ p, PairIn v p ∧ point P.f64.toFloatOps p = a := by
  rw [foundPoints, List.mem_map]
  constructor
  · rintro ⟨q, hq, rfl⟩
    obtain ⟨p, hp, rfl⟩ := exists_pairIn_of_mem P hq
    exact ⟨p, hp, rfl⟩
  · rintro ⟨p, hp, rfl⟩
    exact ⟨_, mem_coordPairs_of_pairIn P hp, rfl⟩

/-- The result is the smallest box around the points, or nothing if there are none. -/
def IsEnvelopeOf (r : Option (Box ℚ)) (ps : List (ℚ × ℚ)) : Prop :=
  match r with
  | some b => b.IsSmallest ps
  | none => ps = []

/-- Two pairs differ in the first number, and two in the second. -/
def PairsSpread (ops : FloatOps) (v : Json) : Prop :=
  (∃ p q, PairIn v p ∧ PairIn v q ∧ (point ops p).1 < (point ops q).1) ∧
    ∃ p q, PairIn v p ∧ PairIn v q ∧ (point ops p).2 < (point ops q).2

/-- The positions alone determine the box: the sides that the object names are theirs, or it
names none; then the positions span an area that no other pair of numbers leaves, and where
there is no position the other pairs span no area. -/
def Undisturbed (P : Platform) (v : Json) (ps : List Pair) : Prop :=
  match namedBox P v with
  | some b => b.IsSmallest (ps.map (point P.f64.toFloatOps))
  | none =>
      (ps = [] → ¬ PairsSpread P.f64.toFloatOps v) ∧
        (ps ≠ [] → Spread (ps.map (point P.f64.toFloatOps)) ∧
          ∀ p, PairIn v p → Enclosed (ps.map (point P.f64.toFloatOps)) (point P.f64.toFloatOps p))

theorem pairsSpread_iff : PairsSpread P.f64.toFloatOps v ↔ Spread (foundPoints P v) := by
  have hexists : ∀ R : ℚ × ℚ → ℚ × ℚ → Prop,
      (∃ p q, PairIn v p ∧ PairIn v q ∧
        R (point P.f64.toFloatOps p) (point P.f64.toFloatOps q)) ↔
        ∃ a ∈ foundPoints P v, ∃ b ∈ foundPoints P v, R a b := by
    intro R
    constructor
    · rintro ⟨p, q, hp, hq, hR⟩
      exact ⟨_, (mem_foundPoints P).mpr ⟨p, hp, rfl⟩, _, (mem_foundPoints P).mpr ⟨q, hq, rfl⟩, hR⟩
    · rintro ⟨a, ha, b, hb, hR⟩
      obtain ⟨p, hp, rfl⟩ := (mem_foundPoints P).mp ha
      obtain ⟨q, hq, rfl⟩ := (mem_foundPoints P).mp hb
      exact ⟨p, q, hp, hq, hR⟩
  exact and_congr (hexists fun a b => a.1 < b.1) (hexists fun a b => a.2 < b.2)

/-- The envelope of more points is that of some exactly if these span its area. -/
theorem isEnvelopeOf_filter_iff {ps qs : List (ℚ × ℚ)} (hsub : ps ⊆ qs) :
    IsEnvelopeOf ((envelope qs).filter fun b => b.minX < b.maxX ∧ b.minY < b.maxY) ps ↔
      (ps = [] → ¬ Spread qs) ∧ (ps ≠ [] → Spread ps ∧ ∀ q ∈ qs, Enclosed ps q) := by
  cases henvelope : envelope qs with
  | none =>
      have hqs : qs = [] := by
        by_contra hne
        have := envelope_isSome hne
        rw [henvelope] at this
        cases this
      subst hqs
      have hps : ps = [] := List.subset_nil.mp hsub
      refine iff_of_true hps ⟨fun _ h => ?_, fun hne => absurd hps hne⟩
      obtain ⟨⟨p, hp, -⟩, -⟩ := h
      exact absurd hp List.not_mem_nil
  | some b =>
      have hout := envelope_outermost henvelope
      rw [Option.filter_some]
      by_cases hspread : Spread qs
      case pos =>
        rw [if_pos (decide_eq_true (hout.spread_iff.mpr hspread))]
        show b.IsSmallest ps ↔ _
        by_cases hps : ps = []
        case pos =>
          subst hps
          exact iff_of_false b.not_isSmallest_nil fun h => h.1 rfl hspread
        case neg =>
          rw [isSmallest_iff_enclosed hout.isSmallest hps hsub]
          refine ⟨fun h => ⟨fun hnil => absurd hnil hps, fun _ => ⟨?_, h⟩⟩, fun h => (h.2 hps).2⟩
          have hsmallest := (isSmallest_iff_enclosed hout.isSmallest hps hsub).mpr h
          exact (Outermost.of_isSmallest hsmallest hps).spread_iff.mp
            (hout.spread_iff.mpr hspread)
      case neg =>
        rw [if_neg fun h => hspread (hout.spread_iff.mp (of_decide_eq_true h))]
        refine ⟨fun hps => ⟨fun _ => hspread, fun hne => absurd hps hne⟩, fun h => ?_⟩
        by_contra hne
        exact hspread ((h.2 hne).1.mono hsub)

theorem isEnvelopeOf_geojsonBbox_iff {ps : List Pair} (h : Text v ps)
    (hfinite : FiniteNumbers P.f64.toFloatOps v) :
    IsEnvelopeOf ((geojsonBbox P v).map box) (ps.map (point P.f64.toFloatOps)) ↔
      Undisturbed P v ps := by
  unfold Undisturbed
  cases hnamed : namedBox P v with
  | some b =>
      rw [geojsonBbox_of_named P hnamed]
      rfl
  | none =>
      have hpairs : ∀ q ∈ coordPairs P v, q.1.isFinite = true ∧ q.2.isFinite = true := by
        intro q hq
        obtain ⟨p, hp, rfl⟩ := exists_pairIn_of_mem P hq
        exact ⟨hfinite _ hp.numberIn.1, hfinite _ hp.numberIn.2⟩
      have hsub : ps.map (point P.f64.toFloatOps) ⊆ foundPoints P v := by
        intro a ha
        obtain ⟨p, hp, rfl⟩ := List.mem_map.mp ha
        exact (mem_foundPoints P).mpr ⟨p, pairIn_of_text h hp, rfl⟩
      have hall : (∀ q ∈ foundPoints P v, Enclosed (ps.map (point P.f64.toFloatOps)) q) ↔
          ∀ p, PairIn v p →
            Enclosed (ps.map (point P.f64.toFloatOps)) (point P.f64.toFloatOps p) := by
        constructor
        · exact fun hq p hp => hq _ ((mem_foundPoints P).mpr ⟨p, hp, rfl⟩)
        · rintro hp q hq
          obtain ⟨p, hpair, rfl⟩ := (mem_foundPoints P).mp hq
          exact hp p hpair
      rw [geojsonBbox_of_unnamed P hnamed hpairs, isEnvelopeOf_filter_iff hsub, hall,
        pairsSpread_iff, List.map_eq_nil_iff, Ne, List.map_eq_nil_iff]

theorem IsEnvelopeOf.unique {r r' : Option (Box ℚ)} {ps : List (ℚ × ℚ)} (h : IsEnvelopeOf r ps)
    (h' : IsEnvelopeOf r' ps) : r = r' := by
  cases r with
  | none =>
      cases r' with
      | none =>
          rfl
      | some b =>
          exact absurd (show b.IsSmallest [] from (show ps = [] from h) ▸ h') b.not_isSmallest_nil
  | some b =>
      cases r' with
      | none =>
          exact absurd (show b.IsSmallest [] from (show ps = [] from h') ▸ h) b.not_isSmallest_nil
      | some b' =>
          exact congrArg some (Box.IsSmallest.unique h h')

theorem box_injective : Function.Injective box := by
  rintro ⟨_, _, _, _⟩ ⟨_, _, _, _⟩ h
  cases h
  rfl

end Bbox

/-- The box is that of the positions exactly if nothing else in the text disturbs it, and then
nothing else changes it. -/
theorem geojsonBbox_iff (P : Platform) (v v' : Json) (ps : List Pair) (h : Text v ps)
    (h' : Text v' ps) (hfinite : FiniteNumbers P.f64.toFloatOps v)
    (hfinite' : FiniteNumbers P.f64.toFloatOps v') :
    (IsEnvelopeOf ((geojsonBbox P v).map box) (ps.map (point P.f64.toFloatOps)) ↔
        Undisturbed P v ps) ∧
      (Undisturbed P v ps → Undisturbed P v' ps → geojsonBbox P v = geojsonBbox P v') := by
  refine ⟨isEnvelopeOf_geojsonBbox_iff P h hfinite, fun hv hv' => ?_⟩
  have hbox := (isEnvelopeOf_geojsonBbox_iff P h hfinite).mpr hv
  have hbox' := (isEnvelopeOf_geojsonBbox_iff P h' hfinite').mpr hv'
  exact Option.map_injective box_injective (hbox.unique hbox')

section Samples

variable {ops : FloatOps}

theorem finiteNumbers_num {n : Number} (h : (n.asF64 ops).isFinite = true) :
    FiniteNumbers ops (.num n) := by
  rintro _ ⟨⟩
  exact h

theorem finiteNumbers_str (s : String) : FiniteNumbers ops (.str s) := by
  rintro _ ⟨⟩

theorem finiteNumbers_arr {items : List Json} (h : ∀ v ∈ items, FiniteNumbers ops v) :
    FiniteNumbers ops (.arr items) := by
  intro n hn
  cases hn with
  | item hmem hn =>
      exact h _ hmem n hn

theorem finiteNumbers_obj {fields : List (String × Json)}
    (h : ∀ e ∈ fields, FiniteNumbers ops e.2) : FiniteNumbers ops (.obj fields) := by
  intro n hn
  cases hn with
  | member hmem hn =>
      exact h _ hmem n hn

end Samples

/-- An array of two whole numbers. -/
def pairOf (x y : Nat) : Json := .arr [.num (.posInt x), .num (.posInt y)]

/-- The pair as numbers. -/
def numbersOf (x y : Nat) : Pair := (.posInt x, .posInt y)

/-- A triangle. -/
def triangle : Json :=
  .obj [("coordinates", .arr [.arr [pairOf 0 0, pairOf 2 0, pairOf 2 1, pairOf 0 0]]),
    ("type", .str "Polygon")]

def trianglePositions : List Pair :=
  [numbersOf 0 0, numbersOf 2 0, numbersOf 2 1, numbersOf 0 0]

/-- The triangle as a feature that names a place elsewhere. -/
def labelledTriangle : Json :=
  .obj [("geometry", triangle), ("properties", .obj [("label", pairOf 9 9)]),
    ("type", .str "Feature")]

/-- A point. -/
def pointText : Json := .obj [("coordinates", pairOf 1 2), ("type", .str "Point")]

theorem triangle_geometry : Geometry triangle trianglePositions :=
  .simple rfl rfl rfl rfl

theorem finiteNumbers_pairOf (x y : Nat) : FiniteNumbers FloatOps.exact (pairOf x y) :=
  finiteNumbers_arr (List.forall_mem_cons.mpr ⟨finiteNumbers_num rfl,
    List.forall_mem_singleton.mpr (finiteNumbers_num rfl)⟩)

theorem triangle_finite : FiniteNumbers FloatOps.exact triangle := by
  refine finiteNumbers_obj (List.forall_mem_cons.mpr
    ⟨?_, List.forall_mem_singleton.mpr (finiteNumbers_str _)⟩)
  refine finiteNumbers_arr (List.forall_mem_singleton.mpr (finiteNumbers_arr ?_))
  have hpair := finiteNumbers_pairOf
  exact List.forall_mem_cons.mpr ⟨hpair 0 0, List.forall_mem_cons.mpr ⟨hpair 2 0,
    List.forall_mem_cons.mpr ⟨hpair 2 1, List.forall_mem_singleton.mpr (hpair 0 0)⟩⟩⟩

theorem labelledTriangle_finite : FiniteNumbers FloatOps.exact labelledTriangle := by
  refine finiteNumbers_obj (List.forall_mem_cons.mpr ⟨triangle_finite, List.forall_mem_cons.mpr
    ⟨finiteNumbers_obj (List.forall_mem_singleton.mpr (finiteNumbers_pairOf 9 9)),
      List.forall_mem_singleton.mpr (finiteNumbers_str _)⟩⟩)

theorem geojsonBbox_iff_sample :
    (IsEnvelopeOf ((geojsonBbox .exact triangle).map box)
          (trianglePositions.map (point Platform.exact.f64.toFloatOps)) ↔
        Undisturbed .exact triangle trianglePositions) ∧
      (Undisturbed .exact triangle trianglePositions →
        Undisturbed .exact labelledTriangle trianglePositions →
          geojsonBbox .exact triangle = geojsonBbox .exact labelledTriangle) :=
  geojsonBbox_iff .exact triangle labelledTriangle trianglePositions
    (.geometry triangle_geometry) (.feature (.located rfl rfl triangle_geometry))
    triangle_finite labelledTriangle_finite

/-- A point has no box, and a property of a feature moves that of a triangle. -/
theorem strayPairs_moveBox :
    Text pointText [numbersOf 1 2] ∧ geojsonBbox .exact pointText = none ∧
      Text labelledTriangle trianglePositions ∧
        geojsonBbox .exact triangle = some ⟨0, 0, 2, 1⟩ ∧
          geojsonBbox .exact labelledTriangle = some ⟨0, 0, 9, 9⟩ := by
  have hpoint : Geometry pointText [numbersOf 1 2] :=
    .simple rfl rfl rfl rfl
  exact ⟨.geometry hpoint, rfl, .feature (.located rfl rfl triangle_geometry), rfl, rfl⟩

end GeoJson

end OrbitOpenEO
