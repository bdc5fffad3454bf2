import Mathlib.Algebra.Order.Ring.Rat
import OrbitOpenEO.Lib.StableSort
import OrbitOpenEO.ScalarHandlers

/-!
# Ordering and sorting arrays

`order` returns the positions of an array in the order of its numbers, `sort` the numbers
themselves.  Whatever is no finite number is a gap, and gaps are left out, put first or put
last.
-/

namespace OrbitOpenEO

/-- The number that a finite value stands for. -/
def F64.toRat : F64 → ℚ
  | .finite q => q
  | _ => 0

theorem F64.lt_eq_decide {x y : F64} (hx : x.isFinite = true) (hy : y.isFinite = true) :
    F64.lt x y = decide (x.toRat < y.toRat) := by
  cases x <;> cases y <;>
    first
      | cases hx; done
      | cases hy; done
      | exact decide_eq_decide.mpr Iff.rfl
      | simp [F64.lt, F64.toRat]

namespace EvalArrays

open Lib

variable (f : FloatOps)

/-- `arr`. -/
def arr (args : BTreeMap Json) (key : String) : Except ExecError (List Json) :=
  match args.get key with
  | some (.arr data) => .ok data
  | _ => .error (.invalidGraph s!"expected array `{key}` argument")

/-- `numeric_with_index`: position, value and whether it is a gap. -/
def numericWithIndex (data : List Json) : List (Nat × F64 × Bool) :=
  data.zipIdx.map fun e =>
    match Json.asF64 f e.1 with
    | some x => if x.isFinite then (e.2, x, false) else (e.2, .nan, true)
    | none => (e.2, .nan, true)

/-- The comparison of `sort_by`: not greater. -/
def notGreater (asc : Bool) (x y : F64) : Bool := if asc then !F64.lt y x else !F64.lt x y

/-- The `asc` argument. -/
def ascending (args : BTreeMap Json) : Bool := ((args.get "asc").bind Json.asBool).getD true

/-- The `nodata` argument. -/
def nodataFlag (args : BTreeMap Json) : Option Bool := (args.get "nodata").bind Json.asBool

/-- Positions as JSON. -/
def indices (idx : List Nat) : List Json := idx.map fun i => .num (.posInt i)

/-- `order`. -/
def order (args : BTreeMap Json) : Except ExecError Json := do
  let data ← arr args "data"
  let items := numericWithIndex f data
  let valid := (items.filter fun e => !e.2.2).map fun e => (e.1, e.2.1)
  let nodataIdx := (items.filter fun e => e.2.2).map fun e => e.1
  let valid := valid.mergeSort fun a b => notGreater (ascending args) a.2 b.2
  let out :=
    match nodataFlag args with
    | none => []
    | some false => indices nodataIdx
    | some true => []
  let out := out ++ indices (valid.map Prod.fst)
  let out := if nodataFlag args = some true then out ++ indices nodataIdx else out
  .ok (.arr out)

/-- `Number::from_f64`, which leaves out what is not finite. -/
def numbers (xs : List F64) : List Json :=
  xs.filterMap fun x => if x.isFinite then some (.num (.float x)) else none

/-- `sort`. -/
def sort (args : BTreeMap Json) : Except ExecError Json := do
  let data ← arr args "data"
  let items := numericWithIndex f data
  let valid := (items.filter fun e => !e.2.2).map fun e => e.2.1
  let nodataCount := (items.filter fun e => e.2.2).length
  let valid := valid.mergeSort (notGreater (ascending args))
  let nodataVals := List.replicate nodataCount Json.null
  .ok (.arr (match nodataFlag args with
    | none => numbers valid
    | some false => nodataVals ++ numbers valid
    | some true => numbers valid ++ nodataVals))

/-- The finite number that a value of the array is read as. -/
def reading (v : Json) : Option F64 := (Json.asF64 f v).filter F64.isFinite

/-- The number read at a position. -/
def readingAt (data : List Json) (i : Nat) : Option F64 := data[i]?.bind (reading f)

/-- The readings with their positions. -/
def readings (data : List Json) : List (Nat × F64) :=
  data.zipIdx.filterMap fun e => (reading f e.1).map (e.2, ·)

/-- The positions without a reading. -/
def gaps (data : List Json) : List Nat :=
  (data.zipIdx.filter fun e => (reading f e.1).isNone).map Prod.snd

/-- The readings in order. -/
def sorted (data : List Json) (asc : Bool) : List (Nat × F64) :=
  (readings f data).mergeSort fun a b => notGreater asc a.2 b.2

/-- The positions that `order` returns. -/
def positions (data : List Json) (asc : Bool) (nodata : Option Bool) : List Nat :=
  (if nodata = some false then gaps f data else []) ++ (sorted f data asc).map Prod.fst ++
    (if nodata = some true then gaps f data else [])

/-- What stands in the sorted array for a position. -/
def sortedValue (data : List Json) (i : Nat) : Json :=
  match readingAt f data i with
  | some x => .num (.float x)
  | none => .null

/-- The positions `idx` order the array. -/
structure Orders (data : List Json) (asc : Bool) (nodata : Option Bool) (idx : List Nat) :
    Prop where
  nodup : idx.Nodup
  mem_iff : ∀ i, i ∈ idx ↔ i < data.length ∧ (nodata = none → (readingAt f data i).isSome)
  monotone : idx.Pairwise fun i j => ∀ x y, readingAt f data i = some x →
    readingAt f data j = some y →
      (if asc then x.toRat ≤ y.toRat else y.toRat ≤ x.toRat) ∧ (x.toRat = y.toRat → i < j)
  gapsFirst : nodata = some false →
    idx.Pairwise fun i j => readingAt f data j = none → readingAt f data i = none
  gapsLast : nodata = some true →
    idx.Pairwise fun i j => readingAt f data i = none → readingAt f data j = none

section Split

variable {f}

theorem isFinite_of_reading {v : Json} {x : F64} (h : reading f v = some x) :
    x.isFinite = true :=
  (Option.filter_eq_some_iff.mp h).2

theorem numericWithIndex_eq (data : List Json) :
    numericWithIndex f data = data.zipIdx.map fun e =>
      match reading f e.1 with
      | some x => (e.2, x, false)
      | none => (e.2, .nan, true) := by
  refine List.map_congr_left fun e _ => ?_
  cases hv : Json.asF64 f e.1 with
  | none =>
      simp [reading, hv]
  | some x =>
      cases hx : x.isFinite <;> simp [reading, hv, hx, Option.filter_some]

theorem valid_numericWithIndex (data : List Json) :
    ((numericWithIndex f data).filter fun e => !e.2.2).map (fun e => (e.1, e.2.1)) =
      readings f data := by
  rw [numericWithIndex_eq, readings, List.filter_map, List.map_map]
  induction data.zipIdx with
  | nil =>
      rfl
  | cons e l ih =>
      cases hr : reading f e.1 with
      | none =>
          rw [List.filter_cons_of_neg (by simp [hr]), ih]
          simp [hr]
      | some x =>
          rw [List.filter_cons_of_pos (by simp [hr]), List.map_cons, ih]
          simp [hr]

theorem gaps_numericWithIndex (data : List Json) :
    ((numericWithIndex f data).filter fun e => e.2.2).map (fun e => e.1) = gaps f data := by
  rw [numericWithIndex_eq, gaps, List.filter_map, List.map_map]
  induction data.zipIdx with
  | nil =>
      rfl
  | cons e l ih =>
      cases hr : reading f e.1 with
      | none =>
          rw [List.filter_cons_of_pos (by simp [hr]), List.map_cons, ih]
          simp [hr]
      | some x =>
          rw [List.filter_cons_of_neg (by simp [hr]), ih]
          simp [hr]

theorem mem_readings {data : List Json} {i : Nat} {x : F64} :
    (i, x) ∈ readings f data ↔ readingAt f data i = some x := by
  simp only [readings, List.mem_filterMap, Option.map_eq_some_iff, Prod.mk.injEq, readingAt,
    Option.bind_eq_some_iff]
  constructor
  · rintro ⟨⟨v, k⟩, hmem, y, hy, rfl, rfl⟩
    exact ⟨v, List.mem_zipIdx_iff_getElem?.mp hmem, hy⟩
  · rintro ⟨v, hv, hx⟩
    exact ⟨(v, i), List.mem_zipIdx_iff_getElem?.mpr hv, x, hx, rfl, rfl⟩

theorem mem_gaps {data : List Json} {i : Nat} :
    i ∈ gaps f data ↔ i < data.length ∧ readingAt f data i = none := by
  simp only [gaps, List.mem_map, List.mem_filter, readingAt]
  constructor
  · rintro ⟨⟨v, k⟩, ⟨hmem, hnone⟩, rfl⟩
    have hv := List.mem_zipIdx_iff_getElem?.mp hmem
    exact ⟨(List.getElem?_eq_some_iff.mp hv).1, by
      rw [hv]
      exact Option.isNone_iff_eq_none.mp hnone⟩
  · rintro ⟨hlt, hnone⟩
    rw [List.getElem?_eq_getElem hlt] at hnone
    exact ⟨(data[i], i), ⟨List.mem_zipIdx_iff_getElem?.mpr (List.getElem?_eq_getElem hlt),
      Option.isNone_iff_eq_none.mpr hnone⟩, rfl⟩

/-- The positions of an array ascend. -/
theorem pairwise_zipIdx (data : List Json) : data.zipIdx.Pairwise fun a b => a.2 < b.2 := by
  have h := List.pairwise_lt_range' (s := 0) (n := data.length)
  rw [← List.zipIdx_map_snd 0 data] at h
  exact List.pairwise_map.mp h

theorem pairwise_readings (data : List Json) :
    (readings f data).Pairwise fun a b => a.1 < b.1 := by
  refine List.Pairwise.filterMap _ (fun a b hab x hx y hy => ?_) (pairwise_zipIdx data)
  obtain ⟨_, _, rfl⟩ := Option.map_eq_some_iff.mp hx
  obtain ⟨_, _, rfl⟩ := Option.map_eq_some_iff.mp hy
  exact hab

theorem pairwise_gaps (data : List Json) : (gaps f data).Pairwise (· < ·) :=
  List.pairwise_map.mpr ((pairwise_zipIdx data).filter _)

/-- A reading in the direction of the sort. -/
def directed (asc : Bool) (x : F64) : ℚ := if asc then x.toRat else -x.toRat

theorem notGreater_eq_byKey (asc : Bool) {x y : F64} (hx : x.isFinite = true)
    (hy : y.isFinite = true) : notGreater asc x y = byKey (directed asc) x y := by
  cases asc with
  | true =>
      simp only [notGreater, byKey, directed, if_true, F64.lt_eq_decide hy hx, ← decide_not]
      exact decide_eq_decide.mpr not_lt
  | false =>
      simp only [notGreater, byKey, directed, Bool.false_eq_true, if_false,
        F64.lt_eq_decide hx hy, ← decide_not]
      exact decide_eq_decide.mpr (not_lt.trans neg_le_neg_iff.symm)

theorem mem_sorted {data : List Json} {asc : Bool} {i : Nat} {x : F64} :
    (i, x) ∈ sorted f data asc ↔ readingAt f data i = some x :=
  List.mem_mergeSort.trans mem_readings

theorem sorted_eq_byKey (data : List Json) (asc : Bool) :
    sorted f data asc = (readings f data).mergeSort (byKey fun e => directed asc e.2) := by
  have hfinite : ∀ a ∈ readings f data, a.2.isFinite = true := by
    intro a ha
    obtain ⟨v, -, hv⟩ := Option.bind_eq_some_iff.mp (mem_readings.mp ha)
    exact isFinite_of_reading hv
  exact mergeSort_congr fun a ha b hb => notGreater_eq_byKey asc (hfinite a ha) (hfinite b hb)

theorem pairwise_sorted (data : List Json) (asc : Bool) :
    (sorted f data asc).Pairwise fun a b =>
      (if asc then a.2.toRat ≤ b.2.toRat else b.2.toRat ≤ a.2.toRat) ∧
        (a.2.toRat = b.2.toRat → a.1 < b.1) := by
  rw [sorted_eq_byKey]
  refine (pairwise_mergeSort_byKey (directed asc) (pairwise_readings data)).imp ?_
  intro a b hab
  cases asc with
  | true =>
      simp only [directed, if_true] at hab ⊢
      rcases hab with hlt | ⟨heq, hpos⟩
      · exact ⟨hlt.le, fun heq => absurd heq hlt.ne⟩
      · exact ⟨heq.le, fun _ => hpos⟩
  | false =>
      simp only [directed, Bool.false_eq_true, if_false, neg_lt_neg_iff, neg_inj] at hab ⊢
      rcases hab with hlt | ⟨heq, hpos⟩
      · exact ⟨hlt.le, fun heq => absurd heq hlt.ne'⟩
      · exact ⟨heq.ge, fun _ => hpos⟩

theorem mem_sorted_fst {data : List Json} {asc : Bool} {i : Nat} :
    i ∈ (sorted f data asc).map Prod.fst ↔ (readingAt f data i).isSome := by
  rw [List.mem_map, Option.isSome_iff_exists]
  constructor
  · rintro ⟨⟨k, x⟩, hmem, rfl⟩
    exact ⟨x, mem_sorted.mp hmem⟩
  · rintro ⟨x, hx⟩
    exact ⟨(i, x), mem_sorted.mpr hx, rfl⟩

theorem nodup_sorted_fst (data : List Json) (asc : Bool) :
    ((sorted f data asc).map Prod.fst).Nodup := by
  have hperm : ((sorted f data asc).map Prod.fst).Perm ((readings f data).map Prod.fst) :=
    (List.mergeSort_perm _ _).map _
  refine hperm.nodup_iff.mpr (List.Pairwise.imp (fun h => ?_)
    (List.pairwise_map.mpr (pairwise_readings data)))
  exact Nat.ne_of_lt h

theorem mem_positions {data : List Json} {asc : Bool} {nodata : Option Bool} {i : Nat} :
    i ∈ positions f data asc nodata ↔
      i < data.length ∧ (nodata = none → (readingAt f data i).isSome) := by
  have hlt : (readingAt f data i).isSome → i < data.length := by
    intro h
    obtain ⟨x, hx⟩ := Option.isSome_iff_exists.mp h
    obtain ⟨v, hv, -⟩ := Option.bind_eq_some_iff.mp hx
    exact (List.getElem?_eq_some_iff.mp hv).1
  have hgap : i ∈ gaps f data ↔ i < data.length ∧ ¬ (readingAt f data i).isSome := by
    rw [mem_gaps, Option.not_isSome_iff_eq_none]
  match nodata with
  | none =>
      simpa [positions, mem_sorted_fst] using hlt
  | some false =>
      simp only [positions, List.mem_append, if_true, mem_sorted_fst, hgap]
      tauto
  | some true =>
      simp only [positions, List.mem_append, if_true, mem_sorted_fst, hgap]
      tauto

theorem nodup_positions (data : List Json) (asc : Bool) (nodata : Option Bool) :
    (positions f data asc nodata).Nodup := by
  have hgaps : (gaps f data).Nodup := (pairwise_gaps data).imp Nat.ne_of_lt
  have hsorted := nodup_sorted_fst (f := f) data asc
  have hdisjoint : List.Disjoint (gaps f data) ((sorted f data asc).map Prod.fst) := by
    intro i hgap hval
    rw [mem_sorted_fst, (mem_gaps.mp hgap).2] at hval
    cases hval
  match nodata with
  | none =>
      simpa [positions] using hsorted
  | some false =>
      simpa [positions] using hgaps.append hsorted hdisjoint
  | some true =>
      simpa [positions] using hsorted.append hgaps hdisjoint.symm

/-- A relation between positions that only says something about readings. -/
theorem pairwise_positions {data : List Json} {asc : Bool} (nodata : Option Bool)
    {R : Nat → Nat → Prop} (hleft : ∀ i j, readingAt f data i = none → R i j)
    (hright : ∀ i j, readingAt f data j = none → R i j)
    (h : ((sorted f data asc).map Prod.fst).Pairwise R) :
    (positions f data asc nodata).Pairwise R := by
  have hgap : ∀ i ∈ gaps f data, readingAt f data i = none := fun i hi => (mem_gaps.mp hi).2
  have hgaps : (gaps f data).Pairwise R :=
    List.pairwise_of_forall_mem_list fun i hi j _ => hleft i j (hgap i hi)
  match nodata with
  | none =>
      simpa [positions] using h
  | some false =>
      simpa [positions] using
        List.pairwise_append.mpr ⟨hgaps, h, fun i hi j _ => hleft i j (hgap i hi)⟩
  | some true =>
      simpa [positions] using
        List.pairwise_append.mpr ⟨h, hgaps, fun i _ j hj => hright i j (hgap j hj)⟩

/-- The positions that `order` returns order the array. -/
theorem orders_positions (data : List Json) (asc : Bool) (nodata : Option Bool) :
    Orders f data asc nodata (positions f data asc nodata) where
  nodup := nodup_positions data asc nodata
  mem_iff _ := mem_positions
  monotone := by
    refine pairwise_positions nodata (fun i j hi x y hx => ?_) (fun i j hj x y _ hy => ?_) ?_
    · rw [hi] at hx
      cases hx
    · rw [hj] at hy
      cases hy
    · refine List.pairwise_map.mpr ((pairwise_sorted data asc).imp_of_mem ?_)
      rintro ⟨i, x⟩ ⟨j, y⟩ hi hj hpair x' y' hx' hy'
      rw [mem_sorted.mp hi] at hx'
      rw [mem_sorted.mp hj] at hy'
      cases hx'
      cases hy'
      exact hpair
  gapsFirst := by
    rintro rfl
    have hval : ∀ j ∈ (sorted f data asc).map Prod.fst, readingAt f data j ≠ none :=
      fun j hj => Option.isSome_iff_ne_none.mp (mem_sorted_fst.mp hj)
    have hgap : ∀ i ∈ gaps f data, readingAt f data i = none := fun i hi => (mem_gaps.mp hi).2
    simp only [positions, if_true, Option.some.injEq, Bool.false_eq_true, if_false,
      List.append_nil]
    exact List.pairwise_append.mpr
      ⟨List.pairwise_of_forall_mem_list fun i hi _ _ _ => hgap i hi,
        List.pairwise_of_forall_mem_list fun _ _ j hj h => absurd h (hval j hj),
        fun i hi _ _ _ => hgap i hi⟩
  gapsLast := by
    rintro rfl
    have hval : ∀ i ∈ (sorted f data asc).map Prod.fst, readingAt f data i ≠ none :=
      fun i hi => Option.isSome_iff_ne_none.mp (mem_sorted_fst.mp hi)
    have hgap : ∀ j ∈ gaps f data, readingAt f data j = none := fun j hj => (mem_gaps.mp hj).2
    simp only [positions, if_true, Option.some.injEq, Bool.true_eq_false, if_false,
      List.nil_append]
    exact List.pairwise_append.mpr
      ⟨List.pairwise_of_forall_mem_list fun i hi _ _ h => absurd h (hval i hi),
        List.pairwise_of_forall_mem_list fun _ _ j hj _ => hgap j hj,
        fun _ _ j hj _ => hgap j hj⟩

theorem order_eq {args : BTreeMap Json} {data : List Json} (h : arr args "data" = .ok data) :
    order f args =
      .ok (.arr (indices (positions f data (ascending args) (nodataFlag args)))) := by
  have hvalid := valid_numericWithIndex (f := f) data
  have hgaps := gaps_numericWithIndex (f := f) data
  simp only [order, h, bind, Except.bind, hvalid, hgaps, positions, indices, sorted]
  match nodataFlag args with
  | none =>
      simp
  | some false =>
      simp
  | some true =>
      simp

theorem numbers_sorted (data : List Json) (asc : Bool) :
    numbers (((numericWithIndex f data).filter fun e => !e.2.2).map (fun e => e.2.1)
      |>.mergeSort (notGreater asc)) =
      ((sorted f data asc).map Prod.fst).map (sortedValue f data) := by
  have hread : ((numericWithIndex f data).filter fun e => !e.2.2).map (fun e => e.2.1) =
      (readings f data).map Prod.snd := by
    rw [← valid_numericWithIndex, List.map_map]
    rfl
  have hsorted : ((readings f data).map Prod.snd).mergeSort (notGreater asc) =
      (sorted f data asc).map Prod.snd :=
    (List.map_mergeSort (r := fun a b => notGreater asc a.2 b.2) (f := Prod.snd)
      fun _ _ _ _ => rfl).symm
  rw [hread, hsorted, numbers, List.filterMap_map, List.map_map, ← List.filterMap_eq_map]
  refine List.filterMap_congr ?_
  rintro ⟨i, x⟩ hmem
  have hx := mem_sorted.mp hmem
  obtain ⟨v, -, hv⟩ := Option.bind_eq_some_iff.mp hx
  simp [sortedValue, hx, isFinite_of_reading hv]

theorem nulls_gaps (data : List Json) :
    List.replicate ((numericWithIndex f data).filter fun e => e.2.2).length Json.null =
      (gaps f data).map (sortedValue f data) := by
  have hlen : ((numericWithIndex f data).filter fun e => e.2.2).length = (gaps f data).length := by
    rw [← gaps_numericWithIndex, List.length_map]
  rw [hlen, ← List.map_const']
  refine List.map_congr_left fun i hi => ?_
  simp [sortedValue, (mem_gaps.mp hi).2]

theorem sort_eq {args : BTreeMap Json} {data : List Json} (h : arr args "data" = .ok data) :
    sort f args = .ok (.arr
      ((positions f data (ascending args) (nodataFlag args)).map (sortedValue f data))) := by
  simp only [sort, h, bind, Except.bind, numbers_sorted, nulls_gaps, positions]
  match nodataFlag args with
  | none =>
      simp
  | some false =>
      simp
  | some true =>
      simp

end Split

/-- `sort` returns the readings at the positions that `order` returns. -/
theorem order_sort_agree (args : BTreeMap Json) (data : List Json)
    (h : arr args "data" = .ok data) :
    ∃ idx, order f args = .ok (.arr (indices idx)) ∧
      Orders f data (ascending args) (nodataFlag args) idx ∧
      sort f args = .ok (.arr (idx.map (sortedValue f data))) :=
  ⟨_, order_eq h, orders_positions _ _ _, sort_eq h⟩

/-- The arguments that hold an array. -/
def dataArgs (data : List Json) : BTreeMap Json :=
  ⟨[("data", .arr data)], List.pairwise_singleton _ _⟩

/-- Numbers with ties and gaps between them. -/
def tiedData : List Json :=
  [.null, .num (.posInt 2), .num (.float (.finite (5 / 2))), .str "x", .num (.posInt 2), .null,
    .num (.negInt (-3))]

/-- Arguments that ask for the descending order, with the gaps at the end. -/
def descendingArgs : BTreeMap Json :=
  ⟨[("asc", .bool false), ("data", .arr tiedData), ("nodata", .bool true)], by decide⟩

theorem order_sort_agree_sample :
    ∃ idx, order .exact descendingArgs = .ok (.arr (indices idx)) ∧
      Orders .exact tiedData false (some true) idx ∧
      sort .exact descendingArgs = .ok (.arr (idx.map (sortedValue .exact tiedData))) :=
  order_sort_agree .exact descendingArgs tiedData rfl

/-- An arithmetic that rounds `2 ^ 53 + 1` as `f64` does. -/
def roundedOps : FloatOps :=
  { FloatOps.exact with ofInt := fun n => .finite (if n = 2 ^ 53 + 1 then 2 ^ 53 else n) }

/-- An array that ascends already keeps its positions. -/
theorem order_of_ascending {f : FloatOps} {data : List Json}
    (h : (readings f data).Pairwise fun a b => notGreater true a.2 b.2 = true) :
    order f (dataArgs data) = .ok (.arr (indices ((readings f data).map Prod.fst))) ∧
      sort f (dataArgs data) =
        .ok (.arr (((readings f data).map Prod.fst).map (sortedValue f data))) := by
  have hpos : positions f data true none = (readings f data).map Prod.fst := by
    simp [positions, sorted, List.mergeSort_of_pairwise h]
  rw [← hpos]
  exact ⟨order_eq rfl, sort_eq rfl⟩

/-- A whole number comes back as a float, and two whole numbers that round to one float keep
their order. -/
theorem sort_rounds :
    order .exact (dataArgs [.num (.posInt 3)]) = .ok (.arr (indices [0])) ∧
      sort .exact (dataArgs [.num (.posInt 3)]) ≠ .ok (.arr [.num (.posInt 3)]) ∧
      order roundedOps (dataArgs [.num (.posInt (2 ^ 53 + 1)), .num (.posInt (2 ^ 53))]) =
        .ok (.arr (indices [0, 1])) := by
  have hasc : (readings .exact [.num (.posInt 3)]).Pairwise
      fun a b => notGreater true a.2 b.2 = true := List.pairwise_singleton _ _
  have hthree := order_of_ascending hasc
  refine ⟨hthree.1, ?_, (order_of_ascending (by decide)).1⟩
  rw [hthree.2]
  intro heq
  have hval : [Json.num (.float (.finite 3))] = [Json.num (.posInt 3)] := by
    injection heq with heq
    injection heq with heq
  cases hval

end EvalArrays

end OrbitOpenEO
