import OrbitOpenEO.Lib.Boxes
import OrbitOpenEO.Lib.Crossings
import Mathlib.Data.List.Sort
import Mathlib.Data.Rat.Floor

/-!
# The scan-line rasteriser

`rasterise` draws a ring on a grid: for every row it collects where the edges cross the line
through the centres of the pixels, sorts these places, takes them in pairs and fills the
pixels between the two of a pair.  A pixel should be set if its centre is inside the ring by
the even-odd rule.

Coordinates are rational and computed with exactly.  Sums and products of `usize` that do not
fit are panics, as is an index outside the output.
-/

namespace OrbitOpenEO
namespace EoVector

open Lib

/-- `PolygonRing`. -/
structure PolygonRing where
  vertices : List (ℚ × ℚ)

/-- `is_valid`. -/
def PolygonRing.isValid (ring : PolygonRing) : Bool := decide (3 ≤ ring.vertices.length)

/-- One vertex more in the box. -/
def growBox (b : Box ℚ) (p : ℚ × ℚ) : Box ℚ :=
  ⟨if p.1 < b.minX then p.1 else b.minX, if p.2 < b.minY then p.2 else b.minY,
    if p.1 > b.maxX then p.1 else b.maxX, if p.2 > b.maxY then p.2 else b.maxY⟩

/-- `bbox`. -/
def PolygonRing.bbox (ring : PolygonRing) : Option (Box ℚ) :=
  match ring.vertices with
  | [] => none
  | (x, y) :: rest => some (rest.foldl growBox ⟨x, y, x, y⟩)

/-- `VectorError::InvalidRing`. -/
inductive VectorError where
  | invalidRing (n : Nat)
deriving DecidableEq

/-- `f64::EPSILON`. -/
def EPSILON : ℚ := 1 / 2 ^ 52

/-- `as usize` of a whole number, which saturates. -/
def asUsize (n : Int) : Nat := min n.toNat (2 ^ 64 - 1)

/-- An edge of a ring. -/
abbrev Edge := (ℚ × ℚ) × (ℚ × ℚ)

/-- Where an edge crosses a horizontal line. -/
def crossingX (yc : ℚ) (e : Edge) : ℚ :=
  let t := (yc - e.1.2) / (e.2.2 - e.1.2)
  e.1.1 + t * (e.2.1 - e.1.1)

/-- The body of the loop over the edges. -/
def crossing (yc : ℚ) (e : Edge) : Option ℚ :=
  let (ya, yb) := if e.1.2 < e.2.2 then (e.1.2, e.2.2) else (e.2.2, e.1.2)
  if yc < ya ∨ yc ≥ yb then none
  else if |e.2.2 - e.1.2| < EPSILON then none
  else some (crossingX yc e)

/-- The spans of a row, between sorted crossings. -/
def rowSpans (ring : PolygonRing) (y : Nat) : List (ℚ × ℚ) :=
  spans (((closedPairs ring.vertices).filterMap (crossing (y + 1 / 2))).insertionSort (· ≤ ·))

/-- `x_hi.floor() as usize + 1` does not fit. -/
def endOverflows (s : ℚ × ℚ) : Bool := decide (2 ^ 64 ≤ asUsize ⌊s.2⌋ + 1)

/-- The columns that are set for a span. -/
def spanColumns (cols : Nat) (s : ℚ × ℚ) : List Nat :=
  let xStart := min (asUsize (max ⌈s.1⌉ 0)) cols
  let xEnd := min (asUsize ⌊s.2⌋ + 1) cols
  (List.range' xStart (xEnd - xStart)).filter fun x =>
    decide (s.1 ≤ (x : ℚ) + 1 / 2) && decide ((x : ℚ) + 1 / 2 < s.2)

/-- `out[i] = 1` for the indices, one after the other. -/
def paint : List Nat → List Nat → Option (List Nat)
  | out, [] => some out
  | out, i :: rest => if i < out.length then paint (out.set i 1) rest else none

/-- `ScanlineRasterizer::rasterise`; `none` is a panic. -/
def rasterise (ring : PolygonRing) (rows cols : Nat) :
    Option (Except VectorError (List Nat)) :=
  if !ring.isValid then some (.error (.invalidRing ring.vertices.length))
  else if 2 ^ 64 ≤ rows * cols then none
  else
    let out := List.replicate (rows * cols) 0
    if rows = 0 ∨ cols = 0 then some (.ok out)
    else
      match ring.bbox with
      | none => none
      | some bbox =>
          let yStart := min (asUsize (max ⌊bbox.minY⌋ 0)) (rows - 1)
          let yEnd := min (asUsize ⌈bbox.maxY⌉) rows
          let ys := List.range' yStart (yEnd - yStart)
          if ys.any fun y => (rowSpans ring y).any endOverflows then none
          else
            (paint out (ys.flatMap fun y => (rowSpans ring y).flatMap fun s =>
              (spanColumns cols s).map fun x => y * cols + x)).map .ok

/-- The edge crosses the line; the lower end is on it, the upper one is not. -/
def crosses (py : ℚ) (e : Edge) : Bool :=
  decide (min e.1.2 e.2.2 ≤ py) && decide (py < max e.1.2 e.2.2)

/-- A ray to the right of the point crosses an odd number of edges. -/
def Inside (ring : PolygonRing) (px py : ℚ) : Prop :=
  Odd ((closedPairs ring.vertices).countP fun e =>
    crosses py e && decide (px < crossingX py e))

/-- A pixel is set if and only if its centre is inside the ring. -/
structure Exact (ring : PolygonRing) (rows cols : Nat) (mask : List Nat) : Prop where
  length : mask.length = rows * cols
  binary : ∀ v ∈ mask, v = 0 ∨ v = 1
  set_iff : ∀ y < rows, ∀ x < cols,
    mask[y * cols + x]? = some 1 ↔ Inside ring (x + 1 / 2) (y + 1 / 2)

/-- An edge that is too low to be looked at. -/
def flat (e : Edge) : Bool := decide (|e.2.2 - e.1.2| < EPSILON)

/-- The edges that cross the line, without the flat ones. -/
def tallCrossings (ring : PolygonRing) (py : ℚ) : List ℚ :=
  ((closedPairs ring.vertices).filter fun e => crosses py e && !flat e).map (crossingX py)

/-- What is drawn: an odd number of edges crosses left of the centre, another one right of it,
and none in the left half of the pixel. -/
def Drawn (ring : PolygonRing) (x : ℚ) (py : ℚ) : Prop :=
  Odd ((tallCrossings ring py).countP (· ≤ x + 1 / 2)) ∧
    (∃ c ∈ tallCrossings ring py, x + 1 / 2 < c) ∧
      ∀ c ∈ tallCrossings ring py, c ≤ x + 1 / 2 → c ≤ x

/-- No flat edge crosses the line. -/
def NoFlatEdge (ring : PolygonRing) (py : ℚ) : Prop :=
  ∀ e ∈ closedPairs ring.vertices, crosses py e = true → flat e = false

/-- No edge crosses in the left half of a pixel whose centre is inside; where flat edges are
left out, the others draw the pixel as all would. -/
def Undisturbed (ring : PolygonRing) (x : ℚ) (py : ℚ) : Prop :=
  (NoFlatEdge ring py → Inside ring (x + 1 / 2) py →
    ∀ e ∈ closedPairs ring.vertices, crosses py e = true →
      ¬ (x < crossingX py e ∧ crossingX py e ≤ x + 1 / 2)) ∧
  (¬ NoFlatEdge ring py → (Inside ring (x + 1 / 2) py ↔ Drawn ring x py))

/-- More edges cross at or beyond the end of `usize` than the one that stays without a pair. -/
def Overflows (ring : PolygonRing) (py : ℚ) : Prop :=
  (tallCrossings ring py).length % 2 < (tallCrossings ring py).countP (2 ^ 64 - 1 ≤ ·)

section Rows

variable {ring : PolygonRing} {py : ℚ}

theorem crosses_iff {e : Edge} :
    crosses py e = true ↔ min e.1.2 e.2.2 ≤ py ∧ py < max e.1.2 e.2.2 := by
  simp [crosses]

theorem crossing_eq (e : Edge) :
    crossing py e = if crosses py e && !flat e then some (crossingX py e) else none := by
  have hends : (if e.1.2 < e.2.2 then (e.1.2, e.2.2) else (e.2.2, e.1.2)) =
      (min e.1.2 e.2.2, max e.1.2 e.2.2) := by
    split
    case isTrue h =>
      rw [min_eq_left h.le, max_eq_right h.le]
    case isFalse h =>
      rw [min_eq_right (not_lt.mp h), max_eq_left (not_lt.mp h)]
  rw [crossing, hends]
  by_cases hcross : crosses py e = true
  case pos =>
    have hends := crosses_iff.mp hcross
    rw [hcross, Bool.true_and]
    simp only [if_neg (not_or.mpr ⟨not_lt.mpr hends.1, not_le.mpr hends.2⟩)]
    by_cases hflat : |e.2.2 - e.1.2| < EPSILON
    · simp [flat, hflat]
    · simp [flat, hflat]
  case neg =>
    have hout : py < min e.1.2 e.2.2 ∨ py ≥ max e.1.2 e.2.2 := by
      rw [crosses_iff, not_and_or, not_le, not_lt] at hcross
      exact hcross
    simp only [if_pos hout]
    rw [Bool.not_eq_true] at hcross
    simp [hcross]

theorem filterMap_crossing (ring : PolygonRing) (py : ℚ) :
    (closedPairs ring.vertices).filterMap (crossing py) = tallCrossings ring py := by
  rw [tallCrossings, ← List.filterMap_eq_map, List.filterMap_filter]
  exact List.filterMap_congr fun e _ => crossing_eq e

/-- A span covers a pixel where it is drawn. -/
theorem exists_rowSpan_iff (ring : PolygonRing) (y : Nat) (x : ℚ) :
    (∃ s ∈ rowSpans ring y, (s.1 ≤ x + 1 / 2 ∧ x + 1 / 2 < s.2) ∧ s.1 ≤ x) ↔
      Drawn ring x (y + 1 / 2) := by
  have hperm := List.perm_insertionSort (· ≤ ·) (tallCrossings ring (y + 1 / 2))
  rw [rowSpans, filterMap_crossing, exists_span_iff (List.pairwise_insertionSort _ _), Drawn,
    hperm.countP_eq]
  simp only [hperm.mem_iff]

theorem exists_overflow_iff (ring : PolygonRing) (y : Nat) :
    (rowSpans ring y).any endOverflows = true ↔ Overflows ring (y + 1 / 2) := by
  have hperm := List.perm_insertionSort (· ≤ ·) (tallCrossings ring (y + 1 / 2))
  have hends : ∀ s : ℚ × ℚ, endOverflows s = true ↔ 2 ^ 64 - 1 ≤ s.2 := by
    intro s
    rw [endOverflows, decide_eq_true_eq, asUsize]
    have hfloor : (2 ^ 64 - 1 : ℤ) ≤ ⌊s.2⌋ ↔ (2 ^ 64 - 1 : ℚ) ≤ s.2 := by
      rw [Int.le_floor]
      norm_num
    rw [← hfloor]
    omega
  rw [List.any_eq_true, rowSpans, filterMap_crossing, Overflows, ← hperm.length_eq,
    ← hperm.countP_eq, ← exists_span_ge_iff (List.pairwise_insertionSort _ _)]
  exact exists_congr fun s => and_congr_right fun _ => hends s

/-- A closed line crosses a straight one an even number of times. -/
theorem even_crosses (ring : PolygonRing) (py : ℚ) :
    Even ((closedPairs ring.vertices).countP (crosses py)) := by
  have hside : ∀ e : Edge, crosses py e = (decide (e.1.2 ≤ py) != decide (e.2.2 ≤ py)) := by
    intro e
    rw [Bool.eq_iff_iff, crosses_iff, min_le_iff, lt_max_iff, bne_iff_ne, Ne, decide_eq_decide,
      ← not_le, ← not_le]
    tauto
  rw [funext hside]
  exact even_sideChanges (fun v : ℚ × ℚ => decide (v.2 ≤ py)) ring.vertices

theorem countP_tallCrossings (hflat : NoFlatEdge ring py) (q : ℚ → Bool) :
    (tallCrossings ring py).countP q =
      (closedPairs ring.vertices).countP fun e => crosses py e && q (crossingX py e) := by
  rw [tallCrossings, List.countP_map, List.countP_filter]
  refine List.countP_congr fun e he => ?_
  by_cases hcross : crosses py e = true
  · simp [hcross, hflat e he hcross]
  · simp [hcross]

/-- Without flat edges an odd number of crossings to the left means being inside. -/
theorem odd_left_iff_inside (hflat : NoFlatEdge ring py) (px : ℚ) :
    Odd ((tallCrossings ring py).countP (· ≤ px)) ↔ Inside ring px py := by
  have htotal : (tallCrossings ring py).length =
      (tallCrossings ring py).countP (· ≤ px) + (tallCrossings ring py).countP (px < ·) := by
    rw [List.length_eq_countP_add_countP (fun c => decide (c ≤ px))]
    congr 1
    exact List.countP_congr fun c _ => by simp
  have heven : Even (tallCrossings ring py).length := by
    have h := even_crosses ring py
    have hcount := countP_tallCrossings hflat fun _ => true
    simp only [Bool.and_true, List.countP_true] at hcount
    rwa [hcount]
  rw [Inside, ← countP_tallCrossings hflat fun c => decide (px < c)]
  rw [htotal, Nat.even_add, ← Nat.not_odd_iff_even, ← Nat.not_odd_iff_even] at heven
  exact not_iff_not.mp heven

theorem mem_tallCrossings (hflat : NoFlatEdge ring py) {c : ℚ} :
    c ∈ tallCrossings ring py ↔
      ∃ e ∈ closedPairs ring.vertices, crosses py e = true ∧ crossingX py e = c := by
  simp only [tallCrossings, List.mem_map, List.mem_filter, Bool.and_eq_true, Bool.not_eq_true']
  constructor
  · rintro ⟨e, ⟨he, hcross, -⟩, rfl⟩
    exact ⟨e, he, hcross, rfl⟩
  · rintro ⟨e, he, hcross, rfl⟩
    exact ⟨e, ⟨he, hcross, hflat e he hcross⟩, rfl⟩

theorem drawn_iff_of_noFlatEdge (hflat : NoFlatEdge ring py) (x : ℚ) :
    Drawn ring x py ↔ Inside ring (x + 1 / 2) py ∧
      ∀ e ∈ closedPairs ring.vertices, crosses py e = true →
        ¬ (x < crossingX py e ∧ crossingX py e ≤ x + 1 / 2) := by
  have hleft : (∀ c ∈ tallCrossings ring py, c ≤ x + 1 / 2 → c ≤ x) ↔
      ∀ e ∈ closedPairs ring.vertices, crosses py e = true →
        ¬ (x < crossingX py e ∧ crossingX py e ≤ x + 1 / 2) := by
    constructor
    · intro h e he hcross hin
      have hle := h _ ((mem_tallCrossings hflat).mpr ⟨e, he, hcross, rfl⟩) hin.2
      exact absurd hin.1 (not_lt_of_ge hle)
    · intro h c hc hle
      obtain ⟨e, he, hcross, rfl⟩ := (mem_tallCrossings hflat).mp hc
      by_contra hgt
      exact h e he hcross ⟨lt_of_not_ge hgt, hle⟩
  rw [Drawn, odd_left_iff_inside hflat, hleft]
  refine and_congr_right fun hinside => and_iff_right ?_
  -- An odd number to the right is not zero.
  obtain ⟨k, hk⟩ := hinside
  obtain ⟨e, he, hright⟩ := List.countP_pos_iff.mp (show 0 < _ by rw [hk]; omega)
  obtain ⟨hcross, hlt⟩ := Bool.and_eq_true_iff.mp hright
  exact ⟨_, (mem_tallCrossings hflat).mpr ⟨e, he, hcross, rfl⟩, of_decide_eq_true hlt⟩

/-- The condition says that what is drawn is what is inside. -/
theorem undisturbed_iff (ring : PolygonRing) (x py : ℚ) :
    Undisturbed ring x py ↔ (Inside ring (x + 1 / 2) py ↔ Drawn ring x py) := by
  rw [Undisturbed]
  by_cases hflat : NoFlatEdge ring py
  case pos =>
    rw [drawn_iff_of_noFlatEdge hflat]
    exact ⟨fun h => ⟨fun hin => ⟨hin, h.1 hflat hin⟩, And.left⟩,
      fun h => ⟨fun _ hin => (h.mp hin).2, fun hnot => absurd hflat hnot⟩⟩
  case neg =>
    exact ⟨fun h => h.2 hflat, fun h => ⟨fun hf => absurd hf hflat, fun _ => h⟩⟩

end Rows

section Grid

variable {ring : PolygonRing} {rows cols : Nat}

theorem growBox_minY_le (b : Box ℚ) (p : ℚ × ℚ) :
    (growBox b p).minY ≤ b.minY ∧ (growBox b p).minY ≤ p.2 := by
  simp only [growBox]
  split
  case isTrue h =>
    exact ⟨h.le, le_refl _⟩
  case isFalse h =>
    exact ⟨le_refl _, not_lt.mp h⟩

theorem le_growBox_maxY (b : Box ℚ) (p : ℚ × ℚ) :
    b.maxY ≤ (growBox b p).maxY ∧ p.2 ≤ (growBox b p).maxY := by
  simp only [growBox]
  split
  case isTrue h =>
    exact ⟨h.le, le_refl _⟩
  case isFalse h =>
    exact ⟨le_refl _, not_lt.mp h⟩

theorem foldl_growBox (ps : List (ℚ × ℚ)) (b : Box ℚ) :
    ((ps.foldl growBox b).minY ≤ b.minY ∧ b.maxY ≤ (ps.foldl growBox b).maxY) ∧
      ∀ p ∈ ps, (ps.foldl growBox b).minY ≤ p.2 ∧ p.2 ≤ (ps.foldl growBox b).maxY := by
  induction ps generalizing b with
  | nil =>
      exact ⟨⟨le_refl _, le_refl _⟩, fun _ hp => absurd hp List.not_mem_nil⟩
  | cons q ps ih =>
      obtain ⟨⟨hmin, hmax⟩, hall⟩ := ih (growBox b q)
      have hlow := growBox_minY_le b q
      have hhigh := le_growBox_maxY b q
      rw [List.foldl_cons]
      exact ⟨⟨hmin.trans hlow.1, hhigh.1.trans hmax⟩,
        List.forall_mem_cons.mpr ⟨⟨hmin.trans hlow.2, hhigh.2.trans hmax⟩, hall⟩⟩

/-- The box reaches from the lowest vertex to the highest. -/
theorem bbox_bounds {b : Box ℚ} (h : ring.bbox = some b) :
    ∀ p ∈ ring.vertices, b.minY ≤ p.2 ∧ p.2 ≤ b.maxY := by
  rw [PolygonRing.bbox] at h
  split at h
  case h_1 =>
    cases h
  case h_2 x y rest heq =>
    cases h
    obtain ⟨⟨hmin, hmax⟩, hall⟩ := foldl_growBox rest ⟨x, y, x, y⟩
    rw [heq]
    exact List.forall_mem_cons.mpr ⟨⟨hmin, hmax⟩, hall⟩

theorem mem_of_mem_closedPairs {α : Type} {l : List α} {e : α × α} (h : e ∈ closedPairs l) :
    e.1 ∈ l ∧ e.2 ∈ l := by
  obtain ⟨h₁, h₂⟩ := List.of_mem_zip (show (e.1, e.2) ∈ l.zip (l.rotate 1) from h)
  exact ⟨h₁, List.mem_rotate.mp h₂⟩

/-- The loop visits every row that an edge crosses. -/
theorem row_of_crosses {b : Box ℚ} (hb : ring.bbox = some b) {y : Nat} (hy : y < rows)
    (hrows : rows < 2 ^ 64) {e : Edge} (he : e ∈ closedPairs ring.vertices)
    (hcross : crosses (y + 1 / 2) e = true) :
    min (asUsize (max ⌊b.minY⌋ 0)) (rows - 1) ≤ y ∧ y < min (asUsize ⌈b.maxY⌉) rows := by
  have hmem := mem_of_mem_closedPairs he
  have h₁ := bbox_bounds hb _ hmem.1
  have h₂ := bbox_bounds hb _ hmem.2
  obtain ⟨hlow, hhigh⟩ := crosses_iff.mp hcross
  have hmin : b.minY ≤ y + 1 / 2 := (le_min h₁.1 h₂.1).trans hlow
  have hmax : (y : ℚ) + 1 / 2 < b.maxY := hhigh.trans_le (max_le h₁.2 h₂.2)
  have hfloor : ⌊b.minY⌋ ≤ (y : ℤ) := by
    have hlt : ⌊b.minY⌋ < (y : ℤ) + 1 := by
      rw [Int.floor_lt]
      push_cast
      linarith
    omega
  have hceil : (y : ℤ) < ⌈b.maxY⌉ := by
    rw [Int.lt_ceil]
    push_cast
    linarith
  rw [asUsize, asUsize]
  omega

/-- The columns that are set for a span. -/
theorem mem_spanColumns {s : ℚ × ℚ} (hcols : cols < 2 ^ 64) (hend : endOverflows s = false)
    {x : Nat} : x ∈ spanColumns cols s ↔
      x < cols ∧ ((s.1 ≤ (x : ℚ) + 1 / 2 ∧ (x : ℚ) + 1 / 2 < s.2) ∧ s.1 ≤ x) := by
  have hceil : ⌈s.1⌉ ≤ (x : ℤ) ↔ s.1 ≤ x := by
    rw [Int.ceil_le]
    norm_cast
  have hfloor : (x : ℚ) + 1 / 2 < s.2 → (x : ℤ) ≤ ⌊s.2⌋ := by
    intro h
    rw [Int.le_floor]
    push_cast
    linarith
  rw [endOverflows, decide_eq_false_iff_not, asUsize] at hend
  simp only [spanColumns, asUsize, List.mem_filter, List.mem_range'_1, Bool.and_eq_true,
    decide_eq_true_eq, ← hceil]
  constructor
  · rintro ⟨hrange, hcentre⟩
    have := hfloor hcentre.2
    exact ⟨by omega, hcentre, by omega⟩
  · rintro ⟨hx, hcentre, hstart⟩
    have := hfloor hcentre.2
    exact ⟨by omega, hcentre⟩

/-- Painting succeeds within the output and sets what it names. -/
theorem paint_eq_some {out is : List Nat} (h : ∀ i ∈ is, i < out.length) :
    ∃ mask, paint out is = some mask ∧ mask.length = out.length ∧
      ∀ k : Nat, mask[k]? = if k ∈ is then some 1 else out[k]? := by
  induction is generalizing out with
  | nil =>
      exact ⟨out, rfl, rfl, fun k => by simp⟩
  | cons i is ih =>
      obtain ⟨hi, his⟩ := List.forall_mem_cons.mp h
      have hset : ∀ j ∈ is, j < (out.set i 1).length := by simpa using his
      obtain ⟨mask, hmask, hlen, hget⟩ := ih hset
      refine ⟨mask, by rw [paint, if_pos hi, hmask], by rw [hlen, List.length_set], fun k => ?_⟩
      rw [hget, List.getElem?_set]
      by_cases hk : k ∈ is
      · rw [if_pos hk, if_pos (List.mem_cons_of_mem i hk)]
      · by_cases hik : i = k
        · subst hik
          simp [hi]
        · simp [hk, hik, Ne.symm hik]

/-- The indices that are written, one row after the other. -/
def writes (ring : PolygonRing) (cols : Nat) (ys : List Nat) : List Nat :=
  ys.flatMap fun y => (rowSpans ring y).flatMap fun s => (spanColumns cols s).map fun x => y * cols + x

/-- An index is written for the pixel that it stands for. -/
theorem mem_writes (hcols : cols < 2 ^ 64) {ys : List Nat}
    (hends : ∀ y ∈ ys, ∀ s ∈ rowSpans ring y, endOverflows s = false) {y x : Nat} (hx : x < cols) :
    y * cols + x ∈ writes ring cols ys ↔ y ∈ ys ∧ Drawn ring x (y + 1 / 2) := by
  simp only [writes, List.mem_flatMap, List.mem_map]
  constructor
  · rintro ⟨y', hy', s, hs, x', hx', heq⟩
    obtain ⟨hlt, hcentre⟩ := (mem_spanColumns hcols (hends y' hy' s hs)).mp hx'
    have hpos : 0 < cols := Nat.lt_of_le_of_lt (Nat.zero_le x) hx
    have hrow : y' = y := by
      have hdiv := congrArg (· / cols) heq
      simpa [Nat.mul_add_div hpos, Nat.mul_comm _ cols, Nat.div_eq_of_lt hlt,
        Nat.div_eq_of_lt hx] using hdiv
    subst hrow
    obtain rfl : x' = x := Nat.add_left_cancel heq
    exact ⟨hy', (exists_rowSpan_iff ring y' x').mp ⟨s, hs, hcentre⟩⟩
  · rintro ⟨hy, hdrawn⟩
    obtain ⟨s, hs, hcentre⟩ := (exists_rowSpan_iff ring y x).mpr hdrawn
    exact ⟨y, hy, s, hs, x, (mem_spanColumns hcols (hends y hy s hs)).mpr ⟨hx, hcentre⟩, rfl⟩

theorem writes_lt (hcols : cols < 2 ^ 64) {ys : List Nat} (hys : ∀ y ∈ ys, y < rows)
    (hends : ∀ y ∈ ys, ∀ s ∈ rowSpans ring y, endOverflows s = false) :
    ∀ i ∈ writes ring cols ys, i < rows * cols := by
  simp only [writes, List.mem_flatMap, List.mem_map]
  rintro i ⟨y, hy, s, hs, x, hx, rfl⟩
  have hlt := ((mem_spanColumns hcols (hends y hy s hs)).mp hx).1
  calc y * cols + x < y * cols + cols := Nat.add_lt_add_left hlt _
    _ = (y + 1) * cols := by rw [Nat.succ_mul]
    _ ≤ rows * cols := Nat.mul_le_mul_right cols (hys y hy)

/-- The rows that the loop visits. -/
def visited (b : Box ℚ) (rows : Nat) : List Nat :=
  let yStart := min (asUsize (max ⌊b.minY⌋ 0)) (rows - 1)
  List.range' yStart (min (asUsize ⌈b.maxY⌉) rows - yStart)

theorem lt_of_mem_visited {b : Box ℚ} {y : Nat} (h : y ∈ visited b rows) : y < rows := by
  rw [visited, List.mem_range'_1] at h
  omega

/-- Nothing is drawn in a row that is not visited. -/
theorem mem_visited {b : Box ℚ} (hb : ring.bbox = some b) (hrows : rows < 2 ^ 64) {y : Nat}
    (hy : y < rows) (h : tallCrossings ring (y + 1 / 2) ≠ []) : y ∈ visited b rows := by
  obtain ⟨c, hc⟩ := List.exists_mem_of_ne_nil _ h
  obtain ⟨e, he, -⟩ := List.mem_map.mp hc
  obtain ⟨he, hcross⟩ := List.mem_filter.mp he
  have hrow := row_of_crosses hb hy hrows he (Bool.and_eq_true_iff.mp hcross).1
  rw [visited, List.mem_range'_1]
  omega

theorem mem_visited_of_drawn {b : Box ℚ} (hb : ring.bbox = some b) (hrows : rows < 2 ^ 64)
    {y : Nat} {x : ℚ} (hy : y < rows) (h : Drawn ring x (y + 1 / 2)) : y ∈ visited b rows := by
  obtain ⟨-, ⟨c, hc, -⟩, -⟩ := h
  exact mem_visited hb hrows hy (List.ne_nil_of_mem hc)

theorem mem_visited_of_overflows {b : Box ℚ} (hb : ring.bbox = some b) (hrows : rows < 2 ^ 64)
    {y : Nat} (hy : y < rows) (h : Overflows ring (y + 1 / 2)) : y ∈ visited b rows := by
  refine mem_visited hb hrows hy fun hnil => ?_
  rw [Overflows, hnil] at h
  exact absurd h (by simp)

/-- On a grid that has pixels the rasteriser either panics or paints what is drawn. -/
theorem rasterise_eq {b : Box ℚ} (hb : ring.bbox = some b) (hvalid : 3 ≤ ring.vertices.length)
    (hsize : rows * cols < 2 ^ 64) (hpixels : ¬ (rows = 0 ∨ cols = 0)) :
    rasterise ring rows cols =
      if (visited b rows).any fun y => (rowSpans ring y).any endOverflows then none
      else
        (paint (List.replicate (rows * cols) 0) (writes ring cols (visited b rows))).map .ok := by
  have hring : (!ring.isValid) = false := by
    rw [PolygonRing.isValid, decide_eq_true hvalid, Bool.not_true]
  simp only [rasterise, hring, Bool.false_eq_true, if_false, if_neg (Nat.not_le_of_lt hsize),
    if_neg hpixels, hb]
  rfl

theorem bbox_isSome (hvalid : 3 ≤ ring.vertices.length) : ∃ b, ring.bbox = some b := by
  rw [PolygonRing.bbox]
  split
  case h_1 heq =>
    rw [heq] at hvalid
    cases hvalid
  case h_2 =>
    exact ⟨_, rfl⟩

/-- What is painted, is exact if what is drawn is what is inside. -/
theorem exact_of_painted {b : Box ℚ} (hb : ring.bbox = some b) (hrows : rows < 2 ^ 64)
    (hcols : cols < 2 ^ 64)
    (hends : ∀ y ∈ visited b rows, ∀ s ∈ rowSpans ring y, endOverflows s = false) :
    ∃ mask, paint (List.replicate (rows * cols) 0) (writes ring cols (visited b rows)) = some mask ∧
      (Exact ring rows cols mask ↔ ∀ y < rows, ∀ x < cols, Undisturbed ring x (y + 1 / 2)) := by
  have hlt : ∀ i ∈ writes ring cols (visited b rows),
      i < (List.replicate (rows * cols) 0).length := by
    rw [List.length_replicate]
    exact writes_lt hcols (fun y => lt_of_mem_visited) hends
  obtain ⟨mask, hmask, hlen, hget⟩ := paint_eq_some hlt
  rw [List.length_replicate] at hlen
  have hset : ∀ y < rows, ∀ x < cols, mask[y * cols + x]? = some 1 ↔ Drawn ring x (y + 1 / 2) := by
    intro y hy x hx
    have hmem : y * cols + x ∈ writes ring cols (visited b rows) ↔ _ := mem_writes hcols hends hx
    rw [and_iff_right_of_imp (mem_visited_of_drawn hb hrows hy)] at hmem
    rw [hget, ← hmem, List.getElem?_replicate]
    split_ifs <;> simp_all
  refine ⟨mask, hmask, fun h y hy x hx => ?_, fun h => ⟨hlen, ?_, fun y hy x hx => ?_⟩⟩
  · rw [undisturbed_iff, ← hset y hy x hx, h.set_iff y hy x hx]
  · intro v hv
    obtain ⟨k, hk⟩ := List.mem_iff_getElem?.mp hv
    rw [hget, List.getElem?_replicate] at hk
    split_ifs at hk with hwritten hlt
    · exact .inr (Option.some.inj hk).symm
    · exact .inl (Option.some.inj hk).symm
  · rw [hset y hy x hx]
    exact ((undisturbed_iff ring x _).mp (h y hy x hx)).symm

end Grid

/-- The mask is exact if no end of a span overflows and nothing disturbs a pixel.  A mask whose
length is a number of 64 bits is taken to fit into the memory. -/
theorem rasterise_exact_iff (ring : PolygonRing) (rows cols : Nat)
    (hvalid : 3 ≤ ring.vertices.length) (hrows : rows < 2 ^ 64) (hcols : cols < 2 ^ 64) :
    (∃ mask, rasterise ring rows cols = some (.ok mask) ∧ Exact ring rows cols mask) ↔
      rows * cols < 2 ^ 64 ∧ ∀ y < rows, ∀ x < cols,
        ¬ Overflows ring (y + 1 / 2) ∧ Undisturbed ring x (y + 1 / 2) := by
  by_cases hsize : rows * cols < 2 ^ 64
  case neg =>
    refine iff_of_false ?_ fun h => hsize h.1
    rintro ⟨mask, hmask, -⟩
    rw [rasterise, if_neg (by simp [PolygonRing.isValid, hvalid]),
      if_pos (Nat.le_of_not_lt hsize)] at hmask
    cases hmask
  case pos =>
    rw [and_iff_right hsize]
    by_cases hpixels : rows = 0 ∨ cols = 0
    case pos =>
      have hnone : ∀ y < rows, ∀ x < cols, False := by omega
      refine iff_of_true ⟨List.replicate (rows * cols) 0, ?_, ?_⟩ fun y hy x hx =>
        (hnone y hy x hx).elim
      · rw [rasterise, if_neg (by simp [PolygonRing.isValid, hvalid]),
          if_neg (Nat.not_le_of_lt hsize)]
        exact if_pos hpixels
      · exact ⟨List.length_replicate, fun v hv => .inl (List.eq_of_mem_replicate hv),
          fun y hy x hx => (hnone y hy x hx).elim⟩
    case neg =>
      obtain ⟨b, hb⟩ := bbox_isSome hvalid
      rw [rasterise_eq hb hvalid hsize hpixels]
      by_cases hover : (visited b rows).any (fun y => (rowSpans ring y).any endOverflows) = true
      case pos =>
        rw [if_pos hover]
        refine iff_of_false (by simp) fun h => ?_
        obtain ⟨y, hy, hspan⟩ := List.any_eq_true.mp hover
        exact (h y (lt_of_mem_visited hy) 0 (by omega)).1 ((exists_overflow_iff ring y).mp hspan)
      case neg =>
        have hends : ∀ y ∈ visited b rows, ∀ s ∈ rowSpans ring y, endOverflows s = false := by
          intro y hy s hs
          by_contra hend
          exact hover (List.any_eq_true.mpr
            ⟨y, hy, List.any_eq_true.mpr ⟨s, hs, by simpa using hend⟩⟩)
        have hnever : ∀ y < rows, ¬ Overflows ring (y + 1 / 2) := by
          intro y hy h
          have hvisited := mem_visited_of_overflows hb hrows hy h
          exact hover (List.any_eq_true.mpr
            ⟨y, hvisited, (exists_overflow_iff ring y).mpr h⟩)
        obtain ⟨mask, hmask, hexact⟩ := exact_of_painted hb hrows hcols hends
        rw [if_neg hover, hmask]
        constructor
        · rintro ⟨mask', hmask', h⟩
          cases hmask'
          exact fun y hy x hx => ⟨hnever y hy, hexact.mp h y hy x hx⟩
        · exact fun h => ⟨mask, rfl, hexact.mpr fun y hy x hx => (h y hy x hx).2⟩

/-- A rectangle with its corners in the grid. -/
theorem rasterise_exact_iff_sample :
    (∃ mask, rasterise ⟨[(1, 1), (4, 1), (4, 4), (1, 4)]⟩ 5 6 = some (.ok mask) ∧
        Exact ⟨[(1, 1), (4, 1), (4, 4), (1, 4)]⟩ 5 6 mask) ↔
      5 * 6 < 2 ^ 64 ∧ ∀ y < (5 : Nat), ∀ x < (6 : Nat),
        ¬ Overflows ⟨[(1, 1), (4, 1), (4, 4), (1, 4)]⟩ (y + 1 / 2) ∧
          Undisturbed ⟨[(1, 1), (4, 1), (4, 4), (1, 4)]⟩ x (y + 1 / 2) :=
  rasterise_exact_iff ⟨[(1, 1), (4, 1), (4, 4), (1, 4)]⟩ 5 6 (by decide) (by decide) (by decide)

/-- An edge in the left half of the first pixel loses it, though its centre is inside. -/
theorem leftHalf_lost :
    rasterise ⟨[(1 / 4, 0), (2, 0), (2, 1), (1 / 4, 1)]⟩ 1 2 = some (.ok [0, 1]) ∧
      Inside ⟨[(1 / 4, 0), (2, 0), (2, 1), (1 / 4, 1)]⟩ (1 / 2) (1 / 2) := by
  refine ⟨by decide +kernel, ?_⟩
  rw [Inside]
  decide +kernel

end EoVector
end OrbitOpenEO
