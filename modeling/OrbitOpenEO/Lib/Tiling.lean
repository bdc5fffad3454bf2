import Mathlib.Tactic.Common
import Mathlib.Data.Nat.Init
import Mathlib.Data.List.Basic

/-!
# Segments that cover a range

A loop over a range in steps gives segments; the last one may be shorter.  A
list of segments tiles `[0, n)` if it covers every number below `n` exactly once
and no other.  The segments of the loop do (`chunks_tile`), and pairs of segments
tile a rectangle as soon as the segments tile its sides (`coverCount_product`).
-/

namespace OrbitOpenEO
namespace Lib

/-- Consecutive numbers: the first one and how many. -/
structure Segment where
  start : Nat
  length : Nat
deriving DecidableEq

/-- The number lies in the segment. -/
def Segment.covers (s : Segment) (x : Nat) : Bool :=
  decide (s.start ≤ x) && decide (x < s.start + s.length)

@[simp] theorem Segment.covers_iff {s : Segment} {x : Nat} :
    s.covers x = true ↔ s.start ≤ x ∧ x < s.start + s.length := by
  simp [Segment.covers]

/-- How many segments a number lies in. -/
def coverCount (segments : List Segment) (x : Nat) : Nat :=
  segments.countP (fun s => s.covers x)

/-- Every number below `n` lies in one segment, and no other number lies in one. -/
def Tiles (segments : List Segment) (n : Nat) : Prop :=
  ∀ x, coverCount segments x = if x < n then 1 else 0

/-- `while start < total { ..; start += step }`, as long as the fuel lasts. -/
def chunksFrom (total step : Nat) : Nat → Nat → Option (List Segment)
  | fuel, start =>
      if start < total then
        match fuel with
        | 0 => none
        | fuel + 1 =>
            (chunksFrom total step fuel (start + step)).map
              (⟨start, min step (total - start)⟩ :: ·)
      else some []

/-- The segments of the loop from `0`; `none` if it does not end. -/
def chunks (total step : Nat) : Option (List Segment) := chunksFrom total step total 0

variable {total step : Nat}

/-- A loop that makes no progress ends only if there is nothing to do. -/
theorem chunksFrom_zero_step :
    ∀ {fuel start : Nat} {l : List Segment}, chunksFrom total 0 fuel start = some l →
      total ≤ start
  | 0, start, l, h => by
      unfold chunksFrom at h
      split at h
      · cases h
      · omega
  | fuel + 1, start, l, h => by
      unfold chunksFrom at h
      split at h
      · obtain ⟨l', hl', _⟩ := Option.map_eq_some_iff.mp h
        exact chunksFrom_zero_step hl'
      · omega

/-- The loop that ends over something makes progress. -/
theorem pos_of_chunks {l : List Segment} (h : chunks total step = some l) (htotal : 0 < total) :
    0 < step := by
  rcases Nat.eq_zero_or_pos step with rfl | hstep
  · have := chunksFrom_zero_step h
    omega
  · exact hstep

/-- The segments start at the multiples of the step. -/
theorem mem_chunksFrom_iff :
    ∀ {fuel start : Nat} {l : List Segment}, chunksFrom total step fuel start = some l →
      ∀ s, s ∈ l ↔ ∃ i, s.start = start + i * step ∧ s.start < total ∧
        (∀ j ≤ i, start + j * step < total) ∧ s.length = min step (total - s.start)
  | 0, start, l, h, s => by
      unfold chunksFrom at h
      split at h
      · cases h
      · rename_i hge
        cases h
        simp only [List.not_mem_nil, false_iff, not_exists]
        rintro i ⟨_, _, hj, _⟩
        have := hj 0 (by omega)
        omega
  | fuel + 1, start, l, h, s => by
      unfold chunksFrom at h
      split at h
      · rename_i hlt
        obtain ⟨l', hl', rfl⟩ := Option.map_eq_some_iff.mp h
        rw [List.mem_cons, mem_chunksFrom_iff hl' s]
        constructor
        · rintro (rfl | ⟨i, hstart, hs, hall, hlen⟩)
          · exact ⟨0, by simp, hlt, fun j hj => by simpa [Nat.le_zero.mp hj] using hlt, rfl⟩
          · refine ⟨i + 1, by rw [hstart, Nat.add_mul]; omega, hs, ?_, hlen⟩
            intro j hj
            cases j with
            | zero =>
                simpa using hlt
            | succ j =>
                have := hall j (by omega)
                rw [Nat.add_mul]
                omega
        · rintro ⟨i, hstart, hs, hall, hlen⟩
          cases i with
          | zero =>
              left
              cases s
              simp_all
          | succ i =>
              right
              refine ⟨i, by rw [hstart, Nat.add_mul]; omega, hs, ?_, hlen⟩
              intro j hj
              have := hall (j + 1) (by omega)
              rw [Nat.add_mul] at this
              omega
      · rename_i hge
        cases h
        simp only [List.not_mem_nil, false_iff, not_exists]
        rintro i ⟨_, _, hj, _⟩
        have := hj 0 (by omega)
        omega

/-- The segments of the loop: a multiple of the step, up to the next one or the end. -/
theorem mem_chunks_iff {l : List Segment} (h : chunks total step = some l) (s : Segment) :
    s ∈ l ↔ ∃ i, s.start = i * step ∧ s.start < total ∧ s.length = min step (total - s.start) := by
  rw [mem_chunksFrom_iff h s]
  constructor
  · rintro ⟨i, hstart, hs, _, hlen⟩
    exact ⟨i, by omega, hs, hlen⟩
  · rintro ⟨i, hstart, hs, hlen⟩
    refine ⟨i, by omega, hs, ?_, hlen⟩
    intro j hj
    have := Nat.mul_le_mul_right step hj
    omega

/-- A loop over something begins at `0`. -/
theorem exists_start_zero {l : List Segment} (h : chunks total step = some l)
    (htotal : 0 < total) : ∃ s ∈ l, s.start = 0 :=
  ⟨⟨0, min step total⟩, (mem_chunks_iff h _).mpr ⟨0, by simp, htotal, by simp⟩, rfl⟩

/-- It has a second round exactly if one step does not reach the end. -/
theorem forall_start_zero_iff {l : List Segment} (h : chunks total step = some l)
    (htotal : 0 < total) : (∀ s ∈ l, s.start = 0) ↔ total ≤ step := by
  have hstep := pos_of_chunks h htotal
  constructor
  · intro hall
    by_contra hlt
    have hsecond : (⟨step, min step (total - step)⟩ : Segment) ∈ l :=
      (mem_chunks_iff h _).mpr ⟨1, by simp, by simp only; omega, rfl⟩
    have := hall _ hsecond
    simp only at this
    omega
  · intro hle s hs
    obtain ⟨i, hi, hstart, _⟩ := (mem_chunks_iff h s).mp hs
    rcases Nat.eq_zero_or_pos i with rfl | hpos
    · simpa using hi
    · have := Nat.mul_le_mul_right step hpos
      omega

/-- Each segment starts behind the ones before it. -/
theorem chunksFrom_pairwise (hstep : 0 < step) :
    ∀ {fuel start : Nat} {l : List Segment}, chunksFrom total step fuel start = some l →
      l.Pairwise (fun s t => s.start + s.length ≤ t.start)
  | 0, start, l, h => by
      unfold chunksFrom at h
      split at h
      · cases h
      · cases h
        exact .nil
  | fuel + 1, start, l, h => by
      unfold chunksFrom at h
      split at h
      · obtain ⟨l', hl', rfl⟩ := Option.map_eq_some_iff.mp h
        refine List.pairwise_cons.mpr ⟨?_, chunksFrom_pairwise hstep hl'⟩
        intro t ht
        obtain ⟨i, hi, _⟩ := (mem_chunksFrom_iff hl' t).mp ht
        have : min step (total - start) ≤ step := Nat.min_le_left _ _
        rw [hi]
        simp only
        omega
      · cases h
        exact .nil

/-- Segments one behind the other: a number lies in at most one. -/
theorem coverCount_le_one {l : List Segment}
    (h : l.Pairwise (fun s t => s.start + s.length ≤ t.start)) (x : Nat) :
    coverCount l x ≤ 1 := by
  induction h with
  | nil =>
      simp [coverCount]
  | @cons s l hs _ ih =>
      unfold coverCount at ih ⊢
      rw [List.countP_cons]
      split
      · rename_i hx
        rw [Segment.covers_iff] at hx
        have hzero : l.countP (fun t => t.covers x) = 0 := by
          rw [List.countP_eq_zero]
          intro t ht hcov
          have := hs t ht
          rw [Segment.covers_iff] at hcov
          omega
        omega
      · omega

theorem coverCount_pos_iff {l : List Segment} {x : Nat} :
    0 < coverCount l x ↔ ∃ s ∈ l, s.start ≤ x ∧ x < s.start + s.length := by
  simp [coverCount, List.countP_pos_iff]

/-- A segment of a tiling ends where the range ends or before. -/
theorem end_le_of_tiles {l : List Segment} {n : Nat} (h : Tiles l n) {s : Segment} (hs : s ∈ l)
    (hpos : 0 < s.length) : s.start + s.length ≤ n := by
  have hcount : 0 < coverCount l (s.start + s.length - 1) :=
    coverCount_pos_iff.mpr ⟨s, hs, by omega, by omega⟩
  rw [h] at hcount
  split_ifs at hcount with hlt
  · omega
  · omega

/-- The segments of the loop tile the range. -/
theorem chunks_tile {l : List Segment} (h : chunks total step = some l) : Tiles l total := by
  intro x
  rcases Nat.eq_zero_or_pos total with rfl | htotal
  · have hnil : l = [] := by
      have hl := h
      unfold chunks chunksFrom at hl
      simpa using hl.symm
    simp [hnil, coverCount]
  have hstep := pos_of_chunks h htotal
  have hle := coverCount_le_one (chunksFrom_pairwise hstep h) x
  split
  · rename_i hx
    have hpos : 0 < coverCount l x := by
      rw [coverCount_pos_iff]
      have hdiv := Nat.div_add_mod x step
      have hmod := Nat.mod_lt x hstep
      rw [Nat.mul_comm] at hdiv
      refine ⟨⟨x / step * step, min step (total - x / step * step)⟩, ?_, ?_, ?_⟩
      · exact (mem_chunks_iff h _).mpr ⟨x / step, rfl, by simp only; omega, rfl⟩
      · simp only
        omega
      · simp only
        omega
    omega
  · rename_i hx
    by_contra hne
    obtain ⟨s, hs, _, hlt⟩ := coverCount_pos_iff.mp (Nat.pos_of_ne_zero hne)
    obtain ⟨i, _, hstart, hlen⟩ := (mem_chunks_iff h s).mp hs
    omega

theorem length_pos_of_mem_chunks {l : List Segment} (h : chunks total step = some l) {s : Segment}
    (hs : s ∈ l) : 0 < s.length := by
  obtain ⟨_, _, hstart, hlen⟩ := (mem_chunks_iff h s).mp hs
  have := pos_of_chunks h (by omega)
  omega

/-- The last segment of the loop reaches the end. -/
theorem forall_end_le_iff {l : List Segment} (h : chunks total step = some l) (htotal : 0 < total)
    {k : Nat} : (∀ s ∈ l, s.start + s.length ≤ k) ↔ total ≤ k := by
  have htile := chunks_tile h
  constructor
  · intro hall
    have hlast : 0 < coverCount l (total - 1) := by
      rw [htile, if_pos (by omega)]
      exact Nat.zero_lt_one
    obtain ⟨s, hs, _, hlt⟩ := coverCount_pos_iff.mp hlast
    have := hall s hs
    omega
  · intro hle s hs
    have := end_le_of_tiles htile hs (length_pos_of_mem_chunks h hs)
    omega

/-- What is left of a segment without its ends. -/
def Segment.cut (lead trail : Nat) (s : Segment) : Segment :=
  ⟨s.start + lead, s.length - (lead + trail)⟩

/-- The size that the segments of a loop tile after the cut: without a cut the
whole range, and with one what is left of a single segment.  There may be a second
one of which nothing is left. -/
def TiledByCut (total step lead trail size : Nat) : Prop :=
  lead = 0 ∧
    (trail = 0 ∧ size = total ∨
      0 < trail ∧ size + trail = min step total ∧ (total ≤ step ∨ total = step + trail))

theorem TiledByCut.le {lead trail size : Nat} (h : TiledByCut total step lead trail size) :
    size ≤ total := by
  obtain ⟨_, ⟨_, rfl⟩ | ⟨_, hcut, _⟩⟩ := h
  · exact Nat.le_refl _
  · omega

theorem tiles_iff_of_pairwise {l : List Segment} {n : Nat}
    (h : l.Pairwise (fun s t => s.start + s.length ≤ t.start)) :
    Tiles l n ↔ ∀ x, (∃ s ∈ l, s.start ≤ x ∧ x < s.start + s.length) ↔ x < n := by
  refine forall_congr' fun x => ?_
  have hle := coverCount_le_one h x
  rw [← coverCount_pos_iff]
  split
  · rename_i hx
    simp only [hx, iff_true]
    omega
  · rename_i hx
    simp only [hx, iff_false]
    omega

/-- The cut segments of a loop keep their order. -/
theorem cut_pairwise {lead trail : Nat} {l : List Segment}
    (h : l.Pairwise (fun s t => s.start + s.length ≤ t.start)) :
    (l.map (Segment.cut lead trail)).Pairwise (fun s t => s.start + s.length ≤ t.start) := by
  rw [List.pairwise_map]
  refine h.imp ?_
  intro s t hst
  simp only [Segment.cut]
  omega

/-- When the cut segments of a loop, none of which is shorter than the cut, tile a
range of another size. -/
theorem cut_chunks_tile_iff {l : List Segment} (h : chunks total step = some l)
    (htotal : 0 < total) {lead trail size : Nat} (hsize : 0 < size) :
    (∀ s ∈ l, lead + trail ≤ s.length) ∧ Tiles (l.map (Segment.cut lead trail)) size ↔
      TiledByCut total step lead trail size := by
  have hstep := pos_of_chunks h htotal
  have hmem := mem_chunks_iff h
  have hfirst : (⟨0, min step total⟩ : Segment) ∈ l :=
    (hmem _).mpr ⟨0, by simp, htotal, by simp⟩
  rw [tiles_iff_of_pairwise (cut_pairwise (chunksFrom_pairwise hstep h))]
  simp only [List.mem_map, exists_exists_and_eq_and, Segment.cut]
  constructor
  · rintro ⟨hlong, htile⟩
    -- Only the first segment can reach the first number.
    obtain ⟨s, hs, hle, hlt⟩ := (htile 0).mpr hsize
    obtain ⟨i, hi, hstart, hlen⟩ := (hmem s).mp hs
    have hlead : lead = 0 := by omega
    have hs0 : s.start = 0 := by omega
    refine ⟨hlead, ?_⟩
    rcases Nat.eq_zero_or_pos trail with htrail | htrail
    · left
      refine ⟨htrail, ?_⟩
      subst hlead htrail
      have htiles := (tiles_iff_of_pairwise (chunksFrom_pairwise hstep h)).mp (chunks_tile h)
      have hiff : ∀ x, x < size ↔ x < total := by
        intro x
        rw [← htile x, ← htiles x]
        simp
      have h₁ := hiff total
      have h₂ := hiff size
      omega
    · right
      rw [hs0, Nat.sub_zero] at hlen
      -- Behind what is left of it there is a gap.
      have hgap : ¬ (min step total - trail < size) := by
        rw [← htile]
        rintro ⟨t, ht, htle, htlt⟩
        obtain ⟨j, hj, htstart, htlen⟩ := (hmem t).mp ht
        rcases Nat.eq_zero_or_pos j with rfl | hj'
        · have : t.start = 0 := by simpa using hj
          rw [this, Nat.sub_zero] at htlen
          omega
        · have := Nat.mul_le_mul_right step hj'
          omega
      have hlast : min step total - trail - 1 < size := by
        rw [← htile]
        exact ⟨_, hfirst, by simp only; omega, by simp only; omega⟩
      refine ⟨htrail, by omega, ?_⟩
      by_cases hone : total ≤ step
      · exact Or.inl hone
      · right
        have hsecond : (⟨step, min step (total - step)⟩ : Segment) ∈ l :=
          (hmem _).mpr ⟨1, by simp, by simp only; omega, rfl⟩
        have hlong₂ := hlong _ hsecond
        have hempty : ¬ (trail < min step (total - step)) := by
          intro hlt'
          have := (htile step).mp ⟨_, hsecond, by simp only; omega, by simp only; omega⟩
          omega
        simp only at hlong₂
        omega
  · rintro ⟨rfl, ⟨rfl, rfl⟩ | ⟨htrail, hcut, hfew⟩⟩
    · refine ⟨by simp, ?_⟩
      have htiles := (tiles_iff_of_pairwise (chunksFrom_pairwise hstep h)).mp (chunks_tile h)
      simpa using htiles
    · have hother : ∀ s ∈ l, s = ⟨0, min step total⟩ ∨
          (s = ⟨step, trail⟩ ∧ total = step + trail) := by
        intro s hs
        obtain ⟨i, hi, hstart, hlen⟩ := (hmem s).mp hs
        obtain ⟨start, length⟩ := s
        simp only at hi hstart hlen
        rcases Nat.eq_zero_or_pos i with rfl | hi'
        · left
          rw [Nat.zero_mul] at hi
          subst hi
          simp [hlen]
        · right
          have hmul := Nat.mul_le_mul_right step hi'
          have htwo : i = 1 := by
            by_contra hne
            have : 2 * step ≤ i * step := Nat.mul_le_mul_right step (by omega)
            omega
          subst htwo
          rw [Nat.one_mul] at hi hmul
          subst hi
          refine ⟨?_, by omega⟩
          rw [hlen]
          congr 1
          omega
      refine ⟨?_, ?_⟩
      · intro s hs
        rcases hother s hs with rfl | ⟨rfl, _⟩
        · simp only
          omega
        · simp
      · intro x
        constructor
        · rintro ⟨s, hs, hle, hlt⟩
          rcases hother s hs with rfl | ⟨rfl, _⟩
          · simp only at hle hlt
            omega
          · rw [Nat.zero_add, Nat.sub_self] at hlt
            simp only at hle hlt
            omega
        · intro hx
          exact ⟨_, hfirst, by simp, by simp only; omega⟩

/-- Pairs of segments cover a point as often as their sides cover its coordinates. -/
theorem coverCount_product (rows cols : List Segment) (x y : Nat) :
    (rows.flatMap (fun r => cols.map (fun c => (r, c)))).countP
        (fun p => p.1.covers x && p.2.covers y) =
      coverCount rows x * coverCount cols y := by
  induction rows with
  | nil =>
      simp [coverCount]
  | cons r rows ih =>
      rw [List.flatMap_cons, List.countP_append, ih, List.countP_map]
      unfold coverCount
      rw [List.countP_cons, Nat.add_mul]
      cases hr : r.covers x with
      | false =>
          simp [Function.comp_def, hr]
      | true =>
          simp only [Function.comp_def, hr, Bool.true_and, if_true]
          rw [Nat.one_mul, Nat.add_comm]

/-- Pairs of segments that lie in a rectangle and cover each point of it once have
sides that tile its sides. -/
theorem product_tiles_iff {rows cols : List Segment} {n m : Nat} (hn : 0 < n) (hm : 0 < m) :
    (∀ x < n, ∀ y < m, coverCount rows x * coverCount cols y = 1) ∧
        (∀ r ∈ rows, ∀ c ∈ cols, 0 < r.length → 0 < c.length →
          r.start + r.length ≤ n ∧ c.start + c.length ≤ m) ↔
      Tiles rows n ∧ Tiles cols m := by
  constructor
  · rintro ⟨hcount, hfits⟩
    have hone := hcount 0 hn 0 hm
    obtain ⟨r₀, hr₀, hr₀le, hr₀lt⟩ : ∃ r ∈ rows, r.start ≤ 0 ∧ 0 < r.start + r.length :=
      coverCount_pos_iff.mp (Nat.pos_of_ne_zero fun h => by simp [h] at hone)
    obtain ⟨c₀, hc₀, hc₀le, hc₀lt⟩ : ∃ c ∈ cols, c.start ≤ 0 ∧ 0 < c.start + c.length :=
      coverCount_pos_iff.mp (Nat.pos_of_ne_zero fun h => by simp [h] at hone)
    refine ⟨fun x => ?_, fun y => ?_⟩
    · split_ifs with hx
      · exact Nat.eq_one_of_mul_eq_one_right (hcount x hx 0 hm)
      · by_contra hne
        obtain ⟨r, hr, hle, hlt⟩ := coverCount_pos_iff.mp (Nat.pos_of_ne_zero hne)
        have := (hfits r hr c₀ hc₀ (by omega) (by omega)).1
        omega
    · split_ifs with hy
      · exact Nat.eq_one_of_mul_eq_one_left (hcount 0 hn y hy)
      · by_contra hne
        obtain ⟨c, hc, hle, hlt⟩ := coverCount_pos_iff.mp (Nat.pos_of_ne_zero hne)
        have := (hfits r₀ hr₀ c hc (by omega) (by omega)).2
        omega
  · rintro ⟨hrows, hcols⟩
    refine ⟨fun x hx y hy => ?_, fun r hr c hc hrpos hcpos => ⟨?_, ?_⟩⟩
    · rw [hrows x, hcols y, if_pos hx, if_pos hy]
    · exact end_le_of_tiles hrows hr hrpos
    · exact end_le_of_tiles hcols hc hcpos

end Lib
end OrbitOpenEO
