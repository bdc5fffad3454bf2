import OrbitOpenEO.Lib.Tiling

/-!
# Painting a buffer

A picture is copied into a buffer range by range, with ranges of other buffers that
show parts of it.  A range that does not exist is an error.  `Paints` says what a
number of copies does: it copies the picture on the ranges and leaves the rest.
Ranges that are rows of rectangles cover a pixel where the sides of a rectangle cover
its coordinates.
-/

namespace OrbitOpenEO
namespace Lib

variable {α ι : Type}

/-- Values to copy from. -/
structure Slice (α : Type) where
  length : Nat
  elem : Nat → α

/-- Values to copy into, with the ranges that were copied. -/
structure Canvas (α : Type) where
  length : Nat
  elem : Nat → α
  copied : List Segment

/-- A canvas of one value. -/
def Canvas.blank (length : Nat) (fill : α) : Canvas α := ⟨length, fun _ => fill, []⟩

/-- Copy a range of `n` values, if there are as many on both sides. -/
def Canvas.copy (canvas : Canvas α) (dst : Nat) (source : Slice α) (src n : Nat) :
    Option (Canvas α) :=
  if dst + n ≤ canvas.length ∧ src + n ≤ source.length then
    some
      { canvas with
        elem := fun i =>
          if dst ≤ i ∧ i < dst + n then source.elem (src + (i - dst)) else canvas.elem i
        copied := canvas.copied ++ [⟨dst, n⟩] }
  else none

/-- The picture is copied on the segments, and nowhere else. -/
structure Paints (picture : Nat → α) (segments : List Segment) (before after : Canvas α) :
    Prop where
  length : after.length = before.length
  copied : after.copied = before.copied ++ segments
  elem : ∀ i, after.elem i =
    if 0 < coverCount segments i then picture i else before.elem i

section Paints

variable {picture : Nat → α}

theorem Paints.refl (canvas : Canvas α) : Paints picture [] canvas canvas :=
  ⟨rfl, (List.append_nil _).symm, fun _ => rfl⟩

theorem coverCount_append (s t : List Segment) (i : Nat) :
    coverCount (s ++ t) i = coverCount s i + coverCount t i :=
  List.countP_append

theorem Paints.trans {s t : List Segment} {a b c : Canvas α} (hab : Paints picture s a b)
    (hbc : Paints picture t b c) : Paints picture (s ++ t) a c where
  length := hbc.length.trans hab.length
  copied := by rw [hbc.copied, hab.copied, List.append_assoc]
  elem i := by
    rw [hbc.elem, hab.elem, coverCount_append]
    split_ifs <;> first | rfl | omega

/-- A range that shows the picture is painted. -/
theorem copy_paints {canvas : Canvas α} {dst src n : Nat} {source : Slice α}
    (hdst : dst + n ≤ canvas.length) (hsrc : src + n ≤ source.length)
    (hpicture : ∀ k < n, source.elem (src + k) = picture (dst + k)) :
    ∃ after, canvas.copy dst source src n = some after ∧
      Paints picture [⟨dst, n⟩] canvas after := by
  refine ⟨_, if_pos ⟨hdst, hsrc⟩, rfl, rfl, fun i => ?_⟩
  have hcount : 0 < coverCount [⟨dst, n⟩] i ↔ dst ≤ i ∧ i < dst + n := by
    rw [coverCount_pos_iff]
    simp
  by_cases hi : dst ≤ i ∧ i < dst + n
  · rw [if_pos (hcount.mpr hi)]
    refine (if_pos hi).trans ?_
    rw [hpicture (i - dst) (by omega), Nat.add_sub_cancel' hi.1]
  · rw [if_neg (mt hcount.mp hi)]
    exact if_neg hi

/-- A loop paints what its rounds paint. -/
theorem foldlM_paints {step : Canvas α → ι → Option (Canvas α)} {segments : ι → List Segment}
    {length : Nat} {l : List ι}
    (hstep : ∀ i ∈ l, ∀ canvas, canvas.length = length →
      ∃ after, step canvas i = some after ∧ Paints picture (segments i) canvas after) :
    ∀ canvas, canvas.length = length →
      ∃ after, l.foldlM step canvas = some after ∧
        Paints picture (l.flatMap segments) canvas after := by
  induction l with
  | nil =>
      exact fun canvas _ => ⟨canvas, rfl, Paints.refl canvas⟩
  | cons i l ih =>
      intro canvas hlength
      rw [List.forall_mem_cons] at hstep
      obtain ⟨mid, hi, hpaints⟩ := hstep.1 canvas hlength
      obtain ⟨after, hl, hpaints'⟩ := ih hstep.2 mid (hpaints.length.trans hlength)
      refine ⟨after, ?_, hpaints.trans hpaints'⟩
      rw [List.foldlM_cons, hi]
      exact hl

end Paints

/-- A range of a row covers the pixels of that row in that range. -/
theorem covers_row {cols row start n : Nat} (hfits : start + n ≤ cols) (i : Nat) :
    (⟨row * cols + start, n⟩ : Segment).covers i =
      (decide (i / cols = row) && (⟨start, n⟩ : Segment).covers (i % cols)) := by
  rw [Bool.eq_iff_iff, Bool.and_eq_true, Segment.covers_iff, Segment.covers_iff,
    decide_eq_true_eq]
  dsimp only
  have hdivmod := Nat.div_add_mod i cols
  constructor
  · rintro ⟨hle, hlt⟩
    have hpos : 0 < cols := by omega
    have hrow : i / cols = row := by
      refine Nat.div_eq_of_lt_le (by omega) ?_
      rw [Nat.succ_mul]
      omega
    rw [hrow, Nat.mul_comm] at hdivmod
    exact ⟨hrow, by omega, by omega⟩
  · rintro ⟨rfl, hle, hlt⟩
    rw [Nat.mul_comm] at hdivmod
    omega

/-- The rows of a segment, each with a range of columns. -/
def rowSegments (cols : Nat) (rows range : Segment) : List Segment :=
  (List.range' rows.start rows.length).map
    (fun row => ⟨row * cols + range.start, range.length⟩)

/-- The rows of a rectangle cover the pixels of the rectangle once each. -/
theorem coverCount_rowSegments {cols : Nat} {rows range : Segment}
    (hfits : range.start + range.length ≤ cols) (i : Nat) :
    coverCount (rowSegments cols rows range) i =
      if rows.covers (i / cols) && range.covers (i % cols) then 1 else 0 := by
  have hcount : ∀ x, (List.range' rows.start rows.length).countP (fun row => decide (x = row)) =
      if rows.covers x then 1 else 0 := by
    intro x
    have hcomm : (fun row => decide (x = row)) = fun row => row == x := by
      funext row
      rw [beq_eq_decide]
      exact decide_eq_decide.mpr eq_comm
    rw [hcomm, ← List.count_eq_countP, (List.nodup_range' 1).count]
    simp only [List.mem_range'_1, Segment.covers_iff]
  unfold coverCount rowSegments
  rw [List.countP_map]
  simp only [Function.comp_def, covers_row hfits]
  cases hrange : range.covers (i % cols) with
  | true =>
      simp only [Bool.and_true]
      exact hcount _
  | false =>
      simp

/-- The rows of rectangles cover a pixel as often as the rectangles do. -/
theorem coverCount_flatMap_rowSegments {cols : Nat} {rects : List (Segment × Segment)}
    (hfits : ∀ p ∈ rects, p.2.start + p.2.length ≤ cols) (i : Nat) :
    coverCount (rects.flatMap fun p => rowSegments cols p.1 p.2) i =
      rects.countP (fun p => p.1.covers (i / cols) && p.2.covers (i % cols)) := by
  induction rects with
  | nil =>
      rfl
  | cons p rects ih =>
      rw [List.forall_mem_cons] at hfits
      rw [List.flatMap_cons, coverCount_append, coverCount_rowSegments hfits.1, ih hfits.2,
        List.countP_cons, Nat.add_comm]

/-- A segment, counted from another origin. -/
def Segment.seenFrom (off : Int) (s : Segment) : Segment := ⟨(s.start - off).toNat, s.length⟩

theorem Segment.covers_seenFrom {off : Int} {s : Segment} (h : off ≤ s.start) (x : Nat) :
    (s.seenFrom off).covers x = (decide (0 ≤ off + x) && s.covers (off + x).toNat) := by
  rw [Bool.eq_iff_iff, Bool.and_eq_true, Segment.covers_iff, Segment.covers_iff,
    decide_eq_true_eq]
  unfold Segment.seenFrom
  dsimp only
  omega

theorem coverCount_seenFrom {off : Int} {l : List Segment} (h : ∀ s ∈ l, off ≤ s.start)
    (x : Nat) :
    coverCount (l.map (Segment.seenFrom off)) x =
      if 0 ≤ off + x then coverCount l (off + x).toNat else 0 := by
  unfold coverCount
  rw [List.countP_map]
  have hcongr : l.countP ((fun s => s.covers x) ∘ Segment.seenFrom off) =
      l.countP (fun s => decide (0 ≤ off + x) && s.covers (off + x).toNat) := by
    refine List.countP_congr fun s hs => ?_
    rw [Function.comp_apply, Segment.covers_seenFrom (h s hs)]
  rw [hcongr]
  split_ifs with hx
  · simp only [hx, decide_true, Bool.true_and]
  · simp only [hx, decide_false, Bool.false_and]
    exact List.countP_false ▸ rfl

/-- The rows of a segment, counted from another origin. -/
theorem rowSegments_seenFrom {cols : Nat} {off : Int} {rows range : Segment}
    (h : off ≤ rows.start) :
    rowSegments cols (rows.seenFrom off) range =
      (List.range' rows.start rows.length).map
        (fun row : Nat => ⟨((row : Int) - off).toNat * cols + range.start, range.length⟩) := by
  have hrange : ∀ (n start : Nat), off ≤ start →
      List.range' (start - off).toNat n =
        (List.range' start n).map fun row : Nat => ((row : Int) - off).toNat := by
    intro n
    induction n with
    | zero =>
        intro start _
        rfl
    | succ n ih =>
        intro start hstart
        have hnext : (start - off).toNat + 1 = ((start + 1 : Nat) - off).toNat := by omega
        rw [List.range'_succ, List.range'_succ, List.map_cons, hnext, ih _ (by omega)]
  unfold rowSegments Segment.seenFrom
  dsimp only
  rw [hrange _ _ h, List.map_map]
  rfl

/-- What a block of a grid has of a range. -/
def clippedBlock (lo hi size t : Nat) : Segment :=
  ⟨max (t * size) lo, min (t * size + size) hi - max (t * size) lo⟩

/-- A block that a range meets has something of it. -/
theorem clippedBlock_length_pos {lo hi size t : Nat} (hsize : 0 < size) (hlt : lo < hi)
    (ht : t ∈ List.range' (lo / size) ((hi - 1) / size + 1 - lo / size)) :
    max (t * size) lo < min (t * size + size) hi := by
  rw [List.mem_range'_1] at ht
  have hlow : lo < t * size + size := by
    rw [← Nat.succ_mul, ← Nat.div_lt_iff_lt_mul hsize]
    omega
  have hhigh : t * size ≤ hi - 1 := by
    rw [← Nat.le_div_iff_mul_le hsize]
    omega
  omega

/-- The blocks that a range meets cover it. -/
theorem coverCount_clippedBlocks {lo hi size : Nat} (hsize : 0 < size) (hlt : lo < hi) (x : Nat) :
    coverCount ((List.range' (lo / size) ((hi - 1) / size + 1 - lo / size)).map
        (clippedBlock lo hi size)) x =
      if lo ≤ x ∧ x < hi then 1 else 0 := by
  have hblock : ∀ t, (clippedBlock lo hi size t).covers x =
      (decide (lo ≤ x ∧ x < hi) && (t == x / size)) := by
    intro t
    rw [Bool.eq_iff_iff, Segment.covers_iff, Bool.and_eq_true, decide_eq_true_eq, beq_iff_eq]
    have hdiv : t = x / size ↔ t * size ≤ x ∧ x < t * size + size := by
      rw [eq_comm, Nat.div_eq_iff hsize, Nat.mul_comm]
      omega
    rw [hdiv]
    unfold clippedBlock
    dsimp only
    omega
  unfold coverCount
  rw [List.countP_map]
  simp only [Function.comp_def, hblock]
  by_cases hx : lo ≤ x ∧ x < hi
  · have hlow : lo / size ≤ x / size := Nat.div_le_div_right hx.1
    have hhigh : x / size ≤ (hi - 1) / size := Nat.div_le_div_right (by omega)
    simp only [hx, and_self, decide_true, Bool.true_and, if_true]
    rw [← List.count_eq_countP, (List.nodup_range' 1).count, if_pos]
    rw [List.mem_range'_1]
    omega
  · simp only [hx, decide_false, Bool.false_and, if_false]
    exact List.countP_false ▸ rfl

end Lib
end OrbitOpenEO
