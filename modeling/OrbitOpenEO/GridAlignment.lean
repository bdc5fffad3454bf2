import OrbitOpenEO.RasterDataset
import Mathlib.Algebra.Order.Round
import Mathlib.Data.Rat.Floor
import Mathlib.Tactic.Linarith
import Mathlib.Tactic.FieldSimp

/-!
# Grid alignment

`align` compares the reference systems, the pixel sizes and the origins of two cubes.  The pixel
sizes may differ by a millionth of the larger one, or by a millionth of a unit if that is more;
the offset of the origins is taken in pixels and its distance from a whole number is compared
with a thousandth of the pixel width in units.

A pixel size of zero makes an offset no number, and a comparison with it fails.
-/

namespace OrbitOpenEO

/-- `ResampleMethod`. -/
inductive ResampleMethod where
  | nearestNeighbor
  | bilinear
  | cubic
  | average
deriving DecidableEq

/-- `AlignError`. -/
inductive AlignError where
  | crsMismatch (lhs rhs : String)
  | resolutionMismatch (lhsX lhsY rhsX rhsY : ℚ)
  | gridNotSnapped (lhsUlx lhsUly rhsUlx rhsUly tol : ℚ)
deriving DecidableEq

/-- `AlignmentReport`. -/
inductive AlignmentReport where
  | aligned
  | needsResample (method : ResampleMethod) (targetResolution : ℚ × ℚ)
deriving DecidableEq

namespace GeoTransform

/-- `ulx`. -/
def ulx (gt : GeoTransform) : ℚ := gt.originX

/-- `dx`. -/
def dx (gt : GeoTransform) : ℚ := gt.pixelWidth

/-- `uly`. -/
def uly (gt : GeoTransform) : ℚ := gt.originY

/-- `dy`. -/
def dy (gt : GeoTransform) : ℚ := gt.pixelHeight

end GeoTransform

/-- `RasterCube`, with the names of its bands. -/
structure RasterCube where
  crs : String
  transform : GeoTransform
  bands : List String

/-- `resolution`. -/
def RasterCube.resolution (c : RasterCube) : ℚ × ℚ := (|c.transform.dx|, |c.transform.dy|)

/-- `approx_eq`. -/
def approxEq (a b : ℚ) : Bool :=
  let rel := if |b| < |a| then |a| else |b|
  decide (|a - b| < max rel 1 * (1 / 1000000))

/-- `f64::fract`. -/
def fract (q : ℚ) : ℚ := if q < 0 then q - ⌈q⌉ else q - ⌊q⌋

/-- An offset in pixels, without its whole pixels. -/
def pixelOffset (d size : ℚ) : Option ℚ := if size = 0 then none else some |fract (d / size)|

/-- Whether an offset is within a tolerance of a whole number. -/
def offsetSnaps (off : Option ℚ) (tol : ℚ) : Bool :=
  off.any fun off => decide (off < tol) || decide (1 - off < tol)

/-- `grids_snap`. -/
def gridsSnap (a b : GeoTransform) (tol : ℚ) : Bool :=
  offsetSnaps (pixelOffset (a.ulx - b.ulx) a.dx) tol &&
    offsetSnaps (pixelOffset (a.uly - b.uly) a.dy) tol

/-- `suggest_method_for_band_names`. -/
def suggestMethodForBandNames (c : RasterCube) : ResampleMethod :=
  let anyMask := c.bands.any fun name =>
    let n := name.toList.map Char.toLower
    ["scl", "qa", "mask", "class"].any fun part => decide (part.toList <:+: n)
  if anyMask then .nearestNeighbor else .bilinear

/-- `align`. -/
def align (lhs rhs : RasterCube) : Except AlignError AlignmentReport :=
  if lhs.crs ≠ rhs.crs then .error (.crsMismatch lhs.crs rhs.crs)
  else
    let (lx, ly) := lhs.resolution
    let (rx, ry) := rhs.resolution
    if !approxEq lx rx || !approxEq ly ry then
      .ok (.needsResample (suggestMethodForBandNames rhs) (lx, ly))
    else
      let tol := lx * (1 / 1000)
      if !gridsSnap lhs.transform rhs.transform tol then
        .error (.gridNotSnapped lhs.transform.ulx lhs.transform.uly rhs.transform.ulx
          rhs.transform.uly tol)
      else .ok .aligned

/-- What a report or an error is, without its numbers. -/
inductive AlignKind where
  | aligned
  | needsResample
  | crsMismatch
  | resolutionMismatch
  | gridNotSnapped
deriving DecidableEq

/-- The kind of an outcome of `align`. -/
def alignKind : Except AlignError AlignmentReport → AlignKind
  | .ok .aligned => .aligned
  | .ok (.needsResample _ _) => .needsResample
  | .error (.crsMismatch _ _) => .crsMismatch
  | .error (.resolutionMismatch _ _ _ _) => .resolutionMismatch
  | .error (.gridNotSnapped _ _ _ _ _) => .gridNotSnapped

/-- All coordinates in another unit. -/
def GeoTransform.scale (gt : GeoTransform) (s : ℚ) : GeoTransform :=
  ⟨s * gt.originX, s * gt.pixelWidth, s * gt.rowRotation, s * gt.originY,
    s * gt.columnRotation, s * gt.pixelHeight⟩

/-- A cube in another unit. -/
def RasterCube.scale (c : RasterCube) (s : ℚ) : RasterCube :=
  { c with transform := c.transform.scale s }

section Offsets

variable {q t : ℚ}

theorem abs_fract_of_neg (h : q < 0) : |fract q| = ⌈q⌉ - q := by
  have hle := Int.le_ceil q
  rw [fract, if_pos h, abs_of_nonpos (by linarith)]
  ring

theorem abs_fract_of_nonneg (h : ¬ q < 0) : |fract q| = q - ⌊q⌋ := by
  have hle := Int.floor_le q
  rw [fract, if_neg h, abs_of_nonneg (by linarith)]

/-- The test of an offset is its distance from the next whole number. -/
theorem fract_near_iff : |fract q| < t ∨ 1 - |fract q| < t ↔ ∃ n : ℤ, |q - n| < t := by
  by_cases hneg : q < 0
  · rw [abs_fract_of_neg hneg]
    have hceil := Int.le_ceil q
    have hlt := Int.ceil_lt_add_one q
    constructor
    · rintro (h | h)
      · refine ⟨⌈q⌉, ?_⟩
        rw [abs_of_nonpos (by linarith)]
        linarith
      · refine ⟨⌈q⌉ - 1, ?_⟩
        push_cast
        rw [abs_of_nonneg (by linarith)]
        linarith
    · rintro ⟨n, hn⟩
      rw [abs_lt] at hn
      rcases le_or_gt ⌈q⌉ n with hle | hgt
      · have hle' : (⌈q⌉ : ℚ) ≤ n := by exact_mod_cast hle
        exact .inl (by linarith)
      · have hgt' : (n : ℚ) + 1 ≤ ⌈q⌉ := by exact_mod_cast hgt
        exact .inr (by linarith)
  · rw [abs_fract_of_nonneg hneg]
    have hfloor := Int.floor_le q
    have hlt := Int.lt_floor_add_one q
    constructor
    · rintro (h | h)
      · refine ⟨⌊q⌋, ?_⟩
        rw [abs_of_nonneg (by linarith)]
        exact h
      · refine ⟨⌊q⌋ + 1, ?_⟩
        push_cast
        rw [abs_of_nonpos (by linarith)]
        linarith
    · rintro ⟨n, hn⟩
      rw [abs_lt] at hn
      rcases le_or_gt n ⌊q⌋ with hle | hgt
      · have hle' : (n : ℚ) ≤ ⌊q⌋ := by exact_mod_cast hle
        exact .inl (by linarith)
      · have hgt' : (⌊q⌋ : ℚ) + 1 ≤ n := by exact_mod_cast hgt
        exact .inr (by linarith)

/-- The difference of two origins is within so much of a whole number of pixels. -/
def NearWhole (d size t : ℚ) : Prop := size ≠ 0 ∧ ∃ n : ℤ, |d / size - n| < t

theorem offsetSnaps_iff {d size : ℚ} :
    offsetSnaps (pixelOffset d size) t = true ↔ NearWhole d size t := by
  unfold pixelOffset NearWhole
  split_ifs with hsize
  · simp [offsetSnaps, hsize]
  · simp only [offsetSnaps, Option.any_some, Bool.or_eq_true, decide_eq_true_eq, fract_near_iff]
    exact (and_iff_right hsize).symm

/-- The offset of the origins is a whole number of pixels. -/
def WholeOffset (d size : ℚ) : Prop := ∃ n : ℤ, d = n * size

/-- An offset that is within every tolerance of a whole number is one. -/
theorem wholeOffset_iff {d size : ℚ} (hsize : size ≠ 0) :
    WholeOffset d size ↔ ∀ t, 0 < t → NearWhole d size t := by
  constructor
  · rintro ⟨n, rfl⟩ t ht
    refine ⟨hsize, n, ?_⟩
    rw [mul_div_cancel_right₀ _ hsize, sub_self, abs_zero]
    exact ht
  · intro h
    refine ⟨round (d / size), ?_⟩
    have hzero : |d / size - round (d / size)| ≤ 0 := by
      by_contra hpos
      obtain ⟨-, n, hn⟩ := h _ (not_le.mp hpos)
      exact absurd (round_le (d / size) n) (not_le.mpr hn)
    have heq : d / size = round (d / size) :=
      sub_eq_zero.mp (abs_eq_zero.mp (le_antisymm hzero (abs_nonneg _)))
    rw [← heq, div_mul_cancel₀ _ hsize]

theorem nearWhole_of_one_le {d size : ℚ} (hsize : size ≠ 0) (ht : 1 ≤ t) : NearWhole d size t := by
  have hround := abs_sub_round (d / size)
  exact ⟨hsize, round (d / size), by linarith⟩

theorem nearWhole_scale {d size s : ℚ} (hs : 0 < s) :
    NearWhole (s * d) (s * size) t ↔ NearWhole d size t := by
  unfold NearWhole
  rw [mul_div_mul_left _ _ hs.ne', mul_ne_zero_iff_left hs.ne']

end Offsets

section Sizes

variable {p q s : ℚ}

theorem approxEq_iff (hp : 0 ≤ p) (hq : 0 ≤ q) :
    approxEq p q = true ↔ |p - q| < max (max p q) 1 * (1 / 1000000) := by
  have hmax : (if |q| < |p| then |p| else |q|) = max p q := by
    rw [abs_of_nonneg hp, abs_of_nonneg hq]
    split_ifs with h
    · exact (max_eq_left h.le).symm
    · exact (max_eq_right (not_lt.mp h)).symm
  unfold approxEq
  dsimp only
  rw [hmax, decide_eq_true_eq]

/-- Two sizes are equal up to a millionth of the larger one. -/
def RelClose (p q : ℚ) : Prop := p = q ∨ |p - q| < max p q * (1 / 1000000)

/-- The test of two sizes has the same answer in every unit exactly if they are close. -/
theorem relClose_iff (hp : 0 ≤ p) (hq : 0 ≤ q) :
    RelClose p q ↔ ∀ s, 0 < s → approxEq (s * p) (s * q) = true := by
  have hscale : ∀ {s}, 0 < s → |s * p - s * q| = s * |p - q| := by
    intro s hs
    rw [← mul_sub, abs_mul, abs_of_pos hs]
  constructor
  · intro h s hs
    rw [approxEq_iff (mul_nonneg hs.le hp) (mul_nonneg hs.le hq), hscale hs,
      ← mul_max_of_nonneg _ _ hs.le]
    rcases h with rfl | h
    · rw [sub_self, abs_zero, mul_zero]
      have hone : (1 : ℚ) ≤ max (s * max p p) 1 := le_max_right _ _
      linarith
    · calc s * |p - q| < s * (max p q * (1 / 1000000)) := by gcongr
        _ = s * max p q * (1 / 1000000) := by ring
        _ ≤ max (s * max p q) 1 * (1 / 1000000) := by
          gcongr
          exact le_max_left _ _
  · intro h
    rcases (le_max_of_le_left hp : 0 ≤ max p q).eq_or_lt with hzero | hpos
    · have hp' : p ≤ 0 := hzero ▸ le_max_left p q
      have hq' : q ≤ 0 := hzero ▸ le_max_right p q
      exact .inl (by linarith)
    · -- in this unit the larger size is one
      have hinv : 0 < (max p q)⁻¹ := inv_pos.mpr hpos
      have hs := h _ hinv
      rw [approxEq_iff (mul_nonneg hinv.le hp) (mul_nonneg hinv.le hq), hscale hinv,
        ← mul_max_of_nonneg _ _ hinv.le, inv_mul_cancel₀ hpos.ne', max_self, one_mul,
        inv_mul_lt_iff₀ hpos] at hs
      exact .inr hs

/-- In a unit that is large enough every two sizes pass. -/
theorem approxEq_small (hp : 0 ≤ p) (hq : 0 ≤ q) (hs : 0 < s)
    (h : s * |p - q| < 1 / 1000000) : approxEq (s * p) (s * q) = true := by
  rw [approxEq_iff (mul_nonneg hs.le hp) (mul_nonneg hs.le hq), ← mul_sub, abs_mul,
    abs_of_pos hs]
  have hone : (1 : ℚ) ≤ max (max (s * p) (s * q)) 1 := le_max_right _ _
  linarith

end Sizes

section Outcome

variable {a b : RasterCube}

/-- The sizes of the pixels pass. -/
def SizesPass (a b : RasterCube) : Prop :=
  approxEq |a.transform.dx| |b.transform.dx| = true ∧
    approxEq |a.transform.dy| |b.transform.dy| = true

/-- The origins are within the tolerance of a whole number of pixels of the first cube. -/
def OriginsPass (a b : RasterCube) : Prop :=
  NearWhole (a.transform.ulx - b.transform.ulx) a.transform.dx
      (|a.transform.dx| * (1 / 1000)) ∧
    NearWhole (a.transform.uly - b.transform.uly) a.transform.dy
      (|a.transform.dx| * (1 / 1000))

/-- The kind of the outcome, test by test. -/
theorem alignKind_cases (a b : RasterCube) :
    (a.crs ≠ b.crs ∧ alignKind (align a b) = .crsMismatch) ∨
      a.crs = b.crs ∧
        ((¬ SizesPass a b ∧ alignKind (align a b) = .needsResample) ∨
          (SizesPass a b ∧ ¬ OriginsPass a b ∧ alignKind (align a b) = .gridNotSnapped) ∨
          SizesPass a b ∧ OriginsPass a b ∧ align a b = .ok .aligned) := by
  have hsnap : gridsSnap a.transform b.transform (|a.transform.dx| * (1 / 1000)) = true ↔
      OriginsPass a b := by
    rw [gridsSnap, Bool.and_eq_true, offsetSnaps_iff, offsetSnaps_iff, OriginsPass]
  unfold align RasterCube.resolution
  dsimp only
  split_ifs with hcrs hsizes hgrid
  · exact .inl ⟨hcrs, rfl⟩
  · refine .inr ⟨not_not.mp hcrs, .inl ⟨fun h => ?_, rfl⟩⟩
    rw [h.1, h.2] at hsizes
    cases hsizes
  · refine .inr ⟨not_not.mp hcrs, .inr (.inl ⟨?_, fun h => ?_, rfl⟩)⟩
    · simpa [SizesPass] using hsizes
    · rw [hsnap.mpr h] at hgrid
      cases hgrid
  · refine .inr ⟨not_not.mp hcrs, .inr (.inr ⟨?_, hsnap.mp ?_, rfl⟩)⟩
    · simpa [SizesPass] using hsizes
    · simpa using hgrid

theorem aligned_iff (a b : RasterCube) :
    align a b = .ok .aligned ↔ a.crs = b.crs ∧ SizesPass a b ∧ OriginsPass a b := by
  rcases alignKind_cases a b with ⟨hcrs, hkind⟩ | ⟨hcrs, ⟨hsizes, hkind⟩ | ⟨-, horigins, hkind⟩ | h⟩
  · refine iff_of_false (fun h => ?_) fun h => hcrs h.1
    rw [h] at hkind
    cases hkind
  · refine iff_of_false (fun h => ?_) fun h => hsizes h.2.1
    rw [h] at hkind
    cases hkind
  · refine iff_of_false (fun h => ?_) fun h => horigins h.2.2
    rw [h] at hkind
    cases hkind
  · exact iff_of_true h.2.2 ⟨hcrs, h.1, h.2.1⟩

variable {s : ℚ}

theorem sizesPass_scale (hs : 0 < s) :
    SizesPass (a.scale s) (b.scale s) ↔
      approxEq (s * |a.transform.dx|) (s * |b.transform.dx|) = true ∧
        approxEq (s * |a.transform.dy|) (s * |b.transform.dy|) = true := by
  have habs : ∀ q : ℚ, |s * q| = s * |q| := fun q => by rw [abs_mul, abs_of_pos hs]
  rw [← habs, ← habs, ← habs, ← habs]
  exact Iff.rfl

theorem originsPass_scale (hs : 0 < s) :
    OriginsPass (a.scale s) (b.scale s) ↔
      NearWhole (a.transform.ulx - b.transform.ulx) a.transform.dx
          (s * |a.transform.dx| * (1 / 1000)) ∧
        NearWhole (a.transform.uly - b.transform.uly) a.transform.dy
          (s * |a.transform.dx| * (1 / 1000)) := by
  rw [← nearWhole_scale (d := a.transform.ulx - b.transform.ulx) hs,
    ← nearWhole_scale (d := a.transform.uly - b.transform.uly) hs, mul_sub, mul_sub,
    ← abs_of_pos hs, ← abs_mul, abs_of_pos hs]
  exact Iff.rfl

end Outcome

section Contract

/-- The pixels have the same size up to a millionth, and the grids the same lines up to a
thousandth of a pixel. -/
def SameGrid (a b : GeoTransform) : Prop :=
  (|(|a.dx| - |b.dx|)| ≤ max |a.dx| |b.dx| * (1 / 1000000) ∧
    |(|a.dy| - |b.dy|)| ≤ max |a.dy| |b.dy| * (1 / 1000000)) ∧
  (∃ n : ℤ, |a.ulx - b.ulx - n * a.dx| ≤ |a.dx| * (1 / 1000)) ∧
    ∃ n : ℤ, |a.uly - b.uly - n * a.dy| ≤ |a.dy| * (1 / 1000)

/-- The check is symmetric, does not depend on the unit, and is sound. -/
structure AlignsRight (a b : RasterCube) : Prop where
  symmetric : align a b = .ok .aligned ↔ align b a = .ok .aligned
  scaled : ∀ s : ℚ, 0 < s → alignKind (align (a.scale s) (b.scale s)) = alignKind (align a b)
  sound : align a b = .ok .aligned → SameGrid a.transform b.transform

/-- The systems differ, or the sizes agree and either no offset is a number or the origins
differ by whole pixels of the first cube, which the tolerance of the second one lets pass. -/
def GridsSettled (a b : RasterCube) : Prop :=
  a.crs ≠ b.crs ∨
    (RelClose |a.transform.dx| |b.transform.dx| ∧ RelClose |a.transform.dy| |b.transform.dy|) ∧
      (a.transform.dx = 0 ∨ a.transform.dy = 0 ∨
        (WholeOffset (a.transform.ulx - b.transform.ulx) a.transform.dx ∧
          WholeOffset (a.transform.uly - b.transform.uly) a.transform.dy) ∧
          OriginsPass b a)

variable {a b : RasterCube}

/-- If the kind does not depend on the unit, then the sizes pass in every unit: in a unit that is
large enough they do. -/
theorem sizesPass_of_scaled (hcrs : a.crs = b.crs)
    (h : ∀ s : ℚ, 0 < s → alignKind (align (a.scale s) (b.scale s)) = alignKind (align a b)) :
    ∀ s : ℚ, 0 < s → SizesPass (a.scale s) (b.scale s) := by
  have hkind : ∀ s : ℚ, 0 < s → (SizesPass (a.scale s) (b.scale s) ↔
      alignKind (align a b) ≠ .needsResample) := by
    intro s hs
    rw [← h s hs]
    rcases alignKind_cases (a.scale s) (b.scale s) with ⟨hne, -⟩ | ⟨-, hcases⟩
    · exact absurd hcrs hne
    · rcases hcases with ⟨hsizes, hkind⟩ | ⟨hsizes, -, hkind⟩ | ⟨hsizes, -, hkind⟩
      · exact iff_of_false hsizes fun hne => hne hkind
      · exact iff_of_true hsizes (hkind ▸ nofun)
      · exact iff_of_true hsizes (hkind ▸ nofun)
  have hx := abs_nonneg (|a.transform.dx| - |b.transform.dx|)
  have hy := abs_nonneg (|a.transform.dy| - |b.transform.dy|)
  obtain ⟨u, hu, hux, huy⟩ : ∃ u : ℚ, 0 < u ∧
      u * |(|a.transform.dx| - |b.transform.dx|)| < 1 / 1000000 ∧
      u * |(|a.transform.dy| - |b.transform.dy|)| < 1 / 1000000 := by
    generalize |(|a.transform.dx| - |b.transform.dx|)| = p at hx
    generalize |(|a.transform.dy| - |b.transform.dy|)| = q at hy
    refine ⟨1 / 1000000 / (p + q + 1), by positivity, ?_, ?_⟩
    · rw [div_mul_eq_mul_div, div_lt_iff₀ (by linarith)]
      linarith
    · rw [div_mul_eq_mul_div, div_lt_iff₀ (by linarith)]
      linarith
  have hsmall : SizesPass (a.scale u) (b.scale u) := (sizesPass_scale hu).mpr
    ⟨approxEq_small (abs_nonneg _) (abs_nonneg _) hu hux,
      approxEq_small (abs_nonneg _) (abs_nonneg _) hu huy⟩
  exact fun s hs => (hkind s hs).mpr ((hkind u hu).mp hsmall)

/-- If the kind does not depend on the unit, then the origins pass in every unit or in none. -/
theorem originsPass_of_scaled (hcrs : a.crs = b.crs)
    (h : ∀ s : ℚ, 0 < s → alignKind (align (a.scale s) (b.scale s)) = alignKind (align a b))
    {s : ℚ} (hs : 0 < s) :
    OriginsPass (a.scale s) (b.scale s) ↔ align a b = .ok .aligned := by
  have hsizes := sizesPass_of_scaled hcrs h s hs
  have hscaled : align (a.scale s) (b.scale s) = .ok .aligned ↔
      OriginsPass (a.scale s) (b.scale s) := by
    rw [aligned_iff]
    exact ⟨fun h => h.2.2, fun h => ⟨hcrs, hsizes, h⟩⟩
  have hkind : ∀ r, alignKind r = .aligned ↔ r = .ok .aligned := by
    intro r
    cases r with
    | ok report =>
        cases report with
        | aligned =>
            exact iff_of_true rfl rfl
        | needsResample _ _ =>
            exact iff_of_false nofun nofun
    | error e =>
        cases e <;> exact iff_of_false nofun nofun
  rw [← hscaled, ← hkind, ← hkind, h s hs]

/-- Sizes that are close have both zero or both not. -/
theorem eq_zero_of_relClose {p q : ℚ} (h : RelClose |p| |q|) (hp : p = 0) : q = 0 := by
  subst hp
  rw [abs_zero] at h
  have hq := abs_nonneg q
  rcases h with h | h
  · exact abs_eq_zero.mp h.symm
  · rw [zero_sub, abs_neg, abs_abs, max_eq_right hq] at h
    exact abs_eq_zero.mp (by linarith)

theorem relClose_comm {p q : ℚ} (h : RelClose p q) : RelClose q p := by
  rcases h with h | h
  · exact .inl h.symm
  · exact .inr (by rwa [abs_sub_comm, max_comm])

theorem le_of_relClose {p q : ℚ} (hp : 0 ≤ p) (h : RelClose p q) :
    |p - q| ≤ max p q * (1 / 1000000) := by
  rcases h with rfl | h
  · rw [sub_self, abs_zero, max_self]
    positivity
  · exact h.le

theorem sizesPass_of_relClose
    (h : RelClose |a.transform.dx| |b.transform.dx| ∧ RelClose |a.transform.dy| |b.transform.dy|)
    {s : ℚ} (hs : 0 < s) : SizesPass (a.scale s) (b.scale s) :=
  (sizesPass_scale hs).mpr
    ⟨(relClose_iff (abs_nonneg _) (abs_nonneg _)).mp h.1 s hs,
      (relClose_iff (abs_nonneg _) (abs_nonneg _)).mp h.2 s hs⟩

theorem scale_one (c : RasterCube) : c.scale 1 = c := by
  simp [RasterCube.scale, GeoTransform.scale]

/-- A whole number of pixels is close to one. -/
theorem exists_near_of_wholeOffset {d size : ℚ} (h : WholeOffset d size) :
    ∃ n : ℤ, |d - n * size| ≤ |size| * (1 / 1000) := by
  obtain ⟨n, rfl⟩ := h
  refine ⟨n, ?_⟩
  rw [sub_self, abs_zero]
  positivity

/-- Cubes in the same system whose sizes pass in every unit have the same kind of outcome in
every unit if the origins pass in all of them or in none. -/
theorem alignKind_scale (hcrs : a.crs = b.crs)
    (hsizes : ∀ s : ℚ, 0 < s → SizesPass (a.scale s) (b.scale s))
    (horigins : ∀ s : ℚ, 0 < s → (OriginsPass (a.scale s) (b.scale s) ↔ OriginsPass a b))
    {s : ℚ} (hs : 0 < s) : alignKind (align (a.scale s) (b.scale s)) = alignKind (align a b) := by
  have hpass : SizesPass a b := by
    have hone := hsizes 1 one_pos
    rwa [scale_one, scale_one] at hone
  by_cases hp : OriginsPass a b
  · have hhere := (aligned_iff a b).mpr ⟨hcrs, hpass, hp⟩
    have hthere := (aligned_iff (a.scale s) (b.scale s)).mpr
      ⟨hcrs, hsizes s hs, (horigins s hs).mpr hp⟩
    rw [hhere, hthere]
  · have hkind : ∀ {a b : RasterCube}, a.crs = b.crs → SizesPass a b → ¬ OriginsPass a b →
        alignKind (align a b) = .gridNotSnapped := by
      intro a b hcrs hsizes hp
      rcases alignKind_cases a b with ⟨hne, -⟩ | ⟨-, ⟨hno, -⟩ | ⟨-, -, hkind⟩ | ⟨-, hyes, -⟩⟩
      · exact absurd hcrs hne
      · exact absurd hsizes hno
      · exact hkind
      · exact absurd hyes hp
    have hthere := hkind (a := a.scale s) (b := b.scale s) hcrs (hsizes s hs)
      fun h => hp ((horigins s hs).mp h)
    rw [hkind hcrs hpass hp, hthere]

theorem alignsRight_of_crs_ne (hcrs : a.crs ≠ b.crs) : AlignsRight a b := by
  have hkind : ∀ {a b : RasterCube}, a.crs ≠ b.crs → alignKind (align a b) = .crsMismatch := by
    intro a b hcrs
    rcases alignKind_cases a b with ⟨-, hkind⟩ | ⟨heq, -⟩
    · exact hkind
    · exact absurd heq hcrs
  have hno : ∀ {a b : RasterCube}, a.crs ≠ b.crs → align a b ≠ .ok .aligned :=
    fun hcrs h => hcrs ((aligned_iff _ _).mp h).1
  exact ⟨iff_of_false (hno hcrs) (hno (Ne.symm hcrs)),
    fun s _ => (hkind (a := a.scale s) (b := b.scale s) hcrs).trans (hkind hcrs).symm,
    fun h => absurd h (hno hcrs)⟩

section Close

variable (hcrs : a.crs = b.crs)
  (hclose : RelClose |a.transform.dx| |b.transform.dx| ∧ RelClose |a.transform.dy| |b.transform.dy|)

include hclose in
theorem sizesPass_here : SizesPass a b := by
  have hone := sizesPass_of_relClose hclose one_pos
  rwa [scale_one, scale_one] at hone

include hcrs hclose

/-- With a size of zero the origins pass in no unit, and from neither side. -/
theorem alignsRight_of_zero (hzero : a.transform.dx = 0 ∨ a.transform.dy = 0) :
    AlignsRight a b := by
  have hno : ∀ {a b : RasterCube}, a.transform.dx = 0 ∨ a.transform.dy = 0 →
      ¬ OriginsPass a b := fun hzero h => hzero.elim h.1.1 h.2.1
  have hscale : ∀ s : ℚ, (a.scale s).transform.dx = 0 ∨ (a.scale s).transform.dy = 0 :=
    fun s => hzero.imp (fun h => mul_eq_zero_of_right s h) fun h => mul_eq_zero_of_right s h
  have hback : b.transform.dx = 0 ∨ b.transform.dy = 0 :=
    hzero.imp (eq_zero_of_relClose hclose.1) (eq_zero_of_relClose hclose.2)
  have hne : align a b ≠ .ok .aligned := fun h => hno hzero ((aligned_iff a b).mp h).2.2
  refine ⟨iff_of_false hne fun h => hno hback ((aligned_iff b a).mp h).2.2, fun s hs => ?_,
    fun h => absurd h hne⟩
  exact alignKind_scale hcrs (fun s hs => sizesPass_of_relClose hclose hs)
    (fun s _ => iff_of_false (hno (hscale s)) (hno hzero)) hs

/-- Whole offsets pass in every unit. -/
theorem alignsRight_of_whole (hdx : a.transform.dx ≠ 0) (hdy : a.transform.dy ≠ 0)
    (hwx : WholeOffset (a.transform.ulx - b.transform.ulx) a.transform.dx)
    (hwy : WholeOffset (a.transform.uly - b.transform.uly) a.transform.dy)
    (hpass : OriginsPass b a) : AlignsRight a b := by
  have hlx : 0 < |a.transform.dx| := abs_pos.mpr hdx
  have hall : ∀ s : ℚ, 0 < s → OriginsPass (a.scale s) (b.scale s) := by
    intro s hs
    rw [originsPass_scale hs]
    exact ⟨(wholeOffset_iff hdx).mp hwx _ (by positivity),
      (wholeOffset_iff hdy).mp hwy _ (by positivity)⟩
  have hhere : OriginsPass a b := by
    have hone := hall 1 one_pos
    rwa [scale_one, scale_one] at hone
  have hback : SizesPass b a := sizesPass_here ⟨relClose_comm hclose.1, relClose_comm hclose.2⟩
  refine ⟨iff_of_true ((aligned_iff a b).mpr ⟨hcrs, sizesPass_here hclose, hhere⟩)
    ((aligned_iff b a).mpr ⟨hcrs.symm, hback, hpass⟩), fun s hs => ?_, fun _ => ?_⟩
  · exact alignKind_scale hcrs (fun s hs => sizesPass_of_relClose hclose hs)
      (fun s hs => iff_of_true (hall s hs) hhere) hs
  · exact ⟨⟨le_of_relClose (abs_nonneg _) hclose.1, le_of_relClose (abs_nonneg _) hclose.2⟩,
      exists_near_of_wholeOffset hwx, exists_near_of_wholeOffset hwy⟩

end Close

theorem alignsRight_of_settled (h : GridsSettled a b) : AlignsRight a b := by
  by_cases hcrs : a.crs = b.crs
  · obtain ⟨hclose, horigins⟩ := h.resolve_left (not_not.mpr hcrs)
    by_cases hdx : a.transform.dx = 0
    · exact alignsRight_of_zero hcrs hclose (.inl hdx)
    by_cases hdy : a.transform.dy = 0
    · exact alignsRight_of_zero hcrs hclose (.inr hdy)
    obtain ⟨⟨hwx, hwy⟩, hpass⟩ := (horigins.resolve_left hdx).resolve_left hdy
    exact alignsRight_of_whole hcrs hclose hdx hdy hwx hwy hpass
  · exact alignsRight_of_crs_ne hcrs

theorem settled_of_alignsRight (h : AlignsRight a b) : GridsSettled a b := by
  by_cases hcrs : a.crs = b.crs
  · have hsizes := sizesPass_of_scaled hcrs h.scaled
    have hclose : RelClose |a.transform.dx| |b.transform.dx| ∧
        RelClose |a.transform.dy| |b.transform.dy| :=
      ⟨(relClose_iff (abs_nonneg _) (abs_nonneg _)).mpr fun s hs =>
          ((sizesPass_scale hs).mp (hsizes s hs)).1,
        (relClose_iff (abs_nonneg _) (abs_nonneg _)).mpr fun s hs =>
          ((sizesPass_scale hs).mp (hsizes s hs)).2⟩
    refine .inr ⟨hclose, ?_⟩
    by_cases hdx : a.transform.dx = 0
    · exact .inl hdx
    by_cases hdy : a.transform.dy = 0
    · exact .inr (.inl hdy)
    have hlx : 0 < |a.transform.dx| := abs_pos.mpr hdx
    -- in this unit the tolerance is `t`
    have hunit : ∀ t : ℚ, t * 1000 / |a.transform.dx| * |a.transform.dx| * (1 / 1000) = t := by
      intro t
      rw [div_mul_cancel₀ _ hlx.ne']
      ring
    have hpos : ∀ t : ℚ, 0 < t → 0 < t * 1000 / |a.transform.dx| := fun t ht => by positivity
    have hone : OriginsPass (a.scale (1 * 1000 / |a.transform.dx|))
        (b.scale (1 * 1000 / |a.transform.dx|)) := by
      rw [originsPass_scale (hpos 1 one_pos), hunit]
      exact ⟨nearWhole_of_one_le hdx le_rfl, nearWhole_of_one_le hdy le_rfl⟩
    have haligned := (originsPass_of_scaled hcrs h.scaled (hpos 1 one_pos)).mp hone
    have hall : ∀ t : ℚ, 0 < t →
        NearWhole (a.transform.ulx - b.transform.ulx) a.transform.dx t ∧
          NearWhole (a.transform.uly - b.transform.uly) a.transform.dy t := by
      intro t ht
      have hpass := (originsPass_of_scaled hcrs h.scaled (hpos t ht)).mpr haligned
      rwa [originsPass_scale (hpos t ht), hunit] at hpass
    exact .inr (.inr ⟨⟨(wholeOffset_iff hdx).mpr fun t ht => (hall t ht).1,
      (wholeOffset_iff hdy).mpr fun t ht => (hall t ht).2⟩,
      ((aligned_iff b a).mp (h.symmetric.mp haligned)).2.2⟩)
  · exact .inl hcrs

/-- The check does what it should for two cubes exactly if their grids are settled. -/
theorem alignsRight_iff (a b : RasterCube) : AlignsRight a b ↔ GridsSettled a b :=
  ⟨settled_of_alignsRight, alignsRight_of_settled⟩

/-- A cube with pixels of a kilometre. -/
def coarseCube (ulx : ℚ) : RasterCube := ⟨"EPSG:32633", ⟨ulx, 1000, 0, 0, 0, -1000⟩, ["red"]⟩

/-- Two grids that are half a pixel apart count as aligned. -/
theorem coarseCube_aligned :
    align (coarseCube 0) (coarseCube 500) = .ok .aligned ∧
      ¬ AlignsRight (coarseCube 0) (coarseCube 500) := by
  have haligned : align (coarseCube 0) (coarseCube 500) = .ok .aligned := by decide +kernel
  refine ⟨haligned, fun h => ?_⟩
  obtain ⟨-, ⟨n, hn⟩, -⟩ := h.sound haligned
  have hbounds : |(0 : ℚ) - 500 - n * 1000| ≤ |1000| * (1 / 1000) := hn
  rw [abs_of_pos (by norm_num : (0 : ℚ) < 1000), abs_le] at hbounds
  have hlow : (-501 : ℚ) ≤ n * 1000 := by linarith [hbounds.2]
  have hhigh : (n * 1000 : ℚ) ≤ -499 := by linarith [hbounds.1]
  norm_cast at hlow hhigh
  omega

end Contract
end OrbitOpenEO
