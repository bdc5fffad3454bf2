import Mathlib.Algebra.Group.Nat.Defs
import Mathlib.Data.Nat.Sqrt
import Mathlib.Order.Bounds.Basic
import Mathlib.Tactic.Common

/-!
# The chunk planner

`ChunkPlan::plan` chooses the side of the square blocks in which a cube is processed.  The
memory budget bounds the side from above; the arithmetic is that of `usize`.
-/

namespace OrbitOpenEO

/-- `a * b` in `usize`. -/
def usizeMul (a b : Nat) : Nat := a * b % 2 ^ 64

/-- `a + b` in `usize`. -/
def usizeAdd (a b : Nat) : Nat := (a + b) % 2 ^ 64

/-- `PlanError`. -/
inductive PlanError where
  | budgetTooSmall (budget nThreads minBlockBytes : Nat)
deriving DecidableEq

/-- `OpKind`. -/
inductive OpKind where
  | pixelwise
  | reduction
  | window
deriving DecidableEq

/-- `bytes_per_pixel_overhead`. -/
def OpKind.bytesPerPixelOverhead : OpKind → Nat
  | .pixelwise => 8
  | .reduction => 16
  | .window => 32

/-- `PlanInput`. -/
structure PlanInput where
  cogTileSize : Nat
  rows : Nat
  cols : Nat
  bands : Nat
  times : Nat
  bytesPerPixel : Nat

/-- `ChunkPlan`. -/
structure ChunkPlan where
  blockRows : Nat
  blockCols : Nat
  nThreads : Nat
  estPeakBytes : Nat
deriving DecidableEq

namespace ChunkPlan

def MIN_BLOCK : Nat := 64

def MAX_BLOCK : Nat := 4096

/-- The bytes that a pixel costs. -/
def perPixel (input : PlanInput) (op : OpKind) : Nat :=
  usizeAdd input.bytesPerPixel
    (usizeMul (usizeMul op.bytesPerPixelOverhead (max input.bands 1)) (max input.times 1))

/-- The largest square that fits the budget of a thread. -/
def maxSideByBudget (budgetPerThread perPixel : Nat) : Nat :=
  Nat.sqrt (min (max (budgetPerThread / perPixel) 1) (MAX_BLOCK * MAX_BLOCK))

/-- The side, snapped down to a multiple of the tile size if that is reasonable. -/
def snapped (cog target : Nat) : Nat :=
  if MIN_BLOCK ≤ cog ∧ cog ≤ target then target / cog * cog else target

/-- `plan`. -/
def plan (input : PlanInput) (op : OpKind) (nThreads memoryBudgetBytes : Nat) :
    Except PlanError ChunkPlan :=
  let nThreads := max nThreads 1
  let perPixel := perPixel input op
  let minBlockBytes := usizeMul (usizeMul MIN_BLOCK MIN_BLOCK) perPixel
  let budgetPerThread := memoryBudgetBytes / nThreads
  if budgetPerThread < minBlockBytes then
    .error (.budgetTooSmall memoryBudgetBytes nThreads minBlockBytes)
  else
    let target := max MIN_BLOCK (min (maxSideByBudget budgetPerThread perPixel) MAX_BLOCK)
    let block := min (min (min (max (snapped input.cogTileSize target) MIN_BLOCK) MAX_BLOCK)
      (max input.rows MIN_BLOCK)) (max input.cols MIN_BLOCK)
    .ok
      { blockRows := block
        blockCols := block
        nThreads := nThreads
        estPeakBytes := usizeMul (usizeMul (usizeMul block block) perPixel) nThreads }

/-- The bytes that a pixel costs, without the limits of `usize`. -/
def cost (input : PlanInput) (op : OpKind) : Nat :=
  input.bytesPerPixel + op.bytesPerPixelOverhead * max input.bands 1 * max input.times 1

/-- A square block of the given side fits the share of a thread. -/
def Fits (input : PlanInput) (op : OpKind) (nThreads budget side : Nat) : Prop :=
  side * side * cost input op ≤ budget / max nThreads 1

instance (input : PlanInput) (op : OpKind) (nThreads budget side : Nat) :
    Decidable (Fits input op nThreads budget side) :=
  inferInstanceAs (Decidable (_ ≤ _))

/-- The plan keeps the four rules. -/
structure Respects (input : PlanInput) (op : OpKind) (nThreads budget : Nat) (p : ChunkPlan) :
    Prop where
  square : p.blockCols = p.blockRows
  floor : 64 ≤ p.blockRows
  ceiling : p.blockRows ≤ 4096
  threads : p.nThreads = max nThreads 1
  peak : p.estPeakBytes = p.blockRows * p.blockCols * cost input op * p.nThreads
  peak_le : p.estPeakBytes ≤ budget
  aligned : ∀ side, IsGreatest {s | s ≤ 4096 ∧ Fits input op nThreads budget s} side →
    64 ≤ input.cogTileSize → input.cogTileSize ≤ side →
      side / input.cogTileSize * input.cogTileSize ≤ input.rows →
        side / input.cogTileSize * input.cogTileSize ≤ input.cols →
          input.cogTileSize ∣ p.blockRows

section Rules

variable {input : PlanInput} {op : OpKind} {nThreads budget : Nat}

theorem cost_pos (input : PlanInput) (op : OpKind) : 0 < cost input op := by
  have hop : 0 < op.bytesPerPixelOverhead := by cases op <;> decide
  have hprod : 0 < op.bytesPerPixelOverhead * max input.bands 1 * max input.times 1 :=
    Nat.mul_pos (Nat.mul_pos hop (by omega)) (by omega)
  exact Nat.lt_of_lt_of_le hprod (Nat.le_add_left _ _)

/-- Below the limit of `usize` nothing wraps. -/
theorem perPixel_eq (h : cost input op * 4096 < 2 ^ 64) : perPixel input op = cost input op := by
  have hcost : cost input op < 2 ^ 64 := by omega
  have htimes : op.bytesPerPixelOverhead * max input.bands 1 * max input.times 1 < 2 ^ 64 :=
    Nat.lt_of_le_of_lt (Nat.le_add_left _ _) hcost
  have hbands : op.bytesPerPixelOverhead * max input.bands 1 < 2 ^ 64 :=
    Nat.lt_of_le_of_lt (Nat.le_mul_of_pos_right _ (by omega)) htimes
  rw [perPixel, usizeMul, usizeMul, Nat.mod_eq_of_lt hbands, Nat.mod_eq_of_lt htimes]
  exact Nat.mod_eq_of_lt hcost

/-- The integer square root is the largest side that fits. -/
theorem le_maxSideByBudget_iff {share c s : Nat} (hc : 0 < c) (hshare : c ≤ share)
    (hs : s ≤ 4096) : s ≤ maxSideByBudget share c ↔ s * s * c ≤ share := by
  have hone : 1 ≤ share / c := (Nat.one_le_div_iff hc).mpr hshare
  have hmax : s * s ≤ MAX_BLOCK * MAX_BLOCK := Nat.mul_le_mul hs hs
  rw [maxSideByBudget, Nat.le_sqrt, Nat.max_eq_left hone, Nat.le_min, Nat.le_div_iff_mul_le hc]
  exact and_iff_left hmax

theorem maxSideByBudget_le (share c : Nat) : maxSideByBudget share c ≤ 4096 :=
  calc maxSideByBudget share c ≤ Nat.sqrt (MAX_BLOCK * MAX_BLOCK) :=
        Nat.sqrt_le_sqrt (Nat.min_le_right _ _)
    _ = 4096 := Nat.sqrt_eq MAX_BLOCK

theorem snapped_le (cog target : Nat) : snapped cog target ≤ target := by
  rw [snapped]
  split
  · exact Nat.div_mul_le_self target cog
  · exact Nat.le_refl target

theorem le_snapped {cog target : Nat} (h : 64 ≤ target) : 64 ≤ snapped cog target := by
  rw [snapped]
  split
  case isTrue hcog =>
    have hone : 1 ≤ target / cog :=
      (Nat.one_le_div_iff (Nat.lt_of_lt_of_le (by decide) hcog.1)).mpr hcog.2
    exact hcog.1.trans (Nat.le_mul_of_pos_left cog hone)
  case isFalse =>
    exact h

/-- The block side before the raster bounds it. -/
def side (input : PlanInput) (op : OpKind) (nThreads budget : Nat) : Nat :=
  maxSideByBudget (budget / max nThreads 1) (cost input op)

/-- What `plan` does when no product wraps. -/
theorem plan_eq (h : cost input op * 4096 < 2 ^ 64) :
    plan input op nThreads budget =
      if Fits input op nThreads budget 64 then
        let block := min (min (snapped input.cogTileSize (side input op nThreads budget))
          (max input.rows 64)) (max input.cols 64)
        .ok ⟨block, block, max nThreads 1,
          usizeMul (usizeMul (usizeMul block block) (cost input op)) (max nThreads 1)⟩
      else
        .error (.budgetTooSmall budget (max nThreads 1) (64 * 64 * cost input op)) := by
  have hmin : usizeMul (usizeMul MIN_BLOCK MIN_BLOCK) (cost input op) =
      64 * 64 * cost input op := by
    rw [show usizeMul MIN_BLOCK MIN_BLOCK = 4096 from rfl, usizeMul, Nat.mod_eq_of_lt (by omega)]
  simp only [plan, perPixel_eq h, hmin]
  by_cases hfits : Fits input op nThreads budget 64
  case neg =>
    rw [if_pos (Nat.lt_of_not_le hfits), if_neg hfits]
  case pos =>
    rw [if_neg (Nat.not_lt_of_le hfits), if_pos hfits]
    have hc := cost_pos input op
    have hshare : cost input op ≤ budget / max nThreads 1 :=
      (Nat.le_mul_of_pos_left _ (by decide)).trans hfits
    have hlow : 64 ≤ side input op nThreads budget :=
      (le_maxSideByBudget_iff hc hshare (by decide)).mpr hfits
    have hhigh : side input op nThreads budget ≤ 4096 := maxSideByBudget_le _ _
    have htarget : max MIN_BLOCK (min (maxSideByBudget (budget / max nThreads 1)
        (cost input op)) MAX_BLOCK) = side input op nThreads budget := by
      exact (congrArg _ (Nat.min_eq_left hhigh)).trans (Nat.max_eq_right hlow)
    have hsnapped : min (max (snapped input.cogTileSize (side input op nThreads budget)) MIN_BLOCK)
        MAX_BLOCK = snapped input.cogTileSize (side input op nThreads budget) := by
      exact (congrArg (min · _) (Nat.max_eq_left (le_snapped hlow))).trans
        (Nat.min_eq_left ((snapped_le _ _).trans hhigh))
    rw [htarget, hsnapped]
    rfl

/-- The side is the largest one that fits. -/
theorem isGreatest_side (h : Fits input op nThreads budget 64) :
    IsGreatest {s | s ≤ 4096 ∧ Fits input op nThreads budget s}
      (side input op nThreads budget) := by
  have hshare : cost input op ≤ budget / max nThreads 1 :=
    (Nat.le_mul_of_pos_left _ (by decide)).trans h
  have hiff : ∀ s ≤ 4096, s ≤ side input op nThreads budget ↔ Fits input op nThreads budget s :=
    fun s hs => le_maxSideByBudget_iff (cost_pos input op) hshare hs
  have hle : side input op nThreads budget ≤ 4096 := maxSideByBudget_le _ _
  exact ⟨⟨hle, (hiff _ hle).mp (Nat.le_refl _)⟩, fun s hs => (hiff s hs.1).mpr hs.2⟩

/-- A block that fits the share of every thread fits the budget. -/
theorem peak_le_of_fits {block : Nat} (h : Fits input op nThreads budget block) :
    block * block * cost input op * max nThreads 1 ≤ budget :=
  (Nat.mul_le_mul_right _ h).trans (Nat.div_mul_le_self budget _)

theorem respects_of_fits (hbudget : budget < 2 ^ 64) (h : Fits input op nThreads budget 64)
    {block : Nat} (hblock : block = min (min (snapped input.cogTileSize
      (side input op nThreads budget)) (max input.rows 64)) (max input.cols 64)) :
    Respects input op nThreads budget ⟨block, block, max nThreads 1,
      usizeMul (usizeMul (usizeMul block block) (cost input op)) (max nThreads 1)⟩ := by
  have hgreatest := isGreatest_side h
  have hlow : 64 ≤ snapped input.cogTileSize (side input op nThreads budget) :=
    le_snapped (hgreatest.2 ⟨by decide, h⟩)
  have hle : block ≤ side input op nThreads budget := by
    have := snapped_le input.cogTileSize (side input op nThreads budget)
    omega
  have hfits : Fits input op nThreads budget block :=
    (Nat.mul_le_mul_right _ (Nat.mul_le_mul hle hle)).trans hgreatest.1.2
  have hpeak := peak_le_of_fits hfits
  -- Each partial product is at most the whole one.
  have hexact : usizeMul (usizeMul (usizeMul block block) (cost input op)) (max nThreads 1) =
      block * block * cost input op * max nThreads 1 := by
    have hthree : block * block * cost input op ≤ block * block * cost input op * max nThreads 1 :=
      Nat.le_mul_of_pos_right _ (by omega)
    have htwo : block * block ≤ block * block * cost input op :=
      Nat.le_mul_of_pos_right _ (cost_pos input op)
    rw [usizeMul, usizeMul, usizeMul, Nat.mod_eq_of_lt (a := block * block) (by omega),
      Nat.mod_eq_of_lt (a := block * block * cost input op) (by omega),
      Nat.mod_eq_of_lt (by omega)]
  exact
    { square := rfl
      floor := by
        show 64 ≤ block
        omega
      ceiling := hle.trans hgreatest.1.1
      threads := rfl
      peak := hexact
      peak_le := hexact.trans_le hpeak
      aligned := by
        intro s hs hcog hcogle hrows hcols
        obtain rfl := hs.unique hgreatest
        have hsnap : snapped input.cogTileSize (side input op nThreads budget) =
            side input op nThreads budget / input.cogTileSize * input.cogTileSize :=
          if_pos ⟨hcog, hcogle⟩
        have heq : block = side input op nThreads budget / input.cogTileSize *
            input.cogTileSize := by
          omega
        show input.cogTileSize ∣ block
        rw [heq]
        exact Nat.dvd_mul_left _ _ }

end Rules

/-- `plan` keeps its four rules. -/
theorem plan_respects (input : PlanInput) (op : OpKind) (nThreads budget : Nat)
    (hcost : cost input op * 4096 < 2 ^ 64) (hbudget : budget < 2 ^ 64) :
    ((∃ e, plan input op nThreads budget = .error e) ↔
        budget / max nThreads 1 < 64 * 64 * cost input op) ∧
      ∀ p, plan input op nThreads budget = .ok p → Respects input op nThreads budget p := by
  rw [plan_eq hcost]
  by_cases hfits : Fits input op nThreads budget 64
  case pos =>
    rw [if_pos hfits]
    refine ⟨⟨?_, fun hlt => absurd hfits (Nat.not_le_of_lt hlt)⟩, ?_⟩
    · rintro ⟨e, he⟩
      cases he
    · intro p hp
      cases hp
      exact respects_of_fits hbudget hfits rfl
  case neg =>
    rw [if_neg hfits]
    exact ⟨⟨fun _ => Nat.lt_of_not_le hfits, fun _ => ⟨_, rfl⟩⟩, fun p hp => by cases hp⟩

/-- The plan of a Sentinel-2 scene, one gigabyte for four threads. -/
theorem plan_respects_sample :
    ((∃ e, plan ⟨512, 10980, 10980, 2, 1, 2⟩ .pixelwise 4 (2 ^ 30) = .error e) ↔
        2 ^ 30 / max 4 1 < 64 * 64 * cost ⟨512, 10980, 10980, 2, 1, 2⟩ .pixelwise) ∧
      ∀ p, plan ⟨512, 10980, 10980, 2, 1, 2⟩ .pixelwise 4 (2 ^ 30) = .ok p →
        Respects ⟨512, 10980, 10980, 2, 1, 2⟩ .pixelwise 4 (2 ^ 30) p :=
  plan_respects ⟨512, 10980, 10980, 2, 1, 2⟩ .pixelwise 4 (2 ^ 30) (by decide) (by decide)

/-- A tile larger than the largest block fits the budget, but the block stays at the ceiling. -/
theorem largeTile_unaligned :
    Fits ⟨5000, 10000, 10000, 1, 1, 1⟩ .pixelwise 1 (9 * 10 ^ 8) 5000 ∧
      ∃ p, plan ⟨5000, 10000, 10000, 1, 1, 1⟩ .pixelwise 1 (9 * 10 ^ 8) = .ok p ∧
        ¬ 5000 ∣ p.blockRows := by
  have hfits : Fits ⟨5000, 10000, 10000, 1, 1, 1⟩ .pixelwise 1 (9 * 10 ^ 8) 64 := by decide
  have hrespects := respects_of_fits (by decide) hfits rfl
  refine ⟨by decide, _, (plan_eq (by decide)).trans (if_pos hfits), fun hdvd => ?_⟩
  have hle := Nat.le_of_dvd (Nat.lt_of_lt_of_le (by decide) hrespects.floor) hdvd
  exact absurd (hle.trans hrespects.ceiling) (by decide)

end ChunkPlan

end OrbitOpenEO
