import OrbitOpenEO.Lib.Schedules
import OrbitOpenEO.RasterDataset
import Mathlib.Data.List.Range

/-!
# The block executor of the kernel crate

`enumerate_blocks` lists the windows of the blocks that a raster is cut into, row by row.
`apply_blocks` reads each window and hands it to the worker, in parallel, and collects the
outputs in the order of the list.

A block is a task of two calls, first `read` and then the worker.  The scheduler may
interleave the calls of different blocks as it likes.
-/

namespace OrbitOpenEO
namespace Kernel

open Lib

/-- `GridShape`. -/
structure GridShape where
  rows : Nat
  cols : Nat

/-- `RasterBlockId`. -/
structure RasterBlockId where
  blockRow : Nat
  blockCol : Nat
deriving DecidableEq

/-- `RasterBlockId` as text. -/
def RasterBlockId.display (id : RasterBlockId) : String := s!"({id.blockRow}, {id.blockCol})"

/-- `n as isize`. -/
def asIsize (n : Nat) : Int := (n : Int).bmod (2 ^ 64)

/-- `usize::div_ceil`. -/
def divCeil (a b : Nat) : Nat := if a % b > 0 then a / b + 1 else a / b

/-- The entry of `enumerate_blocks` for a block. -/
def blockEntry (shape : GridShape) (block : BlockSize) (br bc : Nat) :
    RasterBlockId × ReadWindow :=
  let rowOff := br * block.rows
  let colOff := bc * block.cols
  let rows := min block.rows (shape.rows - rowOff)
  let cols := min block.cols (shape.cols - colOff)
  (⟨br, bc⟩, ⟨⟨asIsize rowOff, asIsize colOff⟩, ⟨asIsize rows, asIsize cols⟩⟩)

/-- `enumerate_blocks`. -/
def enumerateBlocks (shape : GridShape) (block : BlockSize) :
    List (RasterBlockId × ReadWindow) :=
  (List.range (divCeil shape.rows block.rows)).flatMap fun br =>
    (List.range (divCeil shape.cols block.cols)).map fun bc => blockEntry shape block br bc

/-- The pixel lies in the window. -/
def Covers (w : ReadWindow) (row col : Int) : Prop :=
  (w.offset.rows ≤ row ∧ row < w.offset.rows + w.size.rows) ∧
    w.offset.cols ≤ col ∧ col < w.offset.cols + w.size.cols

/-- The windows cut the raster into blocks, row by row. -/
structure CutsIntoBlocks (shape : GridShape) (block : BlockSize)
    (grid : List (RasterBlockId × ReadWindow)) : Prop where
  inside : ∀ e ∈ grid, 0 ≤ e.2.offset.rows ∧ e.2.offset.rows + e.2.size.rows ≤ shape.rows ∧
    0 ≤ e.2.offset.cols ∧ e.2.offset.cols + e.2.size.cols ≤ shape.cols
  nonempty : ∀ e ∈ grid, 0 < e.2.size.rows ∧ 0 < e.2.size.cols
  bounded : ∀ e ∈ grid, e.2.size.rows ≤ block.rows ∧ e.2.size.cols ≤ block.cols
  disjoint : grid.Pairwise fun a b => ∀ row col, ¬ (Covers a.2 row col ∧ Covers b.2 row col)
  covering : ∀ row col : Nat, row < shape.rows → col < shape.cols →
    ∃ e ∈ grid, Covers e.2 row col
  rowMajor : grid.Pairwise fun a b =>
    a.2.offset.rows < b.2.offset.rows ∨
      a.2.offset.rows = b.2.offset.rows ∧ a.2.offset.cols < b.2.offset.cols

theorem asIsize_eq {n : Nat} (h : n < 2 ^ 63) : asIsize n = n :=
  Int.bmod_eq_of_le (by omega) (by omega)

theorem lt_divCeil_iff {n b i : Nat} (hb : 0 < b) : i < divCeil n b ↔ i * b < n := by
  rw [divCeil]
  split
  case isTrue hpos =>
    have hne : i * b ≠ n := by
      rintro rfl
      rw [Nat.mul_mod_left] at hpos
      exact Nat.lt_irrefl 0 hpos
    rw [Nat.lt_succ_iff, Nat.le_div_iff_mul_le hb]
    omega
  case isFalse hzero =>
    have hn : n / b * b = n := Nat.div_mul_cancel (Nat.dvd_of_mod_eq_zero (by omega))
    rw [← Nat.mul_lt_mul_right hb, hn]

/-- The numbers of a block along one side. -/
theorem mem_block_iff {n b i x : Nat} (hb : 0 < b) (hi : i * b < n) :
    (i * b ≤ x ∧ x < i * b + min b (n - i * b)) ↔ x < n ∧ x / b = i := by
  have hdiv : x / b = i ↔ i * b ≤ x ∧ x < (i + 1) * b := by
    rw [← Nat.le_div_iff_mul_le hb, ← Nat.div_lt_iff_lt_mul hb]
    omega
  rw [hdiv, Nat.add_mul]
  omega

section Windows

variable {shape : GridShape} {block : BlockSize}

theorem mem_enumerateBlocks (hrows : 0 < block.rows) (hcols : 0 < block.cols)
    {e : RasterBlockId × ReadWindow} :
    e ∈ enumerateBlocks shape block ↔
      ∃ br bc, br * block.rows < shape.rows ∧ bc * block.cols < shape.cols ∧
        e = blockEntry shape block br bc := by
  simp only [enumerateBlocks, List.mem_flatMap, List.mem_map, List.mem_range,
    lt_divCeil_iff hrows, lt_divCeil_iff hcols]
  constructor
  · rintro ⟨br, hbr, bc, hbc, rfl⟩
    exact ⟨br, bc, hbr, hbc, rfl⟩
  · rintro ⟨br, bc, hbr, hbc, rfl⟩
    exact ⟨br, hbr, bc, hbc, rfl⟩

variable {br bc : Nat}

/-- Within the range of `isize` the casts keep the numbers. -/
theorem blockEntry_eq (hrows : shape.rows < 2 ^ 63) (hcols : shape.cols < 2 ^ 63)
    (hbr : br * block.rows < shape.rows) (hbc : bc * block.cols < shape.cols) :
    blockEntry shape block br bc =
      (⟨br, bc⟩, ⟨⟨(br * block.rows : Nat), (bc * block.cols : Nat)⟩,
        ⟨(min block.rows (shape.rows - br * block.rows) : Nat),
          (min block.cols (shape.cols - bc * block.cols) : Nat)⟩⟩) := by
  rw [blockEntry, asIsize_eq (by omega), asIsize_eq (by omega), asIsize_eq (by omega),
    asIsize_eq (by omega)]

/-- A pixel lies in the block that its indices are divided into. -/
theorem covers_blockEntry_iff (hrows : shape.rows < 2 ^ 63) (hcols : shape.cols < 2 ^ 63)
    (hbr : br * block.rows < shape.rows) (hbc : bc * block.cols < shape.cols)
    (hblockRows : 0 < block.rows) (hblockCols : 0 < block.cols) {row col : Nat} :
    Covers (blockEntry shape block br bc).2 row col ↔
      (row < shape.rows ∧ row / block.rows = br) ∧
        col < shape.cols ∧ col / block.cols = bc := by
  rw [← mem_block_iff hblockRows hbr, ← mem_block_iff hblockCols hbc,
    blockEntry_eq hrows hcols hbr hbc]
  simp only [Covers]
  omega

theorem pairwise_enumerateBlocks
    {R : RasterBlockId × ReadWindow → RasterBlockId × ReadWindow → Prop}
    (hrows : 0 < block.rows) (hcols : 0 < block.cols)
    (h : ∀ br bc br' bc', br * block.rows < shape.rows → bc * block.cols < shape.cols →
      br' * block.rows < shape.rows → bc' * block.cols < shape.cols →
        br < br' ∨ br = br' ∧ bc < bc' →
          R (blockEntry shape block br bc) (blockEntry shape block br' bc')) :
    (enumerateBlocks shape block).Pairwise R := by
  refine List.pairwise_flatMap.mpr ⟨fun br hbr => List.pairwise_map.mpr ?_, ?_⟩
  · have hbr := (lt_divCeil_iff hrows).mp (List.mem_range.mp hbr)
    refine List.pairwise_lt_range.imp_of_mem fun {bc bc'} hbc hbc' hlt => ?_
    have hbc := (lt_divCeil_iff hcols).mp (List.mem_range.mp hbc)
    have hbc' := (lt_divCeil_iff hcols).mp (List.mem_range.mp hbc')
    exact h br bc br bc' hbr hbc hbr hbc' (.inr ⟨rfl, hlt⟩)
  · refine List.pairwise_lt_range.imp_of_mem fun {br br'} hbr hbr' hlt x hx y hy => ?_
    have hbr := (lt_divCeil_iff hrows).mp (List.mem_range.mp hbr)
    have hbr' := (lt_divCeil_iff hrows).mp (List.mem_range.mp hbr')
    obtain ⟨bc, hbc, rfl⟩ := List.mem_map.mp hx
    obtain ⟨bc', hbc', rfl⟩ := List.mem_map.mp hy
    have hbc := (lt_divCeil_iff hcols).mp (List.mem_range.mp hbc)
    have hbc' := (lt_divCeil_iff hcols).mp (List.mem_range.mp hbc')
    exact h br bc br' bc' hbr hbc hbr' hbc' (.inl hlt)

/-- The windows cut a raster that `isize` can address into blocks. -/
theorem enumerateBlocks_cuts (hrows : shape.rows < 2 ^ 63) (hcols : shape.cols < 2 ^ 63)
    (hblockRows : 0 < block.rows) (hblockCols : 0 < block.cols) :
    CutsIntoBlocks shape block (enumerateBlocks shape block) where
  inside e he := by
    obtain ⟨br, bc, hbr, hbc, rfl⟩ := (mem_enumerateBlocks hblockRows hblockCols).mp he
    rw [blockEntry_eq hrows hcols hbr hbc]
    dsimp only
    omega
  nonempty e he := by
    obtain ⟨br, bc, hbr, hbc, rfl⟩ := (mem_enumerateBlocks hblockRows hblockCols).mp he
    rw [blockEntry_eq hrows hcols hbr hbc]
    dsimp only
    omega
  bounded e he := by
    obtain ⟨br, bc, hbr, hbc, rfl⟩ := (mem_enumerateBlocks hblockRows hblockCols).mp he
    rw [blockEntry_eq hrows hcols hbr hbc]
    dsimp only
    omega
  disjoint := by
    refine pairwise_enumerateBlocks hblockRows hblockCols ?_
    intro br bc br' bc' hbr hbc hbr' hbc' hlt row col ⟨h, h'⟩
    have hpos : 0 ≤ row ∧ 0 ≤ col := by
      rw [blockEntry_eq hrows hcols hbr hbc] at h
      simp only [Covers] at h
      omega
    lift row to ℕ using hpos.1
    lift col to ℕ using hpos.2
    rw [covers_blockEntry_iff hrows hcols hbr hbc hblockRows hblockCols] at h
    rw [covers_blockEntry_iff hrows hcols hbr' hbc' hblockRows hblockCols] at h'
    omega
  covering row col hrow hcol := by
    have hbr : row / block.rows * block.rows < shape.rows :=
      (Nat.div_mul_le_self row block.rows).trans_lt hrow
    have hbc : col / block.cols * block.cols < shape.cols :=
      (Nat.div_mul_le_self col block.cols).trans_lt hcol
    refine ⟨blockEntry shape block (row / block.rows) (col / block.cols), ?_, ?_⟩
    · exact (mem_enumerateBlocks hblockRows hblockCols).mpr ⟨_, _, hbr, hbc, rfl⟩
    · exact (covers_blockEntry_iff hrows hcols hbr hbc hblockRows hblockCols).mpr
        ⟨⟨hrow, rfl⟩, hcol, rfl⟩
  rowMajor := by
    refine pairwise_enumerateBlocks hblockRows hblockCols ?_
    intro br bc br' bc' hbr hbc hbr' hbc' hlt
    rw [blockEntry_eq hrows hcols hbr hbc, blockEntry_eq hrows hcols hbr' hbc']
    rcases hlt with hlt | ⟨rfl, hlt⟩
    · exact .inl (Int.ofNat_lt.mpr (Nat.mul_lt_mul_of_pos_right hlt hblockRows))
    · exact .inr ⟨rfl, Int.ofNat_lt.mpr (Nat.mul_lt_mul_of_pos_right hlt hblockCols)⟩

end Windows

/-- `RasterBlock`. -/
structure RasterBlock (π : Type) where
  id : RasterBlockId
  window : ReadWindow
  size : BlockSize
  pixels : π

/-- `KernelError::Worker`. -/
inductive KernelError (ε : Type) where
  | worker (blockId : String) (source : ε)

section Tasks

variable {π ω ε : Type} (block : BlockSize)
  (read : RasterBlockId → ReadWindow → Except ε π) (process : RasterBlock π → Except ε ω)

/-- How far the closure of `map` has come for a block. -/
inductive Progress (π ω ε : Type) where
  | waiting
  | loaded (blk : RasterBlock π)
  | done (result : Except (KernelError ε) ω)

/-- The block with its progress. -/
abbrev BlockTask (π ω ε : Type) := (RasterBlockId × ReadWindow) × Progress π ω ε

/-- The next call that the closure makes: `read`, then the worker. -/
def BlockTask.step (t : BlockTask π ω ε) : BlockTask π ω ε :=
  match t.2 with
  | .waiting =>
      match read t.1.1 t.1.2 with
      | .ok pixels => (t.1, .loaded ⟨t.1.1, t.1.2, block, pixels⟩)
      | .error e => (t.1, .done (.error (.worker t.1.1.display e)))
  | .loaded blk =>
      match process blk with
      | .ok out => (t.1, .done (.ok out))
      | .error e => (t.1, .done (.error (.worker t.1.1.display e)))
  | .done _ => t

/-- What the closure has returned. -/
def BlockTask.result (t : BlockTask π ω ε) : Option (Except (KernelError ε) ω) :=
  match t.2 with
  | .done r => some r
  | _ => none

/-- `for r in results { out.push(r?) }`. -/
def collect {κ : Type} : List (Except κ ω) → Except κ (List ω)
  | [] => .ok []
  | r :: rs => do
      let o ← r
      let out ← collect rs
      .ok (o :: out)

/-- `apply_blocks` under a schedule, which names the block of every call; `none` if a block has
not come to its end. -/
def applyBlocks (shape : GridShape) (schedule : List Nat) :
    Option (Except (KernelError ε) (List ω)) :=
  let tasks := (enumerateBlocks shape block).map fun e => (e, Progress.waiting)
  (results BlockTask.result (interleave (BlockTask.step block read process) schedule tasks)).map collect

/-- What the block comes to: the output of the worker, or the error of the call that failed. -/
def blockResult (e : RasterBlockId × ReadWindow) : Except (KernelError ε) ω :=
  match read e.1 e.2 with
  | .error err => .error (.worker e.1.display err)
  | .ok pixels =>
      match process ⟨e.1, e.2, block, pixels⟩ with
      | .error err => .error (.worker e.1.display err)
      | .ok out => .ok out

variable {block read process}

theorem iterate_step_done (e : RasterBlockId × ReadWindow) (r : Except (KernelError ε) ω) (n : Nat) :
    (BlockTask.step block read process)^[n] (e, .done r) = (e, .done r) :=
  Function.iterate_fixed rfl n

/-- Two steps finish a block. -/
theorem iterate_step_waiting (e : RasterBlockId × ReadWindow) (n : Nat) :
    (BlockTask.step block read process)^[n + 2] (e, .waiting) =
      (e, .done (blockResult block read process e)) := by
  rw [Function.iterate_add_apply]
  have htwo : (BlockTask.step block read process)^[2] (e, .waiting) =
      (e, .done (blockResult block read process e)) := by
    show BlockTask.step block read process (BlockTask.step block read process (e, .waiting)) = _
    cases hread : read e.1 e.2 with
    | error err =>
        simp [BlockTask.step, blockResult, hread]
    | ok pixels =>
        cases hprocess : process ⟨e.1, e.2, block, pixels⟩ with
        | error err =>
            simp [BlockTask.step, blockResult, hread, hprocess]
        | ok out =>
            simp [BlockTask.step, blockResult, hread, hprocess]
  rw [htwo]
  exact iterate_step_done e _ n

/-- Whenever a block has come to its end, it is this one. -/
theorem result_of_iterate_step (e : RasterBlockId × ReadWindow) (n : Nat)
    {r : Except (KernelError ε) ω}
    (h : BlockTask.result ((BlockTask.step block read process)^[n] (e, .waiting)) = some r) :
    r = blockResult block read process e := by
  match n with
  | 0 =>
      cases h
  | 1 =>
      simp only [Function.iterate_one, BlockTask.step] at h
      cases hread : read e.1 e.2 with
      | error err =>
          rw [hread] at h
          cases h
          simp [blockResult, hread]
      | ok pixels =>
          rw [hread] at h
          cases h
  | n + 2 =>
      rw [iterate_step_waiting] at h
      exact (Option.some.inj h).symm

/-- The results of all blocks in the order of the grid, or the first error in that order. -/
def InOrder {α κ : Type} (run : α → Except κ ω) (grid : List α) (r : Except κ (List ω)) : Prop :=
  (∃ outs, r = .ok outs ∧ List.Forall₂ (fun e o => run e = .ok o) grid outs) ∨
    ∃ before e after err, grid = before ++ e :: after ∧ (∀ b ∈ before, ∃ o, run b = .ok o) ∧
      run e = .error err ∧ r = .error err

theorem collect_inOrder {α κ : Type} (run : α → Except κ ω) (grid : List α) :
    InOrder run grid (collect (grid.map run)) := by
  induction grid with
  | nil =>
      exact .inl ⟨[], rfl, .nil⟩
  | cons e grid ih =>
      rw [List.map_cons]
      cases hrun : run e with
      | error err =>
          exact .inr ⟨[], e, grid, err, rfl, fun _ hb => absurd hb List.not_mem_nil, hrun, rfl⟩
      | ok o =>
          rcases ih with ⟨outs, hr, houts⟩ | ⟨before, e', after, err, rfl, hbefore, he', hr⟩
          · refine .inl ⟨o :: outs, ?_, .cons hrun houts⟩
            simp only [collect, bind, Except.bind]
            rw [hr]
          · refine .inr ⟨e :: before, e', after, err, rfl, ?_, he', ?_⟩
            · exact List.forall_mem_cons.mpr ⟨⟨o, hrun⟩, hbefore⟩
            · simp only [collect, bind, Except.bind]
              rw [hr]

/-- No schedule changes what `apply_blocks` returns. -/
theorem applyBlocks_eq {shape : GridShape} {schedule : List Nat}
    {r : Except (KernelError ε) (List ω)}
    (h : applyBlocks block read process shape schedule = some r) :
    r = collect ((enumerateBlocks shape block).map (blockResult block read process)) := by
  obtain ⟨rs, hrs, rfl⟩ := Option.map_eq_some_iff.mp h
  have hend : rs = ((enumerateBlocks shape block).map
      fun e => ((e, Progress.waiting) : BlockTask π ω ε)).map
        fun t => blockResult block read process t.1 := by
    refine results_interleave_eq (fun t ht n b hb => ?_) hrs
    obtain ⟨e, -, rfl⟩ := List.mem_map.mp ht
    exact result_of_iterate_step e n hb
  rw [hend, List.map_map]
  rfl

/-- A schedule with both calls of every block lets `apply_blocks` return. -/
theorem applyBlocks_of_fair {shape : GridShape} {schedule : List Nat}
    (h : ∀ i < (enumerateBlocks shape block).length, 2 ≤ schedule.count i) :
    applyBlocks block read process shape schedule =
      some (collect ((enumerateBlocks shape block).map (blockResult block read process))) := by
  have hdone : ∀ t ∈ (enumerateBlocks shape block).map fun e =>
      ((e, Progress.waiting) : BlockTask π ω ε), ∀ m ≥ 2,
        BlockTask.result ((BlockTask.step block read process)^[m] t) =
          some (blockResult block read process t.1) := by
    intro t ht m hm
    obtain ⟨e, -, rfl⟩ := List.mem_map.mp ht
    obtain ⟨k, rfl⟩ := Nat.exists_eq_add_of_le' hm
    rw [iterate_step_waiting]
    rfl
  have hfair : Fair 2 schedule ((enumerateBlocks shape block).map fun e =>
      ((e, Progress.waiting) : BlockTask π ω ε)) := by
    intro i hi
    exact h i (by rwa [List.length_map] at hi)
  rw [applyBlocks, results_interleave_of_fair hdone hfair, List.map_map, Option.map_some]
  rfl

end Tasks

/-- The executor cuts the raster into blocks and returns what they come to, in their order.  The
list of the blocks is taken to fit into the memory. -/
theorem executor_in_order (shape : GridShape) (block : BlockSize)
    (hrows : shape.rows < 2 ^ 63) (hcols : shape.cols < 2 ^ 63)
    (hblockRows : 0 < block.rows) (hblockCols : 0 < block.cols) :
    CutsIntoBlocks shape block (enumerateBlocks shape block) ∧
      ∀ (π ω ε : Type) (read : RasterBlockId → ReadWindow → Except ε π)
        (process : RasterBlock π → Except ε ω) (schedule : List Nat),
        (∀ r, applyBlocks block read process shape schedule = some r →
          InOrder (blockResult block read process) (enumerateBlocks shape block) r) ∧
        ((∀ i < (enumerateBlocks shape block).length, 2 ≤ schedule.count i) →
          (applyBlocks block read process shape schedule).isSome) := by
  refine ⟨enumerateBlocks_cuts hrows hcols hblockRows hblockCols, ?_⟩
  intro π ω ε read process schedule
  refine ⟨fun r hr => ?_, fun hfair => ?_⟩
  · rw [applyBlocks_eq hr]
    exact collect_inOrder _ _
  · rw [applyBlocks_of_fair hfair]
    rfl

theorem executor_in_order_sample :
    CutsIntoBlocks ⟨50, 50⟩ ⟨32, 32⟩ (enumerateBlocks ⟨50, 50⟩ ⟨32, 32⟩) ∧
      ∀ (π ω ε : Type) (read : RasterBlockId → ReadWindow → Except ε π)
        (process : RasterBlock π → Except ε ω) (schedule : List Nat),
        (∀ r, applyBlocks ⟨32, 32⟩ read process ⟨50, 50⟩ schedule = some r →
          InOrder (blockResult ⟨32, 32⟩ read process) (enumerateBlocks ⟨50, 50⟩ ⟨32, 32⟩) r) ∧
        ((∀ i < (enumerateBlocks ⟨50, 50⟩ ⟨32, 32⟩).length, 2 ≤ schedule.count i) →
          (applyBlocks ⟨32, 32⟩ read process ⟨50, 50⟩ schedule).isSome) :=
  executor_in_order ⟨50, 50⟩ ⟨32, 32⟩ (by decide) (by decide) (by decide) (by decide)

/-- A raster beyond the range of `isize` has a window of negative height. -/
theorem hugeRaster_not_cut :
    ¬ CutsIntoBlocks ⟨2 ^ 63, 1⟩ ⟨2 ^ 63, 1⟩ (enumerateBlocks ⟨2 ^ 63, 1⟩ ⟨2 ^ 63, 1⟩) := by
  intro h
  have hmem : blockEntry ⟨2 ^ 63, 1⟩ ⟨2 ^ 63, 1⟩ 0 0 ∈
      enumerateBlocks ⟨2 ^ 63, 1⟩ ⟨2 ^ 63, 1⟩ :=
    (mem_enumerateBlocks (by decide) (by decide)).mpr ⟨0, 0, by decide, by decide, rfl⟩
  exact absurd (h.nonempty _ hmem).1 (by decide)

end Kernel
end OrbitOpenEO
