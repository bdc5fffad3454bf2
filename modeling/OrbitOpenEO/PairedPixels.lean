import OrbitOpenEO.BlockProcessing
import OrbitOpenEO.Composition
import OrbitOpenEO.DatasetBuilder

/-!
# Pixels of two datasets

Six operations pair the pixels of two datasets.  Those that take a mask and the
histogram pair the blocks at one position; `extend` and `stack` read the second
dataset with the windows of the first.  Each checks some of what makes the pairs
belong together: that the pixels lie at one row, one column and one place.
-/

namespace OrbitOpenEO

/-- Row and column have one place in the world. -/
def SamePlaces (data mask : RasterDataset) : Prop :=
  data.metadata.geoTransform = mask.metadata.geoTransform

/-- The blocks that are paired have one window, and their pixels one place. -/
def SamePixels (data mask : RasterDataset) : Prop :=
  (∀ p ∈ data.blocks.zip mask.blocks, p.1.readWindow = p.2.readWindow) ∧ SamePlaces data mask

/-- The call returns an error. -/
def Refuses {α : Type} (x : Except Failure α) : Prop := ∃ e, x = .error (.error e)

/-- The run returns an error and has written nothing. -/
def RefusesUnwritten {β : Type} (r : EStateM.Result Failure (List (WriteCall β)) Unit) : Prop :=
  ∃ e, r = .error (.error e) []

/-- The two reads of a pair of regions. -/
def readPair (α γ : Type) [RasterType α] [RasterType γ] (gdal : Gdal) (data mask : RasterDataset)
    (p : RasterRegion × RasterRegion) : Except Failure (RasterDataBlock α × RasterDataBlock γ) := do
  let dataBlock ← readBlock gdal data p.1
  let maskBlock ← readBlock gdal mask p.2
  .ok (dataBlock, maskBlock)

/-- The two reads of a pair of blocks that the histogram makes. -/
def readLayerPair (α γ : Type) [RasterType α] [RasterType γ] (gdal : Gdal)
    (data mask : RasterDataset) (blockId : Nat) :
    Except Failure (RasterDataBlock α × RasterDataBlock γ) := do
  let dataBlock ← readBlockLayerIdx gdal data blockId 0
  let maskBlock ← readBlockLayerIdx gdal mask blockId 0
  .ok (dataBlock, maskBlock)

/-- An operation with a mask gets no further than its reads: the datasets have different
numbers of blocks, or no pair of blocks can be read. -/
def StopsAtReads (α γ : Type) [RasterType α] [RasterType γ] (gdal : Gdal)
    (data mask : RasterDataset) : Prop :=
  data.numBlocks ≠ mask.numBlocks ∨
    data.blocks.zip mask.blocks ≠ [] ∧
      ∀ p ∈ data.blocks.zip mask.blocks, Refuses (readPair α γ gdal data mask p)

/-- The histogram gets no further than its reads: the datasets have different numbers of
blocks, or the first pair of blocks that is not read has an error. -/
def StopsAtLayer (α γ : Type) [RasterType α] [RasterType γ] (gdal : Gdal)
    (data mask : RasterDataset) : Prop :=
  data.numBlocks ≠ mask.numBlocks ∨
    ∃ i < data.numBlocks, (∀ j < i, ∃ blocks, readLayerPair α γ gdal data mask j = .ok blocks) ∧
      Refuses (readLayerPair α γ gdal data mask i)

section Masked

variable {α β γ : Type} [RasterType α] [RasterType γ] {gdal : Gdal} {data mask : RasterDataset}

theorem checkBlockCounts_eq_ok_iff :
    checkBlockCounts data mask = .ok () ↔ data.numBlocks = mask.numBlocks := by
  unfold checkBlockCounts
  split_ifs with h
  · rw [bne_iff_ne] at h
    exact iff_of_false (by simp) h
  · rw [bne_iff_ne, not_not] at h
    exact iff_of_true rfl h

theorem refuses_checkBlockCounts (h : data.numBlocks ≠ mask.numBlocks) :
    Refuses (checkBlockCounts data mask) := by
  unfold checkBlockCounts
  rw [if_pos (bne_iff_ne.mpr h)]
  exact ⟨_, rfl⟩

/-- The body of a run over pairs, with its two reads in one step. -/
def pairBody (gdal : Gdal) (data mask : RasterDataset) (writer : BlockWriter β)
    (perPair : RasterDataBlock α → RasterDataBlock γ → Except Failure (Array3 β))
    (p : RasterRegion × RasterRegion) : BlockRun β Unit := do
  let blocks ← Lib.attempt (readPair α γ gdal data mask p)
  let result ← Lib.attempt (perPair blocks.1 blocks.2)
  writeTrimmed writer result p.1

theorem withMaskToWriter_eq (writer : BlockWriter β)
    (perPair : RasterDataBlock α → RasterDataBlock γ → Except Failure (Array3 β))
    (order : List (RasterRegion × RasterRegion)) :
    withMaskToWriter gdal data mask writer perPair order = (do
      Lib.attempt (checkBlockCounts data mask)
      forEachBlock (pairBody gdal data mask writer perPair) order
      Lib.attempt (writer.buildOverviews "AVERAGE" [2, 4, 8, 16])) := by
  have hbody : (fun p : RasterRegion × RasterRegion => (do
      let dataBlock ← Lib.attempt (readBlock gdal data p.1)
      let maskBlock ← Lib.attempt (readBlock gdal mask p.2)
      let result ← Lib.attempt (perPair dataBlock maskBlock)
      writeTrimmed writer result p.1 : BlockRun β Unit)) =
        pairBody gdal data mask writer perPair := by
    funext p log
    unfold pairBody readPair
    simp only [bind, EStateM.bind, Except.bind, Lib.attempt]
    cases (readBlock gdal data p.1 : Except Failure (RasterDataBlock α)) with
    | error e =>
        rfl
    | ok dataBlock =>
        cases (readBlock gdal mask p.2 : Except Failure (RasterDataBlock γ)) <;> rfl
  rw [← hbody]
  rfl

/-- A step that fails where nothing is written ends the run. -/
theorem attempt_bind_refuses {δ : Type} {x : Except Failure δ} {f : δ → BlockRun β Unit}
    (h : Refuses x) : RefusesUnwritten ((Lib.attempt x >>= f) []) := by
  obtain ⟨e, rfl⟩ := h
  exact ⟨e, rfl⟩

/-- If no pair can be read, the operation returns an error and writes nothing. -/
theorem withMaskToWriter_refuses {writer : BlockWriter β}
    {perPair : RasterDataBlock α → RasterDataBlock γ → Except Failure (Array3 β)}
    {order : List (RasterRegion × RasterRegion)}
    (horder : order.Perm (data.blocks.zip mask.blocks)) (h : StopsAtReads α γ gdal data mask) :
    RefusesUnwritten (withMaskToWriter gdal data mask writer perPair order []) := by
  rw [withMaskToWriter_eq]
  by_cases hcount : data.numBlocks = mask.numBlocks
  · obtain hne | ⟨hpairs, hall⟩ := h
    · exact absurd hcount hne
    · cases order with
      | nil =>
          exact absurd horder.symm.eq_nil hpairs
      | cons p rest =>
          obtain ⟨e, hread⟩ := hall p (horder.subset List.mem_cons_self)
          have hcheck : checkBlockCounts data mask = .ok () :=
            checkBlockCounts_eq_ok_iff.mpr hcount
          refine ⟨e, ?_⟩
          simp only [hcheck, forEachBlock, pairBody, hread, bind, EStateM.bind, Lib.attempt]
  · exact attempt_bind_refuses (refuses_checkBlockCounts hcount)

/-- What has been written stays written. -/
theorem ends_pairBody {writer : BlockWriter β}
    {perPair : RasterDataBlock α → RasterDataBlock γ → Except Failure (Array3 β)}
    {p : RasterRegion × RasterRegion} {log : List (WriteCall β)} (hlog : log ≠ []) :
    Lib.Ends (· ≠ []) (pairBody gdal data mask writer perPair p log) := by
  refine Lib.outcome_attempt_bind hlog fun blocks _ => ?_
  refine Lib.outcome_attempt_bind hlog fun result _ => ?_
  refine Lib.outcome_attempt_bind hlog fun trimmed _ => ?_
  refine Lib.outcome_attempt_bind hlog fun _ _ => ?_
  exact List.append_ne_nil_of_left_ne_nil hlog _

theorem ends_forEachBlock {ι : Type} {I : List (WriteCall β) → Prop} {body : ι → BlockRun β Unit}
    (hbody : ∀ a log, I log → Lib.Ends I (body a log)) :
    ∀ (order : List ι) (log : List (WriteCall β)), I log → Lib.Ends I (forEachBlock body order log)
  | [], _, h => h
  | a :: rest, log, h =>
      Lib.Outcome.bind (hbody a log h) fun _ log' h' => ends_forEachBlock hbody rest log' h'

/-- Accepts every call. -/
def acceptAll (β : Type) : BlockWriter β where
  writeBlock _ := .ok ()
  buildOverviews _ _ := .ok ()

/-- The call does not end with an error: it returns or panics. -/
theorem not_refuses_iff {δ : Type} {x : Except Failure δ} :
    ¬ Refuses x ↔ (∃ a, x = .ok a) ∨ ∃ f, x = .error f ∧ ∀ e, f ≠ .error e := by
  unfold Refuses
  rcases x with f | a
  · simp
  · simp

/-- A step that does not end with an error, before anything is written. -/
theorem attempt_bind_not_refuses {δ : Type} {x : Except Failure δ} {f : δ → BlockRun β Unit}
    (hx : ¬ Refuses x) (hf : ∀ a, x = .ok a → ¬ RefusesUnwritten (f a [])) :
    ¬ RefusesUnwritten ((Lib.attempt x >>= f) []) := by
  obtain ⟨a, rfl⟩ | ⟨failure, rfl, hfailure⟩ := not_refuses_iff.mp hx
  · exact hf a rfl
  · rintro ⟨e, h⟩
    cases h
    exact hfailure e rfl

theorem not_refusesUnwritten_of_ends {r : EStateM.Result Failure (List (WriteCall β)) Unit}
    (h : Lib.Ends (· ≠ []) r) : ¬ RefusesUnwritten r := by
  rintro ⟨e, rfl⟩
  exact h rfl

theorem not_refuses_trimOverlap (result : Array3 β) (region : RasterRegion) :
    ¬ Refuses (trimOverlap result region) := by
  rw [trimOverlap_eq]
  split_ifs
  · rintro ⟨e, h⟩
    cases h
  · rintro ⟨e, h⟩
    cases h

/-- A pair that can be read is written by a writer that accepts it, whatever comes after. -/
theorem pairBody_not_refuses
    {perPair : RasterDataBlock α → RasterDataBlock γ → Except Failure (Array3 β)}
    (hperPair : ∀ x y, ¬ Refuses (perPair x y)) {p : RasterRegion × RasterRegion}
    (hread : ¬ Refuses (readPair α γ gdal data mask p)) {rest : Unit → BlockRun β Unit}
    (hrest : ∀ log, log ≠ [] → Lib.Ends (· ≠ []) (rest () log)) :
    ¬ RefusesUnwritten ((pairBody gdal data mask (acceptAll β) perPair p >>= rest) []) := by
  unfold pairBody writeTrimmed
  simp only [bind_assoc]
  refine attempt_bind_not_refuses hread fun blocks _ => ?_
  refine attempt_bind_not_refuses (hperPair _ _) fun result _ => ?_
  refine attempt_bind_not_refuses (not_refuses_trimOverlap _ _) fun trimmed _ => ?_
  exact not_refusesUnwritten_of_ends (hrest _ (List.cons_ne_nil _ _))

/-- If the reads do not stop it, some order of the blocks leads past them. -/
theorem withMaskToWriter_not_refuses
    {perPair : RasterDataBlock α → RasterDataBlock γ → Except Failure (Array3 β)}
    (hperPair : ∀ x y, ¬ Refuses (perPair x y)) (h : ¬ StopsAtReads α γ gdal data mask) :
    ∃ order, order.Perm (data.blocks.zip mask.blocks) ∧
      ¬ RefusesUnwritten (withMaskToWriter gdal data mask (acceptAll β) perPair order []) := by
  unfold StopsAtReads at h
  push Not at h
  obtain ⟨hcount, hpairs⟩ := h
  have hcheck : ¬ Refuses (checkBlockCounts data mask) := by
    rw [checkBlockCounts_eq_ok_iff.mpr hcount]
    rintro ⟨e, h⟩
    cases h
  by_cases hnil : data.blocks.zip mask.blocks = []
  · refine ⟨[], by rw [hnil], ?_⟩
    rw [withMaskToWriter_eq]
    refine attempt_bind_not_refuses hcheck fun _ _ => ?_
    rintro ⟨e, h⟩
    cases h
  · obtain ⟨p, hp, hread⟩ := hpairs hnil
    obtain ⟨before, after, hsplit⟩ := List.append_of_mem hp
    refine ⟨p :: (before ++ after), by rw [hsplit]; exact List.perm_middle.symm, ?_⟩
    rw [withMaskToWriter_eq]
    refine attempt_bind_not_refuses hcheck fun _ _ => ?_
    unfold forEachBlock
    rw [bind_assoc]
    refine pairBody_not_refuses hperPair hread fun log hlog => ?_
    refine Lib.Outcome.bind (ends_forEachBlock (fun _ _ => ends_pairBody) _ log hlog) ?_
    exact fun _ _ hlog => hlog

end Masked

section Others

variable {α β γ : Type} [RasterType α] [RasterType γ] {gdal : Gdal} {data mask : RasterDataset}

/-- A loop whose steps end without an error does so itself. -/
theorem not_refuses_foldlM {δ ι : Type} {step : δ → ι → Except Failure δ}
    (hstep : ∀ acc i, ¬ Refuses (step acc i)) (l : List ι) (acc : δ) :
    ¬ Refuses (l.foldlM step acc) := by
  induction l generalizing acc with
  | nil =>
      rintro ⟨e, h⟩
      cases h
  | cons i l ih =>
      rw [List.foldlM_cons]
      obtain ⟨acc', hi⟩ | ⟨failure, hi, hfailure⟩ := not_refuses_iff.mp (hstep acc i)
      · rw [hi]
        exact ih acc'
      · rw [hi]
        rintro ⟨e, h⟩
        cases h
        exact hfailure e rfl

omit [RasterType α] [RasterType γ] in
/-- The loop over the rows can only panic. -/
theorem not_refuses_rowPixels [RasterType β] (worker : RowView α → RowView γ → Array1 β)
    (x : RasterDataBlock α) (y : RasterDataBlock γ) : ¬ Refuses (rowPixels worker x y) := by
  refine not_refuses_foldlM (fun out r => ?_) _ _
  simp only [Array4.row, Array3.assignRow, bind, Except.bind]
  rintro ⟨e, h⟩
  split_ifs at h <;> grind

/-- Whatever is done with what is read, the loop stops at the first read that fails. -/
theorem refuses_foldlM_reads_iff {δ κ ι : Type} {read : ι → Except Failure κ} {step : δ → κ → δ} :
    ∀ {l : List ι} {acc : δ},
      Refuses (l.foldlM (fun acc i => read i >>= fun x => .ok (step acc x)) acc) ↔
        ∃ (n : Nat) (i : ι), l[n]? = some i ∧ (∀ m < n, ∀ j, l[m]? = some j → ∃ x, read j = .ok x) ∧
          Refuses (read i)
  | [], acc => by
      refine iff_of_false ?_ (by simp)
      rintro ⟨e, h⟩
      cases h
  | i :: l, acc => by
      rw [List.foldlM_cons]
      cases hread : read i with
      | error failure =>
          constructor
          · rintro ⟨e, h⟩
            cases h
            exact ⟨0, i, rfl, fun m hm => absurd hm (Nat.not_lt_zero m), e, hread⟩
          · rintro ⟨n, j, hj, hbefore, e, hjread⟩
            cases n with
            | zero =>
                rw [List.getElem?_cons_zero, Option.some.injEq] at hj
                rw [hj, hjread] at hread
                cases hread
                exact ⟨e, rfl⟩
            | succ n =>
                obtain ⟨x, hx⟩ := hbefore 0 (Nat.succ_pos n) i rfl
                rw [hread] at hx
                cases hx
      | ok x =>
          refine Iff.trans refuses_foldlM_reads_iff ?_
          constructor
          · rintro ⟨n, j, hj, hbefore, hrefuses⟩
            refine ⟨n + 1, j, hj, fun m hm k hk => ?_, hrefuses⟩
            cases m with
            | zero =>
                rw [List.getElem?_cons_zero, Option.some.injEq] at hk
                exact ⟨x, hk ▸ hread⟩
            | succ m =>
                exact hbefore m (Nat.lt_of_succ_lt_succ hm) k hk
          · rintro ⟨n, j, hj, hbefore, hrefuses⟩
            cases n with
            | zero =>
                rw [List.getElem?_cons_zero, Option.some.injEq] at hj
                obtain ⟨e, hjread⟩ := hrefuses
                rw [← hj, hread] at hjread
                cases hjread
            | succ n =>
                exact ⟨n, j, hj, fun m hm => hbefore (m + 1) (Nat.succ_lt_succ hm), hrefuses⟩

/-- When the histogram is refused. -/
theorem zonalHistogram_refuses_iff [DecidableEq α] [DecidableEq γ] :
    Refuses (zonalHistogram γ gdal data mask : Except Failure (Histogram α)) ↔
      StopsAtLayer α γ gdal data mask := by
  unfold zonalHistogram StopsAtLayer
  split_ifs with hcount
  · rw [bne_iff_ne] at hcount
    exact iff_of_true ⟨_, rfl⟩ (Or.inl hcount)
  · rw [bne_iff_ne, not_not] at hcount
    have hstep : (fun (hist : Histogram α) blockId => (do
        let dataBlock : RasterDataBlock α ← readBlockLayerIdx gdal data blockId 0
        let maskBlock : RasterDataBlock γ ← readBlockLayerIdx gdal mask blockId 0
        .ok (countPixels hist dataBlock.data maskBlock.data) : Except Failure (Histogram α))) =
          fun hist blockId => readLayerPair α γ gdal data mask blockId >>= fun blocks =>
            .ok (countPixels hist blocks.1.data blocks.2.data) := by
      funext hist blockId
      simp only [readLayerPair, bind_assoc]
      rfl
    rw [hstep, refuses_foldlM_reads_iff, or_iff_right (not_not.mpr hcount)]
    constructor
    · rintro ⟨n, i, hi, hbefore, hrefuses⟩
      obtain ⟨hn, rfl⟩ := List.getElem?_eq_some_iff.mp hi
      rw [List.length_range] at hn
      rw [List.getElem_range] at hrefuses
      exact ⟨n, hn, fun m hm => hbefore m hm m (List.getElem?_range (hm.trans hn)), hrefuses⟩
    · rintro ⟨n, hn, hbefore, hrefuses⟩
      refine ⟨n, n, List.getElem?_range hn, fun m hm j hj => ?_, hrefuses⟩
      rw [List.getElem?_range (hm.trans hn), Option.some.injEq] at hj
      exact hj ▸ hbefore m hm

/-- A composition is refused where it is not returned. -/
theorem refuses_glue_iff {mismatch : Option String} {shape : RasterShape} {times layers : Nat}
    {a b : RasterDataset} :
    Refuses (glue mismatch shape times layers a b) ↔ ¬ (SameExtent a b ∧ mismatch = none) := by
  have hcheck : Refuses (checkSpatialAlignment a b) ∨ checkSpatialAlignment a b = .ok () := by
    unfold checkSpatialAlignment
    dsimp only
    split_ifs
    · exact Or.inl ⟨_, rfl⟩
    · exact Or.inl ⟨_, rfl⟩
    · exact Or.inr rfl
  rw [← checkSpatialAlignment_eq_ok_iff]
  obtain ⟨e, herror⟩ | hok := hcheck
  · unfold glue
    rw [herror]
    exact iff_of_true ⟨e, rfl⟩ (by simp)
  · unfold glue
    rw [hok]
    cases mismatch with
    | some text =>
        exact iff_of_true ⟨_, rfl⟩ (by simp)
    | none =>
        refine iff_of_false ?_ (by simp)
        rintro ⟨e, h⟩
        cases h

theorem refuses_extend_iff {a b : RasterDataset} :
    Refuses (extend a b) ↔
      ¬ (SameExtent a b ∧ a.metadata.shape.layers = b.metadata.shape.layers) := by
  unfold extend
  simp only [refuses_glue_iff, ite_eq_right_iff, reduceCtorEq, imp_false, bne_iff_ne, not_not]

theorem refuses_stack_iff {a b : RasterDataset} :
    Refuses (stack a b) ↔
      ¬ (SameExtent a b ∧ a.metadata.shape.times = b.metadata.shape.times) := by
  unfold stack
  simp only [refuses_glue_iff, ite_eq_right_iff, reduceCtorEq, imp_false, bne_iff_ne, not_not]

end Others

/-- The operation with a mask is safe: whatever the writer and the order of the blocks, it
pairs the same pixels or returns an error and writes nothing. -/
def SafeWithMask {β : Type} (data mask : RasterDataset)
    (run : BlockWriter β → List (RasterRegion × RasterRegion) → BlockRun β Unit) : Prop :=
  ∀ writer order, order.Perm (data.blocks.zip mask.blocks) →
    SamePixels data mask ∨ RefusesUnwritten (run writer order [])

section Safe

variable {α β γ : Type} [RasterType α] [RasterType γ] {gdal : Gdal} {data mask : RasterDataset}

/-- A family of workers is safe if and only if nothing is paired wrongly or the reads stop
it, as long as one of the workers always comes to an end without an error. -/
theorem safeWithMask_iff {ω : Type}
    {perPair : ω → RasterDataBlock α → RasterDataBlock γ → Except Failure (Array3 β)} (worker : ω)
    (hworker : ∀ x y, ¬ Refuses (perPair worker x y)) :
    (∀ worker, SafeWithMask data mask fun writer order =>
        withMaskToWriter gdal data mask writer (perPair worker) order) ↔
      SamePixels data mask ∨ StopsAtReads α γ gdal data mask := by
  constructor
  · intro h
    by_contra hcon
    rw [not_or] at hcon
    obtain ⟨order, horder, hnot⟩ := withMaskToWriter_not_refuses hworker hcon.2
    exact (h worker (acceptAll β) order horder).elim hcon.1 hnot
  · rintro (hsame | hstops) worker writer order horder
    · exact Or.inl hsame
    · exact Or.inr (withMaskToWriter_refuses horder hstops)

theorem not_refuses_ok {δ : Type} {a : δ} : ¬ Refuses (.ok a : Except Failure δ) := by
  rintro ⟨e, h⟩
  cases h

end Safe

/-- **Pairs of pixels.**  When each of the operations returns an error, with nothing
written, unless the pixels it pairs belong together. -/
theorem paired_pixels_iff (α β γ : Type) [RasterType α] [RasterType β] [RasterType γ]
    [DecidableEq α] [DecidableEq γ] (gdal : Gdal) (data mask : RasterDataset) :
    (SamePlaces data mask ∨ Refuses (extend data mask) ↔
      SamePlaces data mask ∨
        ¬ (SameExtent data mask ∧ data.metadata.shape.layers = mask.metadata.shape.layers)) ∧
    (SamePlaces data mask ∨ Refuses (stack data mask) ↔
      SamePlaces data mask ∨
        ¬ (SameExtent data mask ∧ data.metadata.shape.times = mask.metadata.shape.times)) ∧
    ((∀ worker : RasterDataBlock α → RasterDataBlock γ → Array3 β,
        SafeWithMask data mask fun writer order =>
          applyWithMaskToWriter gdal data mask writer worker order) ↔
      SamePixels data mask ∨ StopsAtReads α γ gdal data mask) ∧
    (∀ dim, (∀ worker : RasterDataBlock α → RasterDataBlock γ → Dimension → Array3 β,
        SafeWithMask data mask fun writer order =>
          applyReductionWithMaskToWriter gdal data mask writer worker dim order) ↔
      SamePixels data mask ∨ StopsAtReads α γ gdal data mask) ∧
    ((∀ worker : RowView α → RowView γ → Array1 β,
        SafeWithMask data mask fun writer order =>
          applyReductionRowPixelWithMaskToWriter gdal data mask writer worker order) ↔
      SamePixels data mask ∨ StopsAtReads α γ gdal data mask) ∧
    (SamePixels data mask ∨
        Refuses (zonalHistogram γ gdal data mask : Except Failure (Histogram α)) ↔
      SamePixels data mask ∨ StopsAtLayer α γ gdal data mask) := by
  refine ⟨?_, ?_, ?_, fun dim => ?_, ?_, ?_⟩
  · rw [refuses_extend_iff]
  · rw [refuses_stack_iff]
  · exact safeWithMask_iff (fun _ _ => ⟨0, 0, 0, fun _ _ _ => RasterType.zero⟩)
      fun _ _ => not_refuses_ok
  · exact safeWithMask_iff (fun _ _ _ => ⟨0, 0, 0, fun _ _ _ => RasterType.zero⟩)
      fun _ _ => not_refuses_ok
  · exact safeWithMask_iff (fun _ _ => ⟨1, fun _ => RasterType.zero⟩)
      fun _ _ => not_refuses_rowPixels _ _ _
  · rw [zonalHistogram_refuses_iff]

/-- The sample dataset, moved by one pixel. -/
def movedDataset : RasterDataset :=
  { sampleDataset .default 1 with
    metadata :=
      { (sampleDataset .default 1).metadata with
        geoTransform := { sampleTransform with originX := 1 } } }

/-- Two datasets that lie one pixel apart are composed, and one masks the other. -/
theorem moved_dataset_paired :
    ¬ SamePlaces (sampleDataset .default 1) movedDataset ∧
      (∃ r, extend (sampleDataset .default 1) movedDataset = .ok r) ∧
      ∃ log, applyWithMaskToWriter (sampleGdal (sampleFile 1)) (sampleDataset .default 1)
          movedDataset (acceptAll F64)
          (fun (x _ : RasterDataBlock F64) => ⟨1, 2, 2, x.data.elem 0⟩)
          ((sampleDataset .default 1).blocks.zip movedDataset.blocks) [] = .ok () log ∧
        log.length = 1 :=
  ⟨by unfold SamePlaces; decide, ⟨_, rfl⟩, _, rfl, rfl⟩

end OrbitOpenEO
