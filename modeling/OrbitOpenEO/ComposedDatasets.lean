import OrbitOpenEO.Composition
import OrbitOpenEO.DatasetBuilder

/-!
# The algebra of composed datasets

`extend` and `stack` are two cases of one dataset placed behind another (`glued`):
the slots are those of the first, and those of the second moved on.  From that
follow what a block of the composition holds, and that composing in one order or
another reads the same.
-/

namespace OrbitOpenEO

/-- The mappings of the dataset fill each slot of its shape once. -/
def Filled (rds : RasterDataset) : Prop := FillsOnce rds.metadata.shape rds.layerMappings

/-- One block behind another, from a slot on. -/
def RasterDataBlock.glue {α : Type} (shape : RasterShape) (times layers : Nat)
    (x y : RasterDataBlock α) : RasterDataBlock α :=
  { x with
    data := { x.data with
      times := shape.times
      layers := shape.layers
      elem := fun t l =>
        if times ≤ t ∧ layers ≤ l then y.data.elem (t - times) (l - layers)
        else x.data.elem t l }
    shape := { x.shape with times := shape.times, layers := shape.layers } }

/-- The times of one block, then those of the other. -/
def RasterDataBlock.concatTimes {α : Type} (x y : RasterDataBlock α) : RasterDataBlock α :=
  x.glue { x.shape with times := x.shape.times + y.shape.times } x.shape.times 0 y

/-- The layers of one block, then those of the other. -/
def RasterDataBlock.concatLayers {α : Type} (x y : RasterDataBlock α) : RasterDataBlock α :=
  x.glue { x.shape with layers := x.shape.layers + y.shape.layers } 0 x.shape.layers y

section Slots

variable {shape : RasterShape} {ms ms' : List LayerMapping} {t l times layers : Nat}

theorem fills_iff {m : LayerMapping} :
    m.fills t l = true ↔ m.timePos = t ∧ m.layerPos = l := by
  simp [LayerMapping.fills]

/-- A slot of a moved mapping. -/
theorem fills_moved (m : LayerMapping) :
    (m.moved times layers).fills t l =
      (decide (times ≤ t ∧ layers ≤ l) && m.fills (t - times) (l - layers)) := by
  rw [Bool.eq_iff_iff, Bool.and_eq_true, decide_eq_true_eq, fills_iff, fills_iff]
  simp only [LayerMapping.moved]
  omega

theorem countP_moved (ms : List LayerMapping) :
    (ms.map (LayerMapping.moved times layers)).countP (LayerMapping.fills t l) =
      if times ≤ t ∧ layers ≤ l then
        ms.countP (LayerMapping.fills (t - times) (l - layers)) else 0 := by
  rw [List.countP_map]
  simp only [Function.comp_def, fills_moved]
  split_ifs with h
  · simp [h]
  · simp [h]

theorem inBounds_of_fillsOnce (h : FillsOnce shape ms) {m : LayerMapping} (hm : m ∈ ms) :
    m.InBounds shape := by
  have hpos : 0 < ms.countP (LayerMapping.fills m.timePos m.layerPos) :=
    List.countP_pos_iff.mpr ⟨m, hm, fills_iff.mpr ⟨rfl, rfl⟩⟩
  rw [h] at hpos
  split_ifs at hpos with hbounds
  · exact hbounds
  · omega

/-- The last mapping of a slot among moved ones. -/
theorem lastMapping_moved (ms : List LayerMapping) (t l : Nat) :
    lastMapping (ms.map (LayerMapping.moved times layers)) t l =
      if times ≤ t ∧ layers ≤ l then
        (lastMapping ms (t - times) (l - layers)).map (LayerMapping.moved times layers)
      else none := by
  unfold lastMapping
  rw [← List.map_reverse, List.find?_map]
  simp only [Function.comp_def, fills_moved]
  split_ifs with h
  · simp only [h, decide_true, Bool.true_and, and_self]
  · simp [h]

end Slots

section Glued

variable {gdal : Gdal} {a b r : RasterDataset} {shape : RasterShape} {times layers : Nat}

theorem countP_glued (t l : Nat) :
    (glued shape times layers a b).layerMappings.countP (LayerMapping.fills t l) =
      a.layerMappings.countP (LayerMapping.fills t l) +
        if times ≤ t ∧ layers ≤ l then
          b.layerMappings.countP (LayerMapping.fills (t - times) (l - layers)) else 0 := by
  rw [glued, List.countP_append, countP_moved]

theorem filled_extend (ha : Filled a) (hb : Filled b) (h : extend a b = .ok r) : Filled r := by
  obtain ⟨_, hlayers, rfl⟩ := extend_eq_ok_iff.mp h
  intro t l
  rw [countP_glued, ha, hb]
  dsimp only [glued]
  grind

theorem filled_stack (ha : Filled a) (hb : Filled b) (h : stack a b = .ok r) : Filled r := by
  obtain ⟨_, htimes, rfl⟩ := stack_eq_ok_iff.mp h
  intro t l
  rw [countP_glued, ha, hb]
  dsimp only [glued]
  grind

/-- The slots of the first dataset end before those of the second begin, and both lie
in the shape. -/
structure FitsBehind (shape : RasterShape) (times layers : Nat) (a b : RasterDataset) : Prop where
  before : ∀ t l, t < a.metadata.shape.times → l < a.metadata.shape.layers →
    ¬ (times ≤ t ∧ layers ≤ l)
  first : a.metadata.shape.times ≤ shape.times ∧ a.metadata.shape.layers ≤ shape.layers
  second : b.metadata.shape.times + times ≤ shape.times ∧
    b.metadata.shape.layers + layers ≤ shape.layers

theorem readable_glued (ha : Filled a) (hb : Filled b) (h : FitsBehind shape times layers a b)
    (region : RasterRegion) :
    Readable gdal (glued shape times layers a b) region ↔
      Readable gdal a region ∧ Readable gdal b region := by
  have hfirst := h.first
  have hsecond := h.second
  unfold Readable
  simp only [glued, List.forall_mem_append, List.forall_mem_map]
  constructor
  · rintro ⟨hsize, hall, hall'⟩
    exact ⟨⟨hsize, fun m hm => ⟨(hall m hm).1, inBounds_of_fillsOnce ha hm⟩⟩,
      hsize, fun m hm => ⟨(hall' m hm).1, inBounds_of_fillsOnce hb hm⟩⟩
  · rintro ⟨⟨hsize, hall⟩, _, hall'⟩
    refine ⟨hsize, fun m hm => ⟨(hall m hm).1, ?_⟩, fun m hm => ⟨(hall' m hm).1, ?_⟩⟩
    · have hm' := inBounds_of_fillsOnce ha hm
      exact ⟨lt_of_lt_of_le hm'.1 hfirst.1, lt_of_lt_of_le hm'.2 hfirst.2⟩
    · have hm' := inBounds_of_fillsOnce hb hm
      exact ⟨lt_of_lt_of_le (Nat.add_lt_add_right hm'.1 times) hsecond.1,
        lt_of_lt_of_le (Nat.add_lt_add_right hm'.2 layers) hsecond.2⟩

/-- A block of the composition is one block behind the other. -/
theorem blockOf_glued {α : Type} [RasterType α] (ha : Filled a)
    (h : FitsBehind shape times layers a b) (region : RasterRegion) :
    (blockOf gdal (glued shape times layers a b) region : RasterDataBlock α) =
      (blockOf gdal a region).glue shape times layers (blockOf gdal b region) := by
  unfold blockOf RasterDataBlock.glue blockShape
  simp only [glued, RasterDataBlock.mk.injEq, Array4.mk.injEq, true_and, and_true]
  funext t l
  rw [lastMapping_append, lastMapping_moved]
  by_cases hslot : times ≤ t ∧ layers ≤ l
  · have hnone : lastMapping a.layerMappings t l = none := by
      refine lastMapping_eq_none fun m hm hm' => ?_
      obtain ⟨ht, hl⟩ := inBounds_of_fillsOnce ha hm
      rw [hm'.1] at ht
      rw [hm'.2] at hl
      exact h.before t l ht hl hslot
    rw [if_pos hslot, if_pos hslot, hnone, Option.or_none]
    cases lastMapping b.layerMappings (t - times) (l - layers) <;> rfl
  · rw [if_neg hslot, if_neg hslot, Option.none_or]

/-- Reading a composition is reading both datasets with the windows of the region. -/
theorem readBlock_glued {α : Type} [RasterType α] (ha : Filled a) (hb : Filled b)
    (h : FitsBehind shape times layers a b) (region : RasterRegion) (block : RasterDataBlock α) :
    readBlock gdal (glued shape times layers a b) region = .ok block ↔
      ∃ x y, readBlock gdal a region = .ok x ∧ readBlock gdal b region = .ok y ∧
        block = x.glue shape times layers y := by
  simp only [readBlock_eq_ok_iff, readable_glued ha hb h, blockOf_glued ha h]
  constructor
  · rintro ⟨⟨hreadA, hreadB⟩, rfl⟩
    exact ⟨_, _, ⟨hreadA, rfl⟩, ⟨hreadB, rfl⟩, rfl⟩
  · rintro ⟨_, _, ⟨hreadA, rfl⟩, ⟨hreadB, rfl⟩, rfl⟩
    exact ⟨⟨hreadA, hreadB⟩, rfl⟩

end Glued

section Laws

variable {gdal : Gdal} {a b c d r : RasterDataset}

theorem fitsBehind_extend (h : extend a b = .ok r) :
    FitsBehind { a.metadata.shape with
        times := a.metadata.shape.times + b.metadata.shape.times } a.metadata.shape.times 0 a b := by
  obtain ⟨_, hlayers, _⟩ := extend_eq_ok_iff.mp h
  refine ⟨fun t l ht _ hslot => absurd hslot.1 (not_le.mpr ht), ⟨?_, ?_⟩, ⟨?_, ?_⟩⟩ <;> grind

theorem fitsBehind_stack (h : stack a b = .ok r) :
    FitsBehind { a.metadata.shape with
        layers := a.metadata.shape.layers + b.metadata.shape.layers }
      0 a.metadata.shape.layers a b := by
  obtain ⟨_, htimes, _⟩ := stack_eq_ok_iff.mp h
  refine ⟨fun t l _ hl hslot => absurd hslot.2 (not_le.mpr hl), ⟨?_, ?_⟩, ⟨?_, ?_⟩⟩ <;> grind

variable {α : Type} [RasterType α]

/-- A block of `extend` has the times of both datasets. -/
theorem readBlock_extend (ha : Filled a) (hb : Filled b) (h : extend a b = .ok r)
    (region : RasterRegion) (block : RasterDataBlock α) :
    readBlock gdal r region = .ok block ↔
      ∃ x y, readBlock gdal a region = .ok x ∧ readBlock gdal b region = .ok y ∧
        block = x.concatTimes y := by
  have hfits := fitsBehind_extend h
  obtain ⟨_, _, rfl⟩ := extend_eq_ok_iff.mp h
  rw [readBlock_glued ha hb hfits]
  refine exists_congr fun x => exists_congr fun y => and_congr_right fun hx =>
    and_congr_right fun hy => ?_
  obtain ⟨_, rfl⟩ := readBlock_eq_ok_iff.mp hx
  obtain ⟨_, rfl⟩ := readBlock_eq_ok_iff.mp hy
  rfl

/-- A block of `stack` has the layers of both datasets. -/
theorem readBlock_stack (ha : Filled a) (hb : Filled b) (h : stack a b = .ok r)
    (region : RasterRegion) (block : RasterDataBlock α) :
    readBlock gdal r region = .ok block ↔
      ∃ x y, readBlock gdal a region = .ok x ∧ readBlock gdal b region = .ok y ∧
        block = x.concatLayers y := by
  have hfits := fitsBehind_stack h
  obtain ⟨_, _, rfl⟩ := stack_eq_ok_iff.mp h
  rw [readBlock_glued ha hb hfits]
  refine exists_congr fun x => exists_congr fun y => and_congr_right fun hx =>
    and_congr_right fun hy => ?_
  obtain ⟨_, rfl⟩ := readBlock_eq_ok_iff.mp hx
  obtain ⟨_, rfl⟩ := readBlock_eq_ok_iff.mp hy
  rfl

theorem moved_moved (m : LayerMapping) (t l t' l' : Nat) :
    (m.moved t l).moved t' l' = m.moved (t + t') (l + l') := by
  simp only [LayerMapping.moved, Nat.add_assoc]

/-- Three datasets behind one another. -/
theorem glued_assoc (shape shape₁ shape₂ : RasterShape) (t l t' l' : Nat) :
    glued shape (t + t') (l + l') (glued shape₁ t l a b) c =
      glued shape t l a (glued shape₂ t' l' b c) := by
  simp only [glued, List.map_append, List.map_map, List.append_assoc, Function.comp_def,
    moved_moved, Nat.add_comm]

/-- `extend` is associative. -/
theorem extend_assoc :
    (extend a b >>= fun ab => extend ab c) = .ok r ↔
      (extend b c >>= fun bc => extend a bc) = .ok r := by
  simp only [Lib.bind_eq_ok_iff, extend_eq_ok_iff]
  constructor
  · rintro ⟨_, ⟨hab, hlayers, rfl⟩, habc, hlayers', rfl⟩
    refine ⟨_, ⟨?_, hlayers.symm.trans hlayers', rfl⟩, hab, hlayers, ?_⟩
    · exact ⟨hab.1.symm.trans habc.1, hab.2.1.symm.trans habc.2.1, hab.2.2.symm.trans habc.2.2⟩
    · refine (glued_assoc _ _ b.metadata.shape _ 0 _ 0).trans ?_
      simp only [glued, Nat.add_assoc]
  · rintro ⟨_, ⟨hbc, hlayers, rfl⟩, hab, hlayers', rfl⟩
    refine ⟨_, ⟨hab, hlayers', rfl⟩, ?_, hlayers'.trans hlayers, ?_⟩
    · exact ⟨hab.1.trans hbc.1, hab.2.1.trans hbc.2.1, hab.2.2.trans hbc.2.2⟩
    · refine Eq.trans ?_ (glued_assoc _ _ b.metadata.shape _ 0 _ 0).symm
      simp only [glued, Nat.add_assoc]

/-- `stack` is associative. -/
theorem stack_assoc :
    (stack a b >>= fun ab => stack ab c) = .ok r ↔
      (stack b c >>= fun bc => stack a bc) = .ok r := by
  simp only [Lib.bind_eq_ok_iff, stack_eq_ok_iff]
  constructor
  · rintro ⟨_, ⟨hab, htimes, rfl⟩, habc, htimes', rfl⟩
    refine ⟨_, ⟨?_, htimes.symm.trans htimes', rfl⟩, hab, htimes, ?_⟩
    · exact ⟨hab.1.symm.trans habc.1, hab.2.1.symm.trans habc.2.1, hab.2.2.symm.trans habc.2.2⟩
    · refine (glued_assoc _ _ b.metadata.shape 0 _ 0 _).trans ?_
      simp only [glued, Nat.add_assoc]
  · rintro ⟨_, ⟨hbc, htimes, rfl⟩, hab, htimes', rfl⟩
    refine ⟨_, ⟨hab, htimes', rfl⟩, ?_, htimes'.trans htimes, ?_⟩
    · exact ⟨hab.1.trans hbc.1, hab.2.1.trans hbc.2.1, hab.2.2.trans hbc.2.2⟩
    · refine Eq.trans ?_ (glued_assoc _ _ b.metadata.shape 0 _ 0 _).symm
      simp only [glued, Nat.add_assoc]

omit [RasterType α] in
/-- Four blocks in two rows and two columns: put together by rows or by columns. -/
theorem concat_interchange {x y z w : RasterDataBlock α} (hlayers : x.shape.layers = y.shape.layers)
    (htimes : x.shape.times = z.shape.times) :
    (x.concatTimes y).concatLayers (z.concatTimes w) =
      (x.concatLayers z).concatTimes (y.concatLayers w) := by
  unfold RasterDataBlock.concatTimes RasterDataBlock.concatLayers RasterDataBlock.glue
  simp only [RasterDataBlock.mk.injEq, Array4.mk.injEq, true_and, and_true]
  funext t l
  rw [hlayers, htimes]
  split_ifs <;> first | rfl | omega

/-- `stack` and `extend` change places. -/
theorem readBlock_interchange {ab cd ac bd s e : RasterDataset} (ha : Filled a) (hb : Filled b)
    (hc : Filled c) (hd : Filled d) (hab : extend a b = .ok ab) (hcd : extend c d = .ok cd)
    (hac : stack a c = .ok ac) (hbd : stack b d = .ok bd) (hs : stack ab cd = .ok s)
    (he : extend ac bd = .ok e) (region : RasterRegion) (block : RasterDataBlock α) :
    readBlock gdal s region = .ok block ↔ readBlock gdal e region = .ok block := by
  rw [readBlock_stack (filled_extend ha hb hab) (filled_extend hc hd hcd) hs,
    readBlock_extend (filled_stack ha hc hac) (filled_stack hb hd hbd) he]
  simp only [readBlock_extend ha hb hab, readBlock_extend hc hd hcd, readBlock_stack ha hc hac,
    readBlock_stack hb hd hbd]
  have hswap : ∀ x y z w : RasterDataBlock α, readBlock gdal a region = .ok x →
      readBlock gdal b region = .ok y → readBlock gdal c region = .ok z →
      (x.concatTimes y).concatLayers (z.concatTimes w) =
        (x.concatLayers z).concatTimes (y.concatLayers w) := by
    intro x y z w hx hy hz
    obtain ⟨_, rfl⟩ := readBlock_eq_ok_iff.mp hx
    obtain ⟨_, rfl⟩ := readBlock_eq_ok_iff.mp hy
    obtain ⟨_, rfl⟩ := readBlock_eq_ok_iff.mp hz
    exact concat_interchange (extend_eq_ok_iff.mp hab).2.1 (stack_eq_ok_iff.mp hac).2.1
  constructor
  · rintro ⟨_, _, ⟨x, y, hx, hy, rfl⟩, ⟨z, w, hz, hw, rfl⟩, rfl⟩
    exact ⟨_, _, ⟨x, z, hx, hz, rfl⟩, ⟨y, w, hy, hw, rfl⟩, hswap x y z w hx hy hz⟩
  · rintro ⟨_, _, ⟨x, z, hx, hz, rfl⟩, ⟨y, w, hy, hw, rfl⟩, rfl⟩
    exact ⟨_, _, ⟨x, y, hx, hy, rfl⟩, ⟨z, w, hz, hw, rfl⟩, (hswap x y z w hx hy hz).symm⟩

end Laws

/-- What a composition is: filled, cut like the first dataset, and read like both. -/
def ReadsAs {α : Type} [RasterType α] (gdal : Gdal) (a b r : RasterDataset)
    (concat : RasterDataBlock α → RasterDataBlock α → RasterDataBlock α) : Prop :=
  Filled r ∧ r.blocks = a.blocks ∧
    ∀ region block, readBlock gdal r region = .ok block ↔
      ∃ x y, readBlock gdal a region = .ok x ∧ readBlock gdal b region = .ok y ∧
        block = concat x y

/-- **Composed datasets.**  Filled datasets compose to filled ones that read as one
behind the other; both compositions are associative, and they change places. -/
theorem composed_datasets (α : Type) [RasterType α] (gdal : Gdal) {a b c d : RasterDataset}
    (ha : Filled a) (hb : Filled b) (hc : Filled c) (hd : Filled d) :
    (∀ r, extend a b = .ok r → ReadsAs gdal a b r (fun x y : RasterDataBlock α => x.concatTimes y)) ∧
    (∀ r, stack a b = .ok r → ReadsAs gdal a b r (fun x y : RasterDataBlock α => x.concatLayers y)) ∧
    (∀ r, (extend a b >>= fun ab => extend ab c) = .ok r ↔
      (extend b c >>= fun bc => extend a bc) = .ok r) ∧
    (∀ r, (stack a b >>= fun ab => stack ab c) = .ok r ↔
      (stack b c >>= fun bc => stack a bc) = .ok r) ∧
    (∀ ab cd ac bd s e, extend a b = .ok ab → extend c d = .ok cd → stack a c = .ok ac →
      stack b d = .ok bd → stack ab cd = .ok s → extend ac bd = .ok e →
      ∀ region (block : RasterDataBlock α),
        readBlock gdal s region = .ok block ↔ readBlock gdal e region = .ok block) := by
  refine ⟨fun r h => ?_, fun r h => ?_, fun r => extend_assoc, fun r => stack_assoc, ?_⟩
  · have hblocks : r.blocks = a.blocks := by
      obtain ⟨_, _, rfl⟩ := extend_eq_ok_iff.mp h
      rfl
    exact ⟨filled_extend ha hb h, hblocks, readBlock_extend ha hb h⟩
  · have hblocks : r.blocks = a.blocks := by
      obtain ⟨_, _, rfl⟩ := stack_eq_ok_iff.mp h
      rfl
    exact ⟨filled_stack ha hb h, hblocks, readBlock_stack ha hb h⟩
  · intro ab cd ac bd s e hab hcd hac hbd hs he
    exact readBlock_interchange ha hb hc hd hab hcd hac hbd hs he

theorem filled_sampleDataset : Filled (sampleDataset .default 1) := by
  intro t l
  simp only [sampleDataset, List.countP_cons, List.countP_nil, fills_iff]
  grind

theorem composed_sampleDataset :
    ∃ r, extend (sampleDataset .default 1) (sampleDataset .default 1) = .ok r ∧
      ReadsAs (sampleGdal (sampleFile 1)) (sampleDataset .default 1) (sampleDataset .default 1) r
        (fun x y : RasterDataBlock F64 => x.concatTimes y) :=
  ⟨_, rfl, (composed_datasets F64 (sampleGdal (sampleFile 1)) filled_sampleDataset
    filled_sampleDataset filled_sampleDataset filled_sampleDataset).1 _ rfl⟩

end OrbitOpenEO
