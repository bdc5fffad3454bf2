import OrbitOpenEO.CubeCalls

/-!
# What the per-scene operations keep of a cube

`apply`, `ndvi`, `mask` and `mask_scl_dilation` compute new files scene by scene
and emit a new cube.  They should keep the frame of the input: its bands, its
datetimes, and with these the possibility to select scenes before or after.

None of the four copies the datetimes, so this is only so for a cube that has
none; and `mask` leaves out the index bands.
-/

namespace OrbitOpenEO

open Lib

/-- The operations that work scene by scene. -/
inductive PerSceneProcess where
  | apply
  | ndvi
  | mask
  | maskSclDilation
deriving DecidableEq

namespace PerSceneProcess

variable (P : Platform) (dir : PathBuf)

/-- The evaluator of a process. -/
def eval : PerSceneProcess → Args → Eval Envelope
  | .apply, args => evalApply P dir args
  | .ndvi, args => evalNdvi P dir args
  | .mask, args => evalMask P dir args
  | .maskSclDilation, args => evalMaskSclDilation P dir args

/-- The bands a process uses up: those `ndvi` is computed from. -/
def usedUp (args : Args) : PerSceneProcess → List String
  | .ndvi => [argStrOr args "red" "B04", argStrOr args "nir" "B08"]
  | _ => []

/-- The bands a process adds. -/
def added (args : Args) : PerSceneProcess → List String
  | .ndvi => [argStrOr args "target_band" "ndvi"]
  | _ => []

/-- All bands of the input that are not used up are found in the output. -/
def KeepsBands (p : PerSceneProcess) (args : Args) (c out : DataCube) : Prop :=
  (∀ b ∈ c.bands.keys, b ∈ p.usedUp args ∨ b ∈ out.bands.keys) ∧
    ∀ b ∈ p.added args, b ∈ out.bands.keys

/-- A call of `filter_temporal` on a cube. -/
def filterCall (data extent : Envelope) : Except ExecError Envelope :=
  evalFilterTemporal ((BTreeMap.empty.insert "data" data).insert "extent" extent)

/-- The process, and then the selection of scenes. -/
def thenFilter (p : PerSceneProcess) (args : Args) (extent : Envelope) : Eval Envelope := do
  let v ← p.eval P dir args
  attempt (filterCall v extent)

/-- The selection of scenes, and then the process. -/
def afterFilter (p : PerSceneProcess) (args : Args) (data extent : Envelope) : Eval Envelope := do
  let v ← attempt (filterCall data extent)
  p.eval P dir (args.insert "data" v)

/-- Two results list the same scenes. -/
def SameScenes (v₁ v₂ : Envelope) : Prop :=
  ∃ c₁ c₂, DataCube.fromEnvelopeOwned v₁ = .ok c₁ ∧ DataCube.fromEnvelopeOwned v₂ = .ok c₂ ∧
    c₁.sceneCount = c₂.sceneCount ∧ c₁.datetimes = c₂.datetimes

/-- Two evaluations both fail, or both succeed with the same scenes. -/
def SameOutcome (x y : Eval Envelope) (w : World) : Prop :=
  match x w, y w with
  | .ok v₁ _, .ok v₂ _ => SameScenes v₁ v₂
  | .error _ _, .error _ _ => True
  | _, _ => False

/-- The output keeps the bands and the datetimes of the input, and scenes can be
selected before or after the process. -/
structure KeepsFrame (p : PerSceneProcess) (args : Args) (w : World) (data : Envelope)
    (c out : DataCube) : Prop where
  bands : p.KeepsBands args c out
  datetimes : out.datetimes = c.datetimes
  commutes : ∀ extent, SameOutcome (p.thenFilter P dir args extent)
    (p.afterFilter P dir args data extent) w

/-- The condition under which a process keeps the frame. -/
def Keeps (p : PerSceneProcess) (c : DataCube) : Prop :=
  c.datetimes = none ∧ (p = .mask → ∀ b ∈ F32_INDEX_BANDS, b ∉ c.bands.keys)

variable {P dir}

theorem apply_keepsBands {args : Args} {c : DataCube} {applied : List (String × List PathBuf)}
    (h : List.Forall₂ (fun k e => e.1 = k) (numericBands c) applied) :
    apply.KeepsBands args c (applyOutput c applied) := by
  refine ⟨?_, nofun⟩
  intro b hb
  right
  rw [applyOutput, BTreeMap.mem_keys_insertAll, BTreeMap.mem_keys_ofEntries]
  by_cases hscl : b = "SCL"
  · left
    obtain ⟨e, he, rfl⟩ := List.mem_map.mp hb
    exact List.mem_map.mpr ⟨e, List.mem_filter.mpr ⟨he, by simpa using hscl⟩, rfl⟩
  · right
    have hnum : b ∈ numericBands c := List.mem_filter.mpr ⟨hb, by simpa using hscl⟩
    obtain ⟨e, he, rfl⟩ := forall₂_exists_right h hnum
    exact List.mem_map_of_mem he

theorem ndvi_keepsBands (args : Args) (c : DataCube) (paths : List PathBuf) :
    ndvi.KeepsBands args c (ndviOutput
      { c with
        bands := (c.bands.remove (argStrOr args "red" "B04")).remove (argStrOr args "nir" "B08") }
      (argStrOr args "red" "B04") (argStrOr args "nir" "B08")
      (argStrOr args "target_band" "ndvi") paths) := by
  constructor
  · intro b hb
    by_cases hred : b = argStrOr args "red" "B04"
    · left
      simp [usedUp, hred]
    by_cases hnir : b = argStrOr args "nir" "B08"
    · left
      simp [usedUp, hnir]
    right
    rw [ndviOutput, BTreeMap.mem_keys_insertAll, BTreeMap.mem_keys_insert]
    by_cases htarget : b = argStrOr args "target_band" "ndvi"
    · exact Or.inr (Or.inl htarget)
    · left
      obtain ⟨v, hv⟩ := (c.bands.mem_keys_iff_get b).mp hb
      refine List.mem_map.mpr ⟨(b, v), List.mem_filter.mpr ⟨?_, ?_⟩, rfl⟩
      · rw [← BTreeMap.get_eq_some_iff, BTreeMap.get_remove, if_neg hnir, BTreeMap.get_remove,
          if_neg hred, hv]
      · simp [hred, hnir, htarget]
  · intro b hb
    rw [added, List.mem_singleton] at hb
    rw [ndviOutput, BTreeMap.mem_keys_insertAll, BTreeMap.mem_keys_insert]
    exact Or.inr (Or.inl hb)

/-- `mask` keeps all bands exactly when there is no index band among them. -/
theorem mask_keepsBands_iff (args : Args) (c : DataCube) (files : String → List PathBuf) (n : Nat)
    (replacement : Int) :
    mask.KeepsBands args c (maskOutput c
        ((maskableBands c).map (fun e => (e.1, files e.1))) n replacement) ↔
      ∀ b ∈ F32_INDEX_BANDS, b ∉ c.bands.keys := by
  constructor
  · rintro ⟨hall, _⟩ b hidx hb
    rcases hall b hb with h | h
    · cases h
    · exact (mem_keys_maskOutput.mp h).2 hidx
  · intro hno
    refine ⟨?_, nofun⟩
    intro b hb
    exact Or.inr (mem_keys_maskOutput.mpr ⟨hb, fun hidx => hno b hidx hb⟩)

theorem maskSclDilation_keepsBands (args : Args) (c : DataCube) (scl : String)
    (sclPaths : List PathBuf) (files : String → List PathBuf) :
    maskSclDilation.KeepsBands args c (maskSclOutput { c with bands := c.bands.remove scl } scl
      sclPaths ((c.bands.remove scl).entries.map (fun e => (e.1, files e.1)))) := by
  refine ⟨?_, nofun⟩
  intro b hb
  exact Or.inr (mem_keys_maskSclOutput.mpr (Or.inr hb))

/-- Every process returns a cube without datetimes, and with all bands unless it
is a `mask` of a cube with index bands. -/
theorem eval_returns (p : PerSceneProcess) (args : Args) :
    Returns
      (fun v => ∃ c out, ArgCube args "data" c ∧ v = .cube out ∧ out.datetimes = none ∧
        (p.KeepsBands args c out ↔ (p = .mask → ∀ b ∈ F32_INDEX_BANDS, b ∉ c.bands.keys)))
      (p.eval P dir args) := by
  intro w v w' hok
  cases p with
  | apply =>
      obtain ⟨c, applied, hc, happlied, rfl⟩ := evalApply_returns P dir args w v w' hok
      exact ⟨c, _, hc, rfl, rfl, iff_of_true (apply_keepsBands happlied) nofun⟩
  | ndvi =>
      obtain ⟨c, n, hc, rfl⟩ := evalNdvi_returns P dir args w v w' hok
      exact ⟨c, _, hc, rfl, rfl, iff_of_true (ndvi_keepsBands args c _) nofun⟩
  | mask =>
      obtain ⟨c, n, replacement, hc, _, _, rfl⟩ := evalMask_returns P dir args w v w' hok
      refine ⟨c, _, hc, rfl, rfl, ?_⟩
      rw [mask_keepsBands_iff args c (fun b => sceneFiles dir b "_mask_t" n) n replacement]
      exact ⟨fun h _ => h, fun h => h rfl⟩
  | maskSclDilation =>
      obtain ⟨c, sclPaths, hc, _, _, rfl⟩ := evalMaskSclDilation_returns P dir args w v w' hok
      exact ⟨c, _, hc, rfl, rfl, iff_of_true (maskSclDilation_keepsBands args c _ sclPaths
        (fun b => sceneFiles dir b "_masked_t" sclPaths.length)) nofun⟩

/-- Scenes cannot be selected from a cube without datetimes. -/
theorem filterCall_error (extent : Envelope) {data : Envelope} {c : DataCube}
    (hc : DataCube.fromEnvelopeOwned data = .ok c) (hdts : c.datetimes = none) :
    ∃ e, filterCall data extent = .error e := by
  cases hcall : filterCall data extent with
  | error e =>
      exact ⟨e, rfl⟩
  | ok v =>
      obtain ⟨c', start, stop, out, ⟨data', hdata', hc'⟩, hfilter, _⟩ :=
        evalFilterTemporal_eq_ok hcall
      have hsame : data' = data := by
        rw [BTreeMap.get_insert, if_neg (by decide), BTreeMap.get_insert_self] at hdata'
        exact (Option.some.inj hdata').symm
      rw [hsame, hc] at hc'
      cases hc'
      obtain ⟨dts, hsome, _⟩ := filterTemporal_eq_ok_iff.mp hfilter
      rw [hdts] at hsome
      cases hsome

theorem sameOutcome_of_no_datetimes {p : PerSceneProcess} {args : Args} {w w' : World}
    {data v extent : Envelope} {c out : DataCube}
    (hc : DataCube.fromEnvelopeOwned data = .ok c) (hdts : c.datetimes = none)
    (hok : p.eval P dir args w = .ok v w')
    (hout : DataCube.fromEnvelopeOwned v = .ok out) (hodts : out.datetimes = none) :
    SameOutcome (p.thenFilter P dir args extent) (p.afterFilter P dir args data extent) w := by
  obtain ⟨e₁, he₁⟩ := filterCall_error extent hout hodts
  obtain ⟨e₂, he₂⟩ := filterCall_error extent hc hdts
  have h₁ : p.thenFilter P dir args extent w = .error e₁ w' := by
    simp [thenFilter, bind, EStateM.bind, hok, he₁, attempt]
  have h₂ : p.afterFilter P dir args data extent w = .error e₂ w := by
    simp [afterFilter, bind, EStateM.bind, he₂, attempt]
  simp [SameOutcome, h₁, h₂]

/-- **A per-scene operation that returns keeps the frame of its input exactly
when the input has no datetimes**, and, for `mask`, no index band. -/
theorem keepsFrame_iff {p : PerSceneProcess} {args : Args} {w w' : World} {data v : Envelope}
    {c out : DataCube} (hdata : args.get "data" = some data)
    (hc : DataCube.fromEnvelopeOwned data = .ok c)
    (hok : p.eval P dir args w = .ok v w')
    (hout : DataCube.fromEnvelopeOwned v = .ok out) :
    p.KeepsFrame P dir args w data c out ↔ p.Keeps c := by
  obtain ⟨c', out', ⟨data', hdata', hc'⟩, hv, hodts, hbands⟩ := eval_returns p args w v w' hok
  rw [hdata] at hdata'
  cases hdata'
  rw [hc] at hc'
  cases hc'
  rw [hv] at hout
  cases hout
  constructor
  · intro h
    exact ⟨h.datetimes.symm.trans hodts, hbands.mp h.bands⟩
  · rintro ⟨hdts, hidx⟩
    refine ⟨hbands.mpr hidx, hodts.trans hdts.symm, ?_⟩
    intro extent
    exact sameOutcome_of_no_datetimes hc hdts hok (by rw [hv]; rfl) hodts

/-- A red and a near-infrared file of one scene. -/
def onePair (datetimes : Option (List String)) : DataCube :=
  { bands := (BTreeMap.empty.insert "B04" ["r0"]).insert "B08" ["n0"]
    sceneCount := some 1
    datetimes := datetimes }

/-- The two files exist. -/
def onePairWorld : World :=
  { World.empty with
    files := fun p =>
      if p = "r0" ∨ p = "n0" then some ⟨1, 1, 10, -10, fun _ _ => .finite 3000⟩ else none }

/-- A node that computes the vegetation index. -/
def onePairArgs (datetimes : Option (List String)) : Args :=
  BTreeMap.empty.insert "data" (.cube (onePair datetimes))

theorem keepsFrame_onePair : ∃ out w,
    ndvi.eval Platform.exact "/work" (onePairArgs none) onePairWorld = .ok (.cube out) w ∧
      ndvi.KeepsFrame Platform.exact "/work" (onePairArgs none) onePairWorld
        (.cube (onePair none)) (onePair none) out := by
  have hrun : ∃ out w, ndvi.eval Platform.exact "/work" (onePairArgs none) onePairWorld =
      .ok (.cube out) w := ⟨_, _, rfl⟩
  obtain ⟨out, w, hok⟩ := hrun
  exact ⟨out, w, hok, (keepsFrame_iff rfl rfl hok rfl).mpr ⟨rfl, nofun⟩⟩

/-- With a datetime in the input the output has lost it. -/
theorem ndvi_loses_datetimes : ∃ out w,
    ndvi.eval Platform.exact "/work" (onePairArgs (some ["2024-06-05T10:00:00Z"])) onePairWorld =
        .ok (.cube out) w ∧
      ¬ ndvi.KeepsFrame Platform.exact "/work" (onePairArgs (some ["2024-06-05T10:00:00Z"]))
        onePairWorld (.cube (onePair (some ["2024-06-05T10:00:00Z"])))
        (onePair (some ["2024-06-05T10:00:00Z"])) out := by
  refine ⟨_, _, rfl, ?_⟩
  intro h
  cases h.datetimes

end PerSceneProcess

end OrbitOpenEO
