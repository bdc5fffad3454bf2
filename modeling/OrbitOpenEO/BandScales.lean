import OrbitOpenEO.CubeCalls
import OrbitOpenEO.Lib.Run
import Mathlib.Tactic.NormNum

/-!
# Scales along a chain of operations

A band of digital numbers has a scale and an offset in `band_scales`, and
`apply` looks them up under the name the band has by then.  A chain of
operations that hand bands on is a run over the cubes made so far: each step
calls one operation on some of them and adds its result.

For every cube of the run its `Origin` says from which band of which source cube
each of its bands comes.  A cube carries its scales when every band has the
scale of that source band.  Renaming leaves the map under the old names, and
joining and masking emit a cube without it.
-/

namespace OrbitOpenEO

open Lib

/-- The source cube and the source band of each band. -/
abbrev Origin := String → DataCube × String

/-- A cube that comes from outside is its own source. -/
def Origin.own (c : DataCube) : Origin := fun b => (c, b)

/-- Every band has the scale and offset of the band it comes from. -/
def CarriesScales (c : DataCube) (o : Origin) : Prop :=
  ∀ b ∈ c.bands.keys, c.scaleOf b = (o b).1.scaleOf (o b).2

/-- An argument together with the origin of its bands. -/
abbrev TrackedArgs := BTreeMap (Envelope × Origin)

/-- The arguments as the operation sees them. -/
def TrackedArgs.plain (args : TrackedArgs) : Args := args.mapValues Prod.fst

namespace CubeProcess

/-- Where the bands of the result come from.  The second and third case of
`merge_cubes` compute new values and do not belong to a chain. -/
def origin (args : TrackedArgs) : CubeProcess → Option Origin
  | .renameLabels =>
      match args.get "data" with
      | none => none
      | some (v, o) =>
          match DataCube.fromEnvelopeOwned v with
          | .error _ => none
          | .ok c =>
              match renameSources c (renameSource args.plain) (renameTarget args.plain) with
              | .error _ => none
              | .ok oldKeys =>
                  some (fun b => o (renamedFrom (oldKeys.zip (renameTarget args.plain)) b))
  | .mergeCubes =>
      match (args.get "cube1").or (args.get "data1"), (args.get "cube2").or (args.get "data2") with
      | some (.cube c1, o1), some (.cube c2, o2) =>
          if bandsOverlap c1 c2 then none
          else some (fun b => if c1.bands.containsKey b then o1 b else o2 b)
      | _, _ => none
  | _ => (args.get "data").map Prod.snd

/-- The scales that a call of the operation would lose are all the identity. -/
def ScalesSurvive (args : Args) : CubeProcess → Prop
  | .renameLabels => ∀ c oldKeys, ArgCube args "data" c →
      renameSources c (renameSource args) (renameTarget args) = .ok oldKeys →
      ∀ p ∈ oldKeys.zip (renameTarget args),
        c.scaleOf p.2 = c.scaleOf (renamedFrom (oldKeys.zip (renameTarget args)) p.2)
  | .mergeCubes => ∀ c, IsInput args c .mergeCubes → ∀ b ∈ c.bands.keys, c.scaleOf b = (1, 0)
  | .mask => ∀ c, ArgCube args "data" c →
      ∀ b ∈ c.bands.keys, b ∉ F32_INDEX_BANDS → c.scaleOf b = (1, 0)
  | .maskSclDilation => ∀ c, ArgCube args "data" c → ∀ b ∈ c.bands.keys, c.scaleOf b = (1, 0)
  | _ => True

end CubeProcess

/-- An argument of a step: written out, or the result of an earlier step. -/
inductive ChainArg where
  | literal (v : Envelope)
  | ref (i : Nat)

/-- One operation of a chain. -/
structure ChainNode where
  process : CubeProcess
  args : BTreeMap ChainArg

/-- The cubes so far, each with the origin of its bands. -/
structure ChainState where
  world : World
  cubes : List (DataCube × Origin)

namespace ChainState

/-- The value of an argument.  A reference to nothing is null, which no operation
accepts. -/
def resolve (s : ChainState) : ChainArg → Envelope × Origin
  | .literal v =>
      match DataCube.fromEnvelopeOwned v with
      | .ok c => (v, Origin.own c)
      | .error _ => (v, Origin.own DataCube.new)
  | .ref i =>
      match s.cubes[i]? with
      | some (c, o) => (.cube c, o)
      | none => (.value .null .missingEnvelope, Origin.own DataCube.new)

/-- The arguments of a step. -/
def argsOf (s : ChainState) (node : ChainNode) : TrackedArgs := node.args.mapValues s.resolve

/-- Call the operation and add its result. -/
def step (P : Platform) (dir : PathBuf) (s : ChainState) (node : ChainNode) : Option ChainState :=
  match node.process.eval P dir (s.argsOf node).plain s.world,
      node.process.origin (s.argsOf node) with
  | .ok v w, some o =>
      match DataCube.fromEnvelopeOwned v with
      | .ok out => some ⟨w, s.cubes ++ [(out, o)]⟩
      | .error _ => none
  | _, _ => none

/-- The chain starts from any cubes. -/
def start (w : World) (sources : List DataCube) : ChainState :=
  ⟨w, sources.map (fun c => (c, Origin.own c))⟩

/-- The condition on a step: no scale other than the identity is lost. -/
def KeepsScales (s : ChainState) (node : ChainNode) : Prop :=
  node.process.ScalesSurvive (s.argsOf node).plain

/-- Every cube carries its scales. -/
def AllCarry (s : ChainState) : Prop := ∀ d ∈ s.cubes, CarriesScales d.1 d.2

end ChainState

/-- The cubes among the arguments carry their scales. -/
def TrackedArgs.Carry (args : TrackedArgs) : Prop :=
  ∀ key v o c, args.get key = some (v, o) → DataCube.fromEnvelopeOwned v = .ok c →
    CarriesScales c o

theorem ChainState.AllCarry.argsOf {s : ChainState} (h : s.AllCarry) (node : ChainNode) :
    (s.argsOf node).Carry := by
  intro key v o c hget hc
  rw [ChainState.argsOf, BTreeMap.get_mapValues, Option.map_eq_some_iff] at hget
  obtain ⟨arg, _, harg⟩ := hget
  cases arg with
  | literal v' =>
      simp only [ChainState.resolve] at harg
      split at harg
      · rename_i c' hc'
        cases harg
        rw [hc] at hc'
        cases hc'
        exact fun _ _ => rfl
      · rename_i e he
        cases harg
        rw [hc] at he
        cases he
  | ref i =>
      simp only [ChainState.resolve] at harg
      split at harg
      · rename_i c' o' hi
        cases harg
        cases hc
        exact h _ (List.mem_of_getElem? hi)
      · cases harg
        cases hc

section StepCases

variable {args : TrackedArgs}

theorem TrackedArgs.get_plain {key : String} {v : Envelope} (h : args.plain.get key = some v) :
    ∃ o, args.get key = some (v, o) := by
  rw [TrackedArgs.plain, BTreeMap.get_mapValues, Option.map_eq_some_iff] at h
  obtain ⟨⟨v', o⟩, hget, hv⟩ := h
  cases hv
  exact ⟨o, hget⟩

/-- The data cube of a call, with its origin. -/
theorem TrackedArgs.Carry.data (h : args.Carry) {c : DataCube}
    (hc : ArgCube args.plain "data" c) :
    ∃ v o, args.get "data" = some (v, o) ∧ DataCube.fromEnvelopeOwned v = .ok c ∧
      CarriesScales c o := by
  obtain ⟨v, hv, hcube⟩ := hc
  obtain ⟨o, hget⟩ := TrackedArgs.get_plain hv
  exact ⟨v, o, hget, hcube, h "data" v o c hget hcube⟩

theorem TrackedArgs.Carry.data_origin (h : args.Carry) {c : DataCube} {o : Origin}
    (hc : ArgCube args.plain "data" c) (ho : (args.get "data").map Prod.snd = some o) :
    CarriesScales c o := by
  obtain ⟨v, o', hget, _, hcarry⟩ := h.data hc
  rw [hget] at ho
  cases ho
  exact hcarry

/-- A result that has the bands and the scale map of its input. -/
theorem CarriesScales.of_same {c out : DataCube} {o : Origin} (h : CarriesScales c o)
    (hscales : out.bandScales = c.bandScales)
    (hkeys : ∀ b ∈ out.bands.keys, b ∈ c.bands.keys) : CarriesScales out o := by
  intro b hb
  rw [← h b (hkeys b hb), DataCube.scaleOf, DataCube.scaleOf, hscales]

/-- A result without a scale map, whose bands were all physical before. -/
theorem CarriesScales.of_physical {c out : DataCube} {o : Origin} (h : CarriesScales c o)
    (hscales : out.bandScales = BTreeMap.empty)
    (hkeys : ∀ b ∈ out.bands.keys, b ∈ c.bands.keys ∧ c.scaleOf b = (1, 0)) :
    CarriesScales out o := by
  intro b hb
  obtain ⟨hb', hone⟩ := hkeys b hb
  rw [← h b hb', hone, DataCube.scaleOf, hscales, BTreeMap.get_empty]
  rfl

theorem filterTemporal_carries {c out : DataCube} {o : Origin} {start stop : Option String}
    (h : CarriesScales c o) (hok : filterTemporal c start stop = .ok out) :
    CarriesScales out o := by
  obtain ⟨dts, _, _, rfl⟩ := filterTemporal_eq_ok_iff.mp hok
  refine h.of_same rfl ?_
  intro b hb
  rw [BTreeMap.mem_keys_iff_get] at hb ⊢
  obtain ⟨paths, hpaths⟩ := hb
  rw [BTreeMap.get_mapValues, Option.map_eq_some_iff] at hpaths
  obtain ⟨paths', hpaths', _⟩ := hpaths
  exact ⟨paths', hpaths'⟩

theorem filterBands_carries {c out : DataCube} {o : Origin} {requested : List String}
    (h : CarriesScales c o) (hok : filterBands c requested = .ok out) : CarriesScales out o := by
  obtain ⟨_, hget, hrest⟩ := filterBands_eq_ok hok
  refine h.of_same (by rw [hrest]) ?_
  intro b hb
  rw [BTreeMap.mem_keys_iff_get] at hb ⊢
  obtain ⟨paths, hpaths⟩ := hb
  rw [hget] at hpaths
  split at hpaths
  · exact ⟨paths, hpaths⟩
  · cases hpaths

theorem renameLabels_carries {c out : DataCube} {o : Origin} {source : Option (List String)}
    {target oldKeys : List String} (h : CarriesScales c o)
    (hok : renameLabels c source target = .ok out)
    (hold : renameSources c source target = .ok oldKeys)
    (hsurvive : ∀ p ∈ oldKeys.zip target,
      c.scaleOf p.2 = c.scaleOf (renamedFrom (oldKeys.zip target) p.2)) :
    CarriesScales out (fun b => o (renamedFrom (oldKeys.zip target) b)) := by
  obtain ⟨oldKeys', hold', hget, hrest⟩ := renameLabels_eq_ok hok
  rw [hold] at hold'
  cases hold'
  intro b hb
  obtain ⟨paths, hpaths⟩ := (BTreeMap.mem_keys_iff_get _ _).mp hb
  have hkey : renamedFrom (oldKeys.zip target) b ∈ c.bands.keys :=
    (BTreeMap.mem_keys_iff_get _ _).mpr ⟨paths, hget b paths hpaths⟩
  have hscale : out.scaleOf b = c.scaleOf b := by
    rw [DataCube.scaleOf, DataCube.scaleOf, hrest]
  -- A new name has the scale of its old one by assumption, every other name is unchanged.
  have hsame : c.scaleOf b = c.scaleOf (renamedFrom (oldKeys.zip target) b) := by
    by_cases hnew : b ∈ (oldKeys.zip target).map Prod.snd
    · obtain ⟨p, hp, rfl⟩ := List.mem_map.mp hnew
      exact hsurvive p hp
    · rw [← movedFrom_isSome_iff, Option.not_isSome_iff_eq_none] at hnew
      rw [renamedFrom, hnew, Option.getD_none]
  rw [hscale, hsame, h _ hkey]

theorem mergeDisjoint_carries {c1 c2 : DataCube} {o1 o2 : Origin} (h1 : CarriesScales c1 o1)
    (h2 : CarriesScales c2 o2) (hover : bandsOverlap c1 c2 = false)
    (hone1 : ∀ b ∈ c1.bands.keys, c1.scaleOf b = (1, 0))
    (hone2 : ∀ b ∈ c2.bands.keys, c2.scaleOf b = (1, 0)) :
    CarriesScales (mergeDisjoint c1 c2)
      (fun b => if c1.bands.containsKey b then o1 b else o2 b) := by
  intro b hb
  have hout : (mergeDisjoint c1 c2).scaleOf b = (1, 0) := rfl
  rw [hout]
  obtain ⟨paths, hpaths⟩ := (BTreeMap.mem_keys_iff_get _ _).mp hb
  rw [get_mergeDisjoint hover, Option.or_eq_some_iff] at hpaths
  rcases hpaths with hpaths | ⟨hno, hpaths⟩
  · have hkey : b ∈ c1.bands.keys := (BTreeMap.mem_keys_iff_get _ _).mpr ⟨paths, hpaths⟩
    have hc : c1.bands.containsKey b = true := (BTreeMap.containsKey_iff _ _).mpr ⟨paths, hpaths⟩
    simp only [hc, if_true]
    rw [← h1 b hkey, hone1 b hkey]
  · have hkey : b ∈ c2.bands.keys := (BTreeMap.mem_keys_iff_get _ _).mpr ⟨paths, hpaths⟩
    have hc : c1.bands.containsKey b = false := by simp [BTreeMap.containsKey, hno]
    simp only [hc, Bool.false_eq_true, if_false]
    rw [← h2 b hkey, hone2 b hkey]

theorem TrackedArgs.get_plain_or {k₁ k₂ : String} :
    (args.plain.get k₁).or (args.plain.get k₂) =
      ((args.get k₁).or (args.get k₂)).map Prod.fst := by
  rw [TrackedArgs.plain, BTreeMap.get_mapValues, BTreeMap.get_mapValues]
  cases args.get k₁ <;> rfl

theorem TrackedArgs.Carry.or (h : args.Carry) {k₁ k₂ : String} {v : Envelope} {o : Origin}
    {c : DataCube} (hget : (args.get k₁).or (args.get k₂) = some (v, o))
    (hc : DataCube.fromEnvelopeOwned v = .ok c) : CarriesScales c o := by
  rcases Option.or_eq_some_iff.mp hget with h₁ | ⟨_, h₂⟩
  · exact h k₁ v o c h₁ hc
  · exact h k₂ v o c h₂ hc

/-- Only a join of disjoint cubes has an origin, and it needs physical bands. -/
theorem mergeCubes_carries {P : Platform} {dir : PathBuf} {w w' : World} {v : Envelope}
    {out : DataCube} {o : Origin} (hargs : args.Carry)
    (hok : evalMergeCubes P dir args.plain w = .ok v w')
    (hout : DataCube.fromEnvelopeOwned v = .ok out)
    (ho : CubeProcess.mergeCubes.origin args = some o)
    (hsurvive : CubeProcess.mergeCubes.ScalesSurvive args.plain) : CarriesScales out o := by
  simp only [CubeProcess.origin] at ho
  split at ho
  · rename_i c1 o1 c2 o2 hget1 hget2
    have hin : MergeArgs args.plain (.cube c1) (.cube c2) := by
      refine ⟨?_, ?_⟩
      · rw [TrackedArgs.get_plain_or, hget1]
        rfl
      · rw [TrackedArgs.get_plain_or, hget2]
        rfl
    split at ho
    · cases ho
    · rename_i hover
      cases ho
      simp only [Bool.not_eq_true] at hover
      obtain ⟨v1, v2, ⟨hv1, hv2⟩, hcase⟩ := evalMergeCubes_returns P dir args.plain w v w' hok
      rw [hin.1] at hv1
      rw [hin.2] at hv2
      cases hv1
      cases hv2
      rcases hcase with ⟨c1', c2', h1, h2, _, rfl⟩ | ⟨c1', c2', _, h1, h2, hover', _⟩ | ⟨hover', _⟩
      · cases h1
        cases h2
        cases hout
        exact mergeDisjoint_carries (hargs.or hget1 rfl) (hargs.or hget2 rfl) hover
          (hsurvive c1 ⟨_, _, hin, Or.inl rfl⟩) (hsurvive c2 ⟨_, _, hin, Or.inr rfl⟩)
      · cases h1
        cases h2
        rw [hover] at hover'
        cases hover'
      · rw [hover' c1 c2 rfl rfl] at hover
        cases hover
  · cases ho

theorem maskOutput_carries {c : DataCube} {o : Origin} (files : String → List PathBuf) {n : Nat}
    {replacement : Int} (h : CarriesScales c o)
    (hone : ∀ b ∈ c.bands.keys, b ∉ F32_INDEX_BANDS → c.scaleOf b = (1, 0)) :
    CarriesScales (maskOutput c ((maskableBands c).map (fun e => (e.1, files e.1))) n replacement)
      o := by
  refine h.of_physical rfl ?_
  intro b hb
  obtain ⟨hkey, hidx⟩ := mem_keys_maskOutput.mp hb
  exact ⟨hkey, hone b hkey hidx⟩

theorem maskSclOutput_carries {c : DataCube} {o : Origin} {scl : String} {sclPaths : List PathBuf}
    (files : String → List PathBuf) (h : CarriesScales c o)
    (hscl : scl ∈ c.bands.keys) (hone : ∀ b ∈ c.bands.keys, c.scaleOf b = (1, 0)) :
    CarriesScales (maskSclOutput { c with bands := c.bands.remove scl } scl sclPaths
      ((c.bands.remove scl).entries.map (fun e => (e.1, files e.1)))) o := by
  refine h.of_physical rfl ?_
  intro b hb
  rcases mem_keys_maskSclOutput.mp hb with rfl | hkey
  · exact ⟨hscl, hone b hscl⟩
  · exact ⟨hkey, hone b hkey⟩

/-- A call on cubes that carry their scales returns one that does, unless it loses
a scale. -/
theorem CubeProcess.eval_carries {P : Platform} {dir : PathBuf} {p : CubeProcess} {w w' : World}
    {v : Envelope} {out : DataCube} {o : Origin} (hargs : args.Carry)
    (hok : p.eval P dir args.plain w = .ok v w') (hout : DataCube.fromEnvelopeOwned v = .ok out)
    (ho : p.origin args = some o) (hsurvive : p.ScalesSurvive args.plain) :
    CarriesScales out o := by
  cases p with
  | filterTemporal =>
      obtain ⟨c, start, stop, out', hc, hfilter, rfl⟩ :=
        evalFilterTemporal_eq_ok (attempt_eq_ok_iff.mp hok).1
      cases hout
      exact filterTemporal_carries (hargs.data_origin hc ho) hfilter
  | filterBands =>
      obtain ⟨c, requested, out', hc, hfilter, rfl⟩ :=
        evalFilterBands_eq_ok (attempt_eq_ok_iff.mp hok).1
      cases hout
      exact filterBands_carries (hargs.data_origin hc ho) hfilter
  | renameLabels =>
      obtain ⟨c, out', hc, hrename, rfl⟩ := evalRenameLabels_eq_ok (attempt_eq_ok_iff.mp hok).1
      cases hout
      obtain ⟨v, o', hget, hv, hcarry⟩ := hargs.data hc
      obtain ⟨oldKeys, hold, _, _⟩ := renameLabels_eq_ok hrename
      simp only [origin, hget, hv, hold, Option.some.injEq] at ho
      subst ho
      exact renameLabels_carries hcarry hrename hold (hsurvive c oldKeys hc hold)
  | addDimension =>
      obtain ⟨c, extras, hc, rfl⟩ := evalAddDimension_eq_ok (attempt_eq_ok_iff.mp hok).1
      cases hout
      exact (hargs.data_origin hc ho).of_same rfl fun _ hb => hb
  | dropDimension =>
      obtain ⟨c, extras, hc, rfl⟩ := evalDropDimension_eq_ok (attempt_eq_ok_iff.mp hok).1
      cases hout
      exact (hargs.data_origin hc ho).of_same rfl fun _ hb => hb
  | mergeCubes =>
      exact mergeCubes_carries hargs hok hout ho hsurvive
  | mask =>
      obtain ⟨c, n, replacement, hc, _, _, rfl⟩ := evalMask_returns P dir _ w v w' hok
      cases hout
      exact maskOutput_carries (fun b => sceneFiles dir b "_mask_t" n) (hargs.data_origin hc ho)
        (hsurvive c hc)
  | maskSclDilation =>
      obtain ⟨c, sclPaths, hc, hscl, _, rfl⟩ := evalMaskSclDilation_returns P dir _ w v w' hok
      cases hout
      exact maskSclOutput_carries (fun b => sceneFiles dir b "_masked_t" sclPaths.length)
        (hargs.data_origin hc ho) ((BTreeMap.mem_keys_iff_get _ _).mpr ⟨_, hscl⟩) (hsurvive c hc)

end StepCases

namespace ChainState

variable {P : Platform} {dir : PathBuf}

/-- What a step adds. -/
theorem step_eq_some {s s' : ChainState} {node : ChainNode} (h : s.step P dir node = some s') :
    ∃ v w out o, node.process.eval P dir (s.argsOf node).plain s.world = .ok v w ∧
      DataCube.fromEnvelopeOwned v = .ok out ∧ node.process.origin (s.argsOf node) = some o ∧
      s' = ⟨w, s.cubes ++ [(out, o)]⟩ := by
  unfold step at h
  split at h
  · rename_i v w o hok ho
    split at h
    · rename_i out hout
      cases h
      exact ⟨v, w, out, o, hok, hout, ho, rfl⟩
    · cases h
  · cases h

theorem step_allCarry {s s' : ChainState} {node : ChainNode} (hs : s.AllCarry)
    (hkeep : s.KeepsScales node) (h : s.step P dir node = some s') : s'.AllCarry := by
  obtain ⟨v, w, out, o, hok, hout, ho, rfl⟩ := step_eq_some h
  intro d hd
  rcases List.mem_append.mp hd with hd | hd
  · exact hs d hd
  · rw [List.mem_singleton] at hd
    subst hd
    exact CubeProcess.eval_carries (hs.argsOf node) hok hout ho hkeep

theorem start_allCarry (w : World) (sources : List DataCube) : (start w sources).AllCarry := by
  intro d hd
  obtain ⟨c, _, rfl⟩ := List.mem_map.mp hd
  exact fun _ _ => rfl

/-- **In every chain whose steps lose no scale but the identity, every band of
every cube has the scale of its source band.** -/
theorem reach_allCarry {w : World} {sources : List DataCube} {s : ChainState}
    (h : Reach (step P dir) KeepsScales (start w sources) s) : s.AllCarry :=
  h.invariant (start_allCarry w sources) fun _ _ _ hs hkeep hstep => step_allCarry hs hkeep hstep

/-- A cube of reflectances stored as integers. -/
def reflectances : DataCube :=
  { bands := (BTreeMap.empty.insert "B04" ["r0"]).insert "B08" ["n0"]
    bandScales :=
      (BTreeMap.empty.insert "B04" (1 / 10000, -1 / 10)).insert "B08" (1 / 10000, -1 / 10)
    sceneCount := some 1 }

/-- Select the red band. -/
def selectRed : ChainNode :=
  ⟨.filterBands, (BTreeMap.empty.insert "data" (.ref 0)).insert "bands"
    (.literal (.value (.arr [.str "B04"]) .missingEnvelope))⟩

/-- Add a dimension to the selection. -/
def addTile : ChainNode :=
  ⟨.addDimension, (BTreeMap.empty.insert "data" (.ref 1)).insert "name"
    (.literal (.value (.str "tile") .missingEnvelope))⟩

theorem reach_allCarry_selectRed : ∃ s,
    Reach (step Platform.exact "/work") KeepsScales (start World.empty [reflectances]) s ∧
      s.cubes.length = 3 ∧ s.AllCarry := by
  have hreach : ∃ s, Reach (step Platform.exact "/work") KeepsScales
      (start World.empty [reflectances]) s ∧ s.cubes.length = 3 :=
    ⟨_, .tail (a := addTile) (.tail (a := selectRed) .refl trivial rfl) trivial rfl, rfl⟩
  obtain ⟨s, hs, hlen⟩ := hreach
  exact ⟨s, hs, hlen, reach_allCarry hs⟩

/-- Give the red band another name. -/
def renameRed : ChainNode :=
  ⟨.renameLabels, ((BTreeMap.empty.insert "data" (.ref 0)).insert "source"
    (.literal (.value (.arr [.str "B04"]) .missingEnvelope))).insert "target"
    (.literal (.value (.arr [.str "red"]) .missingEnvelope))⟩

/-- Under its new name the band has no scale. -/
theorem renameRed_loses_scale : ∃ s,
    Reach (step Platform.exact "/work") AnyStep (start World.empty [reflectances]) s ∧
      ¬ s.AllCarry := by
  refine ⟨_, .tail (a := renameRed) .refl trivial rfl, ?_⟩
  intro h
  have hred := h _ (List.mem_append_right _ (List.mem_singleton_self _)) "red" (by decide)
  have hscale : ((1 : ℚ), (0 : ℚ)) = (1 / 10000, -1 / 10) := hred
  rw [Prod.mk.injEq] at hscale
  norm_num at hscale

end ChainState

end OrbitOpenEO
