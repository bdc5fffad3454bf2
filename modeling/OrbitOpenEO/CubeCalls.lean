import OrbitOpenEO.MaskOps
import OrbitOpenEO.ReduceOps

/-!
# Calls of the cube operations

The operations that hand a cube on, with its bands and their files, and the
dispatch by which a node calls one of them.  For every operation one theorem
says what a call that returns has found in its arguments and what it returns;
the statements about cubes are derived from these.
-/

namespace OrbitOpenEO

open Lib

/-- The operations that take a cube and hand its bands on. -/
inductive CubeProcess where
  | filterTemporal
  | filterBands
  | renameLabels
  | addDimension
  | dropDimension
  | mergeCubes
  | mask
  | maskSclDilation
deriving DecidableEq

namespace CubeProcess

/-- The handler of a process. -/
def eval (P : Platform) (dir : PathBuf) : CubeProcess → Args → Eval Envelope
  | .filterTemporal, args => attempt (evalFilterTemporal args)
  | .filterBands, args => attempt (evalFilterBands args)
  | .renameLabels, args => attempt (evalRenameLabels args)
  | .addDimension, args => attempt (evalAddDimension args)
  | .dropDimension, args => attempt (evalDropDimension args)
  | .mergeCubes, args => evalMergeCubes P dir args
  | .mask, args => evalMask P dir args
  | .maskSclDilation, args => evalMaskSclDilation P dir args

end CubeProcess

/-- The argument `key` decodes to the cube `c`. -/
def ArgCube (args : Args) (key : String) (c : DataCube) : Prop :=
  ∃ v, args.get key = some v ∧ DataCube.fromEnvelopeOwned v = .ok c

theorem ArgCube.unique {args : Args} {key : String} {c c' : DataCube} (h : ArgCube args key c)
    (h' : ArgCube args key c') : c = c' := by
  obtain ⟨v, hv, hc⟩ := h
  obtain ⟨v', hv', hc'⟩ := h'
  rw [hv] at hv'
  cases hv'
  rw [hc] at hc'
  exact Except.ok.inj hc'

theorem requireArg_eq_ok {args : Args} {key missing : String} {v : Envelope}
    (h : requireArg args key missing = .ok v) : args.get key = some v := by
  unfold requireArg at h
  split at h
  · rename_i v' hv
    cases h
    exact hv
  · cases h

theorem decodeCube_eq_ok {v : Envelope} {notCube : String} {c : DataCube}
    (h : decodeCube v notCube = .ok c) : DataCube.fromEnvelopeOwned v = .ok c := by
  unfold decodeCube at h
  split at h
  · rename_i c' hc
    cases h
    exact hc
  · cases h

/-- A call that takes a cube from its arguments and goes on with it. -/
theorem outcome_argCube_bind {α : Type} {Q : α → World → Prop} {F : World → Prop} {args : Args}
    {key missing notCube : String} {f : DataCube → Eval α} {w : World} (hfail : F w)
    (hf : ∀ c, ArgCube args key c → Outcome Q F (f c w)) :
    Outcome Q F ((attempt (requireArg args key missing) >>= fun data =>
      attempt (decodeCube data notCube) >>= f : Eval α) w) := by
  refine outcome_attempt_bind hfail fun data hdata => ?_
  refine outcome_attempt_bind hfail fun c hc => ?_
  exact hf c ⟨data, requireArg_eq_ok hdata, decodeCube_eq_ok hc⟩

theorem evalFilterTemporal_eq_ok {args : Args} {v : Envelope}
    (h : evalFilterTemporal args = .ok v) :
    ∃ c start stop out, ArgCube args "data" c ∧ filterTemporal c start stop = .ok out ∧
      v = .cube out := by
  unfold evalFilterTemporal at h
  obtain ⟨data, hdata, h⟩ := bind_eq_ok_iff.mp h
  split at h
  · cases h
  · obtain ⟨c, hc, h⟩ := bind_eq_ok_iff.mp h
    obtain ⟨out, hout, h⟩ := bind_eq_ok_iff.mp h
    cases h
    exact ⟨c, _, _, out, ⟨data, requireArg_eq_ok hdata, decodeCube_eq_ok hc⟩, hout, rfl⟩
  · cases h

theorem evalFilterBands_eq_ok {args : Args} {v : Envelope} (h : evalFilterBands args = .ok v) :
    ∃ c requested out, ArgCube args "data" c ∧ filterBands c requested = .ok out ∧
      v = .cube out := by
  unfold evalFilterBands at h
  obtain ⟨data, hdata, h⟩ := bind_eq_ok_iff.mp h
  split at h
  · cases h
  · dsimp only at h
    split at h
    · cases h
    · obtain ⟨c, hc, h⟩ := bind_eq_ok_iff.mp h
      obtain ⟨out, hout, h⟩ := bind_eq_ok_iff.mp h
      cases h
      exact ⟨c, _, out, ⟨data, requireArg_eq_ok hdata, decodeCube_eq_ok hc⟩, hout, rfl⟩

/-- The new names a renaming is called with. -/
def renameTarget (args : Args) : List String := strings ((argArray args "target").getD [])

/-- The old names a renaming is called with. -/
def renameSource (args : Args) : Option (List String) := (argArray args "source").map strings

theorem evalRenameLabels_eq_ok {args : Args} {v : Envelope} (h : evalRenameLabels args = .ok v) :
    ∃ c out, ArgCube args "data" c ∧
      renameLabels c (renameSource args) (renameTarget args) = .ok out ∧ v = .cube out := by
  unfold evalRenameLabels at h
  obtain ⟨data, hdata, h⟩ := bind_eq_ok_iff.mp h
  dsimp only at h
  split at h
  · cases h
  · split at h
    · cases h
    · rename_i target htarget
      obtain ⟨c, hc, h⟩ := bind_eq_ok_iff.mp h
      obtain ⟨out, hout, h⟩ := bind_eq_ok_iff.mp h
      cases h
      refine ⟨c, out, ⟨data, requireArg_eq_ok hdata, decodeCube_eq_ok hc⟩, ?_, rfl⟩
      simpa [renameSource, renameTarget, htarget] using hout

theorem evalAddDimension_eq_ok {args : Args} {v : Envelope} (h : evalAddDimension args = .ok v) :
    ∃ c extras, ArgCube args "data" c ∧ v = .cube { c with extras := extras } := by
  unfold evalAddDimension at h
  obtain ⟨data, hdata, h⟩ := bind_eq_ok_iff.mp h
  split at h
  · cases h
  · obtain ⟨_, _, h⟩ := bind_eq_ok_iff.mp h
    obtain ⟨c, hc, h⟩ := bind_eq_ok_iff.mp h
    cases h
    exact ⟨c, _, ⟨data, requireArg_eq_ok hdata, decodeCube_eq_ok hc⟩, rfl⟩

theorem evalDropDimension_eq_ok {args : Args} {v : Envelope}
    (h : evalDropDimension args = .ok v) :
    ∃ c extras, ArgCube args "data" c ∧ v = .cube { c with extras := extras } := by
  unfold evalDropDimension at h
  obtain ⟨data, hdata, h⟩ := bind_eq_ok_iff.mp h
  split at h
  · cases h
  · split at h
    · cases h
    · obtain ⟨c, hc, h⟩ := bind_eq_ok_iff.mp h
      obtain ⟨out, hout, h⟩ := bind_eq_ok_iff.mp h
      cases h
      refine ⟨c, out.extras, ⟨data, requireArg_eq_ok hdata, decodeCube_eq_ok hc⟩, ?_⟩
      rw [← dropDimension_eq_ok hout]

variable (P : Platform) (dir : PathBuf)

variable {P dir} in
/-- A call of `ndvi` runs it on the cube under `data`. -/
theorem evalNdvi_eq_ok {args : Args} {w w' : World} {v : Envelope}
    (h : evalNdvi P dir args w = .ok v w') :
    ∃ c out, ArgCube args "data" c ∧
      ndvi P dir c (argStrOr args "red" "B04") (argStrOr args "nir" "B08")
        (argStrOr args "target_band" "ndvi") w = .ok out w' ∧ v = .cube out := by
  unfold evalNdvi at h
  obtain ⟨data, hdata, h⟩ := attempt_bind_eq_ok_iff.mp h
  obtain ⟨c, hc, h⟩ := attempt_bind_eq_ok_iff.mp h
  obtain ⟨out, w₃, hndvi, h⟩ := act_bind_eq_ok_iff.mp h
  obtain ⟨rfl, rfl⟩ := act_pure_eq_ok_iff.mp h
  exact ⟨c, out, ⟨data, requireArg_eq_ok hdata, decodeCube_eq_ok hc⟩, hndvi, rfl⟩

theorem evalNdvi_returns (args : Args) :
    Returns
      (fun v => ∃ c reds, ArgCube args "data" c ∧
        v = .cube (ndviOutput
          { c with
            bands :=
              (c.bands.remove (argStrOr args "red" "B04")).remove (argStrOr args "nir" "B08") }
          (argStrOr args "red" "B04") (argStrOr args "nir" "B08")
          (argStrOr args "target_band" "ndvi")
          (sceneFiles dir (argStrOr args "target_band" "ndvi") "_t" reds)))
      (evalNdvi P dir args) := by
  intro w v w' h
  obtain ⟨c, out, hc, hndvi, rfl⟩ := evalNdvi_eq_ok h
  obtain ⟨reds, nirs, _, _, _, rfl⟩ := ndvi_returns P dir c _ _ _ w out w' hndvi
  exact ⟨c, reds.length, hc, rfl⟩

theorem evalApply_returns (args : Args) :
    Returns
      (fun v => ∃ c applied, ArgCube args "data" c ∧
        List.Forall₂ (fun k e => e.1 = k) (numericBands c) applied ∧
        v = .cube (applyOutput c applied))
      (evalApply P dir args) := by
  unfold evalApply
  refine Returns.bind (Q := fun _ => True) (fun _ _ _ _ => trivial) fun subPg _ => ?_
  refine Returns.bind (Q := fun _ => True) (fun _ _ _ _ => trivial) fun _ _ => ?_
  refine Returns.bind (returns_attempt fun _ h => requireArg_eq_ok h) fun data hdata => ?_
  refine Returns.bind (returns_attempt fun _ h => decodeCube_eq_ok h) fun c hc => ?_
  refine Returns.bind (apply_returns P dir c subPg) ?_
  rintro _ ⟨applied, happlied, rfl⟩
  exact returns_pure ⟨c, applied, ⟨data, hdata, hc⟩, happlied, rfl⟩

theorem evalMask_returns (args : Args) :
    Returns
      (fun v => ∃ c n replacement, ArgCube args "data" c ∧ maskableBands c ≠ [] ∧
        (∀ e ∈ maskableBands c, e.2.length = n) ∧
        v = .cube (maskOutput c
          ((maskableBands c).map (fun e => (e.1, sceneFiles dir e.1 "_mask_t" n))) n replacement))
      (evalMask P dir args) := by
  unfold evalMask
  refine Returns.bind (Q := fun _ => True) (fun _ _ _ _ => trivial) fun replacement _ => ?_
  refine Returns.bind (returns_attempt fun _ h => requireArg_eq_ok h) fun data hdata => ?_
  refine Returns.bind (returns_attempt fun _ h => decodeCube_eq_ok h) fun c hc => ?_
  split
  · exact returns_throw
  · rename_i hne
    refine Returns.bind (Q := fun _ => True) (fun _ _ _ _ => trivial) fun _ _ => ?_
    refine Returns.bind (Q := fun _ => True) (fun _ _ _ _ => trivial) fun maskCube _ => ?_
    refine Returns.bind (mask_returns P dir c maskCube replacement) ?_
    rintro _ ⟨n, hlen, rfl⟩
    exact returns_pure ⟨c, n, replacement, ⟨data, hdata, hc⟩, hne, hlen, rfl⟩

theorem evalMaskSclDilation_returns (args : Args) :
    Returns
      (fun v => ∃ c sclPaths, ArgCube args "data" c ∧
        c.bands.get (argStrOr args "scl_band_name" "SCL") = some sclPaths ∧
        (∀ e ∈ (c.bands.remove (argStrOr args "scl_band_name" "SCL")).entries,
          e.2.length = sclPaths.length) ∧
        v = .cube (maskSclOutput
          { c with bands := c.bands.remove (argStrOr args "scl_band_name" "SCL") }
          (argStrOr args "scl_band_name" "SCL") sclPaths
          ((c.bands.remove (argStrOr args "scl_band_name" "SCL")).entries.map
            (fun e => (e.1, sceneFiles dir e.1 "_masked_t" sclPaths.length)))))
      (evalMaskSclDilation P dir args) := by
  unfold evalMaskSclDilation
  dsimp only
  refine Returns.bind (Q := fun _ => True) (fun _ _ _ _ => trivial) fun _ _ => ?_
  refine Returns.bind (returns_attempt fun _ h => requireArg_eq_ok h) fun data hdata => ?_
  refine Returns.bind (returns_attempt fun _ h => decodeCube_eq_ok h) fun c hc => ?_
  refine Returns.bind (maskSclDilation_returns P dir c _ _) ?_
  rintro _ ⟨sclPaths, hscl, hlen, rfl⟩
  exact returns_pure ⟨c, sclPaths, ⟨data, hdata, hc⟩, hscl, hlen, rfl⟩

/-- The two cubes of a merge call. -/
def MergeArgs (args : Args) (v1 v2 : Envelope) : Prop :=
  (args.get "cube1").or (args.get "data1") = some v1 ∧
    (args.get "cube2").or (args.get "data2") = some v2

/-- The cubes a call works on. -/
def CubeProcess.IsInput (args : Args) (c : DataCube) : CubeProcess → Prop
  | .mergeCubes => ∃ v1 v2, MergeArgs args v1 v2 ∧
      (DataCube.fromEnvelopeOwned v1 = .ok c ∨ DataCube.fromEnvelopeOwned v2 = .ok c)
  | .mask => ArgCube args "data" c ∨ ArgCube args "mask" c
  | _ => ArgCube args "data" c

/-- The path list a band gets when overlapping bands are resolved. -/
def Resolved (b1 b2 : BTreeMap (List PathBuf)) (band : String) (paths : List PathBuf) : Prop :=
  match b1.get band, b2.get band with
  | some p1, some p2 => p1.length = p2.length ∧ paths.length = p1.length
  | some p, none => paths = p
  | none, some p => paths = p
  | none, none => False

theorem resolveBand_returns (kind : ReducerKind) {b1 b2 : BTreeMap (List PathBuf)} {band : String}
    (hband : (b1.get band).isSome = true ∨ (b2.get band).isSome = true) :
    Returns (fun r => r.1 = band ∧ Resolved b1 b2 band r.2)
      (resolveBand P dir kind b1 b2 band) := by
  unfold resolveBand Resolved
  cases h1 : b1.get band with
  | none =>
      cases h2 : b2.get band with
      | none =>
          simp [h1, h2] at hband
      | some p =>
          exact returns_pure ⟨rfl, rfl⟩
  | some p1 =>
      cases h2 : b2.get band with
      | none =>
          exact returns_pure ⟨rfl, rfl⟩
      | some p2 =>
          dsimp only
          split
          · exact returns_throw
          · rename_i hne
            have hlen : p1.length = p2.length := by
              by_contra h
              exact hne h
            refine Returns.bind (mapEach_returns_forall₂ (Q := fun _ _ => True)
              fun _ _ _ _ _ _ => trivial) ?_
            intro outs houts
            refine returns_pure ⟨rfl, hlen, ?_⟩
            have hlen' := houts.length_eq
            rw [List.length_zipIdx, List.length_zip, hlen, Nat.min_self] at hlen'
            rw [← hlen', hlen]

theorem mergeResolveOverlap_returns (c1 c2 : DataCube) (resolver : Json) :
    Returns
      (fun out => ∃ bands, out = mergedFrom c1 bands ∧
        (∀ b paths, bands.get b = some paths → Resolved c1.bands c2.bands b paths) ∧
        ∀ b p1 p2, c1.bands.get b = some p1 → c2.bands.get b = some p2 → p1.length = p2.length)
      (mergeResolveOverlap P dir c1 c2 resolver) := by
  unfold mergeResolveOverlap
  refine Returns.bind (Q := fun _ => True) (fun _ _ _ _ => trivial) fun kind _ => ?_
  refine Returns.bind (mapEach_returns_forall₂
    (Q := fun band r => r.1 = band ∧ Resolved c1.bands c2.bands band r.2) ?_) ?_
  · intro band hband
    refine resolveBand_returns P dir kind ?_
    obtain ⟨paths, hpaths⟩ := (BTreeMap.mem_keys_iff_get _ _).mp hband
    rw [BTreeMap.get_insertAll, BTreeMap.lastEntry_entries, Option.or_eq_some_iff] at hpaths
    rcases hpaths with h | ⟨_, h⟩
    · exact Or.inr (by simp [h])
    · exact Or.inl (by simp [h])
  · intro bands hbands
    refine returns_pure ⟨_, rfl, ?_, ?_⟩
    · intro b paths hget
      rw [BTreeMap.get_ofEntries] at hget
      obtain ⟨band, _, hband, hres⟩ := forall₂_exists_left hbands (BTreeMap.mem_of_lastEntry hget)
      subst hband
      exact hres
    · intro b p1 p2 hp1 hp2
      have hkey : b ∈ (c1.bands.insertAll c2.bands.entries).keys := by
        rw [BTreeMap.mem_keys_iff_get, BTreeMap.get_insertAll, BTreeMap.lastEntry_entries, hp2]
        exact ⟨p2, rfl⟩
      obtain ⟨r, _, _, hres⟩ := forall₂_exists_right hbands hkey
      rw [Resolved, hp1, hp2] at hres
      exact hres.1

/-- What a merge returns: a join, a resolved overlap, or a mosaic. -/
theorem evalMergeCubes_returns (args : Args) :
    Returns
      (fun v => ∃ v1 v2, MergeArgs args v1 v2 ∧
        ((∃ c1 c2, v1 = .cube c1 ∧ v2 = .cube c2 ∧ bandsOverlap c1 c2 = false ∧
            v = .cube (mergeDisjoint c1 c2)) ∨
          (∃ c1 c2 bands, v1 = .cube c1 ∧ v2 = .cube c2 ∧ bandsOverlap c1 c2 = true ∧
            v = .cube (mergedFrom c1 bands) ∧
            (∀ b paths, bands.get b = some paths → Resolved c1.bands c2.bands b paths) ∧
            ∀ b p1 p2, c1.bands.get b = some p1 → c2.bands.get b = some p2 →
              p1.length = p2.length) ∨
          ((∀ c1 c2, v1 = .cube c1 → v2 = .cube c2 → bandsOverlap c1 c2 = true) ∧
            ∃ path, v = .raster path)))
      (evalMergeCubes P dir args) := by
  have hmosaic : ∀ v1 v2, Returns (fun v => ∃ path, v = Envelope.raster path)
      (mergeMosaic P dir v1 v2) := by
    intro v1 v2
    unfold mergeMosaic
    refine Returns.bind (Q := fun _ => True) (fun _ _ _ _ => trivial) fun p1 _ => ?_
    refine Returns.bind (Q := fun _ => True) (fun _ _ _ _ => trivial) fun p2 _ => ?_
    refine Returns.bind (Q := fun _ => True) (fun _ _ _ _ => trivial) fun nanos _ => ?_
    intro w v w' h
    dsimp only at h
    split at h
    · split at h
      · cases h
        exact ⟨_, rfl⟩
      · cases h
    · cases h
    · cases h
  unfold evalMergeCubes
  split
  · exact returns_throw
  · exact returns_throw
  · rename_i v1 v2 h1 h2
    unfold mergeCubes
    split
    · rename_i c1 c2
      split
      · rename_i hover
        split
        · refine Returns.bind (mergeResolveOverlap_returns P dir c1 c2 _) ?_
          rintro _ ⟨bands, rfl, hbands⟩
          exact returns_pure ⟨_, _, ⟨h1, h2⟩,
            Or.inr (Or.inl ⟨c1, c2, bands, rfl, rfl, hover, rfl, hbands⟩)⟩
        · intro w v w' h
          refine ⟨_, _, ⟨h1, h2⟩, Or.inr (Or.inr ⟨?_, hmosaic _ _ w v w' h⟩)⟩
          rintro _ _ ⟨⟩ ⟨⟩
          exact hover
      · rename_i hover
        exact returns_pure ⟨_, _, ⟨h1, h2⟩,
          Or.inl ⟨c1, c2, rfl, rfl, by simpa using hover, rfl⟩⟩
    · rename_i hno
      intro w v w' h
      refine ⟨_, _, ⟨h1, h2⟩, Or.inr (Or.inr ⟨?_, hmosaic _ _ w v w' h⟩)⟩
      intro c1 c2 hc1 hc2
      exact absurd hc2 (hno c1 c2 hc1)

end OrbitOpenEO
