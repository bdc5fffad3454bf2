import OrbitOpenEO.WorkLog

/-!
# Which classification raster masks a scene

`mask_scl_dilation` first resamples the classification of every scene onto the
grid of every band, and then masks band by band.  A file that is already there
under the name of a resampled raster, and has the size of the data, is taken as
it is.

`SclApart` says when nothing comes between: the files left over from other calls
are the right ones, and the call does not write over what it reads.  The proof
follows the two loops.  Through the first one `Resampling` holds, and every path
it returns is `Usable` from then on; the second one writes masked files only.
-/

namespace OrbitOpenEO

open Lib

/-- The file of the classification of a scene on the grid of a band. -/
abbrev resampledPath (dir : PathBuf) (b : String) (t : Nat) : PathBuf :=
  scenePath dir ("scl_resampled_" ++ b) "_t" t

/-- The file of a masked scene of a band. -/
abbrev maskedPath (dir : PathBuf) (b : String) (t : Nat) : PathBuf := scenePath dir b "_masked_t" t

theorem resampledPath_inj {dir : PathBuf} {b b' : String} {t t' : Nat}
    (h : resampledPath dir b t = resampledPath dir b' t') : b = b' ∧ t = t' := by
  have hsuffix : "_t" ∈ sceneSuffixes := by decide
  have hrelative : ∀ (b : String) (t : Nat), resampledPath dir b t =
      dir ++ "/" ++ ("scl_resampled_" ++ b ++ "_t" ++ toString t ++ ".tif") := by
    intro b t
    have hname : "scl_resampled_" ++ b ++ "_t" ++ toString t ++ ".tif" =
        "scl_resampled_" ++ (b ++ "_t" ++ toString t ++ ".tif") := by
      simp only [String.append_assoc]
    change scratch dir ("scl_resampled_" ++ b ++ "_t" ++ toString t ++ ".tif") = _
    rw [hname]
    exact scratch_of_head (c := 's') (by decide) (by decide) _
  rw [hrelative, hrelative] at h
  obtain ⟨hname, ht⟩ := numbered_scenePath_inj hsuffix hsuffix h
  rw [String.append_right_inj, String.append_left_inj, String.append_right_inj] at hname
  exact ⟨hname, ht⟩

/-- What a call reads for scene `t` of band `e`: a classification and a data raster. -/
structure SclPair (w : World) (sclPaths : List PathBuf) (e : String × List PathBuf) (t : Nat)
    (sclPath dataPath : PathBuf) (scl data : Raster) : Prop where
  sclPath_eq : sclPaths[t]? = some sclPath
  dataPath_eq : e.2[t]? = some dataPath
  scl_eq : w.files sclPath = some scl
  data_eq : w.files dataPath = some data

/-- The call's own classification for scene `t` on the grid of band `e`. -/
def OwnScl (P : Platform) (w : World) (sclPaths : List PathBuf) (e : String × List PathBuf)
    (t : Nat) (r : Raster) : Prop :=
  ∃ sclPath dataPath scl data, SclPair w sclPaths e t sclPath dataPath scl data ∧
    if sameGrid scl data then r = scl else P.warp scl data = .ok r

/-- Scene `t` of band `e` needs a resampled classification. -/
def Resamples (w : World) (sclPaths : List PathBuf) (e : String × List PathBuf) (t : Nat)
    (scl data : Raster) : Prop :=
  (∃ sclPath dataPath, SclPair w sclPaths e t sclPath dataPath scl data) ∧
    sameGrid scl data = false

/-- Nothing comes in the way of one resampling: its file has not been returned, is
not read or masked by the call, and what is left there from other calls is of
another size or the same raster. -/
structure ResampleApart (P : Platform) (dir : PathBuf) (w : World)
    (returned sclPaths : List PathBuf) (bands : List (String × List PathBuf)) (out : PathBuf) (scl data : Raster) : Prop where
  fresh : out ∉ returned
  notScl : out ∉ sclPaths
  notData : ∀ e ∈ bands, out ∉ e.2
  notMasked : ∀ e ∈ bands, ∀ t < sclPaths.length, out ≠ maskedPath dir e.1 t
  own : ∀ prev, w.files out = some prev → prev.cols = data.cols ∧ prev.rows = data.rows →
    P.warp scl data = .ok prev

/-- Nothing comes in the way of a call of `mask_scl_dilation`. -/
structure SclApart (P : Platform) (dir : PathBuf) (w : World) (returned sclPaths : List PathBuf)
    (bands : List (String × List PathBuf)) : Prop where
  masked : ∀ e ∈ bands, ∀ t < sclPaths.length, maskedPath dir e.1 t ∉ returned
  maskedScl : ∀ e ∈ bands, ∀ t < sclPaths.length, maskedPath dir e.1 t ∉ sclPaths
  resampled : ∀ e ∈ bands, ∀ t scl data, Resamples w sclPaths e t scl data →
    ResampleApart P dir w returned sclPaths bands (resampledPath dir e.1 t) scl data

theorem SclPair.unique {w : World} {sclPaths : List PathBuf} {e : String × List PathBuf} {t : Nat}
    {sclPath dataPath sclPath' dataPath' : PathBuf} {scl data scl' data' : Raster}
    (h : SclPair w sclPaths e t sclPath dataPath scl data)
    (h' : SclPair w sclPaths e t sclPath' dataPath' scl' data') : scl = scl' ∧ data = data' := by
  have hscl := h.sclPath_eq
  have hdata := h.dataPath_eq
  rw [h'.sclPath_eq] at hscl
  rw [h'.dataPath_eq] at hdata
  cases hscl
  cases hdata
  have hscl := h.scl_eq
  have hdata := h.data_eq
  rw [h'.scl_eq] at hscl
  rw [h'.data_eq] at hdata
  cases hscl
  cases hdata
  exact ⟨rfl, rfl⟩

section Resampling

variable {P : Platform} {dir : PathBuf} {Ok : Event → Prop} {w : World}
  {returned sclPaths : List PathBuf} {bands : List (String × List PathBuf)}

variable (P dir w sclPaths bands)

/-- The path can be taken for the classification of scene `t` on the grid of `e`. -/
def Usable (e : String × List PathBuf) (t : Nat) (out : PathBuf) (v : World) : Prop :=
  ∃ sclPath dataPath scl data, SclPair w sclPaths e t sclPath dataPath scl data ∧
    ((sameGrid scl data = true ∧ out = sclPath) ∨
      (sameGrid scl data = false ∧ out = resampledPath dir e.1 t ∧
        ∃ r, v.files out = some r ∧ P.warp scl data = .ok r))

/-- A state of the first loop: the log has only grown by events in `Ok`, and only
resampled files have changed, each to its own raster. -/
structure Resampling (Ok : Event → Prop) (v : World) : Prop where
  log : LogsOnly Ok w v
  frame : ∀ p, (∀ e ∈ bands, ∀ t scl data, Resamples w sclPaths e t scl data →
      p ≠ resampledPath dir e.1 t) →
    v.files p = w.files p
  slots : ∀ e ∈ bands, ∀ t scl data, Resamples w sclPaths e t scl data →
    v.files (resampledPath dir e.1 t) = w.files (resampledPath dir e.1 t) ∨
      ∃ r, v.files (resampledPath dir e.1 t) = some r ∧ P.warp scl data = .ok r

/-- What was usable stays so. -/
def StaysUsable (v v' : World) : Prop :=
  ∀ e ∈ bands, ∀ t out, Usable P dir w sclPaths e t out v → Usable P dir w sclPaths e t out v'

variable {P dir w sclPaths bands} {v : World}

theorem Resampling.start (Ok : Event → Prop) : Resampling P dir w sclPaths bands Ok w :=
  ⟨LogsOnly.refl Ok w, fun _ _ => rfl, fun _ _ _ _ _ _ => Or.inl rfl⟩

/-- The classification files of the call are as they were. -/
theorem Resampling.scl_file (hv : Resampling P dir w sclPaths bands Ok v)
    (hapart : SclApart P dir w returned sclPaths bands) {p : PathBuf} (hp : p ∈ sclPaths) :
    v.files p = w.files p := by
  refine hv.frame p ?_
  rintro e he t scl data hneeds rfl
  exact (hapart.resampled e he t scl data hneeds).notScl hp

/-- The data files of the call are as they were. -/
theorem Resampling.data_file (hv : Resampling P dir w sclPaths bands Ok v)
    (hapart : SclApart P dir w returned sclPaths bands) {e : String × List PathBuf} (he : e ∈ bands)
    {p : PathBuf} (hp : p ∈ e.2) : v.files p = w.files p := by
  refine hv.frame p ?_
  rintro e' he' t scl data hneeds rfl
  exact (hapart.resampled e' he' t scl data hneeds).notData e he hp

section Write

variable {e : String × List PathBuf} {t : Nat} {scl data r : Raster}

/-- In the map of the bands a resampled file belongs to one band and scene. -/
theorem Resamples.unique (hnd : (bands.map Prod.fst).Nodup) {e' : String × List PathBuf} {t' : Nat}
    {scl' data' : Raster} (he : e ∈ bands) (he' : e' ∈ bands)
    (h : Resamples w sclPaths e t scl data) (h' : Resamples w sclPaths e' t' scl' data')
    (hpath : resampledPath dir e.1 t = resampledPath dir e'.1 t') :
    scl = scl' ∧ data = data' := by
  obtain ⟨hname, rfl⟩ := resampledPath_inj hpath
  have hsame : e = e' := List.inj_on_of_nodup_map hnd he he' hname
  subst hsame
  obtain ⟨⟨_, _, hpair⟩, _⟩ := h
  obtain ⟨⟨_, _, hpair'⟩, _⟩ := h'
  exact hpair.unique hpair'

variable (hnd : (bands.map Prod.fst).Nodup) (he : e ∈ bands)
  (hneeds : Resamples w sclPaths e t scl data) (hr : P.warp scl data = .ok r)
include hnd he hneeds hr

/-- Writing a resampled raster is a step of the first loop. -/
theorem Resampling.write (hv : Resampling P dir w sclPaths bands Ok v)
    (hok : Ok (.wrote (resampledPath dir e.1 t))) :
    Resampling P dir w sclPaths bands Ok (v.write (resampledPath dir e.1 t) (some r)) := by
  refine ⟨hv.log.write hok, ?_, ?_⟩
  · intro p hp
    rw [World.write_files, Function.update_of_ne (hp e he t scl data hneeds)]
    exact hv.frame p hp
  · intro e' he' t' scl' data' hneeds'
    by_cases hpath : resampledPath dir e'.1 t' = resampledPath dir e.1 t
    · obtain ⟨rfl, rfl⟩ := hneeds'.unique hnd he' he hneeds hpath
      refine Or.inr ⟨r, ?_, hr⟩
      rw [hpath, World.write_files, Function.update_self]
    · rw [World.write_files, Function.update_of_ne hpath]
      exact hv.slots e' he' t' scl' data' hneeds'

theorem StaysUsable.write :
    StaysUsable P dir w sclPaths bands v (v.write (resampledPath dir e.1 t) (some r)) := by
  rintro e' he' t' out ⟨sclPath, dataPath, scl', data', hpair, hcase⟩
  refine ⟨sclPath, dataPath, scl', data', hpair, ?_⟩
  rcases hcase with hgrid | ⟨hgrid, rfl, r', hfile, hr'⟩
  · exact Or.inl hgrid
  · refine Or.inr ⟨hgrid, rfl, ?_⟩
    by_cases hpath : resampledPath dir e'.1 t' = resampledPath dir e.1 t
    · obtain ⟨rfl, rfl⟩ :=
        Resamples.unique hnd he' he ⟨⟨sclPath, dataPath, hpair⟩, hgrid⟩ hneeds hpath
      refine ⟨r, ?_, hr⟩
      rw [hpath, World.write_files, Function.update_self]
    · refine ⟨r', ?_, hr'⟩
      rw [World.write_files, Function.update_of_ne hpath]
      exact hfile

end Write

section FirstLoop

variable (hnd : (bands.map Prod.fst).Nodup) (hfree : ∀ p, p ∉ returned → Ok (.wrote p))
  (hapart : SclApart P dir w returned sclPaths bands)
include hnd hfree hapart

/-- A round that has to resample. -/
theorem warp_outcome {e : String × List PathBuf} (he : e ∈ bands) {t : Nat}
    {sclPath dataPath : PathBuf} {scl data : Raster}
    (hpair : SclPair w sclPaths e t sclPath dataPath scl data) (hgrid : sameGrid scl data = false)
    {v : World} (hv : Resampling P dir w sclPaths bands Ok v) :
    Outcome
      (fun out v' => Resampling P dir w sclPaths bands Ok v' ∧
        StaysUsable P dir w sclPaths bands v v' ∧ Usable P dir w sclPaths e t out v')
      (LogsOnly Ok w) (warpScl P sclPath (resampledPath dir e.1 t) scl data v) := by
  have hneeds : Resamples w sclPaths e t scl data := ⟨⟨sclPath, dataPath, hpair⟩, hgrid⟩
  have hfresh := (hapart.resampled e he t scl data hneeds).fresh
  unfold warpScl
  cases hr : P.warp scl data with
  | error status =>
      exact hv.log
  | ok r =>
      refine ⟨hv.write hnd he hneeds hr (hfree _ hfresh), .write hnd he hneeds hr,
        sclPath, dataPath, scl, data, hpair, Or.inr ⟨hgrid, rfl, r, ?_, hr⟩⟩
      rw [World.write_files, Function.update_self]

/-- One round: whether the classification fits, is found resampled or is resampled
now, the path returned is usable. -/
theorem resample_outcome {e : String × List PathBuf} (he : e ∈ bands) {t : Nat}
    {sclPath dataPath : PathBuf} (hscl : sclPaths[t]? = some sclPath)
    (hdata : e.2[t]? = some dataPath) (v : World) (hv : Resampling P dir w sclPaths bands Ok v) :
    Outcome
      (fun out v' => Resampling P dir w sclPaths bands Ok v' ∧
        StaysUsable P dir w sclPaths bands v v' ∧ Usable P dir w sclPaths e t out v')
      (LogsOnly Ok w)
      (resampleSclToDataGrid P sclPath dataPath (resampledPath dir e.1 t) v) := by
  have hstays : StaysUsable P dir w sclPaths bands v v := fun _ _ _ _ h => h
  unfold resampleSclToDataGrid
  rw [hv.scl_file hapart (List.mem_of_getElem? hscl),
    hv.data_file hapart he (List.mem_of_getElem? hdata)]
  split
  · exact hv.log
  · exact hv.log
  · rename_i data scl hd hs
    have hpair : SclPair w sclPaths e t sclPath dataPath scl data := ⟨hscl, hdata, hs, hd⟩
    split
    · rename_i hgrid
      exact ⟨hv, hstays, sclPath, dataPath, scl, data, hpair, Or.inl ⟨hgrid, rfl⟩⟩
    · rename_i hgrid
      rw [Bool.not_eq_true] at hgrid
      split
      · rename_i prev hprev
        split
        · rename_i hsize
          have hneeds : Resamples w sclPaths e t scl data := ⟨⟨sclPath, dataPath, hpair⟩, hgrid⟩
          have hown : P.warp scl data = .ok prev := by
            rcases hv.slots e he t scl data hneeds with hsame | ⟨r, hr, hwarped⟩
            · exact (hapart.resampled e he t scl data hneeds).own prev (hsame ▸ hprev) hsize
            · rw [hprev] at hr
              cases hr
              exact hwarped
          exact ⟨hv, hstays, sclPath, dataPath, scl, data, hpair,
            Or.inr ⟨hgrid, rfl, prev, hprev, hown⟩⟩
        · exact warp_outcome hnd hfree hapart he hpair hgrid hv
      · exact warp_outcome hnd hfree hapart he hpair hgrid hv

/-- The loop over the scenes of one band. -/
theorem resampleBand_outcome {e : String × List PathBuf} (he : e ∈ bands) (v : World)
    (hv : Resampling P dir w sclPaths bands Ok v) :
    Outcome
      (fun out v' => Resampling P dir w sclPaths bands Ok v' ∧
        StaysUsable P dir w sclPaths bands v v' ∧ out.1 = e.1 ∧
        List.Forall₂ (fun (p : PathBuf × Nat) path => Usable P dir w sclPaths e p.2 path v')
          sclPaths.zipIdx out.2)
      (LogsOnly Ok w) (resampleBand P dir sclPaths e v) := by
  unfold resampleBand
  refine outcome_attempt_bind hv.log fun _ _ => ?_
  refine Outcome.bind (outcome_mapEach (I := Resampling P dir w sclPaths bands Ok)
    (R := StaysUsable P dir w sclPaths bands)
    (Q := fun (p : PathBuf × Nat) path v => Usable P dir w sclPaths e p.2 path v)
    ?_ ?_ ?_ ?_ v hv) ?_
  · exact fun _ _ _ _ _ h => h
  · exact fun _ _ _ h₁ h₂ e he t out h => h₂ e he t out (h₁ e he t out h)
  · exact fun p _ path _ _ hstays h => hstays e he p.2 path h
  · rintro ⟨sclPath, t⟩ hp u hu
    have hscl := List.mem_zipIdx_iff_getElem?.mp hp
    cases hdata : e.2[t]? with
    | none =>
        exact hu.log
    | some dataPath =>
        exact resample_outcome hnd hfree hapart he hscl hdata u hu
  · rintro outs u ⟨hu, hstays, houts⟩
    exact ⟨hu, hstays, rfl, houts⟩

end FirstLoop

variable (P dir w sclPaths bands) in
/-- A state of the second loop, which began in `u`. -/
structure Masking (Ok : Event → Prop) (u v : World) : Prop where
  log : LogsOnly Ok w v
  scl_file : ∀ p ∈ sclPaths, v.files p = w.files p
  stays : StaysUsable P dir w sclPaths bands u v

/-- What is read at a usable path is the call's own classification. -/
theorem Usable.ownScl {e : String × List PathBuf} {t : Nat} {path : PathBuf} {r : Raster}
    (h : Usable P dir w sclPaths e t path v) (hscl : ∀ p ∈ sclPaths, v.files p = w.files p)
    (hr : v.files path = some r) : OwnScl P w sclPaths e t r := by
  obtain ⟨sclPath, dataPath, scl, data, hpair, hcase⟩ := h
  refine ⟨sclPath, dataPath, scl, data, hpair, ?_⟩
  rcases hcase with ⟨hgrid, rfl⟩ | ⟨hgrid, rfl, r', hfile, hwarped⟩
  · rw [if_pos hgrid]
    rw [hscl path (List.mem_of_getElem? hpair.sclPath_eq), hpair.scl_eq] at hr
    exact (Option.some.inj hr).symm
  · rw [hgrid, if_neg Bool.false_ne_true]
    rw [hfile] at hr
    cases hr
    exact hwarped

theorem ends_noteScl {I : World → Prop} {b : String} {t : Nat} {path : PathBuf} (hv : I v)
    (hnote : ∀ scl, v.files path = some scl → I (v.note (.sclUsed b t scl))) :
    Ends I (noteScl b t path v) := by
  unfold noteScl
  split
  · rename_i scl hscl
    exact hnote scl hscl
  · exact hv

section SecondLoop

variable {u : World} {e : String × List PathBuf} {t : Nat}

theorem Masking.note (hv : Masking P dir w sclPaths bands Ok u v) {event : Event}
    (hok : Ok event) : Masking P dir w sclPaths bands Ok u (v.note event) :=
  ⟨hv.log.snoc hok rfl, hv.scl_file, hv.stays⟩

variable (hfree : ∀ p, p ∉ returned → Ok (.wrote p))
  (hapart : SclApart P dir w returned sclPaths bands) (he : e ∈ bands)
include hfree hapart he

/-- Writing a masked file is a step of the second loop. -/
theorem Masking.write (hv : Masking P dir w sclPaths bands Ok u v) (ht : t < sclPaths.length)
    (content : Option Raster) :
    Masking P dir w sclPaths bands Ok u (v.write (maskedPath dir e.1 t) content) := by
  refine ⟨hv.log.write (hfree _ (hapart.masked e he t ht)), ?_, ?_⟩
  · intro p hp
    have hne : p ≠ maskedPath dir e.1 t := by
      rintro rfl
      exact hapart.maskedScl e he t ht hp
    rw [World.write_files, Function.update_of_ne hne]
    exact hv.scl_file p hp
  · intro e' he' t' out hout
    obtain ⟨sclPath, dataPath, scl, data, hpair, hcase⟩ := hv.stays e' he' t' out hout
    refine ⟨sclPath, dataPath, scl, data, hpair, hcase.imp_right ?_⟩
    rintro ⟨hgrid, rfl, r, hfile, hwarped⟩
    have hne := (hapart.resampled e' he' t' scl data ⟨⟨sclPath, dataPath, hpair⟩, hgrid⟩).notMasked
      e he t ht
    refine ⟨hgrid, rfl, r, ?_, hwarped⟩
    rw [World.write_files, Function.update_of_ne hne]
    exact hfile

/-- The loop over the scenes of one band: each is masked with its own
classification. -/
theorem maskSclBand_ends (hnd : (bands.map Prod.fst).Nodup)
    (hown : ∀ t r, OwnScl P w sclPaths e t r → Ok (.sclUsed e.1 t r)) {values : List Nat}
    {resampled : List (String × List PathBuf)}
    (hres : List.Forall₂ (fun (e r : String × List PathBuf) => r.1 = e.1 ∧
      List.Forall₂ (fun (p : PathBuf × Nat) path => Usable P dir w sclPaths e p.2 path u)
        sclPaths.zipIdx r.2) bands resampled)
    (v : World) (hv : Masking P dir w sclPaths bands Ok u v) :
    Ends (Masking P dir w sclPaths bands Ok u) (maskSclBand P dir values resampled e v) := by
  unfold maskSclBand
  cases hlookup : resampled.lookup e.1 with
  | none =>
      exact hv
  | some scls =>
      have hscls : List.Forall₂
          (fun (p : PathBuf × Nat) path => Usable P dir w sclPaths e p.2 path u)
          sclPaths.zipIdx scls := by
        have hmem : (e.1, scls) ∈ resampled := mem_of_lookup_eq_some hlookup
        obtain ⟨e', he', hname, hpaths⟩ := forall₂_exists_left hres hmem
        have hsame : e = e' := List.inj_on_of_nodup_map hnd he he' hname
        rw [hsame]
        exact hpaths
      refine Outcome.bind (ends_mapEach ?_ v hv) fun _ _ h => h
      rintro ⟨⟨dataPath, sclPath⟩, t⟩ hp v hv
      have hzip := List.mem_zipIdx_iff_getElem?.mp hp
      have hsclPath := (List.getElem?_zip_eq_some.mp hzip).2
      obtain ⟨⟨p, t'⟩, hp', husable⟩ := forall₂_getElem? hscls hsclPath
      rw [List.getElem?_zipIdx, Option.map_eq_some_iff] at hp'
      obtain ⟨p', hp', heq⟩ := hp'
      cases heq
      have ht := (List.getElem?_eq_some_iff.mp hp').1
      rw [Nat.zero_add] at husable
      refine Outcome.bind (ends_noteScl hv ?_) ?_
      · intro scl hscl
        exact hv.note (hown t scl ((hv.stays e he t sclPath husable).ownScl hv.scl_file hscl))
      · intro _ v₁ hv₁
        refine Outcome.bind (ends_reductionWithMask hv₁ ?_) fun _ _ h => h
        exact fun content => hv₁.write hfree hapart he ht content

end SecondLoop

/-- Both loops, one after the other. -/
theorem maskSclLoops_end {values : List Nat} {out : List (String × List PathBuf) → DataCube}
    (hnd : (bands.map Prod.fst).Nodup) (hfree : ∀ p, p ∉ returned → Ok (.wrote p))
    (hapart : SclApart P dir w returned sclPaths bands)
    (hown : ∀ e ∈ bands, ∀ t r, OwnScl P w sclPaths e t r → Ok (.sclUsed e.1 t r)) :
    Ends (LogsOnly Ok w)
      ((do
        let resampled ← mapEach (resampleBand P dir sclPaths) bands
        let masked ← mapEach (maskSclBand P dir values resampled) bands
        pure (out masked) : Eval DataCube) w) := by
  refine Outcome.bind (outcome_mapEach (I := Resampling P dir w sclPaths bands Ok)
    (R := StaysUsable P dir w sclPaths bands)
    (Q := fun (e r : String × List PathBuf) v => r.1 = e.1 ∧
      List.Forall₂ (fun (p : PathBuf × Nat) path => Usable P dir w sclPaths e p.2 path v)
        sclPaths.zipIdx r.2) ?_ ?_ ?_ ?_ w (Resampling.start Ok)) ?_
  · exact fun _ _ _ _ _ h => h
  · exact fun _ _ _ h₁ h₂ e he t out h => h₂ e he t out (h₁ e he t out h)
  · rintro e he r v v' hstays ⟨hname, hpaths⟩
    exact ⟨hname, hpaths.imp fun p path h => hstays e he p.2 path h⟩
  · intro e he v hv
    exact resampleBand_outcome hnd hfree hapart he v hv
  · rintro resampled u ⟨hu, _, hres⟩
    have hstart : Masking P dir w sclPaths bands Ok u u :=
      ⟨hu.log, fun p hp => hu.scl_file hapart hp, fun _ _ _ _ h => h⟩
    refine Outcome.bind (Q := fun _ => Masking P dir w sclPaths bands Ok u) ?_ fun _ _ h => h.log
    refine (ends_mapEach ?_ u hstart).imp (fun _ _ h => h) (fun _ h => h.log)
    intro e he v hv
    exact maskSclBand_ends hfree hapart he hnd (hown e he) hres v hv

end Resampling

/-- **What a call of `mask_scl_dilation` logs when nothing comes in its way**: it
writes only files that have not been returned, and masks every scene with its own
classification. -/
theorem evalMaskSclDilation_logs {P : Platform} {dir : PathBuf} {Ok : Event → Prop} {w : World}
    {returned : List PathBuf} {args : Args} (hfree : ∀ p, p ∉ returned → Ok (.wrote p))
    (hown : ∀ c sclPaths, ArgCube args "data" c →
      c.bands.get (argStrOr args "scl_band_name" "SCL") = some sclPaths →
      ∀ e ∈ (c.bands.remove (argStrOr args "scl_band_name" "SCL")).entries, ∀ t r,
        OwnScl P w sclPaths e t r → Ok (.sclUsed e.1 t r))
    (hapart : ∀ c sclPaths, ArgCube args "data" c →
      c.bands.get (argStrOr args "scl_band_name" "SCL") = some sclPaths →
      SclApart P dir w returned sclPaths
        (c.bands.remove (argStrOr args "scl_band_name" "SCL")).entries) :
    Ends (LogsOnly Ok w) (evalMaskSclDilation P dir args w) := by
  have hw := LogsOnly.refl Ok w
  unfold evalMaskSclDilation
  refine outcome_attempt_bind hw fun _ _ => ?_
  refine outcome_argCube_bind hw fun c hcube => ?_
  refine Outcome.bind (Q := fun _ => LogsOnly Ok w) ?_ fun _ _ h => h
  unfold maskSclDilation DataCube.takeBand
  cases hscl : c.bands.get (argStrOr args "scl_band_name" "SCL") with
  | none =>
      exact hw
  | some sclPaths =>
      dsimp only
      split
      · exact hw
      · cases (c.bands.remove (argStrOr args "scl_band_name" "SCL")).entries.find?
          (fun e => e.2.length ≠ sclPaths.length) with
        | some e =>
            exact hw
        | none =>
            exact maskSclLoops_end (BTreeMap.keys_nodup _) hfree (hapart c sclPaths hcube hscl)
              (hown c sclPaths hcube hscl)

end OrbitOpenEO
