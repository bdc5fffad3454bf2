import OrbitOpenEO.CubeCalls
import Mathlib.Data.List.Nodup
import Mathlib.Data.List.Perm.Subperm

/-!
# The labels of the band dimension

`rename_labels` and `filter_bands` move entries of the band map one at a time.  A renaming
keeps every path list as long as the new names are distinct and none of them is the name of
a band that keeps its own; a restriction has the layers it lists as long as no band is
requested twice.
-/

namespace OrbitOpenEO

open Lib

theorem values_eq_filterMap_get {α : Type} (m : BTreeMap α) :
    m.values = m.keys.filterMap m.get := by
  unfold BTreeMap.values BTreeMap.keys
  rw [List.filterMap_map, ← List.filterMap_eq_map]
  apply List.filterMap_congr
  intro e he
  exact ((m.get_eq_some_iff e.1 e.2).mpr he).symm

theorem values_perm_of_keys {α : Type} {m : BTreeMap α} {names : List String}
    (h : m.keys.Perm names) : m.values.Perm (names.filterMap m.get) := by
  rw [values_eq_filterMap_get]
  exact h.filterMap m.get

/-- The names not listed, in order. -/
def unlisted (names listed : List String) : List String := names.filter (fun b => b ∉ listed)

theorem mem_unlisted {names listed : List String} {b : String} :
    b ∈ unlisted names listed ↔ b ∈ names ∧ b ∉ listed := by
  simp [unlisted]

/-- Names that are listed once come first, the others after them. -/
theorem perm_listed_append {names listed : List String} (hnames : names.Nodup)
    (hlisted : listed.Nodup) (hsub : listed ⊆ names) :
    names.Perm (listed ++ unlisted names listed) := by
  have hnodup : (listed ++ unlisted names listed).Nodup := by
    refine List.nodup_append'.mpr ⟨hlisted, hnames.filter _, ?_⟩
    intro b hb hb'
    exact (mem_unlisted.mp hb').2 hb
  refine (List.perm_ext_iff_of_nodup hnames hnodup).mpr ?_
  intro b
  rw [List.mem_append, mem_unlisted]
  constructor
  · intro hb
    by_cases hin : b ∈ listed
    · exact .inl hin
    · exact .inr ⟨hb, hin⟩
  · rintro (hb | hb)
    · exact hsub hb
    · exact hb.1

/-- With distinct new names each of them comes from its own pair. -/
theorem movedFrom_of_mem {pairs : List (String × String)} (hnd : (pairs.map Prod.snd).Nodup)
    {p : String × String} (hp : p ∈ pairs) : movedFrom pairs p.2 = some p.1 := by
  induction pairs with
  | nil =>
      cases hp
  | cons q pairs ih =>
      rw [List.map_cons, List.nodup_cons] at hnd
      rw [movedFrom]
      rcases List.mem_cons.mp hp with rfl | hp
      · have hnone : movedFrom pairs p.2 = none := by
          rw [← Option.not_isSome_iff_eq_none, movedFrom_isSome_iff]
          exact hnd.1
        rw [hnone, Option.none_or, if_pos rfl]
      · rw [ih hnd.2 hp, Option.some_or]

theorem mem_of_movedFrom {pairs : List (String × String)} {b old : String}
    (h : movedFrom pairs b = some old) : (old, b) ∈ pairs := by
  induction pairs with
  | nil =>
      cases h
  | cons p pairs ih =>
      rw [movedFrom, Option.or_eq_some_iff] at h
      rcases h with h | ⟨-, h⟩
      · exact List.mem_cons_of_mem _ (ih h)
      · split at h
        · rename_i hb
          cases h
          rw [hb]
          exact List.mem_cons_self
        · cases h

/-- When the loop over the renamed bands goes through. -/
theorem renameMoved_isOk_iff {pairs : List (String × String)}
    {bands renamed : BTreeMap (List PathBuf)} :
    (∃ r, renameMoved pairs bands renamed = .ok r) ↔
      (pairs.map Prod.fst).Nodup ∧ (∀ p ∈ pairs, p.1 ∈ bands.keys) ∧
        ∀ p ∈ pairs, validateIdentifier p.2 "rename_labels.target" = .ok () := by
  induction pairs generalizing bands renamed with
  | nil =>
      simp [renameMoved]
  | cons p pairs ih =>
      obtain ⟨old, new⟩ := p
      have hstep : (∃ r, renameMoved ((old, new) :: pairs) bands renamed = .ok r) ↔
          validateIdentifier new "rename_labels.target" = .ok () ∧
            ∃ paths, bands.get old = some paths ∧
              ∃ r, renameMoved pairs (bands.remove old) (renamed.insert new paths) = .ok r := by
        simp only [renameMoved, bind_eq_ok_iff]
        cases hget : bands.get old with
        | none =>
            simp
        | some paths =>
            constructor
            · rintro ⟨r, _, hvalid, h⟩
              exact ⟨hvalid, paths, rfl, r, h⟩
            · rintro ⟨hvalid, _, hpaths, r, h⟩
              cases hpaths
              exact ⟨r, _, hvalid, h⟩
      have hkeys : ∀ b, b ∈ (bands.remove old).keys ↔ b ≠ old ∧ b ∈ bands.keys := by
        intro b
        simp only [BTreeMap.mem_keys_iff_get, BTreeMap.get_remove]
        by_cases hb : b = old
        · simp [hb]
        · simp [hb]
      simp only [hstep, ih, hkeys, List.map_cons, List.nodup_cons, List.forall_mem_cons,
        BTreeMap.mem_keys_iff_get, List.mem_map]
      constructor
      · rintro ⟨hvalid, paths, hold, hnd, hin, hvalids⟩
        refine ⟨⟨?_, hnd⟩, ⟨⟨paths, hold⟩, fun p hp => (hin p hp).2⟩, hvalid, hvalids⟩
        rintro ⟨p, hp, hpold⟩
        exact (hin p hp).1 hpold
      · rintro ⟨⟨hnot, hnd⟩, ⟨⟨paths, hold⟩, hin⟩, hvalid, hvalids⟩
        refine ⟨hvalid, paths, hold, hnd, ?_, hvalids⟩
        intro p hp
        exact ⟨fun hpold => hnot ⟨p, hp, hpold⟩, hin p hp⟩

/-- What is left after the loop: the bands that were not renamed. -/
theorem get_left_of_renameMoved {pairs : List (String × String)}
    {bands renamed left moved : BTreeMap (List PathBuf)}
    (h : renameMoved pairs bands renamed = .ok (left, moved)) (b : String) :
    left.get b = if b ∈ pairs.map Prod.fst then none else bands.get b := by
  induction pairs generalizing bands renamed with
  | nil =>
      simp only [renameMoved, Except.ok.injEq, Prod.mk.injEq] at h
      simp [h.1]
  | cons p pairs ih =>
      obtain ⟨old, new⟩ := p
      unfold renameMoved at h
      obtain ⟨_, _, h⟩ := bind_eq_ok_iff.mp h
      split at h
      · cases h
      · rw [ih h, BTreeMap.get_remove, List.map_cons]
        by_cases hb : b = old
        · simp [hb]
        · simp only [List.mem_cons, hb, false_or, if_false]

theorem renameSources_length {c : DataCube} {source : Option (List String)}
    {target olds : List String} (h : renameSources c source target = .ok olds) :
    olds.length = target.length := by
  unfold renameSources at h
  split at h
  · split at h
    · cases h
    · cases h
      simp_all
  · split at h
    · cases h
    · cases h
      simp_all

/-- The bands after renaming `olds` to `target`. -/
theorem get_renameLabels {c out : DataCube} {source : Option (List String)}
    {target olds : List String} (h : renameLabels c source target = .ok out)
    (holds : renameSources c source target = .ok olds) (b : String) :
    out.bands.get b =
      match movedFrom (olds.zip target) b with
      | some old => c.bands.get old
      | none => if b ∈ olds then none else c.bands.get b := by
  unfold renameLabels at h
  obtain ⟨olds', holds', h⟩ := bind_eq_ok_iff.mp h
  rw [holds] at holds'
  cases holds'
  obtain ⟨⟨left, moved⟩, hmoved, h⟩ := bind_eq_ok_iff.mp h
  cases h
  have hleft := get_left_of_renameMoved hmoved b
  rw [List.map_fst_zip (renameSources_length holds).le] at hleft
  obtain ⟨-, hsome, hnone⟩ := renameMoved_eq_ok (b := b) hmoved
  simp only [get_foldl_orInsert]
  change (moved.get b).or (left.get b) = _
  cases hfrom : movedFrom (olds.zip target) b with
  | some old =>
      obtain ⟨hold, hpresent⟩ := hsome old hfrom
      obtain ⟨paths, hpaths⟩ := Option.isSome_iff_exists.mp hpresent
      simp [hold, hpaths]
  | none =>
      simp [hnone hfrom, hleft]

theorem left_mem_of_forall_zip {olds target : List String} (hlen : olds.length = target.length)
    {P : String → Prop} : (∀ p ∈ olds.zip target, P p.1) ↔ ∀ old ∈ olds, P old := by
  constructor
  · intro h old hold
    rw [← List.map_fst_zip hlen.le] at hold
    obtain ⟨p, hp, rfl⟩ := List.mem_map.mp hold
    exact h p hp
  · intro h p hp
    exact h p.1 (List.of_mem_zip hp).1

theorem right_mem_of_forall_zip {olds target : List String} (hlen : olds.length = target.length)
    {P : String → Prop} : (∀ p ∈ olds.zip target, P p.2) ↔ ∀ new ∈ target, P new := by
  constructor
  · intro h new hnew
    rw [← List.map_snd_zip hlen.ge] at hnew
    obtain ⟨p, hp, rfl⟩ := List.mem_map.mp hnew
    exact h p hp
  · intro h p hp
    exact h p.2 (List.of_mem_zip hp).2

/-- When `rename_labels` goes through. -/
theorem renameLabels_isOk_iff {c : DataCube} {source : Option (List String)}
    {target olds : List String} (holds : renameSources c source target = .ok olds) :
    (∃ out, renameLabels c source target = .ok out) ↔
      olds.Nodup ∧ (∀ old ∈ olds, old ∈ c.bands.keys) ∧
        ∀ new ∈ target, validateIdentifier new "rename_labels.target" = .ok () := by
  have hlen := renameSources_length holds
  have hmoved := @renameMoved_isOk_iff (olds.zip target) c.bands BTreeMap.empty
  rw [List.map_fst_zip hlen.le, left_mem_of_forall_zip hlen (P := fun old => old ∈ c.bands.keys),
    right_mem_of_forall_zip hlen
      (P := fun new => validateIdentifier new "rename_labels.target" = .ok ())] at hmoved
  rw [← hmoved]
  unfold renameLabels
  constructor
  · rintro ⟨out, h⟩
    obtain ⟨olds', holds', h⟩ := bind_eq_ok_iff.mp h
    rw [holds] at holds'
    cases holds'
    obtain ⟨r, hr, -⟩ := bind_eq_ok_iff.mp h
    exact ⟨r, hr⟩
  · rintro ⟨r, hr⟩
    exact ⟨_, bind_eq_ok_iff.mpr ⟨olds, holds, bind_eq_ok_iff.mpr ⟨r, hr, rfl⟩⟩⟩

/-- A list of labels as an argument. -/
def labels (names : List String) : Envelope := .value (stringsJson names) .missingEnvelope

/-- The arguments of the renaming back. -/
def exchanged (args : Args) (out : DataCube) (olds target : List String) : Args :=
  ((args.insert "data" (.cube out)).insert "source" (labels target)).insert "target" (labels olds)

/-- What a renaming of `olds` to `target` promises. -/
structure ConservesBands (args : Args) (c out : DataCube) (olds target : List String) : Prop where
  paths : out.bands.values.Perm c.bands.values
  renamed : ∀ p ∈ olds.zip target, out.bands.get p.2 = c.bands.get p.1
  others : ∀ b ∈ c.bands.keys, b ∉ olds → out.bands.get b = c.bands.get b
  back : ∃ restored, evalRenameLabels (exchanged args out olds target) = .ok (.cube restored) ∧
    restored.bands = c.bands

/-- The new names are distinct, none of them is the name of a band that is not renamed,
and the old ones may be used as labels again. -/
structure Reversible (c : DataCube) (olds target : List String) : Prop where
  distinct : target.Nodup
  free : ∀ b ∈ c.bands.keys, b ∉ olds → b ∉ target
  valid : ∀ old ∈ olds, validateIdentifier old "rename_labels.target" = .ok ()

theorem strings_stringsJson (names : List String) : strings (names.map .str) = names := by
  unfold strings
  rw [List.filterMap_map]
  exact List.filterMap_some

section Renaming

variable {args : Args} {c out : DataCube} {source : Option (List String)} {olds target : List String}

/-- The renaming back has the dimension of the renaming itself. -/
theorem evalRenameLabels_exchanged {v : Envelope} (h : evalRenameLabels args = .ok v) :
    evalRenameLabels (exchanged args out olds target) =
      (renameLabels out (some target) olds).map .cube := by
  have hdata : requireArg (exchanged args out olds target) "data" "rename_labels: missing `data`" =
      .ok (.cube out) := by
    simp [requireArg, exchanged, BTreeMap.get_insert]
  have hdim : argStrOr (exchanged args out olds target) "dimension" "bands" =
      argStrOr args "dimension" "bands" := by
    simp [argStrOr, exchanged, BTreeMap.get_insert]
  have htarget : argArray (exchanged args out olds target) "target" = some (olds.map .str) := by
    simp [argArray, exchanged, labels, stringsJson, Envelope.asArray, Envelope.json]
  have hsource : argArray (exchanged args out olds target) "source" = some (target.map .str) := by
    simp [argArray, exchanged, labels, stringsJson, Envelope.asArray, Envelope.json,
      BTreeMap.get_insert]
  unfold evalRenameLabels at h ⊢
  obtain ⟨data, -, h⟩ := bind_eq_ok_iff.mp h
  simp only [hdata, hdim, htarget, hsource]
  dsimp only at h
  split at h
  · cases h
  · rename_i hbands
    simp only [Bind.bind, Except.bind, if_neg hbands, decodeCube, DataCube.fromEnvelopeOwned,
      Option.map_some, strings_stringsJson]
    cases renameLabels out (some target) olds with
    | error e =>
        rfl
    | ok restored =>
        rfl

theorem zip_swap_mem {b t : String} : (t, b) ∈ target.zip olds ↔ (b, t) ∈ olds.zip target := by
  rw [← List.zip_swap olds target, List.mem_map]
  constructor
  · rintro ⟨p, hp, he⟩
    cases he
    exact hp
  · intro h
    exact ⟨(b, t), h, rfl⟩

theorem exists_zip_of_mem_left (hlen : olds.length = target.length) {b : String} (hb : b ∈ olds) :
    ∃ t, (b, t) ∈ olds.zip target := by
  rw [← List.map_fst_zip hlen.le] at hb
  obtain ⟨p, hp, rfl⟩ := List.mem_map.mp hb
  exact ⟨p.2, hp⟩

theorem movedFrom_eq_none_of_not_mem (hlen : olds.length = target.length) {b : String} :
    movedFrom (olds.zip target) b = none ↔ b ∉ target := by
  rw [← Option.not_isSome_iff_eq_none, movedFrom_isSome_iff, List.map_snd_zip hlen.ge]

/-- With distinct new names a renamed band is found under its new name. -/
theorem get_renamed (h : renameLabels c source target = .ok out)
    (holds : renameSources c source target = .ok olds) (hnd : target.Nodup)
    {p : String × String} (hp : p ∈ olds.zip target) :
    out.bands.get p.2 = c.bands.get p.1 := by
  have hsnd : ((olds.zip target).map Prod.snd).Nodup := by
    rwa [List.map_snd_zip (renameSources_length holds).ge]
  rw [get_renameLabels h holds, movedFrom_of_mem hsnd hp]

/-- A band that is not renamed is found under its own name unless that has been given away. -/
theorem get_other (h : renameLabels c source target = .ok out)
    (holds : renameSources c source target = .ok olds) {b : String} (hnew : b ∉ target) :
    out.bands.get b = if b ∈ olds then none else c.bands.get b := by
  rw [get_renameLabels h holds,
    (movedFrom_eq_none_of_not_mem (renameSources_length holds)).mpr hnew]

/-- Every band afterwards has a new name or is one of those not renamed. -/
theorem mem_keys_renameLabels (h : renameLabels c source target = .ok out)
    (holds : renameSources c source target = .ok olds) {b : String} :
    b ∈ out.bands.keys ↔ b ∈ target ++ unlisted c.bands.keys olds := by
  have hlen := renameSources_length holds
  have hpresent := ((renameLabels_isOk_iff holds).mp ⟨out, h⟩).2.1
  rw [List.mem_append, mem_unlisted, BTreeMap.mem_keys_iff_get]
  by_cases hnew : b ∈ target
  · obtain ⟨old, hold⟩ := Option.isSome_iff_exists.mp
      (movedFrom_isSome_iff.mpr (by rwa [List.map_snd_zip hlen.ge] : b ∈ (olds.zip target).map _))
    have hmem : old ∈ olds := (List.of_mem_zip (mem_of_movedFrom hold)).1
    rw [get_renameLabels h holds, hold]
    exact iff_of_true ((c.bands.mem_keys_iff_get old).mp (hpresent old hmem)) (.inl hnew)
  · rw [get_other h holds hnew, BTreeMap.mem_keys_iff_get]
    by_cases hold : b ∈ olds
    · simp [hnew, hold]
    · simp [hnew, hold]

/-- The path lists come along when the names afterwards are distinct. -/
theorem values_perm_of_reversible (h : renameLabels c source target = .ok out)
    (holds : renameSources c source target = .ok olds) (hrev : Reversible c olds target) :
    out.bands.values.Perm c.bands.values := by
  obtain ⟨hnd, hpresent, -⟩ := (renameLabels_isOk_iff holds).mp ⟨out, h⟩
  have hlen := renameSources_length holds
  have hnodup : (target ++ unlisted c.bands.keys olds).Nodup := by
    refine List.nodup_append'.mpr ⟨hrev.distinct, c.bands.keys_nodup.filter _, ?_⟩
    intro b hnew hb
    exact hrev.free b (mem_unlisted.mp hb).1 (mem_unlisted.mp hb).2 hnew
  have hout : out.bands.keys.Perm (target ++ unlisted c.bands.keys olds) :=
    (List.perm_ext_iff_of_nodup out.bands.keys_nodup hnodup).mpr
      (fun b => mem_keys_renameLabels h holds)
  have hin : c.bands.keys.Perm (olds ++ unlisted c.bands.keys olds) :=
    perm_listed_append c.bands.keys_nodup hnd hpresent
  have hrenamed : target.filterMap out.bands.get = olds.filterMap c.bands.get := by
    conv_lhs => rw [← List.map_snd_zip hlen.ge]
    conv_rhs => rw [← List.map_fst_zip hlen.le]
    rw [List.filterMap_map, List.filterMap_map]
    apply List.filterMap_congr
    intro p hp
    exact get_renamed h holds hrev.distinct hp
  have hothers : (unlisted c.bands.keys olds).filterMap out.bands.get =
      (unlisted c.bands.keys olds).filterMap c.bands.get := by
    apply List.filterMap_congr
    intro b hb
    obtain ⟨hkey, hold⟩ := mem_unlisted.mp hb
    rw [get_other h holds (hrev.free b hkey hold), if_neg hold]
  refine (values_perm_of_keys hout).trans ?_
  rw [List.filterMap_append, hrenamed, hothers, ← List.filterMap_append]
  exact (values_perm_of_keys hin).symm

/-- When no path list is lost, the names afterwards are distinct. -/
theorem nodup_of_values_perm (h : renameLabels c source target = .ok out)
    (holds : renameSources c source target = .ok olds)
    (hperm : out.bands.values.Perm c.bands.values) :
    (target ++ unlisted c.bands.keys olds).Nodup := by
  obtain ⟨hnd, hpresent, -⟩ := (renameLabels_isOk_iff holds).mp ⟨out, h⟩
  have hin : c.bands.keys.Perm (olds ++ unlisted c.bands.keys olds) :=
    perm_listed_append c.bands.keys_nodup hnd hpresent
  have hcount : out.bands.keys.length = c.bands.keys.length := by
    simpa [BTreeMap.values, BTreeMap.keys] using hperm.length_eq
  have hlen : (target ++ unlisted c.bands.keys olds).length ≤ out.bands.keys.length := by
    rw [hcount, hin.length_eq, List.length_append, List.length_append, renameSources_length holds]
  have hsub : out.bands.keys.Subperm (target ++ unlisted c.bands.keys olds) :=
    List.subperm_of_subset out.bands.keys_nodup (fun b hb => (mem_keys_renameLabels h holds).mp hb)
  exact (hsub.perm_of_length_le hlen).nodup_iff.mp out.bands.keys_nodup

/-- Renaming back finds every band where it was. -/
theorem restored_bands {restored : DataCube} (h : renameLabels c source target = .ok out)
    (holds : renameSources c source target = .ok olds) (hrev : Reversible c olds target)
    (hback : renameLabels out (some target) olds = .ok restored) : restored.bands = c.bands := by
  have hlen := renameSources_length holds
  have hnd := ((renameLabels_isOk_iff holds).mp ⟨out, h⟩).1
  have hsources : renameSources out (some target) olds = .ok target := by
    simp [renameSources, hlen]
  apply BTreeMap.ext_get
  intro b
  by_cases hold : b ∈ olds
  · obtain ⟨t, ht⟩ := exists_zip_of_mem_left hlen hold
    rw [get_renamed hback hsources hnd (zip_swap_mem.mpr ht), get_renamed h holds hrev.distinct ht]
  · rw [get_other hback hsources hold]
    by_cases hnew : b ∈ target
    · have hmissing : b ∉ c.bands.keys := fun hkey => hrev.free b hkey hold hnew
      rw [if_pos hnew]
      cases hget : c.bands.get b with
      | none =>
          rfl
      | some paths =>
          exact absurd ((c.bands.mem_keys_iff_get b).mpr ⟨paths, hget⟩) hmissing
    · rw [if_neg hnew, get_other h holds hnew, if_neg hold]

/-- A renaming conserves the bands just when it is reversible. -/
theorem renamed_bands_conserved_iff {v : Envelope} (h : evalRenameLabels args = .ok v) :
    ∃ c out olds, ArgCube args "data" c ∧ v = .cube out ∧
      renameSources c (renameSource args) (renameTarget args) = .ok olds ∧
      (ConservesBands args c out olds (renameTarget args) ↔
        Reversible c olds (renameTarget args)) := by
  obtain ⟨c, out, hc, hout, rfl⟩ := evalRenameLabels_eq_ok h
  obtain ⟨olds, holds, -⟩ := bind_eq_ok_iff.mp hout
  refine ⟨c, out, olds, hc, rfl, holds, ?_⟩
  have hlen := renameSources_length holds
  have hsources : renameSources out (some (renameTarget args)) olds = .ok (renameTarget args) := by
    simp [renameSources, hlen]
  constructor
  · intro hcons
    obtain ⟨hdistinct, -, hdisjoint⟩ :=
      List.nodup_append'.mp (nodup_of_values_perm hout holds hcons.paths)
    obtain ⟨restored, hback, -⟩ := hcons.back
    rw [evalRenameLabels_exchanged h] at hback
    refine ⟨hdistinct, ?_, ?_⟩
    · intro b hkey hold hnew
      exact hdisjoint hnew (mem_unlisted.mpr ⟨hkey, hold⟩)
    · cases hres : renameLabels out (some (renameTarget args)) olds with
      | error e =>
          rw [hres] at hback
          cases hback
      | ok back =>
          exact ((renameLabels_isOk_iff hsources).mp ⟨back, hres⟩).2.2
  · intro hrev
    have hpresent : ∀ new ∈ renameTarget args, new ∈ out.bands.keys := fun new hnew =>
      (mem_keys_renameLabels hout holds).mpr (List.mem_append_left _ hnew)
    obtain ⟨restored, hback⟩ :=
      (renameLabels_isOk_iff hsources).mpr ⟨hrev.distinct, hpresent, hrev.valid⟩
    refine ⟨values_perm_of_reversible hout holds hrev, ?_, ?_, restored, ?_, ?_⟩
    · intro p hp
      exact get_renamed hout holds hrev.distinct hp
    · intro b hkey hold
      rw [get_other hout holds (hrev.free b hkey hold), if_neg hold]
    · rw [evalRenameLabels_exchanged h, hback]
      rfl
    · exact restored_bands hout holds hrev hback

end Renaming

/-- A cube of a red and a near-infrared band. -/
def redAndNir : DataCube :=
  { bands := (BTreeMap.empty.insert "B04" ["/work/b04.tif"]).insert "B08" ["/work/b08.tif"] }

/-- The arguments of a renaming of its bands. -/
def renameArgs (source target : List String) : Args :=
  ((BTreeMap.empty.insert "data" (.cube redAndNir)).insert "source" (labels source)).insert
    "target" (labels target)

theorem renamed_bands_conserved_iff_swap : ∃ v,
    evalRenameLabels (renameArgs ["B04", "B08"] ["B08", "B04"]) = .ok v ∧
      ∃ c out olds, ArgCube (renameArgs ["B04", "B08"] ["B08", "B04"]) "data" c ∧ v = .cube out ∧
        renameSources c (renameSource (renameArgs ["B04", "B08"] ["B08", "B04"]))
          (renameTarget (renameArgs ["B04", "B08"] ["B08", "B04"])) = .ok olds ∧
        (ConservesBands (renameArgs ["B04", "B08"] ["B08", "B04"]) c out olds
            (renameTarget (renameArgs ["B04", "B08"] ["B08", "B04"])) ↔
          Reversible c olds (renameTarget (renameArgs ["B04", "B08"] ["B08", "B04"]))) :=
  ⟨_, rfl, renamed_bands_conserved_iff rfl⟩

/-- A new name that is in use takes the place of the band that has it. -/
theorem overwritten_band_lost : ∃ out,
    evalRenameLabels (renameArgs ["B04"] ["B08"]) = .ok (.cube out) ∧
      renameSources redAndNir (some ["B04"]) ["B08"] = .ok ["B04"] ∧
      ¬ ConservesBands (renameArgs ["B04"] ["B08"]) redAndNir out ["B04"] ["B08"] := by
  refine ⟨_, rfl, rfl, ?_⟩
  intro h
  have hcount : 1 = 2 := h.paths.length_eq
  omega

/-- The names a restriction is called with. -/
def requestedBands (args : Args) : List String := strings ((argArray args "bands").getD [])

/-- What a restriction to the requested bands promises: those bands as they were, each of
them listed once and all of them counted; and another restriction gives what it would have
given at once. -/
structure RestrictsTo (args : Args) (c out : DataCube) (requested : List String) : Prop where
  bands : ∀ b, out.bands.get b = if b ∈ requested then c.bands.get b else none
  present : ∀ b, b ∈ out.bands.keys ↔ b ∈ requested
  names : ∃ names, out.layerNames = some names ∧ names.Perm out.bands.keys
  layers : out.layers = some out.bands.keys.length
  again : ∀ (later : Args) v, later.get "data" = some (.cube out) → evalFilterBands later = .ok v →
    ∀ data, args.get "data" = some data → evalFilterBands (later.insert "data" data) = .ok v

section Restriction

variable {args : Args} {c out : DataCube} {requested : List String}

theorem evalFilterBands_ok_iff {v : Envelope} :
    evalFilterBands args = .ok v ↔
      argArray args "bands" ≠ none ∧ requestedBands args ≠ [] ∧
        ∃ c out, ArgCube args "data" c ∧ filterBands c (requestedBands args) = .ok out ∧
          v = .cube out := by
  unfold evalFilterBands requestedBands
  cases hbands : argArray args "bands" with
  | none =>
      simp [bind_eq_ok_iff]
  | some bands =>
      by_cases hempty : strings bands = []
      · simp [bind_eq_ok_iff, hempty]
      · simp only [bind_eq_ok_iff, List.isEmpty_iff, hempty, if_false, Option.getD_some, ne_eq,
          reduceCtorEq, not_false_eq_true, true_and]
        constructor
        · rintro ⟨data, hdata, c, hc, out, hout, h⟩
          cases h
          exact ⟨c, out, ⟨data, requireArg_eq_ok hdata, decodeCube_eq_ok hc⟩, hout, rfl⟩
        · rintro ⟨c, out, ⟨data, hdata, hc⟩, hout, rfl⟩
          exact ⟨data, by simp [requireArg, hdata], c, by simp [decodeCube, hc], out, hout, rfl⟩

/-- A restriction goes through when every requested band is there. -/
theorem filterBands_isOk_iff :
    (∃ out, filterBands c requested = .ok out) ↔ ∀ b ∈ requested, b ∈ c.bands.keys := by
  constructor
  · rintro ⟨out, h⟩ b hb
    rw [BTreeMap.mem_keys_iff_get, ← BTreeMap.containsKey_iff]
    exact (filterBands_eq_ok h).1 b hb
  · intro h
    have hfind : requested.find? (fun b => !c.bands.containsKey b) = none := by
      rw [List.find?_eq_none]
      intro b hb
      have hkey := (c.bands.mem_keys_iff_get b).mp (h b hb)
      simp [(c.bands.containsKey_iff b).mpr hkey]
    unfold filterBands
    rw [hfind]
    exact ⟨_, rfl⟩

theorem mem_keys_filterBands (h : filterBands c requested = .ok out) {b : String} :
    b ∈ out.bands.keys ↔ b ∈ requested := by
  obtain ⟨hpresent, hget, -⟩ := filterBands_eq_ok h
  rw [BTreeMap.mem_keys_iff_get, hget]
  by_cases hb : b ∈ requested
  · rw [if_pos hb]
    exact iff_of_true ((c.bands.containsKey_iff b).mp (hpresent b hb)) hb
  · simp [hb]

/-- Two restrictions are the second one alone. -/
theorem filterBands_filterBands {wanted : List String} {out' : DataCube}
    (h : filterBands c requested = .ok out) (h' : filterBands out wanted = .ok out') :
    filterBands c wanted = .ok out' := by
  obtain ⟨hpresent, hget, hout⟩ := filterBands_eq_ok h
  obtain ⟨hpresent', hget', hout'⟩ := filterBands_eq_ok h'
  have hsub : ∀ b ∈ wanted, b ∈ requested := by
    intro b hb
    rw [← mem_keys_filterBands h, BTreeMap.mem_keys_iff_get, ← BTreeMap.containsKey_iff]
    exact hpresent' b hb
  have hkeys : ∀ b ∈ wanted, b ∈ c.bands.keys := by
    intro b hb
    exact filterBands_isOk_iff.mp ⟨out, h⟩ b (hsub b hb)
  obtain ⟨direct, hdirect⟩ := filterBands_isOk_iff.mpr hkeys
  obtain ⟨-, hgetd, hd⟩ := filterBands_eq_ok hdirect
  have hbands : direct.bands = out'.bands := by
    apply BTreeMap.ext_get
    intro b
    rw [hgetd, hget', hget]
    by_cases hb : b ∈ wanted
    · simp [hb, hsub b hb]
    · simp [hb]
  rw [hdirect, hd, hout', hout, hbands]

/-- The lists beside the bands are right when no band is requested twice. -/
theorem restriction_exact_iff {v : Envelope} (h : evalFilterBands args = .ok v) :
    ∃ c out, ArgCube args "data" c ∧ v = .cube out ∧
      (RestrictsTo args c out (requestedBands args) ↔ (requestedBands args).Nodup) := by
  obtain ⟨hbands, hnonempty, c, out, hc, hout, rfl⟩ := evalFilterBands_ok_iff.mp h
  refine ⟨c, out, hc, rfl, ?_⟩
  obtain ⟨-, hget, hfields⟩ := filterBands_eq_ok hout
  have hnames : out.layerNames = some (requestedBands args) := by
    rw [hfields]
  have hlayers : out.layers = some (requestedBands args).length := by
    rw [hfields]
  constructor
  · intro hexact
    obtain ⟨names, hlisted, hperm⟩ := hexact.names
    rw [hnames] at hlisted
    cases hlisted
    exact hperm.nodup_iff.mpr out.bands.keys_nodup
  · intro hnd
    have hperm : (requestedBands args).Perm out.bands.keys :=
      (List.perm_ext_iff_of_nodup hnd out.bands.keys_nodup).mpr
        (fun b => (mem_keys_filterBands hout).symm)
    refine ⟨hget, fun b => mem_keys_filterBands hout, ⟨_, hnames, hperm⟩, ?_, ?_⟩
    · rw [hlayers, hperm.length_eq]
    · intro later v hdata hlater data hdirect
      obtain ⟨hbands', hnonempty', c', out', ⟨v', hv', hc'⟩, hout', rfl⟩ :=
        evalFilterBands_ok_iff.mp hlater
      rw [hdata] at hv'
      cases hv'
      cases hc'
      obtain ⟨first, hfirst, hdecode⟩ := hc
      rw [hdirect] at hfirst
      cases hfirst
      have hreq : argArray (later.insert "data" data) "bands" = argArray later "bands" := by
        simp [argArray, BTreeMap.get_insert]
      have hsame : requestedBands (later.insert "data" data) = requestedBands later := by
        rw [requestedBands, hreq, requestedBands]
      refine evalFilterBands_ok_iff.mpr ⟨hreq ▸ hbands', hsame ▸ hnonempty', c, out',
        ⟨data, BTreeMap.get_insert_self _ _ _, hdecode⟩, ?_, rfl⟩
      rw [hsame]
      exact filterBands_filterBands hout hout'

end Restriction

/-- The arguments of a restriction. -/
def filterArgs (requested : List String) : Args :=
  (BTreeMap.empty.insert "data" (.cube redAndNir)).insert "bands" (labels requested)

theorem restriction_exact_iff_red : ∃ v, evalFilterBands (filterArgs ["B04"]) = .ok v ∧
    ∃ c out, ArgCube (filterArgs ["B04"]) "data" c ∧ v = .cube out ∧
      (RestrictsTo (filterArgs ["B04"]) c out (requestedBands (filterArgs ["B04"])) ↔
        (requestedBands (filterArgs ["B04"])).Nodup) :=
  ⟨_, rfl, restriction_exact_iff rfl⟩

/-- A band that is requested twice is listed and counted twice. -/
theorem repeated_band_counted_twice : ∃ out,
    evalFilterBands (filterArgs ["B04", "B04"]) = .ok (.cube out) ∧
      ¬ RestrictsTo (filterArgs ["B04", "B04"]) redAndNir out ["B04", "B04"] := by
  refine ⟨_, rfl, ?_⟩
  intro h
  have hcount : some 2 = some 1 := h.layers
  cases hcount

end OrbitOpenEO
