import OrbitOpenEO.MaskOps
import OrbitOpenEO.Lib.NumberedNames

/-!
# The files a loop over scenes writes

An operation writes the scene `t` of a band to a file whose name ends in `t`.
The names of different scenes are different, so no round of such a loop touches
the file of another, and what a file holds at the end is what its own round
computed.
-/

namespace OrbitOpenEO

open Lib

/-- The marks that stand before the scene number. -/
def sceneSuffixes : List String := ["_t", "_mask_t", "_masked_t", "_from_values_t"]

/-- A file of the scratch directory ends with its name. -/
theorem scratch_eq_append (dir : PathBuf) (name : String) :
    ∃ front, scratch dir name = front ++ name := by
  unfold scratch
  split
  · exact ⟨"", by simp⟩
  · exact ⟨dir ++ "/", rfl⟩

/-- A name whose first part is not empty and does not begin with a separator is relative. -/
theorem scratch_of_head {dir : PathBuf} {front : String} {c : Char}
    (hfront : front.toList.head? = some c) (hc : c ≠ '/') (rest : String) :
    scratch dir (front ++ rest) = dir ++ "/" ++ (front ++ rest) := by
  refine if_neg ?_
  rw [String.toList_append, List.head?_append, hfront]
  simpa using hc

/-- The name of a scene file shows what stands before its scene, and its scene. -/
theorem numbered_scenePath_inj {front₁ front₂ stem₁ stem₂ suffix₁ suffix₂ : String} {t₁ t₂ : Nat}
    (h₁ : suffix₁ ∈ sceneSuffixes) (h₂ : suffix₂ ∈ sceneSuffixes)
    (h : front₁ ++ (stem₁ ++ suffix₁ ++ toString t₁ ++ ".tif") =
      front₂ ++ (stem₂ ++ suffix₂ ++ toString t₂ ++ ".tif")) :
    front₁ ++ (stem₁ ++ suffix₁) = front₂ ++ (stem₂ ++ suffix₂) ∧ t₁ = t₂ := by
  have hsplit : ∀ suffix ∈ sceneSuffixes, ∃ front, suffix = front ++ String.singleton 't' := by
    intro suffix hs
    simp only [sceneSuffixes, List.mem_cons, List.not_mem_nil, or_false] at hs
    rcases hs with rfl | rfl | rfl | rfl
    · exact ⟨"_", rfl⟩
    · exact ⟨"_mask_", rfl⟩
    · exact ⟨"_masked_", rfl⟩
    · exact ⟨"_from_values_", rfl⟩
  obtain ⟨mark₁, rfl⟩ := hsplit _ h₁
  obtain ⟨mark₂, rfl⟩ := hsplit _ h₂
  have hname : front₁ ++ stem₁ ++ mark₁ ++ String.singleton 't' ++ toString t₁ ++ ".tif" =
      front₂ ++ stem₂ ++ mark₂ ++ String.singleton 't' ++ toString t₂ ++ ".tif" := by
    simpa only [String.append_assoc] using h
  obtain ⟨hstem, hscene⟩ := numbered_inj (by decide) hname
  refine ⟨?_, hscene⟩
  have hmarked := congrArg (fun s => s ++ String.singleton 't') hstem
  simpa only [String.append_assoc] using hmarked

/-- The name of a scene file shows its scene. -/
theorem scenePath_inj {dir : PathBuf} {stem₁ stem₂ suffix₁ suffix₂ : String} {t₁ t₂ : Nat}
    (h₁ : suffix₁ ∈ sceneSuffixes) (h₂ : suffix₂ ∈ sceneSuffixes)
    (h : scenePath dir stem₁ suffix₁ t₁ = scenePath dir stem₂ suffix₂ t₂) : t₁ = t₂ := by
  obtain ⟨front₁, hfront₁⟩ := scratch_eq_append dir (stem₁ ++ suffix₁ ++ toString t₁ ++ ".tif")
  obtain ⟨front₂, hfront₂⟩ := scratch_eq_append dir (stem₂ ++ suffix₂ ++ toString t₂ ++ ".tif")
  exact (numbered_scenePath_inj h₁ h₂ (hfront₁.symm.trans (Eq.trans h hfront₂))).2

theorem nodup_sceneFiles (dir : PathBuf) (stem : String) {suffix : String}
    (hs : suffix ∈ sceneSuffixes) (n : Nat) : (sceneFiles dir stem suffix n).Nodup := by
  refine List.Nodup.map_on ?_ List.nodup_range
  intro t₁ _ t₂ _ h
  exact scenePath_inj hs hs h

/-- A name with the number of a scene and a reading of the clock shows the scene. -/
theorem stamped_inj {front₁ front₂ : String} {t₁ t₂ n₁ n₂ : Nat}
    (h : front₁ ++ "_t" ++ toString t₁ ++ "_" ++ toString n₁ ++ ".tif" =
      front₂ ++ "_t" ++ toString t₂ ++ "_" ++ toString n₂ ++ ".tif") :
    front₁ = front₂ ∧ t₁ = t₂ := by
  have hclock : (front₁ ++ "_t" ++ toString t₁) ++ String.singleton '_' ++ toString n₁ ++ ".tif" =
      (front₂ ++ "_t" ++ toString t₂) ++ String.singleton '_' ++ toString n₂ ++ ".tif" := h
  obtain ⟨hstem, -⟩ := numbered_inj (by decide) hclock
  have hmark : "_t" = "_" ++ String.singleton 't' := rfl
  have hscene : (front₁ ++ "_") ++ String.singleton 't' ++ toString t₁ ++ "" =
      (front₂ ++ "_") ++ String.singleton 't' ++ toString t₂ ++ "" := by
    rw [hmark, ← String.append_assoc, ← String.append_assoc] at hstem
    rw [hstem]
  obtain ⟨hfront, ht⟩ := numbered_inj (by decide) hscene
  exact ⟨(String.append_left_inj "_").mp hfront, ht⟩

/-- Code that returns has written one file, with a content that `Holds` of the
state before. -/
def WritesFile {β : Type} (out : PathBuf) (Holds : World → Raster → Prop) (x : Eval β) : Prop :=
  ∀ w y w', x w = .ok y w' → ∃ r, w'.files = Function.update w.files out (some r) ∧ Holds w r

section Loop

variable {α β : Type} {f : α → Eval β} {out : α → PathBuf} {Holds : α → World → Raster → Prop}

/-- A loop leaves the files alone that none of its rounds writes. -/
theorem mapEach_files_of_ne {xs : List α} (hf : ∀ x ∈ xs, WritesFile (out x) (Holds x) (f x))
    {w w' : World} {ys : List β} (h : mapEach f xs w = .ok ys w') {p : PathBuf}
    (hp : ∀ x ∈ xs, p ≠ out x) : w'.files p = w.files p := by
  induction xs generalizing w w' ys with
  | nil =>
      obtain ⟨_, rfl⟩ := act_pure_eq_ok_iff.mp h
      rfl
  | cons x xs ih =>
      rw [List.forall_mem_cons] at hf hp
      obtain ⟨y, w₁, hx, h⟩ := act_bind_eq_ok_iff.mp h
      obtain ⟨ys', w₂, hxs, h⟩ := act_bind_eq_ok_iff.mp h
      obtain ⟨_, rfl⟩ := act_pure_eq_ok_iff.mp h
      obtain ⟨r, hfiles, _⟩ := hf.1 w y w₁ hx
      rw [ih hf.2 hxs hp.2, hfiles, Function.update_of_ne hp.1]

/-- **What a loop leaves behind**: the file of round `i` holds what that round
computed, from a state in which only the files of earlier rounds have changed. -/
theorem mapEach_files {xs : List α} (hf : ∀ x ∈ xs, WritesFile (out x) (Holds x) (f x))
    (hnd : (xs.map out).Nodup) {w w' : World} {ys : List β} (h : mapEach f xs w = .ok ys w')
    {i : Nat} {x : α} (hi : xs[i]? = some x) :
    ∃ r wi, w'.files (out x) = some r ∧ Holds x wi r ∧
      ∀ p, (∀ z ∈ xs.take i, p ≠ out z) → wi.files p = w.files p := by
  induction xs generalizing w w' ys i with
  | nil =>
      simp at hi
  | cons z xs ih =>
      rw [List.forall_mem_cons] at hf
      rw [List.map_cons, List.nodup_cons] at hnd
      obtain ⟨y, w₁, hz, h⟩ := act_bind_eq_ok_iff.mp h
      obtain ⟨ys', w₂, hxs, h⟩ := act_bind_eq_ok_iff.mp h
      obtain ⟨_, rfl⟩ := act_pure_eq_ok_iff.mp h
      obtain ⟨r, hfiles, hholds⟩ := hf.1 w y w₁ hz
      cases i with
      | zero =>
          rw [List.getElem?_cons_zero, Option.some.injEq] at hi
          subst hi
          refine ⟨r, w, ?_, hholds, fun _ _ => rfl⟩
          have hlater : ∀ x ∈ xs, out z ≠ out x :=
            fun x hx heq => hnd.1 (heq ▸ List.mem_map_of_mem hx)
          rw [mapEach_files_of_ne hf.2 hxs hlater, hfiles, Function.update_self]
      | succ i =>
          rw [List.getElem?_cons_succ] at hi
          obtain ⟨r', wi, hr', hholds', hframe⟩ := ih hf.2 hnd.2 hxs hi
          refine ⟨r', wi, hr', hholds', ?_⟩
          intro p hp
          rw [List.take_succ_cons, List.forall_mem_cons] at hp
          rw [hframe p hp.2, hfiles, Function.update_of_ne hp.1]

/-- Where no two rounds can return one value, the values are different. -/
theorem nodup_of_forall₂ {Q : α → β → Prop} {xs : List α} {ys : List β}
    (h : List.Forall₂ Q xs ys) (hapart : xs.Pairwise fun x x' => ∀ y, Q x y → ¬ Q x' y) :
    ys.Nodup := by
  induction h with
  | nil =>
      exact List.nodup_nil
  | @cons x y xs ys hxy hrest ih =>
      obtain ⟨hx, hapart⟩ := List.pairwise_cons.mp hapart
      refine List.nodup_cons.mpr ⟨fun hmem => ?_, ih hapart⟩
      obtain ⟨x', hx', hx'y⟩ := forall₂_exists_left hrest hmem
      exact hx x' hx' y hxy hx'y

/-- What is in the files while round `i` runs: the rounds before have written theirs. -/
def filesAt (w w' : World) (ys : List PathBuf) (i : Nat) (p : PathBuf) : Option Raster :=
  if p ∈ ys.take i then w'.files p else w.files p

/-- **What a loop over returned files leaves behind**: the file that round `i` returns holds
what that round computed from the files at the time. -/
theorem mapEach_returned_files {f : α → Eval PathBuf} {Holds : α → World → Raster → Prop}
    {xs : List α}
    (hf : ∀ x ∈ xs, ∀ w y w', f x w = .ok y w' →
      ∃ r, w'.files = Function.update w.files y (some r) ∧ Holds x w r)
    {w w' : World} {ys : List PathBuf} (hnd : ys.Nodup) (h : mapEach f xs w = .ok ys w') :
    (∀ p ∉ ys, w'.files p = w.files p) ∧
      ∀ (i : Nat) (x : α) (y : PathBuf), xs[i]? = some x → ys[i]? = some y →
        ∃ r wi, w'.files y = some r ∧ Holds x wi r ∧ wi.files = filesAt w w' ys i := by
  induction xs generalizing w w' ys with
  | nil =>
      obtain ⟨rfl, rfl⟩ := act_pure_eq_ok_iff.mp h
      exact ⟨fun _ _ => rfl, fun i x y hx => by simp at hx⟩
  | cons z xs ih =>
      rw [List.forall_mem_cons] at hf
      obtain ⟨y₀, w₁, hz, h⟩ := act_bind_eq_ok_iff.mp h
      obtain ⟨ys', w₂, hxs, h⟩ := act_bind_eq_ok_iff.mp h
      obtain ⟨rfl, rfl⟩ := act_pure_eq_ok_iff.mp h
      obtain ⟨r₀, hfiles, hholds⟩ := hf.1 w y₀ w₁ hz
      obtain ⟨hy₀, hnd⟩ := List.nodup_cons.mp hnd
      obtain ⟨hframe, hrounds⟩ := ih hf.2 hnd hxs
      refine ⟨fun p hp => ?_, fun i x y hx hy => ?_⟩
      · obtain ⟨hne, hp⟩ := List.ne_and_not_mem_of_not_mem_cons hp
        rw [hframe p hp, hfiles, Function.update_of_ne hne]
      · cases i with
        | zero =>
            rw [List.getElem?_cons_zero, Option.some.injEq] at hx hy
            subst hx hy
            refine ⟨r₀, w, ?_, hholds, funext fun p => ?_⟩
            · rw [hframe _ hy₀, hfiles, Function.update_self]
            · rw [filesAt, List.take_zero, if_neg List.not_mem_nil]
        | succ i =>
            rw [List.getElem?_cons_succ] at hx hy
            obtain ⟨r, wi, hr, hholds', hwi⟩ := hrounds i x y hx hy
            refine ⟨r, wi, hr, hholds', funext fun p => ?_⟩
            rw [hwi, filesAt, filesAt, List.take_succ_cons]
            by_cases hp : p ∈ ys'.take i
            · rw [if_pos hp, if_pos (List.mem_cons_of_mem _ hp)]
            · rw [if_neg hp]
              by_cases heq : p = y₀
              · subst heq
                rw [if_pos List.mem_cons_self, hframe p hy₀]
              · rw [if_neg (List.not_mem_cons_of_ne_of_not_mem heq hp), hfiles,
                  Function.update_of_ne heq]

theorem lt_of_mem_take_zipIdx {xs : List α} {t : Nat} {z : α × Nat}
    (hz : z ∈ xs.zipIdx.take t) : z.2 < t := by
  obtain ⟨i, hi⟩ := List.mem_iff_getElem?.mp hz
  rw [List.getElem?_take] at hi
  split at hi
  · rename_i hlt
    rw [List.getElem?_zipIdx, Option.map_eq_some_iff] at hi
    obtain ⟨x, _, rfl⟩ := hi
    simpa using hlt
  · cases hi

/-- The loop over numbered scenes: the file of scene `t` holds what its round
computed, from a state in which only the files of earlier scenes have changed. -/
theorem sceneLoop_files {dir : PathBuf} {stem suffix : String} (hs : suffix ∈ sceneSuffixes)
    {f : α × Nat → Eval β} {Holds : α × Nat → World → Raster → Prop} {xs : List α}
    (hf : ∀ e ∈ xs.zipIdx, WritesFile (scenePath dir stem suffix e.2) (Holds e) (f e))
    {w w' : World} {ys : List β} (h : mapEach f xs.zipIdx w = .ok ys w') {t : Nat} {x : α}
    (hx : xs[t]? = some x) :
    ∃ r wt, w'.files (scenePath dir stem suffix t) = some r ∧ Holds (x, t) wt r ∧
      ∀ p, (∀ k < t, p ≠ scenePath dir stem suffix k) → wt.files p = w.files p := by
  have hnd : (xs.zipIdx.map (fun e => scenePath dir stem suffix e.2)).Nodup := by
    rw [map_zipIdx_snd xs (scenePath dir stem suffix)]
    exact nodup_sceneFiles dir stem hs xs.length
  have hi : xs.zipIdx[t]? = some (x, t) := by simp [List.getElem?_zipIdx, hx]
  obtain ⟨r, wt, hr, hholds, hframe⟩ := mapEach_files hf hnd h hi
  refine ⟨r, wt, hr, hholds, ?_⟩
  intro p hp
  exact hframe p fun z hz => hp z.2 (lt_of_mem_take_zipIdx hz)

end Loop

theorem reduction_writesFile (P : Platform) (sources : List PathBuf) (out : PathBuf)
    (fail : Stage → String → String) (compute : List Raster → Raster) :
    WritesFile out
      (fun w r => (∀ p ∈ sources, (w.files p).isSome = true) ∧
        r = compute (sources.filterMap w.files))
      (reduction P sources out fail compute) := by
  intro w y w' h
  unfold reduction at h
  split at h
  · cases h
  · rename_i hfind
    dsimp only at h
    split at h
    · cases h
    · cases h
    · cases h
      refine ⟨_, rfl, ?_, rfl⟩
      intro p hp
      have hp' := List.find?_eq_none.mp hfind p hp
      simpa [Option.isSome_iff_ne_none] using hp'

/-- A value returned after the write changes nothing. -/
theorem WritesFile.then_pure {β γ : Type} {out : PathBuf} {Holds : World → Raster → Prop}
    {x : Eval β} (hx : WritesFile out Holds x) (c : γ) :
    WritesFile out Holds (x >>= fun _ => pure c) := by
  intro w y w' h
  obtain ⟨b, w₁, hb, h⟩ := act_bind_eq_ok_iff.mp h
  obtain ⟨_, rfl⟩ := act_pure_eq_ok_iff.mp h
  exact hx w b w₁ hb

end OrbitOpenEO
