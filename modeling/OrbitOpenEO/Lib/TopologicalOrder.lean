import Mathlib.Data.List.Nodup
import Mathlib.Data.List.Perm.Basic
import Mathlib.Logic.Relation
import Mathlib.Order.WellFounded
import Mathlib.Data.Finset.Card
import Mathlib.Data.Fintype.Order
import Mathlib.Tactic.Common

/-!
# Topological orders of finite relations

`IsTopologicalOrder V E o` says that the list `o` enumerates the vertices `V`
and that every vertex comes after all its `E`-predecessors.  Predecessors are
read off at each split `o = pre ++ b :: post`: they lie in `pre`.  This is the
form a left-to-right loop over `o` can use directly.

The second half is an executable sorter, `sourceOrder`, which repeatedly takes
out a vertex with no remaining predecessor.  It succeeds exactly on acyclic
relations (`sourceOrder_isSome_iff`) and then returns a topological order
(`sourceOrder_sound`).
-/

namespace OrbitOpenEO
namespace Lib

open Relation

variable {α : Type}

/-- Every element of the list comes after all its predecessors. -/
def PredecessorsFirst (E : α → α → Prop) (o : List α) : Prop :=
  ∀ pre b post, o = pre ++ b :: post → ∀ a, E a b → a ∈ pre

/-- A listing of `V` in which predecessors come first. -/
structure IsTopologicalOrder
    (V : List α) (E : α → α → Prop) (o : List α) : Prop where
  perm : o.Perm V
  first : PredecessorsFirst E o

/-- The relation has no cycle, self-loops included. -/
def Acyclic (E : α → α → Prop) : Prop :=
  ∀ a, ¬ TransGen E a a

/-- What a vertex leads to shrinks along the edges of an acyclic relation. -/
theorem exists_height_of_acyclic {E : α → α → Prop} (hac : Acyclic E) (V : List α) :
    ∃ height : α → Nat, (∀ a, height a ≤ V.length) ∧
      ∀ a b, E a b → b ∈ V → height b < height a := by
  classical
  refine ⟨fun a => (V.toFinset.filter (TransGen E a)).card, fun a => ?_, fun a b hab hb => ?_⟩
  · exact (Finset.card_filter_le _ _).trans V.toFinset_card_le
  · refine Finset.card_lt_card ⟨fun c hc => ?_, fun hsub => ?_⟩
    · rw [Finset.mem_filter] at hc ⊢
      exact ⟨hc.1, .head hab hc.2⟩
    · have hmem : b ∈ V.toFinset.filter (TransGen E a) :=
        Finset.mem_filter.mpr ⟨List.mem_toFinset.mpr hb, .single hab⟩
      exact hac b (Finset.mem_filter.mp (hsub hmem)).2

namespace PredecessorsFirst

variable {E : α → α → Prop} {o : List α}

/-- Transitive predecessors come first as well. -/
theorem mem_pre_of_transGen
    (h : PredecessorsFirst E o)
    {a b : α} (hab : TransGen E a b)
    {pre post : List α} (ho : o = pre ++ b :: post) :
    a ∈ pre := by
  induction hab using TransGen.head_induction_on with
  | single hab =>
      exact h pre b post ho _ hab
  | @head _ c hac _ ih =>
      obtain ⟨l₁, l₂, rfl⟩ := List.append_of_mem ih
      have hsplit : o = l₁ ++ c :: (l₂ ++ b :: post) := by
        rw [ho]
        simp
      exact List.mem_append_left _ (h _ _ _ hsplit _ hac)

/-- A vertex that every other vertex leads to stands last. -/
theorem getLast?_eq_of_forall_transGen
    (h : PredecessorsFirst E o) (hnd : o.Nodup)
    {r : α} (hr : r ∈ o)
    (hall : ∀ a ∈ o, a = r ∨ TransGen E a r) :
    o.getLast? = some r := by
  obtain ⟨pre, post, rfl⟩ := List.append_of_mem hr
  cases post with
  | nil =>
      simp
  | cons x post =>
      -- `x` stands after `r`, so it can neither be `r` nor lead to `r`
      exfalso
      have hx : x ∈ pre ++ r :: x :: post := by simp
      rw [List.nodup_middle, List.nodup_cons] at hnd
      rcases hall x hx with rfl | hxr
      · exact hnd.1 (by simp)
      · have hmem := h.mem_pre_of_transGen hxr rfl
        have hdisj := (List.nodup_append.mp hnd.2).2.2
        exact hdisj x hmem x (by simp) rfl

end PredecessorsFirst

section SourceOrder

variable [DecidableEq α] (E : α → α → Bool)

/-- `v` has no predecessor among the vertices still to be placed. -/
def isSource (rest : List α) (v : α) : Bool :=
  rest.all (fun u => !E u v)

/-- Place sources one after the other; `none` when no source is left. -/
def sourceOrderFrom : Nat → List α → Option (List α)
  | 0, _ => some []
  | n + 1, rest =>
      match rest.find? (isSource E rest) with
      | none => none
      | some v => (sourceOrderFrom n (rest.erase v)).map (v :: ·)

/-- A topological order of `V`, when there is one. -/
def sourceOrder (V : List α) : Option (List α) :=
  sourceOrderFrom E V.length V

theorem sourceOrderFrom_sound :
    ∀ (n : Nat) (rest o : List α),
      rest.length = n → sourceOrderFrom E n rest = some o →
        o.Perm rest ∧
          ∀ pre b post, o = pre ++ b :: post → ∀ a ∈ rest, E a b = true → a ∈ pre
  | 0, rest, o, hlen, h => by
      have hrest : rest = [] := List.length_eq_zero_iff.mp hlen
      subst hrest
      simp only [sourceOrderFrom, Option.some.injEq] at h
      subst h
      simp
  | n + 1, rest, o, hlen, h => by
      unfold sourceOrderFrom at h
      split at h
      · cases h
      · rename_i v hv
        obtain ⟨o', ho', rfl⟩ := Option.map_eq_some_iff.mp h
        have hmem : v ∈ rest := List.mem_of_find?_eq_some hv
        have hlen' : (rest.erase v).length = n := by
          rw [List.length_erase_of_mem hmem, hlen]
          rfl
        obtain ⟨hperm, hfirst⟩ := sourceOrderFrom_sound n _ o' hlen' ho'
        refine ⟨(hperm.cons v).trans (List.perm_cons_erase hmem).symm, ?_⟩
        intro pre b post hsplit a ha hab
        cases pre with
        | nil =>
            -- `b` is the source itself, which has no predecessor in `rest`
            simp only [List.nil_append, List.cons.injEq] at hsplit
            have hsrc := List.find?_some hv
            rw [isSource, List.all_eq_true] at hsrc
            have := hsrc a ha
            rw [hsplit.1, hab] at this
            simp at this
        | cons w pre =>
            simp only [List.cons_append, List.cons.injEq] at hsplit
            by_cases hav : a = v
            · simp [hav, hsplit.1]
            · have ha' : a ∈ rest.erase v := (List.mem_erase_of_ne hav).mpr ha
              exact List.mem_cons_of_mem _ (hfirst pre b post hsplit.2 a ha' hab)

/-- An acyclic relation has a source in every nonempty vertex list. -/
theorem exists_source_of_acyclic
    (hac : Acyclic (fun a b => E a b = true))
    {rest : List α} (hne : rest ≠ []) :
    ∃ v ∈ rest, isSource E rest v = true := by
  classical
  let R : {x // x ∈ rest} → {x // x ∈ rest} → Prop :=
    TransGen (fun a b => E a.1 b.1 = true)
  have hirr : ∀ a, ¬ R a a := by
    intro a h
    exact hac a.1 (TransGen.lift Subtype.val (fun _ _ hE => hE) _ _ h)
  have : IsTrans {x // x ∈ rest} R := ⟨fun _ _ _ => TransGen.trans⟩
  have : Std.Irrefl R := ⟨hirr⟩
  have hwf : WellFounded R := Finite.wellFounded_of_trans_of_irrefl R
  obtain ⟨x, hx⟩ := List.exists_mem_of_ne_nil rest hne
  obtain ⟨m, -, hm⟩ := hwf.has_min Set.univ ⟨⟨x, hx⟩, trivial⟩
  refine ⟨m.1, m.2, ?_⟩
  rw [isSource, List.all_eq_true]
  intro u hu
  have := hm ⟨u, hu⟩ trivial
  by_contra hE
  exact this (TransGen.single (by simpa using hE))

theorem sourceOrderFrom_isSome_of_acyclic
    (hac : Acyclic (fun a b => E a b = true)) :
    ∀ (n : Nat) (rest : List α),
      rest.length = n → (sourceOrderFrom E n rest).isSome
  | 0, _, _ => rfl
  | n + 1, rest, hlen => by
      have hne : rest ≠ [] := by
        rintro rfl
        simp at hlen
      obtain ⟨w, hw, hsrc⟩ := exists_source_of_acyclic E hac hne
      unfold sourceOrderFrom
      cases hf : rest.find? (isSource E rest) with
      | none =>
          exact absurd hsrc (List.find?_eq_none.mp hf w hw)
      | some v =>
          have hmem : v ∈ rest := List.mem_of_find?_eq_some hf
          have hlen' : (rest.erase v).length = n := by
            rw [List.length_erase_of_mem hmem, hlen]
            rfl
          simpa using sourceOrderFrom_isSome_of_acyclic hac n _ hlen'

/-- What `sourceOrder` returns is a topological order. -/
theorem sourceOrder_sound
    {V o : List α} (hV : ∀ a b, E a b = true → a ∈ V)
    (h : sourceOrder E V = some o) :
    IsTopologicalOrder V (fun a b => E a b = true) o := by
  obtain ⟨hperm, hfirst⟩ := sourceOrderFrom_sound E _ V o rfl h
  exact ⟨hperm, fun pre b post hsplit a hab => hfirst pre b post hsplit a (hV a b hab) hab⟩

omit [DecidableEq α] in
/-- A relation with a topological order of all its vertices has no cycle. -/
theorem IsTopologicalOrder.acyclic
    {V o : List α} {R : α → α → Prop}
    (h : IsTopologicalOrder V R o) (hnd : V.Nodup)
    (hV : ∀ a b, R a b → b ∈ V) :
    Acyclic R := by
  intro a hcyc
  have ha : a ∈ V := by
    obtain ⟨b, -, hb⟩ := TransGen.tail'_iff.mp hcyc
    exact hV b a hb
  obtain ⟨pre, post, ho⟩ := List.append_of_mem (h.perm.mem_iff.mpr ha)
  have hmem := h.first.mem_pre_of_transGen hcyc ho
  have hnd' : o.Nodup := h.perm.nodup_iff.mpr hnd
  rw [ho, List.nodup_middle, List.nodup_cons] at hnd'
  exact hnd'.1 (List.mem_append_left _ hmem)

/-- The sorter fails exactly on cyclic relations. -/
theorem sourceOrder_isSome_iff
    {V : List α} (hnd : V.Nodup)
    (hV : ∀ a b, E a b = true → a ∈ V ∧ b ∈ V) :
    (sourceOrder E V).isSome ↔ Acyclic (fun a b => E a b = true) := by
  constructor
  · intro h
    obtain ⟨o, ho⟩ := Option.isSome_iff_exists.mp h
    have hsound := sourceOrder_sound E (fun a b hab => (hV a b hab).1) ho
    exact hsound.acyclic hnd (fun a b hab => (hV a b hab).2)
  · intro hac
    exact sourceOrderFrom_isSome_of_acyclic E hac _ V rfl

end SourceOrder

end Lib
end OrbitOpenEO
