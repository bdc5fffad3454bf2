import Mathlib.Order.Bounds.Basic
import Mathlib.Order.Max
import Mathlib.Order.MinMax
import Mathlib.Tactic.Common

/-!
# Boxes around points

A box around points of the plane is given by its four sides.  The smallest one has its sides
at the outermost points (`Outermost.isSmallest`), and folds over the coordinates compute it
(`envelope_outermost`).
-/

namespace OrbitOpenEO
namespace Lib

variable {α : Type} [LinearOrder α]

/-- A box with sides parallel to the axes. -/
@[ext] structure Box (α : Type) where
  minX : α
  minY : α
  maxX : α
  maxY : α

namespace Box

/-- The point lies in the box. -/
def Contains (b : Box α) (p : α × α) : Prop :=
  (b.minX ≤ p.1 ∧ p.1 ≤ b.maxX) ∧ b.minY ≤ p.2 ∧ p.2 ≤ b.maxY

/-- The box lies in the other one. -/
def Within (b c : Box α) : Prop :=
  (c.minX ≤ b.minX ∧ b.maxX ≤ c.maxX) ∧ c.minY ≤ b.minY ∧ b.maxY ≤ c.maxY

/-- The smallest box that contains the points. -/
structure IsSmallest (b : Box α) (ps : List (α × α)) : Prop where
  contains : ∀ p ∈ ps, b.Contains p
  within : ∀ c : Box α, (∀ p ∈ ps, c.Contains p) → b.Within c

/-- Without points there is no smallest box. -/
theorem not_isSmallest_nil [NoMaxOrder α] (b : Box α) : ¬ b.IsSmallest [] := by
  intro h
  obtain ⟨x, hx⟩ := exists_gt b.minX
  have hwithin := h.within ⟨x, b.minY, b.maxX, b.maxY⟩ fun _ hp => absurd hp List.not_mem_nil
  exact absurd hwithin.1.1 (not_le_of_gt hx)

theorem IsSmallest.unique {b c : Box α} {ps : List (α × α)} (hb : b.IsSmallest ps)
    (hc : c.IsSmallest ps) : b = c := by
  have hbc := hb.within c hc.contains
  have hcb := hc.within b hb.contains
  exact Box.ext (le_antisymm hcb.1.1 hbc.1.1) (le_antisymm hcb.2.1 hbc.2.1)
    (le_antisymm hbc.1.2 hcb.1.2) (le_antisymm hbc.2.2 hcb.2.2)

end Box

/-- The fold finds the least element. -/
theorem isLeast_foldl_min (a : α) (l : List α) :
    IsLeast {x | x ∈ a :: l} (l.foldl min a) := by
  induction l generalizing a with
  | nil =>
      simp [IsLeast, lowerBounds]
  | cons b l ih =>
      obtain ⟨hmem, hle⟩ := ih (min a b)
      refine ⟨?_, ?_⟩
      · rcases List.mem_cons.mp hmem with h | h
        · rcases min_choice a b with hmin | hmin
          · exact List.mem_cons.mpr (.inl (h.trans hmin))
          · exact List.mem_cons_of_mem a (List.mem_cons.mpr (.inl (h.trans hmin)))
        · exact List.mem_cons_of_mem a (List.mem_cons_of_mem b h)
      · intro x hx
        have hfirst : (b :: l).foldl min a ≤ min a b := hle List.mem_cons_self
        rcases List.mem_cons.mp hx with rfl | hx
        · exact hfirst.trans (min_le_left _ _)
        · rcases List.mem_cons.mp hx with rfl | hx
          · exact hfirst.trans (min_le_right _ _)
          · exact hle (List.mem_cons_of_mem _ hx)

/-- The fold finds the greatest element. -/
theorem isGreatest_foldl_max (a : α) (l : List α) :
    IsGreatest {x | x ∈ a :: l} (l.foldl max a) :=
  isLeast_foldl_min (α := αᵒᵈ) a l

/-- The box of the outermost points. -/
def envelope : List (α × α) → Option (Box α)
  | [] => none
  | p :: ps =>
      some ⟨(ps.map Prod.fst).foldl min p.1, (ps.map Prod.snd).foldl min p.2,
        (ps.map Prod.fst).foldl max p.1, (ps.map Prod.snd).foldl max p.2⟩

/-- Every side of the box is that of an outermost point. -/
structure Outermost (b : Box α) (ps : List (α × α)) : Prop where
  minX : IsLeast {x | x ∈ ps.map Prod.fst} b.minX
  minY : IsLeast {y | y ∈ ps.map Prod.snd} b.minY
  maxX : IsGreatest {x | x ∈ ps.map Prod.fst} b.maxX
  maxY : IsGreatest {y | y ∈ ps.map Prod.snd} b.maxY

theorem envelope_outermost {ps : List (α × α)} {b : Box α} (h : envelope ps = some b) :
    Outermost b ps := by
  cases ps with
  | nil =>
      cases h
  | cons p ps =>
      cases h
      exact ⟨isLeast_foldl_min _ _, isLeast_foldl_min _ _, isGreatest_foldl_max _ _,
        isGreatest_foldl_max _ _⟩

theorem Outermost.isSmallest {b : Box α} {ps : List (α × α)} (h : Outermost b ps) :
    b.IsSmallest ps where
  contains p hp :=
    ⟨⟨h.minX.2 (List.mem_map_of_mem hp), h.maxX.2 (List.mem_map_of_mem hp)⟩,
      h.minY.2 (List.mem_map_of_mem hp), h.maxY.2 (List.mem_map_of_mem hp)⟩
  within c hc := by
    obtain ⟨p, hp, hminX⟩ := List.mem_map.mp h.minX.1
    obtain ⟨q, hq, hmaxX⟩ := List.mem_map.mp h.maxX.1
    obtain ⟨r, hr, hminY⟩ := List.mem_map.mp h.minY.1
    obtain ⟨s, hs, hmaxY⟩ := List.mem_map.mp h.maxY.1
    exact ⟨⟨hminX ▸ (hc p hp).1.1, hmaxX ▸ (hc q hq).1.2⟩,
      hminY ▸ (hc r hr).2.1, hmaxY ▸ (hc s hs).2.2⟩

theorem envelope_isSmallest {ps : List (α × α)} {b : Box α} (h : envelope ps = some b) :
    b.IsSmallest ps :=
  (envelope_outermost h).isSmallest

theorem envelope_isSome {ps : List (α × α)} (h : ps ≠ []) : (envelope ps).isSome := by
  cases ps with
  | nil =>
      exact absurd rfl h
  | cons p ps =>
      rfl

/-- The points do not lie on a line parallel to an axis. -/
def Spread (ps : List (α × α)) : Prop :=
  (∃ p ∈ ps, ∃ q ∈ ps, p.1 < q.1) ∧ ∃ p ∈ ps, ∃ q ∈ ps, p.2 < q.2

theorem Outermost.spread_iff {b : Box α} {ps : List (α × α)} (h : Outermost b ps) :
    b.minX < b.maxX ∧ b.minY < b.maxY ↔ Spread ps := by
  constructor
  · rintro ⟨hx, hy⟩
    obtain ⟨p, hp, hminX⟩ := List.mem_map.mp h.minX.1
    obtain ⟨q, hq, hmaxX⟩ := List.mem_map.mp h.maxX.1
    obtain ⟨r, hr, hminY⟩ := List.mem_map.mp h.minY.1
    obtain ⟨s, hs, hmaxY⟩ := List.mem_map.mp h.maxY.1
    exact ⟨⟨p, hp, q, hq, hminX ▸ hmaxX ▸ hx⟩, r, hr, s, hs, hminY ▸ hmaxY ▸ hy⟩
  · rintro ⟨⟨p, hp, q, hq, hx⟩, r, hr, s, hs, hy⟩
    refine ⟨?_, ?_⟩
    · exact (h.minX.2 (List.mem_map_of_mem hp)).trans_lt
        (hx.trans_le (h.maxX.2 (List.mem_map_of_mem hq)))
    · exact (h.minY.2 (List.mem_map_of_mem hr)).trans_lt
        (hy.trans_le (h.maxY.2 (List.mem_map_of_mem hs)))

theorem Spread.mono {ps qs : List (α × α)} (h : Spread ps) (hsub : ps ⊆ qs) : Spread qs := by
  obtain ⟨⟨p, hp, q, hq, hx⟩, r, hr, s, hs, hy⟩ := h
  exact ⟨⟨p, hsub hp, q, hsub hq, hx⟩, r, hsub hr, s, hsub hs, hy⟩

/-- Some points lie on each side of the point, or level with it. -/
def Enclosed (ps : List (α × α)) (p : α × α) : Prop :=
  ((∃ q ∈ ps, q.1 ≤ p.1) ∧ ∃ q ∈ ps, p.1 ≤ q.1) ∧ (∃ q ∈ ps, q.2 ≤ p.2) ∧ ∃ q ∈ ps, p.2 ≤ q.2

/-- A box with all the points contains what they enclose. -/
theorem Enclosed.contains {ps : List (α × α)} {p : α × α} (h : Enclosed ps p) {c : Box α}
    (hc : ∀ q ∈ ps, c.Contains q) : c.Contains p := by
  obtain ⟨⟨⟨q, hq, hminX⟩, r, hr, hmaxX⟩, ⟨s, hs, hminY⟩, t, ht, hmaxY⟩ := h
  exact ⟨⟨(hc q hq).1.1.trans hminX, hmaxX.trans (hc r hr).1.2⟩,
    (hc s hs).2.1.trans hminY, hmaxY.trans (hc t ht).2.2⟩

/-- The outermost points enclose the box. -/
theorem Outermost.enclosed {b : Box α} {ps : List (α × α)} (h : Outermost b ps) {p : α × α}
    (hp : b.Contains p) : Enclosed ps p := by
  obtain ⟨⟨hminX', hmaxX'⟩, hminY', hmaxY'⟩ := hp
  obtain ⟨q, hq, hminX⟩ := List.mem_map.mp h.minX.1
  obtain ⟨r, hr, hmaxX⟩ := List.mem_map.mp h.maxX.1
  obtain ⟨s, hs, hminY⟩ := List.mem_map.mp h.minY.1
  obtain ⟨t, ht, hmaxY⟩ := List.mem_map.mp h.maxY.1
  exact ⟨⟨⟨q, hq, hminX.trans_le hminX'⟩, r, hr, hmaxX'.trans hmaxX.ge⟩,
    ⟨s, hs, hminY.trans_le hminY'⟩, t, ht, hmaxY'.trans hmaxY.ge⟩

theorem Outermost.of_isSmallest {b : Box α} {ps : List (α × α)} (h : b.IsSmallest ps)
    (hne : ps ≠ []) : Outermost b ps := by
  obtain ⟨c, hc⟩ := Option.isSome_iff_exists.mp (envelope_isSome hne)
  have hout := envelope_outermost hc
  rwa [h.unique hout.isSmallest]

/-- The smallest box around more points is that around some of them if these enclose all. -/
theorem isSmallest_iff_enclosed {b : Box α} {ps qs : List (α × α)} (hb : b.IsSmallest qs)
    (hne : ps ≠ []) (hsub : ps ⊆ qs) : b.IsSmallest ps ↔ ∀ q ∈ qs, Enclosed ps q := by
  constructor
  · intro hps q hq
    exact (Outermost.of_isSmallest hps hne).enclosed (hb.contains q hq)
  · intro h
    exact ⟨fun p hp => hb.contains p (hsub hp),
      fun c hc => hb.within c fun q hq => (h q hq).contains hc⟩

end Lib
end OrbitOpenEO
