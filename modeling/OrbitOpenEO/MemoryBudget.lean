import OrbitOpenEO.Lib.ListUpdate
import OrbitOpenEO.Lib.Run
import Mathlib.Algebra.Group.Nat.Defs
import Mathlib.Data.List.Induction

/-!
# The memory budget

`MemoryBudget` counts the bytes in use in an atomic `used`.  `try_reserve` reads it, and tries
to exchange it for the sum until nobody comes in between; a `MemoryGuard` takes its bytes off
again when it is dropped.  Each read, each exchange and each drop is one step, and the steps of
different calls come in any order.

The sum saturates and the subtraction wraps.  The count is right as long as no exchange
saturates, and this can only happen if the cap is `usize::MAX`.
-/

namespace OrbitOpenEO

open Lib

/-- `usize::MAX`. -/
def usizeMax : Nat := 2 ^ 64 - 1

/-- `usize::saturating_add`. -/
def saturatingAdd (a b : Nat) : Nat := min (a + b) usizeMax

/-- What `fetch_sub` leaves in an `AtomicUsize`. -/
def wrappingSub (a b : Nat) : Nat := (a + 2 ^ 64 - b) % 2 ^ 64

theorem saturatingAdd_eq {a b : Nat} (h : a + b ≤ usizeMax) : saturatingAdd a b = a + b :=
  Nat.min_eq_left h

theorem wrappingSub_eq {a b : Nat} (hb : b ≤ a) (ha : a ≤ usizeMax) : wrappingSub a b = a - b := by
  unfold wrappingSub usizeMax at *
  omega

/-- `MemoryBudget`. -/
structure MemoryBudget where
  used : Nat
  cap : Nat
deriving DecidableEq

namespace MemoryBudget

/-- `MemoryBudget::new`. -/
def new (capBytes : Nat) : MemoryBudget := ⟨0, capBytes⟩

/-- `MemoryBudget::available`. -/
def available (b : MemoryBudget) : Nat := b.cap - b.used

end MemoryBudget

/-- Where a call of `try_reserve` stands. -/
inductive Reservation where
  /-- Called with a number of bytes. -/
  | started (bytes : Nat)
  /-- In the loop, with the value of `cur`. -/
  | trying (bytes cur : Nat)
  /-- `BudgetExhausted`. -/
  | refused (requested available : Nat)
  /-- A guard that is alive. -/
  | granted (bytes : Nat)
  /-- A guard that was dropped. -/
  | released (bytes : Nat)
deriving DecidableEq

namespace Reservation

/-- The bytes of a guard that is alive. -/
def held : Reservation → Nat
  | granted bytes => bytes
  | _ => 0

/-- The call has not returned. -/
def Pending (bytes : Nat) (r : Reservation) : Prop :=
  r = started bytes ∨ ∃ cur, r = trying bytes cur

end Reservation

/-- A budget with the calls made so far. -/
structure BudgetUse where
  budget : MemoryBudget
  calls : List Reservation
deriving DecidableEq

/-- A step: a new call, the load of a call, one of its exchanges, which may fail for no reason,
or the drop of its guard. -/
inductive BudgetStep where
  | call (bytes : Nat)
  | load (i : Nat)
  | compareExchange (i : Nat) (spurious : Bool)
  | drop (i : Nat)
deriving DecidableEq

namespace BudgetUse

/-- A new budget. -/
def new (cap : Nat) : BudgetUse := ⟨.new cap, []⟩

/-- The body of the loop up to the exchange, with an observed value of `used`. -/
def attempt (cap bytes cur : Nat) : Reservation :=
  if cap < saturatingAdd cur bytes then .refused bytes (cap - cur) else .trying bytes cur

/-- The state with another `used`, in which a call stands elsewhere. -/
def put (s : BudgetUse) (used i : Nat) (r : Reservation) : BudgetUse :=
  ⟨{ s.budget with used := used }, s.calls.set i r⟩

/-- One step. -/
def step (s : BudgetUse) : BudgetStep → Option BudgetUse
  | .call bytes =>
      if bytes ≤ usizeMax then some { s with calls := s.calls ++ [.started bytes] } else none
  | .load i =>
      match s.calls[i]? with
      | some (.started bytes) =>
          some (s.put s.budget.used i (attempt s.budget.cap bytes s.budget.used))
      | _ => none
  | .compareExchange i spurious =>
      match s.calls[i]? with
      | some (.trying bytes cur) =>
          if s.budget.used = cur ∧ spurious = false then
            some (s.put (saturatingAdd cur bytes) i (.granted bytes))
          else some (s.put s.budget.used i (attempt s.budget.cap bytes s.budget.used))
      | _ => none
  | .drop i =>
      match s.calls[i]? with
      | some (.granted bytes) =>
          some (s.put (wrappingSub s.budget.used bytes) i (.released bytes))
      | _ => none

/-- The bytes of the guards that are alive. -/
def live (s : BudgetUse) : Nat := (s.calls.map Reservation.held).sum

/-- `used` is the sum over the live guards and within the cap, and no drop takes off more. -/
structure Exact (s : BudgetUse) : Prop where
  used : s.budget.used = s.live
  used_le : s.budget.used ≤ s.budget.cap
  drops : ∀ i bytes : Nat, s.calls[i]? = some (.granted bytes) → bytes ≤ s.budget.used

/-- Every call that was refused had asked for too much at some moment before it returned. -/
def RefusedRightly (cap : Nat) (steps : List BudgetStep) (s : BudgetUse) : Prop :=
  ∀ i bytes available : Nat, s.calls[i]? = some (.refused bytes available) →
    ∃ before after t, ∃ r : Reservation, steps = before ++ after ∧ runAll step (new cap) before = some t ∧
      t.calls[i]? = some r ∧ r.Pending bytes ∧ cap < t.budget.used + bytes

/-- The accounts are right all along a list of steps. -/
def Accounted (cap : Nat) (steps : List BudgetStep) : Prop :=
  ∀ before after s, steps = before ++ after → runAll step (new cap) before = some s →
    s.Exact ∧ RefusedRightly cap before s

/-- An exchange that succeeds does not saturate. -/
def Unsaturated (s : BudgetUse) (a : BudgetStep) : Prop :=
  ∀ i bytes : Nat, a = .compareExchange i false →
    s.calls[i]? = some (.trying bytes s.budget.used) → s.budget.used + bytes ≤ usizeMax

section Steps

variable {s s' : BudgetUse} {a : BudgetStep} {used i bytes : Nat} {r r' : Reservation}

theorem live_put (used : Nat) (r' : Reservation) (h : s.calls[i]? = some r) :
    (s.put used i r').live + r.held = s.live + r'.held :=
  sum_map_set Reservation.held h

theorem held_le_live (h : s.calls[i]? = some r) : r.held ≤ s.live := by
  have hput := live_put 0 (.released 0) h
  have hheld : (Reservation.released 0).held = 0 := rfl
  omega

theorem held_attempt (cap bytes cur : Nat) : (attempt cap bytes cur).held = 0 := by
  unfold attempt
  split <;> rfl

theorem held_of_pending (h : r.Pending bytes) : r.held = 0 := by
  rcases h with rfl | ⟨cur, rfl⟩ <;> rfl

/-- What a step does: a call comes in, a call observes `used`, an exchange succeeds, or a guard
is dropped. -/
theorem step_cases (h : step s a = some s') :
    (∃ bytes, bytes ≤ usizeMax ∧ s' = { s with calls := s.calls ++ [.started bytes] }) ∨
      (∃ i bytes r, s.calls[i]? = some r ∧ r.Pending bytes ∧
        s' = s.put s.budget.used i (attempt s.budget.cap bytes s.budget.used)) ∨
      (∃ i bytes, a = .compareExchange i false ∧
        s.calls[i]? = some (.trying bytes s.budget.used) ∧
        s' = s.put (saturatingAdd s.budget.used bytes) i (.granted bytes)) ∨
      ∃ i bytes, s.calls[i]? = some (.granted bytes) ∧
        s' = s.put (wrappingSub s.budget.used bytes) i (.released bytes) := by
  cases a with
  | call bytes =>
      unfold step at h
      dsimp only at h
      split_ifs at h with hle
      cases h
      exact .inl ⟨bytes, hle, rfl⟩
  | load i =>
      unfold step at h
      dsimp only at h
      split at h
      · next bytes hi =>
          cases h
          exact .inr (.inl ⟨i, bytes, _, hi, .inl rfl, rfl⟩)
      · cases h
  | compareExchange i spurious =>
      unfold step at h
      dsimp only at h
      split at h
      · next bytes cur hi =>
          split_ifs at h with hexchange
          · obtain ⟨rfl, rfl⟩ := hexchange
            cases h
            exact .inr (.inr (.inl ⟨i, bytes, rfl, hi, rfl⟩))
          · cases h
            exact .inr (.inl ⟨i, bytes, _, hi, .inr ⟨cur, rfl⟩, rfl⟩)
      · cases h
  | drop i =>
      unfold step at h
      dsimp only at h
      split at h
      · next bytes hi =>
          cases h
          exact .inr (.inr (.inr ⟨i, bytes, hi, rfl⟩))
      · cases h

@[simp] theorem put_used : (s.put used i r).budget.used = used := rfl

@[simp] theorem put_cap : (s.put used i r).budget.cap = s.budget.cap := rfl

theorem cap_step (h : step s a = some s') : s'.budget.cap = s.budget.cap := by
  rcases step_cases h with ⟨_, _, rfl⟩ | ⟨_, _, _, _, _, rfl⟩ | ⟨_, _, _, _, rfl⟩ | ⟨_, _, _, rfl⟩
  · rfl
  · exact put_cap
  · exact put_cap
  · exact put_cap

/-- A call that goes on to its exchange would stay within the cap. -/
def Tries (s : BudgetUse) : Prop :=
  ∀ bytes cur, .trying bytes cur ∈ s.calls → saturatingAdd cur bytes ≤ s.budget.cap

theorem tries_put (h : s.Tries) (hr : ∀ bytes cur, r = .trying bytes cur →
    saturatingAdd cur bytes ≤ s.budget.cap) : (s.put used i r).Tries := by
  intro bytes cur hmem
  rcases List.mem_or_eq_of_mem_set hmem with hmem | heq
  · exact h bytes cur hmem
  · exact hr bytes cur heq.symm

theorem tries_step (h : s.Tries) (hstep : step s a = some s') : s'.Tries := by
  rcases step_cases hstep with ⟨_, _, rfl⟩ | ⟨i, b, r, _, _, rfl⟩ | ⟨_, _, _, _, rfl⟩ | ⟨_, _, _, rfl⟩
  · intro bytes cur hmem
    rcases List.mem_append.mp hmem with hmem | hmem
    · exact h bytes cur hmem
    · cases List.mem_singleton.mp hmem
  · refine tries_put h fun bytes cur heq => ?_
    unfold attempt at heq
    split_ifs at heq with hcap
    cases heq
    exact Nat.not_lt.mp hcap
  · exact tries_put h nofun
  · exact tries_put h nofun

/-- The count is exact, within a cap that fits a `usize`. -/
structure Counted (s : BudgetUse) : Prop where
  cap_le : s.budget.cap ≤ usizeMax
  tries : s.Tries
  used : s.budget.used = s.live
  used_le : s.budget.used ≤ s.budget.cap

theorem Counted.exact (h : s.Counted) : s.Exact where
  used := h.used
  used_le := h.used_le
  drops _ _ hi := h.used ▸ held_le_live hi

/-- A step that does not saturate keeps the count exact. -/
theorem counted_step (h : s.Counted) (hsat : Unsaturated s a) (hstep : step s a = some s') :
    s'.Counted := by
  have hcap := h.cap_le
  have hused := h.used
  have hle := h.used_le
  have htries := h.tries
  have hcap' : s'.budget.cap ≤ usizeMax := cap_step hstep ▸ hcap
  have htries' := tries_step htries hstep
  rcases step_cases hstep with
    ⟨b, _, rfl⟩ | ⟨i, b, r, hi, hpending, rfl⟩ | ⟨i, b, rfl, hi, rfl⟩ | ⟨i, b, hi, rfl⟩
  · refine ⟨hcap', htries', ?_, hle⟩
    unfold live
    rw [List.map_append, List.sum_append]
    exact hused
  · have hlive := live_put s.budget.used (attempt s.budget.cap b s.budget.used) hi
    rw [held_of_pending hpending, held_attempt] at hlive
    exact ⟨hcap', htries', hused.trans hlive.symm, hle⟩
  · have hsum := saturatingAdd_eq (hsat i b rfl hi)
    have hlive := live_put (s.budget.used + b) (.granted b) hi
    have hfits := htries b s.budget.used (List.mem_of_getElem? hi)
    rw [hsum] at hcap' htries' hfits ⊢
    refine ⟨hcap', htries', ?_, hfits⟩
    rw [put_used, hused]
    exact hlive.symm
  · have hb : b ≤ s.budget.used := hused ▸ held_le_live hi
    have hsub := wrappingSub_eq hb (Nat.le_trans hle hcap)
    have hlive := live_put (s.budget.used - b) (.released b) hi
    have hheld : (Reservation.granted b).held = b := rfl
    have hheld' : (Reservation.released b).held = 0 := rfl
    rw [hsub] at hcap' htries' ⊢
    refine ⟨hcap', htries', ?_, Nat.le_trans (Nat.sub_le _ _) hle⟩
    rw [put_used]
    omega

/-- A call is refused by a step that finds too much in use. -/
theorem refused_step (hstep : step s a = some s') {available : Nat}
    (hi : s'.calls[i]? = some (.refused bytes available)) :
    s.calls[i]? = some (.refused bytes available) ∨
      ∃ r, s.calls[i]? = some r ∧ r.Pending bytes ∧ s.budget.cap < s.budget.used + bytes := by
  have hput : ∀ {j : Nat} {r₀ r₁ : Reservation} {u : Nat}, s.calls[j]? = some r₀ →
      (s.put u j r₁).calls[i]? = some (.refused bytes available) →
      s.calls[i]? = some (.refused bytes available) ∨
        (i = j ∧ r₁ = .refused bytes available) := by
    intro j r₀ r₁ u hj hmem
    have hlt := (List.getElem?_eq_some_iff.mp hj).1
    change (s.calls.set j r₁)[i]? = _ at hmem
    by_cases hij : j = i
    · subst hij
      rw [List.getElem?_set_self hlt] at hmem
      exact .inr ⟨rfl, Option.some.inj hmem⟩
    · rw [List.getElem?_set_ne hij] at hmem
      exact .inl hmem
  rcases step_cases hstep with
    ⟨b, _, rfl⟩ | ⟨j, b, r, hj, hpending, rfl⟩ | ⟨j, b, _, hj, rfl⟩ | ⟨j, b, hj, rfl⟩
  · change (s.calls ++ [.started b])[i]? = _ at hi
    by_cases hlt : i < s.calls.length
    · rw [List.getElem?_append_left hlt] at hi
      exact .inl hi
    · rw [List.getElem?_append_right (Nat.le_of_not_lt hlt)] at hi
      cases List.mem_singleton.mp (List.mem_of_getElem? hi)
  · rcases hput hj hi with hold | ⟨rfl, hrefused⟩
    · exact .inl hold
    · unfold attempt at hrefused
      split_ifs at hrefused with hcap
      cases hrefused
      exact .inr ⟨r, hj, hpending, Nat.lt_of_lt_of_le hcap (Nat.min_le_left _ _)⟩
  · exact .inl ((hput hj hi).resolve_right fun h => nomatch h.2)
  · exact .inl ((hput hj hi).resolve_right fun h => nomatch h.2)

end Steps

section Runs

variable {cap : Nat}

theorem cap_runAll {steps : List BudgetStep} {s : BudgetUse}
    (h : runAll step (new cap) steps = some s) : s.budget.cap = cap := by
  have hreach : Reach step AnyStep (new cap) s :=
    reach_of_runAll .refl (allowed_anyStep steps _) h
  exact hreach.invariant (I := fun s => s.budget.cap = cap) rfl
    fun t a u ht _ hu => (cap_step hu).trans ht

/-- Whoever is refused is refused rightly. -/
theorem refusedRightly_runAll (steps : List BudgetStep) {s : BudgetUse}
    (h : runAll step (new cap) steps = some s) : RefusedRightly cap steps s := by
  induction steps using List.reverseRecOn generalizing s with
  | nil =>
      cases h
      intro i bytes available hi
      cases hi
  | append_singleton steps a ih =>
      obtain ⟨t, ht, hstep⟩ := runAll_concat h
      intro i bytes available hi
      rcases refused_step hstep hi with hold | ⟨r, hr, hpending, hcap⟩
      · obtain ⟨before, after, t', r, rfl, hrun, hr, hpending, hcap⟩ :=
          ih ht i bytes available hold
        exact ⟨before, after ++ [a], t', r, List.append_assoc _ _ _, hrun, hr, hpending, hcap⟩
      · rw [cap_runAll ht] at hcap
        exact ⟨steps, [a], t, r, rfl, ht, hr, hpending, hcap⟩

theorem counted_new (hcap : cap ≤ usizeMax) : (new cap).Counted where
  cap_le := hcap
  tries _ _ h := absurd h List.not_mem_nil
  used := rfl
  used_le := Nat.zero_le cap

/-- Along a list of steps that do not saturate the count stays exact. -/
theorem counted_runAll (hcap : cap ≤ usizeMax) {steps : List BudgetStep} {s : BudgetUse}
    (hsteps : Allowed step Unsaturated (new cap) steps)
    (h : runAll step (new cap) steps = some s) : s.Counted :=
  (reach_of_runAll .refl hsteps h).invariant (counted_new hcap) fun _ _ _ => counted_step

/-- An exchange that saturates makes the count less than the sum. -/
theorem not_exact_of_saturated {s : BudgetUse} {i bytes : Nat}
    (hi : s.calls[i]? = some (.trying bytes s.budget.used)) (hs : s.Exact)
    (hsat : usizeMax < s.budget.used + bytes) :
    ∃ s', step s (.compareExchange i false) = some s' ∧ ¬ s'.Exact := by
  refine ⟨s.put (saturatingAdd s.budget.used bytes) i (.granted bytes), ?_, fun h => ?_⟩
  · unfold step
    dsimp only
    rw [hi]
    exact if_pos ⟨rfl, rfl⟩
  · have hlive := live_put (saturatingAdd s.budget.used bytes) (.granted bytes) hi
    have hused := h.used
    have hmin : saturatingAdd s.budget.used bytes ≤ usizeMax := Nat.min_le_right _ _
    have hheld : (Reservation.trying bytes s.budget.used).held = 0 := rfl
    have hheld' : (Reservation.granted bytes).held = bytes := rfl
    have hold := hs.used
    rw [put_used] at hused
    omega

/-- The accounts are right all along a list of steps exactly if no exchange saturates. -/
theorem accounted_iff (hcap : cap ≤ usizeMax) (steps : List BudgetStep) :
    Accounted cap steps ↔ Allowed step Unsaturated (new cap) steps := by
  constructor
  · intro h
    refine allowed_iff.mpr fun before a after t heq ht i bytes ha hi => ?_
    by_contra hsat
    subst ha
    obtain ⟨s', hstep, hexact⟩ := not_exact_of_saturated hi (h before _ t heq ht).1
      (Nat.lt_of_not_le hsat)
    have hrun : runAll step (new cap) (before ++ [.compareExchange i false]) = some s' := by
      rw [runAll_append, ht]
      exact runAll_singleton hstep
    exact hexact (h (before ++ [.compareExchange i false]) after s' (by simp [heq]) hrun).1
  · intro h before after s heq hs
    refine ⟨(counted_runAll hcap (allowed_iff.mpr ?_) hs).exact, refusedRightly_runAll before hs⟩
    intro before' a after' t heq' ht
    exact allowed_iff.mp h before' a (after' ++ after) t (by simp [heq, heq']) ht

/-- Below `usize::MAX` no exchange saturates. -/
theorem allowed_of_lt (hcap : cap < usizeMax) (steps : List BudgetStep) :
    Allowed step Unsaturated (new cap) steps := by
  refine allowed_iff.mpr fun before a after t heq ht i bytes ha hi => ?_
  have htries : t.Tries :=
    (reach_of_runAll (G := AnyStep) .refl (allowed_anyStep before _) ht).invariant
      (fun _ _ h => absurd h List.not_mem_nil) fun _ _ _ hu _ hstep => tries_step hu hstep
  have hfits := htries bytes t.budget.used (List.mem_of_getElem? hi)
  rw [cap_runAll ht] at hfits
  unfold saturatingAdd at hfits
  omega

end Runs

/-- For every cap the accounts are right all along a list of steps exactly if none of its
exchanges saturates; below `usize::MAX` they always are. -/
theorem accounted_exactly {cap : Nat} (hcap : cap ≤ usizeMax) :
    (∀ steps, Accounted cap steps ↔ Allowed step Unsaturated (new cap) steps) ∧
      (cap < usizeMax → ∀ steps, Accounted cap steps) :=
  ⟨accounted_iff hcap, fun hlt steps => (accounted_iff hcap steps).mpr (allowed_of_lt hlt steps)⟩

/-- One byte and `usize::MAX` bytes, both reserved. -/
def overfull : List BudgetStep :=
  [.call 1, .load 0, .compareExchange 0 false, .call usizeMax, .load 1, .compareExchange 1 false]

theorem accounted_exactly_half :
    Accounted 1000 [.call 400, .load 0, .compareExchange 0 true, .compareExchange 0 false] :=
  (accounted_exactly (show 1000 ≤ usizeMax by decide)).2 (by decide) _

theorem runAll_overfull :
    runAll step (new usizeMax) overfull =
      some ⟨⟨usizeMax, usizeMax⟩, [.granted 1, .granted usizeMax]⟩ := by
  decide +kernel

/-- With a cap of `usize::MAX` both guards are alive and `used` is one less than their sum; when
both are dropped it wraps. -/
theorem overfull_wraps :
    ¬ Accounted usizeMax overfull ∧
      (runAll step (new usizeMax) (overfull ++ [.drop 0, .drop 1])).map (fun s => s.budget.used) =
        some usizeMax := by
  refine ⟨fun h => ?_, by decide⟩
  have hused := (h overfull [] _ rfl runAll_overfull).1.used
  exact absurd hused (by decide)

end BudgetUse
end OrbitOpenEO
