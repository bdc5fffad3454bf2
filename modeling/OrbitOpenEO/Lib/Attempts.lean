import Mathlib.Tactic.Common

/-!
# Operations that are tried again

The outcomes of an operation form a stream: a success, a failure after which it is tried
again, or a failure that is final.  With a limit on the number of calls, the operation is
called up to the first outcome that is no reason to try again, or up to the limit.
-/

namespace OrbitOpenEO
namespace Lib

/-- The outcome of a call. -/
inductive Attempt (ε α : Type) where
  | success (a : α)
  | final (e : ε)
  | again (e : ε)

namespace Attempt

variable {ε α : Type}

/-- The result, if this is the last call. -/
def result : Attempt ε α → Except ε α
  | success a => .ok a
  | final e => .error e
  | again e => .error e

/-- A reason to try again. -/
def retries : Attempt ε α → Bool
  | again _ => true
  | _ => false

/-- How often the operation is called, at most `limit` times. -/
def calls : (Nat → Attempt ε α) → Nat → Nat
  | _, 0 => 0
  | outcomes, limit + 1 =>
      if (outcomes 0).retries then calls (fun i => outcomes (i + 1)) limit + 1 else 1

/-- The first outcome that is no reason to try again. -/
def FirstStop (outcomes : Nat → Attempt ε α) (k : Nat) : Prop :=
  (outcomes k).retries = false ∧ ∀ i < k, (outcomes i).retries = true

variable {outcomes : Nat → Attempt ε α}

/-- The operation is called up to the first outcome that stops it, or up to the limit. -/
theorem calls_eq_min {k : Nat} (h : FirstStop outcomes k) (limit : Nat) :
    calls outcomes limit = min (k + 1) limit := by
  induction limit generalizing outcomes k with
  | zero =>
      rfl
  | succ limit ih =>
      cases k with
      | zero =>
          rw [calls, if_neg (by simp [h.1])]
          omega
      | succ k =>
          have hnext : FirstStop (fun i => outcomes (i + 1)) k :=
            ⟨h.1, fun i hi => h.2 (i + 1) (Nat.succ_lt_succ hi)⟩
          rw [calls, if_pos (h.2 0 (Nat.succ_pos k)), ih hnext]
          omega

/-- Where nothing stops it, it is called up to the limit. -/
theorem calls_eq_limit (h : ∀ i, (outcomes i).retries = true) (limit : Nat) :
    calls outcomes limit = limit := by
  induction limit generalizing outcomes with
  | zero =>
      rfl
  | succ limit ih =>
      rw [calls, if_pos (h 0), ih fun i => h (i + 1)]

theorem calls_succ_of_retries {limit : Nat} (h : (outcomes 0).retries = true) :
    calls outcomes (limit + 1) = calls (fun i => outcomes (i + 1)) limit + 1 := by
  rw [calls, if_pos h]

theorem calls_succ_of_not_retries {limit : Nat} (h : (outcomes 0).retries = false) :
    calls outcomes (limit + 1) = 1 := by
  rw [calls, if_neg (by simp [h])]

theorem calls_pos {limit : Nat} (h : 0 < limit) : 0 < calls outcomes limit := by
  cases limit with
  | zero =>
      omega
  | succ limit =>
      unfold calls
      split <;> omega

end Attempt

end Lib
end OrbitOpenEO
