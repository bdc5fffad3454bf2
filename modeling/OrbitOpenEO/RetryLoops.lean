import OrbitOpenEO.Executor
import OrbitOpenEO.Lib.Attempts
import Mathlib.Algebra.Group.Nat.Defs
import Mathlib.Data.Rat.Floor

/-!
# Retries

`RetryPolicy` says how often an operation is tried and how long to wait in between.  Two loops
follow it: `retry_async`, for any operation, and the loop in `HttpStacSearcher::search`, which
does not try again when the server refuses the request.

Durations are in nanoseconds.  The doubling of the delay is cut off after thirty doublings.
-/

namespace OrbitOpenEO

open Lib

/-- `Duration::MAX`. -/
def durationMax : Nat := (2 ^ 64 - 1) * 1000000000 + 999999999

/-- `RetryPolicy`. -/
structure RetryPolicy where
  maxAttempts : Nat
  baseDelay : Nat
  maxDelay : Nat
  maxAttempts_lt : maxAttempts < 2 ^ 32
  baseDelay_le : baseDelay ≤ durationMax
  maxDelay_le : maxDelay ≤ durationMax

/-- `Duration::checked_mul`. -/
def checkedMul (d k : Nat) : Option Nat := if d * k ≤ durationMax then some (d * k) else none

/-- The cast `as u64` of an `f64`. -/
def F64.asU64 : F64 → Nat
  | .finite q => min ⌊q⌋.toNat (2 ^ 64 - 1)
  | .posInf => 2 ^ 64 - 1
  | _ => 0

namespace RetryPolicy

variable (p : RetryPolicy)

/-- `RetryPolicy::delay_for_attempt`. -/
def delayForAttempt (n : Nat) : Nat :=
  if n = 0 then 0
  else
    let shift := min (n - 1) 30
    min ((checkedMul p.baseDelay (2 ^ shift)).getD p.maxDelay) p.maxDelay

/-- `RetryPolicy::should_retry`. -/
def shouldRetry (n : Nat) : Bool := decide (n < p.maxAttempts)

/-- `RetryPolicy::jittered_delay`, with the value that `rng` returns. -/
def jitteredDelay (ops : FloatOps) (n : Nat) (draw : F64) : Nat :=
  let cap := p.delayForAttempt n
  let capMicros : Nat := cap / 1000 % 2 ^ 64
  if capMicros = 0 then 0
  else (ops.mul (draw.clamp (.finite 0) (.finite 1)) (ops.ofInt capMicros)).asU64 * 1000

/-- The delay that the documentation of the policy gives. -/
def documentedDelay (n : Nat) : Nat := min (p.baseDelay * 2 ^ (n - 1)) p.maxDelay

/-- Thirty doublings reach the attempt, or the hard cap, or there is nothing to double. -/
def Doubles (n : Nat) : Prop := n ≤ 31 ∨ p.baseDelay = 0 ∨ p.maxDelay ≤ p.baseDelay * 2 ^ 30

/-- The product is cut off at the hard cap, whether it overflows or not. -/
theorem delayForAttempt_eq {n : Nat} (hn : 0 < n) :
    p.delayForAttempt n = min (p.baseDelay * 2 ^ min (n - 1) 30) p.maxDelay := by
  have hmax := p.maxDelay_le
  unfold delayForAttempt checkedMul
  rw [if_neg (Nat.ne_of_gt hn)]
  dsimp only
  split_ifs with hfits
  · rfl
  · rw [Option.getD_none]
    omega

theorem delayForAttempt_eq_documented_iff {n : Nat} (hn : 0 < n) :
    p.delayForAttempt n = p.documentedDelay n ↔ p.Doubles n := by
  unfold documentedDelay Doubles
  rw [p.delayForAttempt_eq hn]
  rcases Nat.eq_zero_or_pos p.baseDelay with hzero | hpos
  · rw [hzero, Nat.zero_mul, Nat.zero_mul]
    exact iff_of_true rfl (.inr (.inl rfl))
  · rcases Nat.lt_or_ge 31 n with hlate | hearly
    · have hshift : min (n - 1) 30 = 30 := by omega
      have hpow : 2 ^ 30 < 2 ^ (n - 1) := Nat.pow_lt_pow_right (by omega) (by omega)
      have hcut : p.baseDelay * 2 ^ 30 < p.baseDelay * 2 ^ (n - 1) :=
        Nat.mul_lt_mul_of_pos_left hpow hpos
      rw [hshift]
      generalize p.baseDelay * 2 ^ 30 = cut at *
      omega
    · have hshift : min (n - 1) 30 = n - 1 := by omega
      rw [hshift]
      exact iff_of_true rfl (.inl hearly)

/-- The delays do not decrease. -/
theorem delayForAttempt_mono {m n : Nat} (h : m ≤ n) :
    p.delayForAttempt m ≤ p.delayForAttempt n := by
  rcases Nat.eq_zero_or_pos m with rfl | hm
  · exact Nat.zero_le _
  · have hshift : min (m - 1) 30 ≤ min (n - 1) 30 := by omega
    have hpow : 2 ^ min (m - 1) 30 ≤ 2 ^ min (n - 1) 30 := Nat.pow_le_pow_right (by omega) hshift
    rw [p.delayForAttempt_eq hm, p.delayForAttempt_eq (by omega)]
    have := Nat.mul_le_mul_left p.baseDelay hpow
    omega

end RetryPolicy

/-- What a loop has done when it ends: how often it has called the operation, how long it has
slept each time, and its result.  A loop that panics has none. -/
structure Retried (ε α : Type) where
  calls : Nat
  sleeps : List Nat
  result : Option (Except ε α)

namespace Retried

variable {ε α : Type}

/-- The end of a loop with its last call. -/
def once (result : Except ε α) : Retried ε α := ⟨1, [], some result⟩

/-- A call, and perhaps a sleep, before the rest. -/
def afterCall (sleep : Option Nat) (r : Retried ε α) : Retried ε α :=
  ⟨r.calls + 1, sleep.toList ++ r.sleeps, r.result⟩

/-- The operation has been called up to the first outcome that stops it, at most `limit` times,
and the result is that of the last call. -/
structure Follows (r : Retried ε α) (outcomes : Nat → Attempt ε α) (limit : Nat) : Prop where
  first : ∀ k, Attempt.FirstStop outcomes k → r.calls = min (k + 1) limit
  never : (∀ i, (outcomes i).retries = true) → r.calls = limit
  last : r.result = some (outcomes (r.calls - 1)).result

/-- The calls are counted, and the result is that of the last one. -/
structure Counts (r : Retried ε α) (outcomes : Nat → Attempt ε α) (limit : Nat) : Prop where
  calls : r.calls = Attempt.calls outcomes limit
  last : r.result = some (outcomes (r.calls - 1)).result

variable {r : Retried ε α} {outcomes : Nat → Attempt ε α} {limit : Nat}

theorem Counts.follows (h : r.Counts outcomes limit) : r.Follows outcomes limit where
  first _ hk := h.calls.trans (Attempt.calls_eq_min hk limit)
  never hall := h.calls.trans (Attempt.calls_eq_limit hall limit)
  last := h.last

/-- A loop that ends with its first call. -/
theorem counts_once (outcomes : Nat → Attempt ε α) (limit : Nat)
    (h : (outcomes 0).retries = false ∨ limit = 0) :
    (once (outcomes 0).result).Counts outcomes (limit + 1) where
  calls := by
    rcases h with hstop | rfl
    · exact (Attempt.calls_succ_of_not_retries hstop).symm
    · unfold Attempt.calls Attempt.calls
      split <;> rfl
  last := rfl

/-- A loop that goes on after its first call. -/
theorem Counts.afterCall (sleep : Option Nat) (hfirst : (outcomes 0).retries = true)
    (hlimit : 0 < limit) (h : r.Counts (fun i => outcomes (i + 1)) limit) :
    (r.afterCall sleep).Counts outcomes (limit + 1) where
  calls := by
    rw [Attempt.calls_succ_of_retries hfirst, ← h.calls]
    rfl
  last := by
    have hpos : 0 < r.calls := h.calls ▸ Attempt.calls_pos hlimit
    have hindex : r.calls - 1 + 1 = r.calls + 1 - 1 := by omega
    have hlast := h.last
    rw [hindex] at hlast
    exact hlast

end Retried

section RetryAsync

variable {ε α : Type} (p : RetryPolicy) (op : Nat → Except ε α)

/-- The loop of `retry_async` after `attempt` calls; `op i` is the outcome of the call that has
`i` calls before it. -/
def retryLoop (attempt : Nat) (lastErr : Option ε) : Retried ε α :=
  if p.shouldRetry attempt then
    match op attempt with
    | .ok t => .once (.ok t)
    | .error e =>
        (retryLoop (attempt + 1) (some e)).afterCall
          (if p.shouldRetry (attempt + 1) then some (p.delayForAttempt (attempt + 1)) else none)
  else ⟨0, [], lastErr.map .error⟩
termination_by p.maxAttempts - attempt
decreasing_by
  have hlt : attempt < p.maxAttempts := of_decide_eq_true ‹_›
  omega

/-- `retry_async`. -/
def retryAsync : Retried ε α := retryLoop p op 0 none

/-- Every failure is a reason to try again. -/
def retryAttempt (outcome : Except ε α) : Attempt ε α :=
  match outcome with
  | .ok t => .success t
  | .error e => .again e

theorem result_retryAttempt (outcome : Except ε α) : (retryAttempt outcome).result = outcome := by
  cases outcome <;> rfl

theorem retryLoop_done {attempt : Nat} (h : p.maxAttempts ≤ attempt) (lastErr : Option ε) :
    retryLoop p op attempt lastErr = ⟨0, [], lastErr.map .error⟩ := by
  have hstop : p.shouldRetry attempt = false := decide_eq_false (Nat.not_lt.mpr h)
  rw [retryLoop, hstop]
  rfl

/-- From any attempt on, the loop counts its calls. -/
theorem retryLoop_counts (attempt left : Nat) (hleft : attempt + left + 1 = p.maxAttempts)
    (lastErr : Option ε) :
    (retryLoop p op attempt lastErr).Counts (fun i => retryAttempt (op (attempt + i)))
      (left + 1) := by
  have hturn : p.shouldRetry attempt = true := decide_eq_true (by omega)
  induction left generalizing attempt lastErr with
  | zero =>
      have hfirst := Retried.counts_once (fun i => retryAttempt (op (attempt + i))) 0 (.inr rfl)
      rw [result_retryAttempt] at hfirst
      rw [retryLoop, if_pos hturn]
      cases hop : op attempt with
      | ok t =>
          rw [Nat.add_zero, hop] at hfirst
          exact hfirst
      | error e =>
          have hstop : p.shouldRetry (attempt + 1) = false := decide_eq_false (by omega)
          rw [Nat.add_zero, hop] at hfirst
          dsimp only
          rw [retryLoop_done p op (by omega), hstop]
          exact hfirst
  | succ left ih =>
      rw [retryLoop, if_pos hturn]
      cases hop : op attempt with
      | ok t =>
          have hfirst := Retried.counts_once (fun i => retryAttempt (op (attempt + i)))
            (left + 1) (.inl (by rw [Nat.add_zero, hop]; rfl))
          rw [result_retryAttempt, Nat.add_zero, hop] at hfirst
          exact hfirst
      | error e =>
          have hnext := ih (attempt + 1) (by omega) (some e) (decide_eq_true (by omega))
          simp only [Nat.add_assoc, Nat.add_comm 1] at hnext
          exact hnext.afterCall _ (by rw [Nat.add_zero, hop]; rfl) (Nat.succ_pos left)

/-- `retry_async` calls its operation up to the first success, or as often as it may. -/
theorem retryAsync_follows (hp : 0 < p.maxAttempts) :
    (retryAsync p op).Follows (fun i => retryAttempt (op i)) p.maxAttempts := by
  have hcounts := retryLoop_counts p op 0 (p.maxAttempts - 1) (by omega) none
  simp only [Nat.zero_add, Nat.sub_add_cancel hp] at hcounts
  exact hcounts.follows

end RetryAsync

/-- What comes back from `send`: an error, or a response with its status, the text of it and
what `json` makes of the body. -/
inductive SendResult where
  | failed (err : String)
  | response (status : Nat) (statusText : String) (json : Except String Json)

/-- What one turn of the loop finds: the payload, a refusal, or `bail_with`. -/
inductive SearchTurn where
  | payload (v : Json)
  | refused (msg : String)
  | bail (msg : String) (transient : Bool)

section Search

variable (p : RetryPolicy) (ops : FloatOps) (url : String) (send : Nat → SendResult)
  (draw : Nat → F64)

/-- One turn of the loop in `search`, up to the decision. -/
def searchTurn : SendResult → SearchTurn
  | .response status statusText json =>
      if 200 ≤ status ∧ status < 300 then
        match json with
        | .ok v => .payload v
        | .error e => .bail s!"STAC search decode: {e}" true
      else if 500 ≤ status ∧ status < 600 then
        .bail s!"STAC search {url}: HTTP {statusText}" true
      else .refused s!"STAC search {url}: HTTP {statusText}"
  | .failed e => .bail s!"STAC search {url}: {e}" true

/-- The retry loop of `HttpStacSearcher::search` after `attempt` requests; `send i` is the reply
to the request that has `i` requests before it. -/
def searchLoop (attempt : Nat) : Retried ExecError Json :=
  match searchTurn url (send attempt) with
  | .payload v => .once (.ok v)
  | .refused msg => .once (.error (.backend msg))
  | .bail msg transient =>
      if !transient || !p.shouldRetry (attempt + 1) then .once (.error (.backend msg))
      else
        (searchLoop (attempt + 1)).afterCall
          (some (p.jitteredDelay ops (attempt + 1) (draw attempt)))
termination_by p.maxAttempts - attempt
decreasing_by
  simp only [Bool.or_eq_true, Bool.not_eq_true', not_or, Bool.not_eq_false] at *
  have hlt : attempt + 1 < p.maxAttempts := of_decide_eq_true (by tauto)
  omega

/-- A refusal is final, and so is a failure that is not transient. -/
def searchAttempt (reply : SendResult) : Attempt ExecError Json :=
  match searchTurn url reply with
  | .payload v => .success v
  | .refused msg => .final (.backend msg)
  | .bail msg true => .again (.backend msg)
  | .bail msg false => .final (.backend msg)

/-- The loop ends with a request whose outcome stops it, and with the last one. -/
theorem searchLoop_once {attempt : Nat}
    (h : (searchAttempt url (send attempt)).retries = false ∨ p.maxAttempts ≤ attempt + 1) :
    searchLoop p ops url send draw attempt = .once (searchAttempt url (send attempt)).result := by
  rw [searchLoop]
  unfold searchAttempt at h ⊢
  cases hturn : searchTurn url (send attempt) with
  | payload v =>
      rfl
  | refused msg =>
      rfl
  | bail msg transient =>
      rw [hturn] at h
      cases transient with
      | false =>
          rfl
      | true =>
          have hstop : p.shouldRetry (attempt + 1) = false :=
            decide_eq_false (Nat.not_lt.mpr (h.resolve_left nofun))
          dsimp only
          rw [hstop]
          rfl

/-- The loop sends another request after a transient failure, while it may. -/
theorem searchLoop_again {attempt : Nat} (h : (searchAttempt url (send attempt)).retries = true)
    (hlimit : attempt + 1 < p.maxAttempts) :
    searchLoop p ops url send draw attempt =
      (searchLoop p ops url send draw (attempt + 1)).afterCall
        (some (p.jitteredDelay ops (attempt + 1) (draw attempt))) := by
  have hturn : p.shouldRetry (attempt + 1) = true := decide_eq_true hlimit
  rw [searchLoop]
  unfold searchAttempt at h
  cases hturn' : searchTurn url (send attempt) with
  | payload v =>
      rw [hturn'] at h
      cases h
  | refused msg =>
      rw [hturn'] at h
      cases h
  | bail msg transient =>
      rw [hturn'] at h
      cases transient with
      | false =>
          cases h
      | true =>
          dsimp only
          rw [hturn]
          rfl

/-- From any request on, the loop counts its requests. -/
theorem searchLoop_counts (attempt left : Nat)
    (hleft : attempt + left + 1 = p.maxAttempts) :
    (searchLoop p ops url send draw attempt).Counts
      (fun i => searchAttempt url (send (attempt + i))) (left + 1) := by
  induction left generalizing attempt with
  | zero =>
      rw [searchLoop_once p ops url send draw (.inr (by omega))]
      exact Retried.counts_once (fun i => searchAttempt url (send (attempt + i))) 0 (.inr rfl)
  | succ left ih =>
      cases hretries : (searchAttempt url (send attempt)).retries with
      | false =>
          rw [searchLoop_once p ops url send draw (.inl hretries)]
          exact Retried.counts_once (fun i => searchAttempt url (send (attempt + i))) _
            (.inl hretries)
      | true =>
          have hnext := ih (attempt + 1) (by omega)
          simp only [Nat.add_assoc, Nat.add_comm 1] at hnext
          rw [searchLoop_again p ops url send draw hretries (by omega)]
          exact hnext.afterCall _ hretries (Nat.succ_pos left)

/-- The search sends its request up to the first payload or refusal, or as often as it may. -/
theorem searchLoop_follows (hp : 0 < p.maxAttempts) :
    (searchLoop p ops url send draw 0).Follows (fun i => searchAttempt url (send i))
      p.maxAttempts := by
  have hcounts := searchLoop_counts p ops url send draw 0 (p.maxAttempts - 1)
    (by omega)
  simp only [Nat.zero_add, Nat.sub_add_cancel hp] at hcounts
  exact hcounts.follows

end Search

/-- The delays are the documented ones exactly as long as the doubling is not cut off, they do
not decrease, and both loops call their operation as often as the policy says. -/
theorem retryPolicy_contract {ε α : Type} (p : RetryPolicy) (hp : 0 < p.maxAttempts) :
    (∀ n, 0 < n → (p.delayForAttempt n = p.documentedDelay n ↔ p.Doubles n)) ∧
      (∀ m n, m ≤ n → p.delayForAttempt m ≤ p.delayForAttempt n) ∧
      (∀ op : Nat → Except ε α,
        (retryAsync p op).Follows (fun i => retryAttempt (op i)) p.maxAttempts) ∧
      ∀ ops url send draw, (searchLoop p ops url send draw 0).Follows
        (fun i => searchAttempt url (send i)) p.maxAttempts :=
  ⟨fun _ => p.delayForAttempt_eq_documented_iff, fun _ _ => p.delayForAttempt_mono,
    fun op => retryAsync_follows p op hp,
    fun ops url send draw => searchLoop_follows p ops url send draw hp⟩

theorem oneNano_le : 1 ≤ durationMax := by decide

theorem hour_le : 3600 * 1000000000 ≤ durationMax := by decide

theorem fifty_lt : 50 < 2 ^ 32 := by decide

/-- A policy that starts with one nanosecond and waits an hour at most. -/
def slowPolicy : RetryPolicy := ⟨50, 1, 3600 * 1000000000, fifty_lt, oneNano_le, hour_le⟩

theorem slowPolicy_contract :
    (slowPolicy.delayForAttempt 3 = slowPolicy.documentedDelay 3 ↔ slowPolicy.Doubles 3) ∧
      (retryAsync slowPolicy fun i => if i = 2 then .ok () else .error i).Follows
        (fun i => retryAttempt (if i = 2 then .ok () else .error i)) 50 :=
  have h := retryPolicy_contract (ε := Nat) (α := Unit) slowPolicy (by decide)
  ⟨h.1 3 (by decide), h.2.2.1 _⟩

/-- Before its fortieth attempt this policy waits for one second instead of nine minutes. -/
theorem slowPolicy_cut_off :
    slowPolicy.delayForAttempt 40 = 1073741824 ∧ slowPolicy.documentedDelay 40 = 549755813888 ∧
      ¬ ∀ n, 0 < n → slowPolicy.delayForAttempt n = slowPolicy.documentedDelay n := by
  have hcut : slowPolicy.delayForAttempt 40 = 1073741824 := by decide
  have hdoc : slowPolicy.documentedDelay 40 = 549755813888 := by decide
  refine ⟨hcut, hdoc, fun h => ?_⟩
  have h40 := h 40 (by decide)
  rw [hcut, hdoc] at h40
  exact absurd h40 (by decide)

end OrbitOpenEO
