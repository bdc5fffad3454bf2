import OrbitOpenEO.Lib.Run
import Mathlib.Algebra.Group.Nat.Defs
import Mathlib.Logic.Relation
import Mathlib.Tactic.SplitIfs

/-!
# The circuit breaker

`CircuitBreaker` counts the failures since the last success, trips at a threshold and
lets calls through again some time later.  Its calls come in any order and from any
caller, each at a time of a clock that does not go back, and each is one step.

The step from `Open` to `HalfOpen` is made by whoever asks for the state first.  Recorded
outcomes do not ask, so what they do depends on whether somebody has asked before.
-/

namespace OrbitOpenEO

open Lib

/-- `CircuitState`. -/
inductive CircuitState where
  | closed
  | opened
  | halfOpen
deriving DecidableEq

/-- `CircuitConfig`; the cooldown is in nanoseconds. -/
structure CircuitConfig where
  failureThreshold : Nat
  openCooldown : Nat

/-- `CircuitError`. -/
inductive CircuitError where
  | opened
deriving DecidableEq

/-- `CircuitBreaker`, without its configuration and its clock. -/
structure CircuitBreaker where
  state : CircuitState
  openedAt : Option Nat
  consecutiveFailures : Nat
  openCount : Nat
deriving DecidableEq

namespace CircuitBreaker

/-- `CircuitBreaker::with_now`. -/
def withNow : CircuitBreaker := ⟨.closed, none, 0, 0⟩

variable (cfg : CircuitConfig)

/-- The cooldown of an open breaker has elapsed. -/
def cooledDown (now : Nat) (b : CircuitBreaker) : Bool :=
  b.state == .opened && b.openedAt.any (fun at_ => decide (cfg.openCooldown ≤ now - at_))

/-- `CircuitBreaker::state`: the state, which may have moved on to `HalfOpen`. -/
def advance (now : Nat) (b : CircuitBreaker) : CircuitBreaker :=
  if b.cooledDown cfg now then { b with state := .halfOpen } else b

/-- `try_acquire`. -/
def tryAcquire (now : Nat) (b : CircuitBreaker) : Except CircuitError Unit × CircuitBreaker :=
  let b := b.advance cfg now
  match b.state with
  | .opened => (.error .opened, b)
  | .closed => (.ok (), b)
  | .halfOpen => (.ok (), b)

/-- `record_success`. -/
def recordSuccess (b : CircuitBreaker) : CircuitBreaker :=
  match b.state with
  | .halfOpen => { b with consecutiveFailures := 0, state := .closed, openedAt := none }
  | _ => { b with consecutiveFailures := 0 }

/-- `record_failure`.  The counters have 32 and 64 bits. -/
def recordFailure (now : Nat) (b : CircuitBreaker) : CircuitBreaker :=
  let prev := (b.consecutiveFailures + 1) % 2 ^ 32
  let b := { b with consecutiveFailures := prev }
  let shouldOpen :=
    match b.state with
    | .closed => decide (cfg.failureThreshold ≤ prev)
    | .halfOpen => true
    | .opened => false
  if shouldOpen then
    { b with state := .opened, openedAt := some now, openCount := (b.openCount + 1) % 2 ^ 64 }
  else b

end CircuitBreaker

/-- The calls, with the caller whose request they are about. -/
inductive BreakerCall where
  | state
  | tryAcquire (caller : Nat)
  | recordSuccess (caller : Nat)
  | recordFailure (caller : Nat)
deriving DecidableEq

namespace BreakerCall

/-- The breaker after a call. -/
def apply (cfg : CircuitConfig) (now : Nat) (b : CircuitBreaker) : BreakerCall → CircuitBreaker
  | .state => b.advance cfg now
  | .tryAcquire _ => (b.tryAcquire cfg now).2
  | .recordSuccess _ => b.recordSuccess
  | .recordFailure _ => b.recordFailure cfg now

/-- The call records an outcome. -/
def records : BreakerCall → Bool
  | .recordSuccess _ => true
  | .recordFailure _ => true
  | _ => false

end BreakerCall

namespace CircuitBreaker

variable {cfg : CircuitConfig} {now : Nat} {b : CircuitBreaker}

@[simp] theorem tryAcquire_snd : (b.tryAcquire cfg now).2 = b.advance cfg now := by
  unfold tryAcquire
  cases h : (b.advance cfg now).state <;> simp [h]

/-- Only an open breaker has a cooldown. -/
theorem state_of_cooledDown (h : b.cooledDown cfg now = true) : b.state = .opened := by
  unfold cooledDown at h
  rw [Bool.and_eq_true, beq_iff_eq] at h
  exact h.1

/-- A call to `state` moves an open breaker on, or does nothing. -/
theorem advance_cases (cfg : CircuitConfig) (now : Nat) (b : CircuitBreaker) :
    (b.state = .opened ∧ b.cooledDown cfg now = true ∧
      b.advance cfg now = { b with state := .halfOpen }) ∨
    (b.cooledDown cfg now = false ∧ b.advance cfg now = b) := by
  unfold advance
  cases h : b.cooledDown cfg now with
  | true =>
      exact .inl ⟨state_of_cooledDown h, rfl, rfl⟩
  | false =>
      exact .inr ⟨rfl, rfl⟩

theorem recordSuccess_cases (b : CircuitBreaker) :
    (b.state = .halfOpen ∧ b.recordSuccess =
      { b with consecutiveFailures := 0, state := .closed, openedAt := none }) ∨
    (b.state ≠ .halfOpen ∧ b.recordSuccess = { b with consecutiveFailures := 0 }) := by
  unfold recordSuccess
  cases h : b.state <;> simp

/-- A failure while the breaker is open only counts. -/
theorem recordFailure_of_opened (h : b.state = .opened) : b.recordFailure cfg now =
    { b with consecutiveFailures := (b.consecutiveFailures + 1) % 2 ^ 32 } := by
  simp [recordFailure, h]

/-- A recorded failure trips the breaker, or only counts. -/
theorem recordFailure_cases (cfg : CircuitConfig) (now : Nat)
    (hcount : b.consecutiveFailures + 1 < 2 ^ 32) :
    ((b.state = .halfOpen ∨
        b.state = .closed ∧ cfg.failureThreshold ≤ b.consecutiveFailures + 1) ∧
      b.recordFailure cfg now =
        ⟨.opened, some now, b.consecutiveFailures + 1, (b.openCount + 1) % 2 ^ 64⟩) ∨
    ((b.state = .opened ∨
        b.state = .closed ∧ b.consecutiveFailures + 1 < cfg.failureThreshold) ∧
      b.recordFailure cfg now = { b with consecutiveFailures := b.consecutiveFailures + 1 }) := by
  unfold recordFailure
  rw [Nat.mod_eq_of_lt hcount]
  cases h : b.state with
  | closed =>
      by_cases hle : cfg.failureThreshold ≤ b.consecutiveFailures + 1
      · simp [hle]
      · simp [hle, Nat.lt_of_not_le hle]
  | opened =>
      simp
  | halfOpen =>
      simp

end CircuitBreaker

/-- A breaker in use, with what has happened to it: the time, the failures recorded
since the last success, the transitions into `Open` and the time of the last one. -/
structure BreakerRun where
  breaker : CircuitBreaker
  now : Nat
  failures : Nat
  trips : Nat
  lastTrip : Option Nat

namespace BreakerRun

variable (cfg : CircuitConfig)

/-- A new breaker. -/
def start : BreakerRun := ⟨.withNow, 0, 0, 0, none⟩

/-- The failures since the last success, after a call. -/
def countFailures (n : Nat) : BreakerCall → Nat
  | .recordSuccess _ => 0
  | .recordFailure _ => n + 1
  | _ => n

/-- The call has tripped the breaker. -/
def Trips (before after : CircuitBreaker) : Prop := before.state ≠ .opened ∧ after.state = .opened

instance (before after : CircuitBreaker) : Decidable (Trips before after) :=
  inferInstanceAs (Decidable (_ ∧ _))

/-- One call at a time; the clock does not go back. -/
def step (r : BreakerRun) (c : Nat × BreakerCall) : Option BreakerRun :=
  if c.1 < r.now then none
  else
    let after := c.2.apply cfg c.1 r.breaker
    some
      { breaker := after
        now := c.1
        failures := countFailures r.failures c.2
        trips := if Trips r.breaker after then r.trips + 1 else r.trips
        lastTrip := if Trips r.breaker after then some c.1 else r.lastTrip }

/-- The failure counter does not overflow. -/
def CountFits (r : BreakerRun) (c : Nat × BreakerCall) : Prop :=
  countFailures r.failures c.2 < 2 ^ 32

instance (r : BreakerRun) (c : Nat × BreakerCall) : Decidable (CountFits r c) :=
  inferInstanceAs (Decidable (_ < _))

variable {cfg} {r r' : BreakerRun} {c : Nat × BreakerCall}

theorem step_eq_some (h : step cfg r c = some r') :
    r.now ≤ c.1 ∧ r'.breaker = c.2.apply cfg c.1 r.breaker ∧ r'.now = c.1 ∧
      r'.failures = countFailures r.failures c.2 ∧
      (r'.trips = if Trips r.breaker r'.breaker then r.trips + 1 else r.trips) ∧
      r'.lastTrip = if Trips r.breaker r'.breaker then some c.1 else r.lastTrip := by
  unfold step at h
  split_ifs at h with hlt
  cases h
  exact ⟨Nat.le_of_not_lt hlt, rfl, rfl, rfl, rfl, rfl⟩

/-- What holds of every breaker in use. -/
structure Inv (cfg : CircuitConfig) (r : BreakerRun) : Prop where
  counter : r.breaker.consecutiveFailures = r.failures
  closed : r.breaker.state = .closed → r.failures < cfg.failureThreshold
  tripped : r.breaker.state ≠ .closed →
    ∃ t₀, r.lastTrip = some t₀ ∧ r.breaker.openedAt = some t₀
  count : r.breaker.openCount = r.trips % 2 ^ 64

theorem Inv.start (hthreshold : 1 ≤ cfg.failureThreshold) : Inv cfg start where
  counter := rfl
  closed _ := hthreshold
  tripped h := absurd rfl h
  count := rfl

/-- A call that does not trip the breaker and leaves it open, if it was, with its time. -/
theorem Inv.of_quiet (hr : Inv cfg r) (h : step cfg r c = some r')
    (hquiet : ¬ Trips r.breaker r'.breaker)
    (hcounter : r'.breaker.consecutiveFailures = r'.failures)
    (hclosed : r'.breaker.state = .closed → r'.failures < cfg.failureThreshold)
    (hopen : r'.breaker.state ≠ .closed →
      r.breaker.state ≠ .closed ∧ r'.breaker.openedAt = r.breaker.openedAt)
    (hcount : r'.breaker.openCount = r.breaker.openCount) : Inv cfg r' := by
  obtain ⟨_, _, _, _, htrips, hlast⟩ := step_eq_some h
  rw [if_neg hquiet] at htrips hlast
  refine ⟨hcounter, hclosed, fun hne => ?_, by rw [hcount, htrips, hr.count]⟩
  obtain ⟨hne', hat⟩ := hopen hne
  rw [hlast, hat]
  exact hr.tripped hne'

/-- **A call keeps the invariant.** -/
theorem Inv.of_step (hthreshold : 1 ≤ cfg.failureThreshold) (hr : Inv cfg r)
    (hfits : CountFits r c) (h : step cfg r c = some r') : Inv cfg r' := by
  obtain ⟨_, hafter, _, hfailures, htrips, hlast⟩ := step_eq_some h
  obtain ⟨now, call⟩ := c
  have hadvance : r'.breaker = r.breaker.advance cfg now → r'.failures = r.failures →
      Inv cfg r' := by
    intro hafter hfailures
    rcases CircuitBreaker.advance_cases cfg now r.breaker with
      ⟨hopen, _, heq⟩ | ⟨_, heq⟩
    · rw [heq] at hafter
      refine hr.of_quiet h (by simp [Trips, hafter]) ?_ ?_ ?_ ?_ <;> rw [hafter]
      · exact hr.counter.trans hfailures.symm
      · intro h
        cases h
      · exact fun _ => ⟨by simp [hopen], rfl⟩
    · rw [heq] at hafter
      refine hr.of_quiet h (fun htrip => htrip.1 (hafter ▸ htrip.2)) ?_ ?_ ?_ ?_ <;> rw [hafter]
      · exact hr.counter.trans hfailures.symm
      · rw [hfailures]
        exact hr.closed
      · exact fun hne => ⟨hne, rfl⟩
  cases call with
  | state =>
      exact hadvance hafter hfailures
  | tryAcquire caller =>
      exact hadvance (hafter.trans CircuitBreaker.tryAcquire_snd) hfailures
  | recordSuccess caller =>
      have hzero : r'.failures = 0 := hfailures
      rcases CircuitBreaker.recordSuccess_cases r.breaker with ⟨hstate, heq⟩ | ⟨hstate, heq⟩
      · have hb : r'.breaker = _ := hafter.trans heq
        refine hr.of_quiet h (by simp [Trips, hb]) ?_ ?_ ?_ ?_ <;> rw [hb]
        · exact hzero.symm
        · exact fun _ => by omega
        · exact fun hne => absurd rfl hne
      · have hb : r'.breaker = _ := hafter.trans heq
        refine hr.of_quiet h (fun htrip => htrip.1 (by rw [← htrip.2, hb])) ?_ ?_ ?_ ?_ <;> rw [hb]
        · exact hzero.symm
        · exact fun _ => by omega
        · exact fun hne => ⟨hne, rfl⟩
  | recordFailure caller =>
      have hsucc : r'.failures = r.failures + 1 := hfailures
      have hcount : r.breaker.consecutiveFailures + 1 < 2 ^ 32 := by
        rw [hr.counter]
        exact hfits
      rcases CircuitBreaker.recordFailure_cases cfg now hcount with
        ⟨hstate, heq⟩ | ⟨hstate, heq⟩
      · have hb : r'.breaker = _ := hafter.trans heq
        have htrip : Trips r.breaker r'.breaker := by
          refine ⟨?_, by rw [hb]⟩
          rcases hstate with hstate | ⟨hstate, _⟩ <;> simp [hstate]
        rw [if_pos htrip] at htrips hlast
        refine ⟨?_, ?_, ?_, ?_⟩ <;> rw [hb]
        · rw [hsucc, hr.counter]
        · intro hclosed
          cases hclosed
        · exact fun _ => ⟨now, hlast, rfl⟩
        · rw [htrips, hr.count, Nat.mod_add_mod]
      · have hb : r'.breaker = _ := hafter.trans heq
        refine hr.of_quiet h (fun htrip => htrip.1 (by rw [← htrip.2, hb])) ?_ ?_ ?_ ?_ <;> rw [hb]
        · rw [hsucc, hr.counter]
        · intro hclosed
          have hclosed' : r.breaker.state = .closed := hclosed
          have hcounter := hr.counter
          rcases hstate with hstate | ⟨_, hlt⟩
          · rw [hclosed'] at hstate
            cases hstate
          · omega
        · exact fun hne => ⟨hne, rfl⟩

theorem inv_of_reach (hthreshold : 1 ≤ cfg.failureThreshold)
    (h : Reach (step cfg) CountFits start r) : Inv cfg r :=
  h.invariant (Inv.start hthreshold) fun _ _ _ hr hfits hstep => hr.of_step hthreshold hfits hstep

/-- The breaker has been open since `t₀`, as long as the cooldown lasts. -/
def OpenSince (cfg : CircuitConfig) (t₀ : Nat) (r : BreakerRun) : Prop :=
  t₀ ≤ r.now ∧ (r.now < t₀ + cfg.openCooldown →
    r.breaker.state = .opened ∧ r.breaker.openedAt = some t₀)

theorem not_cooledDown {b : CircuitBreaker} {t₀ now : Nat} (hat : b.openedAt = some t₀)
    (hnow : now < t₀ + cfg.openCooldown) (hle : t₀ ≤ now) : b.cooledDown cfg now = false := by
  unfold CircuitBreaker.cooledDown
  rw [hat, Option.any_some, Bool.and_eq_false_iff]
  exact .inr (decide_eq_false (by omega))

theorem OpenSince.advance {t₀ now : Nat} (hr : OpenSince cfg t₀ r) (hle : r.now ≤ now)
    (hnow : now < t₀ + cfg.openCooldown) : r.breaker.advance cfg now = r.breaker := by
  obtain ⟨hle₀, hopen⟩ := hr
  obtain ⟨_, hat⟩ := hopen (by omega)
  unfold CircuitBreaker.advance
  rw [not_cooledDown hat hnow (by omega)]
  rfl

theorem OpenSince.of_step {t₀ : Nat} (hr : OpenSince cfg t₀ r) (h : step cfg r c = some r') :
    OpenSince cfg t₀ r' := by
  obtain ⟨hle, hafter, hnow, _⟩ := step_eq_some h
  refine ⟨by have := hr.1; omega, fun hlt => ?_⟩
  rw [hnow] at hlt
  have hadvance := hr.advance hle hlt
  obtain ⟨hstate, hat⟩ := hr.2 (by omega)
  rw [hafter]
  obtain ⟨now, call⟩ := c
  cases call with
  | state =>
      rw [show BreakerCall.apply cfg now r.breaker .state = r.breaker from hadvance]
      exact ⟨hstate, hat⟩
  | tryAcquire caller =>
      have heq : BreakerCall.apply cfg now r.breaker (.tryAcquire caller) = r.breaker :=
        CircuitBreaker.tryAcquire_snd.trans hadvance
      rw [heq]
      exact ⟨hstate, hat⟩
  | recordSuccess caller =>
      rcases CircuitBreaker.recordSuccess_cases r.breaker with ⟨hhalf, _⟩ | ⟨_, heq⟩
      · rw [hstate] at hhalf
        cases hhalf
      · have hb : BreakerCall.apply cfg now r.breaker (.recordSuccess caller) = _ := heq
        rw [hb]
        exact ⟨hstate, hat⟩
  | recordFailure caller =>
      have hb : BreakerCall.apply cfg now r.breaker (.recordFailure caller) = _ :=
        CircuitBreaker.recordFailure_of_opened hstate
      rw [hb]
      exact ⟨hstate, hat⟩

/-- Only a failure trips the breaker, and it notes the time. -/
theorem OpenSince.of_trip (h : step cfg r c = some r') (htrip : Trips r.breaker r'.breaker) :
    OpenSince cfg c.1 r' := by
  obtain ⟨_, hafter, hnow, _⟩ := step_eq_some h
  refine ⟨by omega, fun _ => ⟨htrip.2, ?_⟩⟩
  obtain ⟨hne, hopen⟩ := htrip
  rw [hafter] at hopen ⊢
  obtain ⟨now, call⟩ := c
  have hadvance : (r.breaker.advance cfg now).state ≠ .opened := by
    rcases CircuitBreaker.advance_cases cfg now r.breaker with
      ⟨hstate, _, _⟩ | ⟨_, heq⟩
    · exact absurd hstate hne
    · rw [heq]
      exact hne
  cases call with
  | state =>
      exact absurd hopen hadvance
  | tryAcquire caller =>
      rw [show BreakerCall.apply cfg now r.breaker (.tryAcquire caller) = _ from
        CircuitBreaker.tryAcquire_snd] at hopen
      exact absurd hopen hadvance
  | recordSuccess caller =>
      unfold BreakerCall.apply at hopen
      rcases CircuitBreaker.recordSuccess_cases r.breaker with ⟨_, heq⟩ | ⟨_, heq⟩
      · rw [heq] at hopen
        cases hopen
      · rw [heq] at hopen
        exact absurd hopen hne
  | recordFailure caller =>
      unfold BreakerCall.apply CircuitBreaker.recordFailure at hopen ⊢
      dsimp only at hopen ⊢
      split_ifs at hopen ⊢
      · rfl
      · exact absurd hopen hne

theorem OpenSince.of_reach {t₀ : Nat} (hr : OpenSince cfg t₀ r)
    (h : Reach (step cfg) AnyStep r r') : OpenSince cfg t₀ r' :=
  h.invariant hr fun _ _ _ ht _ hstep => ht.of_step hstep

theorem OpenSince.tryAcquire {t₀ now : Nat} (hr : OpenSince cfg t₀ r) (hle : r.now ≤ now)
    (hnow : now < t₀ + cfg.openCooldown) :
    (r.breaker.tryAcquire cfg now).1 = .error .opened := by
  obtain ⟨hstate, _⟩ := hr.2 (by omega)
  unfold CircuitBreaker.tryAcquire
  rw [hr.advance hle hnow]
  dsimp only
  rw [hstate]

/-- The results of the `try_acquire` calls of a list. -/
def acquireResults (cfg : CircuitConfig) :
    CircuitBreaker → List (Nat × BreakerCall) → List (Except CircuitError Unit)
  | _, [] => []
  | b, (now, .tryAcquire _) :: cs =>
      (b.tryAcquire cfg now).1 :: acquireResults cfg (b.tryAcquire cfg now).2 cs
  | b, (now, call) :: cs => acquireResults cfg (call.apply cfg now b) cs

/-- The breaker after a list of calls. -/
def afterCalls (cfg : CircuitConfig) (b : CircuitBreaker) (cs : List (Nat × BreakerCall)) :
    CircuitBreaker :=
  cs.foldl (fun b c => c.2.apply cfg c.1 b) b

/-- The next call besides those of `state` records an outcome. -/
def outcomeNext : List (Nat × BreakerCall) → Bool
  | [] => false
  | (_, .state) :: cs => outcomeNext cs
  | (_, call) :: _ => call.records

/-- One more call of `state`, but not between the end of the cooldown and an outcome that
is recorded before anybody asks. -/
inductive ExtraState (cfg : CircuitConfig) (b : CircuitBreaker) :
    List (Nat × BreakerCall) → List (Nat × BreakerCall) → Prop
  | insert (before after : List (Nat × BreakerCall)) (now : Nat)
      (hafter : ∀ c ∈ after, now ≤ c.1)
      (hasked : (afterCalls cfg b before).cooledDown cfg now = true → outcomeNext after = false) :
      ExtraState cfg b (before ++ after) (before ++ (now, .state) :: after)

theorem acquireResults_append (b : CircuitBreaker) (ds : List (Nat × BreakerCall)) :
    ∀ cs : List (Nat × BreakerCall), acquireResults cfg b (cs ++ ds) =
      acquireResults cfg b cs ++ acquireResults cfg (afterCalls cfg b cs) ds := by
  intro cs
  induction cs generalizing b with
  | nil =>
      rfl
  | cons c cs ih =>
      obtain ⟨now, call⟩ := c
      cases call with
      | tryAcquire caller =>
          exact congrArg (_ :: ·) (ih _)
      | _ =>
          exact ih _

theorem cooledDown_mono {b : CircuitBreaker} {now now' : Nat} (hle : now ≤ now')
    (h : b.cooledDown cfg now = true) : b.cooledDown cfg now' = true := by
  unfold CircuitBreaker.cooledDown at h ⊢
  rw [Bool.and_eq_true] at h ⊢
  refine ⟨h.1, ?_⟩
  cases hat : b.openedAt with
  | none =>
      rw [hat] at h
      exact absurd h.2 (by simp)
  | some t₀ =>
      rw [hat] at h
      have := of_decide_eq_true h.2
      exact decide_eq_true (by omega)

/-- Who asks after the cooldown finds the same breaker as one who asks again. -/
theorem advance_halfOpen {b : CircuitBreaker} {now now' : Nat} (hle : now ≤ now')
    (h : b.cooledDown cfg now = true) :
    ({ b with state := .halfOpen } : CircuitBreaker).advance cfg now' = b.advance cfg now' := by
  unfold CircuitBreaker.advance
  rw [if_pos (cooledDown_mono hle h), if_neg (by simp [CircuitBreaker.cooledDown])]

theorem acquireResults_halfOpen {b : CircuitBreaker} {now : Nat} {cs : List (Nat × BreakerCall)}
    (hcs : ∀ c ∈ cs, now ≤ c.1) (h : b.cooledDown cfg now = true) (hnext : outcomeNext cs = false) :
    acquireResults cfg { b with state := .halfOpen } cs = acquireResults cfg b cs := by
  cases cs with
  | nil =>
      rfl
  | cons c cs =>
      obtain ⟨now', call⟩ := c
      have hadvance := advance_halfOpen (hcs _ List.mem_cons_self) h
      cases call with
      | state =>
          exact congrArg (acquireResults cfg · cs) hadvance
      | tryAcquire caller =>
          unfold acquireResults CircuitBreaker.tryAcquire
          rw [hadvance]
      | recordSuccess caller =>
          cases hnext
      | recordFailure caller =>
          cases hnext

theorem acquireResults_extraState {b : CircuitBreaker} {cs cs' : List (Nat × BreakerCall)}
    (h : ExtraState cfg b cs cs') : acquireResults cfg b cs' = acquireResults cfg b cs := by
  obtain ⟨before, after, now, hafter, hasked⟩ := h
  rw [acquireResults_append, acquireResults_append]
  refine congrArg (acquireResults cfg b before ++ ·) ?_
  rcases CircuitBreaker.advance_cases cfg now (afterCalls cfg b before) with
    ⟨_, hcooled, heq⟩ | ⟨_, heq⟩
  · exact (congrArg (acquireResults cfg · after) heq).trans
      (acquireResults_halfOpen hafter hcooled (hasked hcooled))
  · exact congrArg (acquireResults cfg · after) heq

/-- What is promised about a breaker in use. -/
structure TraceLaw (cfg : CircuitConfig) (r : BreakerRun) : Prop where
  /-- A closed breaker has seen fewer failures in a row than would trip it. -/
  below : r.breaker.state = .closed → r.failures < cfg.failureThreshold
  /-- After a trip nobody is let through before the cooldown has elapsed. -/
  cooldown : ∀ {c : Nat × BreakerCall} {r₁ r₂ : BreakerRun} {now : Nat},
    step cfg r c = some r₁ → Trips r.breaker r₁.breaker → Reach (step cfg) AnyStep r₁ r₂ →
    r₂.now ≤ now → now < c.1 + cfg.openCooldown →
    (r₂.breaker.tryAcquire cfg now).1 = .error .opened
  /-- Outside `Closed` the time of the last trip is on record. -/
  recorded : r.breaker.state ≠ .closed →
    ∃ t₀, r.lastTrip = some t₀ ∧ r.breaker.openedAt = some t₀
  /-- The trips are counted, with 64 bits. -/
  counted : r.breaker.openCount = r.trips % 2 ^ 64
  /-- Extra calls of `state` change no result. -/
  observed : ∀ {cs cs' : List (Nat × BreakerCall)},
    Relation.ReflTransGen (ExtraState cfg r.breaker) cs cs' →
    acquireResults cfg r.breaker cs' = acquireResults cfg r.breaker cs

/-- **The trace law** holds after every sequence of calls in which the failure counter
does not overflow. -/
theorem traceLaw_of_reach (hthreshold : 1 ≤ cfg.failureThreshold)
    (h : Reach (step cfg) CountFits start r) : TraceLaw cfg r := by
  have hr := inv_of_reach hthreshold h
  refine ⟨hr.closed, ?_, hr.tripped, hr.count, ?_⟩
  · intro c r₁ r₂ now hstep htrip hreach hle hlt
    exact ((OpenSince.of_trip hstep htrip).of_reach hreach).tryAcquire hle hlt
  · intro cs cs' hextra
    induction hextra with
    | refl =>
        rfl
    | tail _ hlast ih =>
        exact (acquireResults_extraState hlast).trans ih

/-- Two calls are under way when the first one fails and trips the breaker. -/
def lateFailure : List (Nat × BreakerCall) :=
  [(0, .tryAcquire 1), (0, .tryAcquire 2), (5, .recordFailure 1), (20, .recordFailure 2)]

theorem traceLaw_lateFailure : ∃ r, Reach (step ⟨1, 10⟩) CountFits start r ∧
    r.breaker.state = .opened ∧ TraceLaw ⟨1, 10⟩ r := by
  have hfits : Allowed (step ⟨1, 10⟩) CountFits start lateFailure := by decide
  obtain ⟨r, hr, hopen⟩ := exists_reach_of_runAll (step ⟨1, 10⟩) start lateFailure
    (fun r => r.breaker.state == .opened) hfits (by decide)
  exact ⟨r, hr, beq_iff_eq.mp hopen, traceLaw_of_reach (by decide) hr⟩

/-- Asked for its state before the second failure is recorded, the breaker refuses the
call that it would have let through. -/
theorem lateFailure_observed :
    acquireResults ⟨1, 10⟩ .withNow
        [(0, .tryAcquire 1), (0, .tryAcquire 2), (5, .recordFailure 1), (20, .recordFailure 2),
          (20, .tryAcquire 3)] = [.ok (), .ok (), .ok ()] ∧
      acquireResults ⟨1, 10⟩ .withNow
        [(0, .tryAcquire 1), (0, .tryAcquire 2), (5, .recordFailure 1), (20, .state),
          (20, .recordFailure 2), (20, .tryAcquire 3)] = [.ok (), .ok (), .error .opened] :=
  ⟨rfl, rfl⟩

end BreakerRun

end OrbitOpenEO
