import OrbitOpenEO.CircuitBreaker

/-!
# One probe at a time

In `HalfOpen` the breaker lets every caller through.  Whether a single call probes the
service is up to the callers: it does exactly if nobody asks to be let through while a
probe is out, except where the breaker has closed the door again for its cooldown.

The history of a run is kept as notes, because outcomes belong to callers and come in any
order.
-/

namespace OrbitOpenEO

open Lib

/-- What is noted of a run. -/
inductive ProbeNote where
  | entered
  | left
  | admitted (caller : Nat)
  | outcome (caller : Nat)

namespace ProbeNote

/-- The breaker has stayed in `HalfOpen` and let nobody through. -/
def quiet : ProbeNote → Bool
  | .outcome _ => true
  | .entered => true
  | _ => false

end ProbeNote

/-- The breaker has entered `HalfOpen`, is still there, and nobody has been let through. -/
def Awaiting (ns : List ProbeNote) : Prop :=
  ∃ before between, ns = before ++ .entered :: between ∧ between.all ProbeNote.quiet = true

/-- The caller has been let through as the first one after the breaker entered
`HalfOpen`, and its outcome is not recorded. -/
def ProbeOut (ns : List ProbeNote) (caller : Nat) : Prop :=
  ∃ before after, ns = before ++ .admitted caller :: after ∧ Awaiting before ∧
    ∀ n ∈ after, n ≠ .outcome caller

/-- Nobody is let through while a probe is out. -/
def SingleProbe (ns : List ProbeNote) : Prop :=
  ∀ before caller after, ns = before ++ .admitted caller :: after →
    ∀ probe, ¬ ProbeOut before probe

section Histories

variable {ns : List ProbeNote} {n : ProbeNote}

theorem not_awaiting_nil : ¬ Awaiting [] := by
  rintro ⟨before, between, h, _⟩
  simp at h

theorem not_probeOut_nil {caller : Nat} : ¬ ProbeOut [] caller := by
  rintro ⟨before, after, h, _⟩
  simp at h

theorem singleProbe_nil : SingleProbe [] := by
  intro before caller after h
  simp at h

/-- A list that ends with another one's last element. -/
theorem concat_eq_append_cons {α : Type} {xs before after : List α} {x y : α} :
    xs ++ [x] = before ++ y :: after ↔
      (after = [] ∧ xs = before ∧ x = y) ∨ ∃ rest, after = rest ++ [x] ∧ xs = before ++ y :: rest := by
  rcases after.eq_nil_or_concat with rfl | ⟨rest, z, rfl⟩
  · simp
  · constructor
    · intro h
      have h' : xs ++ [x] = (before ++ y :: rest) ++ [z] := by simpa using h
      obtain ⟨hxs, hx⟩ := List.append_inj' h' rfl
      cases hx
      exact .inr ⟨rest, by simp, hxs⟩
    · rintro (⟨hnil, _⟩ | ⟨rest', hrest, rfl⟩)
      · simp at hnil
      · rw [hrest]
        simp

theorem awaiting_concat : Awaiting (ns ++ [n]) ↔ n = .entered ∨ (Awaiting ns ∧ n.quiet = true) := by
  constructor
  · rintro ⟨before, between, h, hquiet⟩
    rcases concat_eq_append_cons.mp h with ⟨_, _, rfl⟩ | ⟨rest, rfl, rfl⟩
    · exact .inl rfl
    · rw [List.all_append, Bool.and_eq_true] at hquiet
      exact .inr ⟨⟨before, rest, rfl, hquiet.1⟩, by simpa using hquiet.2⟩
  · rintro (rfl | ⟨⟨before, between, rfl, hquiet⟩, hn⟩)
    · exact ⟨ns, [], rfl, rfl⟩
    · exact ⟨before, between ++ [n], by simp, by simp [hquiet, hn]⟩

theorem probeOut_concat {caller : Nat} : ProbeOut (ns ++ [n]) caller ↔
    (n = .admitted caller ∧ Awaiting ns) ∨ (ProbeOut ns caller ∧ n ≠ .outcome caller) := by
  constructor
  · rintro ⟨before, after, h, hawaiting, hafter⟩
    rcases concat_eq_append_cons.mp h with ⟨_, rfl, rfl⟩ | ⟨rest, rfl, rfl⟩
    · exact .inl ⟨rfl, hawaiting⟩
    · exact .inr ⟨⟨before, rest, rfl, hawaiting, fun m hm => hafter m (by simp [hm])⟩,
        hafter n (by simp)⟩
  · rintro (⟨rfl, hawaiting⟩ | ⟨⟨before, after, rfl, hawaiting, hafter⟩, hn⟩)
    · exact ⟨ns, [], rfl, hawaiting, by simp⟩
    · refine ⟨before, after ++ [n], by simp, hawaiting, ?_⟩
      intro m hm
      rcases List.mem_append.mp hm with hm | hm
      · exact hafter m hm
      · rw [List.mem_singleton.mp hm]
        exact hn

theorem singleProbe_concat : SingleProbe (ns ++ [n]) ↔
    SingleProbe ns ∧ ∀ caller, n = .admitted caller → ∀ probe, ¬ ProbeOut ns probe := by
  constructor
  · intro h
    refine ⟨?_, ?_⟩
    · rintro before caller after rfl
      exact h before caller (after ++ [n]) (by simp)
    · rintro caller rfl
      exact h ns caller [] rfl
  · rintro ⟨hns, hn⟩ before caller after h
    rcases concat_eq_append_cons.mp h with ⟨_, rfl, rfl⟩ | ⟨rest, _, rfl⟩
    · exact hn caller rfl
    · exact hns before caller rest rfl

end Histories

/-- A breaker in use, with the callers whose probes are out. -/
structure WatchedBreaker where
  breaker : CircuitBreaker
  awaiting : Bool
  probes : List Nat

namespace WatchedBreaker

variable (cfg : CircuitConfig)

/-- A new breaker. -/
def start : WatchedBreaker := ⟨.withNow, false, []⟩

/-- A call of `state`. -/
def ask (now : Nat) (w : WatchedBreaker) : List ProbeNote × WatchedBreaker :=
  if w.breaker.cooledDown cfg now then
    ([.entered], { w with breaker := w.breaker.advance cfg now, awaiting := true })
  else ([], w)

/-- A recorded outcome, with the breaker after it. -/
def record (caller : Nat) (after : CircuitBreaker) (w : WatchedBreaker) :
    List ProbeNote × WatchedBreaker :=
  if w.breaker.state = .halfOpen then
    ([.outcome caller, .left], ⟨after, false, w.probes.filter (· ≠ caller)⟩)
  else ([.outcome caller], ⟨after, w.awaiting, w.probes.filter (· ≠ caller)⟩)

/-- One call, with its notes. -/
def step (w : WatchedBreaker) (c : Nat × BreakerCall) : List ProbeNote × WatchedBreaker :=
  match c.2 with
  | .state => w.ask cfg c.1
  | .tryAcquire caller =>
      let asked := w.ask cfg c.1
      match (w.breaker.tryAcquire cfg c.1).1 with
      | .error _ => asked
      | .ok _ =>
          (asked.1 ++ [.admitted caller],
            { asked.2 with
              awaiting := false
              probes := if asked.2.awaiting then caller :: w.probes else w.probes })
  | .recordSuccess caller => w.record caller w.breaker.recordSuccess
  | .recordFailure caller => w.record caller (w.breaker.recordFailure cfg c.1)

/-- The notes of a list of calls. -/
def history (w : WatchedBreaker) (cs : List (Nat × BreakerCall)) : List ProbeNote :=
  (replies (step cfg) w cs).flatten

/-- Nobody asks to be let through while a probe is out, unless the breaker is open and
its cooldown has not elapsed. -/
def ProbeAlone (w : WatchedBreaker) (c : Nat × BreakerCall) : Prop :=
  match c.2 with
  | .tryAcquire _ =>
      w.probes = [] ∨ (w.breaker.state = .opened ∧ w.breaker.cooledDown cfg c.1 = false)
  | _ => True

/-- The watched state belongs to the history. -/
structure Fits (ns : List ProbeNote) (w : WatchedBreaker) : Prop where
  awaiting : Awaiting ns ↔ w.awaiting = true
  halfOpen : w.awaiting = true → w.breaker.state = .halfOpen
  probes : ∀ caller, ProbeOut ns caller ↔ caller ∈ w.probes

variable {cfg} {ns : List ProbeNote} {w : WatchedBreaker} {now : Nat}

theorem Fits.start : Fits [] start where
  awaiting := iff_of_false not_awaiting_nil (by simp [WatchedBreaker.start])
  halfOpen h := by cases h
  probes _ := iff_of_false not_probeOut_nil (by simp [WatchedBreaker.start])

/-- A note that lets nobody through. -/
theorem singleProbe_note {n : ProbeNote} (hn : ∀ caller, n ≠ .admitted caller) :
    SingleProbe (ns ++ [n]) ↔ SingleProbe ns := by
  rw [singleProbe_concat]
  exact and_iff_left fun caller h => absurd h (hn caller)

theorem ask_spec (cfg : CircuitConfig) (h : Fits ns w) (now : Nat) :
    Fits (ns ++ (w.ask cfg now).1) (w.ask cfg now).2 ∧
      (SingleProbe (ns ++ (w.ask cfg now).1) ↔ SingleProbe ns) ∧
      (w.ask cfg now).2.breaker = w.breaker.advance cfg now ∧
      (w.ask cfg now).2.probes = w.probes := by
  unfold ask
  rcases CircuitBreaker.advance_cases cfg now w.breaker with
    ⟨_, hcooled, heq⟩ | ⟨hcooled, heq⟩
  · rw [if_pos hcooled]
    refine ⟨⟨?_, fun _ => by rw [heq], fun caller => ?_⟩, singleProbe_note (by simp), rfl, rfl⟩
    · exact iff_of_true (awaiting_concat.mpr (.inl rfl)) rfl
    · rw [probeOut_concat, ← h.probes caller]
      simp
  · rw [if_neg (by simp [hcooled]), heq, List.append_nil]
    exact ⟨h, Iff.rfl, rfl, rfl⟩

theorem record_spec (h : Fits ns w) (caller : Nat) (after : CircuitBreaker) :
    Fits (ns ++ (w.record caller after).1) (w.record caller after).2 ∧
      (SingleProbe (ns ++ (w.record caller after).1) ↔ SingleProbe ns) := by
  have hprobes : ∀ j, ProbeOut (ns ++ [.outcome caller]) j ↔ j ∈ w.probes.filter (· ≠ caller) := by
    intro j
    rw [probeOut_concat, List.mem_filter, ← h.probes j, decide_eq_true_iff]
    constructor
    · rintro (⟨hnote, _⟩ | ⟨hout, hnote⟩)
      · cases hnote
      · exact ⟨hout, fun hj => hnote (by rw [hj])⟩
    · rintro ⟨hout, hj⟩
      exact .inr ⟨hout, fun hnote => hj (by cases hnote; rfl)⟩
  have hsingle : SingleProbe (ns ++ [.outcome caller]) ↔ SingleProbe ns :=
    singleProbe_note (by simp)
  unfold record
  split_ifs with hhalf
  · have hsplit : ns ++ [.outcome caller, .left] = (ns ++ [.outcome caller]) ++ [.left] := by simp
    rw [hsplit]
    refine ⟨⟨?_, fun h => (by cases h), fun j => ?_⟩, ?_⟩
    · rw [awaiting_concat]
      simp [ProbeNote.quiet]
    · rw [probeOut_concat, hprobes j]
      simp
    · rw [singleProbe_note (by simp), hsingle]
  · refine ⟨⟨?_, fun haw => absurd (h.halfOpen haw) hhalf, hprobes⟩, hsingle⟩
    rw [awaiting_concat, h.awaiting]
    simp [ProbeNote.quiet]

/-- A call is refused exactly while the breaker is open and has not cooled down. -/
theorem tryAcquire_eq_error_iff {e : CircuitError} :
    (w.breaker.tryAcquire cfg now).1 = .error e ↔
      w.breaker.state = .opened ∧ w.breaker.cooledDown cfg now = false := by
  cases e
  rcases CircuitBreaker.advance_cases cfg now w.breaker with
    ⟨hstate, hcooled, heq⟩ | ⟨hcooled, heq⟩
  · simp [CircuitBreaker.tryAcquire, heq, hcooled]
  · cases hstate : w.breaker.state <;> simp [CircuitBreaker.tryAcquire, heq, hcooled, hstate]

/-- **One call** keeps the history and the state together, and breaks the rule of the
single probe exactly if it is let through while a probe is out. -/
theorem step_spec (cfg : CircuitConfig) (h : Fits ns w) (c : Nat × BreakerCall) :
    Fits (ns ++ (w.step cfg c).1) (w.step cfg c).2 ∧
      (SingleProbe (ns ++ (w.step cfg c).1) ↔ SingleProbe ns ∧ ProbeAlone cfg w c) := by
  obtain ⟨now, call⟩ := c
  cases call with
  | state =>
      obtain ⟨hfits, hsingle, _⟩ := ask_spec cfg h now
      exact ⟨hfits, hsingle.trans (and_iff_left trivial).symm⟩
  | recordSuccess caller =>
      obtain ⟨hfits, hsingle⟩ := record_spec h caller w.breaker.recordSuccess
      exact ⟨hfits, hsingle.trans (and_iff_left trivial).symm⟩
  | recordFailure caller =>
      obtain ⟨hfits, hsingle⟩ := record_spec h caller (w.breaker.recordFailure cfg now)
      exact ⟨hfits, hsingle.trans (and_iff_left trivial).symm⟩
  | tryAcquire caller =>
      obtain ⟨hfits, hsingle, hbreaker, hprobes⟩ := ask_spec cfg h now
      unfold step
      dsimp only
      cases hres : (w.breaker.tryAcquire cfg now).1 with
      | error e =>
          exact ⟨hfits, hsingle.trans (and_iff_left (.inr (tryAcquire_eq_error_iff.mp hres))).symm⟩
      | ok _ =>
          have hopen : ¬ (w.breaker.state = .opened ∧ w.breaker.cooledDown cfg now = false) := by
            intro hshut
            rw [tryAcquire_eq_error_iff (e := .opened) |>.mpr hshut] at hres
            cases hres
          dsimp only
          rw [← List.append_assoc]
          refine ⟨⟨?_, fun h => (by cases h), fun j => ?_⟩, ?_⟩
          · rw [awaiting_concat]
            simp [ProbeNote.quiet]
          · rw [probeOut_concat, hfits.awaiting, hfits.probes j, hprobes]
            cases (w.ask cfg now).2.awaiting <;> simp [eq_comm]
          · rw [singleProbe_concat, hsingle]
            refine and_congr_right fun _ => ?_
            have hnone : (∀ probe, ¬ ProbeOut (ns ++ (w.ask cfg now).1) probe) ↔ w.probes = [] := by
              simp only [hfits.probes, hprobes, List.eq_nil_iff_forall_not_mem]
            rw [ProbeAlone, or_iff_left hopen, ← hnone]
            exact ⟨fun h => h caller rfl, fun h _ _ => h⟩

theorem singleProbe_replies (cfg : CircuitConfig) (cs : List (Nat × BreakerCall)) :
    ∀ {ns : List ProbeNote} {w : WatchedBreaker}, Fits ns w →
      (SingleProbe (ns ++ w.history cfg cs) ↔
        SingleProbe ns ∧ AllMeet (step cfg) (ProbeAlone cfg) w cs) := by
  induction cs with
  | nil =>
      intro ns w _
      simp [history, replies, AllMeet]
  | cons c cs ih =>
      intro ns w h
      obtain ⟨hfits, hsingle⟩ := step_spec cfg h c
      have hcons : ns ++ w.history cfg (c :: cs) =
          (ns ++ (w.step cfg c).1) ++ (w.step cfg c).2.history cfg cs := by
        simp [history, replies]
      rw [hcons, ih hfits, hsingle, AllMeet, and_assoc]

/-- **A single call probes the service** in every run exactly if nobody asks to be let
through while a probe is out, unless the breaker is open in its cooldown. -/
theorem singleProbe_iff (cs : List (Nat × BreakerCall)) :
    SingleProbe (start.history cfg cs) ↔ AllMeet (step cfg) (ProbeAlone cfg) start cs := by
  have h := singleProbe_replies cfg cs Fits.start
  rw [List.nil_append] at h
  rw [h]
  exact and_iff_right singleProbe_nil

/-- Two callers ask after the cooldown, and both are let through. -/
theorem secondProbe_admitted : ¬ SingleProbe (start.history ⟨1, 10⟩
    [(0, .tryAcquire 1), (0, .recordFailure 1), (10, .tryAcquire 2), (10, .tryAcquire 3)]) := by
  intro h
  exact h [.admitted 1, .outcome 1, .entered, .admitted 2] 3 [] rfl 2
    ⟨[.admitted 1, .outcome 1, .entered], [], rfl, ⟨[.admitted 1, .outcome 1], [], rfl, rfl⟩,
      by simp⟩

end WatchedBreaker

end OrbitOpenEO
