import Mathlib.Data.List.Chain
import Mathlib.Data.List.Nodup
import Mathlib.Data.List.Perm.Subperm
import Mathlib.Data.Nat.Find
import Mathlib.Logic.Function.Basic
import Mathlib.Logic.Relation
import Mathlib.Tactic.Common

/-!
# Recursion with a memory

A node of a graph asks for the values of other nodes, one after the other, and ends with a
value or an error.  The plain recursion (`plain`) just follows the questions; it ends
exactly where no question leads round in a circle.

A memoised evaluator (`MemoEval`) keeps the values of finished nodes, and a list of the nodes
in progress so that it stops where a node would wait for itself.  It may also refuse to go
below some depth.  What it returns is what the plain recursion returns, or its own refusal
(`run_settled`); which refusals there are can be read off the questions that are really asked.
-/

namespace OrbitOpenEO
namespace Lib

open Relation

/-- Code that asks for the values of nodes and ends with a result or an error. -/
inductive Asking (ι V E α : Type) : Type
  | done (a : α)
  | fail (e : E)
  | ask (i : ι) (next : V → Asking ι V E α)

namespace Asking

variable {ι V E α β : Type}

/-- Sequencing. -/
def bind : Asking ι V E α → (α → Asking ι V E β) → Asking ι V E β
  | .done a, f => f a
  | .fail e, _ => .fail e
  | .ask i next, f => .ask i fun v => (next v).bind f

instance : Monad (Asking ι V E) where
  pure := .done
  bind := Asking.bind

section Sequence

variable (f : α → Asking ι V E β)

@[simp] theorem done_bind (a : α) : (Asking.done a >>= f) = f a := rfl

@[simp] theorem pure_bind (a : α) : ((pure a : Asking ι V E α) >>= f) = f a := rfl

@[simp] theorem fail_bind (e : E) : (Asking.fail e >>= f) = .fail e := rfl

@[simp] theorem ask_bind (i : ι) (next : V → Asking ι V E α) :
    (Asking.ask i next >>= f) = .ask i fun v => next v >>= f := rfl

end Sequence

theorem asking_bind_assoc {γ : Type} (p : Asking ι V E α) (f : α → Asking ι V E β)
    (g : β → Asking ι V E γ) : (p >>= f) >>= g = p >>= fun a => f a >>= g := by
  induction p with
  | done _ =>
      rfl
  | fail _ =>
      rfl
  | ask i next ih =>
      exact congrArg (Asking.ask i) (funext ih)

section Answers

variable (value : ι → Except E V → Prop)

/-- How the code ends when the nodes have these values. -/
def Gives : Asking ι V E α → Except E α → Prop
  | .done a, r => r = .ok a
  | .fail e, r => r = .error e
  | .ask i next, r =>
      (∃ v, value i (.ok v) ∧ Gives (next v) r) ∨ ∃ e, value i (.error e) ∧ r = .error e

/-- The code gets to ask for a node. -/
def Reaches : Asking ι V E α → ι → Prop
  | .done _, _ => False
  | .fail _, _ => False
  | .ask i next, j => j = i ∨ ∃ v, value i (.ok v) ∧ Reaches (next v) j

/-- The code gets all its answers and ends with an error of its own. -/
def Stops : Asking ι V E α → E → Prop
  | .done _, _ => False
  | .fail e', e => e' = e
  | .ask i next, e => ∃ v, value i (.ok v) ∧ Stops (next v) e

variable {value}

theorem gives_error_iff {p : Asking ι V E α} {e : E} :
    Gives value p (.error e) ↔ Stops value p e ∨ ∃ j, Reaches value p j ∧ value j (.error e) := by
  induction p with
  | done a =>
      simp [Gives, Stops, Reaches]
  | fail e' =>
      simp [Gives, Stops, Reaches, eq_comm]
  | ask i next ih =>
      constructor
      · rintro (⟨v, hv, hnext⟩ | ⟨e', he', heq⟩)
        · rcases (ih v).mp hnext with hstops | ⟨j, hj, he⟩
          · exact .inl ⟨v, hv, hstops⟩
          · exact .inr ⟨j, .inr ⟨v, hv, hj⟩, he⟩
        · cases heq
          exact .inr ⟨i, .inl rfl, he'⟩
      · rintro (⟨v, hv, hstops⟩ | ⟨j, rfl | ⟨v, hv, hj⟩, he⟩)
        · exact .inl ⟨v, hv, (ih v).mpr (.inl hstops)⟩
        · exact .inr ⟨e, he, rfl⟩
        · exact .inl ⟨v, hv, (ih v).mpr (.inr ⟨j, hj, he⟩)⟩

end Answers

/-- The answers of an oracle, which may know too little. -/
def answerBy (node : ι → Option (Except E V)) :
    Asking ι V E α → Option (Except E α)
  | .done a => some (.ok a)
  | .fail e => some (.error e)
  | .ask i next =>
      match node i with
      | none => none
      | some (.error e) => some (.error e)
      | some (.ok v) => answerBy node (next v)

section Plain

variable (body : ι → Asking ι V E V)

/-- The plain recursion, down to a depth. -/
def plain : Nat → ι → Option (Except E V)
  | 0, _ => none
  | depth + 1, i => answerBy (plain depth) (body i)

/-- The plain recursion ends with this result. -/
def Yields (i : ι) (r : Except E V) : Prop := ∃ depth, plain body depth i = some r

/-- In the plain recursion one node asks for another. -/
def Asks (i j : ι) : Prop := Reaches (Yields body) (body i) j

/-- The questions lead from a node into a circle. -/
def CycleFrom (i : ι) : Prop := ∃ j, ReflTransGen (Asks body) i j ∧ TransGen (Asks body) j j

variable {body}

theorem answerBy_mono {node node' : ι → Option (Except E V)}
    (h : ∀ i r, node i = some r → node' i = some r)
    {p : Asking ι V E α} {r : Except E α}
    (hp : answerBy node p = some r) : answerBy node' p = some r := by
  induction p with
  | done a =>
      exact hp
  | fail e =>
      exact hp
  | ask i next ih =>
      unfold answerBy at hp ⊢
      cases hi : node i with
      | none =>
          rw [hi] at hp
          cases hp
      | some x =>
          rw [hi] at hp
          rw [h i x hi]
          cases x with
          | error e =>
              exact hp
          | ok v =>
              exact ih v hp

theorem plain_succ {depth : Nat} {i : ι} {r : Except E V} (h : plain body depth i = some r) :
    plain body (depth + 1) i = some r := by
  induction depth generalizing i r with
  | zero =>
      cases h
  | succ depth ih =>
      exact answerBy_mono (fun i r => ih) h

/-- A result that is reached at some depth is reached at any greater one. -/
theorem plain_mono {m n : Nat} (hmn : m ≤ n) {i : ι} {r : Except E V}
    (h : plain body m i = some r) : plain body n i = some r := by
  induction n, hmn using Nat.le_induction with
  | base =>
      exact h
  | succ n hn ih =>
      exact plain_succ ih

theorem Yields.unique {i : ι} {r r' : Except E V} (h : Yields body i r)
    (h' : Yields body i r') : r = r' := by
  obtain ⟨m, hm⟩ := h
  obtain ⟨n, hn⟩ := h'
  have hm' := plain_mono (Nat.le_max_left m n) hm
  have hn' := plain_mono (Nat.le_max_right m n) hn
  exact Option.some.inj (hm'.symm.trans hn')

theorem gives_of_answerBy {depth : Nat} {p : Asking ι V E α}
    {r : Except E α} (h : answerBy (plain body depth) p = some r) :
    Gives (Yields body) p r := by
  induction p with
  | done a =>
      exact (Option.some.inj h).symm
  | fail e =>
      exact (Option.some.inj h).symm
  | ask i next ih =>
      unfold answerBy at h
      cases hi : plain body depth i with
      | none =>
          rw [hi] at h
          cases h
      | some x =>
          rw [hi] at h
          cases x with
          | error e =>
              exact .inr ⟨e, ⟨depth, hi⟩, (Option.some.inj h).symm⟩
          | ok v =>
              exact .inl ⟨v, ⟨depth, hi⟩, ih v h⟩

theorem exists_answerBy_of_gives {p : Asking ι V E α} {r : Except E α}
    (h : Gives (Yields body) p r) : ∃ depth, answerBy (plain body depth) p = some r := by
  induction p with
  | done a =>
      exact ⟨0, congrArg some (Eq.symm h)⟩
  | fail e =>
      exact ⟨0, congrArg some (Eq.symm h)⟩
  | ask i next ih =>
      rcases h with ⟨v, ⟨m, hm⟩, hnext⟩ | ⟨e, ⟨m, hm⟩, rfl⟩
      · obtain ⟨n, hn⟩ := ih v hnext
        refine ⟨max m n, ?_⟩
        unfold answerBy
        rw [plain_mono (Nat.le_max_left m n) hm]
        exact answerBy_mono (fun i r => plain_mono (Nat.le_max_right m n)) hn
      · refine ⟨m, ?_⟩
        unfold answerBy
        rw [hm]

/-- The plain recursion is what follows the questions. -/
theorem yields_iff {i : ι} {r : Except E V} :
    Yields body i r ↔ Gives (Yields body) (body i) r := by
  constructor
  · rintro ⟨depth, h⟩
    cases depth with
    | zero =>
        cases h
    | succ depth =>
        exact gives_of_answerBy h
  · intro h
    obtain ⟨depth, hdepth⟩ := exists_answerBy_of_gives h
    exact ⟨depth + 1, hdepth⟩

/-- Down to a depth, an error is the code's own or that of a node it asks for. -/
theorem error_of_answerBy {depth : Nat} {p : Asking ι V E α} {e : E}
    (h : answerBy (plain body depth) p = some (.error e)) :
    Stops (Yields body) p e ∨
      ∃ j, Reaches (Yields body) p j ∧ plain body depth j = some (.error e) := by
  induction p with
  | done a =>
      cases h
  | fail e' =>
      exact .inl (Except.error.inj (Option.some.inj h))
  | ask i next ih =>
      unfold answerBy at h
      cases hi : plain body depth i with
      | none =>
          rw [hi] at h
          cases h
      | some x =>
          rw [hi] at h
          cases x with
          | error e' =>
              cases h
              exact .inr ⟨i, .inl rfl, hi⟩
          | ok v =>
              rcases ih v h with hstops | ⟨j, hj, he⟩
              · exact .inl ⟨v, ⟨depth, hi⟩, hstops⟩
              · exact .inr ⟨j, .inr ⟨v, ⟨depth, hi⟩, hj⟩, he⟩

/-- An error comes from a node that is reached. -/
theorem yields_error_iff {i : ι} {e : E} :
    Yields body i (.error e) ↔
      ∃ j, ReflTransGen (Asks body) i j ∧ Stops (Yields body) (body j) e := by
  constructor
  · rintro ⟨depth, h⟩
    induction depth generalizing i with
    | zero =>
        cases h
    | succ depth ih =>
        rcases error_of_answerBy h with hstops | ⟨j, hask, hj⟩
        · exact ⟨i, .refl, hstops⟩
        · obtain ⟨k, hjk, hstops⟩ := ih hj
          exact ⟨k, .head hask hjk, hstops⟩
  · rintro ⟨j, hij, hstops⟩
    induction hij using ReflTransGen.head_induction_on with
    | refl =>
        exact yields_iff.mpr (gives_error_iff.mpr (.inl hstops))
    | head hask _ ih =>
        exact yields_iff.mpr (gives_error_iff.mpr (.inr ⟨_, hask, ih⟩))

/-- A node that is asked for ends at the depth of its answer. -/
theorem plain_of_reaches {depth : Nat} {p : Asking ι V E α}
    {r : Except E α} (h : answerBy (plain body depth) p = some r) {j : ι}
    (hj : Reaches (Yields body) p j) : ∃ x, plain body depth j = some x := by
  induction p with
  | done a =>
      cases hj
  | fail e =>
      cases hj
  | ask i next ih =>
      unfold answerBy at h
      cases hi : plain body depth i with
      | none =>
          rw [hi] at h
          cases h
      | some x =>
          rcases hj with rfl | ⟨v, hv, hnext⟩
          · exact ⟨x, hi⟩
          · rw [hi, Yields.unique ⟨depth, hi⟩ hv] at h
            exact ih v h hnext

/-- Along questions the depth needed goes down. -/
theorem plain_of_transGen {depth : Nat} {i j : ι} {r : Except E V}
    (h : plain body depth i = some r) (hij : TransGen (Asks body) i j) :
    ∃ depth' < depth, ∃ x, plain body depth' j = some x := by
  induction hij with
  | single hask =>
      cases depth with
      | zero =>
          cases h
      | succ depth =>
          exact ⟨depth, Nat.lt_succ_self depth, plain_of_reaches h hask⟩
  | tail _ hask ih =>
      obtain ⟨depth', hlt, x, hx⟩ := ih
      cases depth' with
      | zero =>
          cases hx
      | succ n =>
          exact ⟨n, (Nat.lt_succ_self n).trans hlt, plain_of_reaches hx hask⟩

/-- Where the plain recursion ends, the questions do not lead into a circle. -/
theorem Yields.not_cycleFrom {i : ι} {r : Except E V} (h : Yields body i r) :
    ¬ CycleFrom body i := by
  rintro ⟨j, hij, hjj⟩
  obtain ⟨depth, hdepth⟩ := h
  have hj : ∃ depth x, plain body depth j = some x := by
    rcases reflTransGen_iff_eq_or_transGen.mp hij with rfl | htrans
    · exact ⟨depth, r, hdepth⟩
    · obtain ⟨depth', -, hx⟩ := plain_of_transGen hdepth htrans
      exact ⟨depth', hx⟩
  -- The smallest depth at which the circle ends would not be the smallest.
  classical
  obtain ⟨x, hx⟩ := Nat.find_spec hj
  obtain ⟨depth', hlt, hsmaller⟩ := plain_of_transGen hx hjj
  exact Nat.find_min hj hlt hsmaller

end Plain

section Sequence

variable {value : ι → Except E V → Prop} (f : α → Asking ι V E β) (p : Asking ι V E α)

theorem stops_bind_iff (e : E) :
    Stops value (p >>= f) e ↔
      Stops value p e ∨ ∃ a, Gives value p (.ok a) ∧ Stops value (f a) e := by
  induction p with
  | done a =>
      simp [Stops, Gives]
  | fail e' =>
      simp [Stops, Gives]
  | ask i next ih =>
      simp only [ask_bind, Stops, Gives, ih]
      constructor
      · rintro ⟨v, hv, hstops | ⟨a, ha, hstops⟩⟩
        · exact .inl ⟨v, hv, hstops⟩
        · exact .inr ⟨a, .inl ⟨v, hv, ha⟩, hstops⟩
      · rintro (⟨v, hv, hstops⟩ | ⟨a, ⟨v, hv, ha⟩ | ⟨e', -, he⟩, hstops⟩)
        · exact ⟨v, hv, .inl hstops⟩
        · exact ⟨v, hv, .inr ⟨a, ha, hstops⟩⟩
        · cases he

theorem gives_bind_iff (r : Except E β) :
    Gives value (p >>= f) r ↔
      (∃ a, Gives value p (.ok a) ∧ Gives value (f a) r) ∨
        ∃ e, Gives value p (.error e) ∧ r = .error e := by
  induction p with
  | done a =>
      simp [Gives]
  | fail e =>
      simp [Gives]
  | ask i next ih =>
      simp only [ask_bind, Gives, ih]
      constructor
      · rintro (⟨v, hv, ⟨a, ha, hr⟩ | ⟨e, he, hr⟩⟩ | ⟨e, he, hr⟩)
        · exact .inl ⟨a, .inl ⟨v, hv, ha⟩, hr⟩
        · exact .inr ⟨e, .inl ⟨v, hv, he⟩, hr⟩
        · exact .inr ⟨e, .inr ⟨e, he, rfl⟩, hr⟩
      · rintro (⟨a, ⟨v, hv, ha⟩ | ⟨e, -, he⟩, hr⟩ | ⟨e, ⟨v, hv, he⟩ | ⟨e', he', heq⟩, hr⟩)
        · exact .inl ⟨v, hv, .inl ⟨a, ha, hr⟩⟩
        · cases he
        · exact .inl ⟨v, hv, .inr ⟨e, he, hr⟩⟩
        · cases heq
          exact .inr ⟨e, he', hr⟩

theorem reaches_bind_left {i : ι} (h : Reaches value p i) : Reaches value (p >>= f) i := by
  induction p with
  | done _ =>
      cases h
  | fail _ =>
      cases h
  | ask j next ih =>
      rcases h with rfl | ⟨v, hv, hnext⟩
      · exact .inl rfl
      · exact .inr ⟨v, hv, ih v hnext⟩

end Sequence

/-- Whatever the answers, the code's own errors satisfy `Q`. -/
def AllFails (Q : E → Prop) : Asking ι V E α → Prop
  | .done _ => True
  | .fail e => Q e
  | .ask _ next => ∀ v, AllFails Q (next v)

theorem AllFails.bind {Q : E → Prop} {p : Asking ι V E α} {f : α → Asking ι V E β}
    (hp : AllFails Q p) (hf : ∀ a, AllFails Q (f a)) : AllFails Q (p >>= f) := by
  induction p with
  | done a =>
      exact hf a
  | fail e =>
      exact hp
  | ask i next ih =>
      exact fun v => ih v (hp v)

theorem AllFails.mono {Q R : E → Prop} (h : ∀ e, Q e → R e) {p : Asking ι V E α}
    (hp : AllFails Q p) : AllFails R p := by
  induction p with
  | done a =>
      trivial
  | fail e =>
      exact h e hp
  | ask i next ih =>
      exact fun v => ih v (hp v)

theorem AllFails.of_stops {Q : E → Prop} {value : ι → Except E V → Prop} {p : Asking ι V E α}
    (hp : AllFails Q p) {e : E} (h : Stops value p e) : Q e := by
  induction p with
  | done a =>
      cases h
  | fail e' =>
      have heq : e' = e := h
      exact heq ▸ hp
  | ask i next ih =>
      obtain ⟨v, -, hnext⟩ := h
      exact ih v (hp v) hnext

/-- The plain recursion has no other errors than the nodes. -/
theorem Yields.error_of_allFails {Q : E → Prop} {body : ι → Asking ι V E V}
    (hbody : ∀ i, AllFails Q (body i)) {i : ι} {e : E} (h : Yields body i (.error e)) : Q e := by
  obtain ⟨j, -, hstops⟩ := yields_error_iff.mp h
  exact (hbody j).of_stops hstops

section Run

variable {σ : Type}

/-- The code, run with a computation for every node. -/
def runWith (node : ι → StateT σ (Except E) V) : Asking ι V E α → StateT σ (Except E) α
  | .done a => pure a
  | .fail e => throw e
  | .ask i next => node i >>= fun v => runWith node (next v)

variable (node : ι → StateT σ (Except E) V)

theorem runWith_bind (p : Asking ι V E α) (f : α → Asking ι V E β) :
    runWith node (p >>= f) = runWith node p >>= fun a => runWith node (f a) := by
  induction p with
  | done a =>
      rfl
  | fail e =>
      rfl
  | ask i next ih =>
      simp only [ask_bind, runWith, ih, bind_assoc]

end Run

end Asking

open Asking

/-- A memoised evaluator: the code of its nodes and its own refusals. -/
structure MemoEval (ι V E : Type) where
  nodes : List ι
  body : ι → Asking ι V E V
  /-- A name that is no node asks for nothing. -/
  unknown : ∀ i ∉ nodes, ∃ e, body i = .fail e
  /-- The refusal of a node in progress. -/
  cyclic : ι → E
  /-- The refusal of a depth. -/
  tooDeep : Nat → Option E
  /-- The refusal to evaluate a node at a depth. -/
  cutShort : Nat → ι → Option E

namespace MemoEval

variable {ι V E α : Type} [DecidableEq ι] (M : MemoEval ι V E)

/-- What is done at a node at a depth. -/
def bodyAt (depth : Nat) (i : ι) : Asking ι V E V :=
  match M.cutShort depth i with
  | some e => .fail e
  | none => M.body i

/-- The evaluator.  The recursion is bounded by a number, and `exhausted` is what is said when
the bound is not enough. -/
def run (exhausted : ι → E) :
    Nat → List ι → ι → StateT (ι → Option V) (Except E) V
  | 0, _, i => throw (exhausted i)
  | bound + 1, stack, i =>
      match M.tooDeep stack.length with
      | some e => throw e
      | none => do
          match (← get) i with
          | some v => pure v
          | none =>
              if i ∈ stack then throw (M.cyclic i)
              else do
                let v ← runWith (run exhausted bound (stack ++ [i])) (M.bodyAt stack.length i)
                modify (fun memo => Function.update memo i (some v))
                pure v

/-- The finished nodes have the values that the plain recursion gives. -/
def Tracks (memo : ι → Option V) : Prop := ∀ i v, memo i = some v → Yields M.body i (.ok v)

/-- A chain of questions from a node on. -/
def Path (root : ι) (path : List ι) : Prop :=
  path.head? = some root ∧ path.IsChain (Asks M.body)

/-- The refusal of a node in a circle of questions. -/
def CircleRefusal (root : ι) (e : E) : Prop :=
  ∃ j, ReflTransGen (Asks M.body) root j ∧ TransGen (Asks M.body) j j ∧ e = M.cyclic j

/-- The refusal of a depth to which questions lead. -/
def DepthRefusal (root : ι) (e : E) : Prop :=
  ∃ path j, M.Path root (path ++ [j]) ∧
    (M.tooDeep path.length = some e ∨ M.cutShort path.length j = some e)

/-- What an evaluation ends with: what is given, or a refusal. -/
inductive Settled (root : ι) (given : Except E α → Prop) : Except E (α × (ι → Option V)) → Prop
  | ok {a : α} {memo : ι → Option V} :
      given (.ok a) → M.Tracks memo → Settled root given (.ok (a, memo))
  | error {e : E} : given (.error e) → Settled root given (.error e)
  | refused {e : E} :
      M.CircleRefusal root e ∨ M.DepthRefusal root e → Settled root given (.error e)

section Paths

omit [DecidableEq ι]

variable {M} {root i j : ι} {path : List ι}

theorem path_nil : M.Path i [i] := ⟨rfl, .singleton i⟩

theorem Path.reflTransGen (h : M.Path root (path ++ [i])) :
    ReflTransGen (Asks M.body) root i :=
  h.2.concat_induction_head _ path (List.head_eq_iff_head?_eq_some _ |>.mpr h.1)
    (fun _ _ hxy hx => hx.tail hxy) .refl

/-- A path that comes back to a node on it shows a circle. -/
theorem Path.transGen_of_mem (h : M.Path root (path ++ [i])) (hi : i ∈ path) :
    TransGen (Asks M.body) i i := by
  obtain ⟨before, after, rfl⟩ := List.append_of_mem hi
  have hchain := h.2
  rw [List.append_assoc, List.cons_append, List.isChain_split] at hchain
  cases after with
  | nil =>
      exact .single (List.isChain_pair.mp hchain.2)
  | cons k after =>
      obtain ⟨hik, hrest⟩ := List.isChain_cons_cons.mp hchain.2
      have hback : M.Path k ((k :: after) ++ [i]) := ⟨rfl, hrest⟩
      exact .head' hik hback.reflTransGen

theorem Path.snoc (h : M.Path root (path ++ [i])) (hask : Asks M.body i j) :
    M.Path root (path ++ [i] ++ [j]) := by
  refine ⟨?_, h.2.append (.singleton j) fun x hx y hy => ?_⟩
  · rw [List.head?_append, h.1]
    rfl
  · rw [List.getLast?_concat, Option.mem_some_iff] at hx
    rw [List.head?_singleton, Option.mem_some_iff] at hy
    exact hx ▸ hy ▸ hask

end Paths

section Equations

variable {M} {exhausted : ι → E} {bound : Nat} {stack : List ι} {i : ι} {memo : ι → Option V}

theorem run_tooDeep {e : E} (h : M.tooDeep stack.length = some e) :
    (M.run exhausted (bound + 1) stack i).run memo = .error e := by
  rw [run]
  simp only [h]
  rfl

variable (hdeep : M.tooDeep stack.length = none)
include hdeep

theorem run_finished {v : V} (hmemo : memo i = some v) :
    (M.run exhausted (bound + 1) stack i).run memo = .ok (v, memo) := by
  rw [run]
  simp only [hdeep, get, getThe, MonadStateOf.get, StateT.get, StateT.run, Bind.bind, StateT.bind,
    Except.bind, Pure.pure, Except.pure, hmemo]
  rfl

variable (hmemo : memo i = none)
include hmemo

theorem run_inProgress (hi : i ∈ stack) :
    (M.run exhausted (bound + 1) stack i).run memo = .error (M.cyclic i) := by
  rw [run]
  simp only [hdeep, get, getThe, MonadStateOf.get, StateT.get, StateT.run, Bind.bind, StateT.bind,
    Except.bind, Pure.pure, Except.pure, hmemo, hi, if_true]
  rfl

/-- A node that is neither finished nor in progress is evaluated, and its value is kept. -/
theorem run_fresh (hi : i ∉ stack) :
    (M.run exhausted (bound + 1) stack i).run memo =
      ((runWith (M.run exhausted bound (stack ++ [i])) (M.bodyAt stack.length i)).run memo).map
        fun out => (out.1, Function.update out.2 i (some out.1)) := by
  rw [run]
  generalize runWith (M.run exhausted bound (stack ++ [i])) (M.bodyAt stack.length i) = body
  simp only [hdeep, get, getThe, MonadStateOf.get, StateT.get, StateT.run, Bind.bind, StateT.bind,
    Except.bind, Pure.pure, Except.pure, hmemo, hi, if_false]
  cases body memo <;> rfl

end Equations

section Settled

variable {M} {root i : ι} {memo : ι → Option V}

omit [DecidableEq ι] in
/-- Code is settled if the nodes that it gets to ask for are. -/
theorem runWith_settled {node : ι → StateT (ι → Option V) (Except E) V} {p : Asking ι V E α}
    (h : ∀ j, Reaches (Yields M.body) p j → ∀ memo, M.Tracks memo →
      M.Settled root (Yields M.body j) ((node j).run memo))
    (hmemo : M.Tracks memo) :
    M.Settled root (Gives (Yields M.body) p) ((runWith node p).run memo) := by
  induction p generalizing memo with
  | done a =>
      exact .ok rfl hmemo
  | fail e =>
      exact .error rfl
  | ask j next ih =>
      have hj := h j (.inl rfl) memo hmemo
      unfold runWith
      rw [StateT.run_bind]
      generalize (node j).run memo = out at hj
      cases hj with
      | @ok v memo' hv hmemo' =>
          have hnext := ih v (fun k hk => h k (.inr ⟨v, hv, hk⟩)) hmemo'
          change M.Settled root _ ((runWith node (next v)).run memo')
          generalize (runWith node (next v)).run memo' = out at hnext
          cases hnext with
          | ok ha hmemo'' =>
              exact .ok (.inl ⟨v, hv, ha⟩) hmemo''
          | error he =>
              exact .error (.inl ⟨v, hv, he⟩)
          | refused he =>
              exact .refused he
      | error he =>
          exact .error (.inr ⟨_, he, rfl⟩)
      | refused he =>
          exact .refused he

omit [DecidableEq ι] in
theorem nodup_snoc {stack : List ι} (h : stack.Nodup) (hi : i ∉ stack) :
    (stack ++ [i]).Nodup :=
  List.nodup_append.mpr ⟨h, List.nodup_singleton i, fun _ hj _ hk hjk =>
    hi (List.mem_singleton.mp hk ▸ hjk ▸ hj)⟩

omit [DecidableEq ι] in
theorem forall_mem_snoc {stack nodes : List ι} (h : ∀ j ∈ stack, j ∈ nodes) (hi : i ∈ nodes) :
    ∀ j ∈ stack ++ [i], j ∈ nodes :=
  List.forall_mem_append.mpr ⟨h, List.forall_mem_singleton.mpr hi⟩

theorem tracks_update (hmemo : M.Tracks memo) {v : V} (hv : Yields M.body i (.ok v)) :
    M.Tracks (Function.update memo i (some v)) := by
  intro j w hw
  by_cases hji : j = i
  · rw [hji, Function.update_self] at hw
    cases hw
    rw [hji]
    exact hv
  · rw [Function.update_of_ne hji] at hw
    exact hmemo j w hw

/-- What is done at a node is settled, if the nodes that it asks for are. -/
theorem body_settled {node : ι → StateT (ι → Option V) (Except E) V} {stack : List ι}
    (hpath : M.Path root (stack ++ [i]))
    (h : i ∈ M.nodes → ∀ j, Asks M.body i j → ∀ memo, M.Tracks memo →
      M.Settled root (Yields M.body j) ((node j).run memo))
    (hmemo : M.Tracks memo) :
    M.Settled root (Yields M.body i) ((runWith node (M.bodyAt stack.length i)).run memo) := by
  unfold bodyAt
  cases hshort : M.cutShort stack.length i with
  | some e =>
      exact .refused (.inr ⟨stack, i, hpath, .inr hshort⟩)
  | none =>
      have hasks : ∀ j, Asks M.body i j → i ∈ M.nodes := by
        intro j hj
        by_contra hi
        obtain ⟨e, he⟩ := M.unknown i hi
        unfold Asks at hj
        rw [he] at hj
        exact hj
      have hrun := runWith_settled (fun j hj => h (hasks j hj) j hj) hmemo
      generalize (runWith node (M.body i)).run memo = out at hrun
      cases hrun with
      | ok hv hmemo' =>
          exact .ok (yields_iff.mpr hv) hmemo'
      | error he =>
          exact .error (yields_iff.mpr he)
      | refused he =>
          exact .refused he

/-- Every evaluation is settled: on a path of questions down to a node, with a bound that is
more than the nodes left. -/
theorem run_settled (exhausted : ι → E) {bound : Nat} {stack : List ι} (hnodup : stack.Nodup)
    (hnodes : ∀ j ∈ stack, j ∈ M.nodes) (hbound : M.nodes.length < bound + stack.length)
    (hpath : M.Path root (stack ++ [i])) (hmemo : M.Tracks memo) :
    M.Settled root (Yields M.body i) ((M.run exhausted bound stack i).run memo) := by
  induction bound generalizing stack i memo with
  | zero =>
      -- More nodes in progress than there are.
      have hle : stack.length ≤ M.nodes.length := (List.subperm_of_subset hnodup hnodes).length_le
      omega
  | succ bound ih =>
      cases hdeep : M.tooDeep stack.length with
      | some e =>
          rw [run_tooDeep hdeep]
          exact .refused (.inr ⟨stack, i, hpath, .inl hdeep⟩)
      | none =>
          cases hfound : memo i with
          | some v =>
              rw [run_finished hdeep hfound]
              exact .ok (hmemo i v hfound) hmemo
          | none =>
              by_cases hi : i ∈ stack
              · rw [run_inProgress hdeep hfound hi]
                exact .refused (.inl ⟨i, hpath.reflTransGen, hpath.transGen_of_mem hi, rfl⟩)
              · rw [run_fresh hdeep hfound hi]
                have hnode : i ∈ M.nodes → ∀ j, Asks M.body i j → ∀ memo, M.Tracks memo →
                    M.Settled root (Yields M.body j)
                      ((M.run exhausted bound (stack ++ [i]) j).run memo) :=
                  fun hmem j hask memo hmemo =>
                    ih (nodup_snoc hnodup hi) (forall_mem_snoc hnodes hmem)
                      (by rw [List.length_append, List.length_singleton]; omega)
                      (hpath.snoc hask) hmemo
                have hbody := body_settled hpath hnode hmemo
                generalize (runWith _ (M.bodyAt stack.length i)).run memo = out at hbody
                cases hbody with
                | ok hv hmemo' =>
                    exact .ok hv (tracks_update hmemo' hv)
                | error he =>
                    exact .error he
                | refused he =>
                    exact .refused he

end Settled

/-- The recursion ends by itself: with a bound that is more than the nodes left, neither the
bound nor what is said when it is exhausted matters. -/
theorem run_bound (exhausted exhausted' : ι → E) {bound bound' : Nat} {stack : List ι}
    (hnodup : stack.Nodup) (hnodes : ∀ j ∈ stack, j ∈ M.nodes)
    (hbound : M.nodes.length < bound + stack.length)
    (hbound' : M.nodes.length < bound' + stack.length) (i : ι) :
    M.run exhausted bound stack i = M.run exhausted' bound' stack i := by
  have hle : stack.length ≤ M.nodes.length := (List.subperm_of_subset hnodup hnodes).length_le
  induction bound generalizing bound' stack i with
  | zero =>
      omega
  | succ bound ih =>
      cases bound' with
      | zero =>
          omega
      | succ bound' =>
          have hbody : i ∉ stack →
              runWith (M.run exhausted bound (stack ++ [i])) (M.bodyAt stack.length i) =
                runWith (M.run exhausted' bound' (stack ++ [i])) (M.bodyAt stack.length i) := by
            intro hi
            by_cases hmem : i ∈ M.nodes
            · have hnodup' := nodup_snoc hnodup hi
              have hnodes' := forall_mem_snoc hnodes hmem
              have hlength : (stack ++ [i]).length = stack.length + 1 := List.length_append
              congr 1
              funext j
              exact ih hnodup' hnodes' (by omega) (by omega) j
                (List.subperm_of_subset hnodup' hnodes').length_le
            · obtain ⟨e, he⟩ := M.unknown i hmem
              unfold bodyAt
              rw [he]
              cases M.cutShort stack.length i <;> rfl
          rw [run, run]
          cases M.tooDeep stack.length with
          | some e =>
              rfl
          | none =>
              refine bind_congr fun memo => ?_
              cases memo i with
              | some v =>
                  rfl
              | none =>
                  by_cases hi : i ∈ stack
                  · simp only [hi, if_true]
                  · simp only [hi, if_false]
                    rw [hbody hi]

/-- What an evaluation returns. -/
def result (exhausted : ι → E) (bound : Nat) (root : ι) : Except E V :=
  ((M.run exhausted bound [] root).run fun _ => none).map Prod.fst

section Root

variable {M} {root : ι} (exhausted : ι → E) {bound : Nat} (hbound : M.nodes.length < bound)
include hbound

/-- An evaluation returns what the plain recursion does, or a refusal. -/
theorem result_settled :
    Yields M.body root (M.result exhausted bound root) ∨
      ∃ e, M.result exhausted bound root = .error e ∧
        (M.CircleRefusal root e ∨ M.DepthRefusal root e) := by
  have htracks : M.Tracks fun _ => none := fun i v h => nomatch h
  have hrun := M.run_settled (i := root) exhausted List.nodup_nil
    (fun j hj => absurd hj List.not_mem_nil) hbound path_nil htracks
  unfold result
  generalize (M.run exhausted bound [] root).run (fun _ => none) = out at hrun
  cases hrun with
  | ok hv _ =>
      exact .inl hv
  | error he =>
      exact .inl he
  | refused he =>
      exact .inr ⟨_, rfl, he⟩

/-- Where no questions lead into a circle and none too deep, the memory changes nothing. -/
theorem yields_result (hcycle : ¬ CycleFrom M.body root) (hdeep : ∀ e, ¬ M.DepthRefusal root e) :
    Yields M.body root (M.result exhausted bound root) := by
  rcases result_settled exhausted hbound with h | ⟨e, -, ⟨j, hj, hjj, -⟩ | he⟩
  · exact h
  · exact absurd ⟨j, hj, hjj⟩ hcycle
  · exact absurd he (hdeep e)

/-- If the nodes do not report circles themselves, a circle is reported only where there is one. -/
theorem cycleFrom_of_result (hfails : ∀ i, AllFails (fun e => ∀ j, e ≠ M.cyclic j) (M.body i))
    (hdeep : ∀ j, ¬ M.DepthRefusal root (M.cyclic j)) {j : ι}
    (h : M.result exhausted bound root = .error (M.cyclic j)) : CycleFrom M.body root := by
  rcases result_settled exhausted hbound with hresult | ⟨e, he, ⟨k, hk, hkk, -⟩ | hrefused⟩
  · rw [h] at hresult
    exact absurd rfl (hresult.error_of_allFails hfails j)
  · exact ⟨k, hk, hkk⟩
  · rw [h] at he
    cases he
    exact absurd hrefused (hdeep j)

/-- What the plain recursion returns is returned. -/
theorem result_eq_iff {r : Except E V} (hdeep : ∀ e, ¬ M.DepthRefusal root e)
    (hr : ∀ j, r ≠ .error (M.cyclic j)) :
    M.result exhausted bound root = r ↔ Yields M.body root r := by
  constructor
  · intro h
    rcases result_settled exhausted hbound with h' | ⟨e, he, ⟨j, -, -, rfl⟩ | he'⟩
    · exact h ▸ h'
    · exact absurd (h.symm.trans he) (hr j)
    · exact absurd he' (hdeep e)
  · intro h
    exact (yields_result exhausted hbound h.not_cycleFrom hdeep).unique h

end Root

end MemoEval

end Lib
end OrbitOpenEO
