import OrbitOpenEO.PlainRecursion
import OrbitOpenEO.ScalarHandlers

/-!
# Panics of the numeric kernels

`clip` hands its bounds to `clamp` as they are, in the registry, in `apply` and in reducers.
These are the only panics of the three kernels: an evaluation panics exactly if it gets to a
`clip` whose bounds are out of order or not numbers.
-/

namespace OrbitOpenEO

open Lib Lib.Asking Relation

/-- The panic of `clamp`. -/
def clampPanic : ExecError := ApplyKernel.Fault.disordered.error

theorem clamp_eq_panic_iff {x lo hi : F64} :
    ApplyKernel.clamp x lo hi = .error clampPanic ↔ F64.le lo hi = false := by
  unfold ApplyKernel.clamp
  split_ifs with h
  · simp [h]
  · simp only [Bool.not_eq_true] at h
    simp [h, clampPanic, ApplyKernel.Fault.error]

/-- A result without a panic. -/
def Quiet {α : Type} (r : Except ExecError α) : Prop := r ≠ .error clampPanic

section Sequence

variable {α β : Type} {r : Except ExecError α} {next : α → Except ExecError β}

theorem quiet_ok (a : α) : Quiet (.ok a : Except ExecError α) := fun h => nomatch h

theorem quiet_invalidGraph (msg : String) :
    Quiet (.error (.invalidGraph msg) : Except ExecError α) := fun h => nomatch h

theorem bind_eq_panic_iff (h : Quiet r) :
    r.bind next = .error clampPanic ↔ ∃ a, r = .ok a ∧ next a = .error clampPanic := by
  cases r with
  | ok a =>
      exact ⟨fun hnext => ⟨a, rfl, hnext⟩, fun ⟨_, ha, hnext⟩ => Except.ok.inj ha ▸ hnext⟩
  | error e =>
      exact ⟨fun he => absurd (congrArg Except.error (Except.error.inj he)) h,
        fun ⟨_, ha, _⟩ => nomatch ha⟩

theorem Quiet.bind (h : Quiet r) (hnext : ∀ a, Quiet (next a)) : Quiet (r.bind next) := by
  intro hpanic
  obtain ⟨a, -, ha⟩ := (bind_eq_panic_iff h).mp hpanic
  exact hnext a ha

end Sequence

namespace GeoExecutor

variable (f : MathOps) (args : BTreeMap Json)

theorem quiet_argNumber (key : String) : Quiet (argNumber f.toFloatOps args key) := by
  unfold argNumber
  split
  · exact quiet_ok _
  · exact quiet_invalidGraph _

theorem quiet_argBool (key : String) : Quiet (argBool args key) := by
  unfold argBool
  split
  · exact quiet_ok _
  · exact quiet_invalidGraph _

theorem quiet_unary (key : String) (op : F64 → F64) : Quiet (unaryNumHandler f key op args) :=
  (quiet_argNumber f args key).bind fun _ => quiet_ok _

/-- A handler of two numbers is quiet if it is on all of them. -/
theorem quiet_two (a b : String) {next : F64 → F64 → Except ExecError Json}
    (hnext : ∀ x y, Quiet (next x y)) :
    Quiet (do
      let x ← argNumber f.toFloatOps args a
      let y ← argNumber f.toFloatOps args b
      next x y) :=
  (quiet_argNumber f args a).bind fun x => (quiet_argNumber f args b).bind (hnext x)

theorem quiet_binary (a b : String) (op : F64 → F64 → F64) :
    Quiet (binaryNumHandler f a b op args) :=
  quiet_two f args a b fun _ _ => quiet_ok _

theorem quiet_cmp (cmp : F64 → F64 → Bool) : Quiet (cmpHandler f cmp args) :=
  quiet_two f args "x" "y" fun _ _ => quiet_ok _

theorem quiet_refusal {c : Prop} [Decidable c] (msg : String) (v : Json) :
    Quiet (if c then .error (.invalidGraph msg) else .ok v) := by
  split_ifs
  · exact quiet_invalidGraph msg
  · exact quiet_ok v

theorem quiet_between : Quiet (betweenHandler f args) :=
  (quiet_argNumber f args "x").bind fun _ => quiet_two f args "min" "max" fun _ _ => quiet_ok _

theorem quiet_and : Quiet (andHandler args) := by
  refine (quiet_argBool args "x").bind fun x => ?_
  cases x
  · exact quiet_ok _
  · exact (quiet_argBool args "y").bind fun _ => quiet_ok _

theorem quiet_or : Quiet (orHandler args) := by
  refine (quiet_argBool args "x").bind fun x => ?_
  cases x
  · exact (quiet_argBool args "y").bind fun _ => quiet_ok _
  · exact quiet_ok _

theorem quiet_xor : Quiet (xorHandler args) :=
  (quiet_argBool args "x").bind fun _ => (quiet_argBool args "y").bind fun _ => quiet_ok _

theorem quiet_not : Quiet (notHandler args) :=
  (quiet_argBool args "x").bind fun _ => quiet_ok _

/-- No handler but that of `clip` panics. -/
theorem eq_clip_or_quiet {e : String × ProcessHandler} (he : e ∈ numericHandlers f) :
    e = ("clip", clipHandler f) ∨ e.1 ≠ "clip" ∧ ∀ args, Quiet (e.2 args) := by
  simp only [numericHandlers, scalarHandlers, List.cons_append, List.nil_append, List.mem_cons,
    List.not_mem_nil, or_false] at he
  rcases he with rfl | rfl | rfl | rfl | rfl | rfl | rfl | rfl | rfl | rfl | rfl | rfl | rfl | rfl |
    rfl | rfl | rfl | rfl | rfl | rfl | rfl | rfl | rfl | rfl | rfl | rfl | rfl | rfl | rfl | rfl |
    rfl | rfl | rfl | rfl | rfl | rfl
  all_goals
    first
    | exact .inl rfl
    | refine .inr ⟨by simp, fun args => ?_⟩
  all_goals
    first
    | exact quiet_unary f args _ _
    | exact quiet_binary f args _ _ _
    | exact quiet_cmp f args _
    | exact quiet_two f args _ _ fun _ _ => quiet_ok _
    | exact quiet_two f args _ _ fun _ _ => quiet_refusal _ _
    | skip
  · exact quiet_between f args
  · exact quiet_and args
  · exact quiet_or args
  · exact quiet_xor args
  · exact quiet_not args

theorem clipHandler_panics_iff :
    clipHandler f args = .error clampPanic ↔
      ∃ x lo hi, argNumber f.toFloatOps args "x" = .ok x ∧
        argNumber f.toFloatOps args "min" = .ok lo ∧ argNumber f.toFloatOps args "max" = .ok hi ∧
        F64.le lo hi = false := by
  have hclamp : ∀ x lo hi,
      (ApplyKernel.clamp x lo hi).bind (fun r => .ok (Json.ofF64 r)) = .error clampPanic ↔
        F64.le lo hi = false := by
    intro x lo hi
    rw [← clamp_eq_panic_iff (x := x)]
    cases ApplyKernel.clamp x lo hi <;> simp [Except.bind]
  have hclip : clipHandler f args =
      (argNumber f.toFloatOps args "x").bind fun x =>
        (argNumber f.toFloatOps args "min").bind fun lo =>
          (argNumber f.toFloatOps args "max").bind fun hi =>
            (ApplyKernel.clamp x lo hi).bind fun r => .ok (Json.ofF64 r) := rfl
  rw [hclip]
  simp only [bind_eq_panic_iff (quiet_argNumber f args _), hclamp]
  constructor
  · rintro ⟨x, hx, lo, hlo, hi, hhi, hle⟩
    exact ⟨x, lo, hi, hx, hlo, hhi, hle⟩
  · rintro ⟨x, lo, hi, hx, hlo, hhi, hle⟩
    exact ⟨x, hx, lo, hlo, hi, hhi, hle⟩

/-- A handler panics exactly if it is that of `clip` and its bounds are not in order. -/
theorem numericHandlers_panics_iff {e : String × ProcessHandler} (he : e ∈ numericHandlers f) :
    e.2 args = .error clampPanic ↔
      e.1 = "clip" ∧ ∃ x lo hi, argNumber f.toFloatOps args "x" = .ok x ∧
        argNumber f.toFloatOps args "min" = .ok lo ∧ argNumber f.toFloatOps args "max" = .ok hi ∧
        F64.le lo hi = false := by
  rcases eq_clip_or_quiet f he with rfl | ⟨hname, hquiet⟩
  · rw [clipHandler_panics_iff]
    exact (and_iff_right rfl).symm
  · exact ⟨fun h => absurd h (hquiet args), fun h => absurd h.1 hname⟩

end GeoExecutor

namespace ApplyKernel

theorem quiet_of_begins {α : Type} {p : String} {r : Except ExecError α}
    (h : ∀ e, r = .error e → e.Begins p) : Quiet r := by
  intro hpanic
  obtain ⟨rest, hrest⟩ := h _ hpanic
  cases hrest

/-- No process but `clip` stops for its bounds. -/
theorem eq_clip_of_stop {f : MathOps} {pid : String} {q : KernelProcess}
    (h : kernelProcess f pid = some q) {xs : List F64} (hstop : q.stop xs = some .disordered) :
    pid = "clip" := by
  have htwo : ∀ who (stop : F64 → F64 → Option Fault) op,
      (∀ x y, stop x y ≠ some .disordered) →
      (KernelProcess.ofTwo who stop op).stop xs ≠ some .disordered := by
    intro who stop op hquiet
    unfold KernelProcess.ofTwo
    dsimp only
    split
    · exact hquiet _ _
    · simp
  have hnever : ∀ x y, KernelProcess.never x y ≠ some .disordered := fun _ _ => nofun
  have hzero : ∀ msg den x y, zeroStop msg den x y ≠ some .disordered := by
    intro msg den x y
    unfold zeroStop
    split_ifs <;> simp
  unfold kernelProcess at h
  split at h
  all_goals
    first
    | rfl
    | cases h
  all_goals
    first
    | exact absurd hstop (htwo _ _ _ hnever)
    | exact absurd hstop (htwo _ _ _ (hzero _ _))
    | cases hstop
    | skip
  · simp only [KernelProcess.linearScaleRange] at hstop
    split at hstop
    · split_ifs at hstop
      cases hstop
    · cases hstop
  · simp only [KernelProcess.ofBounds] at hstop
    split at hstop
    · cases hstop
    · cases hstop

theorem applyPureNumericOp_panics_iff {f : MathOps} {pid : String} {args : BTreeMap ArgVal} :
    applyPureNumericOp f pid args = .error clampPanic ↔
      pid = "clip" ∧ ∃ x lo hi, named args "x" "data" "apply: `clip` needs `x` or `data`" = .ok x ∧
        required args "clip" "min" = .ok lo ∧ required args "clip" "max" = .ok hi ∧
        F64.le lo hi = false := by
  have hclip : clip args = .error clampPanic ↔
      ∃ x lo hi, named args "x" "data" "apply: `clip` needs `x` or `data`" = .ok x ∧
        required args "clip" "min" = .ok lo ∧ required args "clip" "max" = .ok hi ∧
        F64.le lo hi = false := by
    have hx : Quiet (named args "x" "data" "apply: `clip` needs `x` or `data`") :=
      quiet_of_begins ((reads_named "x" "data" _ ⟨"clip` needs `x` or `data`", rfl⟩).message () args)
    have hbound : ∀ key, Quiet (required args "clip" key) := fun key =>
      quiet_of_begins ((reads_required "clip" key).message () args)
    have hdef : clip args = (named args "x" "data" "apply: `clip` needs `x` or `data`").bind fun x =>
        (required args "clip" "min").bind fun lo =>
          (required args "clip" "max").bind fun hi => clamp x lo hi := rfl
    rw [hdef, bind_eq_panic_iff hx]
    simp only [bind_eq_panic_iff (hbound _), clamp_eq_panic_iff]
    constructor
    · rintro ⟨x, hx, lo, hlo, hi, hhi, hle⟩
      exact ⟨x, lo, hi, hx, hlo, hhi, hle⟩
    · rintro ⟨x, lo, hi, hx, hlo, hhi, hle⟩
      exact ⟨x, hx, lo, hlo, hi, hhi, hle⟩
  constructor
  · intro h
    have hpid : pid = "clip" := by
      cases hq : kernelProcess f pid with
      | none =>
          rw [applyPureNumericOp_unsupported args hq] at h
          cases h
      | some q =>
          rw [applyPureNumericOp_eq args hq] at h
          unfold KernelProcess.run at h
          obtain ⟨xs, -, hstop⟩ := (bind_eq_panic_iff
            (quiet_of_begins ((kernelProcess_reads hq).message () args))).mp h
          split at hstop
          · next fault hfault =>
              cases fault <;> cases hstop
              exact eq_clip_of_stop hq hfault
          · cases hstop
    subst hpid
    exact ⟨rfl, hclip.mp h⟩
  · rintro ⟨rfl, h⟩
    exact hclip.mpr h

end ApplyKernel

section Apply

variable (P : Platform) (x : F64)

/-- A node of process `clip` that gets these bounds in `apply`. -/
def ApplyClips (pg : SubGraph) (id : String) (lo hi : F64) : Prop :=
  ∃ node args resolved v, pg.lookup id = some node ∧
    (node.get "process_id").bind Json.asStr = some "clip" ∧
    node.get "arguments" = some (.obj args) ∧
    Gives (Yields (applyNode P x pg)) (argsQuestions P x args BTreeMap.empty) (.ok resolved) ∧
    ApplyKernel.named resolved "x" "data" "apply: `clip` needs `x` or `data`" = .ok v ∧
    ApplyKernel.required resolved "clip" "min" = .ok lo ∧
    ApplyKernel.required resolved "clip" "max" = .ok hi

/-- The bounds of every `clip` that the evaluation of a callback gets to are in order. -/
def ApplyOrdered (subPg : Json) : Prop :=
  ∀ pg result, subPg = .obj pg → findUniqueResultNode pg "apply" = .ok result →
    ∀ id, ReflTransGen (Asks (applyNode P x pg)) result.1 id →
      ∀ lo hi, ApplyClips P x pg id lo hi → F64.le lo hi = true

theorem not_stops_misfit {V α : Type} {value : String → Except ExecError V → Prop} {msg : String} :
    ¬ Stops value (.fail (.invalidGraph msg) : Asking String V ExecError α) clampPanic :=
  fun h => nomatch (show ExecError.invalidGraph msg = clampPanic from h)

/-- A node panics itself exactly if it is a `clip` whose bounds are not in order. -/
theorem stops_applyNode_iff (pg : SubGraph) (id : String) :
    Stops (Yields (applyNode P x pg)) (applyNode P x pg id) clampPanic ↔
      ∃ lo hi, ApplyClips P x pg id lo hi ∧ F64.le lo hi = false := by
  unfold ApplyClips
  generalize Yields (applyNode P x pg) = value
  constructor
  · intro h
    unfold applyNode at h
    split at h
    · exact absurd h not_stops_misfit
    · next node hnode =>
        split at h
        · exact absurd h not_stops_misfit
        · next pid hpid =>
            split at h
            · next args hargs =>
                rcases (stops_bind_iff _ _ _).mp h with hmisfit | ⟨resolved, hgives, hstops⟩
                · exact absurd rfl
                    (((argsQuestions_allFails P x args _).of_stops hmisfit).ne_fault .disordered)
                · obtain ⟨rfl, v, lo, hi, hv, hlo, hhi, hle⟩ :=
                    ApplyKernel.applyPureNumericOp_panics_iff.mp (stops_settledBy_iff.mp hstops)
                  exact ⟨lo, hi, ⟨node, args, resolved, v, hnode, hpid, hargs, hgives, hv, hlo, hhi⟩,
                    hle⟩
            · exact absurd h not_stops_misfit
  · rintro ⟨lo, hi, ⟨node, args, resolved, v, hnode, hpid, hargs, hgives, hv, hlo, hhi⟩, hle⟩
    have hpanic : ApplyKernel.applyPureNumericOp P.f64 "clip" resolved = .error clampPanic :=
      ApplyKernel.applyPureNumericOp_panics_iff.mpr ⟨rfl, v, lo, hi, hv, hlo, hhi, hle⟩
    unfold applyNode
    rw [hnode]
    dsimp only
    rw [hpid, hargs]
    exact (stops_bind_iff _ _ _).mpr (.inr ⟨resolved, hgives, stops_settledBy_iff.mpr hpanic⟩)

theorem quiet_findUniqueResultNode (pg : SubGraph) (ctx : String) :
    Quiet (findUniqueResultNode pg ctx) := by
  unfold findUniqueResultNode
  split
  · exact quiet_invalidGraph _
  · exact quiet_ok _
  · exact quiet_invalidGraph _

/-- An evaluation in `apply` does not panic exactly if the bounds are in order. -/
theorem quiet_evalApplySubgraph_iff (subPg : Json) :
    Quiet (evalApplySubgraph P subPg x) ↔ ApplyOrdered P x subPg := by
  have hvacuous : ∀ {subPg},
      (∀ pg result, subPg = .obj pg → findUniqueResultNode pg "apply" ≠ .ok result) →
      ApplyOrdered P x subPg := fun h pg result hpg hresult => absurd hresult (h pg result hpg)
  cases subPg with
  | obj pg =>
      cases hresult : findUniqueResultNode pg "apply" with
      | error e =>
          have hquiet : Quiet (evalApplySubgraph P (.obj pg) x) := by
            unfold evalApplySubgraph
            dsimp only
            split_ifs
            · exact quiet_invalidGraph _
            · have hfind := quiet_findUniqueResultNode pg "apply"
              rw [hresult] at hfind ⊢
              exact fun hpanic => hfind (congrArg Except.error (Except.error.inj hpanic))
          refine iff_of_true hquiet (hvacuous fun pg' result hpg' h => ?_)
          cases hpg'
          rw [hresult] at h
          cases h
      | ok result =>
          have hcyclic : ∀ j, (.error clampPanic : Except ExecError F64) ≠
              .error ((applyEval P x pg).cyclic j) := fun j h => nomatch h
          unfold Quiet ApplyOrdered
          rw [ne_eq, evalApplySubgraph_eq_iff P hresult hcyclic, yields_error_iff]
          constructor
          · intro h pg' result' hpg hresult' id hreach lo hi hclips
            cases hpg
            rw [hresult] at hresult'
            cases hresult'
            by_contra hle
            exact h ⟨id, hreach, (stops_applyNode_iff P x pg id).mpr
              ⟨lo, hi, hclips, Bool.eq_false_of_not_eq_true hle⟩⟩
          · rintro h ⟨id, hreach, hstops⟩
            obtain ⟨lo, hi, hclips, hle⟩ := (stops_applyNode_iff P x pg id).mp hstops
            rw [h pg result rfl hresult id hreach lo hi hclips] at hle
            cases hle
  | _ =>
      exact iff_of_true (quiet_invalidGraph _) (hvacuous fun pg result hpg => nomatch hpg)

end Apply

namespace ReducerCallback

variable (P : Platform) (stack : List F64)

/-- The number that an argument resolves to. -/
def scalarArg (id : String) (args : Option (List (String × Json))) (key : String) :
    Asking String RedVal ExecError F64 := do
  settledBy ((← reduceArgQuestions P stack id args key).scalarOf key)

/-- A node of process `clip` that gets these bounds in a reducer. -/
def ReduceClips (pg : SubGraph) (id : String) (lo hi : F64) : Prop :=
  ∃ node v, pg.lookup id = some node ∧
    (node.get "process_id").bind Json.asStr = some "clip" ∧
    Gives (Yields (reduceNode P stack pg)) (scalarArg P stack id (nodeArgs node) "x") (.ok v) ∧
    Gives (Yields (reduceNode P stack pg)) (scalarArg P stack id (nodeArgs node) "min") (.ok lo) ∧
    Gives (Yields (reduceNode P stack pg)) (scalarArg P stack id (nodeArgs node) "max") (.ok hi)

/-- The bounds of every `clip` that the evaluation of a reducer gets to are in order. -/
def ReduceOrdered (pg : SubGraph) : Prop :=
  ∀ result, findUniqueResultNode pg "reduce_dimension.reducer" = .ok result →
    ∀ id, ReflTransGen (Asks (reduceNode P stack pg)) result.1 id →
      ∀ lo hi, ReduceClips P stack pg id lo hi → F64.le lo hi = true

theorem reduceArgQuestions_quiet (id : String) (args : Option (List (String × Json)))
    (key : String) : AllFails (· ≠ clampPanic) (reduceArgQuestions P stack id args key) := by
  have hgraph : ∀ msg, ExecError.invalidGraph msg ≠ clampPanic := fun _ h => nomatch h
  unfold reduceArgQuestions
  split
  · exact hgraph _
  · trivial
  · split
    · split_ifs
      · trivial
      · exact hgraph _
    · split
      · exact fun _ => trivial
      · exact hgraph _
  · exact hgraph _

theorem scalarArg_quiet (id : String) (args : Option (List (String × Json))) (key : String) :
    AllFails (· ≠ clampPanic) (scalarArg P stack id args key) := by
  refine (reduceArgQuestions_quiet P stack id args key).bind fun v =>
    allFails_settledBy fun e he => ?_
  cases v with
  | scalar x =>
      cases he
  | array xs =>
      cases he
      exact fun h => nomatch h

/-- No scalar process but `clip` stops for its bounds. -/
theorem eq_clip_of_stop {f : MathOps} {p : F64} {pid : String} {q : ScalarProcess}
    (h : scalarProcess f p pid = some q) {xs : List F64} (hstop : q.stop xs = some .disordered) :
    pid = "clip" := by
  unfold scalarProcess at h
  split at h
  all_goals
    first
    | rfl
    | cases h
  all_goals
    first
    | cases hstop
    | skip
  · simp only [ScalarProcess.divide] at hstop
    split at hstop
    · split_ifs at hstop
      cases hstop
    · cases hstop
  · simp only [ScalarProcess.normalizedDifference] at hstop
    split at hstop
    · split_ifs at hstop
      cases hstop
    · cases hstop
  · simp only [ScalarProcess.bounded] at hstop
    split at hstop
    · cases hstop
    · cases hstop

/-- The questions of `clip` panic exactly if its bounds are not in order. -/
theorem stops_clip_iff {value : String → Except ExecError RedVal → Prop} {f : MathOps} {p : F64}
    {q : ScalarProcess} (hq : scalarProcess f p "clip" = some q)
    {arg : String → Asking String RedVal ExecError F64}
    (harg : ∀ key, AllFails (· ≠ clampPanic) (arg key)) :
    Stops value (q.run (fun s => .fail s.error) arg q.operands) clampPanic ↔
      ∃ x lo hi, Gives value (arg "x") (.ok x) ∧ Gives value (arg "min") (.ok lo) ∧
        Gives value (arg "max") (.ok hi) ∧ F64.le lo hi = false := by
  have hquiet : ∀ key, ¬ Stops value (arg key) clampPanic :=
    fun key h => (harg key).of_stops h rfl
  have hpure : ∀ {α : Type} (a : α),
      ¬ Stops value (pure a : Asking String RedVal ExecError α) clampPanic := fun _ h => h
  cases hq
  simp only [ScalarProcess.run, ScalarProcess.bounded, readOperands, List.nil_append,
    List.cons_append, stops_bind_iff, hquiet, hpure, false_or, and_false, exists_false, or_false]
  constructor
  · rintro ⟨x, hx, lo, hlo, hi, hhi, hstops⟩
    refine ⟨x, lo, hi, hx, hlo, hhi, ?_⟩
    by_contra hle
    rw [if_pos (Bool.eq_true_of_not_eq_false hle)] at hstops
    exact hpure _ hstops
  · rintro ⟨x, lo, hi, hx, hlo, hhi, hle⟩
    refine ⟨x, hx, lo, hlo, hi, hhi, ?_⟩
    rw [if_neg (by rw [hle]; exact Bool.false_ne_true)]
    rfl

theorem reduceQuestions_quiet (id : String) (args : Option (List (String × Json))) {pid : String}
    (hpid : pid ≠ "clip") :
    AllFails (· ≠ clampPanic)
      (reduceQuestions P args (reduceArgQuestions P stack id args) pid) := by
  unfold reduceQuestions
  split
  · exact (reduceArgQuestions_quiet P stack id args "data").bind fun v => trivial
  · split
    · next q hq =>
        refine (readOperands_allFails (fun xs s hs => ?_) (scalarArg_quiet P stack id args) _ _).bind
          fun xs => trivial
        cases s with
        | pixel msg =>
            exact fun h => nomatch h
        | disordered =>
            exact absurd (eq_clip_of_stop hq hs) hpid
    · exact fun h => nomatch h

/-- What a node asks for panics exactly if the node is a `clip` whose bounds are not in order. -/
theorem stops_reduceQuestions_iff {value : String → Except ExecError RedVal → Prop} (id : String)
    (args : Option (List (String × Json))) (pid : String) :
    Stops value (reduceQuestions P args (reduceArgQuestions P stack id args) pid) clampPanic ↔
      pid = "clip" ∧ ∃ x lo hi, Gives value (scalarArg P stack id args "x") (.ok x) ∧
        Gives value (scalarArg P stack id args "min") (.ok lo) ∧
        Gives value (scalarArg P stack id args "max") (.ok hi) ∧ F64.le lo hi = false := by
  by_cases hpid : pid = "clip"
  · subst hpid
    rw [and_iff_right rfl]
    exact stops_clip_iff (f := P.f32) (p := roundDigits P args) rfl (scalarArg_quiet P stack id args)
  · refine iff_of_false (fun h => ?_) fun h => hpid h.1
    exact (reduceQuestions_quiet P stack id args hpid).of_stops h rfl

/-- A node panics itself exactly if it is a `clip` whose bounds are not in order. -/
theorem stops_reduceNode_iff (pg : SubGraph) (id : String) :
    Stops (Yields (reduceNode P stack pg)) (reduceNode P stack pg id) clampPanic ↔
      ∃ lo hi, ReduceClips P stack pg id lo hi ∧ F64.le lo hi = false := by
  unfold ReduceClips
  generalize Yields (reduceNode P stack pg) = value
  constructor
  · intro h
    unfold reduceNode at h
    split at h
    · exact absurd h not_stops_misfit
    · next node hnode =>
        split at h
        · exact absurd h not_stops_misfit
        · next pid hpid =>
            rcases (stops_bind_iff _ _ _).mp h with hquestions | ⟨out, -, hpure⟩
            · obtain ⟨rfl, x, lo, hi, hx, hlo, hhi, hle⟩ :=
                (stops_reduceQuestions_iff P stack id _ pid).mp hquestions
              exact ⟨lo, hi, ⟨node, x, hnode, hpid, hx, hlo, hhi⟩, hle⟩
            · cases hpure
  · rintro ⟨lo, hi, ⟨node, x, hnode, hpid, hx, hlo, hhi⟩, hle⟩
    unfold reduceNode
    rw [hnode]
    dsimp only
    rw [hpid]
    exact (stops_bind_iff _ _ _).mpr (.inl ((stops_reduceQuestions_iff P stack id _ "clip").mpr
      ⟨rfl, x, lo, hi, hx, hlo, hhi, hle⟩))

/-- An evaluation of a reducer does not panic exactly if the bounds are in order. -/
theorem quiet_evalReduceSubgraph_iff (pg : SubGraph) :
    Quiet (evalReduceSubgraph P pg stack) ↔ ReduceOrdered P stack pg := by
  cases hresult : findUniqueResultNode pg "reduce_dimension.reducer" with
  | error e =>
      have hquiet : Quiet (evalReduceSubgraph P pg stack) := by
        have hfind := quiet_findUniqueResultNode pg "reduce_dimension.reducer"
        unfold evalReduceSubgraph
        rw [hresult] at hfind ⊢
        exact fun hpanic => hfind (congrArg Except.error (Except.error.inj hpanic))
      refine iff_of_true hquiet fun result h => ?_
      rw [hresult] at h
      cases h
  | ok result =>
      have hlength : (reduceEval P stack pg).nodes.length < pg.length + 1 := by
        unfold reduceEval
        rw [List.length_map]
        exact Nat.lt_succ_self _
      have hcyclic : ∀ j, (.error clampPanic : Except ExecError RedVal) ≠
          .error ((reduceEval P stack pg).cyclic j) := fun j h => nomatch h
      have hscalar : ∀ r : Except ExecError RedVal,
          r.bind reducedScalar = .error clampPanic ↔ r = .error clampPanic := by
        intro r
        cases r with
        | error e =>
            exact ⟨fun h => congrArg Except.error (Except.error.inj h),
              fun h => congrArg Except.error (Except.error.inj h)⟩
        | ok v =>
            refine iff_of_false (fun h => ?_) (fun h => nomatch h)
            cases v <;> cases h
      unfold Quiet ReduceOrdered
      rw [evalReduceSubgraph_eq P hresult, ne_eq, hscalar, MemoEval.result_eq_iff _ hlength
        (not_depthRefusal (fun _ => rfl) (fun _ _ => rfl) result.1) hcyclic, yields_error_iff]
      constructor
      · intro h result' hresult' id hreach lo hi hclips
        rw [hresult] at hresult'
        cases hresult'
        by_contra hle
        exact h ⟨id, hreach, (stops_reduceNode_iff P stack pg id).mpr
          ⟨lo, hi, hclips, Bool.eq_false_of_not_eq_true hle⟩⟩
      · rintro h ⟨id, hreach, hstops⟩
        obtain ⟨lo, hi, hclips, hle⟩ := (stops_reduceNode_iff P stack pg id).mp hstops
        rw [h result hresult id hreach lo hi hclips] at hle
        cases hle

end ReducerCallback

/-- The bounds that the registry reads for `clip` are in order. -/
def RegistryOrdered (f : MathOps) (pid : String) (args : BTreeMap Json) : Prop :=
  pid = "clip" → ∀ x lo hi, GeoExecutor.argNumber f.toFloatOps args "x" = .ok x →
    GeoExecutor.argNumber f.toFloatOps args "min" = .ok lo →
    GeoExecutor.argNumber f.toFloatOps args "max" = .ok hi → F64.le lo hi = true

theorem GeoExecutor.quiet_iff (f : MathOps) {e : String × ProcessHandler}
    (he : e ∈ numericHandlers f) (args : BTreeMap Json) :
    Quiet (e.2 args) ↔ RegistryOrdered f e.1 args := by
  unfold Quiet RegistryOrdered
  rw [ne_eq, numericHandlers_panics_iff f args he]
  constructor
  · intro h hname x lo hi hx hlo hhi
    by_contra hle
    exact h ⟨hname, x, lo, hi, hx, hlo, hhi, Bool.eq_false_of_not_eq_true hle⟩
  · rintro h ⟨hname, x, lo, hi, hx, hlo, hhi, hle⟩
    rw [h hname x lo hi hx hlo hhi] at hle
    cases hle

/-- The three kernels panic exactly if they get to a `clip` whose bounds are not in order.  The
handlers of the registry over arrays call nothing that can panic. -/
theorem kernels_quiet_iff (P : Platform) :
    (∀ e ∈ GeoExecutor.numericHandlers P.f64, ∀ args,
      Quiet (e.2 args) ↔ RegistryOrdered P.f64 e.1 args) ∧
    (∀ subPg x, Quiet (evalApplySubgraph P subPg x) ↔ ApplyOrdered P x subPg) ∧
    ∀ pg stack, Quiet (evalReduceSubgraph P pg stack) ↔
      ReducerCallback.ReduceOrdered P stack pg :=
  ⟨fun _ he args => GeoExecutor.quiet_iff P.f64 he args,
    fun subPg x => quiet_evalApplySubgraph_iff P x subPg,
    fun pg stack => ReducerCallback.quiet_evalReduceSubgraph_iff P stack pg⟩

/-- A graph that clips to a range from 1 to 0. -/
def clipReversed : SubGraph :=
  [("clip", .obj [("process_id", .str "clip"), ("arguments", .obj [("x", .num (.posInt 0)),
    ("min", .num (.posInt 1)), ("max", .num (.posInt 0))]), ("result", .bool true)])]

theorem clipReversed_panics :
    GeoExecutor.clipHandler Platform.exact.f64 (((BTreeMap.empty.insert "x" (.num (.posInt 0))).insert
      "min" (.num (.posInt 1))).insert "max" (.num (.posInt 0))) = .error clampPanic ∧
    evalApplySubgraph Platform.exact (.obj clipReversed) (.finite 0) = .error clampPanic ∧
    evalReduceSubgraph Platform.exact clipReversed [.finite 0] = .error clampPanic :=
  ⟨rfl, rfl, rfl⟩

end OrbitOpenEO
