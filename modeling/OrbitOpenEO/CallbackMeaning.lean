import OrbitOpenEO.ReducerPaths
import OrbitOpenEO.Lib.TopologicalOrder

/-!
# What a reducer callback means

A callback that can be read is a graph of steps: a step reduces the data or applies a
scalar process to its operands, which are numbers, the data or other steps.  Its meaning
needs no memory of finished nodes and no list of nodes in progress.

The evaluator computes that meaning (`evalReduceNode_follows`), except that two kinds of
steps make it fail where the callback is sound.  A minimum or maximum of two operands is
taken for a statistical reducer and its data are missing; and `clip` panics when its bounds
are out of order.
-/

namespace OrbitOpenEO
namespace ReducerCallback

open Lib Relation

/-- What stops a scalar process: an error of this pixel, or a panic. -/
inductive Stop where
  | pixel (msg : String)
  | disordered

/-- How the evaluator reports it. -/
def Stop.error : Stop → ExecError
  | .pixel msg => .perPixelComputation msg
  | .disordered => .backend "panicked: min > max, or either was NaN"

/-- A scalar process: its operands in the order in which they are read, what stops it after
each of them, and its value. -/
structure ScalarProcess where
  operands : List String
  stop : List F64 → Option Stop
  value : List F64 → F64

namespace ScalarProcess

/-- A process of one operand. -/
def unary (key : String) (op : F64 → F64) : ScalarProcess where
  operands := [key]
  stop _ := none
  value
    | [x] => op x
    | _ => .nan

/-- A process of two operands. -/
def binary (k₁ k₂ : String) (op : F64 → F64 → F64) : ScalarProcess where
  operands := [k₁, k₂]
  stop _ := none
  value
    | [x, y] => op x y
    | _ => .nan

/-- A process of a value and two bounds. -/
def bounded (stop : F64 → F64 → Option Stop) (op : F64 → F64 → F64 → F64) : ScalarProcess where
  operands := ["x", "min", "max"]
  stop
    | [_, lo, hi] => stop lo hi
    | _ => none
  value
    | [x, lo, hi] => op x lo hi
    | _ => .nan

/-- The denominator comes first, and the division stops there if it is zero. -/
def divide (f : MathOps) : ScalarProcess where
  operands := ["y", "x"]
  stop
    | [y] => if y.isZero then some (.pixel "reduce_dimension.reducer: divide by zero") else none
    | _ => none
  value
    | [y, x] => f.div x y
    | _ => .nan

/-- The difference over the sum, which must not be zero. -/
def normalizedDifference (f : MathOps) : ScalarProcess where
  operands := ["x", "y"]
  stop
    | [x, y] =>
        if (f.add x y).isZero then
          some (.pixel "reduce_dimension.reducer: normalized_difference x + y == 0")
        else none
    | _ => none
  value
    | [x, y] => f.div (f.sub x y) (f.add x y)
    | _ => .nan

end ScalarProcess

/-- The scalar processes by their names; `p` is the number of digits of `round`. -/
def scalarProcess (f : MathOps) (p : F64) (pid : String) : Option ScalarProcess :=
  match pid with
  | "add" => some (.binary "x" "y" f.add)
  | "subtract" => some (.binary "x" "y" f.sub)
  | "multiply" => some (.binary "x" "y" f.mul)
  | "divide" => some (.divide f)
  | "power" => some (.binary "base" "p" f.powf)
  | "absolute" => some (.unary "x" F64.abs)
  | "sqrt" => some (.unary "x" f.sqrt)
  | "exp" => some (.unary "p" f.exp)
  | "ln" => some (.unary "x" f.ln)
  | "min" => some (.binary "x" "y" F64.min)
  | "max" => some (.binary "x" "y" F64.max)
  | "clip" => some (.bounded (fun lo hi => if F64.le lo hi then none else some .disordered)
      F64.clamp)
  | "mod" => some (.binary "x" "y" fun x y => f.sub x (f.mul y (f.floor (f.div x y))))
  | "sgn" | "sign" => some (.unary "x" F64.signum)
  | "floor" => some (.unary "x" f.floor)
  | "ceil" => some (.unary "x" f.ceil)
  | "int" => some (.unary "x" f.trunc)
  | "round" => some (.unary "x" fun x =>
      f.div (f.roundTiesEven (f.mul x (f.tenPowi p))) (f.tenPowi p))
  | "normalized_difference" => some (.normalizedDifference f)
  | "between" => some (.bounded (fun _ _ => none) fun x lo hi =>
      ApplyKernel.ofBool (F64.le lo x && F64.le x hi))
  | "cos" => some (.unary "x" f.cos)
  | "sin" => some (.unary "x" f.sin)
  | "tan" => some (.unary "x" f.tan)
  | "arccos" => some (.unary "x" f.acos)
  | "arcsin" => some (.unary "x" f.asin)
  | "arctan" => some (.unary "x" f.atan)
  | "arctan2" => some (.binary "y" "x" f.atan2)
  | _ => none

section Operands

variable {m : Type → Type} [Monad m] {κ : Type}

/-- The values of the operands, read one after the other. -/
def readOperands (raise : Stop → m (List F64)) (arg : κ → m F64) (stop : List F64 → Option Stop) :
    List κ → List F64 → m (List F64)
  | [], xs => pure xs
  | k :: ks, xs => do
      let x ← arg k
      match stop (xs ++ [x]) with
      | some s => raise s
      | none => readOperands raise arg stop ks (xs ++ [x])

/-- A scalar process, run on operands. -/
def ScalarProcess.run (q : ScalarProcess) (raise : Stop → m (List F64)) (arg : κ → m F64)
    (operands : List κ) : m F64 := do
  let xs ← readOperands raise arg q.stop operands []
  pure (q.value xs)

end Operands

/-- The arms of the evaluator are these processes. -/
theorem reduceScalarOp_eq {f : MathOps} {p : F64} {pid : String} {q : ScalarProcess}
    (h : scalarProcess f p pid = some q) (arg : String → CallbackM RedVal F64) :
    reduceScalarOp f arg p pid = q.run (fun s => throw s.error) arg q.operands := by
  unfold scalarProcess at h
  split at h <;> cases h <;>
    simp only [reduceScalarOp, ScalarProcess.run, ScalarProcess.unary, ScalarProcess.binary,
      ScalarProcess.bounded, ScalarProcess.divide, ScalarProcess.normalizedDifference,
      readOperands, List.nil_append, List.cons_append, bind_assoc, pure_bind]
  · -- `divide`
    refine bind_congr fun y => ?_
    split_ifs
    · rfl
    · simp only [bind_assoc, pure_bind]
  · -- `clip`
    refine bind_congr fun x => bind_congr fun lo => bind_congr fun hi => ?_
    unfold ApplyKernel.clamp
    split_ifs <;> rfl
  · -- `normalized_difference`
    refine bind_congr fun x => bind_congr fun y => ?_
    split_ifs <;> rfl

/-- What an operand is. -/
inductive Operand where
  | number (n : Number)
  | parameter
  | link (target : String)

/-- An argument of a node as an operand, if it has the form of one. -/
def readOperand : Json → Option Operand
  | .num n => some (.number n)
  | .obj fs =>
      match fs.lookup "from_parameter" with
      | some (.str p) => if p = "data" then some .parameter else none
      | _ => (linkTarget fs).map .link
  | _ => none

/-- The step that an operand waits for. -/
def Operand.links : Operand → List String
  | .link target => [target]
  | _ => []

/-- A step of a callback. -/
inductive Step where
  | statistic (r : Reducer) (data : Operand)
  | scalar (q : ScalarProcess) (operands : List (String × Operand))
  /-- A minimum or maximum of two operands. -/
  | extremum (x y : Operand)

/-- The steps that a step may wait for. -/
def Step.links : Step → List String
  | .statistic _ data => data.links
  | .scalar _ operands => operands.flatMap fun o => o.2.links
  | .extremum _ _ => []

section Meaning

variable (P : Platform)

/-- The operand under a key. -/
def operandAt (args : Option (List (String × Json))) (key : String) : Option Operand :=
  (args.bind (List.lookup key)).bind readOperand

/-- The step that a node stands for, if it has the arguments of its process. -/
def readStep (args : Option (List (String × Json))) (pid : String) : Option Step :=
  match Reducer.fromProcessId pid with
  | some r =>
      match operandAt args "data" with
      | some data => some (.statistic r data)
      | none =>
          if r = .min ∨ r = .max then do
            let x ← operandAt args "x"
            let y ← operandAt args "y"
            some (.extremum x y)
          else none
  | none => do
      let q ← scalarProcess P.f32 (roundDigits P args) pid
      let operands ← q.operands.mapM fun key => (operandAt args key).map (key, ·)
      some (.scalar q operands)

/-- The step of a node. -/
def readNode (node : Json) : Option Step :=
  ((node.get "process_id").bind Json.asStr).bind (readStep P (nodeArgs node))

/-- Why a step has no value: its process stops, or the evaluator takes it for another one. -/
inductive Fault where
  | stop (s : Stop)
  | mistaken

/-- The value of an operand. -/
def Operand.value {m : Type → Type} [Monad m] (stack : List F64) (node : String → m RedVal) :
    Operand → m RedVal
  | .number n => pure (.scalar (P.toF32 (n.asF64 P.f64.toFloatOps)))
  | .parameter => pure (.array stack)
  | .link target => node target

/-- The scalar that is read at an operand. -/
def scalarAt (key : String) : RedVal → Except Fault F64
  | .scalar x => .ok x
  | .array _ => .error (.stop (.pixel
      s!"reduce_dimension.reducer: `{key}` expected scalar, got array"))

variable (stack : List F64)

/-- The meaning of a step, from the values of the steps it waits for. -/
def Step.meaning (node : String → Except Fault F64) : Step → Except Fault F64
  | .statistic r data => do
      let arr :=
        match (← data.value P stack fun target => (node target).map .scalar) with
        | .array xs => xs
        | .scalar x => [x]
      .ok (if arr.isEmpty then sentinelNdviNa else applyReducer P.f32 arr r)
  | .scalar q operands =>
      q.run (fun s => .error (.stop s))
        (fun o => do scalarAt o.1 (← o.2.value P stack fun target => (node target).map .scalar))
        operands
  | .extremum _ _ => .error .mistaken

/-- The meaning of the steps of a graph, down to a depth. -/
def meaningTo (pg : SubGraph) : Nat → String → Except Fault F64
  | 0, _ => .error .mistaken
  | depth + 1, id =>
      match (pg.lookup id).bind (readNode P) with
      | some step => step.meaning P stack (meaningTo pg depth)
      | none => .error .mistaken

/-- The meaning of a step of a graph: no path is longer than the graph. -/
def meaning (pg : SubGraph) (id : String) : Except Fault F64 :=
  meaningTo P stack pg (pg.length + 1) id

/-- One step waits for another. -/
def WaitsFor (pg : SubGraph) (a b : String) : Prop :=
  ∃ step, (pg.lookup a).bind (readNode P) = some step ∧ b ∈ step.links

theorem WaitsFor.exists_node {P : Platform} {pg : SubGraph} {a b : String}
    (h : WaitsFor P pg a b) :
    ∃ node step, (a, node) ∈ pg ∧ readNode P node = some step ∧ b ∈ step.links := by
  obtain ⟨step, hstep, hb⟩ := h
  obtain ⟨node, hnode, hread⟩ := Option.bind_eq_some_iff.mp hstep
  exact ⟨node, step, mem_of_lookup_eq_some hnode, hread, hb⟩

/-- Every node has the arguments of its process in a form that can be read, every link leads
to a node, and no node waits for itself. -/
structure Sound (pg : SubGraph) : Prop where
  readable : ∀ e ∈ pg, (readNode P e.2).isSome
  resolve : ∀ a b, WaitsFor P pg a b → b ∈ pg.map Prod.fst
  acyclic : Acyclic (WaitsFor P pg)

theorem readOperands_congr {κ : Type} {raise : Stop → Except Fault (List F64)}
    {arg arg' : κ → Except Fault F64} (stop : List F64 → Option Stop) {keys : List κ}
    (h : ∀ key ∈ keys, arg key = arg' key) (xs : List F64) :
    readOperands raise arg stop keys xs = readOperands raise arg' stop keys xs := by
  induction keys generalizing xs with
  | nil =>
      rfl
  | cons key keys ih =>
      rw [List.forall_mem_cons] at h
      rw [readOperands, readOperands, h.1]
      refine bind_congr fun x => ?_
      cases stop (xs ++ [x]) with
      | some s =>
          rfl
      | none =>
          exact ih h.2 _

theorem Operand.value_congr {f g : String → Except Fault F64} {o : Operand}
    (h : ∀ target ∈ o.links, f target = g target) :
    (o.value P stack fun target => (f target).map .scalar) =
      o.value P stack fun target => (g target).map .scalar := by
  cases o with
  | link target =>
      exact congrArg (Except.map _) (h target List.mem_cons_self)
  | _ =>
      rfl

/-- A step looks only at the steps it waits for. -/
theorem Step.meaning_congr {f g : String → Except Fault F64} {step : Step}
    (h : ∀ target ∈ step.links, f target = g target) :
    step.meaning P stack f = step.meaning P stack g := by
  cases step with
  | statistic r data =>
      exact congrArg (· >>= _) (Operand.value_congr P stack h)
  | scalar q operands =>
      refine congrArg (· >>= _) (readOperands_congr q.stop (fun o ho => ?_) [])
      rw [Operand.value_congr P stack fun target ht =>
        h target (List.mem_flatMap.mpr ⟨o, ho, ht⟩)]
  | extremum x y =>
      rfl

/-- Below the height of a step its meaning does not change. -/
theorem meaningTo_succ {pg : SubGraph} {height : String → Nat}
    (hheight : ∀ a b, WaitsFor P pg a b → height b < height a) {depth : Nat} {id : String}
    (h : height id < depth) : meaningTo P stack pg (depth + 1) id = meaningTo P stack pg depth id := by
  induction depth generalizing id with
  | zero =>
      cases h
  | succ depth ih =>
      rw [meaningTo, meaningTo]
      cases hstep : (pg.lookup id).bind (readNode P) with
      | none =>
          rfl
      | some step =>
          refine Step.meaning_congr P stack fun target ht => ih ?_
          have := hheight id target ⟨step, hstep, ht⟩
          omega

/-- The meaning of a step comes from the meaning of the steps it waits for. -/
theorem meaning_eq {pg : SubGraph} {height : String → Nat}
    (hle : ∀ a, height a ≤ pg.length) (hheight : ∀ a b, WaitsFor P pg a b → height b < height a)
    {id : String} {step : Step} (hstep : (pg.lookup id).bind (readNode P) = some step) :
    meaning P stack pg id = step.meaning P stack (meaning P stack pg) := by
  unfold meaning
  rw [meaningTo, hstep]
  refine Step.meaning_congr P stack fun target ht => (meaningTo_succ P stack hheight ?_).symm
  exact (hheight id target ⟨step, hstep, ht⟩).trans_le (hle id)

end Meaning

/-- How the evaluator fails. -/
def Fault.Shows : Fault → ExecError → Prop
  | .stop s, e => e = s.error
  | .mistaken, e => ∃ msg, e = .invalidGraph msg

section Evaluator

variable (P : Platform) (stack : List F64) (pg : SubGraph)

/-- The finished nodes have the values that they mean. -/
def Tracks (memo : String → Option RedVal) : Prop :=
  ∀ id v, memo id = some v → ∃ x, v = .scalar x ∧ meaning P stack pg id = .ok x

/-- An evaluation ends as what is meant does. -/
inductive Follows {α : Type} :
    Except ExecError (α × (String → Option RedVal)) → Except Fault α → Prop
  | ok {x : α} {memo : String → Option RedVal} :
      Tracks P stack pg memo → Follows (.ok (x, memo)) (.ok x)
  | error {e : ExecError} {fault : Fault} :
      fault.Shows e → Follows (.error e) (.error fault)

/-- The nodes that an operand may lead to are followed. -/
def NodesFollow (node : String → CallbackM RedVal RedVal) (links : List String) : Prop :=
  ∀ target ∈ links, ∀ memo, Tracks P stack pg memo →
    Follows P stack pg ((node target).run memo) ((meaning P stack pg target).map .scalar)

variable {P stack pg} {α β : Type} {memo : String → Option RedVal}

theorem Follows.bind {c : CallbackM RedVal α} {m : Except Fault α} {k : α → CallbackM RedVal β}
    {k' : α → Except Fault β} (hc : Follows P stack pg (c.run memo) m)
    (hk : ∀ x memo, Tracks P stack pg memo → Follows P stack pg ((k x).run memo) (k' x)) :
    Follows P stack pg ((c >>= k).run memo) (m >>= k') := by
  rw [StateT.run_bind]
  generalize c.run memo = out at hc
  cases hc with
  | ok hmemo =>
      exact hk _ _ hmemo
  | error hshows =>
      exact .error hshows

theorem Follows.pure (hmemo : Tracks P stack pg memo) (x : α) :
    Follows P stack pg ((Pure.pure x : CallbackM RedVal α).run memo) (.ok x) :=
  .ok hmemo

/-- The scalar of a value. -/
theorem Follows.scalarOf (hmemo : Tracks P stack pg memo) (key : String) (v : RedVal) :
    Follows P stack pg ((liftM (v.scalarOf key) : CallbackM RedVal F64).run memo)
      (scalarAt key v) := by
  cases v with
  | scalar x =>
      exact .ok hmemo
  | array xs =>
      exact .error rfl

/-- An operand is resolved as it is read. -/
theorem resolveReduceArg_eq {node : String → CallbackM RedVal RedVal} {id key : String}
    {args : Option (List (String × Json))} {o : Operand} (h : operandAt args key = some o) :
    resolveReduceArg P node stack id args key = o.value P stack node := by
  unfold operandAt at h
  unfold resolveReduceArg
  cases harg : args.bind (List.lookup key) with
  | none =>
      rw [harg] at h
      cases h
  | some arg =>
      rw [harg, Option.bind_some] at h
      cases arg with
      | num n =>
          cases h
          rfl
      | obj fs =>
          cases hparam : fs.lookup "from_parameter" with
          | none =>
              simp only [readOperand, hparam] at h ⊢
              obtain ⟨target, htarget, rfl⟩ := Option.map_eq_some_iff.mp h
              rw [htarget]
              rfl
          | some p =>
              cases p with
              | str p =>
                  simp only [readOperand, hparam] at h ⊢
                  split_ifs at h with hp
                  cases h
                  exact if_pos hp
              | _ =>
                  simp only [readOperand, hparam] at h ⊢
                  obtain ⟨target, htarget, rfl⟩ := Option.map_eq_some_iff.mp h
                  rw [htarget]
                  rfl
      | _ =>
          cases h

/-- Whatever is no operand is refused. -/
theorem resolveReduceArg_none {node : String → CallbackM RedVal RedVal} {id key : String}
    {args : Option (List (String × Json))} (h : operandAt args key = none) :
    ∃ msg, (resolveReduceArg P node stack id args key).run memo = .error (.invalidGraph msg) := by
  unfold operandAt at h
  unfold resolveReduceArg
  cases harg : args.bind (List.lookup key) with
  | none =>
      exact ⟨_, rfl⟩
  | some arg =>
      rw [harg, Option.bind_some] at h
      cases arg with
      | num n =>
          cases h
      | obj fs =>
          cases hparam : fs.lookup "from_parameter" with
          | none =>
              simp only [readOperand, hparam] at h ⊢
              rw [Option.map_eq_none_iff.mp h]
              exact ⟨_, rfl⟩
          | some p =>
              cases p with
              | str p =>
                  simp only [readOperand, hparam] at h ⊢
                  split_ifs at h with hp
                  rw [if_neg hp]
                  exact ⟨_, rfl⟩
              | _ =>
                  simp only [readOperand, hparam] at h ⊢
                  rw [Option.map_eq_none_iff.mp h]
                  exact ⟨_, rfl⟩
      | _ =>
          exact ⟨_, rfl⟩

section Nodes

variable {node : String → CallbackM RedVal RedVal} {id : String}
  {args : Option (List (String × Json))}

theorem Operand.value_follows {o : Operand} (hnode : NodesFollow P stack pg node o.links)
    (hmemo : Tracks P stack pg memo) :
    Follows P stack pg ((o.value P stack node).run memo)
      (o.value P stack fun target => (meaning P stack pg target).map .scalar) := by
  cases o with
  | number n =>
      exact .ok hmemo
  | parameter =>
      exact .ok hmemo
  | link target =>
      exact hnode target List.mem_cons_self memo hmemo

/-- The operands are read one after the other. -/
theorem readOperands_follows (stop : List F64 → Option Stop) {keys : List String}
    {operands : List (String × Operand)}
    (hkeys : keys.mapM (fun key => (operandAt args key).map (key, ·)) = some operands)
    (hnode : NodesFollow P stack pg node (operands.flatMap fun o => o.2.links)) (xs : List F64)
    (hmemo : Tracks P stack pg memo) :
    Follows P stack pg
      ((readOperands (fun s => throw s.error) (fun key => do
        liftM ((← resolveReduceArg P node stack id args key).scalarOf key)) stop keys xs :
          CallbackM RedVal (List F64)).run memo)
      (readOperands (fun s => .error (.stop s)) (fun o : String × Operand => do
        scalarAt o.1 (← o.2.value P stack fun target => (meaning P stack pg target).map .scalar))
        stop operands xs) := by
  induction keys generalizing operands xs memo with
  | nil =>
      cases hkeys
      exact .ok hmemo
  | cons key keys ih =>
      rw [List.mapM_cons] at hkeys
      obtain ⟨o, ho, hkeys⟩ := Option.bind_eq_some_iff.mp hkeys
      obtain ⟨rest, hrest, hcons⟩ := Option.bind_eq_some_iff.mp hkeys
      obtain ⟨o, hkey, rfl⟩ := Option.map_eq_some_iff.mp ho
      cases hcons
      rw [List.flatMap_cons] at hnode
      rw [readOperands, readOperands]
      refine Follows.bind (Follows.bind ?_ fun v memo hmemo => Follows.scalarOf hmemo key v)
        fun x memo hmemo => ?_
      · rw [resolveReduceArg_eq hkey]
        exact Operand.value_follows (fun target ht => hnode target (List.mem_append_left _ ht)) hmemo
      · cases stop (xs ++ [x]) with
        | some s =>
            exact .error rfl
        | none =>
            exact ih hrest (fun target ht => hnode target (List.mem_append_right _ ht)) _ hmemo

/-- A node is evaluated to what its step means. -/
theorem reduceNodeBody_follows {pid : String} {step : Step} (hstep : readStep P args pid = some step)
    (hnode : NodesFollow P stack pg node step.links) (hmemo : Tracks P stack pg memo) :
    Follows P stack pg
      ((reduceNodeBody P args (resolveReduceArg P node stack id args) pid).run memo)
      (step.meaning P stack (meaning P stack pg)) := by
  unfold readStep at hstep
  unfold reduceNodeBody
  cases hr : Reducer.fromProcessId pid with
  | some r =>
      rw [hr] at hstep
      dsimp only at hstep ⊢
      cases hdata : operandAt args "data" with
      | some data =>
          rw [hdata] at hstep
          cases hstep
          rw [resolveReduceArg_eq hdata]
          exact Follows.bind (Operand.value_follows hnode hmemo) fun v memo hmemo => .ok hmemo
      | none =>
          rw [hdata] at hstep
          dsimp only at hstep
          split_ifs at hstep
          obtain ⟨x, -, hstep⟩ := Option.bind_eq_some_iff.mp hstep
          obtain ⟨y, -, hstep⟩ := Option.bind_eq_some_iff.mp hstep
          cases hstep
          -- The operands are there, but the data are read.
          obtain ⟨msg, hmsg⟩ : ∃ msg, (resolveReduceArg P node stack id args "data").run memo =
            .error (.invalidGraph msg) := resolveReduceArg_none hdata
          rw [StateT.run_bind, hmsg]
          exact .error ⟨msg, rfl⟩
  | none =>
      rw [hr] at hstep
      obtain ⟨q, hq, hstep⟩ := Option.bind_eq_some_iff.mp hstep
      obtain ⟨operands, hoperands, hstep⟩ := Option.bind_eq_some_iff.mp hstep
      cases hstep
      dsimp only
      rw [reduceScalarOp_eq hq]
      exact Follows.bind (readOperands_follows q.stop hoperands hnode [] hmemo)
        fun xs memo hmemo => .ok hmemo

end Nodes

theorem Tracks.update {id : String} {x : F64} (hmemo : Tracks P stack pg memo)
    (h : meaning P stack pg id = .ok x) :
    Tracks P stack pg (Function.update memo id (some (.scalar x))) := by
  intro other v hv
  by_cases hother : other = id
  · subst hother
    rw [Function.update_self] at hv
    exact ⟨x, (Option.some.inj hv).symm, h⟩
  · rw [Function.update_of_ne hother] at hv
    exact hmemo other v hv

theorem exists_readNode (h : Sound P pg) {id : String} (hid : id ∈ pg.map Prod.fst) :
    ∃ node step, pg.lookup id = some node ∧ readNode P node = some step := by
  cases hnode : pg.lookup id with
  | none =>
      obtain ⟨e, he, rfl⟩ := List.mem_map.mp hid
      have := List.lookup_eq_none_iff.mp hnode e he
      simp at this
  | some node =>
      have hmem : (id, node) ∈ pg := mem_of_lookup_eq_some hnode
      obtain ⟨step, hstep⟩ := Option.isSome_iff_exists.mp (h.readable _ hmem)
      exact ⟨node, step, rfl, hstep⟩

/-- The evaluator computes the meaning of a sound callback. -/
theorem evalReduceNode_follows (h : Sound P pg) {height : String → Nat}
    (hle : ∀ a, height a ≤ pg.length) (hheight : ∀ a b, WaitsFor P pg a b → height b < height a)
    {bound : Nat} {inProgress : List String} {id : String} (hbound : height id < bound)
    (hid : id ∈ pg.map Prod.fst) (hprogress : ∀ a ∈ inProgress, TransGen (WaitsFor P pg) a id)
    (hmemo : Tracks P stack pg memo) :
    Follows P stack pg ((evalReduceNode P pg stack bound inProgress id).run memo)
      ((meaning P stack pg id).map .scalar) := by
  induction bound generalizing inProgress id memo with
  | zero =>
      cases hbound
  | succ bound ih =>
      cases hfinished : memo id with
      | some v =>
          obtain ⟨x, rfl, hx⟩ := hmemo id v hfinished
          rw [evalReduceNode_memo P hfinished, hx]
          exact .ok hmemo
      | none =>
          obtain ⟨node, step, hnode, hread⟩ := exists_readNode h hid
          obtain ⟨pid, hpid, hstep⟩ := Option.bind_eq_some_iff.mp hread
          have hwaits : (pg.lookup id).bind (readNode P) = some step := by
            rw [hnode]
            exact hread
          have hnot : id ∉ inProgress := fun hmem => h.acyclic id (hprogress id hmem)
          rw [evalReduceNode_run P hfinished hnot hnode hpid]
          have hnodes : NodesFollow P stack pg
              (evalReduceNode P pg stack bound (inProgress ++ [id])) step.links := by
            intro target ht memo hmemo
            have hlink : WaitsFor P pg id target := ⟨step, hwaits, ht⟩
            have hlower := hheight id target hlink
            refine ih (by omega) (h.resolve id target hlink) (fun a ha => ?_) hmemo
            rcases List.mem_append.mp ha with ha | ha
            · exact (hprogress a ha).tail hlink
            · rw [List.mem_singleton.mp ha]
              exact .single hlink
          have hbody : Follows P stack pg ((reduceNodeBody P (nodeArgs node)
              (resolveReduceArg P (evalReduceNode P pg stack bound (inProgress ++ [id])) stack id
                (nodeArgs node)) pid).run memo) (meaning P stack pg id) := by
            rw [meaning_eq P stack hle hheight hwaits]
            exact reduceNodeBody_follows hstep hnodes hmemo
          generalize (reduceNodeBody P (nodeArgs node) _ pid).run memo = out at hbody ⊢
          generalize hmeaning : meaning P stack pg id = m at hbody ⊢
          cases hbody with
          | ok hmemo =>
              exact .ok (hmemo.update hmeaning)
          | error hshows =>
              exact .error hshows

/-- The evaluation of a callback ends as its result node means. -/
theorem evalReduceSubgraph_follows (h : Sound P pg) {result : String × Json}
    (hresult : findUniqueResultNode pg "reduce_dimension.reducer" = .ok result) :
    (∃ x, meaning P stack pg result.1 = .ok x ∧ evalReduceSubgraph P pg stack = .ok x) ∨
      ∃ fault e, meaning P stack pg result.1 = .error fault ∧ fault.Shows e ∧
        evalReduceSubgraph P pg stack = .error e := by
  obtain ⟨height, hle, hheight⟩ := exists_height_of_acyclic h.acyclic (pg.map Prod.fst)
  rw [List.length_map] at hle
  have hid : result.1 ∈ pg.map Prod.fst := by
    unfold findUniqueResultNode at hresult
    split at hresult <;> cases hresult
    rename_i hfilter
    exact List.mem_map_of_mem (List.mem_filter.mp (hfilter ▸ List.mem_cons_self)).1
  have hfollows : Follows P stack pg
      ((evalReduceNode P pg stack (pg.length + 1) [] result.1).run fun _ => none)
      ((meaning P stack pg result.1).map .scalar) :=
    evalReduceNode_follows h hle (fun a b hab => hheight a b hab (h.resolve a b hab))
      (Nat.lt_succ_of_le (hle result.1)) hid (fun a ha => absurd ha List.not_mem_nil)
      fun _ _ hv => by cases hv
  unfold evalReduceSubgraph
  rw [hresult]
  simp only [bind, Except.bind]
  generalize (evalReduceNode P pg stack (pg.length + 1) [] result.1).run (fun _ => none) = out
    at hfollows ⊢
  cases hm : meaning P stack pg result.1 with
  | ok x =>
      rw [hm] at hfollows
      cases hfollows
      exact Or.inl ⟨x, rfl, rfl⟩
  | error fault =>
      rw [hm] at hfollows
      cases hfollows with
      | error hshows =>
          exact Or.inr ⟨fault, _, rfl, hshows, rfl⟩

end Evaluator

section Evaluable

variable (P : Platform) (stack : List F64) {pg : SubGraph}

/-- The evaluation gives a value, or an error of this pixel. -/
def Evaluates (pg : SubGraph) : Prop :=
  (∃ x, evalReduceSubgraph P pg stack = .ok x) ∨
    ∃ msg, evalReduceSubgraph P pg stack = .error (.perPixelComputation msg)

theorem evaluates_iff_of_error {e : ExecError} (h : evalReduceSubgraph P pg stack = .error e) :
    Evaluates P stack pg ↔ ∃ msg, e = .perPixelComputation msg := by
  unfold Evaluates
  rw [h]
  refine ⟨fun heither => ?_, fun ⟨msg, hmsg⟩ => Or.inr ⟨msg, hmsg ▸ rfl⟩⟩
  rcases heither with ⟨x, hx⟩ | ⟨msg, hmsg⟩
  · cases hx
  · exact ⟨msg, Except.error.inj hmsg⟩

/-- **A sound callback can be evaluated** exactly if it has one result node and its meaning does
not come to a minimum or maximum of two operands, nor to bounds out of order. -/
theorem evaluates_iff (h : Sound P pg) :
    Evaluates P stack pg ↔
      ∃ result, findUniqueResultNode pg "reduce_dimension.reducer" = .ok result ∧
        meaning P stack pg result.1 ≠ .error .mistaken ∧
        meaning P stack pg result.1 ≠ .error (.stop .disordered) := by
  cases hresult : findUniqueResultNode pg "reduce_dimension.reducer" with
  | error e =>
      have heval : evalReduceSubgraph P pg stack = .error e := by
        unfold evalReduceSubgraph
        rw [hresult]
        rfl
      have hgraph : ∃ msg, e = .invalidGraph msg := by
        unfold findUniqueResultNode at hresult
        split at hresult <;> cases hresult <;> exact ⟨_, rfl⟩
      obtain ⟨msg, rfl⟩ := hgraph
      rw [evaluates_iff_of_error P stack heval]
      exact ⟨fun ⟨_, hmsg⟩ => (by cases hmsg), fun ⟨_, hfound, _⟩ => (by cases hfound)⟩
  | ok result =>
      have hends : (∃ x, meaning P stack pg result.1 = .ok x ∧
          evalReduceSubgraph P pg stack = .ok x) ∨ ∃ fault e,
            meaning P stack pg result.1 = .error fault ∧ fault.Shows e ∧
              evalReduceSubgraph P pg stack = .error e := evalReduceSubgraph_follows h hresult
      rcases hends with ⟨x, hmeaning, heval⟩ | ⟨fault, e, hmeaning, hshows, heval⟩
      · refine ⟨fun _ => ⟨result, rfl, ?_, ?_⟩, fun _ => Or.inl ⟨x, heval⟩⟩ <;>
          · rw [hmeaning]
            exact fun heq => by cases heq
      · rw [evaluates_iff_of_error P stack heval]
        constructor
        · rintro ⟨msg, rfl⟩
          refine ⟨result, rfl, fun heq => ?_, fun heq => ?_⟩
          · cases hmeaning.symm.trans heq
            obtain ⟨_, hgraph⟩ := hshows
            cases hgraph
          · cases hmeaning.symm.trans heq
            cases hshows
        · rintro ⟨_, hfound, hmistaken, hdisordered⟩
          cases hfound
          cases fault with
          | mistaken =>
              exact absurd hmeaning hmistaken
          | stop s =>
              cases s with
              | pixel msg =>
                  exact ⟨msg, hshows⟩
              | disordered =>
                  exact absurd hmeaning hdisordered

end Evaluable

/-- A node of a callback. -/
def callbackNode (pid : String) (args : List (String × Json)) (result : Bool) : Json :=
  .obj [("process_id", .str pid), ("arguments", .obj args), ("result", .bool result)]

/-- The absolute value of the mean of the data. -/
def absoluteMean : SubGraph :=
  [("absolute", callbackNode "absolute" [("x", .obj [("from_node", .str "mean")])] true),
    ("mean", callbackNode "mean" [("data", .obj [("from_parameter", .str "data")])] false)]

theorem absoluteMean_sound : Sound Platform.exact absoluteMean := by
  have hwaits : ∀ a b, WaitsFor Platform.exact absoluteMean a b → a = "absolute" ∧ b = "mean" := by
    intro a b hab
    obtain ⟨node, step, hmem, hread, hb⟩ := hab.exists_node
    simp only [absoluteMean, List.mem_cons, List.not_mem_nil, or_false, Prod.mk.injEq] at hmem
    rcases hmem with ⟨rfl, rfl⟩ | ⟨rfl, rfl⟩ <;> cases hread
    · exact ⟨rfl, List.mem_singleton.mp hb⟩
    · cases hb
  refine ⟨List.forall_mem_cons.mpr ⟨rfl, List.forall_mem_singleton.mpr rfl⟩, fun a b hab => ?_,
    fun a hcycle => ?_⟩
  · rw [(hwaits a b hab).2]
    exact List.mem_cons_of_mem _ List.mem_cons_self
  · obtain ⟨b, hab, -⟩ := TransGen.head'_iff.mp hcycle
    obtain ⟨c, -, hca⟩ := TransGen.tail'_iff.mp hcycle
    have heq := (hwaits a b hab).1.symm.trans (hwaits c a hca).2
    exact absurd heq (by decide)

theorem evaluates_absoluteMean : Evaluates Platform.exact [.finite 1, .finite 3] absoluteMean :=
  (evaluates_iff Platform.exact [.finite 1, .finite 3] absoluteMean_sound).mpr
    ⟨_, rfl, fun h => (by cases h), fun h => (by cases h)⟩

/-- The minimum of two numbers. -/
def minOfTwo : SubGraph :=
  [("min", callbackNode "min" [("x", .num (.posInt 1)), ("y", .num (.posInt 2))] true)]

/-- A number between bounds out of order. -/
def clipOutOfOrder : SubGraph :=
  [("clip", callbackNode "clip" [("x", .num (.posInt 1)), ("min", .num (.posInt 2)),
    ("max", .num (.posInt 0))] true)]

theorem sound_of_no_links {P : Platform} {id : String} {node : Json} {step : Step}
    (hread : readNode P node = some step) (hlinks : step.links = []) : Sound P [(id, node)] := by
  have hwaits : ∀ a b, ¬ WaitsFor P [(id, node)] a b := by
    intro a b hab
    obtain ⟨node', step', hmem, hread', hb⟩ := hab.exists_node
    cases List.mem_singleton.mp hmem
    cases hread.symm.trans hread'
    rw [hlinks] at hb
    cases hb
  refine ⟨List.forall_mem_singleton.mpr (by rw [hread]; rfl), fun a b hab => absurd hab (hwaits a b),
    fun a hcycle => ?_⟩
  obtain ⟨b, hab, -⟩ := TransGen.head'_iff.mp hcycle
  exact hwaits a b hab

theorem min_and_clip_fail :
    (Sound Platform.exact minOfTwo ∧ validateReduceSubgraphProcesses minOfTwo = .ok () ∧
      evalReduceSubgraph Platform.exact minOfTwo [.finite 1] =
        .error (.invalidGraph "reduce_dimension.reducer: node `min` missing arg `data`")) ∧
    Sound Platform.exact clipOutOfOrder ∧ validateReduceSubgraphProcesses clipOutOfOrder = .ok () ∧
      evalReduceSubgraph Platform.exact clipOutOfOrder [.finite 1] =
        .error (.backend "panicked: min > max, or either was NaN") :=
  ⟨⟨sound_of_no_links rfl rfl, rfl, rfl⟩, sound_of_no_links rfl rfl, rfl, rfl⟩

end ReducerCallback
end OrbitOpenEO
