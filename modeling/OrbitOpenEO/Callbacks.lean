import OrbitOpenEO.Workspace
import OrbitOpenEO.ProcessIds

/-!
# Callback graphs

`apply` and `reduce_dimension` take a process graph as an argument and evaluate
it on every pixel.  Both evaluators start at the one node marked `result`, keep
the values of finished nodes and the list of nodes in progress, and stop at the
first error.

The recursion goes from a node to the nodes its arguments name.  It is bounded
by the number of nodes, since a node in progress is not entered again; the bound
is a parameter of the model, and running out of it reads as the cycle it would
have to be.  `f64::clamp` panics when its bounds are out of order; the panic is
written as a backend error.
-/

namespace OrbitOpenEO

/-- The nodes of a callback. -/
abbrev SubGraph := List (String × Json)

/-- `require_subgraph`. -/
def requireSubgraph (v : Json) (field : String) : Except ExecError SubGraph :=
  match v.get "process_graph" with
  | some (.obj pg) =>
      if pg.isEmpty then .error (.invalidGraph s!"{field}: process_graph is empty")
      else .ok pg
  | _ => .error (.invalidGraph s!"{field}: must be a Process with `process_graph` sub-callback")

/-- Whether a node is marked `"result": true`. -/
def isResultNode (node : Json) : Bool :=
  match node.get "result" with
  | some (.bool b) => b
  | _ => false

/-- `find_unique_result_node`. -/
def findUniqueResultNode (graph : SubGraph) (field : String) : Except ExecError (String × Json) :=
  match graph.filter (fun e => isResultNode e.2) with
  | [] => .error (.invalidGraph s!"{field}: process_graph has no `result: true` node")
  | [e] => .ok e
  | _ => .error (.invalidGraph s!"{field}: process_graph has multiple result nodes")

/-- `result_process_id`. -/
def resultProcessId (node : Json) (field : String) : Except ExecError String :=
  match (node.get "process_id").bind Json.asStr with
  | some pid => .ok pid
  | none => .error (.invalidGraph s!"{field}: result node has no `process_id`")

/-- A resolved argument: a scalar, or an array of scalars. -/
inductive ArgVal where
  | num (x : F64)
  | arr (xs : List F64)

namespace ArgVal

/-- `ArgVal::as_num`. -/
def asNum (v : ArgVal) (who : String) : Except ExecError F64 :=
  match v with
  | .num x => .ok x
  | .arr _ => .error (.invalidGraph s!"apply: `{who}` expected scalar, got array")

/-- `ArgVal::as_pair`. -/
def asPair (v : ArgVal) (who : String) : Except ExecError (F64 × F64) :=
  match v with
  | .arr [x, y] => .ok (x, y)
  | _ => .error (.invalidGraph s!"apply: `{who}` expected 2-element array")

end ArgVal

namespace ApplyKernel

/-- `0.0` and `1.0` for a truth value. -/
def ofBool (b : Bool) : F64 := if b then .finite 1 else .finite 0

/-- The two operands: `x` and `y`, or `data: [a, b]`. -/
def two (args : BTreeMap ArgVal) (who : String) : Except ExecError (F64 × F64) :=
  match args.get "x", args.get "y" with
  | some x, some y => do
      let x ← x.asNum "x"
      let y ← y.asNum "y"
      .ok (x, y)
  | _, _ =>
      match args.get "data" with
      | some d => d.asPair who
      | none => .error (.invalidGraph s!"apply: `{who}` needs `x`+`y` or `data: [a, b]`")

/-- The one operand: `x` or `data`. -/
def one (args : BTreeMap ArgVal) (who : String) : Except ExecError F64 :=
  match args.get "x" with
  | some x => x.asNum "x"
  | none =>
      match args.get "data" with
      | some d => d.asNum "data"
      | none => .error (.invalidGraph s!"apply: `{who}` needs `x` or `data`")

/-- A scalar under `key`, or else under `other`. -/
def named (args : BTreeMap ArgVal) (key other missing : String) : Except ExecError F64 :=
  match (args.get key).or (args.get other) with
  | some v => v.asNum key
  | none => .error (.invalidGraph missing)

/-- A scalar under `key`. -/
def required (args : BTreeMap ArgVal) (who key : String) : Except ExecError F64 :=
  match args.get key with
  | some v => v.asNum key
  | none => .error (.invalidGraph s!"apply: `{who}` needs `{key}`")

/-- A process of two operands. -/
def binary (args : BTreeMap ArgVal) (who : String) (op : F64 → F64 → F64) :
    Except ExecError F64 := do
  let p ← two args who
  .ok (op p.1 p.2)

/-- A process of one operand. -/
def unary (args : BTreeMap ArgVal) (who : String) (op : F64 → F64) : Except ExecError F64 := do
  let x ← one args who
  .ok (op x)

/-- `x.clamp(lo, hi)`, with its panic on bounds out of order. -/
def clamp (x lo hi : F64) : Except ExecError F64 :=
  if F64.le lo hi then .ok (F64.clamp x lo hi)
  else .error (.backend "panicked: min > max, or either was NaN")

/-- `clip`. -/
def clip (args : BTreeMap ArgVal) : Except ExecError F64 := do
  let x ← named args "x" "data" "apply: `clip` needs `x` or `data`"
  let lo ← required args "clip" "min"
  let hi ← required args "clip" "max"
  clamp x lo hi

/-- `linear_scale_range`. -/
def linearScaleRange (f : MathOps) (args : BTreeMap ArgVal) : Except ExecError F64 := do
  let x ← named args "x" "data" "apply: `linear_scale_range` needs `x` or `data`"
  let inMin ← required args "linear_scale_range" "inputMin"
  let inMax ← required args "linear_scale_range" "inputMax"
  let outMin ← (args.get "outputMin").elim (.ok (.finite 0)) (fun v => v.asNum "outputMin")
  let outMax ← (args.get "outputMax").elim (.ok (.finite 1)) (fun v => v.asNum "outputMax")
  if F64.lt (f.sub inMax inMin).abs (.finite (1 / 1000000000000)) then
    .error (.invalidGraph "apply: linear_scale_range: inputMin == inputMax")
  else
    .ok (f.add (f.div (f.mul (f.sub x inMin) (f.sub outMax outMin)) (f.sub inMax inMin)) outMin)

/-- `round`. -/
def round (f : MathOps) (args : BTreeMap ArgVal) : Except ExecError F64 := do
  let x ← one args "round"
  let p :=
    match args.get "p" with
    | some (.num p) => p
    | _ => .finite 0
  let factor := f.tenPowi p
  .ok (f.div (f.roundTiesEven (f.mul x factor)) factor)

/-- `between`. -/
def between (args : BTreeMap ArgVal) : Except ExecError F64 := do
  let x ← named args "x" "data" "apply: `between` needs `x`"
  let lo ← required args "between" "min"
  let hi ← required args "between" "max"
  .ok (ofBool (F64.le lo x && F64.le x hi))

/-- `divide` and `normalized_difference`: a zero denominator is an error of this
pixel only. -/
def quotient (args : BTreeMap ArgVal) (who msg : String) (num den : F64 → F64 → F64)
    (div : F64 → F64 → F64) : Except ExecError F64 := do
  let p ← two args who
  if (den p.1 p.2).isZero then .error (.perPixelComputation msg)
  else .ok (div (num p.1 p.2) (den p.1 p.2))

/-- `apply_pure_numeric_op`. -/
def applyPureNumericOp (f : MathOps) (processId : String) (args : BTreeMap ArgVal) :
    Except ExecError F64 :=
  match processId with
  | "add" => binary args "add" f.add
  | "subtract" => binary args "subtract" f.sub
  | "multiply" => binary args "multiply" f.mul
  | "divide" => quotient args "divide" "apply: divide by zero" (fun x _ => x) (fun _ y => y) f.div
  | "power" => do
      let base ← named args "base" "x" "apply: `power` needs `base` or `x`"
      let p ← named args "p" "y" "apply: `power` needs `p` or `y`"
      .ok (f.powf base p)
  | "absolute" | "abs" => unary args "absolute" F64.abs
  | "ln" => unary args "ln" f.ln
  | "log" => do
      let x ← named args "x" "data" "apply: `log` needs `x` or `data`"
      let base ← named args "base" "y" "apply: `log` needs `base` or `y`"
      .ok (f.log x base)
  | "exp" => unary args "exp" f.exp
  | "eq" => binary args "eq"
      (fun x y => ofBool (F64.lt (f.sub x y).abs (.finite (1 / 1000000000))))
  | "neq" => binary args "neq"
      (fun x y => ofBool (F64.le (.finite (1 / 1000000000)) (f.sub x y).abs))
  | "lt" => binary args "lt" (fun x y => ofBool (F64.lt x y))
  | "lte" => binary args "lte" (fun x y => ofBool (F64.le x y))
  | "gt" => binary args "gt" (fun x y => ofBool (F64.lt y x))
  | "gte" => binary args "gte" (fun x y => ofBool (F64.le y x))
  | "and" => binary args "and" (fun x y => ofBool (!x.isZero && !y.isZero))
  | "or" => binary args "or" (fun x y => ofBool (!x.isZero || !y.isZero))
  | "not" => unary args "not" (fun x => ofBool x.isZero)
  | "max" => binary args "max" F64.max
  | "min" => binary args "min" F64.min
  | "clip" => clip args
  | "linear_scale_range" => linearScaleRange f args
  | "mod" => binary args "mod" (fun x y => f.sub x (f.mul y (f.floor (f.div x y))))
  | "sgn" | "sign" => unary args "sgn" F64.signum
  | "floor" => unary args "floor" f.floor
  | "ceil" => unary args "ceil" f.ceil
  | "int" => unary args "int" f.trunc
  | "round" => round f args
  | "sqrt" => unary args "sqrt" f.sqrt
  | "normalized_difference" =>
      quotient args "normalized_difference" "apply: normalized_difference x + y == 0"
        f.sub f.add f.div
  | "between" => between args
  | "cos" => unary args "cos" f.cos
  | "sin" => unary args "sin" f.sin
  | "tan" => unary args "tan" f.tan
  | "arccos" => unary args "arccos" f.acos
  | "arcsin" => unary args "arcsin" f.asin
  | "arctan" => unary args "arctan" f.atan
  | "arctan2" =>
      match args.get "y", args.get "x" with
      | some y, some x => do
          let y ← y.asNum "y"
          let x ← x.asNum "x"
          .ok (f.atan2 y x)
      | _, _ => binary args "arctan2" f.atan2
  | other => .error (.invalidGraph s!"apply: unsupported sub-process `{other}`")

end ApplyKernel

/-- Evaluation of a callback, with the values of the finished nodes. -/
abbrev CallbackM (α : Type) := StateT (String → Option α) (Except ExecError)

section ApplyCallback

variable (P : Platform)

mutual

/-- `resolve_arg_value`; `node` evaluates the node a reference names. -/
def resolveArgValue (node : String → CallbackM F64 F64) (x : F64) : Json → CallbackM F64 ArgVal
  | .num n => pure (.num (n.asF64 P.f64.toFloatOps))
  | .obj fs =>
      match fs.lookup "from_parameter" with
      | some (.str _) => pure (.num x)
      | _ =>
          match linkTarget fs with
          | some target => do
              let v ← node target
              pure (.num v)
          | none => throw (.invalidGraph
              s!"apply: unsupported argument shape: {P.jsonText (.obj fs)}")
  | .arr xs => do
      let vs ← resolveItems node x xs
      pure (.arr vs)
  | .null => throw (.invalidGraph "apply: null argument value")
  | v => throw (.invalidGraph s!"apply: unsupported argument value: {P.jsonText v}")

/-- The loop over the items of an array argument. -/
def resolveItems (node : String → CallbackM F64 F64) (x : F64) :
    List Json → CallbackM F64 (List F64)
  | [] => pure []
  | v :: vs => do
      match (← resolveArgValue node x v) with
      | .num n => do
          let ns ← resolveItems node x vs
          pure (n :: ns)
      | .arr _ => throw (.invalidGraph
          "apply: nested arrays not supported in sub-graph arguments")

end

/-- The loop over the arguments of a node. -/
def resolveArgs (node : String → CallbackM F64 F64) (x : F64) :
    List (String × Json) → BTreeMap ArgVal → CallbackM F64 (BTreeMap ArgVal)
  | [], resolved => pure resolved
  | (k, v) :: args, resolved => do
      let r ← resolveArgValue P node x v
      resolveArgs node x args (resolved.insert k r)

/-- `eval_node_inline`. -/
def evalNodeInline (nodes : SubGraph) (x : F64) : Nat → List String → String → CallbackM F64 F64
  | 0, _, id => throw (.invalidGraph s!"apply: cycle detected at node `{id}`")
  | bound + 1, inProgress, id => do
      match (← get) id with
      | some v => pure v
      | none =>
          if id ∈ inProgress then
            throw (.invalidGraph s!"apply: cycle detected at node `{id}`")
          else
            match nodes.lookup id with
            | none => throw (.invalidGraph s!"apply: unknown node reference `{id}`")
            | some node =>
                match (node.get "process_id").bind Json.asStr with
                | none => throw (.invalidGraph s!"apply: node `{id}` has no process_id")
                | some pid =>
                    match node.get "arguments" with
                    | some (.obj args) => do
                        let resolved ← resolveArgs P
                          (evalNodeInline nodes x bound (inProgress ++ [id])) x args BTreeMap.empty
                        let value ← liftM (ApplyKernel.applyPureNumericOp P.f64 pid resolved)
                        modify (fun memo => Function.update memo id (some value))
                        pure value
                    | _ => throw (.invalidGraph s!"apply: node `{id}` has no arguments object")

/-- `eval_apply_subgraph`: the value of a callback at one pixel. -/
def evalApplySubgraph (subPg : Json) (x : F64) : Except ExecError F64 :=
  match subPg with
  | .obj pg =>
      if pg.isEmpty then .error (.invalidGraph "apply: process_graph is empty")
      else do
        let result ← findUniqueResultNode pg "apply"
        let out ← (evalNodeInline P pg x (pg.length + 1) [] result.1).run (fun _ => none)
        .ok out.1
  | _ => .error (.invalidGraph "apply: process_graph must be an object")

end ApplyCallback

end OrbitOpenEO
