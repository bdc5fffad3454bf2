import OrbitOpenEO.Callbacks
import Mathlib.Data.List.Sort

/-!
# Reducers

`reduce_dimension` and the overlap resolver of `merge_cubes` collapse the values
of a pixel along one axis.  A callback that is a single statistical process runs
as a numeric loop (`Reducer`), any other one is evaluated node by node for each
pixel.  All arithmetic is that of `f32`.
-/

namespace OrbitOpenEO

/-- The built-in statistical reducers. -/
inductive Reducer where
  | mean
  | min
  | max
  | sum
  | median
  | count
  | first
  | last
  | sd
  | variance
deriving DecidableEq

namespace Reducer

/-- `Reducer::name`. -/
def name : Reducer → String
  | .mean => "mean"
  | .min => "min"
  | .max => "max"
  | .sum => "sum"
  | .median => "median"
  | .count => "count"
  | .first => "first"
  | .last => "last"
  | .sd => "sd"
  | .variance => "variance"

/-- `Reducer::from_process_id`. -/
def fromProcessId (pid : String) : Option Reducer :=
  match pid with
  | "mean" => some .mean
  | "min" => some .min
  | "max" => some .max
  | "sum" => some .sum
  | "median" => some .median
  | "count" => some .count
  | "first" => some .first
  | "last" => some .last
  | "sd" | "stdev" => some .sd
  | "variance" | "var" => some .variance
  | _ => none

end Reducer

section ApplyReducer

variable (f : MathOps)

/-- `iter().sum()`. -/
def sumOf (stack : List F64) : F64 := stack.foldl f.add (f.ofInt 0)

/-- `sort_by(partial_cmp)`: an element is moved only before a greater one. -/
def sortStack (stack : List F64) : List F64 :=
  stack.insertionSort (fun a b => F64.lt b a = false)

/-- The `Median` arm: the middle value, or the mean of the two middle ones. -/
def medianOf (stack : List F64) : F64 :=
  let sorted := sortStack stack
  let n := sorted.length
  if n % 2 = 1 then sorted.getD (n / 2) .nan
  else f.div (f.add (sorted.getD (n / 2 - 1) .nan) (sorted.getD (n / 2) .nan)) (f.ofInt 2)

/-- The `Variance` arm. -/
def varianceOf (stack : List F64) : F64 :=
  if stack.length < 2 then .finite 0
  else
    let n := f.ofInt stack.length
    let mean := f.div (sumOf f stack) n
    let squares := stack.map (fun v => f.mul (f.sub v mean) (f.sub v mean))
    f.div (sumOf f squares) (f.sub n (f.ofInt 1))

/-- `apply_reducer`, on a stack that is not empty. -/
def applyReducer (stack : List F64) : Reducer → F64
  | .mean => f.div (sumOf f stack) (f.ofInt stack.length)
  | .min => stack.foldl F64.min .posInf
  | .max => stack.foldl F64.max .negInf
  | .sum => sumOf f stack
  | .count => f.ofInt stack.length
  | .first => stack.headD .nan
  | .last => stack.getLastD .nan
  | .median => medianOf f stack
  | .variance => varianceOf f stack
  | .sd =>
      -- The early return for a single value skips the square root.
      if stack.length < 2 then .finite 0 else f.sqrt (varianceOf f stack)

end ApplyReducer

/-- `ReducerKind`. -/
inductive ReducerKind where
  | builtin (r : Reducer)
  | subGraph (pg : SubGraph)

/-- `reducer_kind_label`. -/
def ReducerKind.label : ReducerKind → String
  | .builtin r => r.name
  | .subGraph _ => "subgraph"

/-- The scalar processes of a reducer callback. -/
def reduceScalarOps : List String :=
  ["add", "subtract", "multiply", "divide", "power", "absolute", "clip", "min", "max", "sqrt",
    "exp", "ln", "mod", "sgn", "sign", "floor", "ceil", "int", "round", "normalized_difference",
    "between", "cos", "sin", "tan", "arccos", "arcsin", "arctan", "arctan2"]

/-- `validate_reduce_subgraph_processes`. -/
def validateReduceSubgraphProcesses : SubGraph → Except ExecError Unit
  | [] => .ok ()
  | (id, node) :: pg =>
      match (node.get "process_id").bind Json.asStr with
      | none => .error (.invalidGraph
          s!"reduce_dimension.reducer: node `{id}` has no process_id")
      | some pid =>
          if (Reducer.fromProcessId pid).isSome ∨ pid ∈ reduceScalarOps then
            validateReduceSubgraphProcesses pg
          else .error (.invalidGraph
            s!"reduce_dimension.reducer: unsupported process `{pid}` in reducer callback (supported: statistical reducers + arithmetic/trig/rounding/comparison scalar ops)")

/-- `parse_reducer_subgraph`. -/
def parseReducerSubgraph (reducer : Json) : Except ExecError ReducerKind := do
  let pg ← requireSubgraph reducer "reduce_dimension.reducer"
  let result ← findUniqueResultNode pg "reduce_dimension.reducer"
  let pid ← resultProcessId result.2 "reduce_dimension.reducer"
  match Reducer.fromProcessId pid with
  | some r =>
      if pg.length = 1 then .ok (.builtin r)
      else do
        validateReduceSubgraphProcesses pg
        .ok (.subGraph pg)
  | none => do
      validateReduceSubgraphProcesses pg
      .ok (.subGraph pg)

/-- An intermediate value of a reducer callback. -/
inductive RedVal where
  | scalar (x : F64)
  | array (xs : List F64)

/-- The `scalar` closure of `eval_reduce_node`. -/
def RedVal.scalarOf (v : RedVal) (who : String) : Except ExecError F64 :=
  match v with
  | .scalar x => .ok x
  | .array _ => .error (.perPixelComputation
      s!"reduce_dimension.reducer: `{who}` expected scalar, got array")

section ReduceCallback

variable (P : Platform)

/-- The `resolve` closure of `eval_reduce_node`. -/
def resolveReduceArg (node : String → CallbackM RedVal RedVal) (stack : List F64) (id : String)
    (args : Option (List (String × Json))) (key : String) : CallbackM RedVal RedVal :=
  match args.bind (List.lookup key) with
  | none => throw (.invalidGraph s!"reduce_dimension.reducer: node `{id}` missing arg `{key}`")
  | some (.num n) => pure (.scalar (P.toF32 (n.asF64 P.f64.toFloatOps)))
  | some (.obj fs) =>
      match fs.lookup "from_parameter" with
      | some (.str p) =>
          if p = "data" then pure (.array stack)
          else throw (.invalidGraph
            s!"reduce_dimension.reducer: only `data` parameter is bound (got `{p}`)")
      | _ =>
          match linkTarget fs with
          | some target => node target
          | none => throw (.invalidGraph
              s!"reduce_dimension.reducer: node `{id}` arg `{key}` has unsupported shape")
  | some _ => throw (.invalidGraph
      s!"reduce_dimension.reducer: node `{id}` arg `{key}` has unsupported shape")

/-- The scalar processes of `eval_reduce_node`; `arg` resolves a scalar argument
and `p` is the number of digits of `round`. -/
def reduceScalarOp (f : MathOps) (arg : String → CallbackM RedVal F64) (p : F64) (pid : String) :
    CallbackM RedVal F64 :=
  let unary (key : String) (op : F64 → F64) : CallbackM RedVal F64 := do
    let x ← arg key
    pure (op x)
  let binary (k₁ k₂ : String) (op : F64 → F64 → F64) : CallbackM RedVal F64 := do
    let x ← arg k₁
    let y ← arg k₂
    pure (op x y)
  match pid with
  | "add" => binary "x" "y" f.add
  | "subtract" => binary "x" "y" f.sub
  | "multiply" => binary "x" "y" f.mul
  | "divide" => do
      -- The denominator is resolved and tested first.
      let y ← arg "y"
      if y.isZero then
        throw (.perPixelComputation "reduce_dimension.reducer: divide by zero")
      else do
        let x ← arg "x"
        pure (f.div x y)
  | "power" => binary "base" "p" f.powf
  | "absolute" => unary "x" F64.abs
  | "sqrt" => unary "x" f.sqrt
  | "exp" => unary "p" f.exp
  | "ln" => unary "x" f.ln
  | "min" => binary "x" "y" F64.min
  | "max" => binary "x" "y" F64.max
  | "clip" => do
      let x ← arg "x"
      let lo ← arg "min"
      let hi ← arg "max"
      liftM (ApplyKernel.clamp x lo hi)
  | "mod" => binary "x" "y" (fun x y => f.sub x (f.mul y (f.floor (f.div x y))))
  | "sgn" | "sign" => unary "x" F64.signum
  | "floor" => unary "x" f.floor
  | "ceil" => unary "x" f.ceil
  | "int" => unary "x" f.trunc
  | "round" => unary "x" (fun x => f.div (f.roundTiesEven (f.mul x (f.tenPowi p))) (f.tenPowi p))
  | "normalized_difference" => do
      let x ← arg "x"
      let y ← arg "y"
      if (f.add x y).isZero then
        throw (.perPixelComputation "reduce_dimension.reducer: normalized_difference x + y == 0")
      else pure (f.div (f.sub x y) (f.add x y))
  | "between" => do
      let x ← arg "x"
      let lo ← arg "min"
      let hi ← arg "max"
      pure (ApplyKernel.ofBool (F64.le lo x && F64.le x hi))
  | "cos" => unary "x" f.cos
  | "sin" => unary "x" f.sin
  | "tan" => unary "x" f.tan
  | "arccos" => unary "x" f.acos
  | "arcsin" => unary "x" f.asin
  | "arctan" => unary "x" f.atan
  | "arctan2" => binary "y" "x" f.atan2
  | other => throw (.invalidGraph s!"reduce_dimension.reducer: unsupported process `{other}`")

/-- The no-data mark of the float outputs. -/
def sentinelNdviNa : F64 := .finite (-9999)

/-- The number of digits `round` reads from its own arguments. -/
def roundDigits (args : Option (List (String × Json))) : F64 :=
  ((args.bind (List.lookup "p")).bind (Json.asF64 P.f64.toFloatOps)).getD (.finite 0)

/-- `eval_reduce_node`. -/
def evalReduceNode (pg : SubGraph) (stack : List F64) :
    Nat → List String → String → CallbackM RedVal RedVal
  | 0, _, id => throw (.invalidGraph s!"reduce_dimension.reducer: cycle at node `{id}`")
  | bound + 1, inProgress, id => do
      match (← get) id with
      | some v => pure v
      | none =>
          if id ∈ inProgress then
            throw (.invalidGraph s!"reduce_dimension.reducer: cycle at node `{id}`")
          else
            match pg.lookup id with
            | none => throw (.invalidGraph s!"reduce_dimension.reducer: unknown node `{id}`")
            | some node =>
                match (node.get "process_id").bind Json.asStr with
                | none => throw (.invalidGraph
                    s!"reduce_dimension.reducer: node `{id}` has no process_id")
                | some pid => do
                    let args :=
                      match node.get "arguments" with
                      | some (.obj args) => some args
                      | _ => none
                    let resolve := resolveReduceArg P
                      (evalReduceNode pg stack bound (inProgress ++ [id])) stack id args
                    let out ← match Reducer.fromProcessId pid with
                      | some reducer => do
                          let arr :=
                            match (← resolve "data") with
                            | .array xs => xs
                            | .scalar x => [x]
                          pure (if arr.isEmpty then sentinelNdviNa
                            else applyReducer P.f32 arr reducer)
                      | none =>
                          reduceScalarOp P.f32
                            (fun key => do liftM ((← resolve key).scalarOf key))
                            (roundDigits P args) pid
                    modify (fun memo => Function.update memo id (some (.scalar out)))
                    pure (.scalar out)

/-- `eval_reduce_subgraph`. -/
def evalReduceSubgraph (pg : SubGraph) (stack : List F64) : Except ExecError F64 := do
  let result ← findUniqueResultNode pg "reduce_dimension.reducer"
  let out ← (evalReduceNode P pg stack (pg.length + 1) [] result.1).run (fun _ => none)
  match out.1 with
  | .scalar x => .ok x
  | .array _ => .error (.perPixelComputation
      "reduce_dimension.reducer: result node returned an array, expected a scalar")

/-- The value the workers write for a stack that is not empty. -/
def ReducerKind.run (kind : ReducerKind) (stack : List F64) : F64 :=
  match kind with
  | .builtin r => applyReducer P.f32 stack r
  | .subGraph pg =>
      match evalReduceSubgraph P pg stack with
      | .ok x => x
      | .error _ => sentinelNdviNa

end ReduceCallback

end OrbitOpenEO
