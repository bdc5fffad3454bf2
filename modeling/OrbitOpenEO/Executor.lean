import OrbitOpenEO.ProcessGraphAnalysis
import OrbitOpenEO.Lib.Program

/-!
# The executors

`LocalExecutor` and `GeoExecutor` walk an analysed process graph in the order
`evaluation_order` gives, keep the value of every node in a memo table and hand
each node to the code of its process.  The walk is a `Program` whose requests
are these dispatches, so that a statement about all its paths holds for
whatever the processes return.

The two walks differ in one point: `GeoExecutor` looks the process up in its
registry first and fails with a list of similar names if it is not there, while
`LocalExecutor` dispatches by a `match` with an `UnknownProcess` arm.
-/

namespace OrbitOpenEO

open Lib

/-- Errors a process-graph execution can surface. -/
inductive ExecError where
  | invalidGraph (msg : String)
  | unknownProcess (msg : String)
  | backend (msg : String)
  | perPixelComputation (msg : String)
deriving DecidableEq

/-- The text of an execution error. -/
def ExecError.toText : ExecError → String
  | .invalidGraph msg => s!"invalid process graph: {msg}"
  | .unknownProcess msg => s!"unknown process: {msg}"
  | .backend msg => s!"backend error: {msg}"
  | .perPixelComputation msg => s!"per-pixel computation error: {msg}"

/-- The values of the nodes evaluated so far. -/
abbrev Memo := String → Option Json

/-- A node handed to the code of its process. -/
structure Dispatch where
  nodeId : String
  processId : String
  args : BTreeMap Json

/-- Evaluation code: it dispatches nodes and gets values or errors back. -/
abbrev Evaluation := Program (fun _ : Dispatch => Except ExecError Json)

/-- The body both executors share for `resolve_value`: an object with the one
member `from_node` stands for the memoised value, everything else for itself. -/
def resolveLink (v : Json) (memo : Memo) : Except ExecError Json :=
  match v with
  | .obj fs =>
      if fs.length = 1 then
        match linkTarget fs with
        | some target =>
            match memo target with
            | some out => .ok out
            | none => .error (.invalidGraph s!"upstream node `{target}` not yet evaluated")
        | none => .ok v
      else .ok v
  | _ => .ok v

/-- The loop of `evaluate`.  `missing` is the check made between the arguments
and the dispatch: the error for a process that cannot be dispatched. -/
def walk (resolveValue : Json → Memo → Except ExecError Json)
    (missing : String → Option ExecError) (graph : ProcessGraph) :
    List String → Memo → Evaluation (Except ExecError Memo)
  | [], memo => .done (.ok memo)
  | nodeId :: order, memo =>
      match graph.nodes.get nodeId with
      | none => .done (.error (.invalidGraph s!"unknown node `{nodeId}`"))
      | some node =>
          match node.arguments.tryMap (fun v => resolveValue v memo) with
          | .error e => .done (.error e)
          | .ok resolvedArgs =>
              match missing node.processId with
              | some e => .done (.error e)
              | none =>
                  .call ⟨nodeId, node.processId, resolvedArgs⟩ fun
                    | .error e => .done (.error e)
                    | .ok out =>
                        walk resolveValue missing graph order
                          (Function.update memo nodeId (some out))

/-- The walk over a whole graph, from `build` to the value of the result node,
which is returned with its id. -/
def evaluateResult (resolveValue : Json → Memo → Except ExecError Json)
    (missing : String → Option ExecError) (P : Petgraph) (graph : ProcessGraph) :
    Evaluation (Except ExecError (String × Json)) :=
  match build P graph with
  | .error e => .done (.error (.invalidGraph e.toText))
  | .ok analysis => do
      let memo ← walk resolveValue missing graph (evaluationOrder P analysis) (fun _ => none)
      match memo with
      | .error e => .done (.error e)
      | .ok memo =>
          match memo analysis.resultId with
          | some out => .done (.ok (analysis.resultId, out))
          | none => .done (.error (.invalidGraph "result node was not visited during topo walk"))

/-- Errors a catalog backend can surface. -/
inductive CatalogError where
  | notFound (id : String)
  | backend (msg : String)

/-- The text of a catalog error. -/
def CatalogError.toText : CatalogError → String
  | .notFound id => s!"collection not found: {id}"
  | .backend msg => s!"catalog backend error: {msg}"

/-- The part of a collection that `load_collection` reads. -/
structure Collection where
  stacVersion : String
  description : String

/-- `CollectionCatalog::get`. -/
abbrev CollectionCatalog := String → Except CatalogError Collection

/-- Whether a catalog is wired in. -/
structure LocalExecutor where
  catalog : Option CollectionCatalog

namespace LocalExecutor

/-- `resolve_value` of `executor.rs`. -/
def resolveValue : Json → Memo → Except ExecError Json := resolveLink

/-- `number` of `executor.rs`. -/
def number (ops : FloatOps) (opt : Option Json) : Except ExecError F64 :=
  match opt.bind (Json.asF64 ops) with
  | some x => .ok x
  | none => .error (.invalidGraph "expected numeric argument")

/-- The `load_collection` arm: with a catalog the collection must exist and its
metadata goes into the sentinel. -/
def loadCollection (exe : LocalExecutor) (args : BTreeMap Json) : Except ExecError Json :=
  let idArg := (args.get "id").getD .null
  match exe.catalog with
  | none => .ok (.obj [("type", .str "DataCube"), ("collection", idArg)])
  | some get =>
      match idArg.asStr with
      | none => .error (.invalidGraph "load_collection: `id` argument must be a string")
      | some idStr =>
          match get idStr with
          | .ok collection =>
              .ok (.obj
                ([("type", .str "DataCube"), ("collection", idArg),
                  ("stac_version", .str collection.stacVersion)] ++
                  if collection.description.isEmpty then []
                  else [("description", .str collection.description)]))
          | .error (.notFound id) => .error (.backend s!"CollectionNotFound: {id}")
          | .error e => .error (.backend ("catalog: " ++ e.toText))

/-- The arms `add`, `subtract` and `multiply`. -/
def numericArm (ops : FloatOps) (op : F64 → F64 → F64) (args : BTreeMap Json) :
    Except ExecError Json := do
  let x ← number ops (args.get "x")
  let y ← number ops (args.get "y")
  .ok (Json.ofF64 (op x y))

/-- The `divide` arm, which refuses a zero divisor. -/
def divideArm (ops : FloatOps) (args : BTreeMap Json) : Except ExecError Json := do
  let x ← number ops (args.get "x")
  let y ← number ops (args.get "y")
  if y.isZero then .error (.invalidGraph "divide: y must be non-zero")
  else .ok (Json.ofF64 (ops.div x y))

/-- The `match` on the process id. -/
def process (ops : FloatOps) (exe : LocalExecutor) (d : Dispatch) : Except ExecError Json :=
  match d.processId with
  | "load_collection" => exe.loadCollection d.args
  | "save_result" => .ok ((d.args.get "data").getD .null)
  | "add" => numericArm ops ops.add d.args
  | "subtract" => numericArm ops ops.sub d.args
  | "multiply" => numericArm ops ops.mul d.args
  | "divide" => divideArm ops d.args
  | other => .error (.unknownProcess other)

/-- `LocalExecutor::evaluate`, up to what `process` replies. -/
def evaluate (P : Petgraph) (graph : ProcessGraph) : Evaluation (Except ExecError Json) := do
  let result ← evaluateResult resolveValue (fun _ => none) P graph
  .done (result.map Prod.snd)

end LocalExecutor

/-- A process handler; what it reads of the executor is fixed beforehand. -/
abbrev ProcessHandler := BTreeMap Json → Except ExecError Json

/-- Handlers by process name, each name once. -/
structure ProcessRegistry where
  handlers : List (String × ProcessHandler)

namespace ProcessRegistry

/-- `ProcessRegistry::new`. -/
def empty : ProcessRegistry := ⟨[]⟩

/-- `ProcessRegistry::register`: a handler already there is replaced. -/
def register (reg : ProcessRegistry) (name : String) (handler : ProcessHandler) :
    ProcessRegistry :=
  ⟨(name, handler) :: reg.handlers.filter (fun e => e.1 != name)⟩

/-- `ProcessRegistry::get`. -/
def get (reg : ProcessRegistry) (name : String) : Option ProcessHandler :=
  reg.handlers.lookup name

/-- One row of the table in `levenshtein`: `row` is the previous one, from the
cell above on; `diag` and `left` are the cells to the upper left and left. -/
def levenshteinRow (ca : Char) : List Char → List Nat → Nat → Nat → List Nat
  | cb :: bs, up :: row, diag, left =>
      let cell := min (min (up + 1) (left + 1)) (diag + if ca = cb then 0 else 1)
      cell :: levenshteinRow ca bs row up cell
  | _, _, _, _ => []

/-- The loop over the rows; `i` is the number of rows done. -/
def levenshteinRows (b : List Char) : List Char → Nat → List Nat → List Nat
  | [], _, prev => prev
  | ca :: a, i, prev =>
      let curr := (i + 1) :: levenshteinRow ca b prev.tail (prev.headD 0) (i + 1)
      levenshteinRows b a (i + 1) curr

/-- `levenshtein`. -/
def levenshtein (a b : String) : Nat :=
  let a := a.toList
  let b := b.toList
  if a.isEmpty then b.length
  else if b.isEmpty then a.length
  else (levenshteinRows b a 0 (List.range (b.length + 1))).getLastD 0

/-- Nearer first, then alphabetically. -/
def closer (p q : Nat × String) : Bool :=
  decide (p.1 < q.1) || (p.1 == q.1 && decide (p.2 ≤ q.2))

/-- `ProcessRegistry::suggest`. -/
def suggest (reg : ProcessRegistry) (name : String) (max : Nat) : List String :=
  let threshold := Nat.max (name.utf8ByteSize / 3) 2
  let scored := (reg.handlers.map (fun e => (levenshtein name e.1, e.1))).filter
    (fun p => decide (p.1 ≤ threshold))
  ((scored.mergeSort closer).take max).map Prod.snd

/-- The error for a process that is not registered. -/
def missing (reg : ProcessRegistry) (name : String) : Option ExecError :=
  match reg.get name with
  | some _ => none
  | none =>
      let hints := reg.suggest name 3
      if hints.isEmpty then some (.unknownProcess name)
      else some (.unknownProcess (name ++ " (did you mean: " ++ ", ".intercalate hints ++ ")"))

end ProcessRegistry

namespace GeoExecutor

/-- `resolve_value` of `geo_executor/mod.rs`. -/
def resolveValue : Json → Memo → Except ExecError Json := resolveLink

/-- `arg_number`. -/
def argNumber (ops : FloatOps) (args : BTreeMap Json) (key : String) : Except ExecError F64 :=
  match (args.get key).bind (Json.asF64 ops) with
  | some x => .ok x
  | none => .error (.invalidGraph s!"expected numeric `{key}` argument")

/-- The handlers of `add`, `subtract` and `multiply`. -/
def numericHandler (ops : FloatOps) (op : F64 → F64 → F64) : ProcessHandler := fun args => do
  let x ← argNumber ops args "x"
  let y ← argNumber ops args "y"
  .ok (Json.ofF64 (op x y))

def addHandler (ops : FloatOps) : ProcessHandler := numericHandler ops ops.add

def subtractHandler (ops : FloatOps) : ProcessHandler := numericHandler ops ops.sub

def multiplyHandler (ops : FloatOps) : ProcessHandler := numericHandler ops ops.mul

/-- `DivideHandler`, which refuses a zero divisor. -/
def divideHandler (ops : FloatOps) : ProcessHandler := fun args => do
  let x ← argNumber ops args "x"
  let y ← argNumber ops args "y"
  if y.isZero then .error (.invalidGraph "divide: y must be non-zero")
  else .ok (Json.ofF64 (ops.div x y))

/-- The registered names before the arithmetic ones. -/
def cubeProcesses : List String :=
  ["load_collection", "ndvi", "mask", "mask_from_values", "mask_scl_dilation",
    "reduce_dimension", "apply", "save_result", "resample_spatial", "zonal_histogram",
    "aggregate_spatial_polygon", "aggregate_spatial_point", "merge_cubes",
    "aggregate_spatial", "fit_classifier", "predict_classifier"]

/-- The registered names after them. -/
def scalarAndArrayProcesses : List String :=
  ["filter_temporal", "filter_spatial", "filter_bbox", "filter_bands", "rename_labels",
    "add_dimension", "drop_dimension", "absolute", "sqrt", "exp", "ln", "log", "power",
    "sgn", "floor", "ceil", "int", "round", "mod", "clip", "normalized_difference", "cos",
    "sin", "tan", "arccos", "arcsin", "arctan", "arctan2", "eq", "neq", "gt", "gte", "lt",
    "lte", "between", "and", "or", "xor", "not", "array_element", "array_create",
    "array_concat", "array_append", "array_contains", "array_find", "count", "order", "sort"]

/-- Register a list of names, each with the handler `handlerOf` has for it. -/
def registerAll (handlerOf : String → ProcessHandler) (names : List String)
    (reg : ProcessRegistry) : ProcessRegistry :=
  names.foldl (fun reg name => reg.register name (handlerOf name)) reg

/-- `register_defaults`.  The handlers other than the four arithmetic ones are
the parameter `handlerOf`. -/
def registerDefaults (ops : FloatOps) (handlerOf : String → ProcessHandler)
    (reg : ProcessRegistry) : ProcessRegistry :=
  registerAll handlerOf scalarAndArrayProcesses <|
    ((((registerAll handlerOf cubeProcesses reg).register "add" (addHandler ops)).register
      "subtract" (subtractHandler ops)).register "multiply" (multiplyHandler ops)).register
      "divide" (divideHandler ops)

/-- `GeoExecutor::evaluate`, up to what the handlers reply.  The result node's
process is returned with the value. -/
def evaluate (P : Petgraph) (registry : ProcessRegistry) (graph : ProcessGraph) :
    Evaluation (Except ExecError (String × Json)) := do
  let result ← evaluateResult resolveValue registry.missing P graph
  .done (result.map (fun r =>
    (((graph.nodes.get r.1).map Process.processId).getD "", r.2)))

/-- What the registered handler replies.  The walk dispatches registered
processes only, so the other branch is not reached. -/
def handle (registry : ProcessRegistry) (d : Dispatch) : Except ExecError Json :=
  match registry.get d.processId with
  | some handler => handler d.args
  | none => .error (.unknownProcess d.processId)

end GeoExecutor

end OrbitOpenEO
