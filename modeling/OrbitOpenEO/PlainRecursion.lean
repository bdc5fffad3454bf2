import OrbitOpenEO.DefaultSubGraph
import OrbitOpenEO.ReduceMemo

/-!
# Callbacks evaluated with and without a memory

The evaluators of callbacks return what a plain recursion over the nodes returns, as long as
no node waits for itself, and they always end.  The default evaluator may refuse a graph in
which links lead more than 32 levels down.
-/

namespace OrbitOpenEO

open Lib Lib.Asking Relation

/-- An outcome of an evaluator with a memory, which makes `finish` of the value of the result
node.  The recursion ends by itself.  The outcome is that of the plain recursion where no circle
is reached, or there is an excuse; and a circle is reported only where one is reached. -/
structure AgreesWithPlain {V α : Type} (M : MemoEval String V ExecError) (root : String)
    (finish : V → Except ExecError α) (outcome : Except ExecError α) (excuse : Prop) : Prop where
  ends : ∃ enough, ∀ exhausted, ∀ bound ≥ enough,
    (M.result exhausted bound root).bind finish = outcome
  plain : ¬ CycleFrom M.body root →
    (∃ r, Yields M.body root r ∧ outcome = r.bind finish) ∨ excuse
  circle : ∀ id, outcome = .error (M.cyclic id) → CycleFrom M.body root

section Agreement

variable {V α : Type} {M : MemoEval String V ExecError} {root : String}
  {finish : V → Except ExecError α} {outcome : Except ExecError α}

/-- An evaluator agrees with the plain recursion, if its bound is enough and neither the nodes
nor what is made of the value report circles. -/
theorem agreesWithPlain_of_result (exhausted : String → ExecError) {enough : Nat}
    (henough : ∀ exhausted', ∀ bound ≥ enough,
      M.result exhausted' bound root = M.result exhausted enough root)
    (hbound : M.nodes.length < enough)
    (hfails : ∀ i, AllFails (fun e => ∀ j, e ≠ M.cyclic j) (M.body i))
    (hfinish : ∀ v j, finish v ≠ .error (M.cyclic j))
    (hdeep : ∀ j, ¬ M.DepthRefusal root (M.cyclic j))
    (houtcome : outcome = (M.result exhausted enough root).bind finish) :
    AgreesWithPlain M root finish outcome
      (∃ e, M.DepthRefusal root e ∧ outcome = .error e) where
  ends := by
    refine ⟨enough, fun exhausted' bound hge => ?_⟩
    rw [houtcome, henough exhausted' bound hge]
  plain hcycle := by
    rcases MemoEval.result_settled exhausted hbound with h | ⟨e, he, ⟨j, hj, hjj, -⟩ | hrefused⟩
    · exact .inl ⟨_, h, houtcome⟩
    · exact absurd ⟨j, hj, hjj⟩ hcycle
    · exact .inr ⟨e, hrefused, by rw [houtcome, he]; rfl⟩
  circle id hid := by
    rw [houtcome] at hid
    cases hresult : M.result exhausted enough root with
    | ok v =>
        rw [hresult] at hid
        exact absurd hid (hfinish v id)
    | error e =>
        rw [hresult] at hid
        cases hid
        exact MemoEval.cycleFrom_of_result exhausted hbound hfails hdeep hresult

/-- The number of the nodes bounds the recursion. -/
theorem result_bound {exhausted exhausted' : String → ExecError} {bound bound' : Nat}
    (hbound : M.nodes.length < bound) (hbound' : M.nodes.length < bound') :
    M.result exhausted bound root = M.result exhausted' bound' root := by
  unfold MemoEval.result
  rw [M.run_bound exhausted exhausted' List.nodup_nil (fun j hj => absurd hj List.not_mem_nil)
    hbound hbound']

theorem not_depthRefusal (hdeep : ∀ links, M.tooDeep links = none)
    (hshort : ∀ links id, M.cutShort links id = none) (root : String) (e : ExecError) :
    ¬ M.DepthRefusal root e := by
  rintro ⟨path, j, -, h | h⟩
  · rw [hdeep] at h
    cases h
  · rw [hshort] at h
    cases h

/-- An evaluator that refuses no depth has no excuse. -/
theorem agreesWithPlain_of_unlimited (exhausted : String → ExecError)
    (hdeep : ∀ links, M.tooDeep links = none) (hshort : ∀ links id, M.cutShort links id = none)
    (hfails : ∀ i, AllFails (fun e => ∀ j, e ≠ M.cyclic j) (M.body i))
    (hfinish : ∀ v j, finish v ≠ .error (M.cyclic j))
    (houtcome : outcome = (M.result exhausted (M.nodes.length + 1) root).bind finish) :
    AgreesWithPlain M root finish outcome False := by
  have hnone := not_depthRefusal hdeep hshort root
  have h := agreesWithPlain_of_result exhausted (fun _ _ hge =>
    result_bound (Nat.lt_of_succ_le hge) (Nat.lt_succ_self _)) (Nat.lt_succ_self _) hfails hfinish (fun _ => hnone _) houtcome
  exact ⟨h.ends, fun hcycle => (h.plain hcycle).imp_right fun ⟨e, he, _⟩ => hnone e he, h.circle⟩

end Agreement

section Evaluators

variable (P : Platform)

theorem isEmpty_eq_false_of_result {pg : SubGraph} {ctx : String} {result : String × Json}
    (h : findUniqueResultNode pg ctx = .ok result) : pg.isEmpty = false := by
  cases pg with
  | nil =>
      cases h
  | cons e pg =>
      rfl

/-- A graph with a result node is evaluated from that node on. -/
theorem evalApplySubgraph_eq {pg : SubGraph} {result : String × Json}
    (h : findUniqueResultNode pg "apply" = .ok result) (x : F64) :
    evalApplySubgraph P (.obj pg) x =
      (applyEval P x pg).result (applyEval P x pg).cyclic (pg.length + 1) result.1 := by
  unfold evalApplySubgraph MemoEval.result
  dsimp only
  rw [isEmpty_eq_false_of_result h, h, ← evalNodeInline_eq]
  simp only [Bind.bind, Except.bind]
  cases (evalNodeInline P pg x (pg.length + 1) [] result.1).run fun _ => none <;> rfl

/-- What the plain recursion returns for the result node is returned. -/
theorem evalApplySubgraph_eq_iff {pg : SubGraph} {result : String × Json}
    (h : findUniqueResultNode pg "apply" = .ok result) {x : F64} {r : Except ExecError F64}
    (hr : ∀ j, r ≠ .error ((applyEval P x pg).cyclic j)) :
    evalApplySubgraph P (.obj pg) x = r ↔ Yields (applyNode P x pg) result.1 r := by
  have hlength : (applyEval P x pg).nodes.length < pg.length + 1 := by
    unfold applyEval
    rw [List.length_map]
    exact Nat.lt_succ_self _
  rw [evalApplySubgraph_eq P h]
  exact MemoEval.result_eq_iff _ hlength
    (not_depthRefusal (fun _ => rfl) (fun _ _ => rfl) result.1) hr

theorem evalApplySubgraph_agrees {pg : SubGraph} {result : String × Json}
    (h : findUniqueResultNode pg "apply" = .ok result) (x : F64) :
    AgreesWithPlain (applyEval P x pg) result.1 .ok (evalApplySubgraph P (.obj pg) x) False := by
  have hlength : (applyEval P x pg).nodes.length = pg.length := List.length_map _
  refine agreesWithPlain_of_unlimited (applyEval P x pg).cyclic (fun _ => rfl)
    (fun _ _ => rfl) (applyNode_not_cyclic P x pg) (fun _ _ h => nomatch h) ?_
  rw [evalApplySubgraph_eq P h, hlength]
  cases (applyEval P x pg).result (applyEval P x pg).cyclic (pg.length + 1) result.1 <;> rfl

/-- What `eval_reduce_subgraph` makes of the value of the result node. -/
def reducedScalar (v : RedVal) : Except ExecError F64 :=
  match v with
  | .scalar x => .ok x
  | .array _ => .error (.perPixelComputation
      "reduce_dimension.reducer: result node returned an array, expected a scalar")

/-- A graph with a result node is evaluated from that node on. -/
theorem evalReduceSubgraph_eq {pg : SubGraph} {result : String × Json}
    (h : findUniqueResultNode pg "reduce_dimension.reducer" = .ok result) (stack : List F64) :
    evalReduceSubgraph P pg stack =
      ((ReducerCallback.reduceEval P stack pg).result (ReducerCallback.reduceEval P stack pg).cyclic
        (pg.length + 1) result.1).bind reducedScalar := by
  unfold evalReduceSubgraph MemoEval.result
  rw [h, ← ReducerCallback.evalReduceNode_eq]
  simp only [Bind.bind, Except.bind]
  cases (evalReduceNode P pg stack (pg.length + 1) [] result.1).run fun _ => none with
  | error e =>
      rfl
  | ok out =>
      rfl

theorem evalReduceSubgraph_agrees {pg : SubGraph} {result : String × Json}
    (h : findUniqueResultNode pg "reduce_dimension.reducer" = .ok result) (stack : List F64) :
    AgreesWithPlain (ReducerCallback.reduceEval P stack pg) result.1 reducedScalar
      (evalReduceSubgraph P pg stack) False := by
  have hlength : (ReducerCallback.reduceEval P stack pg).nodes.length = pg.length :=
    List.length_map _
  refine agreesWithPlain_of_unlimited (ReducerCallback.reduceEval P stack pg).cyclic
    (fun _ => rfl) (fun _ _ => rfl) (ReducerCallback.reduceNode_not_cyclic P stack pg)
    (fun v j h => ?_) ?_
  · cases v <;> cases h
  · rw [evalReduceSubgraph_eq P h, hlength]

end Evaluators

namespace DefaultSubGraph

variable (P : Platform) (params : BTreeMap Json)

/-- The nodes of a graph that is given by itself or in a process. -/
def NodesOf (graph : Json) (nodes : SubGraph) : Prop :=
  (graph = .obj nodes ∧ containsKey "process_graph" nodes = false) ∨
    graph.get "process_graph" = some (.obj nodes)

theorem evaluateSubgraph_of_nodesOf {graph : Json} {nodes : SubGraph}
    (hnodes : NodesOf graph nodes) (hne : nodes.isEmpty = false) :
    evaluateSubgraph P params graph = (do
      let result ← findUniqueResultNode nodes "subgraph"
      let out ← (evalNodeValue P params nodes (MAX_SUBGRAPH_DEPTH + 1) [] result.1).run
        (fun _ => none)
      .ok out.1) := by
  rcases hnodes with ⟨rfl, hkey⟩ | hwrapped
  · unfold evaluateSubgraph
    dsimp only
    rw [hkey]
    rfl
  · cases graph with
    | obj fs =>
        have hkey : containsKey "process_graph" fs = true := by
          unfold containsKey
          rw [show fs.lookup "process_graph" = some (.obj nodes) from hwrapped]
          rfl
        have hrequire : requireSubgraph (.obj fs) "subgraph" = .ok nodes := by
          unfold requireSubgraph
          rw [hwrapped]
          dsimp only
          rw [hne]
          rfl
        unfold evaluateSubgraph
        dsimp only
        rw [if_pos hkey, hrequire]
        rfl
    | _ =>
        cases hwrapped

/-- A graph with a result node is evaluated from that node on. -/
theorem evaluateSubgraph_eq {graph : Json} {nodes : SubGraph} {result : String × Json}
    (hnodes : NodesOf graph nodes) (h : findUniqueResultNode nodes "subgraph" = .ok result)
    (exhausted : String → ExecError) {bound : Nat} (hbound : 33 < bound) :
    evaluateSubgraph P params graph =
      (defaultEval P params nodes).result exhausted bound result.1 := by
  have hrun : evalNodeValue P params nodes (MAX_SUBGRAPH_DEPTH + 1) [] result.1 =
      (defaultEval P params nodes).run exhausted bound [] result.1 :=
    evalNodeValue_eq P params nodes exhausted (show 33 < bound from hbound) rfl result.1
  unfold MemoEval.result
  rw [← hrun, evaluateSubgraph_of_nodesOf P params hnodes (isEmpty_eq_false_of_result h), h]
  simp only [Bind.bind, Except.bind]
  cases (evalNodeValue P params nodes (MAX_SUBGRAPH_DEPTH + 1) [] result.1).run fun _ => none <;> rfl

/-- A refusal of a graph that leads too deep. -/
def RefusedDepth (graph : Json) (nodes : SubGraph) (root : String) : Prop :=
  evaluateSubgraph P params graph = .error depthExceeded ∧
    ∃ path, 33 ≤ path.length ∧ (defaultEval P params nodes).Path root path

theorem evaluateSubgraph_agrees {graph : Json} {nodes : SubGraph} {result : String × Json}
    (hnodes : NodesOf graph nodes) (h : findUniqueResultNode nodes "subgraph" = .ok result) :
    AgreesWithPlain (defaultEval P params nodes) result.1 .ok (evaluateSubgraph P params graph)
      (RefusedDepth P params graph nodes result.1) := by
  have hlength : (defaultEval P params nodes).nodes.length = nodes.length := List.length_map _
  have heval : ∀ exhausted, ∀ bound ≥ nodes.length + 34,
      evaluateSubgraph P params graph =
        (defaultEval P params nodes).result exhausted bound result.1 :=
    fun exhausted bound hge => evaluateSubgraph_eq P params hnodes h exhausted (by omega)
  have hbound : (defaultEval P params nodes).nodes.length < nodes.length + 34 := by omega
  have houtcome : evaluateSubgraph P params graph =
      ((defaultEval P params nodes).result (defaultEval P params nodes).cyclic (nodes.length + 34)
        result.1).bind .ok := by
    rw [heval (defaultEval P params nodes).cyclic _ le_rfl]
    cases (defaultEval P params nodes).result (defaultEval P params nodes).cyclic
      (nodes.length + 34) result.1 <;> rfl
  have hagrees := agreesWithPlain_of_result (defaultEval P params nodes).cyclic
    (fun exhausted' bound hge => (heval exhausted' bound hge).symm.trans (heval _ _ le_rfl))
    hbound (defaultNode_not_cyclic P params nodes) (fun v j h => by cases h)
    (fun j hj => depthExceeded_ne_cyclic P params nodes j
      (path_of_depthRefusal P params hj).1.symm) houtcome
  refine ⟨hagrees.ends, fun hcycle => (hagrees.plain hcycle).imp_right ?_, hagrees.circle⟩
  rintro ⟨e, hrefused, he⟩
  obtain ⟨rfl, hpath⟩ := path_of_depthRefusal P params hrefused
  exact ⟨he, hpath⟩

end DefaultSubGraph

/-- The evaluators of callbacks agree with the plain recursion from the result node on; only the
default evaluator may refuse the depth of a graph instead. -/
theorem callbacks_agreeWithPlain (P : Platform) :
    (∀ pg result x, findUniqueResultNode pg "apply" = .ok result →
      AgreesWithPlain (applyEval P x pg) result.1 .ok (evalApplySubgraph P (.obj pg) x) False) ∧
    (∀ pg result stack, findUniqueResultNode pg "reduce_dimension.reducer" = .ok result →
      AgreesWithPlain (ReducerCallback.reduceEval P stack pg) result.1 reducedScalar
        (evalReduceSubgraph P pg stack) False) ∧
    ∀ params graph nodes result, DefaultSubGraph.NodesOf graph nodes →
      findUniqueResultNode nodes "subgraph" = .ok result →
      AgreesWithPlain (DefaultSubGraph.defaultEval P params nodes) result.1 .ok
        (DefaultSubGraph.evaluateSubgraph P params graph)
        (DefaultSubGraph.RefusedDepth P params graph nodes result.1) :=
  ⟨fun _ _ x h => evalApplySubgraph_agrees P h x,
    fun _ _ stack h => evalReduceSubgraph_agrees P h stack,
    fun params _ _ _ hnodes h => DefaultSubGraph.evaluateSubgraph_agrees P params hnodes h⟩

/-- A node that is asked for twice. -/
def doubledSquare : SubGraph :=
  [("square", .obj [("process_id", .str "multiply"), ("arguments", .obj
      [("x", .obj [("from_parameter", .str "x")]), ("y", .obj [("from_parameter", .str "x")])])]),
    ("out", .obj [("process_id", .str "add"), ("arguments", .obj
      [("x", .obj [("from_node", .str "square")]), ("y", .obj [("from_node", .str "square")])]),
      ("result", .bool true)])]

/-- The spread of a stack. -/
def stackSpread : SubGraph :=
  [("low", .obj [("process_id", .str "min"),
      ("arguments", .obj [("data", .obj [("from_parameter", .str "data")])])]),
    ("high", .obj [("process_id", .str "max"),
      ("arguments", .obj [("data", .obj [("from_parameter", .str "data")])])]),
    ("out", .obj [("process_id", .str "subtract"), ("arguments", .obj
      [("x", .obj [("from_node", .str "high")]), ("y", .obj [("from_node", .str "low")])]),
      ("result", .bool true)])]

def spreadStack : List F64 := [.finite 2, .finite 5, .finite 1]

def chainName (i : Nat) : String := String.ofList (List.replicate i 'n')

/-- A chain of nodes that count an empty array. -/
def countChain : Nat → SubGraph
  | 0 => []
  | n + 1 =>
      countChain n ++ [(chainName n, .obj [("process_id", .str "count"),
        ("arguments", .obj (("data", .arr []) :: if n = 0 then [] else
          [("next", .obj [("from_node", .str (chainName (n - 1)))])]))])]

/-- The chain with a result node that links to its end. -/
def deepChain (n : Nat) : SubGraph :=
  ("out", .obj [("process_id", .str "count"),
    ("arguments", .obj [("data", .arr []), ("next", .obj [("from_node", .str (chainName (n - 1)))])]),
    ("result", .bool true)]) :: countChain n

theorem callbacks_agreeWithPlain_sample :
    AgreesWithPlain (applyEval Platform.exact (.finite 3) doubledSquare) "out" .ok
      (evalApplySubgraph Platform.exact (.obj doubledSquare) (.finite 3)) False ∧
    AgreesWithPlain (ReducerCallback.reduceEval Platform.exact spreadStack stackSpread) "out"
      reducedScalar (evalReduceSubgraph Platform.exact stackSpread spreadStack) False ∧
    AgreesWithPlain (DefaultSubGraph.defaultEval Platform.exact BTreeMap.empty (deepChain 2)) "out"
      .ok (DefaultSubGraph.evaluateSubgraph Platform.exact BTreeMap.empty (.obj (deepChain 2)))
      (DefaultSubGraph.RefusedDepth Platform.exact BTreeMap.empty (.obj (deepChain 2)) (deepChain 2)
        "out") :=
  have h := callbacks_agreeWithPlain Platform.exact
  ⟨h.1 doubledSquare _ _ rfl, h.2.1 stackSpread _ spreadStack rfl,
    h.2.2 BTreeMap.empty _ (deepChain 2) _ (.inl ⟨rfl, rfl⟩) rfl⟩

set_option maxRecDepth 4000 in
theorem yields_deepChain :
    Yields (DefaultSubGraph.defaultNode Platform.exact BTreeMap.empty (deepChain 32)) "out"
      (.ok (.num (.float (.finite 0)))) :=
  ⟨33, rfl⟩

set_option maxRecDepth 4000 in
/-- A chain without a circle is refused. -/
theorem deepChain_refused :
    (findUniqueResultNode (deepChain 32) "subgraph").map Prod.fst = .ok "out" ∧
      ¬ CycleFrom (DefaultSubGraph.defaultEval Platform.exact BTreeMap.empty (deepChain 32)).body
        "out" ∧
      Yields (DefaultSubGraph.defaultEval Platform.exact BTreeMap.empty (deepChain 32)).body "out"
        (.ok (.num (.float (.finite 0)))) ∧
      DefaultSubGraph.evaluateSubgraph Platform.exact BTreeMap.empty (.obj (deepChain 32)) =
        .error DefaultSubGraph.depthExceeded :=
  ⟨rfl, yields_deepChain.not_cycleFrom, yields_deepChain, rfl⟩

end OrbitOpenEO
