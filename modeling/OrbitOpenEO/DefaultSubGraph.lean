import OrbitOpenEO.ApplyMemo
import OrbitOpenEO.Reducer
import OrbitOpenEO.ReferenceWalk

/-!
# The default evaluator of sub-graphs

`DefaultSubGraphEvaluator` evaluates a callback over JSON values, with parameters that are
bound by name and a small kernel of statistics.  A link from a node to another one uses up two
of the levels of its depth budget, one for the argument and one for the node; below the last
level the evaluation is refused.
-/

namespace OrbitOpenEO
namespace DefaultSubGraph

open Lib Lib.Asking

section Evaluator

variable (P : Platform)

/-- `data_arr` of `apply_kernel`. -/
def dataArr (pid : String) (args : BTreeMap Json) : Except ExecError (List F64) :=
  match args.get "data" with
  | none => .error (.invalidGraph s!"subgraph: `{pid}` needs `data`")
  | some (.arr items) =>
      items.mapM fun v =>
        match Json.asF64 P.f64.toFloatOps v with
        | some x => .ok x
        | none => .error (.invalidGraph
            s!"subgraph: `{pid}.data` element not numeric: {P.jsonText v}")
  | some d => .error (.invalidGraph
      s!"subgraph: `{pid}.data` expected array, got {P.jsonText d}")

/-- A statistic of an array that must not be empty. -/
def ofNonempty (pid : String) (args : BTreeMap Json) (statistic : List F64 → F64) :
    Except ExecError Json := do
  let xs ← dataArr P pid args
  if xs.isEmpty then .error (.invalidGraph s!"subgraph: {pid} of empty array")
  else .ok (Json.ofF64 (statistic xs))

/-- `apply_kernel`. -/
def applyKernel (pid : String) (args : BTreeMap Json) : Except ExecError Json :=
  match pid with
  | "mean" => ofNonempty P "mean" args fun xs =>
      P.f64.div (sumOf P.f64 xs) (P.f64.ofInt xs.length)
  | "sum" => do
      let xs ← dataArr P "sum" args
      .ok (Json.ofF64 (sumOf P.f64 xs))
  | "min" => ofNonempty P "min" args fun xs => xs.foldl F64.min .posInf
  | "max" => ofNonempty P "max" args fun xs => xs.foldl F64.max .negInf
  | "count" => do
      let xs ← dataArr P "count" args
      .ok (Json.ofF64 (P.f64.ofInt xs.length))
  | other => .error (.invalidGraph
      s!"subgraph: unsupported process `{other}` in DefaultSubGraphEvaluator (this kernel covers reducer-style processes; per-pixel arithmetic lives in eval_apply's own kernel)")

/-- The refusal below the last level. -/
def depthExceeded : ExecError :=
  .invalidGraph
    s!"subgraph: argument/from_node recursion exceeded depth limit ({MAX_SUBGRAPH_DEPTH})"

variable (params : BTreeMap Json)

/-- `resolve_arg` within the depth limit; `node` evaluates the node a reference names. -/
def resolveArg (node : String → CallbackM Json Json) (v : Json) : CallbackM Json Json :=
  match v with
  | .obj fs =>
      match fs.lookup "from_parameter" with
      | some (.str p) =>
          match params.get p with
          | some bound => pure bound
          | none => throw (.invalidGraph
              s!"subgraph: unbound parameter `{p}` (bindings: {debugNames params.keys})")
      | _ =>
          match linkTarget fs with
          | some target => node target
          | none => pure v
  | _ => pure v

/-- The loop over the arguments of a node. -/
def resolveArgs (resolve : Json → CallbackM Json Json) :
    List (String × Json) → BTreeMap Json → CallbackM Json (BTreeMap Json)
  | [], resolved => pure resolved
  | (k, v) :: args, resolved => do
      let r ← resolve v
      resolveArgs resolve args (resolved.insert k r)

/-- The body of `eval_node_value` within the depth limit. -/
def nodeValue (nodes : SubGraph) (resolve : Json → CallbackM Json Json)
    (inProgress : List String) (id : String) : CallbackM Json Json := do
  match (← get) id with
  | some v => pure v
  | none =>
      if id ∈ inProgress then
        throw (.invalidGraph s!"subgraph: cycle detected at node `{id}`")
      else
        match nodes.lookup id with
        | none => throw (.invalidGraph s!"subgraph: unknown node reference `{id}`")
        | some node =>
            match (node.get "process_id").bind Json.asStr with
            | none => throw (.invalidGraph s!"subgraph: node `{id}` has no process_id")
            | some pid =>
                match node.get "arguments" with
                | some (.obj args) => do
                    let resolved ← resolveArgs resolve args BTreeMap.empty
                    let value ← liftM (applyKernel P pid resolved)
                    modify (fun memo => Function.update memo id (some value))
                    pure value
                | _ => throw (.invalidGraph s!"subgraph: node `{id}` has no arguments object")

/-- `eval_node_value`.  The number is that of the levels left, the difference of
`MAX_SUBGRAPH_DEPTH + 1` and `depth`: an argument is one level further down and the node that
it links to two. -/
def evalNodeValue (nodes : SubGraph) : Nat → List String → String → CallbackM Json Json
  | 0, _, _ => throw depthExceeded
  | 1, inProgress, id => nodeValue P nodes (fun _ => throw depthExceeded) inProgress id
  | left + 2, inProgress, id =>
      nodeValue P nodes
        (resolveArg params (evalNodeValue nodes left (inProgress ++ [id]))) inProgress id

/-- `evaluate_subgraph`. -/
def evaluateSubgraph (graph : Json) : Except ExecError Json :=
  match graph with
  | .obj fs => do
      let nodes ← if containsKey "process_graph" fs then requireSubgraph graph "subgraph" else .ok fs
      let result ← findUniqueResultNode nodes "subgraph"
      let out ← (evalNodeValue P params nodes (MAX_SUBGRAPH_DEPTH + 1) [] result.1).run
        (fun _ => none)
      .ok out.1
  | _ => .error (.invalidGraph "subgraph: process_graph must be an object")

end Evaluator

section Default

variable (P : Platform) (params : BTreeMap Json)

/-- What an argument asks for. -/
def argQuestions (v : Json) : Asking String Json ExecError Json :=
  match v with
  | .obj fs =>
      match fs.lookup "from_parameter" with
      | some (.str p) =>
          match params.get p with
          | some bound => .done bound
          | none => .fail (.invalidGraph
              s!"subgraph: unbound parameter `{p}` (bindings: {debugNames params.keys})")
      | _ =>
          match linkTarget fs with
          | some target => .ask target .done
          | none => .done v
  | _ => .done v

/-- What the arguments of a node ask for. -/
def argsQuestions : List (String × Json) → BTreeMap Json →
    Asking String Json ExecError (BTreeMap Json)
  | [], resolved => pure resolved
  | (k, v) :: args, resolved => do
      let r ← argQuestions params v
      argsQuestions args (resolved.insert k r)

/-- What a node asks for, and its value. -/
def defaultNode (nodes : SubGraph) (id : String) : Asking String Json ExecError Json :=
  match nodes.lookup id with
  | none => .fail (.invalidGraph s!"subgraph: unknown node reference `{id}`")
  | some node =>
      match (node.get "process_id").bind Json.asStr with
      | none => .fail (.invalidGraph s!"subgraph: node `{id}` has no process_id")
      | some pid =>
          match node.get "arguments" with
          | some (.obj args) => do
              let resolved ← argsQuestions params args BTreeMap.empty
              settledBy (applyKernel P pid resolved)
          | _ => .fail (.invalidGraph s!"subgraph: node `{id}` has no arguments object")

/-- A node with a process and at least one argument. -/
def hasArguments (nodes : SubGraph) (id : String) : Bool :=
  match nodes.lookup id with
  | none => false
  | some node =>
      ((node.get "process_id").bind Json.asStr).isSome &&
        match node.get "arguments" with
        | some (.obj args) => !args.isEmpty
        | _ => false

theorem hasArguments_eq_true_iff {nodes : SubGraph} {id : String} :
    hasArguments nodes id = true ↔
      ∃ node pid args, nodes.lookup id = some node ∧
        (node.get "process_id").bind Json.asStr = some pid ∧
        node.get "arguments" = some (.obj args) ∧ args ≠ [] := by
  unfold hasArguments
  cases nodes.lookup id with
  | none =>
      simp
  | some node =>
      cases hpid : (node.get "process_id").bind Json.asStr with
      | none =>
          simp [hpid]
      | some pid =>
          cases hargs : node.get "arguments" with
          | none =>
              simp [hargs]
          | some args =>
              cases args with
              | obj args =>
                  simp [hpid, hargs]
              | _ =>
                  simp [hargs]

/-- The default evaluator. -/
def defaultEval (nodes : SubGraph) : MemoEval String Json ExecError where
  nodes := nodes.map Prod.fst
  body := defaultNode P params nodes
  unknown id hid := by
    unfold defaultNode
    rw [lookup_eq_none_of_notMem hid]
    exact ⟨_, rfl⟩
  cyclic id := .invalidGraph s!"subgraph: cycle detected at node `{id}`"
  tooDeep links := if MAX_SUBGRAPH_DEPTH < 2 * links then some depthExceeded else none
  cutShort links id :=
    if MAX_SUBGRAPH_DEPTH < 2 * links + 1 ∧ hasArguments nodes id = true then some depthExceeded
    else none

section Correspondence

variable (node : String → CallbackM Json Json)

theorem resolveArg_eq (v : Json) :
    resolveArg params node v = runWith node (argQuestions params v) := by
  unfold resolveArg argQuestions
  cases v with
  | obj fs =>
      dsimp only
      cases fs.lookup "from_parameter" with
      | none =>
          cases linkTarget fs <;> simp [runWith]
      | some p =>
          cases p with
          | str p =>
              dsimp only
              cases params.get p <;> rfl
          | _ =>
              cases linkTarget fs <;> simp [runWith]
  | _ =>
      rfl

theorem resolveArgs_eq (args : List (String × Json)) (resolved : BTreeMap Json) :
    resolveArgs (resolveArg params node) args resolved =
      runWith node (argsQuestions params args resolved) := by
  induction args generalizing resolved with
  | nil =>
      rfl
  | cons a args ih =>
      rw [resolveArgs, argsQuestions, runWith_bind, resolveArg_eq]
      exact bind_congr fun r => ih _

end Correspondence

/-- One level of the evaluator: what is done with the resolved arguments is what the node asks
for, or a refusal where it has arguments that are too deep. -/
theorem nodeValue_eq {nodes : SubGraph} {resolve : Json → CallbackM Json Json}
    {inProgress : List String} {bound : Nat} {exhausted : String → ExecError}
    (hdeep : ¬ MAX_SUBGRAPH_DEPTH < 2 * inProgress.length) (id : String)
    (hresolve : ∀ args,
      resolveArgs resolve args BTreeMap.empty =
        if MAX_SUBGRAPH_DEPTH < 2 * inProgress.length + 1 ∧ args ≠ [] then throw depthExceeded
        else runWith ((defaultEval P params nodes).run exhausted bound (inProgress ++ [id]))
          (argsQuestions params args BTreeMap.empty)) :
    nodeValue P nodes resolve inProgress id =
      (defaultEval P params nodes).run exhausted (bound + 1) inProgress id := by
  have hshallow : (defaultEval P params nodes).tooDeep inProgress.length = none := if_neg hdeep
  rw [nodeValue, MemoEval.run, hshallow]
  refine bind_congr fun memo => ?_
  cases memo id with
  | some v =>
      rfl
  | none =>
      dsimp only
      split_ifs with hprogress
      · rfl
      · by_cases hshort : MAX_SUBGRAPH_DEPTH < 2 * inProgress.length + 1 ∧
            hasArguments nodes id = true
        · have hcut : (defaultEval P params nodes).bodyAt inProgress.length id =
              .fail depthExceeded := by
            unfold MemoEval.bodyAt defaultEval
            dsimp only
            rw [if_pos hshort]
          obtain ⟨node, pid, args, hnode, hpid, hargs, hne⟩ := hasArguments_eq_true_iff.mp hshort.2
          rw [hcut, hnode]
          dsimp only
          rw [hpid, hargs]
          dsimp only
          rw [hresolve, if_pos ⟨hshort.1, hne⟩]
          rfl
        · have hbody : (defaultEval P params nodes).bodyAt inProgress.length id =
              defaultNode P params nodes id := by
            unfold MemoEval.bodyAt defaultEval
            dsimp only
            rw [if_neg hshort]
          rw [hbody]
          unfold defaultNode
          cases hnode : nodes.lookup id with
          | none =>
              rfl
          | some node =>
              dsimp only
              cases hpid : (node.get "process_id").bind Json.asStr with
              | none =>
                  rfl
              | some pid =>
                  dsimp only
                  cases hargs : node.get "arguments" with
                  | none =>
                      rfl
                  | some args =>
                      cases args with
                      | obj args =>
                          dsimp only
                          rw [hresolve, if_neg fun h => hshort ⟨h.1, hasArguments_eq_true_iff.mpr
                            ⟨node, pid, args, hnode, hpid, hargs, h.2⟩⟩, runWith_bind, bind_assoc]
                          refine bind_congr fun resolved => ?_
                          rw [runWith_settledBy]
                      | _ =>
                          rfl

/-- The evaluator, from `links` links below the last level of its budget on. -/
theorem evalNodeValue_eq (nodes : SubGraph) (exhausted : String → ExecError) {links bound : Nat}
    (hbound : links < bound) {inProgress : List String}
    (hlevel : 2 * (inProgress.length + links) = MAX_SUBGRAPH_DEPTH + 2) (id : String) :
    evalNodeValue P params nodes (2 * links - 1) inProgress id =
      (defaultEval P params nodes).run exhausted bound inProgress id := by
  induction links generalizing bound inProgress id with
  | zero =>
      obtain ⟨bound, rfl⟩ := Nat.exists_eq_add_of_lt hbound
      have hdeep : (defaultEval P params nodes).tooDeep inProgress.length = some depthExceeded :=
        if_pos (by omega)
      rw [Nat.zero_add, MemoEval.run, hdeep]
      rfl
  | succ links ih =>
      cases bound with
      | zero =>
          cases hbound
      | succ bound =>
          have hlevel' : 2 * ((inProgress ++ [id]).length + links) = MAX_SUBGRAPH_DEPTH + 2 := by
            rw [List.length_append, List.length_singleton]
            omega
          cases links with
          | zero =>
              -- The last level has no room for arguments.
              refine nodeValue_eq P params (by omega) id fun args => ?_
              have hlast : MAX_SUBGRAPH_DEPTH < 2 * inProgress.length + 1 := by omega
              cases args with
              | nil =>
                  rw [if_neg fun h => h.2 rfl]
                  rfl
              | cons a args =>
                  rw [if_pos ⟨hlast, List.cons_ne_nil a args⟩]
                  rfl
          | succ links =>
              have hnode : evalNodeValue P params nodes (2 * (links + 1) - 1) (inProgress ++ [id]) =
                  (defaultEval P params nodes).run exhausted bound (inProgress ++ [id]) :=
                funext fun target => ih (Nat.lt_of_succ_lt_succ hbound) hlevel' target
              have hleft : 2 * (links + 1 + 1) - 1 = 2 * (links + 1) - 1 + 2 := by omega
              rw [hleft, evalNodeValue]
              refine nodeValue_eq P params (by omega) id fun args => ?_
              rw [if_neg (by omega), hnode]
              exact resolveArgs_eq params _ args BTreeMap.empty

/-- No report of a circle. -/
def NoCircle (e : ExecError) : Prop := ¬ e.Begins "subgraph: c"

theorem noCircle_of_begins {e : ExecError} {p : String} (h : e.Begins p)
    (hlen : p.length = 11) (hp : p ≠ "subgraph: c") : NoCircle e :=
  fun hbegins => hp (h.inj hbegins hlen)

theorem mapM_error {α β : Type} {g : α → Except ExecError β} {Q : ExecError → Prop}
    (hg : ∀ a e, g a = .error e → Q e) {xs : List α} {e : ExecError}
    (h : xs.mapM g = .error e) : Q e := by
  induction xs generalizing e with
  | nil =>
      cases h
  | cons x xs ih =>
      rw [List.mapM_cons] at h
      cases hx : g x with
      | error e' =>
          rw [hx] at h
          cases h
          exact hg x e hx
      | ok y =>
          rw [hx] at h
          cases hxs : xs.mapM g with
          | error e' =>
              rw [hxs] at h
              cases h
              exact ih hxs
          | ok ys =>
              rw [hxs] at h
              cases h

theorem dataArr_fails {pid : String} {args : BTreeMap Json} {e : ExecError}
    (h : dataArr P pid args = .error e) : NoCircle e := by
  have hquoted : ∀ m, NoCircle (.invalidGraph ("subgraph: `" ++ pid ++ m)) := fun m =>
    noCircle_of_begins ((ExecError.begins_self "subgraph: `" pid).append m) rfl (by decide)
  have hquoted' : ∀ m rest, NoCircle (.invalidGraph ("subgraph: `" ++ pid ++ m ++ rest)) :=
    fun m rest => noCircle_of_begins
      (((ExecError.begins_self "subgraph: `" pid).append m).append rest) rfl (by decide)
  unfold dataArr at h
  split at h
  · cases h
    exact hquoted _
  · refine mapM_error (fun v e' hv => ?_) h
    split at hv
    · cases hv
    · cases hv
      exact hquoted' _ _
  · cases h
    exact hquoted' _ _

theorem ofNonempty_fails {pid : String} (rest : String)
    (hpid : "subgraph: " ++ pid = "subgraph: m" ++ rest)
    {args : BTreeMap Json} {statistic : List F64 → F64} {e : ExecError}
    (h : ofNonempty P pid args statistic = .error e) : NoCircle e := by
  unfold ofNonempty at h
  cases hxs : dataArr P pid args with
  | error e' =>
      rw [hxs] at h
      cases h
      exact dataArr_fails P hxs
  | ok xs =>
      rw [hxs] at h
      simp only [Bind.bind, Except.bind] at h
      split_ifs at h
      cases h
      have hm : (ExecError.invalidGraph ("subgraph: " ++ pid)).Begins "subgraph: m" :=
        hpid ▸ ExecError.begins_self "subgraph: m" rest
      exact noCircle_of_begins (hm.append _) rfl (by decide)

theorem applyKernel_fails {pid : String} {args : BTreeMap Json} {e : ExecError}
    (h : applyKernel P pid args = .error e) : NoCircle e := by
  have hdata : ∀ {name : String} {g : List F64 → Json},
      (dataArr P name args >>= fun xs => .ok (g xs)) = .error e → NoCircle e := by
    intro name g h
    cases hxs : dataArr P name args with
    | error e' =>
        rw [hxs] at h
        cases h
        exact dataArr_fails P hxs
    | ok xs =>
        rw [hxs] at h
        cases h
  unfold applyKernel at h
  split at h
  · exact ofNonempty_fails P "ean" rfl h
  · exact hdata h
  · exact ofNonempty_fails P "in" rfl h
  · exact ofNonempty_fails P "ax" rfl h
  · exact hdata h
  · cases h
    exact noCircle_of_begins (((ExecError.begins_self "subgraph: u" "nsupported process `").append
      _).append _) rfl (by decide)

theorem argQuestions_allFails (v : Json) : AllFails NoCircle (argQuestions params v) := by
  have hparam : ∀ p, NoCircle (.invalidGraph
      s!"subgraph: unbound parameter `{p}` (bindings: {debugNames params.keys})") := fun p =>
    noCircle_of_begins (((((ExecError.begins_self "subgraph: u" "nbound parameter `").append
      p).append _).append _).append _) rfl (by decide)
  unfold argQuestions
  split
  · split
    · split
      · trivial
      · exact hparam _
    · split
      · exact fun _ => trivial
      · trivial
  · trivial

theorem argsQuestions_allFails (args : List (String × Json)) (resolved : BTreeMap Json) :
    AllFails NoCircle (argsQuestions params args resolved) := by
  induction args generalizing resolved with
  | nil =>
      trivial
  | cons a args ih =>
      rw [argsQuestions]
      exact (argQuestions_allFails params a.2).bind fun r => ih _

/-- A node does not report circles itself. -/
theorem defaultNode_allFails (nodes : SubGraph) (id : String) :
    AllFails NoCircle (defaultNode P params nodes id) := by
  have hnode : ∀ rest, NoCircle (.invalidGraph ("subgraph: node `" ++ id ++ rest)) := fun rest =>
    noCircle_of_begins (((ExecError.begins_self "subgraph: n" "ode `").append id).append rest)
      rfl (by decide)
  unfold defaultNode
  split
  · exact noCircle_of_begins (((ExecError.begins_self "subgraph: u"
      "nknown node reference `").append id).append _) rfl (by decide)
  · split
    · exact hnode _
    · split
      · exact (argsQuestions_allFails params _ _).bind fun resolved =>
          allFails_settledBy fun e => applyKernel_fails P
      · exact hnode _

theorem defaultNode_not_cyclic (nodes : SubGraph) (id : String) :
    AllFails (fun e => ∀ j, e ≠ (defaultEval P params nodes).cyclic j)
      (defaultNode P params nodes id) := by
  refine (defaultNode_allFails P params nodes id).mono fun e h j he => h ?_
  rw [he]
  exact ((ExecError.begins_self "subgraph: c" "ycle detected at node `").append j).append _

theorem depthExceeded_ne_cyclic (nodes : SubGraph) (id : String) :
    depthExceeded ≠ (defaultEval P params nodes).cyclic id := by
  have hdepth : NoCircle depthExceeded := by
    unfold depthExceeded
    exact noCircle_of_begins (((ExecError.begins_self "subgraph: a"
      "rgument/from_node recursion exceeded depth limit (").append _).append _) rfl (by decide)
  intro h
  rw [h] at hdepth
  exact hdepth (((ExecError.begins_self "subgraph: c" "ycle detected at node `").append id).append _)

/-- Depth is refused after at least 32 links. -/
theorem path_of_depthRefusal {nodes : SubGraph} {root : String} {e : ExecError}
    (h : (defaultEval P params nodes).DepthRefusal root e) :
    e = depthExceeded ∧
      ∃ path, 33 ≤ path.length ∧ (defaultEval P params nodes).Path root path := by
  have hmax : MAX_SUBGRAPH_DEPTH = 64 := rfl
  obtain ⟨path, j, hpath, hrefused⟩ := h
  have hlength : (path ++ [j]).length = path.length + 1 := List.length_append
  have hboth : e = depthExceeded ∧ 32 ≤ path.length := by
    rcases hrefused with hrefused | hrefused
    · simp only [defaultEval] at hrefused
      split_ifs at hrefused with hdeep
      exact ⟨(Option.some.inj hrefused).symm, by omega⟩
    · simp only [defaultEval] at hrefused
      split_ifs at hrefused with hdeep
      exact ⟨(Option.some.inj hrefused).symm, by omega⟩
  exact ⟨hboth.1, path ++ [j], by omega, hpath⟩

end Default

end DefaultSubGraph

end OrbitOpenEO
