import OrbitOpenEO.Reducer

/-!
# Two paths of a reducer

A callback of a single statistical node is turned into a loop over the stack, every other
one is evaluated node by node.  The loop never looks at the arguments of its node.  So it
does what the evaluation would have done exactly if the node takes its data from the
parameter `data`.
-/

namespace OrbitOpenEO

/-- The arguments of a node. -/
def nodeArgs (node : Json) : Option (List (String × Json)) :=
  match node.get "arguments" with
  | some (.obj args) => some args
  | _ => none

/-- The argument is the parameter `data`. -/
def IsDataParameter (arg : Option Json) : Prop :=
  ∃ fs, arg = some (.obj fs) ∧ fs.lookup "from_parameter" = some (.str "data")

section Nodes

variable (P : Platform) {pg : SubGraph} {stack : List F64} {id pid : String} {node : Json}
  {memo : String → Option RedVal}

/-- What is done at a node, with its arguments resolved on demand. -/
def reduceNodeBody (args : Option (List (String × Json)))
    (resolve : String → CallbackM RedVal RedVal) (pid : String) : CallbackM RedVal F64 :=
  match Reducer.fromProcessId pid with
  | some reducer => do
      let arr :=
        match (← resolve "data") with
        | .array xs => xs
        | .scalar x => [x]
      pure (if arr.isEmpty then sentinelNdviNa else applyReducer P.f32 arr reducer)
  | none =>
      reduceScalarOp P.f32 (fun key => do liftM ((← resolve key).scalarOf key))
        (roundDigits P args) pid

/-- A finished node is not evaluated again. -/
theorem evalReduceNode_memo {v : RedVal} (hmemo : memo id = some v) (bound : Nat)
    (inProgress : List String) :
    (evalReduceNode P pg stack (bound + 1) inProgress id).run memo = .ok (v, memo) := by
  rw [evalReduceNode]
  simp only [get, getThe, MonadStateOf.get, StateT.get, StateT.run, bind, StateT.bind,
    Except.bind, pure, Except.pure, hmemo]
  rfl

/-- A node that is neither finished nor in progress is evaluated, and its value is kept. -/
theorem evalReduceNode_run (hmemo : memo id = none) {inProgress : List String}
    (hprogress : id ∉ inProgress) (hnode : pg.lookup id = some node)
    (hpid : (node.get "process_id").bind Json.asStr = some pid) (bound : Nat) :
    (evalReduceNode P pg stack (bound + 1) inProgress id).run memo =
      ((reduceNodeBody P (nodeArgs node)
        (resolveReduceArg P (evalReduceNode P pg stack bound (inProgress ++ [id])) stack id
          (nodeArgs node)) pid).run memo).map fun out =>
        (.scalar out.1, Function.update out.2 id (some (.scalar out.1))) := by
  have hbody : (evalReduceNode P pg stack (bound + 1) inProgress id).run memo =
      ((do
        let out ← reduceNodeBody P (nodeArgs node)
          (resolveReduceArg P (evalReduceNode P pg stack bound (inProgress ++ [id])) stack id
            (nodeArgs node)) pid
        modify (fun memo => Function.update memo id (some (.scalar out)))
        pure (.scalar out) : CallbackM RedVal RedVal)).run memo := by
    unfold reduceNodeBody
    cases hr : Reducer.fromProcessId pid with
    | some reducer =>
        dsimp only
        rw [bind_assoc, evalReduceNode]
        simp only [get, getThe, MonadStateOf.get, StateT.get, StateT.run, bind, StateT.bind,
          Except.bind, pure, Except.pure, hmemo, hprogress, if_false, hnode, hpid, hr]
        rfl
    | none =>
        rw [evalReduceNode]
        simp only [get, getThe, MonadStateOf.get, StateT.get, StateT.run, bind, StateT.bind,
          Except.bind, pure, Except.pure, hmemo, hprogress, if_false, hnode, hpid, hr]
        rfl
  rw [hbody]
  generalize reduceNodeBody P (nodeArgs node) _ pid = body
  simp only [bind, StateT.bind, StateT.run, Except.bind]
  cases body memo <;> rfl

/-- A node in progress is not entered again, and one that is not there neither. -/
theorem evalReduceNode_refused (hmemo : memo id = none) {inProgress : List String}
    (h : id ∈ inProgress ∨ pg.lookup id = none) (bound : Nat) :
    ∃ msg, (evalReduceNode P pg stack (bound + 1) inProgress id).run memo =
      .error (.invalidGraph msg) := by
  rw [evalReduceNode]
  simp only [get, getThe, MonadStateOf.get, StateT.get, StateT.run, bind, StateT.bind,
    Except.bind, pure, Except.pure, hmemo]
  split_ifs with hprogress
  · exact ⟨_, rfl⟩
  · rw [h.resolve_left hprogress]
    exact ⟨_, rfl⟩

end Nodes

section SingleNode

variable (P : Platform) {id : String} {node : Json} {r : Reducer} {stack : List F64}

/-- The callback is one node of a statistical process. -/
structure SingleReducer (pg : SubGraph) (r : Reducer) (id : String) (node : Json) : Prop where
  nodes : pg = [(id, node)]
  result : isResultNode node = true
  reducer : ∃ pid, (node.get "process_id").bind Json.asStr = some pid ∧
    Reducer.fromProcessId pid = some r

/-- A callback that becomes a loop is such a node. -/
theorem singleReducer_of_parse {reducer : Json} {pg : SubGraph}
    (hpg : requireSubgraph reducer "reduce_dimension.reducer" = .ok pg)
    (hparse : parseReducerSubgraph reducer = .ok (.builtin r)) :
    ∃ id node, SingleReducer pg r id node := by
  unfold parseReducerSubgraph at hparse
  rw [hpg] at hparse
  simp only [bind, Except.bind] at hparse
  cases hresult : findUniqueResultNode pg "reduce_dimension.reducer" with
  | error e =>
      rw [hresult] at hparse
      cases hparse
  | ok result =>
      rw [hresult] at hparse
      dsimp only at hparse
      cases hpid : resultProcessId result.2 "reduce_dimension.reducer" with
      | error e =>
          rw [hpid] at hparse
          cases hparse
      | ok pid =>
          rw [hpid] at hparse
          dsimp only at hparse
          cases hr : Reducer.fromProcessId pid with
          | none =>
              rw [hr] at hparse
              dsimp only at hparse
              cases hvalid : validateReduceSubgraphProcesses pg <;> rw [hvalid] at hparse <;>
                cases hparse
          | some r' =>
              rw [hr] at hparse
              dsimp only at hparse
              split_ifs at hparse with hlength
              · cases hparse
                obtain ⟨⟨id, node⟩, rfl⟩ := List.length_eq_one_iff.mp hlength
                unfold findUniqueResultNode at hresult
                rw [List.filter_cons, List.filter_nil] at hresult
                split_ifs at hresult with hmark
                · cases hresult
                  refine ⟨id, node, rfl, hmark, pid, ?_, hr⟩
                  unfold resultProcessId at hpid
                  split at hpid <;> cases hpid
                  assumption
              · cases hvalid : validateReduceSubgraphProcesses pg <;> rw [hvalid] at hparse <;>
                  cases hparse

/-- The node of a single reducer, evaluated. -/
theorem evalReduceSubgraph_single {pg : SubGraph} (h : SingleReducer pg r id node) :
    evalReduceSubgraph P pg stack =
      ((resolveReduceArg P (evalReduceNode P pg stack 1 [id]) stack id (nodeArgs node)
        "data").run fun _ => none).map fun out =>
          let arr :=
            match out.1 with
            | .array xs => xs
            | .scalar x => [x]
          if arr.isEmpty then sentinelNdviNa else applyReducer P.f32 arr r := by
  obtain ⟨pid, hpid, hr⟩ := h.reducer
  have hfind : findUniqueResultNode pg "reduce_dimension.reducer" = .ok (id, node) := by
    rw [h.nodes, findUniqueResultNode, List.filter_cons, h.result]
    rfl
  have hlookup : pg.lookup id = some node := by
    rw [h.nodes, List.lookup_cons, beq_self_eq_true]
  have hlength : pg.length + 1 = 1 + 1 := by rw [h.nodes]; rfl
  unfold evalReduceSubgraph
  rw [hfind]
  simp only [bind, Except.bind]
  rw [hlength, evalReduceNode_run P rfl List.not_mem_nil hlookup hpid]
  unfold reduceNodeBody
  rw [hr, List.nil_append]
  simp only [bind, StateT.bind, StateT.run, Except.bind]
  cases resolveReduceArg P (evalReduceNode P pg stack 1 [id]) stack id (nodeArgs node) "data"
    fun _ => none <;> rfl

/-- The data of the node is the parameter: the stack is reduced. -/
theorem eval_parameter {pg : SubGraph} (h : SingleReducer pg r id node)
    (hdata : IsDataParameter ((nodeArgs node).bind (List.lookup "data"))) (hstack : stack ≠ []) :
    evalReduceSubgraph P pg stack = .ok (applyReducer P.f32 stack r) := by
  obtain ⟨fs, hfs, hparam⟩ := hdata
  have hresolve : (resolveReduceArg P (evalReduceNode P pg stack 1 [id]) stack id (nodeArgs node)
      "data").run (fun _ => none) = .ok (.array stack, fun _ => none) := by
    unfold resolveReduceArg
    rw [hfs]
    dsimp only
    rw [hparam]
    rfl
  rw [evalReduceSubgraph_single P h, hresolve]
  change Except.ok (if stack.isEmpty then _ else _) = _
  rw [if_neg (by simpa using hstack)]

/-- It is a number: that number is reduced. -/
theorem eval_number {pg : SubGraph} (h : SingleReducer pg r id node) {n : Number}
    (hdata : (nodeArgs node).bind (List.lookup "data") = some (.num n)) :
    evalReduceSubgraph P pg stack =
      .ok (applyReducer P.f32 [P.toF32 (n.asF64 P.f64.toFloatOps)] r) := by
  rw [evalReduceSubgraph_single P h]
  unfold resolveReduceArg
  rw [hdata]
  rfl

/-- It is anything else: the callback is refused. -/
theorem eval_other {pg : SubGraph} (h : SingleReducer pg r id node)
    (hparam : ¬ IsDataParameter ((nodeArgs node).bind (List.lookup "data")))
    (hnumber : ∀ n, (nodeArgs node).bind (List.lookup "data") ≠ some (.num n)) :
    ∃ msg, evalReduceSubgraph P pg stack = .error (.invalidGraph msg) := by
  rw [evalReduceSubgraph_single P h]
  suffices hresolve : ∃ msg, (resolveReduceArg P (evalReduceNode P pg stack 1 [id]) stack id
      (nodeArgs node) "data").run (fun _ => none) = .error (.invalidGraph msg) by
    obtain ⟨msg, hmsg⟩ := hresolve
    exact ⟨msg, by rw [hmsg]; rfl⟩
  unfold resolveReduceArg
  split
  · exact ⟨_, rfl⟩
  · exact absurd ‹_› (hnumber _)
  · rename_i fs hfs
    split
    · rename_i p hp
      split_ifs with hdata
      · exact absurd ⟨fs, hfs, hdata ▸ hp⟩ hparam
      · exact ⟨_, rfl⟩
    · split
      · -- A link leads back to the node or nowhere.
        rename_i target _
        refine evalReduceNode_refused P rfl ?_ 0
        rw [h.nodes, List.mem_singleton, List.lookup_cons]
        cases htarget : target == id with
        | true =>
            exact Or.inl (eq_of_beq htarget)
        | false =>
            exact Or.inr rfl
      · exact ⟨_, rfl⟩
  · exact ⟨_, rfl⟩

end SingleNode

section Paths

variable (P : Platform)

/-- The loop gives what the evaluation gives, and the evaluation refuses nothing. -/
structure PathsAgree (pg : SubGraph) (r : Reducer) : Prop where
  equal : ∀ stack, stack ≠ [] →
    evalReduceSubgraph P pg stack = .ok (applyReducer P.f32 stack r)
  accepted : ∀ stack, stack ≠ [] → ∀ e, evalReduceSubgraph P pg stack ≠ .error e

/-- In this arithmetic no reducer gives the same value on all stacks. -/
def Discerns (f : MathOps) : Prop :=
  ∀ r, ∃ stack₁ stack₂, stack₁ ≠ [] ∧ stack₂ ≠ [] ∧ applyReducer f stack₁ r ≠ applyReducer f stack₂ r

/-- **The two paths agree** on the callbacks that become loops, exactly if the node takes its
data from the parameter. -/
theorem paths_agree_iff (hdiscerns : Discerns P.f32) {reducer : Json} {pg : SubGraph}
    {r : Reducer} (hpg : requireSubgraph reducer "reduce_dimension.reducer" = .ok pg)
    (hparse : parseReducerSubgraph reducer = .ok (.builtin r)) :
    PathsAgree P pg r ↔
      ∀ e ∈ pg, IsDataParameter ((nodeArgs e.2).bind (List.lookup "data")) := by
  obtain ⟨id, node, h⟩ := singleReducer_of_parse hpg hparse
  have hmem : (∀ e ∈ pg, IsDataParameter ((nodeArgs e.2).bind (List.lookup "data"))) ↔
      IsDataParameter ((nodeArgs node).bind (List.lookup "data")) := by
    rw [h.nodes, List.forall_mem_singleton]
  rw [hmem]
  refine ⟨fun hagree => ?_, fun hdata => ⟨fun stack hstack => eval_parameter P h hdata hstack,
    fun stack hstack e he => ?_⟩⟩
  · by_contra hparam
    obtain ⟨stack₁, stack₂, hne₁, hne₂, hdiffer⟩ := hdiscerns r
    by_cases hnumber : ∃ n, (nodeArgs node).bind (List.lookup "data") = some (.num n)
    · -- The number is reduced, whatever the stack.
      obtain ⟨n, hn⟩ := hnumber
      have h₁ := hagree.equal stack₁ hne₁
      have h₂ := hagree.equal stack₂ hne₂
      rw [eval_number P h hn] at h₁ h₂
      exact hdiffer (Except.ok.inj (h₁.symm.trans h₂))
    · obtain ⟨msg, hmsg⟩ : ∃ msg, evalReduceSubgraph P pg stack₁ = .error (.invalidGraph msg) :=
        eval_other P h hparam fun n hn => hnumber ⟨n, hn⟩
      exact hagree.accepted stack₁ hne₁ _ hmsg
  · rw [eval_parameter P h hdata hstack] at he
    cases he

theorem discerns_exact : Discerns MathOps.exact := by
  intro r
  cases r with
  | count =>
      exact ⟨[.finite 0], [.finite 0, .finite 0], List.cons_ne_nil _ _, List.cons_ne_nil _ _,
        by decide⟩
  | sd | variance =>
      exact ⟨[.finite 0], [.finite 0, .finite 1], List.cons_ne_nil _ _, List.cons_ne_nil _ _,
        by decide +kernel⟩
  | _ =>
      exact ⟨[.finite 0], [.finite 1], List.cons_ne_nil _ _, List.cons_ne_nil _ _, by decide +kernel⟩

/-- The mean of the stack. -/
def meanOfStack : Json :=
  .obj [("process_graph", .obj [("mean", .obj [("process_id", .str "mean"),
    ("arguments", .obj [("data", .obj [("from_parameter", .str "data")])]),
    ("result", .bool true)])])]

/-- A mean of nothing. -/
def meanOfNothing : Json :=
  .obj [("process_graph", .obj [("mean", .obj [("process_id", .str "mean"),
    ("result", .bool true)])])]

theorem paths_agree_mean :
    ∃ pg, requireSubgraph meanOfStack "reduce_dimension.reducer" = .ok pg ∧
      PathsAgree Platform.exact pg .mean :=
  ⟨_, rfl, (paths_agree_iff Platform.exact discerns_exact
    (show requireSubgraph meanOfStack "reduce_dimension.reducer" = .ok _ from rfl) rfl).mpr
      (List.forall_mem_singleton.mpr ⟨_, rfl, rfl⟩)⟩

theorem mean_without_data :
    ∃ pg, requireSubgraph meanOfNothing "reduce_dimension.reducer" = .ok pg ∧
      parseReducerSubgraph meanOfNothing = .ok (.builtin .mean) ∧
      evalReduceSubgraph Platform.exact pg [.finite 1] =
        .error (.invalidGraph "reduce_dimension.reducer: node `mean` missing arg `data`") ∧
      ¬ PathsAgree Platform.exact pg .mean :=
  ⟨_, rfl, rfl, rfl, fun h => h.accepted [.finite 1] (List.cons_ne_nil _ _) _ rfl⟩

end Paths

end OrbitOpenEO
