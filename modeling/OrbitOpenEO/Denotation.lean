import OrbitOpenEO.ReferenceResolution

/-!
# The value of an arithmetic graph

`denote` gives the nodes of a graph of additions, subtractions, multiplications
and divisions their values by plain recursion along the links, with no order and
no memo table.  The two executors compute exactly that
(`evaluate_denotes`): the invariant of their walk is that the memo table
holds denoted values only (`Sound`).

Arithmetic on `f64` is the parameter `ops`; nothing is assumed about it.
-/

namespace OrbitOpenEO

open Lib Lib.Program Relation

section Denote

variable (ops : FloatOps)

/-- The four operations on numbers. -/
def arithmetic : String → F64 → F64 → Option Json
  | "add", x, y => some (Json.ofF64 (ops.add x y))
  | "subtract", x, y => some (Json.ofF64 (ops.sub x y))
  | "multiply", x, y => some (Json.ofF64 (ops.mul x y))
  | "divide", x, y => if y.isZero then none else some (Json.ofF64 (ops.div x y))
  | _, _, _ => none

/-- The number an argument stands for, given the values of the nodes. -/
def operand (value : String → Option Json) : Option Json → Option F64
  | some (.num n) => some (n.asF64 ops)
  | some (.obj [("from_node", .str s)]) => (value s).bind (Json.asF64 ops)
  | _ => none

/-- The value of a node, with the recursion cut off after `fuel` links. -/
def denote (pg : ProcessGraph) : Nat → String → Option Json
  | 0, _ => none
  | fuel + 1, id => do
      let node ← pg.nodes.get id
      let x ← operand ops (denote pg fuel) (node.arguments.get "x")
      let y ← operand ops (denote pg fuel) (node.arguments.get "y")
      arithmetic ops node.processId x y

/-- The value of a node. -/
def Denotes (pg : ProcessGraph) (id : String) (v : Json) : Prop :=
  ∃ fuel, denote ops pg fuel id = some v

end Denote

/-- A number or a plain link. -/
def IsOperand (v : Json) : Prop := (∃ n, v = .num n) ∨ ∃ s, v = fromNode s

/-- A node that applies one of the four operations to operands `x` and `y`. -/
structure Process.Arithmetic (node : Process) : Prop where
  process : node.processId ∈ ["add", "subtract", "multiply", "divide"]
  x : ∃ v, node.arguments.get "x" = some v ∧ IsOperand v
  y : ∃ v, node.arguments.get "y" = some v ∧ IsOperand v

/-- Every node of the graph is arithmetic. -/
def ProcessGraph.Arithmetic (pg : ProcessGraph) : Prop :=
  ∀ e ∈ pg.nodes.entries, e.2.Arithmetic

/-- No node has an argument besides `x` and `y`. -/
def ProcessGraph.OnlyXY (pg : ProcessGraph) : Prop :=
  ∀ e ∈ pg.nodes.entries, ∀ k ∈ e.2.arguments.keys, k = "x" ∨ k = "y"

/-- Every node has a value. -/
def ProcessGraph.Evaluable (ops : FloatOps) (pg : ProcessGraph) : Prop :=
  ∀ id ∈ pg.nodes.keys, ∃ v, Denotes ops pg id v

section Deterministic

variable {ops : FloatOps} {pg : ProcessGraph}

@[simp] theorem operand_fromNode (value : String → Option Json) (s : String) :
    operand ops value (some (fromNode s)) = (value s).bind (Json.asF64 ops) := rfl

/-- An operand depends on no more than the value of the node it links to. -/
theorem operand_eq_some_cases {value : String → Option Json} {arg : Option Json} {x : F64}
    (h : operand ops value arg = some x) :
    (∃ n, arg = some (.num n) ∧ x = n.asF64 ops) ∨
      ∃ s v, arg = some (fromNode s) ∧ value s = some v ∧ v.asF64 ops = some x := by
  unfold operand at h
  split at h
  · rename_i n
    exact Or.inl ⟨n, rfl, (Option.some.inj h).symm⟩
  · rename_i s
    obtain ⟨v, hv, hx⟩ := Option.bind_eq_some_iff.mp h
    exact Or.inr ⟨s, v, rfl, hv, hx⟩
  · cases h

theorem operand_mono {value value' : String → Option Json}
    (hle : ∀ s v, value s = some v → value' s = some v)
    {arg : Option Json} {x : F64} (h : operand ops value arg = some x) :
    operand ops value' arg = some x := by
  rcases operand_eq_some_cases h with ⟨n, rfl, rfl⟩ | ⟨s, v, rfl, hv, hx⟩
  · rfl
  · rw [operand_fromNode, hle s v hv]
    exact hx

/-- One unfolding of the denotation. -/
theorem denote_succ_eq_some_iff {fuel : Nat} {id : String} {v : Json} :
    denote ops pg (fuel + 1) id = some v ↔
      ∃ node x y, pg.nodes.get id = some node ∧
        operand ops (denote ops pg fuel) (node.arguments.get "x") = some x ∧
        operand ops (denote ops pg fuel) (node.arguments.get "y") = some y ∧
        arithmetic ops node.processId x y = some v := by
  simp only [denote, Option.bind_eq_bind, Option.bind_eq_some_iff]
  constructor
  · rintro ⟨node, hget, x, hx, y, hy, hv⟩
    exact ⟨node, x, y, hget, hx, hy, hv⟩
  · rintro ⟨node, x, y, hget, hx, hy, hv⟩
    exact ⟨node, hget, x, hx, y, hy, hv⟩

theorem denote_succ_of_eq_some :
    ∀ {fuel : Nat} {id : String} {v : Json},
      denote ops pg fuel id = some v → denote ops pg (fuel + 1) id = some v
  | 0, id, v, h => by
      simp [denote] at h
  | fuel + 1, id, v, h => by
      obtain ⟨node, x, y, hget, hx, hy, hv⟩ := denote_succ_eq_some_iff.mp h
      exact denote_succ_eq_some_iff.mpr ⟨node, x, y, hget,
        operand_mono (fun _ _ => denote_succ_of_eq_some) hx,
        operand_mono (fun _ _ => denote_succ_of_eq_some) hy, hv⟩

theorem denote_mono {fuel fuel' : Nat} (hle : fuel ≤ fuel') {id : String} {v : Json}
    (h : denote ops pg fuel id = some v) : denote ops pg fuel' id = some v := by
  induction hle with
  | refl =>
      exact h
  | step _ ih =>
      exact denote_succ_of_eq_some ih

/-- A node has at most one value. -/
theorem Denotes.unique {id : String} {v w : Json}
    (hv : Denotes ops pg id v) (hw : Denotes ops pg id w) : v = w := by
  obtain ⟨f₁, h₁⟩ := hv
  obtain ⟨f₂, h₂⟩ := hw
  have h₁' := denote_mono (Nat.le_max_left f₁ f₂) h₁
  have h₂' := denote_mono (Nat.le_max_right f₁ f₂) h₂
  rw [h₁'] at h₂'
  exact Option.some.inj h₂'

end Deterministic

section Accepted

variable {ops : FloatOps} {pg : ProcessGraph}

theorem refs_of_isOperand {v : Json} (h : IsOperand v) :
    nesting v = 0 ∧ ∀ s, Counted v s → v = fromNode s := by
  rcases h with ⟨n, rfl⟩ | ⟨t, rfl⟩
  · refine ⟨by simp [nesting], ?_⟩
    rintro s ⟨⟩
  · refine ⟨rfl, fun s hs => ?_⟩
    rw [counted_fromNode_iff.mp hs]

/-- In a graph without further arguments every argument is an operand. -/
theorem isOperand_of_mem_values (harith : pg.Arithmetic) (honly : pg.OnlyXY)
    {e : String × Process} (he : e ∈ pg.nodes.entries) {k : String} {v : Json}
    (hv : (k, v) ∈ e.2.arguments.entries) : IsOperand v := by
  have hget := (e.2.arguments.get_eq_some_iff k v).mpr hv
  have hk := honly e he k ((e.2.arguments.mem_keys_iff k).mpr ⟨v, hv⟩)
  rcases hk with rfl | rfl
  · obtain ⟨w, hw, hop⟩ := (harith e he).x
    rw [hget, Option.some.injEq] at hw
    exact hw ▸ hop
  · obtain ⟨w, hw, hop⟩ := (harith e he).y
    rw [hget, Option.some.injEq] at hw
    exact hw ▸ hop

/-- The nodes a node depends on take less fuel than the node. -/
theorem denote_of_feeds (harith : pg.Arithmetic) (honly : pg.OnlyXY) {fuel : Nat}
    {a b : String} (hfeeds : pg.Feeds a b) {v : Json} (h : denote ops pg fuel b = some v) :
    ∃ fuel' w, fuel' < fuel ∧ denote ops pg fuel' a = some w := by
  cases fuel with
  | zero =>
      simp [denote] at h
  | succ fuel =>
      obtain ⟨node, x, y, hget, hx, hy, -⟩ := denote_succ_eq_some_iff.mp h
      obtain ⟨node', hnode', u, hu, hcounted⟩ := hfeeds
      have he := (pg.nodes.get_eq_some_iff b node').mpr hnode'
      rw [hget, Option.some.injEq] at he
      subst he
      obtain ⟨⟨k, u⟩, hku, rfl⟩ := List.mem_map.mp hu
      have hplain := (refs_of_isOperand (isOperand_of_mem_values harith honly hnode' hku)).2
      have harg : node.arguments.get k = some (fromNode a) := by
        rw [(node.arguments.get_eq_some_iff k u).mpr hku]
        exact congrArg some (hplain a hcounted)
      have hvalue : ∀ z, operand ops (denote ops pg fuel) (node.arguments.get k) = some z →
          ∃ fuel' w, fuel' < fuel + 1 ∧ denote ops pg fuel' a = some w := by
        intro z hz
        rw [harg, operand_fromNode] at hz
        obtain ⟨w, hw, -⟩ := Option.bind_eq_some_iff.mp hz
        exact ⟨fuel, w, Nat.lt_succ_self fuel, hw⟩
      have hk := honly (b, node) hnode' k ((node.arguments.mem_keys_iff k).mpr ⟨_, hku⟩)
      rcases hk with rfl | rfl
      · exact hvalue x hx
      · exact hvalue y hy

theorem denote_of_transGen (harith : pg.Arithmetic) (honly : pg.OnlyXY)
    {a b : String} (hab : TransGen pg.Feeds a b) :
    ∀ {fuel : Nat} {v : Json}, denote ops pg fuel b = some v →
      ∃ fuel' w, fuel' < fuel ∧ denote ops pg fuel' a = some w := by
  induction hab with
  | single hab =>
      intro fuel v h
      exact denote_of_feeds harith honly hab h
  | tail _ hbc ih =>
      intro fuel v h
      obtain ⟨fuel₁, w₁, hlt₁, h₁⟩ := denote_of_feeds harith honly hbc h
      obtain ⟨fuel₂, w₂, hlt₂, h₂⟩ := ih h₁
      exact ⟨fuel₂, w₂, by omega, h₂⟩

theorem Evaluable.acyclic (harith : pg.Arithmetic) (honly : pg.OnlyXY)
    (heval : pg.Evaluable ops) : Acyclic pg.Feeds := by
  intro a hcyc
  -- no fuel is the least with which a node on a cycle has a value
  have hnone : ∀ fuel, denote ops pg fuel a = none := by
    intro fuel
    induction fuel using Nat.strong_induction_on with
    | _ fuel ih =>
        by_contra hsome
        obtain ⟨v, hv⟩ := Option.ne_none_iff_exists'.mp hsome
        obtain ⟨fuel', w, hlt, hw⟩ := denote_of_transGen harith honly hcyc hv
        rw [ih fuel' hlt] at hw
        cases hw
  obtain ⟨b, -, hb⟩ := TransGen.tail'_iff.mp hcyc
  obtain ⟨v, fuel, hv⟩ := heval a (Feeds.mem_keys_right hb)
  rw [hnone fuel] at hv
  cases hv

theorem Evaluable.refsResolve (harith : pg.Arithmetic) (honly : pg.OnlyXY)
    (heval : pg.Evaluable ops) : pg.RefsResolve := by
  intro a b hab
  obtain ⟨v, fuel, hv⟩ := heval b (Feeds.mem_keys_right hab)
  obtain ⟨fuel', w, -, hw⟩ := denote_of_feeds harith honly hab hv
  cases fuel' with
  | zero =>
      simp [denote] at hw
  | succ fuel' =>
      obtain ⟨node, -, -, hget, -⟩ := denote_succ_eq_some_iff.mp hw
      exact (pg.nodes.mem_keys_iff a).mpr ⟨node, (pg.nodes.get_eq_some_iff a node).mp hget⟩

/-- An evaluable arithmetic graph with one result node passes `build`. -/
theorem build_of_evaluable {P : Petgraph} (hP : P.Correct) (harith : pg.Arithmetic)
    (honly : pg.OnlyXY) (hone : pg.OneResult) (heval : pg.Evaluable ops) :
    ∃ a, build P pg = .ok a := by
  obtain ⟨r, hr⟩ := (oneResult_iff pg).mp hone
  refine ⟨analysisOf pg r, (build_eq_ok_iff hP pg _).mpr ⟨?_, ?_, ?_, r, hr, rfl⟩⟩
  · intro e he v hv
    obtain ⟨⟨k, v⟩, hkv, rfl⟩ := List.mem_map.mp hv
    rw [(refs_of_isOperand (isOperand_of_mem_values harith honly he hkv)).1]
    exact Nat.zero_le _
  · exact Evaluable.refsResolve harith honly heval
  · exact Evaluable.acyclic harith honly heval

end Accepted

/-- The replies to dispatches are those of the four operations. -/
def Computes (ops : FloatOps) (reply : Dispatch → Except ExecError Json) : Prop :=
  ∀ d x y v, (d.args.get "x").bind (Json.asF64 ops) = some x →
    (d.args.get "y").bind (Json.asF64 ops) = some y →
    arithmetic ops d.processId x y = some v → reply d = .ok v

theorem LocalExecutor.process_computes (ops : FloatOps) (exe : LocalExecutor) :
    Computes ops (LocalExecutor.process ops exe) := by
  rintro ⟨nodeId, processId, args⟩ x y v hx hy hv
  dsimp only at hx hy hv
  have hnx : LocalExecutor.number ops (args.get "x") = .ok x := by
    simp only [LocalExecutor.number, hx]
  have hny : LocalExecutor.number ops (args.get "y") = .ok y := by
    simp only [LocalExecutor.number, hy]
  have harm : ∀ op, LocalExecutor.numericArm ops op args = .ok (Json.ofF64 (op x y)) := by
    intro op
    unfold LocalExecutor.numericArm
    rw [hnx, hny]
    rfl
  unfold arithmetic at hv
  split at hv
  · rw [← Option.some.inj hv]
    exact harm ops.add
  · rw [← Option.some.inj hv]
    exact harm ops.sub
  · rw [← Option.some.inj hv]
    exact harm ops.mul
  · split_ifs at hv with hzero
    rw [← Option.some.inj hv]
    change LocalExecutor.divideArm ops args = _
    unfold LocalExecutor.divideArm
    rw [hnx, hny]
    exact if_neg hzero
  · cases hv

namespace ProcessRegistry

theorem get_register_self (reg : ProcessRegistry) (name : String) (h : ProcessHandler) :
    (reg.register name h).get name = some h := by
  simp [register, get]

theorem get_register_of_ne {reg : ProcessRegistry} {name name' : String} (h : ProcessHandler)
    (hne : name' ≠ name) : (reg.register name h).get name' = reg.get name' := by
  have hfilter : ∀ l : List (String × ProcessHandler),
      (l.filter (fun e => e.1 != name)).lookup name' = l.lookup name' := by
    intro l
    induction l with
    | nil =>
        rfl
    | cons e l ih =>
        obtain ⟨k, w⟩ := e
        by_cases hk : k = name
        · subst hk
          have : (name' == k) = false := by simpa using hne
          simp [List.lookup_cons, this, ih]
        · simp [hk, List.lookup_cons, ih]
  have hne' : (name' == name) = false := by simpa using hne
  simp only [register, get, List.lookup_cons, hne', hfilter]

end ProcessRegistry

namespace GeoExecutor

/-- The registry `GeoExecutor::new` sets up. -/
def defaultRegistry (ops : FloatOps) (handlerOf : String → ProcessHandler) : ProcessRegistry :=
  registerDefaults ops handlerOf ProcessRegistry.empty

theorem get_registerAll_of_not_mem (handlerOf : String → ProcessHandler) {name : String} :
    ∀ {names : List String} {reg : ProcessRegistry}, name ∉ names →
      (registerAll handlerOf names reg).get name = reg.get name
  | [], _, _ => rfl
  | n :: names, reg, h => by
      rw [List.mem_cons, not_or] at h
      change (registerAll handlerOf names (reg.register n (handlerOf n))).get name = _
      rw [get_registerAll_of_not_mem handlerOf h.2, ProcessRegistry.get_register_of_ne _ h.1]

/-- The handler of each arithmetic process. -/
theorem get_defaultRegistry (ops : FloatOps) (handlerOf : String → ProcessHandler) :
    (defaultRegistry ops handlerOf).get "add" = some (addHandler ops) ∧
    (defaultRegistry ops handlerOf).get "subtract" = some (subtractHandler ops) ∧
    (defaultRegistry ops handlerOf).get "multiply" = some (multiplyHandler ops) ∧
    (defaultRegistry ops handlerOf).get "divide" = some (divideHandler ops) := by
  unfold defaultRegistry registerDefaults
  refine ⟨?_, ?_, ?_, ?_⟩ <;>
    rw [get_registerAll_of_not_mem handlerOf (by decide)]
  · rw [ProcessRegistry.get_register_of_ne _ (by decide),
      ProcessRegistry.get_register_of_ne _ (by decide),
      ProcessRegistry.get_register_of_ne _ (by decide), ProcessRegistry.get_register_self]
  · rw [ProcessRegistry.get_register_of_ne _ (by decide),
      ProcessRegistry.get_register_of_ne _ (by decide), ProcessRegistry.get_register_self]
  · rw [ProcessRegistry.get_register_of_ne _ (by decide), ProcessRegistry.get_register_self]
  · rw [ProcessRegistry.get_register_self]

theorem handle_computes (ops : FloatOps) (handlerOf : String → ProcessHandler) :
    Computes ops (handle (defaultRegistry ops handlerOf)) := by
  rintro ⟨nodeId, processId, args⟩ x y v hx hy hv
  dsimp only at hx hy hv
  obtain ⟨hadd, hsub, hmul, hdiv⟩ := get_defaultRegistry ops handlerOf
  have hnx : argNumber ops args "x" = .ok x := by
    simp only [argNumber, hx]
  have hny : argNumber ops args "y" = .ok y := by
    simp only [argNumber, hy]
  have harm : ∀ op, numericHandler ops op args = .ok (Json.ofF64 (op x y)) := by
    intro op
    unfold numericHandler
    rw [hnx, hny]
    rfl
  unfold arithmetic at hv
  unfold handle
  split at hv
  · rw [← Option.some.inj hv, hadd]
    exact harm ops.add
  · rw [← Option.some.inj hv, hsub]
    exact harm ops.sub
  · rw [← Option.some.inj hv, hmul]
    exact harm ops.mul
  · split_ifs at hv with hzero
    rw [← Option.some.inj hv, hdiv]
    change divideHandler ops args = _
    unfold divideHandler
    rw [hnx, hny]
    exact if_neg hzero
  · cases hv

/-- No arithmetic process is missing. -/
theorem missing_defaultRegistry (ops : FloatOps) (handlerOf : String → ProcessHandler)
    {node : Process} (h : node.Arithmetic) :
    (defaultRegistry ops handlerOf).missing node.processId = none := by
  obtain ⟨hadd, hsub, hmul, hdiv⟩ := get_defaultRegistry ops handlerOf
  have hmem := h.process
  simp only [List.mem_cons, List.not_mem_nil, or_false] at hmem
  unfold ProcessRegistry.missing
  rcases hmem with he | he | he | he
  · rw [he, hadd]
  · rw [he, hsub]
  · rw [he, hmul]
  · rw [he, hdiv]

end GeoExecutor

section Refinement

variable {ops : FloatOps} {pg : ProcessGraph} {reply : Dispatch → Except ExecError Json}

/-- The memo table holds denoted values only. -/
def Sound (ops : FloatOps) (pg : ProcessGraph) (memo : Memo) : Prop :=
  ∀ s v, memo s = some v → Denotes ops pg s v

/-- Resolving an operand and reading it as a number gives its denotation. -/
theorem operand_resolved {memo : Memo} (hsound : Sound ops pg memo) {fuel : Nat}
    {arg : Option Json} {x : F64} (h : operand ops (denote ops pg fuel) arg = some x)
    (hmemo : ∀ v, arg = some v → ∀ s, Counted v s → (memo s).isSome) :
    (arg.map (resolved memo)).bind (Json.asF64 ops) = some x := by
  rcases operand_eq_some_cases h with ⟨n, rfl, rfl⟩ | ⟨s, v, rfl, hv, hx⟩
  · rfl
  · obtain ⟨w, hw⟩ := Option.isSome_iff_exists.mp
      (hmemo _ rfl s (counted_fromNode_iff.mpr rfl))
    have hwv : w = v := (hsound s w hw).unique ⟨fuel, hv⟩
    subst hwv
    have hres : resolved memo (fromNode s) = w := by
      simp only [resolved, resolveLink_fromNode, hw]
    rw [Option.map_some, hres]
    exact hx

/-- **The walk ends with denoted values only.** -/
theorem walk_answer (hcomp : Computes ops reply) {missing : String → Option ExecError}
    (hmissing : ∀ e ∈ pg.nodes.entries, missing e.2.processId = none)
    (heval : pg.Evaluable ops) :
    ∀ {before rest : List String} {memo : Memo},
      Ready pg before rest memo → Sound ops pg memo →
        ∃ memo', (walk resolveLink missing pg rest memo).answer reply = .ok memo' ∧
          Ready pg (before ++ rest) [] memo' ∧ Sound ops pg memo'
  | before, [], memo, hready, hsound => by
      exact ⟨memo, rfl, by simpa using hready, hsound⟩
  | before, n :: rest, memo, hready, hsound => by
      obtain ⟨node, hget, hrefs⟩ := hready.head
      have hnode := (pg.nodes.get_eq_some_iff n node).mp hget
      obtain ⟨v, fuel, hv⟩ := heval n ((pg.nodes.mem_keys_iff n).mpr ⟨node, hnode⟩)
      have hreply : reply ⟨n, node.processId, node.arguments.mapValues (resolved memo)⟩ =
          .ok v := by
        cases fuel with
        | zero =>
            simp [denote] at hv
        | succ fuel =>
            obtain ⟨node', x, y, hget', hx, hy, hval⟩ := denote_succ_eq_some_iff.mp hv
            rw [hget, Option.some.injEq] at hget'
            subst hget'
            have hmemo : ∀ k u, node.arguments.get k = some u →
                ∀ s, Counted u s → (memo s).isSome := by
              intro k u hu s hs
              have hku := (node.arguments.get_eq_some_iff k u).mp hu
              exact hrefs u (List.mem_map_of_mem hku) s hs
            refine hcomp _ x y v ?_ ?_ hval
            · rw [BTreeMap.get_mapValues]
              exact operand_resolved hsound hx (hmemo "x")
            · rw [BTreeMap.get_mapValues]
              exact operand_resolved hsound hy (hmemo "y")
      have hsound' : Sound ops pg (Function.update memo n (some v)) := by
        intro s w hw
        by_cases hs : s = n
        · subst hs
          rw [Function.update_self, Option.some.injEq] at hw
          exact hw ▸ ⟨fuel, hv⟩
        · rw [Function.update_of_ne hs] at hw
          exact hsound s w hw
      obtain ⟨memo', hans, hready', hs'⟩ :=
        walk_answer hcomp hmissing heval (hready.step v) hsound'
      refine ⟨memo', ?_, by simpa using hready', hs'⟩
      rw [walk_eq missing hget hrefs, hmissing _ hnode]
      simp only [answer, hreply]
      exact hans

/-- The evaluation of an arithmetic graph returns the value of its result node
and dispatches every node once. -/
theorem evaluateResult_answer (missing : String → Option ExecError)
    {P : Petgraph} (hP : P.Correct) {a : ProcessGraphAnalysis}
    (hb : build P pg = .ok a) (hcomp : Computes ops reply)
    (hmissing : ∀ e ∈ pg.nodes.entries, missing e.2.processId = none)
    (heval : pg.Evaluable ops) :
    ∃ v, Denotes ops pg a.resultId v ∧
      (evaluateResult resolveLink missing P pg).answer reply = .ok (a.resultId, v) ∧
      (((evaluateResult resolveLink missing P pg).transcript reply).map
        (fun x => x.req.nodeId)).Perm pg.nodes.keys := by
  obtain ⟨memo', hans, hready, hsound⟩ := walk_answer hcomp hmissing heval
    (Ready.start hP hb) (by intro s v hv; cases hv)
  have hmem : a.resultId ∈ [] ++ evaluationOrder P a := by
    simpa using hready.topo.perm.mem_iff.mpr (resultId_mem_keys hP hb)
  obtain ⟨v, hv⟩ := Option.isSome_iff_exists.mp ((hready.memo_isSome _).mpr hmem)
  have hres : (evaluateResult resolveLink missing P pg).answer reply = .ok (a.resultId, v) := by
    unfold evaluateResult
    rw [hb]
    simp only [answer_bind, hans, hv]
    rfl
  refine ⟨v, hsound _ _ hv, hres, ?_⟩
  have hpath := path_answer reply (evaluateResult resolveLink missing P pg)
  rw [hres] at hpath
  rcases (evaluateResult_path missing hP hb hpath).2 with ⟨out, -, -, hids⟩ | ⟨e, he, -⟩
  · rw [hids]
    exact (evaluationOrder_isTopologicalOrder hP hb).perm
  · cases he

theorem ProcessRegistry.missing_eq_some {reg : ProcessRegistry} {name : String} {e : ExecError}
    (h : reg.missing name = some e) : ∃ msg, e = .unknownProcess msg := by
  unfold missing at h
  split at h
  · cases h
  · dsimp only at h
    split_ifs at h
    · exact ⟨_, (Option.some.inj h).symm⟩
    · exact ⟨_, (Option.some.inj h).symm⟩

/-- **Both executors return the denoted value of the result node and dispatch
every node exactly once, for every arithmetic graph whose nodes all have a
value; and an evaluation of an accepted graph can fail only by the error of a
process or because a process is not registered.** -/
theorem evaluate_denotes {P : Petgraph} (hP : P.Correct) (ops : FloatOps)
    (exe : LocalExecutor) (handlerOf : String → ProcessHandler) (pg : ProcessGraph) :
    (pg.Arithmetic → pg.OnlyXY → pg.OneResult → pg.Evaluable ops →
      ∃ a, build P pg = .ok a) ∧
    ∀ a, build P pg = .ok a →
      (pg.Arithmetic → pg.Evaluable ops →
        ∃ v, Denotes ops pg a.resultId v ∧
          (LocalExecutor.evaluate P pg).answer (LocalExecutor.process ops exe) = .ok v ∧
          (((LocalExecutor.evaluate P pg).transcript (LocalExecutor.process ops exe)).map
            (fun x => x.req.nodeId)).Perm pg.nodes.keys ∧
          (∃ processId,
            (GeoExecutor.evaluate P (GeoExecutor.defaultRegistry ops handlerOf) pg).answer
              (GeoExecutor.handle (GeoExecutor.defaultRegistry ops handlerOf)) =
                .ok (processId, v)) ∧
          (((GeoExecutor.evaluate P (GeoExecutor.defaultRegistry ops handlerOf) pg).transcript
            (GeoExecutor.handle (GeoExecutor.defaultRegistry ops handlerOf))).map
              (fun x => x.req.nodeId)).Perm pg.nodes.keys) ∧
      (∀ tr e, Path (LocalExecutor.evaluate P pg) tr (.error e) → ∃ d, ⟨d, .error e⟩ ∈ tr) ∧
      (∀ registry tr e, Path (GeoExecutor.evaluate P registry pg) tr (.error e) →
        (∃ d, ⟨d, .error e⟩ ∈ tr) ∨ ∃ msg, e = .unknownProcess msg) := by
  refine ⟨fun harith honly hone heval => build_of_evaluable hP harith honly hone heval, ?_⟩
  intro a hb
  refine ⟨fun harith heval => ?_, fun tr e hpath => ?_, fun registry tr e hpath => ?_⟩
  · obtain ⟨v, hv, hlocal, hlocalIds⟩ := evaluateResult_answer (fun _ => none) hP hb
      (LocalExecutor.process_computes ops exe) (fun _ _ => rfl) heval
    obtain ⟨w, hw, hgeo, hgeoIds⟩ := evaluateResult_answer _ hP hb
      (GeoExecutor.handle_computes ops handlerOf)
      (fun e he => GeoExecutor.missing_defaultRegistry ops handlerOf (harith e he)) heval
    have hwv : w = v := hw.unique hv
    subst hwv
    refine ⟨w, hv, ?_, ?_, ?_, ?_⟩
    · unfold LocalExecutor.evaluate LocalExecutor.resolveValue
      rw [answer_bind, hlocal]
      rfl
    · unfold LocalExecutor.evaluate LocalExecutor.resolveValue
      rw [transcript_bind]
      simpa [transcript] using hlocalIds
    · refine ⟨((pg.nodes.get a.resultId).map Process.processId).getD "", ?_⟩
      unfold GeoExecutor.evaluate GeoExecutor.resolveValue
      rw [answer_bind, hgeo]
      rfl
    · unfold GeoExecutor.evaluate GeoExecutor.resolveValue
      rw [transcript_bind]
      simpa [transcript] using hgeoIds
  · obtain ⟨res', hpath', hres⟩ := path_localEvaluate_iff.mp hpath
    rcases (evaluateResult_path _ hP hb hpath').2 with ⟨out, rfl, -⟩ | ⟨e', rfl, herr⟩
    · cases hres
    · cases hres
      rcases herr with hd | ⟨n, -, hmiss⟩
      · exact hd
      · cases hmiss
  · obtain ⟨res', hpath', hres⟩ := path_geoEvaluate_iff.mp hpath
    rcases (evaluateResult_path _ hP hb hpath').2 with ⟨out, rfl, -⟩ | ⟨e', rfl, herr⟩
    · cases hres
    · cases hres
      rcases herr with hd | ⟨n, -, hmiss⟩
      · exact Or.inl hd
      · exact Or.inr (ProcessRegistry.missing_eq_some hmiss)

/-- The graph of `(1 + 2) - 2`. -/
def sumGraph : ProcessGraph where
  nodes :=
    { entries :=
        [("diff", ⟨"subtract", ⟨[("x", fromNode "sum"), ("y", .num (.posInt 2))], by decide⟩,
            some true⟩),
          ("sum", ⟨"add", ⟨[("x", .num (.posInt 1)), ("y", .num (.posInt 2))], by decide⟩,
            none⟩)]
      sorted := by decide }

theorem evaluate_sumGraph :
    ∃ v, Denotes FloatOps.exact sumGraph "diff" v ∧
      (LocalExecutor.evaluate Petgraph.bySources sumGraph).answer
        (LocalExecutor.process FloatOps.exact ⟨none⟩) = .ok v := by
  have harith : sumGraph.Arithmetic := by
    intro e he
    simp only [sumGraph, List.mem_cons, List.not_mem_nil, or_false] at he
    rcases he with rfl | rfl
    · exact ⟨by decide, ⟨_, rfl, Or.inr ⟨_, rfl⟩⟩, ⟨_, rfl, Or.inl ⟨_, rfl⟩⟩⟩
    · exact ⟨by decide, ⟨_, rfl, Or.inl ⟨_, rfl⟩⟩, ⟨_, rfl, Or.inl ⟨_, rfl⟩⟩⟩
  have heval : sumGraph.Evaluable FloatOps.exact := by
    intro id hid
    have hid' : id = "diff" ∨ id = "sum" := by
      simpa [sumGraph, BTreeMap.keys] using hid
    rcases hid' with rfl | rfl
    · exact ⟨_, 2, rfl⟩
    · exact ⟨_, 1, rfl⟩
  obtain ⟨v, hv, hlocal, -⟩ :=
    ((evaluate_denotes Petgraph.bySources_correct FloatOps.exact ⟨none⟩
      (fun _ _ => .ok .null) sumGraph).2 (analysisOf sumGraph "diff") rfl).1 harith heval
  exact ⟨v, hv, hlocal⟩

end Refinement

end OrbitOpenEO
