import OrbitOpenEO.ReferenceWalk
import OrbitOpenEO.Lib.TopologicalOrder

/-!
# The process-graph analyser

`ProcessGraphAnalysis::build` turns an openEO process graph into a directed
graph with one vertex per node and one edge `src → dst` per counted reference,
rejects it if it is cyclic and picks the single result node.
`evaluation_order` lists the vertices in the order the executors follow.

The graph algorithms come from petgraph, which is not part of the repository:
they are the parameter `P : Petgraph`, and `Petgraph.Correct` states what their
documentation promises.  `Petgraph.bySources` is an implementation that keeps
the promise, so the assumption can be met.

`build_eq_ok_iff` is the one description of `build` that later proofs use.
-/

namespace OrbitOpenEO

open Lib Relation

/-- A single node of a process graph. -/
structure Process where
  processId : String
  arguments : BTreeMap Json
  result : Option Bool

/-- A process graph: id to node, in id order. -/
structure ProcessGraph where
  nodes : BTreeMap Process

/-- `petgraph::DiGraph<String, ()>`: vertices are numbered from zero. -/
structure DiGraph where
  nodes : List String
  edges : List (Nat × Nat)
deriving DecidableEq

namespace DiGraph

/-- `DiGraph::new`. -/
def empty : DiGraph := ⟨[], []⟩

/-- `DiGraph::add_node`; the new vertex is numbered `g.nodes.length`. -/
def addNode (g : DiGraph) (weight : String) : DiGraph :=
  { g with nodes := g.nodes ++ [weight] }

/-- `DiGraph::add_edge`. -/
def addEdge (g : DiGraph) (src dst : Nat) : DiGraph :=
  { g with edges := g.edges ++ [(src, dst)] }

/-- The edge relation. -/
def Edge (g : DiGraph) (u v : Nat) : Prop := (u, v) ∈ g.edges

/-- Every edge joins two vertices of the graph. -/
def WellFormed (g : DiGraph) : Prop :=
  ∀ u v, g.Edge u v → u < g.nodes.length ∧ v < g.nodes.length

end DiGraph

/-- The graph algorithms used from petgraph. -/
structure Petgraph where
  isCyclicDirected : DiGraph → Bool
  toposort : DiGraph → Except Nat (List Nat)

/-- What petgraph documents about them. -/
structure Petgraph.Correct (P : Petgraph) : Prop where
  cyclic_iff : ∀ g : DiGraph, g.WellFormed →
    (P.isCyclicDirected g = true ↔ ¬ Acyclic g.Edge)
  toposort_ok : ∀ g : DiGraph, g.WellFormed → Acyclic g.Edge →
    ∃ o, P.toposort g = .ok o ∧
      IsTopologicalOrder (List.range g.nodes.length) g.Edge o

/-- An implementation by repeated removal of sources. -/
def Petgraph.bySources : Petgraph where
  isCyclicDirected g :=
    (sourceOrder (fun u v => decide ((u, v) ∈ g.edges)) (List.range g.nodes.length)).isNone
  toposort g :=
    match sourceOrder (fun u v => decide ((u, v) ∈ g.edges)) (List.range g.nodes.length) with
    | some o => .ok o
    | none => .error 0

theorem Petgraph.bySources_correct : Petgraph.bySources.Correct := by
  have hE : ∀ g : DiGraph,
      (fun u v => decide ((u, v) ∈ g.edges) = true) = g.Edge := by
    intro g
    funext u v
    exact decide_eq_true_eq
  have hedge : ∀ (g : DiGraph) (u v : Nat),
      decide ((u, v) ∈ g.edges) = true → g.Edge u v := by
    intro g u v h
    simpa [DiGraph.Edge] using h
  have hsome : ∀ g : DiGraph, g.WellFormed →
      ((sourceOrder (fun u v => decide ((u, v) ∈ g.edges))
        (List.range g.nodes.length)).isSome ↔ Acyclic g.Edge) := by
    intro g hg
    rw [← hE g]
    refine sourceOrder_isSome_iff _ List.nodup_range (fun a b hab => ?_)
    have := hg a b (hedge g a b hab)
    exact ⟨List.mem_range.mpr this.1, List.mem_range.mpr this.2⟩
  constructor
  · intro g hg
    rw [← hsome g hg]
    simp [Petgraph.bySources]
  · intro g hg hac
    obtain ⟨o, ho⟩ := Option.isSome_iff_exists.mp ((hsome g hg).mpr hac)
    refine ⟨o, by simp [Petgraph.bySources, ho], ?_⟩
    rw [← hE g]
    refine sourceOrder_sound _ (fun a b hab => ?_) ho
    exact List.mem_range.mpr (hg a b (hedge g a b hab)).1

/-- The analyser: the graph, the lookups between ids and vertices, and the
result node. -/
structure ProcessGraphAnalysis where
  graph : DiGraph
  idx : String → Option Nat
  byIndex : Nat → Option String
  resultId : String

/-- What the first pass builds: the vertices and the two lookups. -/
structure NodeTable where
  graph : DiGraph
  idx : String → Option Nat
  byIndex : Nat → Option String

namespace NodeTable

def empty : NodeTable := ⟨DiGraph.empty, fun _ => none, fun _ => none⟩

/-- One round of the first pass. -/
def add (t : NodeTable) (id : String) (node : Process) : NodeTable where
  graph := t.graph.addNode node.processId
  idx := Function.update t.idx id (some t.graph.nodes.length)
  byIndex := Function.update t.byIndex t.graph.nodes.length (some id)

/-- The first pass: every node becomes a vertex. -/
def addAll : NodeTable → List (String × Process) → NodeTable
  | t, [] => t
  | t, (id, node) :: rest => addAll (t.add id node) rest

end NodeTable

/-- The visitor of the second pass: look the reference up and add an edge. -/
def visitRef (idx : String → Option Nat) (dst : Nat) (g : DiGraph) (srcId : String) :
    Except GraphError DiGraph :=
  match idx srcId with
  | none => .error (.unknownNodeReference srcId)
  | some src => .ok (g.addEdge src dst)

/-- The second pass.  Every id is in `idx` by then (`idx_tableOf_eq_some_iff`),
so the default of `idx[dst_id]` is never taken. -/
def addEdges (idx : String → Option Nat) :
    List (String × Process) → DiGraph → Except GraphError DiGraph
  | [], g => .ok g
  | (dstId, node) :: rest, g => do
      let g' ← collectFromNodeRefs (visitRef idx ((idx dstId).getD 0))
        node.arguments.values g
      addEdges idx rest g'

/-- The ids of the nodes marked `result: true`. -/
def ProcessGraph.resultNodes (pg : ProcessGraph) : List String :=
  (pg.nodes.entries.filter (fun e => e.2.result == some true)).map Prod.fst

/-- `ProcessGraphAnalysis::build`. -/
def build (P : Petgraph) (pg : ProcessGraph) :
    Except GraphError ProcessGraphAnalysis := do
  let table := NodeTable.empty.addAll pg.nodes.entries
  let graph ← addEdges table.idx pg.nodes.entries table.graph
  if P.isCyclicDirected graph then
    .error (.cycle (pg.nodes.keys.head?.getD "<unknown>"))
  else
    match pg.resultNodes with
    | [resultId] => .ok ⟨graph, table.idx, table.byIndex, resultId⟩
    | ids => .error (.ambiguousResult ids.length)

/-- `ProcessGraphAnalysis::evaluation_order`.  A failed sort gives the empty
schedule; every vertex has an id (`byIndex_tableOf`), so none is left out. -/
def evaluationOrder (P : Petgraph) (a : ProcessGraphAnalysis) : List String :=
  match P.toposort a.graph with
  | .ok topo => topo.filterMap a.byIndex
  | .error _ => []

/-- The table the first pass leaves for `pg`. -/
def tableOf (pg : ProcessGraph) : NodeTable := NodeTable.empty.addAll pg.nodes.entries

/-- A table holds exactly the ids `ids`, numbered by position. -/
structure NodeTable.Holds (t : NodeTable) (ids : List String) : Prop where
  length : t.graph.nodes.length = ids.length
  edges : t.graph.edges = []
  idx : ∀ id i, t.idx id = some i ↔ ids[i]? = some id
  byIndex : ∀ i, t.byIndex i = ids[i]?

theorem NodeTable.empty_holds : NodeTable.empty.Holds [] := by
  constructor <;> simp [NodeTable.empty, DiGraph.empty]

theorem NodeTable.Holds.add
    {t : NodeTable} {ids : List String} (h : t.Holds ids)
    {id : String} (hid : id ∉ ids) (node : Process) :
    (t.add id node).Holds (ids ++ [id]) := by
  constructor
  · simp [NodeTable.add, DiGraph.addNode, h.length]
  · simp [NodeTable.add, DiGraph.addNode, h.edges]
  · intro id' i
    by_cases he : id' = id
    · subst he
      have hnone : ∀ j : Nat, ids[j]? ≠ some id' := by
        intro j hj
        exact hid (List.mem_of_getElem? hj)
      simp only [NodeTable.add, Function.update_self, Option.some.injEq, h.length]
      rw [List.getElem?_append]
      split_ifs with hi
      · simp only [hnone i, iff_false]
        omega
      · rw [List.getElem?_singleton]
        split_ifs <;> simp <;> omega
    · simp only [NodeTable.add, Function.update_of_ne he, h.idx]
      rw [List.getElem?_append]
      split_ifs with hi
      · rfl
      · rw [List.getElem?_singleton, List.getElem?_eq_none (by omega)]
        split_ifs <;> simp [Ne.symm he]
  · intro i
    by_cases hi : i = ids.length
    · subst hi
      simp [NodeTable.add, h.length]
    · have hi' : i ≠ t.graph.nodes.length := by rw [h.length]; exact hi
      simp only [NodeTable.add, Function.update_of_ne hi', h.byIndex]
      rw [List.getElem?_append]
      split_ifs with hlt
      · rfl
      · rw [List.getElem?_singleton, List.getElem?_eq_none (by omega), if_neg (by omega)]

theorem NodeTable.Holds.addAll :
    ∀ {t : NodeTable} {ids : List String} (es : List (String × Process)),
      t.Holds ids → (ids ++ es.map Prod.fst).Nodup →
        (t.addAll es).Holds (ids ++ es.map Prod.fst)
  | t, ids, [], h, _ => by
      simpa [NodeTable.addAll] using h
  | t, ids, (id, node) :: es, h, hnd => by
      have hid : id ∉ ids := by
        intro hmem
        exact (List.nodup_append.mp hnd).2.2 id hmem id (by simp) rfl
      have hassoc : ids ++ ((id, node) :: es).map Prod.fst =
          (ids ++ [id]) ++ es.map Prod.fst := by simp
      rw [hassoc] at hnd ⊢
      exact NodeTable.Holds.addAll es (h.add hid node) hnd

theorem tableOf_holds (pg : ProcessGraph) : (tableOf pg).Holds pg.nodes.keys := by
  have h := NodeTable.empty_holds.addAll pg.nodes.entries
    (by simpa [BTreeMap.keys] using pg.nodes.keys_nodup)
  simpa [tableOf, BTreeMap.keys] using h

theorem idx_tableOf_eq_some_iff (pg : ProcessGraph) (id : String) (i : Nat) :
    (tableOf pg).idx id = some i ↔ pg.nodes.keys[i]? = some id :=
  (tableOf_holds pg).idx id i

theorem byIndex_tableOf (pg : ProcessGraph) (i : Nat) :
    (tableOf pg).byIndex i = pg.nodes.keys[i]? :=
  (tableOf_holds pg).byIndex i

theorem idx_tableOf_isSome_iff (pg : ProcessGraph) (id : String) :
    ((tableOf pg).idx id).isSome ↔ id ∈ pg.nodes.keys := by
  rw [Option.isSome_iff_exists, List.mem_iff_getElem?]
  exact exists_congr (fun i => idx_tableOf_eq_some_iff pg id i)

/-- The references counted in the arguments of a node. -/
def Process.refs (node : Process) : List String :=
  node.arguments.values.flatMap OrbitOpenEO.refs

/-- The edges one node contributes. -/
def nodeEdges (idx : String → Option Nat) (e : String × Process) : List (Nat × Nat) :=
  e.2.refs.map (fun s => ((idx s).getD 0, (idx e.1).getD 0))

theorem foldlM_visitRef_eq_ok_iff (idx : String → Option Nat) (dst : Nat) :
    ∀ (l : List String) (g g' : DiGraph),
      l.foldlM (visitRef idx dst) g = .ok g' ↔
        (∀ s ∈ l, (idx s).isSome) ∧
          g' = { g with edges := g.edges ++ l.map (fun s => ((idx s).getD 0, dst)) }
  | [], g, g' => by
      simp only [List.foldlM_nil, pure, Except.pure, Except.ok.injEq, List.not_mem_nil,
        false_imp_iff, implies_true, List.map_nil, List.append_nil, true_and]
      exact eq_comm
  | s :: l, g, g' => by
      rw [List.foldlM_cons]
      cases hs : idx s with
      | none =>
          simp [visitRef, hs, bind, Except.bind]
      | some src =>
          simp only [visitRef, hs, bind, Except.bind]
          rw [foldlM_visitRef_eq_ok_iff idx dst l]
          simp [DiGraph.addEdge, hs]

theorem addEdges_eq_ok_iff (idx : String → Option Nat) :
    ∀ (es : List (String × Process)) (g g' : DiGraph),
      addEdges idx es g = .ok g' ↔
        ((∀ e ∈ es, ∀ v ∈ e.2.arguments.values, nesting v ≤ MAX_SUBGRAPH_DEPTH) ∧
          (∀ e ∈ es, ∀ s ∈ e.2.refs, (idx s).isSome)) ∧
        g' = { g with edges := g.edges ++ es.flatMap (nodeEdges idx) }
  | [], g, g' => by
      simp only [addEdges, Except.ok.injEq, List.not_mem_nil, false_imp_iff, implies_true,
        and_self, List.flatMap_nil, List.append_nil, true_and]
      exact eq_comm
  | (dstId, node) :: es, g, g' => by
      unfold addEdges
      rw [bind_eq_ok_iff]
      simp only [collectFromNodeRefs_eq_ok_iff, foldlM_visitRef_eq_ok_iff, addEdges_eq_ok_iff]
      constructor
      · rintro ⟨mid, ⟨hdepth, hknown, rfl⟩, ⟨hdepth', hknown'⟩, rfl⟩
        refine ⟨⟨?_, ?_⟩, ?_⟩
        · exact List.forall_mem_cons.mpr ⟨hdepth, hdepth'⟩
        · exact List.forall_mem_cons.mpr ⟨hknown, hknown'⟩
        · simp [nodeEdges, Process.refs]
      · rintro ⟨⟨hdepth, hknown⟩, rfl⟩
        rw [List.forall_mem_cons] at hdepth hknown
        refine ⟨_, ⟨hdepth.1, hknown.1, rfl⟩, ⟨hdepth.2, hknown.2⟩, ?_⟩
        simp [nodeEdges, Process.refs]

namespace ProcessGraph

/-- Node `b` references node `a`: the edge `a → b`. -/
def Feeds (pg : ProcessGraph) (a b : String) : Prop :=
  ∃ node, (b, node) ∈ pg.nodes.entries ∧ ∃ v ∈ node.arguments.values, Counted v a

/-- Exactly one node carries `result: true`. -/
def OneResult (pg : ProcessGraph) : Prop :=
  ∃! id, ∃ node, (id, node) ∈ pg.nodes.entries ∧ node.result = some true

/-- Every counted reference names a node of the graph. -/
def RefsResolve (pg : ProcessGraph) : Prop :=
  ∀ a b, pg.Feeds a b → a ∈ pg.nodes.keys

/-- No argument nests deeper than the limit. -/
def Shallow (pg : ProcessGraph) : Prop :=
  ∀ e ∈ pg.nodes.entries, ∀ v ∈ e.2.arguments.values, nesting v ≤ MAX_SUBGRAPH_DEPTH

end ProcessGraph

theorem Process.mem_refs_iff (node : Process) (s : String) :
    s ∈ node.refs ↔ ∃ v ∈ node.arguments.values, Counted v s := by
  simp [Process.refs, OrbitOpenEO.mem_refs_iff]

theorem refsResolve_iff (pg : ProcessGraph) :
    pg.RefsResolve ↔
      ∀ e ∈ pg.nodes.entries, ∀ s ∈ e.2.refs, ((tableOf pg).idx s).isSome := by
  constructor
  · intro h e he s hs
    rw [idx_tableOf_isSome_iff]
    exact h s e.1 ⟨e.2, he, (e.2.mem_refs_iff s).mp hs⟩
  · rintro h a b ⟨node, hnode, href⟩
    rw [← idx_tableOf_isSome_iff]
    exact h (b, node) hnode a ((node.mem_refs_iff a).mpr href)

theorem mem_resultNodes_iff (pg : ProcessGraph) (id : String) :
    id ∈ pg.resultNodes ↔
      ∃ node, (id, node) ∈ pg.nodes.entries ∧ node.result = some true := by
  simp [ProcessGraph.resultNodes]

theorem resultNodes_nodup (pg : ProcessGraph) : pg.resultNodes.Nodup :=
  pg.nodes.keys_nodup.sublist (List.filter_sublist.map Prod.fst)

theorem oneResult_iff (pg : ProcessGraph) :
    pg.OneResult ↔ ∃ r, pg.resultNodes = [r] := by
  unfold ProcessGraph.OneResult
  simp only [← mem_resultNodes_iff]
  constructor
  · rintro ⟨r, hr, huniq⟩
    refine ⟨r, ?_⟩
    have hall : ∀ x ∈ pg.resultNodes, x = r := huniq
    cases hl : pg.resultNodes with
    | nil =>
        simp [hl] at hr
    | cons x l =>
        have hnd := resultNodes_nodup pg
        rw [hl] at hall hnd
        have hx : x = r := hall x (by simp)
        have hnil : l = [] := by
          refine List.eq_nil_iff_forall_not_mem.mpr (fun y hy => ?_)
          have hy' : y = x := (hall y (by simp [hy])).trans hx.symm
          exact (List.nodup_cons.mp hnd).1 (hy' ▸ hy)
        rw [hx, hnil]
  · rintro ⟨r, hr⟩
    exact ⟨r, by simp [hr], fun y hy => by simpa [hr] using hy⟩

/-- The graph `build` leaves when it succeeds. -/
def graphOf (pg : ProcessGraph) : DiGraph :=
  { (tableOf pg).graph with edges := pg.nodes.entries.flatMap (nodeEdges (tableOf pg).idx) }

/-- The analyser `build` leaves when it succeeds. -/
def analysisOf (pg : ProcessGraph) (resultId : String) : ProcessGraphAnalysis :=
  ⟨graphOf pg, (tableOf pg).idx, (tableOf pg).byIndex, resultId⟩

theorem length_nodes_graphOf (pg : ProcessGraph) :
    (graphOf pg).nodes.length = pg.nodes.keys.length :=
  (tableOf_holds pg).length

/-- The edges of the graph are the references of the nodes, by position. -/
theorem edge_graphOf_iff (pg : ProcessGraph) (h : pg.RefsResolve) (i j : Nat) :
    (graphOf pg).Edge i j ↔
      ∃ a b, pg.nodes.keys[i]? = some a ∧ pg.nodes.keys[j]? = some b ∧ pg.Feeds a b := by
  simp only [DiGraph.Edge, graphOf, List.mem_flatMap, nodeEdges, List.mem_map, Prod.mk.injEq]
  constructor
  · rintro ⟨e, he, s, hs, hi, hj⟩
    have hfeeds : pg.Feeds s e.1 := ⟨e.2, he, (e.2.mem_refs_iff s).mp hs⟩
    have hkey : e.1 ∈ pg.nodes.keys := (pg.nodes.mem_keys_iff e.1).mpr ⟨e.2, he⟩
    obtain ⟨i', hi'⟩ := Option.isSome_iff_exists.mp
      ((idx_tableOf_isSome_iff pg s).mpr (h s e.1 hfeeds))
    obtain ⟨j', hj'⟩ := Option.isSome_iff_exists.mp ((idx_tableOf_isSome_iff pg e.1).mpr hkey)
    rw [hi', Option.getD_some] at hi
    rw [hj', Option.getD_some] at hj
    subst hi hj
    exact ⟨s, e.1, (idx_tableOf_eq_some_iff pg s i').mp hi',
      (idx_tableOf_eq_some_iff pg e.1 j').mp hj', hfeeds⟩
  · rintro ⟨a, b, hi, hj, node, hnode, href⟩
    refine ⟨(b, node), hnode, a, (node.mem_refs_iff a).mpr href, ?_, ?_⟩
    · rw [(idx_tableOf_eq_some_iff pg a i).mpr hi, Option.getD_some]
    · rw [(idx_tableOf_eq_some_iff pg b j).mpr hj, Option.getD_some]

theorem graphOf_wellFormed (pg : ProcessGraph) (h : pg.RefsResolve) :
    (graphOf pg).WellFormed := by
  intro i j hij
  obtain ⟨a, b, hi, hj, -⟩ := (edge_graphOf_iff pg h i j).mp hij
  rw [length_nodes_graphOf]
  exact ⟨(List.getElem?_eq_some_iff.mp hi).1, (List.getElem?_eq_some_iff.mp hj).1⟩

theorem Feeds.mem_keys_right {pg : ProcessGraph} {a b : String} (h : pg.Feeds a b) :
    b ∈ pg.nodes.keys := by
  obtain ⟨node, hnode, -⟩ := h
  exact (pg.nodes.mem_keys_iff b).mpr ⟨node, hnode⟩

/-- Cycles of the graph are cycles of references. -/
theorem acyclic_graphOf_iff (pg : ProcessGraph) (h : pg.RefsResolve) :
    Acyclic (graphOf pg).Edge ↔ Acyclic pg.Feeds := by
  constructor
  · intro hac a hcyc
    refine hac (((tableOf pg).idx a).getD 0) ?_
    refine TransGen.lift (fun id => ((tableOf pg).idx id).getD 0) (fun x y hxy => ?_) _ _ hcyc
    obtain ⟨i, hi⟩ := Option.isSome_iff_exists.mp
      ((idx_tableOf_isSome_iff pg x).mpr (h x y hxy))
    obtain ⟨j, hj⟩ := Option.isSome_iff_exists.mp
      ((idx_tableOf_isSome_iff pg y).mpr (Feeds.mem_keys_right hxy))
    simp only [Function.onFun, hi, hj, Option.getD_some]
    exact (edge_graphOf_iff pg h i j).mpr
      ⟨x, y, (idx_tableOf_eq_some_iff pg x i).mp hi, (idx_tableOf_eq_some_iff pg y j).mp hj, hxy⟩
  · intro hac i hcyc
    refine hac ((pg.nodes.keys[i]?).getD "") ?_
    refine TransGen.lift (fun k => (pg.nodes.keys[k]?).getD "") (fun x y hxy => ?_) _ _ hcyc
    obtain ⟨a, b, ha, hb, hab⟩ := (edge_graphOf_iff pg h x y).mp hxy
    simp only [Function.onFun, ha, hb, Option.getD_some]
    exact hab

theorem addEdges_tableOf_eq_ok_iff (pg : ProcessGraph) (g : DiGraph) :
    addEdges (tableOf pg).idx pg.nodes.entries (tableOf pg).graph = .ok g ↔
      (pg.Shallow ∧ pg.RefsResolve) ∧ g = graphOf pg := by
  rw [addEdges_eq_ok_iff, refsResolve_iff, (tableOf_holds pg).edges, List.nil_append]
  rfl

/-- **What a successful build means, and what it returns.** -/
theorem build_eq_ok_iff {P : Petgraph} (hP : P.Correct)
    (pg : ProcessGraph) (a : ProcessGraphAnalysis) :
    build P pg = .ok a ↔
      pg.Shallow ∧ pg.RefsResolve ∧ Acyclic pg.Feeds ∧
        ∃ r, pg.resultNodes = [r] ∧ a = analysisOf pg r := by
  change (addEdges (tableOf pg).idx pg.nodes.entries (tableOf pg).graph >>= _) = _ ↔ _
  rw [bind_eq_ok_iff]
  simp only [addEdges_tableOf_eq_ok_iff]
  constructor
  · rintro ⟨_, ⟨⟨hsh, hres⟩, rfl⟩, h⟩
    split_ifs at h with hcyc
    rw [hP.cyclic_iff _ (graphOf_wellFormed pg hres), not_not, acyclic_graphOf_iff pg hres] at hcyc
    refine ⟨hsh, hres, hcyc, ?_⟩
    split at h
    · rename_i r hr
      cases h
      exact ⟨r, hr, rfl⟩
    · cases h
  · rintro ⟨hsh, hres, hac, r, hr, rfl⟩
    refine ⟨graphOf pg, ⟨⟨hsh, hres⟩, rfl⟩, ?_⟩
    have hcyc : ¬ P.isCyclicDirected (graphOf pg) = true := by
      rw [hP.cyclic_iff _ (graphOf_wellFormed pg hres), not_not, acyclic_graphOf_iff pg hres]
      exact hac
    rw [if_neg hcyc, hr]
    rfl

/-- A node whose arguments have their callbacks emptied. -/
def Process.eraseCallbacks (node : Process) : Process :=
  { node with arguments := node.arguments.mapValues OrbitOpenEO.eraseCallbacks }

/-- The graph with every callback of every argument emptied. -/
def ProcessGraph.eraseCallbacks (pg : ProcessGraph) : ProcessGraph where
  nodes := pg.nodes.mapValues Process.eraseCallbacks

/-- Two graphs differ at most inside the callbacks of their arguments. -/
def ProcessGraph.SameOutsideCallbacks (pg pg' : ProcessGraph) : Prop :=
  pg.eraseCallbacks = pg'.eraseCallbacks

theorem NodeTable.addAll_eraseCallbacks :
    ∀ (es : List (String × Process)) (t : NodeTable),
      t.addAll (es.map (fun e => (e.1, e.2.eraseCallbacks))) = t.addAll es
  | [], _ => rfl
  | (id, node) :: es, t => by
      simp only [List.map_cons, NodeTable.addAll]
      exact NodeTable.addAll_eraseCallbacks es _

theorem addEdges_eraseCallbacks (idx : String → Option Nat) :
    ∀ (es : List (String × Process)) (g : DiGraph),
      addEdges idx (es.map (fun e => (e.1, e.2.eraseCallbacks))) g = addEdges idx es g
  | [], _ => rfl
  | (id, node) :: es, g => by
      have hvals : node.eraseCallbacks.arguments.values =
          node.arguments.values.map OrbitOpenEO.eraseCallbacks := by
        simp [Process.eraseCallbacks, BTreeMap.mapValues, BTreeMap.values]
      simp only [List.map_cons, addEdges]
      rw [hvals, collectFromNodeRefs_map_eraseCallbacks]
      cases collectFromNodeRefs (visitRef idx ((idx id).getD 0)) node.arguments.values g with
      | error e => rfl
      | ok mid => exact addEdges_eraseCallbacks idx es mid

theorem build_eraseCallbacks (P : Petgraph) (pg : ProcessGraph) :
    build P pg.eraseCallbacks = build P pg := by
  have hkeys : pg.eraseCallbacks.nodes.keys = pg.nodes.keys := by
    simp [ProcessGraph.eraseCallbacks, BTreeMap.mapValues, BTreeMap.keys, Function.comp_def]
  have hresult : pg.eraseCallbacks.resultNodes = pg.resultNodes := by
    simp only [ProcessGraph.resultNodes, ProcessGraph.eraseCallbacks, BTreeMap.mapValues,
      List.filter_map, List.map_map]
    rfl
  unfold build
  rw [hkeys, hresult]
  simp only [ProcessGraph.eraseCallbacks, BTreeMap.mapValues, NodeTable.addAll_eraseCallbacks,
    addEdges_eraseCallbacks]

/-- **`build` succeeds exactly on graphs with one result node, resolvable
counted references, no cycle and bounded nesting; and what stands inside
callbacks has no influence on its verdict or its edges.** -/
theorem build_verdict {P : Petgraph} (hP : P.Correct) :
    (∀ pg : ProcessGraph,
      (∃ a, build P pg = .ok a) ↔
        pg.OneResult ∧ pg.RefsResolve ∧ Acyclic pg.Feeds ∧ pg.Shallow) ∧
    (∀ pg pg' : ProcessGraph,
      pg.SameOutsideCallbacks pg' → build P pg = build P pg') := by
  constructor
  · intro pg
    simp only [build_eq_ok_iff hP, oneResult_iff]
    constructor
    · rintro ⟨a, hsh, hres, hac, r, hr, -⟩
      exact ⟨⟨r, hr⟩, hres, hac, hsh⟩
    · rintro ⟨⟨r, hr⟩, hres, hac, hsh⟩
      exact ⟨analysisOf pg r, hsh, hres, hac, r, hr, rfl⟩
  · intro pg pg' h
    rw [← build_eraseCallbacks P pg, h, build_eraseCallbacks]

/-- A link and nothing else. -/
def fromNode (id : String) : Json := .obj [("from_node", .str id)]

/-- Two nodes in a row: `save` saves what `load` loads. -/
def chainGraph : ProcessGraph where
  nodes :=
    { entries :=
        [("load", ⟨"load_collection", BTreeMap.empty, none⟩),
          ("save", ⟨"save_result", ⟨[("data", fromNode "load")], by decide⟩, some true⟩)]
      sorted := by decide }

theorem build_verdict_chainGraph :
    chainGraph.OneResult ∧ chainGraph.RefsResolve ∧ Acyclic chainGraph.Feeds ∧
      chainGraph.Shallow :=
  ((build_verdict Petgraph.bySources_correct).1 chainGraph).mp ⟨_, rfl⟩

/-- Every `{"from_node": s}` object outside callbacks, those among the other
members of a link included. -/
inductive RefOutsideCallbacks : Json → String → Prop
  | here {fs : List (String × Json)} {s : String} :
      linkTarget fs = some s → RefOutsideCallbacks (.obj fs) s
  | field {fs : List (String × Json)} {k : String} {v : Json} {s : String} :
      containsKey "process_graph" fs = false →
      (k, v) ∈ fs → RefOutsideCallbacks v s → RefOutsideCallbacks (.obj fs) s
  | item {xs : List Json} {v : Json} {s : String} :
      v ∈ xs → RefOutsideCallbacks v s → RefOutsideCallbacks (.arr xs) s

/-- A link to `load` with a further reference, to no node, among its members. -/
def linkWithSibling : Json :=
  .obj [("from_node", .str "load"), ("context", fromNode "ghost")]

/-- `chainGraph` with such a link. -/
def siblingGraph : ProcessGraph where
  nodes :=
    { entries :=
        [("load", ⟨"load_collection", BTreeMap.empty, none⟩),
          ("save", ⟨"save_result", ⟨[("data", linkWithSibling)], by decide⟩, some true⟩)]
      sorted := by decide }

/-- A link is a leaf of the walk: a reference beside its target is not looked
at, and the graph is accepted although no node `ghost` exists. -/
theorem siblingGraph_accepted :
    (∃ a, build Petgraph.bySources siblingGraph = .ok a) ∧
      (∃ e ∈ siblingGraph.nodes.entries, ∃ v ∈ e.2.arguments.values,
        RefOutsideCallbacks v "ghost") ∧
      "ghost" ∉ siblingGraph.nodes.keys := by
  refine ⟨⟨_, rfl⟩, ?_, by decide⟩
  refine ⟨_, List.mem_cons_of_mem _ List.mem_cons_self, linkWithSibling, List.mem_cons_self, ?_⟩
  refine RefOutsideCallbacks.field (by decide) (List.mem_cons_of_mem _ List.mem_cons_self) ?_
  exact RefOutsideCallbacks.here (by decide)

theorem filterMap_getElem?_range (l : List String) :
    (List.range l.length).filterMap (fun i => l[i]?) = l := by
  induction l with
  | nil =>
      rfl
  | cons x l ih =>
      rw [List.length_cons, List.range_succ_eq_map, List.filterMap_cons]
      simp only [List.getElem?_cons_zero, List.filterMap_map, Function.comp_def,
        List.getElem?_cons_succ, ih]

/-- **The schedule of an accepted graph is a topological order of all its
nodes.** -/
theorem evaluationOrder_isTopologicalOrder {P : Petgraph} (hP : P.Correct)
    {pg : ProcessGraph} {a : ProcessGraphAnalysis} (hb : build P pg = .ok a) :
    IsTopologicalOrder pg.nodes.keys pg.Feeds (evaluationOrder P a) := by
  obtain ⟨-, hres, hac, r, -, rfl⟩ := (build_eq_ok_iff hP pg a).mp hb
  obtain ⟨o, ho, hperm, hfirst⟩ := hP.toposort_ok (graphOf pg) (graphOf_wellFormed pg hres)
    ((acyclic_graphOf_iff pg hres).mpr hac)
  have horder : evaluationOrder P (analysisOf pg r) =
      o.filterMap (fun i => pg.nodes.keys[i]?) := by
    have hidx : (tableOf pg).byIndex = fun i => pg.nodes.keys[i]? :=
      funext (byIndex_tableOf pg)
    simp only [evaluationOrder, analysisOf, ho, hidx]
  rw [horder]
  constructor
  · have h := hperm.filterMap (fun i => pg.nodes.keys[i]?)
    rwa [length_nodes_graphOf, filterMap_getElem?_range] at h
  · intro pre b post hsplit s hs
    obtain ⟨l₁, l₂, rfl, hpre, hl₂⟩ := List.filterMap_eq_append_iff.mp hsplit
    obtain ⟨l₃, j, l₄, rfl, hnone, hj, -⟩ := List.filterMap_eq_cons_iff.mp hl₂
    obtain ⟨i, hi⟩ := List.mem_iff_getElem?.mp (hres s b hs)
    have hedge : (graphOf pg).Edge i j :=
      (edge_graphOf_iff pg hres i j).mpr ⟨s, b, hi, hj, hs⟩
    have hmem := hfirst (l₁ ++ l₃) j l₄ (by simp) i hedge
    rcases List.mem_append.mp hmem with hm | hm
    · rw [← hpre]
      exact List.mem_filterMap.mpr ⟨i, hm, hi⟩
    · have := hnone i hm
      rw [hi] at this
      cases this

theorem mem_keys_of_transGen {pg : ProcessGraph} (hres : pg.RefsResolve)
    {a b : String} (h : TransGen pg.Feeds a b) :
    a ∈ pg.nodes.keys := by
  obtain ⟨c, hac, -⟩ := TransGen.head'_iff.mp h
  exact hres a c hac

/-- The result node is a node of the graph. -/
theorem resultId_mem_keys {P : Petgraph} (hP : P.Correct)
    {pg : ProcessGraph} {a : ProcessGraphAnalysis} (hb : build P pg = .ok a) :
    a.resultId ∈ pg.nodes.keys := by
  obtain ⟨-, -, -, r, hr, rfl⟩ := (build_eq_ok_iff hP pg a).mp hb
  have hmem : r ∈ pg.resultNodes := by simp [hr]
  obtain ⟨node, hnode, -⟩ := (mem_resultNodes_iff pg r).mp hmem
  exact (pg.nodes.mem_keys_iff r).mpr ⟨node, hnode⟩

/-- What the documentation of `evaluation_order` says about a schedule. -/
structure ListsResultDependencies
    (pg : ProcessGraph) (r : String) (order : List String) : Prop where
  mem : ∀ id, id ∈ order ↔ id = r ∨ TransGen pg.Feeds id r
  once : order.Nodup
  after : PredecessorsFirst pg.Feeds order
  last : order.getLast? = some r

/-- **The schedule is the documented one exactly when the result node depends
on every other node of the graph.** -/
theorem evaluationOrder_listsResultDependencies_iff {P : Petgraph} (hP : P.Correct)
    {pg : ProcessGraph} {a : ProcessGraphAnalysis} (hb : build P pg = .ok a) :
    ListsResultDependencies pg a.resultId (evaluationOrder P a) ↔
      ∀ id ∈ pg.nodes.keys, id = a.resultId ∨ TransGen pg.Feeds id a.resultId := by
  have htopo := evaluationOrder_isTopologicalOrder hP hb
  have hrkey := resultId_mem_keys hP hb
  obtain ⟨-, hres, -, r, hr, rfl⟩ := (build_eq_ok_iff hP pg a).mp hb
  constructor
  · intro h id hid
    exact (h.mem id).mp (htopo.perm.mem_iff.mpr hid)
  · intro hall
    have hnd : (evaluationOrder P (analysisOf pg r)).Nodup :=
      htopo.perm.nodup_iff.mpr pg.nodes.keys_nodup
    refine ⟨fun id => ?_, hnd, htopo.first, ?_⟩
    · rw [htopo.perm.mem_iff]
      constructor
      · exact hall id
      · rintro (rfl | h)
        · exact hrkey
        · exact mem_keys_of_transGen hres h
    · exact htopo.first.getLast?_eq_of_forall_transGen hnd (htopo.perm.mem_iff.mpr hrkey)
        (fun x hx => hall x (htopo.perm.mem_iff.mp hx))

theorem evaluationOrder_chainGraph :
    ListsResultDependencies chainGraph "save"
      (evaluationOrder Petgraph.bySources (analysisOf chainGraph "save")) := by
  refine (evaluationOrder_listsResultDependencies_iff Petgraph.bySources_correct
    (a := analysisOf chainGraph "save") rfl).mpr ?_
  intro id hid
  have hfeeds : chainGraph.Feeds "load" "save" :=
    ⟨_, List.mem_cons_of_mem _ List.mem_cons_self, fromNode "load", List.mem_cons_self,
      Counted.link (by decide)⟩
  have hcases : id = "load" ∨ id = "save" := by
    simpa [chainGraph, BTreeMap.keys] using hid
  rcases hcases with rfl | rfl
  · exact Or.inr (TransGen.single hfeeds)
  · exact Or.inl rfl

/-- A result node and a node it does not use. -/
def deadBranchGraph : ProcessGraph where
  nodes :=
    { entries :=
        [("a", ⟨"load_collection", BTreeMap.empty, some true⟩),
          ("b", ⟨"load_collection", BTreeMap.empty, none⟩)]
      sorted := by decide }

/-- The unused node is scheduled as well. -/
theorem deadBranchGraph_schedules_unused :
    ∃ a, build Petgraph.bySources deadBranchGraph = .ok a ∧
      ¬ ListsResultDependencies deadBranchGraph a.resultId
        (evaluationOrder Petgraph.bySources a) := by
  refine ⟨analysisOf deadBranchGraph "a", rfl, fun h => ?_⟩
  have hb : "b" ∈ evaluationOrder Petgraph.bySources (analysisOf deadBranchGraph "a") := by
    decide
  have hno : ∀ x y, ¬ deadBranchGraph.Feeds x y := by
    rintro x y ⟨node, hnode, v, hv, -⟩
    simp only [deadBranchGraph, List.mem_cons, Prod.mk.injEq, List.not_mem_nil, or_false] at hnode
    rcases hnode with ⟨-, rfl⟩ | ⟨-, rfl⟩ <;>
      simp [BTreeMap.values, BTreeMap.empty] at hv
  rcases (h.mem "b").mp hb with he | hdep
  · exact absurd he (by decide)
  · obtain ⟨c, -, hc⟩ := TransGen.tail'_iff.mp hdep
    exact hno c _ hc

end OrbitOpenEO
