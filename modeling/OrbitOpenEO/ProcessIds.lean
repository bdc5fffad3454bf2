import OrbitOpenEO.MapUpdate
import OrbitOpenEO.ReferenceWalk

/-!
# The check of process names at submission

`unsupported_process_ids` lists the process names of a submitted graph that the
server does not know.  `collect_process_ids` looks for them by a walk that is
told apart from the graph's own structure only by key names: every object it
meets may be a graph, a node or part of an argument, an object with a string
`process_id` is taken for a node, and an object with a member `process_graph`
is taken for a callback and not entered.

`Entered` describes the places of a document that the walk comes to.  The list
is right exactly when it comes to all nodes of the graph and when the names it
finds at other places do not matter.
-/

namespace OrbitOpenEO

/-- `Value::get` with a key. -/
def Json.get (v : Json) (k : String) : Option Json :=
  match v with
  | .obj fs => fs.lookup k
  | _ => none

/-- The string under `process_id`. -/
def processIdOf (fs : List (String × Json)) : Option String :=
  match fs.lookup "process_id" with
  | some (.str pid) => some pid
  | _ => none

namespace CollectProcessIds

mutual

/-- `walk` of `collect_process_ids`. -/
def walk : Json → Nat → BTreeSet → BTreeSet
  | .obj fs, depth, out =>
      if MAX_SUBGRAPH_DEPTH < depth then out
      else
        let out :=
          match processIdOf fs with
          | some pid => out.insert pid ()
          | none => out
        if containsKey "process_graph" fs then out
        else walkValues fs (depth + 1) out
  | .arr xs, depth, out =>
      if MAX_SUBGRAPH_DEPTH < depth then out
      else walkItems xs (depth + 1) out
  | _, _, out => out

/-- The loop over the values of an object. -/
def walkValues : List (String × Json) → Nat → BTreeSet → BTreeSet
  | [], _, out => out
  | (_, v) :: fs, depth, out => walkValues fs depth (walk v depth out)

/-- The loop over the items of an array. -/
def walkItems : List Json → Nat → BTreeSet → BTreeSet
  | [], _, out => out
  | v :: xs, depth, out => walkItems xs depth (walk v depth out)

end

end CollectProcessIds

/-- The graph of a request body: under `process`, under `process_graph`, or the
body itself. -/
def submittedGraph (body : Json) : Json :=
  (((body.get "process").bind (fun p => p.get "process_graph")).or
    (body.get "process_graph")).getD body

/-- `collect_process_ids`. -/
def collectProcessIds (body : Json) : BTreeSet :=
  CollectProcessIds.walk (submittedGraph body) 0 BTreeMap.empty

/-- `unsupported_process_ids`. -/
def unsupportedProcessIds (body : Json) (known : List String) : List String :=
  (collectProcessIds body).keys.filter (fun id => !known.contains id)

/-- `Entered v n w`: the value `w` lies `n` levels below `v`, and no object on
the way down to it has a member `process_graph`. -/
inductive Entered : Json → Nat → Json → Prop
  | here {v : Json} : Entered v 0 v
  | member {fs : List (String × Json)} {k : String} {v w : Json} {n : Nat} :
      containsKey "process_graph" fs = false → (k, v) ∈ fs → Entered v n w →
        Entered (.obj fs) (n + 1) w
  | item {xs : List Json} {v w : Json} {n : Nat} :
      v ∈ xs → Entered v n w → Entered (.arr xs) (n + 1) w

/-- The names found from `v` on by a walk that may go `budget` levels down. -/
def Found (v : Json) (budget : Nat) (id : String) : Prop :=
  ∃ n fs, n ≤ budget ∧ Entered v n (.obj fs) ∧ processIdOf fs = some id

theorem found_obj_iff {fs : List (String × Json)} {budget : Nat} {id : String} :
    Found (.obj fs) budget id ↔
      processIdOf fs = some id ∨
        (containsKey "process_graph" fs = false ∧
          ∃ b, budget = b + 1 ∧ ∃ v ∈ fs.map Prod.snd, Found v b id) := by
  constructor
  · rintro ⟨n, gs, hn, hgs, hid⟩
    cases hgs with
    | here =>
        exact Or.inl hid
    | member hpg hmem hv =>
        rename_i k v m
        obtain ⟨b, rfl⟩ : ∃ b, budget = b + 1 := ⟨budget - 1, by omega⟩
        exact Or.inr ⟨hpg, b, rfl, v, List.mem_map_of_mem hmem, m, gs, by omega, hv, hid⟩
  · rintro (hid | ⟨hpg, b, rfl, v, hmem, n, gs, hn, hgs, hid⟩)
    · exact ⟨0, fs, Nat.zero_le _, .here, hid⟩
    · obtain ⟨e, he, rfl⟩ := List.mem_map.mp hmem
      exact ⟨n + 1, gs, by omega, .member hpg he hgs, hid⟩

theorem found_arr_iff {xs : List Json} {budget : Nat} {id : String} :
    Found (.arr xs) budget id ↔ ∃ b, budget = b + 1 ∧ ∃ v ∈ xs, Found v b id := by
  constructor
  · rintro ⟨n, gs, hn, hgs, hid⟩
    cases hgs with
    | item hmem hv =>
        rename_i v m
        obtain ⟨b, rfl⟩ : ∃ b, budget = b + 1 := ⟨budget - 1, by omega⟩
        exact ⟨b, rfl, v, hmem, m, gs, by omega, hv, hid⟩
  · rintro ⟨b, rfl, v, hmem, n, gs, hn, hgs, hid⟩
    exact ⟨n + 1, gs, by omega, .item hmem hgs, hid⟩

/-- A value that is neither an object nor an array has no object below it. -/
theorem not_found_of_scalar {v : Json} (hobj : ∀ fs, v ≠ .obj fs) (harr : ∀ xs, v ≠ .arr xs)
    {budget : Nat} {id : String} : ¬ Found v budget id := by
  rintro ⟨n, fs, _, h, _⟩
  cases h with
  | here =>
      exact hobj fs rfl
  | member =>
      exact hobj _ rfl
  | item =>
      exact harr _ rfl

namespace CollectProcessIds

/-- What the walk adds to `out` when it starts at a given depth. -/
def Adds (v : Json) (depth : Nat) (id : String) : Prop :=
  depth ≤ MAX_SUBGRAPH_DEPTH ∧ Found v (MAX_SUBGRAPH_DEPTH - depth) id

/-- The values one level down, in terms of the budget left there. -/
theorem exists_adds_succ_iff {depth : Nat} (hdepth : depth ≤ MAX_SUBGRAPH_DEPTH)
    {id : String} {vs : List Json} :
    (∃ v ∈ vs, Adds v (depth + 1) id) ↔
      ∃ b, MAX_SUBGRAPH_DEPTH - depth = b + 1 ∧ ∃ v ∈ vs, Found v b id := by
  constructor
  · rintro ⟨v, hmem, hle, hv⟩
    exact ⟨MAX_SUBGRAPH_DEPTH - (depth + 1), by omega, v, hmem, hv⟩
  · rintro ⟨b, hb, v, hmem, hv⟩
    refine ⟨v, hmem, by omega, ?_⟩
    have hb' : MAX_SUBGRAPH_DEPTH - (depth + 1) = b := by omega
    rw [hb']
    exact hv

mutual

/-- **The walk adds the names at the places it comes to.** -/
theorem mem_walk_iff (id : String) :
    ∀ (v : Json) (depth : Nat) (out : BTreeSet),
      id ∈ (walk v depth out).keys ↔ id ∈ out.keys ∨ Adds v depth id
  | .obj fs, depth, out => by
      rw [walk]
      by_cases hdepth : MAX_SUBGRAPH_DEPTH < depth
      · have hno : ¬ Adds (.obj fs) depth id := fun h => absurd h.1 (by omega)
        simp [hdepth, hno]
      · have hdepth' : depth ≤ MAX_SUBGRAPH_DEPTH := by omega
        rw [if_neg hdepth]
        have hhere : ∀ out' : BTreeSet,
            (match processIdOf fs with
              | some pid => out.insert pid ()
              | none => out) = out' →
            (id ∈ out'.keys ↔ id ∈ out.keys ∨ processIdOf fs = some id) := by
          rintro out' rfl
          cases processIdOf fs with
          | none =>
              simp
          | some pid =>
              rw [BTreeSet.mem_insert, Option.some.injEq, eq_comm, or_comm]
        have hadds : Adds (.obj fs) depth id ↔
            processIdOf fs = some id ∨
              (containsKey "process_graph" fs = false ∧
                ∃ v ∈ fs.map Prod.snd, Adds v (depth + 1) id) := by
          rw [exists_adds_succ_iff hdepth', Adds, and_iff_right hdepth', found_obj_iff]
        rw [hadds]
        by_cases hpg : containsKey "process_graph" fs = true
        · simp only [hpg, if_true, Bool.true_eq_false, false_and, or_false]
          exact hhere _ rfl
        · have hpg' : containsKey "process_graph" fs = false := by simpa using hpg
          simp only [hpg', Bool.false_eq_true, if_false, true_and]
          rw [mem_walkValues_iff, hhere _ rfl, or_assoc]
  | .arr xs, depth, out => by
      rw [walk]
      by_cases hdepth : MAX_SUBGRAPH_DEPTH < depth
      · have hno : ¬ Adds (.arr xs) depth id := fun h => absurd h.1 (by omega)
        simp [hdepth, hno]
      · have hdepth' : depth ≤ MAX_SUBGRAPH_DEPTH := by omega
        rw [if_neg hdepth, mem_walkItems_iff, exists_adds_succ_iff hdepth', Adds,
          and_iff_right hdepth', found_arr_iff]
  | .null, _, _ => by
      simp [walk, Adds, not_found_of_scalar]
  | .bool _, _, _ => by
      simp [walk, Adds, not_found_of_scalar]
  | .num _, _, _ => by
      simp [walk, Adds, not_found_of_scalar]
  | .str _, _, _ => by
      simp [walk, Adds, not_found_of_scalar]

theorem mem_walkValues_iff (id : String) :
    ∀ (fs : List (String × Json)) (depth : Nat) (out : BTreeSet),
      id ∈ (walkValues fs depth out).keys ↔
        id ∈ out.keys ∨ ∃ v ∈ fs.map Prod.snd, Adds v depth id
  | [], _, _ => by simp [walkValues]
  | (k, v) :: fs, depth, out => by
      rw [walkValues, mem_walkValues_iff id fs, mem_walk_iff id v, or_assoc]
      simp

theorem mem_walkItems_iff (id : String) :
    ∀ (xs : List Json) (depth : Nat) (out : BTreeSet),
      id ∈ (walkItems xs depth out).keys ↔ id ∈ out.keys ∨ ∃ v ∈ xs, Adds v depth id
  | [], _, _ => by simp [walkItems]
  | v :: xs, depth, out => by
      rw [walkItems, mem_walkItems_iff id xs, mem_walk_iff id v, or_assoc]
      simp

end

end CollectProcessIds

/-- The collected names are those at the places the walk comes to. -/
theorem mem_collectProcessIds_iff {body : Json} {id : String} :
    id ∈ (collectProcessIds body).keys ↔
      Found (submittedGraph body) MAX_SUBGRAPH_DEPTH id := by
  rw [collectProcessIds, CollectProcessIds.mem_walk_iff]
  simp [CollectProcessIds.Adds, BTreeMap.empty, BTreeMap.keys]

theorem mem_unsupportedProcessIds_iff {body : Json} {known : List String} {id : String} :
    id ∈ unsupportedProcessIds body known ↔
      Found (submittedGraph body) MAX_SUBGRAPH_DEPTH id ∧ id ∉ known := by
  simp [unsupportedProcessIds, mem_collectProcessIds_iff]

/-- The list is in increasing order, as a `BTreeSet` is iterated. -/
theorem unsupportedProcessIds_sorted (body : Json) (known : List String) :
    (unsupportedProcessIds body known).Pairwise (· < ·) :=
  (List.pairwise_map.mpr (collectProcessIds body).sorted).filter _

/-- `id` is the process name of a node of the submitted graph. -/
def TopLevelProcessId (body : Json) (id : String) : Prop :=
  ∃ nodes name fs, submittedGraph body = .obj nodes ∧ (name, .obj fs) ∈ nodes ∧
    processIdOf fs = some id

/-- The list names every unknown process of the graph's nodes, each once, and
nothing else. -/
def ListsUnknownProcesses (body : Json) (known : List String) : Prop :=
  (unsupportedProcessIds body known).Nodup ∧
    ∀ id, id ∈ unsupportedProcessIds body known ↔ TopLevelProcessId body id ∧ id ∉ known

/-- The graph as a whole looks like a callback: a node of it is named
`process_graph`. -/
def GraphLooksLikeCallback (body : Json) : Prop :=
  ∃ nodes, submittedGraph body = .obj nodes ∧ containsKey "process_graph" nodes = true

/-- The graph as a whole looks like a node: its member `process_id` is a string. -/
def GraphLooksLikeNode (body : Json) (id : String) : Prop :=
  ∃ nodes, submittedGraph body = .obj nodes ∧ processIdOf nodes = some id

/-- `id` is a string under `process_id` at a place the walk comes to and that is
no node of the graph: the graph itself, an item of an array given in its place,
or an object inside a node, literal argument values included. -/
def StrayProcessId (body : Json) (id : String) : Prop :=
  ∃ n fs, n ≤ MAX_SUBGRAPH_DEPTH ∧ Entered (submittedGraph body) n (.obj fs) ∧
    processIdOf fs = some id ∧ ¬ (n = 1 ∧ ∃ nodes, submittedGraph body = .obj nodes)

theorem topLevel_or_stray_of_found {body : Json} {id : String}
    (h : Found (submittedGraph body) MAX_SUBGRAPH_DEPTH id) :
    TopLevelProcessId body id ∨ StrayProcessId body id := by
  obtain ⟨n, fs, hn, hfs, hid⟩ := h
  by_cases hpos : n = 1 ∧ ∃ nodes, submittedGraph body = .obj nodes
  · obtain ⟨rfl, nodes, hnodes⟩ := hpos
    rw [hnodes] at hfs
    cases hfs with
    | member _ hmem hv =>
        cases hv with
        | here =>
            exact Or.inl ⟨nodes, _, fs, hnodes, hmem, hid⟩
  · exact Or.inr ⟨n, fs, hn, hfs, hid, hpos⟩

theorem found_of_stray {body : Json} {id : String} (h : StrayProcessId body id) :
    Found (submittedGraph body) MAX_SUBGRAPH_DEPTH id := by
  obtain ⟨n, fs, hn, hfs, hid, _⟩ := h
  exact ⟨n, fs, hn, hfs, hid⟩

/-- A node is missed only when the graph looks like a callback. -/
theorem found_of_topLevel {body : Json} {id : String} (h : TopLevelProcessId body id)
    (hcb : ¬ GraphLooksLikeCallback body) :
    Found (submittedGraph body) MAX_SUBGRAPH_DEPTH id := by
  obtain ⟨nodes, name, fs, hnodes, hmem, hid⟩ := h
  have hpg : containsKey "process_graph" nodes = false := by
    simpa using fun hpg => hcb ⟨nodes, hnodes, hpg⟩
  refine ⟨1, fs, by decide, ?_, hid⟩
  rw [hnodes]
  exact .member hpg hmem .here

/-- Of a graph that looks like a callback only its own name is found. -/
theorem found_of_callback_iff {body : Json} {id : String} (hcb : GraphLooksLikeCallback body) :
    Found (submittedGraph body) MAX_SUBGRAPH_DEPTH id ↔ GraphLooksLikeNode body id := by
  obtain ⟨nodes, hnodes, hpg⟩ := hcb
  rw [GraphLooksLikeNode, hnodes, found_obj_iff]
  simp [hpg]

/-- **When the submit-time check is exact.**  A node named `process_graph` hides
the whole graph from it, and a string `process_id` anywhere else than in a node
is reported like one. -/
theorem listsUnknownProcesses_iff (body : Json) (known : List String) :
    ListsUnknownProcesses body known ↔
      (GraphLooksLikeCallback body →
        ∀ id, TopLevelProcessId body id → id ∈ known ∨ GraphLooksLikeNode body id) ∧
      (∀ id, StrayProcessId body id → id ∈ known ∨ TopLevelProcessId body id) := by
  have hnodup : (unsupportedProcessIds body known).Nodup :=
    (unsupportedProcessIds_sorted body known).imp (fun h => ne_of_lt h)
  rw [ListsUnknownProcesses, and_iff_right hnodup]
  simp only [mem_unsupportedProcessIds_iff]
  constructor
  · intro h
    refine ⟨?_, ?_⟩
    · intro hcb id htop
      by_cases hid : id ∈ known
      · exact Or.inl hid
      · exact Or.inr ((found_of_callback_iff hcb).mp ((h id).mpr ⟨htop, hid⟩).1)
    · intro id hstray
      by_cases hid : id ∈ known
      · exact Or.inl hid
      · exact Or.inr ((h id).mp ⟨found_of_stray hstray, hid⟩).1
  · rintro ⟨hcallback, hstray⟩ id
    constructor
    · rintro ⟨hfound, hid⟩
      refine ⟨?_, hid⟩
      rcases topLevel_or_stray_of_found hfound with h | h
      · exact h
      · exact (hstray id h).resolve_left hid
    · rintro ⟨htop, hid⟩
      refine ⟨?_, hid⟩
      by_cases hcb : GraphLooksLikeCallback body
      · exact (found_of_callback_iff hcb).mpr ((hcallback hcb id htop).resolve_left hid)
      · exact found_of_topLevel htop hcb

/-- A job whose only node is named `process_graph`. -/
def callbackNamedBody : Json :=
  .obj [("process", .obj [("process_graph", .obj
    [("process_graph", .obj
      [("process_id", .str "frobnicate"), ("arguments", .obj []), ("result", .bool true)])])])]

/-- Its unknown process is not reported. -/
theorem callbackNamedBody_not_listed : ¬ ListsUnknownProcesses callbackNamedBody ["add"] := by
  intro h
  have htop : TopLevelProcessId callbackNamedBody "frobnicate" :=
    ⟨_, _, _, rfl, List.mem_singleton_self _, rfl⟩
  have hmem := (h.2 "frobnicate").mpr ⟨htop, by decide⟩
  have hnil : unsupportedProcessIds callbackNamedBody ["add"] = [] := rfl
  rw [hnil] at hmem
  exact List.not_mem_nil hmem

end OrbitOpenEO
