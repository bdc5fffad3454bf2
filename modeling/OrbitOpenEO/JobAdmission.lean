import OrbitOpenEO.ProcessIds
import OrbitOpenEO.ReadProvenance
import OrbitOpenEO.ScalarHandlers

/-!
# What a job is admitted with

`create_job` reads the graph of the request, builds its analysis and looks up its processes;
what it stores of the request is the member `process`.  The job's executor, here `GeoExecutor`,
reads that member once more when the job runs.

An admitted graph does not go wrong: the executor reads the graph that was checked, it knows the
process of every node and resolves every reference, so that a run ends with an error only if a
handler has reported one (`admitted_graph_runs`).  Three spellings escape the checks: a node that
is written as an array, a node with the name `process_graph`, and a `process` inside `process`.
-/

namespace OrbitOpenEO

open Lib Lib.Program GeoExecutor

/-- A `BTreeMap<String, Value>` from a value. -/
def argumentsFromValue : Json → Option (BTreeMap Json)
  | .obj fs => some (BTreeMap.ofEntries fs)
  | _ => none

/-- An `Option<bool>` from a value. -/
def resultFromValue : Json → Option (Option Bool)
  | .null => some none
  | .bool b => some (some b)
  | _ => none

/-- `Process` from a value.  The derived code takes the fields by name, with defaults for the
arguments and the mark, or from an array in their order. -/
def Process.fromValue : Json → Option Process
  | .obj fs => do
      let processId ← (fs.lookup "process_id").bind Json.asStr
      let arguments ← ((fs.lookup "arguments").map argumentsFromValue).getD (some BTreeMap.empty)
      let result ← ((fs.lookup "result").map resultFromValue).getD (some none)
      some ⟨processId, arguments, result⟩
  | .arr [processId] => do
      some ⟨← processId.asStr, BTreeMap.empty, none⟩
  | .arr [processId, arguments] => do
      some ⟨← processId.asStr, ← argumentsFromValue arguments, none⟩
  | .arr [processId, arguments, result] => do
      some ⟨← processId.asStr, ← argumentsFromValue arguments, ← resultFromValue result⟩
  | _ => none

/-- A `BTreeMap<String, Process>` from a value. -/
def nodesFromValue : Json → Option (BTreeMap Process)
  | .obj nodes =>
      (nodes.mapM fun e => (Process.fromValue e.2).map (Prod.mk e.1)).map BTreeMap.ofEntries
  | _ => none

section Admission

variable (P : Petgraph) (serdeText : Json → String)

/-- `parse_graph` of both executors; `serdeText` is the text of what the reader reports. -/
def parseGraph (body : Json) : Except ExecError ProcessGraph :=
  match ((body.get "process").bind fun p => p.get "process_graph").or
      (body.get "process_graph") with
  | none => .error (.invalidGraph "missing process.process_graph")
  | some pgVal =>
      match nodesFromValue pgVal with
      | none => .error (.invalidGraph (serdeText pgVal))
      | some nodes =>
          if nodes.entries = [] then .error (.invalidGraph "process_graph is empty")
          else .ok ⟨nodes⟩

/-- `run_sync` of the executor, up to what the handlers reply. -/
def GeoExecutor.runBody (ops : FloatOps) (registry : ProcessRegistry) (body : Json) :
    Evaluation (Except ExecError Rendering) :=
  match parseGraph serdeText body with
  | .error e => .done (.error e)
  | .ok graph => GeoExecutor.runSync ops P registry graph

/-- The ids of `SPECS`. -/
def specIds : List String :=
  ["load_collection", "save_result", "reduce_dimension", "apply", "mask", "merge_cubes", "ndvi",
    "filter_temporal", "filter_spatial", "filter_bbox", "filter_bands", "rename_labels",
    "add_dimension", "drop_dimension", "resample_spatial", "aggregate_spatial",
    "mask_scl_dilation", "mask_from_values", "aggregate_spatial_polygon",
    "aggregate_spatial_point", "zonal_histogram", "fit_classifier", "predict_classifier", "add",
    "subtract", "multiply", "divide", "absolute", "sqrt", "power", "exp", "ln", "log", "sgn",
    "floor", "ceil", "int", "round", "mod", "clip", "normalized_difference", "cos", "sin", "tan",
    "arccos", "arcsin", "arctan", "arctan2", "eq", "neq", "gt", "gte", "lt", "lte", "between",
    "and", "or", "xor", "not", "array_element", "array_create", "array_concat", "array_append",
    "array_contains", "array_find", "count", "order", "sort"]

/-- `process_ids`. -/
def processIds : List String := (specIds.mergeSort fun a b => decide (a ≤ b)).dedup

/-- What is stored of a request. -/
structure NewJob where
  title : Option String
  description : Option String
  process : Json

/-- The body of an answer that refuses a request. -/
structure Refusal where
  code : String
  message : String
deriving DecidableEq

/-- `create_job`, up to the store. -/
def createJob (body : Json) : Except Refusal NewJob :=
  let title := (body.get "title").bind Json.asStr
  let description := (body.get "description").bind Json.asStr
  let processInner := (body.get "process").getD
    (.obj [("process_graph", (body.get "process_graph").getD .null)])
  match (body.get "process").bind fun p => p.get "process_graph" with
  | none => .error ⟨"ProcessGraphMissing", "request body must contain process.process_graph"⟩
  | some pgVal =>
      match nodesFromValue pgVal with
      | none => .error ⟨"ProcessGraphInvalid", serdeText pgVal⟩
      | some nodes =>
          match build P ⟨nodes⟩ with
          | .error e => .error ⟨"ProcessGraphInvalid", e.toText⟩
          | .ok _ =>
              let unsupported := unsupportedProcessIds body processIds
              if unsupported = [] then .ok ⟨title, description, processInner⟩
              else .error ⟨"ProcessUnsupported",
                "unsupported process(es): " ++ ", ".intercalate unsupported⟩

theorem mem_of_mapM_eq_some {α β : Type} {f : α → Option β} {y : β} :
    ∀ {xs : List α} {ys : List β}, xs.mapM f = some ys → y ∈ ys → ∃ x ∈ xs, f x = some y
  | [], ys, h, hy => by
      cases h
      cases hy
  | x :: xs, ys, h, hy => by
      rw [List.mapM_cons] at h
      obtain ⟨y', hx, h⟩ := Option.bind_eq_some_iff.mp h
      obtain ⟨ys', hxs, h⟩ := Option.bind_eq_some_iff.mp h
      cases h
      rcases List.mem_cons.mp hy with rfl | hy
      · exact ⟨x, List.mem_cons_self, hx⟩
      · obtain ⟨x', hx', hf⟩ := mem_of_mapM_eq_some hxs hy
        exact ⟨x', List.mem_cons_of_mem x hx', hf⟩

theorem processIdOf_eq (fs : List (String × Json)) :
    processIdOf fs = (fs.lookup "process_id").bind Json.asStr := by
  unfold processIdOf
  cases fs.lookup "process_id" with
  | none => rfl
  | some v => cases v <;> rfl

/-- A node that is read from an object has the process that the object names. -/
theorem processIdOf_of_fromValue {fs : List (String × Json)} {node : Process}
    (h : Process.fromValue (.obj fs) = some node) : processIdOf fs = some node.processId := by
  obtain ⟨processId, hid, h⟩ := Option.bind_eq_some_iff.mp h
  obtain ⟨arguments, -, h⟩ := Option.bind_eq_some_iff.mp h
  obtain ⟨result, -, h⟩ := Option.bind_eq_some_iff.mp h
  cases h
  rw [processIdOf_eq, hid]

/-- The nodes that are read are written in the object. -/
theorem mem_of_nodesFromValue {nodes : List (String × Json)} {m : BTreeMap Process}
    (h : nodesFromValue (.obj nodes) = some m) {e : String × Process} (he : e ∈ m.entries) :
    ∃ v, (e.1, v) ∈ nodes ∧ Process.fromValue v = some e.2 := by
  obtain ⟨entries, hentries, rfl⟩ := Option.map_eq_some_iff.mp h
  have hget := (BTreeMap.get_eq_some_iff _ e.1 e.2).mpr he
  rw [BTreeMap.get_ofEntries] at hget
  have hmem := List.mem_reverse.mp (mem_of_lookup_eq_some hget)
  obtain ⟨x, hx, hread⟩ := mem_of_mapM_eq_some hentries hmem
  obtain ⟨node, hnode, heq⟩ := Option.map_eq_some_iff.mp hread
  obtain ⟨hname, hvalue⟩ := Prod.mk.inj heq
  exact ⟨x.2, hname ▸ hx, hvalue ▸ hnode⟩

/-- The names that `register_defaults` registers. -/
def registeredNames : List String :=
  cubeProcesses ++ ["add", "subtract", "multiply", "divide"] ++ scalarAndArrayProcesses

theorem get_defaultRegistry_isSome (ops : FloatOps) (handlerOf : String → ProcessHandler)
    {name : String} (h : name ∈ registeredNames) :
    ((defaultRegistry ops handlerOf).get name).isSome = true := by
  obtain ⟨hadd, hsub, hmul, hdiv⟩ := get_defaultRegistry ops handlerOf
  by_cases hscalar : name ∈ scalarAndArrayProcesses
  · unfold defaultRegistry registerDefaults
    rw [get_registerAll_of_mem handlerOf hscalar]
    rfl
  rcases List.mem_append.mp h with h | h
  · rcases List.mem_append.mp h with hcube | harith
    · by_cases harith : name ∈ ["add", "subtract", "multiply", "divide"]
      · simp only [List.mem_cons, List.not_mem_nil, or_false] at harith
        rcases harith with rfl | rfl | rfl | rfl
        · rw [hadd]; rfl
        · rw [hsub]; rfl
        · rw [hmul]; rfl
        · rw [hdiv]; rfl
      · simp only [List.mem_cons, List.not_mem_nil, or_false, not_or] at harith
        obtain ⟨hadd, hsub, hmul, hdiv⟩ := harith
        unfold defaultRegistry registerDefaults
        rw [get_registerAll_of_not_mem handlerOf hscalar,
          ProcessRegistry.get_register_of_ne _ hdiv, ProcessRegistry.get_register_of_ne _ hmul,
          ProcessRegistry.get_register_of_ne _ hsub, ProcessRegistry.get_register_of_ne _ hadd,
          get_registerAll_of_mem handlerOf hcube]
        rfl
    · simp only [List.mem_cons, List.not_mem_nil, or_false] at harith
      rcases harith with rfl | rfl | rfl | rfl
      · rw [hadd]; rfl
      · rw [hsub]; rfl
      · rw [hmul]; rfl
      · rw [hdiv]; rfl
  · exact absurd h hscalar

/-- The catalogue lists what is registered. -/
theorem registered_of_mem_specIds : (specIds.all fun id => registeredNames.contains id) = true := by
  decide

theorem mem_processIds_iff {id : String} : id ∈ processIds ↔ id ∈ specIds := by
  rw [processIds, List.mem_dedup, List.mem_mergeSort]

theorem mem_registeredNames {id : String} (h : id ∈ processIds) : id ∈ registeredNames :=
  List.contains_iff_mem.mp
    (List.all_eq_true.mp registered_of_mem_specIds id (mem_processIds_iff.mp h))

theorem missing_eq_none {registry : ProcessRegistry} {name : String}
    (h : (registry.get name).isSome = true) : registry.missing name = none := by
  obtain ⟨handler, hget⟩ := Option.isSome_iff_exists.mp h
  rw [ProcessRegistry.missing, hget]

variable {P serdeText}

/-- What the checks of `create_job` have found. -/
theorem createJob_eq_ok {body : Json} {job : NewJob} (h : createJob P serdeText body = .ok job) :
    ∃ graph nodes a, job.process.get "process_graph" = some graph ∧ submittedGraph body = graph ∧
      nodesFromValue graph = some nodes ∧ build P ⟨nodes⟩ = .ok a ∧
        unsupportedProcessIds body processIds = [] := by
  cases hprocess : body.get "process" with
  | none =>
      simp [createJob, hprocess] at h
  | some process =>
      cases hgraph : process.get "process_graph" with
      | none => simp [createJob, hprocess, hgraph] at h
      | some graph =>
          cases hnodes : nodesFromValue graph with
          | none => simp [createJob, hprocess, hgraph, hnodes] at h
          | some nodes =>
              cases hbuild : build P ⟨nodes⟩ with
              | error e => simp [createJob, hprocess, hgraph, hnodes, hbuild] at h
              | ok a =>
                  by_cases hknown : unsupportedProcessIds body processIds = []
                  · simp only [createJob, hprocess, hgraph, hnodes, hbuild, hknown,
                      Option.bind_some, Option.getD_some, if_true] at h
                    cases h
                    refine ⟨graph, nodes, a, hgraph, ?_, hnodes, hbuild, hknown⟩
                    simp [submittedGraph, hprocess, hgraph]
                  · simp [createJob, hprocess, hgraph, hnodes, hbuild, hknown] at h

/-- A graph without nodes has no result. -/
theorem entries_ne_nil_of_build (hP : P.Correct) {nodes : BTreeMap Process}
    {a : ProcessGraphAnalysis} (h : build P ⟨nodes⟩ = .ok a) : nodes.entries ≠ [] := by
  obtain ⟨-, -, -, r, hr, -⟩ := (build_eq_ok_iff hP _ a).mp h
  intro hnil
  simp [ProcessGraph.resultNodes, hnil] at hr

/-- Every node of the graph is written as an object. -/
def ObjectNodes (body : Json) : Prop :=
  ∀ nodes, submittedGraph body = .obj nodes → ∀ e ∈ nodes, ∃ fs, e.2 = .obj fs

/-- The processes of an admitted graph are registered. -/
theorem missing_of_admitted {body : Json} {nodes : BTreeMap Process}
    (hread : nodesFromValue (submittedGraph body) = some nodes)
    (hknown : unsupportedProcessIds body processIds = []) (hobjects : ObjectNodes body)
    (hcallback : ¬ GraphLooksLikeCallback body) (ops : FloatOps)
    (handlerOf : String → ProcessHandler) {e : String × Process} (he : e ∈ nodes.entries) :
    (defaultRegistry ops handlerOf).missing e.2.processId = none := by
  obtain ⟨fields, hfields⟩ : ∃ fields, submittedGraph body = .obj fields := by
    cases hgraph : submittedGraph body with
    | obj fields => exact ⟨fields, rfl⟩
    | _ =>
        rw [hgraph] at hread
        cases hread
  rw [hfields] at hread
  obtain ⟨v, hmem, hnode⟩ := mem_of_nodesFromValue hread he
  obtain ⟨fs, hfs⟩ := hobjects fields hfields _ hmem
  subst hfs
  have htop : TopLevelProcessId body e.2.processId :=
    ⟨fields, e.1, fs, hfields, hmem, processIdOf_of_fromValue hnode⟩
  have hid : e.2.processId ∈ processIds := by
    by_contra hnew
    have hlisted := mem_unsupportedProcessIds_iff.mpr ⟨found_of_topLevel htop hcallback, hnew⟩
    rw [hknown] at hlisted
    cases hlisted
  exact missing_eq_none (get_defaultRegistry_isSome ops handlerOf (mem_registeredNames hid))

/-- **An admitted graph does not go wrong** in `GeoExecutor`. -/
theorem admitted_graph_runs (hP : P.Correct) {body : Json} {job : NewJob}
    (hcreated : createJob P serdeText body = .ok job) (hobjects : ObjectNodes body)
    (hcallback : ¬ GraphLooksLikeCallback body)
    (hnested : ((job.process.get "process").bind fun p => p.get "process_graph") = none) :
    ∃ nodes a, nodesFromValue (submittedGraph body) = some nodes ∧ build P ⟨nodes⟩ = .ok a ∧
      parseGraph serdeText job.process = .ok ⟨nodes⟩ ∧
      ∀ ops handlerOf tr res,
        Path (GeoExecutor.runBody P serdeText ops (defaultRegistry ops handlerOf) job.process)
          tr res →
        (∀ pre d r post, tr = pre ++ ⟨d, r⟩ :: post →
          DispatchedAs ⟨nodes⟩ (resolved (computed pre)) d) ∧
        (((∃ out, res = .ok out) ∧ tr.map (fun x => x.req.nodeId) = evaluationOrder P a) ∨
          ∃ d e, ⟨d, .error e⟩ ∈ tr ∧ res = .error e) := by
  obtain ⟨graph, nodes, a, hgraph, hsubmitted, hread, hbuild, hknown⟩ := createJob_eq_ok hcreated
  have hparse : parseGraph serdeText job.process = .ok ⟨nodes⟩ := by
    unfold parseGraph
    rw [hnested, hgraph]
    simp only [Option.none_or, hread, if_neg (entries_ne_nil_of_build hP hbuild)]
  rw [← hsubmitted] at hread
  refine ⟨nodes, a, hread, hbuild, hparse, fun ops handlerOf tr res hpath => ?_⟩
  unfold GeoExecutor.runBody at hpath
  rw [hparse] at hpath
  obtain ⟨r, hevaluate, rfl⟩ := path_bind_done_iff.mp hpath
  obtain ⟨r', hresult, rfl⟩ := path_geoEvaluate_iff.mp hevaluate
  obtain ⟨hdispatched, hend⟩ := evaluateResult_path _ hP hbuild hresult
  refine ⟨fun pre d r post htr => (hdispatched pre d r post htr).1, ?_⟩
  rcases hend with ⟨out, rfl, -, hids⟩ | ⟨e, rfl, ⟨d, hd⟩ | ⟨node, hnode, hmissing⟩⟩
  · exact .inl ⟨⟨_, rfl⟩, hids⟩
  · exact .inr ⟨d, e, hd, rfl⟩
  · rw [missing_of_admitted hread hknown hobjects hcallback ops handlerOf hnode] at hmissing
    cases hmissing

end Admission

/-- A request for the sum of two numbers. -/
def sumRequest : Json :=
  .obj [("process", .obj [("process_graph", .obj
    [("sum", .obj [("process_id", .str "add"), ("result", .bool true),
      ("arguments", .obj [("x", .num (.posInt 1)), ("y", .num (.posInt 2))])])])]),
    ("title", .str "sum")]

/-- What is stored of it. -/
def sumJob : NewJob :=
  ⟨some "sum", none, (sumRequest.get "process").getD .null⟩

theorem createJob_sumRequest :
    createJob Petgraph.bySources (fun _ => "") sumRequest = .ok sumJob := by
  have hids : (collectProcessIds sumRequest).keys = ["add"] := rfl
  have hadd : "add" ∈ processIds := mem_processIds_iff.mpr (by decide)
  have hknown : unsupportedProcessIds sumRequest processIds = [] := by
    rw [unsupportedProcessIds, hids]
    simp [hadd]
  have hchecked : createJob Petgraph.bySources (fun _ => "") sumRequest =
      if unsupportedProcessIds sumRequest processIds = [] then .ok sumJob
      else .error ⟨"ProcessUnsupported", "unsupported process(es): " ++
        ", ".intercalate (unsupportedProcessIds sumRequest processIds)⟩ := rfl
  rw [hchecked, if_pos hknown]

theorem objectNodes_sumRequest : ObjectNodes sumRequest := by
  rintro nodes ⟨⟩ e he
  rw [List.mem_singleton.mp he]
  exact ⟨_, rfl⟩

theorem not_callback_sumRequest : ¬ GraphLooksLikeCallback sumRequest := by
  rintro ⟨nodes, ⟨⟩, hcallback⟩
  cases hcallback

theorem admitted_graph_runs_sum :
    ∃ nodes, parseGraph (fun _ => "") sumJob.process = .ok ⟨nodes⟩ ∧
      ∀ ops handlerOf tr res, Path (GeoExecutor.runBody Petgraph.bySources (fun _ => "") ops
        (defaultRegistry ops handlerOf) sumJob.process) tr res →
          (∃ out, res = .ok out) ∨ ∃ d e, ⟨d, .error e⟩ ∈ tr ∧ res = .error e := by
  obtain ⟨nodes, a, -, -, hparse, hruns⟩ := admitted_graph_runs Petgraph.bySources_correct
    createJob_sumRequest objectNodes_sumRequest not_callback_sumRequest rfl
  exact ⟨nodes, hparse, fun ops handlerOf tr res hpath =>
    (hruns ops handlerOf tr res hpath).2.imp_left And.left⟩

end OrbitOpenEO
