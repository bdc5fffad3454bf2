import OrbitOpenEO.HandlePaths
import OrbitOpenEO.ReferenceResolution
import OrbitOpenEO.Lib.Provenance

/-!
# Where the paths of opened files come from

The executor looks at a handle only when it opens the file, and a handle that a client
writes into its graph looks like any other.  A file that is opened because of an argument
is named by a literal of the graph, or has been returned by an evaluation that was not
given its path: nothing else gets into the arguments.
-/

namespace OrbitOpenEO

open Lib Lib.Program Handles

/-- `OutputFormat`. -/
inductive OutputFormat where
  | gtiff
  | cog
  | json
  | png
  | netCdf
deriving DecidableEq

/-- `OutputFormat::parse`. -/
def OutputFormat.parse (s : String) : OutputFormat :=
  match String.ofList (s.toList.map Char.toUpper) with
  | "GTIFF" => .gtiff
  | "TIFF" => .gtiff
  | "GEOTIFF" => .gtiff
  | "COG" => .cog
  | "CLOUD_OPTIMIZED_GEOTIFF" => .cog
  | "JSON" => .json
  | "PNG" => .png
  | "NETCDF" => .netCdf
  | "NC" => .netCdf
  | _ => .gtiff

/-- `OutputFormat::media_type`. -/
def OutputFormat.mediaType : OutputFormat → String
  | .gtiff => "image/tiff"
  | .cog => "image/tiff"
  | .netCdf => "image/tiff"
  | .json => "application/json"
  | .png => "image/png"

/-- What the body of a result is made of. -/
inductive Rendering where
  | json (data : Json)
  | file (format : OutputFormat) (path : PathBuf)
  | pngOf (path : PathBuf)
  | tiffPixel (format : OutputFormat) (pixel : F64)
  | pngPixel (pixel : F64)

/-- The file that is read for a result. -/
def Rendering.opened : Rendering → Option PathBuf
  | .file _ path => some path
  | .pngOf path => some path
  | _ => none

/-- The bytes of files and of encoded values. -/
structure Renderer where
  read : PathBuf → Except String Bytes
  rasterToPng : PathBuf → Except ExecError Bytes
  tiff1x1 : F64 → Except ExecError Bytes
  png1x1 : F64 → Except ExecError Bytes
  jsonBytes : Json → Bytes

/-- The result that is made of a rendering. -/
def Rendering.render (R : Renderer) : Rendering → Except ExecError SyncResult
  | .json data => .ok ⟨"application/json", R.jsonBytes data⟩
  | .file format path =>
      match R.read path with
      | .ok bytes => .ok ⟨format.mediaType, bytes⟩
      | .error e => .error (.backend s!"save_result: read {path}: {e}")
  | .pngOf path => (R.rasterToPng path).map fun bytes => ⟨"image/png", bytes⟩
  | .tiffPixel format pixel => (R.tiff1x1 pixel).map fun bytes => ⟨format.mediaType, bytes⟩
  | .pngPixel pixel => (R.png1x1 pixel).map fun bytes => ⟨"image/png", bytes⟩

/-- `Value::is_number`. -/
def Json.isNumber : Json → Bool
  | .num _ => true
  | _ => false

/-- The data and the format of a value that reaches `save_result`. -/
def savedData (value : Json) : Json × OutputFormat :=
  match value.get "__save_result" with
  | some env =>
      ((env.get "data").getD .null,
        OutputFormat.parse (((env.get "format").bind Json.asStr).getD "GTiff"))
  | none =>
      (value,
        if (value.get "__raster").isSome then .gtiff
        else if value.isNumber then .gtiff
        else .json)

/-- `finalise_save_result`, up to the reading of the file. -/
def finaliseSaveResult (ops : FloatOps) (value : Json) : Rendering :=
  let (data, format) := savedData value
  let pixel := (data.asF64 ops).getD (.finite 0)
  match format with
  | .json => .json data
  | .png =>
      match extractSavePath data with
      | some path => .pngOf path
      | none => .pngPixel pixel
  | format =>
      match extractSavePath data with
      | some path => .file format path
      | none => .tiffPixel format pixel

/-- `SaveResultHandler`. -/
def saveResultHandler : ProcessHandler := fun args =>
  let format := ((args.get "format").bind Json.asStr).getD ""
  let data := (args.get "data").getD .null
  if format.isEmpty then .ok data
  else .ok (.obj [("__save_result", .obj [("data", data), ("format", .str format)])])

/-- `run_sync` on a parsed graph, up to what the handlers reply. -/
def GeoExecutor.runSync (ops : FloatOps) (P : Petgraph) (registry : ProcessRegistry)
    (graph : ProcessGraph) : Evaluation (Except ExecError Rendering) := do
  let result ← GeoExecutor.evaluate P registry graph
  .done (result.map fun r =>
    if r.1 = "save_result" then finaliseSaveResult ops r.2 else .json r.2)

/-- A file read for a result is a string of the value. -/
theorem mem_texts_of_finaliseSaveResult {ops : FloatOps} {value : Json} {p : PathBuf}
    (h : (finaliseSaveResult ops value).opened = some p) : p ∈ texts value := by
  have hdata : p ∈ texts (savedData value).1 := by
    unfold finaliseSaveResult at h
    dsimp only at h
    split at h
    · cases h
    · split at h
      · rename_i hpath
        cases h
        exact mem_texts_of_extractSavePath hpath
      · cases h
    · split at h
      · rename_i hpath
        cases h
        exact mem_texts_of_extractSavePath hpath
      · cases h
  unfold savedData at hdata
  cases henv : value.get "__save_result" with
  | none =>
      rw [henv] at hdata
      exact hdata
  | some env =>
      rw [henv] at hdata
      dsimp only at hdata
      cases hget : env.get "data" with
      | none =>
          rw [hget] at hdata
          cases hdata
      | some data =>
          rw [hget] at hdata
          exact mem_texts_of_get henv (mem_texts_of_get hget hdata)

/-- `save_result` returns no string but those of its arguments. -/
theorem carried_of_saveResultHandler {args : BTreeMap Json} {out : Json} {s : String}
    (h : saveResultHandler args = .ok out) (hs : s ∈ texts out) : Carried args s := by
  have hdata (hs : s ∈ texts ((args.get "data").getD .null)) : Carried args s := by
    cases hget : args.get "data" with
    | none =>
        rw [hget] at hs
        cases hs
    | some data =>
        rw [hget] at hs
        exact carried_of_get hget hs
  unfold saveResultHandler at h
  dsimp only at h
  split_ifs at h with hempty
  · cases h
    exact hdata hs
  · cases h
    simp only [texts, textsInFields, List.append_nil, List.mem_append, List.mem_singleton] at hs
    rcases hs with hs | rfl
    · exact hdata hs
    · cases hget : (args.get "format").bind Json.asStr with
      | none =>
          rw [hget] at hempty
          exact absurd rfl hempty
      | some format =>
          obtain ⟨v, hv, hstr⟩ := Option.bind_eq_some_iff.mp hget
          exact carried_of_get hv (mem_texts_of_asStr hstr)

/-- A node evaluation takes the strings of its arguments and gives those of its value; its
constants are the strings of the arguments the client has written out. -/
def stringFlow (graph : ProcessGraph) :
    Flow (Exchange (fun _ : Dispatch => Except ExecError Json)) String where
  taken x s := Carried x.req.args s
  given x s := ∃ out, x.reply = .ok out ∧ s ∈ texts out
  constant x s := ∃ node, graph.nodes.get x.req.nodeId = some node ∧
    ∃ v ∈ node.arguments.values, (∀ t, v ≠ fromNode t) ∧ s ∈ texts v

section Run

variable {ops : FloatOps} {P : Petgraph} {registry : ProcessRegistry} {graph : ProcessGraph}
  {tr : List (Exchange (fun _ : Dispatch => Except ExecError Json))}

theorem mem_of_remember {n : String} {out : Json} :
    ∀ {tr : List (Exchange (fun _ : Dispatch => Except ExecError Json))} {memo : Memo},
      remember memo tr n = some out → memo n = some out ∨ ∃ y ∈ tr, y.reply = .ok out
  | [], memo, h => Or.inl h
  | ⟨d, .ok reply⟩ :: tr, memo, h => by
      have hrest : remember (Function.update memo d.nodeId (some reply)) tr n = some out := h
      rcases mem_of_remember hrest with h | ⟨y, hy, hreply⟩
      · by_cases hn : n = d.nodeId
        · subst hn
          rw [Function.update_self] at h
          cases h
          exact Or.inr ⟨_, List.mem_cons_self, rfl⟩
        · rw [Function.update_of_ne hn] at h
          exact Or.inl h
      · exact Or.inr ⟨y, List.mem_cons_of_mem _ hy, hreply⟩
  | ⟨d, .error e⟩ :: tr, memo, h => by
      have hrest : remember memo tr n = some out := h
      refine (mem_of_remember hrest).imp_right ?_
      rintro ⟨y, hy, hreply⟩
      exact ⟨y, List.mem_cons_of_mem _ hy, hreply⟩

theorem mem_of_computed {n : String} {out : Json} (h : computed tr n = some out) :
    ∃ y ∈ tr, y.reply = .ok out := by
  rcases mem_of_remember h with h | h
  · cases h
  · exact h

/-- In every run a node is given what earlier nodes have returned and literals. -/
theorem closed_of_path (hP : P.Correct) {missing : String → Option ExecError}
    {res : Except ExecError (String × Json)}
    (hpath : Path (evaluateResult resolveLink missing P graph) tr res) :
    (stringFlow graph).Closed tr := by
  cases hb : build P graph with
  | error e =>
      unfold evaluateResult at hpath
      rw [hb] at hpath
      obtain ⟨rfl, -⟩ := path_done_iff.mp hpath
      intro past x rest hsplit
      simp at hsplit
  | ok a =>
      rintro past ⟨d, r⟩ rest hsplit s ⟨v, hv, hs⟩
      obtain ⟨⟨node, hnode, -, hargs⟩, hfeeds⟩ :=
        (evaluateResult_path _ hP hb hpath).1 past d r rest hsplit
      rw [hargs] at hv
      obtain ⟨e, hentry, rfl⟩ := List.mem_map.mp hv
      obtain ⟨⟨k, w⟩, hw, he⟩ := List.mem_map.mp hentry
      cases he
      have hmem : w ∈ node.arguments.values := List.mem_map.mpr ⟨(k, w), hw, rfl⟩
      by_cases hlink : ∃ t, w = fromNode t
      · -- a link stands for what an earlier node has returned
        obtain ⟨t, rfl⟩ := hlink
        have hfed : graph.Feeds t d.nodeId :=
          ⟨node, (graph.nodes.get_eq_some_iff _ _).mp hnode, fromNode t, hmem,
            counted_fromNode_iff.mpr rfl⟩
        obtain ⟨out, hout⟩ := Option.isSome_iff_exists.mp (hfeeds t hfed)
        obtain ⟨y, hy, hreply⟩ := mem_of_computed hout
        dsimp only at hs
        rw [resolved, resolveLink_fromNode, hout] at hs
        exact Or.inr ⟨y, hy, out, hreply, hs⟩
      · have hne := not_exists.mp hlink
        dsimp only at hs
        rw [resolved, resolveLink_of_ne_fromNode hne] at hs
        exact Or.inl ⟨node, hnode, w, hmem, hne, hs⟩

/-- The value that is rendered has been returned by a node. -/
theorem mem_texts_of_rendering (hP : P.Correct) {rendering : Rendering} {p : PathBuf}
    (hpath : Path (GeoExecutor.runSync ops P registry graph) tr (.ok rendering))
    (hp : rendering.opened = some p) :
    (stringFlow graph).Closed tr ∧ ∃ y ∈ tr, (stringFlow graph).given y p := by
  unfold GeoExecutor.runSync at hpath
  obtain ⟨tr₁, tr₂, res₁, rfl, hgeo, hlast⟩ := path_bind_iff.mp hpath
  obtain ⟨rfl, hres⟩ := path_done_iff.mp hlast
  obtain ⟨res₂, heval, rfl⟩ := path_geoEvaluate_iff.mp hgeo
  rw [List.append_nil]
  refine ⟨closed_of_path hP heval, ?_⟩
  cases hb : build P graph with
  | error e =>
      unfold evaluateResult at heval
      rw [hb] at heval
      obtain ⟨-, rfl⟩ := path_done_iff.mp heval
      cases hres
  | ok a =>
      rcases (evaluateResult_path _ hP hb heval).2 with ⟨out, rfl, hout, -⟩ | ⟨e, rfl, -⟩
      · obtain ⟨y, hy, hreply⟩ := mem_of_computed hout
        refine ⟨y, hy, out, hreply, ?_⟩
        dsimp only [Except.map] at hres
        split_ifs at hres
        · cases hres
          exact mem_texts_of_finaliseSaveResult hp
        · cases hres
          cases hp
      · cases hres

/-- **A file that is opened because of an argument is named by a literal of the graph, or
an earlier evaluation has returned its path without having been given it.** -/
theorem opened_origin (hP : P.Correct) (errs : CubeEnvelope.SerdeErrors)
    {res : Except ExecError Rendering}
    (hpath : Path (GeoExecutor.runSync ops P registry graph) tr res) :
    (∀ past x rest, tr = past ++ x :: rest →
      ∀ p ∈ openedFiles errs ops x.req.args x.req.processId,
        (∃ y ∈ past, (stringFlow graph).Makes y p) ∨
          ∃ y ∈ past ++ [x], (stringFlow graph).constant y p) ∧
    (∀ rendering p, res = .ok rendering → rendering.opened = some p →
      (∃ y ∈ tr, (stringFlow graph).Makes y p ∧ y.reply ≠ saveResultHandler y.req.args) ∨
        ∃ y ∈ tr, (stringFlow graph).constant y p) := by
  constructor
  · rintro past x rest rfl p hp
    unfold GeoExecutor.runSync at hpath
    obtain ⟨tr₁, tr₂, res₁, hsplit, hgeo, hlast⟩ := path_bind_iff.mp hpath
    obtain ⟨rfl, -⟩ := path_done_iff.mp hlast
    obtain ⟨res₂, heval, -⟩ := path_geoEvaluate_iff.mp hgeo
    rw [List.append_nil] at hsplit
    have hclosed := closed_of_path hP heval
    rw [← hsplit] at hclosed
    exact hclosed.origin_of_taken (carried_of_openedFiles hp)
  · rintro rendering p rfl hp
    obtain ⟨hclosed, y, hy, hgiven⟩ := mem_texts_of_rendering hP hpath hp
    refine (hclosed.origin_of_given hy hgiven).imp_left ?_
    rintro ⟨z, hz, hmakes⟩
    refine ⟨z, hz, hmakes, ?_⟩
    intro hreply
    obtain ⟨⟨out, hout, hs⟩, htaken⟩ := hmakes
    rw [hreply] at hout
    exact htaken (carried_of_saveResultHandler hout hs)

end Run

/-- A graph that saves a file of its own choice. -/
def handleGraph : ProcessGraph where
  nodes :=
    { entries :=
        [("save", ⟨"save_result",
          ⟨[("data", .obj [("__raster", .obj [("path", .str "/etc/passwd")])]),
            ("format", .str "GTiff")], by decide⟩, some true⟩)]
      sorted := by decide }

/-- A graph that counts the values of a file of its own choice. -/
def stringGraph : ProcessGraph where
  nodes :=
    { entries :=
        [("count", ⟨"zonal_histogram",
          ⟨[("data", .str "/etc/passwd"), ("mask", .str "/etc/passwd")], by decide⟩, some true⟩)]
      sorted := by decide }

/-- `save_result` with its handler, and any handler for `zonal_histogram`. -/
def sampleRegistry (histogram : ProcessHandler) : ProcessRegistry :=
  (ProcessRegistry.empty.register "save_result" saveResultHandler).register "zonal_histogram"
    histogram

theorem answer_handleGraph :
    (GeoExecutor.runSync FloatOps.exact Petgraph.bySources
      (sampleRegistry saveResultHandler) handleGraph).answer
      (GeoExecutor.handle (sampleRegistry saveResultHandler)) =
        .ok (.file .gtiff "/etc/passwd") := rfl

/-- The file the literal of `handleGraph` names is read for its result. -/
theorem opened_origin_handleGraph :
    ∃ tr, Path (GeoExecutor.runSync FloatOps.exact Petgraph.bySources
        (sampleRegistry saveResultHandler) handleGraph) tr
        (.ok (.file .gtiff "/etc/passwd")) ∧
      ((∃ y ∈ tr, (stringFlow handleGraph).Makes y "/etc/passwd" ∧
          y.reply ≠ saveResultHandler y.req.args) ∨
        ∃ y ∈ tr, (stringFlow handleGraph).constant y "/etc/passwd") := by
  have hpath := path_answer (GeoExecutor.handle (sampleRegistry saveResultHandler))
    (GeoExecutor.runSync FloatOps.exact Petgraph.bySources
      (sampleRegistry saveResultHandler) handleGraph)
  rw [answer_handleGraph] at hpath
  exact ⟨_, hpath, (opened_origin Petgraph.bySources_correct CubeEnvelope.SerdeErrors.plain
    hpath).2 _ _ rfl rfl⟩

/-- Files are opened that no evaluation has returned: the first evaluation of a graph opens
the file its argument names, and a graph with no node but `save_result` returns the
content of the file its literal names. -/
theorem literal_paths_opened :
    (∃ x, (GeoExecutor.runSync FloatOps.exact Petgraph.bySources
          (sampleRegistry (fun _ => .ok .null)) stringGraph).transcript
          (GeoExecutor.handle (sampleRegistry (fun _ => .ok .null))) = [x] ∧
        "/etc/passwd" ∈ openedFiles CubeEnvelope.SerdeErrors.plain FloatOps.exact x.req.args
          x.req.processId) ∧
      (∃ x, (GeoExecutor.runSync FloatOps.exact Petgraph.bySources
          (sampleRegistry saveResultHandler) handleGraph).transcript
          (GeoExecutor.handle (sampleRegistry saveResultHandler)) = [x] ∧
        x.req.processId = "save_result") ∧
      ∀ (R : Renderer) (bytes : Bytes), R.read "/etc/passwd" = .ok bytes →
        ((GeoExecutor.runSync FloatOps.exact Petgraph.bySources
          (sampleRegistry saveResultHandler) handleGraph).answer
          (GeoExecutor.handle (sampleRegistry saveResultHandler))).bind (Rendering.render R) =
            .ok ⟨"image/tiff", bytes⟩ := by
  refine ⟨⟨_, rfl, List.mem_cons_self⟩, ⟨_, rfl, rfl⟩, ?_⟩
  intro R bytes hread
  rw [answer_handleGraph]
  simp only [Except.bind, Rendering.render, hread, OutputFormat.mediaType]

end OrbitOpenEO
