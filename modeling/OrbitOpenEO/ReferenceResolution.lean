import OrbitOpenEO.Executor

/-!
# What the executors do with references

The analyser counts a reference wherever `collect_in_value` finds one; the
executors replace a reference only where `resolve_value` finds one.  The first
part describes the walk over an accepted graph (`Ready`, `walk_eq`): every
reference it needs is in the memo table, so it never fails by itself.

The second part compares the two notions.  `replaceRefs` is what the analyser's
notion asks for.  The executors do that exactly on graphs whose counted
references all stand as plain links (`refsReplaced_iff_plainLinks`).
-/

namespace OrbitOpenEO

open Lib Lib.Program Relation

/-- What `resolve_value` makes of a value when it does not fail. -/
def resolved (memo : Memo) (v : Json) : Json :=
  match resolveLink v memo with
  | .ok w => w
  | .error _ => v

theorem resolveLink_fromNode (s : String) (memo : Memo) :
    resolveLink (fromNode s) memo =
      match memo s with
      | some out => .ok out
      | none => .error (.invalidGraph s!"upstream node `{s}` not yet evaluated") := by
  rfl

/-- Only a plain link is looked up. -/
theorem resolveLink_of_ne_fromNode {v : Json} (h : ∀ s, v ≠ fromNode s) (memo : Memo) :
    resolveLink v memo = .ok v := by
  cases v with
  | obj fs =>
      unfold resolveLink
      dsimp only
      split_ifs with hlen
      · obtain ⟨⟨k, w⟩, rfl⟩ := List.length_eq_one_iff.mp hlen
        cases hl : linkTarget [(k, w)] with
        | none => rfl
        | some s =>
            -- a link with one member is `fromNode s`
            exfalso
            unfold linkTarget at hl
            rw [List.lookup_cons] at hl
            by_cases hk : "from_node" = k
            · subst hk
              cases w <;> simp at hl
              exact h s (by rw [hl]; rfl)
            · have hk' : ("from_node" == k) = false := by simpa using hk
              simp [hk'] at hl
      · rfl
  | _ => rfl

theorem counted_fromNode_iff {s t : String} : Counted (fromNode t) s ↔ s = t := by
  rw [← mem_refs_iff]
  have h : refs (fromNode t) = [t] := rfl
  rw [h, List.mem_singleton]

theorem resolveLink_eq_ok_resolved {v : Json} {memo : Memo}
    (h : ∀ s, Counted v s → (memo s).isSome) :
    resolveLink v memo = .ok (resolved memo v) := by
  have hok : ∃ w, resolveLink v memo = .ok w := by
    by_cases hv : ∃ s, v = fromNode s
    · obtain ⟨s, rfl⟩ := hv
      obtain ⟨out, hout⟩ := Option.isSome_iff_exists.mp (h s (counted_fromNode_iff.mpr rfl))
      exact ⟨out, by rw [resolveLink_fromNode, hout]⟩
    · exact ⟨v, resolveLink_of_ne_fromNode (not_exists.mp hv) memo⟩
  obtain ⟨w, hw⟩ := hok
  simp only [resolved, hw]

/-- The walk stands between the nodes `before`, whose values it has, and the
nodes `rest`, in a topological order of the graph. -/
structure Ready (pg : ProcessGraph) (before rest : List String) (memo : Memo) : Prop where
  topo : IsTopologicalOrder pg.nodes.keys pg.Feeds (before ++ rest)
  memo_isSome : ∀ s, (memo s).isSome ↔ s ∈ before

theorem Ready.start {P : Petgraph} (hP : P.Correct) {pg : ProcessGraph}
    {a : ProcessGraphAnalysis} (hb : build P pg = .ok a) :
    Ready pg [] (evaluationOrder P a) (fun _ => none) where
  topo := evaluationOrder_isTopologicalOrder hP hb
  memo_isSome := by simp

namespace Ready

variable {pg : ProcessGraph} {before rest : List String} {memo : Memo} {n : String}

/-- The next node exists and every node it references has been evaluated. -/
theorem head (h : Ready pg before (n :: rest) memo) :
    ∃ node, pg.nodes.get n = some node ∧
      ∀ v ∈ node.arguments.values, ∀ s, Counted v s → (memo s).isSome := by
  have hkey : n ∈ pg.nodes.keys := h.topo.perm.mem_iff.mp (by simp)
  obtain ⟨node, hnode⟩ := (pg.nodes.mem_keys_iff n).mp hkey
  refine ⟨node, (pg.nodes.get_eq_some_iff n node).mpr hnode, ?_⟩
  intro v hv s hs
  rw [h.memo_isSome]
  exact h.topo.first before n rest rfl s ⟨node, hnode, v, hv, hs⟩

theorem step (h : Ready pg before (n :: rest) memo) (out : Json) :
    Ready pg (before ++ [n]) rest (Function.update memo n (some out)) where
  topo := by simpa using h.topo
  memo_isSome := by
    intro s
    by_cases hs : s = n
    · subst hs
      simp
    · simp [h.memo_isSome, hs]

end Ready

section Walk

variable (missing : String → Option ExecError) {pg : ProcessGraph}
variable {before rest : List String} {memo : Memo} {n : String}

/-- One round of the walk: the arguments are resolved and the node dispatched,
unless its process is missing. -/
theorem walk_eq {node : Process} (hget : pg.nodes.get n = some node)
    (hrefs : ∀ v ∈ node.arguments.values, ∀ s, Counted v s → (memo s).isSome) :
    walk resolveLink missing pg (n :: rest) memo =
      match missing node.processId with
      | some e => .done (.error e)
      | none =>
          .call ⟨n, node.processId, node.arguments.mapValues (resolved memo)⟩ fun
            | .error e => .done (.error e)
            | .ok out =>
                walk resolveLink missing pg rest (Function.update memo n (some out)) := by
  have hargs : node.arguments.tryMap (fun v => resolveLink v memo) =
      .ok (node.arguments.mapValues (resolved memo)) :=
    BTreeMap.tryMap_eq_ok (fun v hv => resolveLink_eq_ok_resolved (hrefs v hv))
  rw [walk.eq_2]
  split
  · rename_i hnone
    cases hget.symm.trans hnone
  · rename_i node' hnode
    cases hget.symm.trans hnode
    split
    · rename_i e herror
      cases hargs.symm.trans herror
    · rename_i args hok
      cases hargs.symm.trans hok
      rfl

/-- What the replies in a list of exchanges add to a memo table. -/
def remember (memo : Memo) : List (Exchange (fun _ : Dispatch => Except ExecError Json)) → Memo
  | [] => memo
  | ⟨d, .ok out⟩ :: tr => remember (Function.update memo d.nodeId (some out)) tr
  | ⟨_, .error _⟩ :: tr => remember memo tr

/-- The exchange `d` is a dispatch of a node of `pg` with its process id, and
its arguments are the node's, changed by `f`. -/
def DispatchedAs (pg : ProcessGraph) (f : Json → Json) (d : Dispatch) : Prop :=
  ∃ node, pg.nodes.get d.nodeId = some node ∧ d.processId = node.processId ∧
    d.args = node.arguments.mapValues f

/-- **A path of the walk**: nodes are dispatched in order with resolved
arguments; it ends well after the last one, and otherwise with the error of the
last dispatch or with that of a missing process. -/
theorem walk_path :
    ∀ {before rest : List String} {memo : Memo}
      {tr : List (Exchange (fun _ : Dispatch => Except ExecError Json))}
      {res : Except ExecError Memo},
      Ready pg before rest memo → Path (walk resolveLink missing pg rest memo) tr res →
        (∀ pre d r post, tr = pre ++ ⟨d, r⟩ :: post →
          DispatchedAs pg (resolved (remember memo pre)) d ∧
            ∀ s, pg.Feeds s d.nodeId → (remember memo pre s).isSome) ∧
        ((res = .ok (remember memo tr) ∧ Ready pg (before ++ rest) [] (remember memo tr) ∧
            tr.map (fun x => x.req.nodeId) = rest) ∨
          ∃ e, res = .error e ∧
            ((∃ d, ⟨d, .error e⟩ ∈ tr) ∨ ∃ n ∈ pg.nodes.entries, missing n.2.processId = some e))
  | before, [], memo, tr, res, hready, hpath => by
      obtain ⟨rfl, rfl⟩ := path_done_iff.mp hpath
      exact ⟨by simp, Or.inl ⟨rfl, by simpa [remember] using hready, rfl⟩⟩
  | before, n :: rest, memo, tr, res, hready, hpath => by
      obtain ⟨node, hget, hrefs⟩ := hready.head
      rw [walk_eq missing hget hrefs] at hpath
      cases hmiss : missing node.processId with
      | some e =>
          rw [hmiss] at hpath
          obtain ⟨rfl, rfl⟩ := path_done_iff.mp hpath
          have hnode := (pg.nodes.get_eq_some_iff n node).mp hget
          exact ⟨by simp, Or.inr ⟨e, rfl, Or.inr ⟨_, hnode, hmiss⟩⟩⟩
      | none =>
          rw [hmiss] at hpath
          obtain ⟨r, tr', rfl, hpath'⟩ := path_call_iff.mp hpath
          -- the first dispatch, whatever it replies
          have hhere : DispatchedAs pg (resolved memo)
              ⟨n, node.processId, node.arguments.mapValues (resolved memo)⟩ ∧
              ∀ s, pg.Feeds s n → (memo s).isSome := by
            refine ⟨⟨node, hget, rfl, rfl⟩, ?_⟩
            rintro s ⟨node', hnode', v, hv, hs⟩
            have he := (pg.nodes.get_eq_some_iff n node').mpr hnode'
            rw [hget, Option.some.injEq] at he
            subst he
            exact hrefs v hv s hs
          cases r with
          | error e =>
              obtain ⟨rfl, rfl⟩ := path_done_iff.mp hpath'
              refine ⟨?_, Or.inr ⟨e, rfl, Or.inl ⟨_, List.mem_cons_self⟩⟩⟩
              intro pre d r post hsplit
              cases pre with
              | nil =>
                  simp only [List.nil_append, List.cons.injEq, Exchange.mk.injEq] at hsplit
                  obtain ⟨⟨rfl, -⟩, -⟩ := hsplit
                  exact hhere
              | cons x pre =>
                  simp at hsplit
          | ok out =>
              obtain ⟨hall, hend⟩ := walk_path (hready.step out) hpath'
              constructor
              · intro pre d r post hsplit
                cases pre with
                | nil =>
                    simp only [List.nil_append, List.cons.injEq, Exchange.mk.injEq] at hsplit
                    obtain ⟨⟨rfl, -⟩, -⟩ := hsplit
                    exact hhere
                | cons x pre =>
                    simp only [List.cons_append, List.cons.injEq] at hsplit
                    obtain ⟨rfl, hsplit⟩ := hsplit
                    exact hall pre d r post hsplit
              · rcases hend with ⟨hres, hready', hids⟩ | ⟨e, hres, herr⟩
                · exact Or.inl ⟨hres, by simpa [remember] using hready', by simp [hids]⟩
                · refine Or.inr ⟨e, hres, herr.imp_left ?_⟩
                  rintro ⟨d, hd⟩
                  exact ⟨d, List.mem_cons_of_mem _ hd⟩

/-- The memo table after a list of exchanges. -/
def computed (tr : List (Exchange (fun _ : Dispatch => Except ExecError Json))) : Memo :=
  remember (fun _ => none) tr

variable {P : Petgraph} {a : ProcessGraphAnalysis}
variable {tr : List (Exchange (fun _ : Dispatch => Except ExecError Json))}

/-- **A path of the evaluation of an accepted graph**, from `build` to the value
of the result node. -/
theorem evaluateResult_path (hP : P.Correct) (hb : build P pg = .ok a)
    {res : Except ExecError (String × Json)}
    (hpath : Path (evaluateResult resolveLink missing P pg) tr res) :
    (∀ pre d r post, tr = pre ++ ⟨d, r⟩ :: post →
      DispatchedAs pg (resolved (computed pre)) d ∧
        ∀ s, pg.Feeds s d.nodeId → (computed pre s).isSome) ∧
    ((∃ out, res = .ok (a.resultId, out) ∧ computed tr a.resultId = some out ∧
        tr.map (fun x => x.req.nodeId) = evaluationOrder P a) ∨
      ∃ e, res = .error e ∧
        ((∃ d, ⟨d, .error e⟩ ∈ tr) ∨ ∃ n ∈ pg.nodes.entries, missing n.2.processId = some e)) := by
  unfold evaluateResult at hpath
  rw [hb] at hpath
  obtain ⟨tr₁, tr₂, mres, rfl, hwalk, hlast⟩ := path_bind_iff.mp hpath
  obtain ⟨hall, hend⟩ := walk_path missing (Ready.start hP hb) hwalk
  rcases hend with ⟨rfl, hready, hids⟩ | ⟨e, rfl, herr⟩
  · have hresult : a.resultId ∈ pg.nodes.keys := resultId_mem_keys hP hb
    have hmem : a.resultId ∈ [] ++ evaluationOrder P a := by
      simpa using hready.topo.perm.mem_iff.mpr hresult
    obtain ⟨out, hout⟩ := Option.isSome_iff_exists.mp ((hready.memo_isSome _).mpr hmem)
    simp only [hout] at hlast
    obtain ⟨rfl, rfl⟩ := path_done_iff.mp hlast
    rw [List.append_nil]
    exact ⟨hall, Or.inl ⟨out, rfl, hout, hids⟩⟩
  · obtain ⟨rfl, rfl⟩ := path_done_iff.mp hlast
    rw [List.append_nil]
    exact ⟨hall, Or.inr ⟨e, rfl, herr⟩⟩

theorem path_localEvaluate_iff {res : Except ExecError Json} :
    Path (LocalExecutor.evaluate P pg) tr res ↔
      ∃ res', Path (evaluateResult resolveLink (fun _ => none) P pg) tr res' ∧
        res = res'.map Prod.snd := by
  unfold LocalExecutor.evaluate LocalExecutor.resolveValue
  exact path_bind_done_iff

theorem path_geoEvaluate_iff {registry : ProcessRegistry}
    {res : Except ExecError (String × Json)} :
    Path (GeoExecutor.evaluate P registry pg) tr res ↔
      ∃ res', Path (evaluateResult resolveLink registry.missing P pg) tr res' ∧
        res = res'.map (fun r =>
          (((pg.nodes.get r.1).map Process.processId).getD "", r.2)) := by
  unfold GeoExecutor.evaluate GeoExecutor.resolveValue
  exact path_bind_done_iff

end Walk

mutual

/-- A value with every counted reference replaced by the value of its node. -/
def replaceRefs (memo : Memo) : Json → Json
  | .obj fs =>
      match linkTarget fs with
      | some s => (memo s).getD (.obj fs)
      | none =>
          if containsKey "process_graph" fs then .obj fs
          else .obj (replaceInFields memo fs)
  | .arr xs => .arr (replaceInItems memo xs)
  | v => v

def replaceInFields (memo : Memo) : List (String × Json) → List (String × Json)
  | [] => []
  | (k, v) :: fs => (k, replaceRefs memo v) :: replaceInFields memo fs

def replaceInItems (memo : Memo) : List Json → List Json
  | [] => []
  | v :: vs => replaceRefs memo v :: replaceInItems memo vs

end

mutual

/-- A value without counted references is left alone. -/
theorem replaceRefs_of_refs_eq_nil (memo : Memo) :
    ∀ {v : Json}, refs v = [] → replaceRefs memo v = v
  | .obj fs, h => by
      unfold refs at h
      unfold replaceRefs
      cases hl : linkTarget fs with
      | some s =>
          simp [hl] at h
      | none =>
          simp only [hl] at h ⊢
          split_ifs at h ⊢
          · rfl
          · rw [replaceInFields_of_refs_eq_nil memo h]
  | .arr xs, h => by
      unfold refs at h
      unfold replaceRefs
      rw [replaceInItems_of_refs_eq_nil memo h]
  | .null, _ => rfl
  | .bool _, _ => rfl
  | .num _, _ => rfl
  | .str _, _ => rfl

theorem replaceInFields_of_refs_eq_nil (memo : Memo) :
    ∀ {fs : List (String × Json)}, refsInFields fs = [] → replaceInFields memo fs = fs
  | [], _ => rfl
  | (k, v) :: fs, h => by
      unfold refsInFields at h
      obtain ⟨hv, hfs⟩ := List.append_eq_nil_iff.mp h
      unfold replaceInFields
      rw [replaceRefs_of_refs_eq_nil memo hv, replaceInFields_of_refs_eq_nil memo hfs]

theorem replaceInItems_of_refs_eq_nil (memo : Memo) :
    ∀ {xs : List Json}, refsInItems xs = [] → replaceInItems memo xs = xs
  | [], _ => rfl
  | v :: vs, h => by
      unfold refsInItems at h
      obtain ⟨hv, hvs⟩ := List.append_eq_nil_iff.mp h
      unfold replaceInItems
      rw [replaceRefs_of_refs_eq_nil memo hv, replaceInItems_of_refs_eq_nil memo hvs]

end

theorem replaceRefs_eq_of_mem_fields {memo : Memo} {k : String} {v : Json} :
    ∀ {fs : List (String × Json)},
      (k, v) ∈ fs → replaceInFields memo fs = fs → replaceRefs memo v = v
  | (k', v') :: fs, hmem, h => by
      simp only [replaceInFields, List.cons.injEq, Prod.mk.injEq, true_and] at h
      rcases List.mem_cons.mp hmem with he | hmem
      · cases he
        exact h.1
      · exact replaceRefs_eq_of_mem_fields hmem h.2

theorem replaceRefs_eq_of_mem_items {memo : Memo} {v : Json} :
    ∀ {xs : List Json}, v ∈ xs → replaceInItems memo xs = xs → replaceRefs memo v = v
  | v' :: vs, hmem, h => by
      simp only [replaceInItems, List.cons.injEq] at h
      rcases List.mem_cons.mp hmem with rfl | hmem
      · exact h.1
      · exact replaceRefs_eq_of_mem_items hmem h.2

/-- A value with a counted reference to a node of value `null` is changed. -/
theorem replaceRefs_ne_of_counted {memo : Memo} {v : Json} {s : String}
    (h : Counted v s) (hs : memo s = some .null) :
    replaceRefs memo v ≠ v := by
  induction h with
  | link hl =>
      simp [replaceRefs, hl, hs]
  | field hl hpg hmem _ ih =>
      intro he
      simp only [replaceRefs, hl, hpg, Bool.false_eq_true, if_false, Json.obj.injEq] at he
      exact ih hs (replaceRefs_eq_of_mem_fields hmem he)
  | item hmem _ ih =>
      intro he
      simp only [replaceRefs, Json.arr.injEq] at he
      exact ih hs (replaceRefs_eq_of_mem_items hmem he)

/-- A plain link, or a value without counted references. -/
def PlainLink (v : Json) : Prop := ∀ s, Counted v s → v = fromNode s

/-- On such values the executors replace what the analyser counts. -/
theorem resolved_eq_replaceRefs {v : Json} (h : PlainLink v) {memo : Memo}
    (hmemo : ∀ s, Counted v s → (memo s).isSome) :
    resolved memo v = replaceRefs memo v := by
  by_cases hv : ∃ s, Counted v s
  · obtain ⟨s, hs⟩ := hv
    obtain ⟨out, hout⟩ := Option.isSome_iff_exists.mp (hmemo s hs)
    rw [h s hs]
    simp only [resolved, resolveLink_fromNode, hout]
    have hl : linkTarget [("from_node", Json.str s)] = some s := rfl
    simp [fromNode, replaceRefs, hl, hout]
  · have hnil : refs v = [] :=
      List.eq_nil_iff_forall_not_mem.mpr (fun s hs => hv ⟨s, mem_refs_iff.mp hs⟩)
    have hne : ∀ s, v ≠ fromNode s := by
      rintro s rfl
      exact hv ⟨s, counted_fromNode_iff.mpr rfl⟩
    rw [replaceRefs_of_refs_eq_nil memo hnil]
    simp only [resolved, resolveLink_of_ne_fromNode hne]

/-- On other values they leave everything as it is. -/
theorem resolved_eq_self_of_not_plainLink {v : Json} (h : ¬ PlainLink v) (memo : Memo) :
    resolved memo v = v := by
  have hne : ∀ s, v ≠ fromNode s := by
    rintro s rfl
    refine h (fun t ht => ?_)
    rw [counted_fromNode_iff.mp ht]
  simp only [resolved, resolveLink_of_ne_fromNode hne]

/-- Every dispatched node gets its arguments with all counted references
replaced by values computed before. -/
def RefsReplaced (pg : ProcessGraph)
    (tr : List (Exchange (fun _ : Dispatch => Except ExecError Json))) : Prop :=
  ∀ pre d r post, tr = pre ++ ⟨d, r⟩ :: post →
    DispatchedAs pg (replaceRefs (computed pre)) d ∧
      ∀ s, pg.Feeds s d.nodeId → (computed pre s).isSome

/-- Every counted reference of the graph is a whole argument of its own. -/
def ProcessGraph.PlainLinks (pg : ProcessGraph) : Prop :=
  ∀ e ∈ pg.nodes.entries, ∀ v ∈ e.2.arguments.values, PlainLink v

/-- Every process of the graph, registered with a handler that returns `null`. -/
def nullRegistry (pg : ProcessGraph) : ProcessRegistry where
  handlers := pg.nodes.entries.map (fun e => (e.2.processId, fun _ => .ok .null))

section Agreement

variable {pg : ProcessGraph} {P : Petgraph} {a : ProcessGraphAnalysis}

theorem mapValues_congr {f g : Json → Json} {m : BTreeMap Json}
    (h : ∀ v ∈ m.values, f v = g v) : m.mapValues f = m.mapValues g := by
  refine BTreeMap.ext (List.map_congr_left (fun e he => ?_))
  rw [h e.2 (List.mem_map_of_mem he)]

theorem eq_of_mapValues_eq {f g : Json → Json} {m : BTreeMap Json}
    (h : m.mapValues f = m.mapValues g) : ∀ v ∈ m.values, f v = g v := by
  intro v hv
  obtain ⟨e, he, rfl⟩ := List.mem_map.mp hv
  have hentries : m.entries.map (fun e => (e.1, f e.2)) = m.entries.map (fun e => (e.1, g e.2)) :=
    congrArg BTreeMap.entries h
  have := List.map_inj_left.mp hentries e he
  simpa using this

theorem refsReplaced_of_plainLinks (hplain : pg.PlainLinks)
    {tr : List (Exchange (fun _ : Dispatch => Except ExecError Json))}
    (h : ∀ pre d r post, tr = pre ++ ⟨d, r⟩ :: post →
      DispatchedAs pg (resolved (computed pre)) d ∧
        ∀ s, pg.Feeds s d.nodeId → (computed pre s).isSome) :
    RefsReplaced pg tr := by
  intro pre d r post hsplit
  obtain ⟨⟨node, hget, hpid, hargs⟩, hfeeds⟩ := h pre d r post hsplit
  refine ⟨⟨node, hget, hpid, ?_⟩, hfeeds⟩
  have hnode := (pg.nodes.get_eq_some_iff d.nodeId node).mp hget
  rw [hargs]
  refine mapValues_congr (fun v hv => ?_)
  exact resolved_eq_replaceRefs (hplain _ hnode v hv)
    (fun s hs => hfeeds s ⟨node, hnode, v, hv, hs⟩)

theorem nullRegistry_missing {e : String × Process} (he : e ∈ pg.nodes.entries) :
    (nullRegistry pg).missing e.2.processId = none := by
  have hsome : ((nullRegistry pg).get e.2.processId).isSome := by
    unfold ProcessRegistry.get nullRegistry
    rw [List.lookup_isSome_iff]
    exact ⟨_, List.mem_map_of_mem he, by simp⟩
  obtain ⟨handler, hget⟩ := Option.isSome_iff_exists.mp hsome
  simp only [ProcessRegistry.missing, hget]

/-- With `null` for every reply the memo table holds nothing else. -/
theorem computed_eq_null
    {tr : List (Exchange (fun _ : Dispatch => Except ExecError Json))}
    (h : ∀ x ∈ tr, x.reply = .ok .null) {s : String} (hs : (computed tr s).isSome) :
    computed tr s = some .null := by
  have hgen : ∀ (tr : List (Exchange (fun _ : Dispatch => Except ExecError Json))) (memo : Memo),
      (∀ x ∈ tr, x.reply = .ok .null) → (∀ t, (memo t).isSome → memo t = some .null) →
        ∀ t, (remember memo tr t).isSome → remember memo tr t = some .null := by
    intro tr
    induction tr with
    | nil =>
        intro memo _ hmemo
        exact hmemo
    | cons x tr ih =>
        intro memo hx hmemo
        obtain ⟨d, r⟩ := x
        have hr : r = .ok .null := hx ⟨d, r⟩ List.mem_cons_self
        subst hr
        refine ih _ (fun y hy => hx y (List.mem_cons_of_mem _ hy)) (fun t ht => ?_)
        by_cases htd : t = d.nodeId
        · simp [htd]
        · rw [Function.update_of_ne htd] at ht ⊢
          exact hmemo t ht
  exact hgen tr (fun _ => none) h (by simp) s hs

/-- **For every accepted graph: whatever the processes return, both executors
hand every node its arguments with all counted references replaced, if and only
if every counted reference is a plain link.** -/
theorem refsReplaced_iff_plainLinks (hP : P.Correct) (hb : build P pg = .ok a) :
    ((∀ tr res, Path (LocalExecutor.evaluate P pg) tr res → RefsReplaced pg tr) ∧
      ∀ registry tr res,
        Path (GeoExecutor.evaluate P registry pg) tr res → RefsReplaced pg tr) ↔
      pg.PlainLinks := by
  constructor
  · rintro ⟨-, hgeo⟩ ⟨n, node⟩ hnode v hv
    by_contra hplain
    -- run the graph with all its processes registered and `null` for every reply
    have hpath := path_answer (fun _ => .ok .null) (GeoExecutor.evaluate P (nullRegistry pg) pg)
    have hnull : ∀ x ∈ (GeoExecutor.evaluate P (nullRegistry pg) pg).transcript
        (fun _ => .ok .null), x.reply = .ok .null :=
      fun x hx => reply_eq_of_mem_transcript _ hx
    have hreplaced := hgeo _ _ _ hpath
    revert hpath hnull hreplaced
    generalize (GeoExecutor.evaluate P (nullRegistry pg) pg).transcript _ = tr
    intro hpath hnull hreplaced
    obtain ⟨res', hpath', -⟩ := path_geoEvaluate_iff.mp hpath
    obtain ⟨hall, hend⟩ := evaluateResult_path _ hP hb hpath'
    have hids : tr.map (fun x => x.req.nodeId) = evaluationOrder P a := by
      rcases hend with ⟨out, -, -, hids⟩ | ⟨e, -, ⟨d, hd⟩ | ⟨m, hm, hmiss⟩⟩
      · exact hids
      · exact absurd (hnull _ hd) (by simp)
      · rw [nullRegistry_missing hm] at hmiss
        cases hmiss
    -- so the node is dispatched
    have hn : n ∈ tr.map (fun x => x.req.nodeId) := by
      rw [hids, (evaluationOrder_isTopologicalOrder hP hb).perm.mem_iff]
      exact (pg.nodes.mem_keys_iff n).mpr ⟨node, hnode⟩
    obtain ⟨⟨d, r⟩, hx, rfl⟩ := List.mem_map.mp hn
    obtain ⟨pre, post, hsplit⟩ := List.append_of_mem hx
    obtain ⟨⟨node₁, hget₁, -, hargs₁⟩, hfeeds⟩ := hreplaced pre d r post hsplit
    obtain ⟨⟨node₂, hget₂, -, hargs₂⟩, -⟩ := hall pre d r post hsplit
    have hget := (pg.nodes.get_eq_some_iff d.nodeId node).mpr hnode
    rw [hget, Option.some.injEq] at hget₁ hget₂
    subst hget₁ hget₂
    have hsame := eq_of_mapValues_eq (hargs₁.symm.trans hargs₂) v hv
    rw [resolved_eq_self_of_not_plainLink hplain] at hsame
    obtain ⟨s, hs, -⟩ : ∃ s, Counted v s ∧ ¬ v = fromNode s := by
      simpa [PlainLink] using hplain
    have hpre : ∀ x ∈ pre, x.reply = .ok .null := by
      intro x hx
      exact hnull x (by rw [hsplit]; exact List.mem_append_left _ hx)
    exact replaceRefs_ne_of_counted hs
      (computed_eq_null hpre (hfeeds s ⟨node, hnode, v, hv, hs⟩)) hsame
  · intro hplain
    constructor
    · intro tr res hpath
      obtain ⟨res', hpath', -⟩ := path_localEvaluate_iff.mp hpath
      exact refsReplaced_of_plainLinks hplain (evaluateResult_path _ hP hb hpath').1
    · intro registry tr res hpath
      obtain ⟨res', hpath', -⟩ := path_geoEvaluate_iff.mp hpath
      exact refsReplaced_of_plainLinks hplain (evaluateResult_path _ hP hb hpath').1

theorem refsReplaced_chainGraph :
    (∃ a, build Petgraph.bySources chainGraph = .ok a) ∧
      ∀ tr res, Path (LocalExecutor.evaluate Petgraph.bySources chainGraph) tr res →
        RefsReplaced chainGraph tr := by
  refine ⟨⟨analysisOf chainGraph "save", rfl⟩,
    ((refsReplaced_iff_plainLinks Petgraph.bySources_correct
      (a := analysisOf chainGraph "save") rfl).mpr ?_).1⟩
  intro e he v hv s hs
  simp only [chainGraph, List.mem_cons, List.not_mem_nil, or_false] at he
  rcases he with rfl | rfl
  · simp [BTreeMap.values, BTreeMap.empty] at hv
  · have hv' : v = fromNode "load" := by simpa [BTreeMap.values] using hv
    rw [hv'] at hs ⊢
    rw [counted_fromNode_iff.mp hs]

/-- `save` saves a list with the value of `load` in it. -/
def nestedGraph : ProcessGraph where
  nodes :=
    { entries :=
        [("load", ⟨"load_collection", BTreeMap.empty, none⟩),
          ("save", ⟨"save_result", ⟨[("data", .arr [fromNode "load"])], by decide⟩, some true⟩)]
      sorted := by decide }

/-- The analyser counts the reference inside the list as an edge, and the
executor hands the list to `save_result` as it is. -/
theorem nestedGraph_keeps_reference :
    (∃ a, build Petgraph.bySources nestedGraph = .ok a) ∧ nestedGraph.Feeds "load" "save" ∧
      ∃ tr res, Path (LocalExecutor.evaluate Petgraph.bySources nestedGraph) tr res ∧
        (∃ x ∈ tr, x.req.nodeId = "save" ∧
          x.req.args.get "data" = some (.arr [fromNode "load"])) ∧
        ¬ RefsReplaced nestedGraph tr := by
  refine ⟨⟨_, rfl⟩, ?_, ?_⟩
  · exact ⟨_, List.mem_cons_of_mem _ List.mem_cons_self, _, List.mem_cons_self,
      Counted.item List.mem_cons_self (Counted.link (by decide))⟩
  · refine ⟨_, _, path_answer (LocalExecutor.process FloatOps.exact ⟨none⟩)
      (LocalExecutor.evaluate Petgraph.bySources nestedGraph),
      ⟨_, List.mem_cons_of_mem _ List.mem_cons_self, rfl, rfl⟩, fun h => ?_⟩
    obtain ⟨⟨node, hget, -, hargs⟩, -⟩ := h [_] _ _ [] rfl
    have hnode : node.arguments.get "data" = some (.arr [fromNode "load"]) := by
      rw [Option.some.inj hget.symm]
      rfl
    have hdata := congrArg (fun m => m.get "data") hargs
    simp only [BTreeMap.get_mapValues, hnode] at hdata
    -- the list in the arguments would have to hold the value of `load`
    have hlist : Json.arr [fromNode "load"] =
        .arr [.obj [("type", .str "DataCube"), ("collection", .null)]] :=
      Option.some.inj hdata
    simp [fromNode] at hlist

end Agreement

end OrbitOpenEO
