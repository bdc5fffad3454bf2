import OrbitOpenEO.PlainRecursion
import OrbitOpenEO.RasterOps
import OrbitOpenEO.Lib.SameQuestions

/-!
# The trial run of `apply`

`eval_apply` evaluates a callback at zero before it opens a file.  The form of the callback is
the same at every pixel value (`Fits`), but a process may stop for the values that its operands
have there.  The trial run says what holds at every pixel exactly if the stops of the kernel do
not get in its way (`TrialSafe`).
-/

namespace OrbitOpenEO

open Lib Lib.Asking Relation ApplyKernel

section Arguments

variable (P : Platform) (x x' : F64)

mutual

theorem argQuestions_same : ∀ v : Json,
    SameQuestions SameShape (argQuestions P x v) (argQuestions P x' v)
  | .num n => by
      rw [argQuestions, argQuestions]
      exact .done trivial
  | .obj fs => by
      rw [argQuestions, argQuestions]
      split
      · exact .done trivial
      · split
        · exact .ask fun _ _ => .done trivial
        · exact .fail
  | .arr xs => by
      rw [argQuestions, argQuestions]
      exact (itemQuestions_same xs).bind fun _ _ hlength => .done hlength
  | .null => by
      rw [argQuestions, argQuestions]
      exact .fail
  | .bool b => by
      rw [argQuestions, argQuestions]
      · exact .fail
      all_goals simp
  | .str s => by
      rw [argQuestions, argQuestions]
      · exact .fail
      all_goals simp

theorem itemQuestions_same : ∀ xs : List Json,
    SameQuestions (fun ns ns' : List F64 => ns.length = ns'.length)
      (itemQuestions P x xs) (itemQuestions P x' xs)
  | [] => by
      rw [itemQuestions, itemQuestions]
      exact .done rfl
  | v :: vs => by
      rw [itemQuestions, itemQuestions]
      refine (argQuestions_same v).bind fun r r' hshape => ?_
      cases r with
      | num n =>
          cases r' with
          | num n' =>
              exact (itemQuestions_same vs).bind fun _ _ hlength =>
                .done (congrArg Nat.succ hlength)
          | arr _ =>
              cases hshape
      | arr _ =>
          cases r' with
          | num _ =>
              cases hshape
          | arr _ =>
              exact .fail

end

theorem alike_insert {m m' : BTreeMap ArgVal} (h : Alike m m') (k : String) {v v' : ArgVal}
    (hshape : SameShape v v') : Alike (m.insert k v) (m'.insert k v') := by
  intro k'
  rw [BTreeMap.get_insert, BTreeMap.get_insert]
  split_ifs
  · exact .some hshape
  · exact h k'

theorem argsQuestions_same (args : List (String × Json)) {m m' : BTreeMap ArgVal}
    (h : Alike m m') :
    SameQuestions Alike (argsQuestions P x args m) (argsQuestions P x' args m') := by
  induction args generalizing m m' with
  | nil =>
      exact .done h
  | cons a args ih =>
      rw [argsQuestions, argsQuestions]
      exact (argQuestions_same P x x' a.2).bind fun r r' hshape => ih (alike_insert h a.1 hshape)

theorem alike_empty : Alike BTreeMap.empty BTreeMap.empty := fun _ => .none

end Arguments

section Form

variable (P : Platform) (pg : SubGraph)

theorem readNode_same (x x' : F64) (id : String) :
    SameQuestions (fun r r' => r.1 = r'.1) (readNode P x pg id) (readNode P x' pg id) := by
  unfold readNode
  cases pg.lookup id with
  | none =>
      exact .fail
  | some node =>
      dsimp only
      cases (node.get "process_id").bind Json.asStr with
      | none =>
          exact .fail
      | some pid =>
          cases node.get "arguments" with
          | none =>
              exact .fail
          | some args =>
              cases args with
              | obj args =>
                  dsimp only
                  refine (argsQuestions_same P x x' args alike_empty).bind fun m m' halike => ?_
                  cases hq : kernelProcess P.f64 pid with
                  | none =>
                      exact .fail
                  | some q =>
                      have hreads := kernelProcess_reads hq
                      dsimp only
                      cases hread : q.read m with
                      | error e =>
                          cases hread' : q.read m' with
                          | error e' =>
                              exact .fail
                          | ok xs' =>
                              obtain ⟨xs, hxs⟩ := hreads.alike () () halike.symm xs' hread'
                              rw [hread] at hxs
                              cases hxs
                      | ok xs =>
                          obtain ⟨xs', hxs'⟩ := hreads.alike () () halike xs hread
                          rw [hxs']
                          exact .done rfl
              | _ =>
                  exact .fail

/-- Any number may be the value of a node. -/
def AnyNumber (_ : String) (r : Except ExecError F64) : Prop := ∃ v, r = .ok v

/-- From this node on a callback has the form that the kernel reads, whatever the numbers: the
nodes are there, their processes are known and get the operands that they need. -/
inductive Fits : String → Prop
  | node {id : String} {r : KernelProcess × List F64} :
      Gives AnyNumber (readNode P (.finite 0) pg id) (.ok r) →
      (∀ j, Reaches AnyNumber (readNode P (.finite 0) pg id) j → Fits j) → Fits id

variable {P pg} {x : F64} {id : String}

/-- A callback with a value at one pixel has the form. -/
theorem fits_of_yields {v : F64} (h : Yields (applyNode P x pg) id (.ok v)) : Fits P pg id := by
  refine Yields.ok_induction (fun i v hv hasks => ?_) h
  have hsame := readNode_same P pg x (.finite 0) i
  rw [applyNode_eq] at hv
  have hany : ∀ j, ∃ r, AnyNumber j r := fun _ => ⟨.ok (.finite 0), _, rfl⟩
  rcases (gives_bind_iff _ _ _).mp hv with ⟨r, hr, -⟩ | ⟨e, -, he⟩
  · rcases hsame.gives hr fun j _ => hany j with ⟨r', hr', -⟩ | ⟨j, e, -, ⟨w, hw⟩, -⟩
    · refine .node hr' fun j hj => hasks j ?_
      unfold Asks
      rw [applyNode_eq]
      exact reaches_bind_left _ _ (hsame.reaches hr hj)
    · cases hw
  · cases he

/-- A callback of the form ends at every pixel, with a value or where a process stops. -/
theorem Fits.ends (h : Fits P pg id) (x : F64) :
    (∃ v, Yields (applyNode P x pg) id (.ok v)) ∨
      ∃ fault : Fault, Yields (applyNode P x pg) id (.error fault.error) := by
  induction h with
  | @node id r hr _ ih =>
      have hends : ∀ {out}, Gives (Yields (applyNode P x pg))
          (readNode P x pg id >>= fun r => settledBy (outcome r)) out →
          Yields (applyNode P x pg) id out := fun hout =>
        yields_iff.mpr (applyNode_eq P x pg id ▸ hout)
      rcases (readNode_same P pg (.finite 0) x id).gives hr fun j hj =>
          (ih j hj).elim (fun ⟨v, hv⟩ => ⟨_, hv⟩) (fun ⟨fault, hfault⟩ => ⟨_, hfault⟩) with
        ⟨r', hr', -⟩ | ⟨j, e, hj, he, hgives⟩
      · cases hstop : r'.1.stop r'.2 with
        | none =>
            refine .inl ⟨r'.1.value r'.2, hends ((gives_bind_iff _ _ _).mpr (.inl ⟨r', hr', ?_⟩))⟩
            rw [outcome, hstop]
            rfl
        | some fault =>
            refine .inr ⟨fault, hends ((gives_bind_iff _ _ _).mpr (.inl ⟨r', hr', ?_⟩))⟩
            rw [outcome, hstop]
            rfl
      · rcases ih j hj with ⟨v, hv⟩ | ⟨fault, hfault⟩
        · cases hv.unique he
        · cases hfault.unique he
          exact .inr ⟨fault, hends ((gives_bind_iff _ _ _).mpr (.inr ⟨_, hgives, rfl⟩))⟩

end Form

section Stops

variable (P : Platform) (x : F64) (pg : SubGraph)

/-- A node whose process stops for the values that its operands have at this pixel. -/
def FaultAt (id : String) (fault : Fault) : Prop :=
  ∃ r, Gives (Yields (applyNode P x pg)) (readNode P x pg id) (.ok r) ∧ r.1.stop r.2 = some fault

theorem stops_applyNode_fault_iff (id : String) (fault : Fault) :
    Stops (Yields (applyNode P x pg)) (applyNode P x pg id) fault.error ↔
      FaultAt P x pg id fault := by
  unfold FaultAt
  generalize Yields (applyNode P x pg) = value
  rw [applyNode_eq, stops_bind_iff]
  constructor
  · rintro (hmisfit | ⟨r, hr, hstops⟩)
    · exact absurd rfl (((readNode_allFails P x pg id).of_stops hmisfit).ne_fault fault)
    · refine ⟨r, hr, ?_⟩
      have hout := stops_settledBy_iff.mp hstops
      unfold outcome at hout
      cases hstop : r.1.stop r.2 with
      | none =>
          rw [hstop] at hout
          cases hout
      | some fault' =>
          rw [hstop] at hout
          rw [Fault.error_injective (Except.error.inj hout)]
  · rintro ⟨r, hr, hstop⟩
    refine .inr ⟨r, hr, stops_settledBy_iff.mpr ?_⟩
    rw [outcome, hstop]

end Stops

section Callbacks

variable (P : Platform) (x : F64)

/-- A callback is evaluated from this node on. -/
def StartsAt (subPg : Json) (pg : SubGraph) (root : String) : Prop :=
  subPg = .obj pg ∧ ∃ node, findUniqueResultNode pg "apply" = .ok (root, node)

/-- A callback of the form that the kernel reads. -/
def WellFormed (subPg : Json) : Prop := ∃ pg root, StartsAt subPg pg root ∧ Fits P pg root

/-- At this pixel the evaluation gets to a process that stops for the values of its operands. -/
def Meets (subPg : Json) (fault : Fault) : Prop :=
  ∃ pg root id, StartsAt subPg pg root ∧ ReflTransGen (Asks (applyNode P x pg)) root id ∧
    FaultAt P x pg id fault

variable {P x} {subPg : Json} {pg : SubGraph} {root : String}

theorem StartsAt.unique (h : StartsAt subPg pg root) {pg' : SubGraph} {root' : String}
    (h' : StartsAt subPg pg' root') : pg = pg' ∧ root = root' := by
  obtain ⟨rfl, node, hnode⟩ := h
  obtain ⟨hpg, node', hnode'⟩ := h'
  cases hpg
  rw [hnode] at hnode'
  cases hnode'
  exact ⟨rfl, rfl⟩

theorem StartsAt.eval_eq_iff (h : StartsAt subPg pg root) {r : Except ExecError F64}
    (hr : ∀ j, r ≠ .error ((applyEval P x pg).cyclic j)) :
    evalApplySubgraph P subPg x = r ↔ Yields (applyNode P x pg) root r := by
  obtain ⟨rfl, node, hnode⟩ := h
  exact evalApplySubgraph_eq_iff P hnode hr

theorem StartsAt.eval_eq_ok_iff (h : StartsAt subPg pg root) {v : F64} :
    evalApplySubgraph P subPg x = .ok v ↔ Yields (applyNode P x pg) root (.ok v) :=
  h.eval_eq_iff fun _ => nofun

theorem StartsAt.eval_eq_fault_iff (h : StartsAt subPg pg root) {fault : Fault} :
    evalApplySubgraph P subPg x = .error fault.error ↔
      Yields (applyNode P x pg) root (.error fault.error) :=
  h.eval_eq_iff fun j hj => fault_ne_cyclic P x pg fault j (Except.error.inj hj)

/-- Without a node to start at a callback is refused for its form. -/
theorem eval_of_not_startsAt (h : ∀ pg root, ¬ StartsAt subPg pg root) :
    ∃ e, evalApplySubgraph P subPg x = .error e ∧ e.Begins "apply: p" := by
  unfold evalApplySubgraph
  cases subPg with
  | obj pg =>
      dsimp only
      split_ifs
      · exact ⟨_, rfl, ExecError.begins_self "apply: p" "rocess_graph is empty"⟩
      · cases hresult : findUniqueResultNode pg "apply" with
        | ok result =>
            exact absurd ⟨rfl, result.2, hresult⟩ (h pg result.1)
        | error e =>
            refine ⟨e, rfl, ?_⟩
            unfold findUniqueResultNode at hresult
            split at hresult
            · cases hresult
              exact ExecError.begins_self "apply: p" "rocess_graph has no `result: true` node"
            · cases hresult
            · cases hresult
              exact ExecError.begins_self "apply: p" "rocess_graph has multiple result nodes"
  | _ =>
      exact ⟨_, rfl, ExecError.begins_self "apply: p" "rocess_graph must be an object"⟩

theorem eval_eq_fault_iff {fault : Fault} :
    evalApplySubgraph P subPg x = .error fault.error ↔ Meets P x subPg fault := by
  unfold Meets
  by_cases hstart : ∃ pg root, StartsAt subPg pg root
  case pos =>
    obtain ⟨pg, root, hstart⟩ := hstart
    rw [hstart.eval_eq_fault_iff, yields_error_iff]
    constructor
    · rintro ⟨id, hreach, hstops⟩
      exact ⟨pg, root, id, hstart, hreach, (stops_applyNode_fault_iff P x pg id fault).mp hstops⟩
    · rintro ⟨pg', root', id, hstart', hreach, hfault⟩
      obtain ⟨rfl, rfl⟩ := hstart.unique hstart'
      exact ⟨id, hreach, (stops_applyNode_fault_iff P x pg id fault).mpr hfault⟩
  case neg =>
    obtain ⟨e, he, hbegins⟩ := eval_of_not_startsAt (P := P) (x := x) fun pg root h =>
      hstart ⟨pg, root, h⟩
    refine iff_of_false (fun h => ?_) fun ⟨pg, root, _, h, _⟩ => hstart ⟨pg, root, h⟩
    rw [he] at h
    exact fault.not_begins rfl (by decide) (Except.error.inj h ▸ hbegins)

/-- A callback has a value exactly if it has the form and no process stops. -/
theorem eval_eq_ok_iff :
    (∃ v, evalApplySubgraph P subPg x = .ok v) ↔
      WellFormed P subPg ∧ ∀ fault, ¬ Meets P x subPg fault := by
  constructor
  · rintro ⟨v, hv⟩
    constructor
    · by_contra hform
      have hstart : ∀ pg root, ¬ StartsAt subPg pg root := fun pg root h =>
        hform ⟨pg, root, h, fits_of_yields (h.eval_eq_ok_iff.mp hv)⟩
      obtain ⟨e, he, -⟩ := eval_of_not_startsAt (P := P) (x := x) hstart
      rw [hv] at he
      cases he
    · intro fault hmeets
      rw [eval_eq_fault_iff.mpr hmeets] at hv
      cases hv
  · rintro ⟨⟨pg, root, hstart, hfits⟩, hquiet⟩
    rcases hfits.ends x with ⟨v, hv⟩ | ⟨fault, hfault⟩
    · exact ⟨v, hstart.eval_eq_ok_iff.mpr hv⟩
    · exact absurd (eval_eq_fault_iff.mp (hstart.eval_eq_fault_iff.mpr hfault)) (hquiet fault)

/-- An error is one of the form, or a process has stopped. -/
theorem eval_error {e : ExecError} (h : evalApplySubgraph P subPg x = .error e) :
    (∃ msg, e = .invalidGraph msg) ∨ ∃ fault : Fault, e = fault.error := by
  by_cases hstart : ∃ pg root, StartsAt subPg pg root
  case pos =>
    obtain ⟨pg, root, hstart⟩ := hstart
    by_cases hcyclic : ∃ j, e = (applyEval P x pg).cyclic j
    · obtain ⟨j, rfl⟩ := hcyclic
      exact .inl ⟨_, rfl⟩
    · have hyields := (hstart.eval_eq_iff fun j hj => hcyclic ⟨j, Except.error.inj hj⟩).mp h
      rcases hyields.error_of_allFails (applyNode_allFails P x pg) with hmisfit | hfault
      · rcases hmisfit with ⟨rest, rfl⟩ | ⟨rest, rfl⟩ | ⟨rest, rfl⟩ <;> exact .inl ⟨_, rfl⟩
      · exact .inr hfault
  case neg =>
    obtain ⟨e', he', rest, hrest⟩ := eval_of_not_startsAt (P := P) (x := x) fun pg root h =>
      hstart ⟨pg, root, h⟩
    rw [h] at he'
    cases he'
    exact .inl ⟨_, hrest⟩

end Callbacks

section Trial

variable (P : Platform) (subPg : Json)

/-- The trial run at zero is exact.  It rejects a callback only for its graph: the error says so,
and there is no pixel at which the callback has a value.  A callback that it lets through has at
every pixel a value or an error of that pixel only. -/
structure TrialExact : Prop where
  rejects : ∀ e, evalApplySubgraph P subPg (.finite 0) = .error e →
    (∃ msg, e = .invalidGraph msg) ∧ ∀ x v, evalApplySubgraph P subPg x ≠ .ok v
  passes : ∀ v, evalApplySubgraph P subPg (.finite 0) = .ok v → ∀ x,
    (∃ w, evalApplySubgraph P subPg x = .ok w) ∨
      ∃ msg, evalApplySubgraph P subPg x = .error (.perPixelComputation msg)

/-- The processes do not get in the way of the trial run: at zero none of them stops for a
denominator or for its bounds; and if the callback has the right form, one that stops at zero for
an input range means that at every pixel one stops, and if none stops at zero, then none stops at
any pixel for an input range or for its bounds. -/
structure TrialSafe : Prop where
  zero : ∀ msg, ¬ Meets P (.finite 0) subPg (.zero msg)
  disordered : ¬ Meets P (.finite 0) subPg .disordered
  flat : WellFormed P subPg → Meets P (.finite 0) subPg .flat → ∀ x, ∃ fault, Meets P x subPg fault
  elsewhere : WellFormed P subPg → (∀ fault, ¬ Meets P (.finite 0) subPg fault) →
    ∀ x, ¬ Meets P x subPg .flat ∧ ¬ Meets P x subPg .disordered

variable {P subPg}

theorem TrialExact.safe (h : TrialExact P subPg) : TrialSafe P subPg := by
  refine ⟨fun msg hzero => ?_, fun hdisordered => ?_, fun hform hflat x => ?_,
    fun hform hquiet x => ?_⟩
  · obtain ⟨⟨_, hmsg⟩, -⟩ := h.rejects _ (eval_eq_fault_iff.mpr hzero)
    cases hmsg
  · obtain ⟨⟨_, hmsg⟩, -⟩ := h.rejects _ (eval_eq_fault_iff.mpr hdisordered)
    cases hmsg
  · by_contra hnone
    obtain ⟨v, hv⟩ := eval_eq_ok_iff.mpr ⟨hform, fun fault hfault => hnone ⟨fault, hfault⟩⟩
    exact (h.rejects _ (eval_eq_fault_iff.mpr hflat)).2 x v hv
  · obtain ⟨v, hv⟩ := eval_eq_ok_iff.mpr ⟨hform, hquiet⟩
    have hends := h.passes v hv x
    constructor
    · intro hflat
      rw [eval_eq_fault_iff.mpr hflat] at hends
      rcases hends with ⟨w, hw⟩ | ⟨msg, hmsg⟩
      · cases hw
      · cases hmsg
    · intro hdisordered
      rw [eval_eq_fault_iff.mpr hdisordered] at hends
      rcases hends with ⟨w, hw⟩ | ⟨msg, hmsg⟩
      · cases hw
      · cases hmsg

theorem TrialSafe.exact (h : TrialSafe P subPg) : TrialExact P subPg := by
  refine ⟨fun e he => ⟨?_, fun x v hv => ?_⟩, fun v hv x => ?_⟩
  · rcases eval_error he with hmsg | ⟨fault, rfl⟩
    · exact hmsg
    · cases fault with
      | zero msg =>
          exact absurd (eval_eq_fault_iff.mp he) (h.zero msg)
      | flat =>
          exact ⟨_, rfl⟩
      | disordered =>
          exact absurd (eval_eq_fault_iff.mp he) h.disordered
  · obtain ⟨hform, hquiet⟩ := eval_eq_ok_iff.mp ⟨v, hv⟩
    have hmeets : ∃ fault, Meets P (.finite 0) subPg fault := by
      by_contra hnone
      obtain ⟨w, hw⟩ := eval_eq_ok_iff.mpr ⟨hform, fun fault hfault => hnone ⟨fault, hfault⟩⟩
      rw [he] at hw
      cases hw
    obtain ⟨fault, hfault⟩ := hmeets
    cases fault with
    | zero msg =>
        exact h.zero msg hfault
    | flat =>
        obtain ⟨fault', hfault'⟩ := h.flat hform hfault x
        exact hquiet fault' hfault'
    | disordered =>
        exact h.disordered hfault
  · obtain ⟨hform, hquiet⟩ := eval_eq_ok_iff.mp ⟨v, hv⟩
    by_cases hmeets : ∃ fault, Meets P x subPg fault
    · obtain ⟨fault, hfault⟩ := hmeets
      have hothers := h.elsewhere hform hquiet x
      cases fault with
      | zero msg =>
          exact .inr ⟨msg, eval_eq_fault_iff.mpr hfault⟩
      | flat =>
          exact absurd hfault hothers.1
      | disordered =>
          exact absurd hfault hothers.2
    · exact .inl (eval_eq_ok_iff.mpr ⟨hform, fun fault hfault => hmeets ⟨fault, hfault⟩⟩)

end Trial

/-- The trial run is exact if and only if the processes do not get in its way. -/
theorem trialExact_iff (P : Platform) (subPg : Json) :
    TrialExact P subPg ↔ TrialSafe P subPg :=
  ⟨TrialExact.safe, TrialSafe.exact⟩

/-- A callback of one node that is marked as its result. -/
def oneNode (pid : String) (args : List (String × Json)) : Json :=
  .obj [("n", .obj [("process_id", .str pid), ("arguments", .obj args), ("result", .bool true)])]

def pixelArg : Json := .obj [("from_parameter", .str "x")]

/-- A range from one up to the pixel. -/
def rangeToPixel : Json :=
  oneNode "linear_scale_range"
    [("x", pixelArg), ("inputMin", .num (.posInt 1)), ("inputMax", pixelArg)]

/-- `1 / x` is rejected for its value at zero, and a range is let through although it is empty at
one. -/
theorem trial_not_exact :
    ¬ TrialExact Platform.exact (oneNode "divide" [("x", .num (.posInt 1)), ("y", pixelArg)]) ∧
    ¬ TrialExact Platform.exact rangeToPixel := by
  constructor
  · intro h
    obtain ⟨⟨_, hmsg⟩, -⟩ := h.rejects (.perPixelComputation "apply: divide by zero") rfl
    cases hmsg
  · intro h
    have hzero : evalApplySubgraph Platform.exact rangeToPixel (.finite 0) = .ok (.finite 1) := by
      decide +kernel
    have hone : evalApplySubgraph Platform.exact rangeToPixel (.finite 1) =
        .error Fault.flat.error := by
      decide +kernel
    rcases h.passes _ hzero (.finite 1) with ⟨w, hw⟩ | ⟨msg, hmsg⟩
    · rw [hone] at hw
      cases hw
    · rw [hone] at hmsg
      cases hmsg

end OrbitOpenEO
