import OrbitOpenEO.KernelProcesses
import OrbitOpenEO.Lib.MemoRecursion

/-!
# The memory of the `apply` evaluator

`eval_node_inline` walks a callback with a table of finished nodes and a list of nodes in
progress.  What a node asks for is written down without them (`applyNode`); the code is the
recursion with a memory over these questions (`evalNodeInline_eq`).
-/

namespace OrbitOpenEO

open Lib Lib.Asking

theorem lookup_eq_none_of_notMem {α : Type} {id : String} {es : List (String × α)}
    (h : id ∉ es.map Prod.fst) : es.lookup id = none := by
  rw [List.lookup_eq_none_iff]
  intro e he
  have hne : id ≠ e.1 := fun heq => h (heq ▸ List.mem_map_of_mem he)
  simpa using hne

/-- A result that asks for nothing. -/
def settledBy {V α : Type} : Except ExecError α → Asking String V ExecError α
  | .ok a => .done a
  | .error e => .fail e

theorem allFails_settledBy {V α : Type} {Q : ExecError → Prop} {r : Except ExecError α}
    (h : ∀ e, r = .error e → Q e) : AllFails Q (settledBy r : Asking String V ExecError α) := by
  cases r with
  | ok a =>
      trivial
  | error e =>
      exact h e rfl

theorem stops_settledBy_iff {V α : Type} {value : String → Except ExecError V → Prop}
    {r : Except ExecError α} {e : ExecError} : Stops value (settledBy r) e ↔ r = .error e := by
  cases r with
  | ok a =>
      exact ⟨(fun h => nomatch h), (fun h => nomatch h)⟩
  | error e' =>
      exact ⟨congrArg Except.error, Except.error.inj⟩

theorem runWith_settledBy {V α σ : Type} (node : String → StateT σ (Except ExecError) V)
    (r : Except ExecError α) : runWith node (settledBy r) = liftM r := by
  cases r <;> rfl

section Apply

variable (P : Platform) (x : F64)

mutual

/-- What an argument asks for. -/
def argQuestions : Json → Asking String F64 ExecError ArgVal
  | .num n => .done (.num (n.asF64 P.f64.toFloatOps))
  | .obj fs =>
      match fs.lookup "from_parameter" with
      | some (.str _) => .done (.num x)
      | _ =>
          match linkTarget fs with
          | some target => .ask target fun v => .done (.num v)
          | none => .fail (.invalidGraph
              s!"apply: unsupported argument shape: {P.jsonText (.obj fs)}")
  | .arr xs => do
      let vs ← itemQuestions xs
      pure (.arr vs)
  | .null => .fail (.invalidGraph "apply: null argument value")
  | v => .fail (.invalidGraph s!"apply: unsupported argument value: {P.jsonText v}")

/-- What the items of an array ask for. -/
def itemQuestions : List Json → Asking String F64 ExecError (List F64)
  | [] => pure []
  | v :: vs => do
      match (← argQuestions v) with
      | .num n => do
          let ns ← itemQuestions vs
          pure (n :: ns)
      | .arr _ => .fail (.invalidGraph
          "apply: nested arrays not supported in sub-graph arguments")

end

/-- What the arguments of a node ask for. -/
def argsQuestions : List (String × Json) → BTreeMap ArgVal →
    Asking String F64 ExecError (BTreeMap ArgVal)
  | [], resolved => pure resolved
  | (k, v) :: args, resolved => do
      let r ← argQuestions P x v
      argsQuestions args (resolved.insert k r)

/-- What a node asks for, and its value. -/
def applyNode (pg : SubGraph) (id : String) : Asking String F64 ExecError F64 :=
  match pg.lookup id with
  | none => .fail (.invalidGraph s!"apply: unknown node reference `{id}`")
  | some node =>
      match (node.get "process_id").bind Json.asStr with
      | none => .fail (.invalidGraph s!"apply: node `{id}` has no process_id")
      | some pid =>
          match node.get "arguments" with
          | some (.obj args) => do
              let resolved ← argsQuestions P x args BTreeMap.empty
              settledBy (ApplyKernel.applyPureNumericOp P.f64 pid resolved)
          | _ => .fail (.invalidGraph s!"apply: node `{id}` has no arguments object")

/-- The evaluator of `apply`. -/
def applyEval (pg : SubGraph) : MemoEval String F64 ExecError where
  nodes := pg.map Prod.fst
  body := applyNode P x pg
  unknown id hid := by
    unfold applyNode
    rw [lookup_eq_none_of_notMem hid]
    exact ⟨_, rfl⟩
  cyclic id := .invalidGraph s!"apply: cycle detected at node `{id}`"
  tooDeep _ := none
  cutShort _ _ := none

section Correspondence

variable (node : String → CallbackM F64 F64)

mutual

theorem resolveArgValue_eq : ∀ v : Json,
    resolveArgValue P node x v = runWith node (argQuestions P x v)
  | .num n => by
      rw [resolveArgValue, argQuestions]
      rfl
  | .obj fs => by
      rw [resolveArgValue, argQuestions]
      cases fs.lookup "from_parameter" with
      | none =>
          cases linkTarget fs <;> rfl
      | some p =>
          cases p with
          | str s =>
              rfl
          | _ =>
              cases linkTarget fs <;> rfl
  | .arr xs => by
      rw [resolveArgValue, argQuestions, runWith_bind, resolveItems_eq xs]
      rfl
  | .null => by
      rw [resolveArgValue, argQuestions]
      rfl
  | .bool b => by
      rw [resolveArgValue, argQuestions]
      · rfl
      all_goals simp
  | .str s => by
      rw [resolveArgValue, argQuestions]
      · rfl
      all_goals simp

theorem resolveItems_eq : ∀ xs : List Json,
    resolveItems P node x xs = runWith node (itemQuestions P x xs)
  | [] => by
      rw [resolveItems, itemQuestions]
      rfl
  | v :: vs => by
      rw [resolveItems, itemQuestions, runWith_bind, resolveArgValue_eq v]
      refine bind_congr fun r => ?_
      cases r with
      | num n =>
          dsimp only
          rw [runWith_bind, resolveItems_eq vs]
          rfl
      | arr _ =>
          rfl

end

theorem resolveArgs_eq (args : List (String × Json)) (resolved : BTreeMap ArgVal) :
    resolveArgs P node x args resolved = runWith node (argsQuestions P x args resolved) := by
  induction args generalizing resolved with
  | nil =>
      rfl
  | cons a args ih =>
      rw [resolveArgs, argsQuestions, runWith_bind, resolveArgValue_eq]
      exact bind_congr fun r => ih _

end Correspondence

theorem evalNodeInline_eq (pg : SubGraph) (bound : Nat) (inProgress : List String) (id : String) :
    evalNodeInline P pg x bound inProgress id =
      (applyEval P x pg).run (applyEval P x pg).cyclic bound inProgress id := by
  induction bound generalizing inProgress id with
  | zero =>
      rfl
  | succ bound ih =>
      have hnode : evalNodeInline P pg x bound (inProgress ++ [id]) =
          (applyEval P x pg).run (applyEval P x pg).cyclic bound (inProgress ++ [id]) :=
        funext (ih _)
      have hbody : (applyEval P x pg).bodyAt inProgress.length id = applyNode P x pg id := rfl
      have hshallow : (applyEval P x pg).tooDeep inProgress.length = none := rfl
      rw [evalNodeInline, MemoEval.run, hshallow, hbody]
      refine bind_congr fun memo => ?_
      cases memo id with
      | some v =>
          rfl
      | none =>
          dsimp only
          split_ifs with hprogress
          · rfl
          · unfold applyNode
            cases pg.lookup id with
            | none =>
                rfl
            | some node =>
                dsimp only
                cases (node.get "process_id").bind Json.asStr with
                | none =>
                    rfl
                | some pid =>
                    cases node.get "arguments" with
                    | none =>
                        rfl
                    | some args =>
                        cases args with
                        | obj args =>
                            dsimp only
                            rw [runWith_bind, resolveArgs_eq, hnode, bind_assoc]
                            refine bind_congr fun resolved => ?_
                            rw [runWith_settledBy]
                        | _ =>
                            rfl

/-- What a node asks for before its process runs: the process and its operands. -/
def readNode (pg : SubGraph) (id : String) : Asking String F64 ExecError (ApplyKernel.KernelProcess × List F64) :=
  match pg.lookup id with
  | none => .fail (.invalidGraph s!"apply: unknown node reference `{id}`")
  | some node =>
      match (node.get "process_id").bind Json.asStr with
      | none => .fail (.invalidGraph s!"apply: node `{id}` has no process_id")
      | some pid =>
          match node.get "arguments" with
          | some (.obj args) => do
              let resolved ← argsQuestions P x args BTreeMap.empty
              match ApplyKernel.kernelProcess P.f64 pid with
              | none => .fail (.invalidGraph s!"apply: unsupported sub-process `{pid}`")
              | some q => settledBy ((q.read resolved).map (Prod.mk q))
          | _ => .fail (.invalidGraph s!"apply: node `{id}` has no arguments object")

/-- How a process ends on its operands. -/
def outcome (r : ApplyKernel.KernelProcess × List F64) : Except ExecError F64 :=
  match r.1.stop r.2 with
  | some fault => .error fault.error
  | none => .ok (r.1.value r.2)

theorem settledBy_run (q : ApplyKernel.KernelProcess) (args : BTreeMap ArgVal) :
    (settledBy (q.run args) : Asking String F64 ExecError F64) =
      settledBy ((q.read args).map (Prod.mk q)) >>= fun r => settledBy (outcome r) := by
  unfold ApplyKernel.KernelProcess.run
  cases q.read args with
  | error e =>
      rfl
  | ok xs =>
      rfl

/-- A node reads its operands, and then its process runs on them. -/
theorem applyNode_eq (pg : SubGraph) (id : String) :
    applyNode P x pg id = readNode P x pg id >>= fun r => settledBy (outcome r) := by
  unfold applyNode readNode
  cases pg.lookup id with
  | none =>
      rfl
  | some node =>
      dsimp only
      cases (node.get "process_id").bind Json.asStr with
      | none =>
          rfl
      | some pid =>
          cases node.get "arguments" with
          | none =>
              rfl
          | some args =>
              cases args with
              | obj args =>
                  dsimp only
                  rw [asking_bind_assoc]
                  refine congrArg _ (funext fun resolved => ?_)
                  cases hq : ApplyKernel.kernelProcess P.f64 pid with
                  | none =>
                      rw [ApplyKernel.applyPureNumericOp_unsupported resolved hq]
                      rfl
                  | some q =>
                      rw [ApplyKernel.applyPureNumericOp_eq resolved hq]
                      exact settledBy_run q resolved
              | _ =>
                  rfl

/-- An error for the form of a graph: a missing or misshapen argument, something unknown or
unsupported, a node that is not complete. -/
def Misfit (e : ExecError) : Prop :=
  e.Begins "apply: `" ∨ e.Begins "apply: u" ∨ e.Begins "apply: n"

theorem Misfit.not_begins {e : ExecError} (h : Misfit e) {p : String} (hlen : p.length = 8)
    (hp : p ≠ "apply: `" ∧ p ≠ "apply: u" ∧ p ≠ "apply: n") : ¬ e.Begins p := by
  intro hbegins
  rcases h with h | h | h
  · exact hp.1 (hbegins.inj h hlen)
  · exact hp.2.1 (hbegins.inj h hlen)
  · exact hp.2.2 (hbegins.inj h hlen)

theorem cyclic_begins (id : String) :
    (ExecError.invalidGraph s!"apply: cycle detected at node `{id}`").Begins "apply: c" :=
  ((ExecError.begins_self "apply: c" "ycle detected at node `").append id).append _

theorem flat_begins : ApplyKernel.Fault.flat.error.Begins "apply: l" :=
  ExecError.begins_self "apply: l" "inear_scale_range: inputMin == inputMax"

theorem Misfit.ne_fault {e : ExecError} (h : Misfit e) (fault : ApplyKernel.Fault) : e ≠ fault.error := by
  rintro rfl
  cases fault with
  | flat =>
      exact h.not_begins rfl (by decide) flat_begins
  | _ =>
      rcases h with ⟨rest, h⟩ | ⟨rest, h⟩ | ⟨rest, h⟩ <;> cases h

theorem ApplyKernel.Fault.error_injective : Function.Injective ApplyKernel.Fault.error := by
  intro fault fault' h
  cases fault <;> cases fault' <;> cases h <;> rfl

/-- The message of `linear_scale_range` begins with its first letter. -/
theorem ApplyKernel.Fault.not_begins (fault : ApplyKernel.Fault) {p : String} (hlen : p.length = 8)
    (hp : p ≠ "apply: l") : ¬ fault.error.Begins p := by
  intro hbegins
  cases fault with
  | flat =>
      exact hp (hbegins.inj flat_begins hlen)
  | _ =>
      obtain ⟨rest, hrest⟩ := hbegins
      cases hrest

mutual

theorem argQuestions_allFails : ∀ v : Json, AllFails Misfit (argQuestions P x v)
  | .num n => by
      rw [argQuestions]
      trivial
  | .obj fs => by
      have hshape : Misfit (.invalidGraph
          s!"apply: unsupported argument shape: {P.jsonText (.obj fs)}") :=
        .inr (.inl ((ExecError.begins_self "apply: u" "nsupported argument shape: ").append _))
      rw [argQuestions]
      split
      · trivial
      · split
        · exact fun _ => trivial
        · exact hshape
  | .arr xs => by
      rw [argQuestions]
      exact (itemQuestions_allFails xs).bind fun _ => trivial
  | .null => by
      rw [argQuestions]
      exact .inr (.inr (ExecError.begins_self "apply: n" "ull argument value"))
  | .bool b => by
      rw [argQuestions]
      · exact .inr (.inl ((ExecError.begins_self "apply: u" "nsupported argument value: ").append _))
      all_goals simp
  | .str s => by
      rw [argQuestions]
      · exact .inr (.inl ((ExecError.begins_self "apply: u" "nsupported argument value: ").append _))
      all_goals simp

theorem itemQuestions_allFails : ∀ xs : List Json, AllFails Misfit (itemQuestions P x xs)
  | [] => by
      rw [itemQuestions]
      trivial
  | v :: vs => by
      rw [itemQuestions]
      refine (argQuestions_allFails v).bind fun r => ?_
      cases r with
      | num n =>
          exact (itemQuestions_allFails vs).bind fun _ => trivial
      | arr ns =>
          exact .inr (.inr (ExecError.begins_self "apply: n"
            "ested arrays not supported in sub-graph arguments"))

end

theorem argsQuestions_allFails (args : List (String × Json)) (resolved : BTreeMap ArgVal) :
    AllFails Misfit (argsQuestions P x args resolved) := by
  induction args generalizing resolved with
  | nil =>
      trivial
  | cons a args ih =>
      rw [argsQuestions]
      exact (argQuestions_allFails P x a.2).bind fun r => ih _

theorem readNode_allFails (pg : SubGraph) (id : String) : AllFails Misfit (readNode P x pg id) := by
  have hnode : ∀ rest, Misfit (.invalidGraph ("apply: node `" ++ id ++ rest)) := fun rest =>
    .inr (.inr (((ExecError.begins_self "apply: n" "ode `").append id).append rest))
  unfold readNode
  split
  · exact .inr (.inl (((ExecError.begins_self "apply: u" "nknown node reference `").append
      id).append _))
  · split
    · exact hnode _
    · next pid _ =>
        split
        · refine (argsQuestions_allFails P x _ _).bind fun resolved => ?_
          split
          · exact .inr (.inl (((ExecError.begins_self "apply: u" "nsupported sub-process `").append
              pid).append _))
          · next q hq =>
              refine allFails_settledBy fun e he => ?_
              cases hread : q.read resolved with
              | error e' =>
                  rw [hread] at he
                  cases he
                  exact .inl ((ApplyKernel.kernelProcess_reads hq).message () resolved e hread)
              | ok xs =>
                  rw [hread] at he
                  cases he
        · exact hnode _

theorem outcome_fails {r : ApplyKernel.KernelProcess × List F64} {e : ExecError}
    (h : outcome r = .error e) : ∃ fault : ApplyKernel.Fault, e = fault.error := by
  unfold outcome at h
  cases hstop : r.1.stop r.2 with
  | none =>
      rw [hstop] at h
      cases h
  | some fault =>
      rw [hstop] at h
      exact ⟨fault, (Except.error.inj h).symm⟩

/-- The errors of a node are those of a graph that does not fit, and those of the values. -/
theorem applyNode_allFails (pg : SubGraph) (id : String) :
    AllFails (fun e => Misfit e ∨ ∃ fault : ApplyKernel.Fault, e = fault.error)
      (applyNode P x pg id) := by
  rw [applyNode_eq]
  exact ((readNode_allFails P x pg id).mono fun e => .inl).bind fun r =>
    allFails_settledBy fun e he => .inr (outcome_fails he)

theorem fault_ne_cyclic (pg : SubGraph) (fault : ApplyKernel.Fault) (id : String) :
    fault.error ≠ (applyEval P x pg).cyclic id := by
  intro h
  have hbegins : ((applyEval P x pg).cyclic id).Begins "apply: c" := cyclic_begins id
  exact fault.not_begins rfl (by decide) (h ▸ hbegins)

theorem applyNode_not_cyclic (pg : SubGraph) (id : String) :
    AllFails (fun e => ∀ j, e ≠ (applyEval P x pg).cyclic j) (applyNode P x pg id) := by
  refine (applyNode_allFails P x pg id).mono fun e h j he => ?_
  rcases h with h | ⟨fault, rfl⟩
  · exact h.not_begins rfl (by decide) (he ▸ cyclic_begins j : e.Begins "apply: c")
  · exact fault_ne_cyclic P x pg fault j he

end Apply

end OrbitOpenEO
