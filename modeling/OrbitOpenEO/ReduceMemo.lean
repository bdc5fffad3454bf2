import OrbitOpenEO.ApplyMemo
import OrbitOpenEO.CallbackMeaning

/-!
# The memory of the reducer evaluator

`eval_reduce_node` resolves the arguments of a node one by one, as its process reads them.  Its
questions (`reduceNode`) are therefore only those that the process gets to.
-/

namespace OrbitOpenEO
namespace ReducerCallback

open Lib Lib.Asking

section Reduce

variable (P : Platform) (stack : List F64)

/-- What an argument asks for. -/
def reduceArgQuestions (id : String) (args : Option (List (String × Json))) (key : String) :
    Asking String RedVal ExecError RedVal :=
  match args.bind (List.lookup key) with
  | none => .fail (.invalidGraph s!"reduce_dimension.reducer: node `{id}` missing arg `{key}`")
  | some (.num n) => .done (.scalar (P.toF32 (n.asF64 P.f64.toFloatOps)))
  | some (.obj fs) =>
      match fs.lookup "from_parameter" with
      | some (.str p) =>
          if p = "data" then .done (.array stack)
          else .fail (.invalidGraph
            s!"reduce_dimension.reducer: only `data` parameter is bound (got `{p}`)")
      | _ =>
          match linkTarget fs with
          | some target => .ask target .done
          | none => .fail (.invalidGraph
              s!"reduce_dimension.reducer: node `{id}` arg `{key}` has unsupported shape")
  | some _ => .fail (.invalidGraph
      s!"reduce_dimension.reducer: node `{id}` arg `{key}` has unsupported shape")

/-- What the process of a node asks for, one argument after the other. -/
def reduceQuestions (args : Option (List (String × Json)))
    (arg : String → Asking String RedVal ExecError RedVal) (pid : String) :
    Asking String RedVal ExecError F64 :=
  match Reducer.fromProcessId pid with
  | some reducer => do
      let arr :=
        match (← arg "data") with
        | .array xs => xs
        | .scalar x => [x]
      pure (if arr.isEmpty then sentinelNdviNa else applyReducer P.f32 arr reducer)
  | none =>
      match scalarProcess P.f32 (roundDigits P args) pid with
      | some q =>
          q.run (fun s => .fail s.error)
            (fun key => do settledBy ((← arg key).scalarOf key)) q.operands
      | none =>
          .fail (.invalidGraph s!"reduce_dimension.reducer: unsupported process `{pid}`")

/-- What a node asks for, and its value. -/
def reduceNode (pg : SubGraph) (id : String) : Asking String RedVal ExecError RedVal :=
  match pg.lookup id with
  | none => .fail (.invalidGraph s!"reduce_dimension.reducer: unknown node `{id}`")
  | some node =>
      match (node.get "process_id").bind Json.asStr with
      | none => .fail (.invalidGraph
          s!"reduce_dimension.reducer: node `{id}` has no process_id")
      | some pid => do
          let out ← reduceQuestions P (nodeArgs node)
            (reduceArgQuestions P stack id (nodeArgs node)) pid
          pure (.scalar out)

/-- The evaluator of `reduce_dimension`. -/
def reduceEval (pg : SubGraph) : MemoEval String RedVal ExecError where
  nodes := pg.map Prod.fst
  body := reduceNode P stack pg
  unknown id hid := by
    unfold reduceNode
    rw [lookup_eq_none_of_notMem hid]
    exact ⟨_, rfl⟩
  cyclic id := .invalidGraph s!"reduce_dimension.reducer: cycle at node `{id}`"
  tooDeep _ := none
  cutShort _ _ := none

section Correspondence

variable (node : String → CallbackM RedVal RedVal)

theorem resolveReduceArg_runWith (id : String) (args : Option (List (String × Json)))
    (key : String) :
    resolveReduceArg P node stack id args key =
      runWith node (reduceArgQuestions P stack id args key) := by
  unfold resolveReduceArg reduceArgQuestions
  cases args.bind (List.lookup key) with
  | none =>
      rfl
  | some arg =>
      cases arg with
      | obj fs =>
          dsimp only
          cases fs.lookup "from_parameter" with
          | none =>
              cases linkTarget fs <;> simp [runWith]
          | some p =>
              cases p with
              | str s =>
                  dsimp only
                  split_ifs <;> rfl
              | _ =>
                  cases linkTarget fs <;> simp [runWith]
      | _ =>
          rfl

theorem readOperands_runWith {κ : Type} (raise : Stop → Asking String RedVal ExecError (List F64))
    (arg : κ → Asking String RedVal ExecError F64) (stop : List F64 → Option Stop)
    (keys : List κ) (xs : List F64) :
    runWith node (readOperands raise arg stop keys xs) =
      readOperands (fun s => runWith node (raise s)) (fun key => runWith node (arg key)) stop keys
        xs := by
  induction keys generalizing xs with
  | nil =>
      rfl
  | cons key keys ih =>
      rw [readOperands, readOperands, runWith_bind]
      refine bind_congr fun x => ?_
      cases stop (xs ++ [x]) with
      | some s =>
          rfl
      | none =>
          exact ih _

/-- The evaluator refuses every other process. -/
theorem reduceScalarOp_unsupported {f : MathOps} {p : F64} {pid : String}
    (h : scalarProcess f p pid = none) (arg : String → CallbackM RedVal F64) :
    reduceScalarOp f arg p pid =
      throw (.invalidGraph s!"reduce_dimension.reducer: unsupported process `{pid}`") := by
  unfold reduceScalarOp
  split <;> first | rfl | cases h

theorem reduceNodeBody_runWith (id : String) (args : Option (List (String × Json)))
    (pid : String) :
    reduceNodeBody P args (resolveReduceArg P node stack id args) pid =
      runWith node (reduceQuestions P args (reduceArgQuestions P stack id args) pid) := by
  unfold reduceNodeBody reduceQuestions
  have hresolve : resolveReduceArg P node stack id args =
      fun key => runWith node (reduceArgQuestions P stack id args key) :=
    funext (resolveReduceArg_runWith P stack node id args)
  rw [hresolve]
  cases Reducer.fromProcessId pid with
  | some r =>
      dsimp only
      rw [runWith_bind]
      rfl
  | none =>
      dsimp only
      cases hq : scalarProcess P.f32 (roundDigits P args) pid with
      | none =>
          exact reduceScalarOp_unsupported hq _
      | some q =>
          rw [reduceScalarOp_eq hq]
          dsimp only
          unfold ScalarProcess.run
          rw [runWith_bind, readOperands_runWith]
          simp only [runWith_bind, runWith_settledBy]
          rfl

end Correspondence

/-- No report of a circle. -/
def NoCircle (e : ExecError) : Prop := ¬ e.Begins "reduce_dimension.reducer: c"

theorem noCircle_of_begins {e : ExecError} {p : String} (h : e.Begins p)
    (hlen : p.length = 27) (hp : p ≠ "reduce_dimension.reducer: c") : NoCircle e :=
  fun hbegins => hp (h.inj hbegins hlen)

theorem noCircle_stop (s : Stop) : NoCircle s.error := by
  rintro ⟨rest, h⟩
  cases s <;> cases h

theorem reduceArgQuestions_allFails (id : String) (args : Option (List (String × Json)))
    (key : String) : AllFails NoCircle (reduceArgQuestions P stack id args key) := by
  have hnode : ∀ m rest, NoCircle (.invalidGraph
      ("reduce_dimension.reducer: node `" ++ id ++ m ++ key ++ rest)) := fun m rest =>
    noCircle_of_begins ((((ExecError.begins_self "reduce_dimension.reducer: n" "ode `").append
      id).append m).append key |>.append rest) rfl (by decide)
  have hparam : ∀ p, NoCircle (.invalidGraph
      s!"reduce_dimension.reducer: only `data` parameter is bound (got `{p}`)") := fun p =>
    noCircle_of_begins (((ExecError.begins_self "reduce_dimension.reducer: o"
      "nly `data` parameter is bound (got `").append p).append _) rfl (by decide)
  unfold reduceArgQuestions
  split
  · exact hnode _ _
  · trivial
  · split
    · split_ifs
      · trivial
      · exact hparam _
    · split
      · exact fun _ => trivial
      · exact hnode _ _
  · exact hnode _ _

theorem readOperands_allFails {κ : Type} {Q : ExecError → Prop} {stop : List F64 → Option Stop}
    (hstop : ∀ xs s, stop xs = some s → Q s.error)
    {arg : κ → Asking String RedVal ExecError F64} (harg : ∀ key, AllFails Q (arg key))
    (keys : List κ) (xs : List F64) :
    AllFails Q (readOperands (fun s => .fail s.error) arg stop keys xs) := by
  induction keys generalizing xs with
  | nil =>
      trivial
  | cons key keys ih =>
      rw [readOperands]
      refine (harg key).bind fun x => ?_
      cases hs : stop (xs ++ [x]) with
      | some s =>
          exact hstop _ s hs
      | none =>
          exact ih _

theorem scalarOf_fails {v : RedVal} {who : String} {e : ExecError}
    (h : v.scalarOf who = .error e) : NoCircle e := by
  cases v with
  | scalar x =>
      cases h
  | array xs =>
      cases h
      rintro ⟨rest, h⟩
      cases h

/-- A node does not report circles itself. -/
theorem reduceNode_allFails (pg : SubGraph) (id : String) :
    AllFails NoCircle (reduceNode P stack pg id) := by
  unfold reduceNode
  split
  · exact noCircle_of_begins (((ExecError.begins_self "reduce_dimension.reducer: u"
      "nknown node `").append id).append _) rfl (by decide)
  · split
    · exact noCircle_of_begins (((ExecError.begins_self "reduce_dimension.reducer: n"
        "ode `").append id).append _) rfl (by decide)
    · refine AllFails.bind ?_ fun out => trivial
      unfold reduceQuestions
      split
      · exact (reduceArgQuestions_allFails P stack id _ _).bind fun v => trivial
      · split
        · unfold ScalarProcess.run
          exact (readOperands_allFails (fun _ s _ => noCircle_stop s) (fun key =>
            (reduceArgQuestions_allFails P stack id _ key).bind fun v =>
              allFails_settledBy fun e => scalarOf_fails) _ _).bind fun xs => trivial
        · exact noCircle_of_begins (((ExecError.begins_self "reduce_dimension.reducer: u"
            "nsupported process `").append _).append _) rfl (by decide)

theorem reduceNode_not_cyclic (pg : SubGraph) (id : String) :
    AllFails (fun e => ∀ j, e ≠ (reduceEval P stack pg).cyclic j) (reduceNode P stack pg id) := by
  refine (reduceNode_allFails P stack pg id).mono fun e h j he => h ?_
  rw [he]
  exact ((ExecError.begins_self "reduce_dimension.reducer: c" "ycle at node `").append j).append _

theorem evalReduceNode_eq (pg : SubGraph) (bound : Nat) (inProgress : List String) (id : String) :
    evalReduceNode P pg stack bound inProgress id =
      (reduceEval P stack pg).run (reduceEval P stack pg).cyclic bound inProgress id := by
  induction bound generalizing inProgress id with
  | zero =>
      rfl
  | succ bound ih =>
      have hnode : evalReduceNode P pg stack bound (inProgress ++ [id]) =
          (reduceEval P stack pg).run (reduceEval P stack pg).cyclic bound (inProgress ++ [id]) :=
        funext (ih _)
      have hbody : (reduceEval P stack pg).bodyAt inProgress.length id = reduceNode P stack pg id :=
        rfl
      have hshallow : (reduceEval P stack pg).tooDeep inProgress.length = none := rfl
      rw [evalReduceNode, MemoEval.run, hshallow, hbody]
      refine bind_congr fun memo => ?_
      cases memo id with
      | some v =>
          rfl
      | none =>
          dsimp only
          split_ifs with hprogress
          · rfl
          · unfold reduceNode
            cases pg.lookup id with
            | none =>
                rfl
            | some node =>
                dsimp only
                cases (node.get "process_id").bind Json.asStr with
                | none =>
                    rfl
                | some pid =>
                    dsimp only
                    rw [runWith_bind, ← hnode, ← reduceNodeBody_runWith, bind_assoc]
                    unfold reduceNodeBody
                    cases Reducer.fromProcessId pid with
                    | some r =>
                        dsimp only
                        rw [bind_assoc]
                        rfl
                    | none =>
                        rfl

end Reduce

end ReducerCallback

end OrbitOpenEO
