import OrbitOpenEO.Etl.Start

/-!
# A task in its surroundings

The world of a task is the engine, which it shares with the callers of `cancel_job` and
with the other jobs, and the stream of its events.  What the database, the files and the
query answer is left open.

`View` is what the others leave alone.  The lemmas about `wpTry` say of each helper what it
does to a view.
-/

namespace OrbitOpenEO
namespace Etl

open Lib Program

/-- The engine, the events sent so far, the row counts that a failed `UPDATE` of the
progress would have written, and whether the task has seen its flag up. -/
structure World where
  engine : Engine
  stream : List Event
  unrecorded : Option (Nat × Nat)
  stopSeen : Bool

/-- The row counts that a statement fails to write. -/
def lostCounts (current : Option (Nat × Nat)) (stmt : Statement) (r : Except String Unit) :
    Option (Nat × Nat) :=
  match stmt, r with
  | .updateJob (.progress rowsRead rowsWritten), .error _ => some (rowsRead, rowsWritten)
  | _, _ => current

/-- What a request of the task of a job does to the world. -/
def act (jobId : String) (s : World) : (q : Request) → Reply q → World → Prop
  | .update u, _, t => t = { s with engine := s.engine.updateJob jobId u }
  | .counts, r, t => t = s ∧ r = s.engine.counts jobId
  | .now, _, t => t = s
  | .poll, r, t => t = { s with stopSeen := s.stopSeen || r } ∧ r = s.engine.flags jobId
  | .dropFlag, _, t =>
      t = { s with engine := { s.engine with cancels := s.engine.cancels.remove jobId } }
  | .send e, _, t => t = { s with stream := s.stream ++ [e] }
  | .execute stmt, r, t => t = { s with unrecorded := lostCounts s.unrecorded stmt r }
  | .insert _, _, t => t = s
  | .readSource _, _, t => t = s
  | .query _, _, t => t = s

/-- What happens beside the task: calls of `cancel_job`, and whatever the engine does for
other jobs. -/
inductive Others where
  | cancel (jobId : String) (answer : Bool)
  | elsewhere
deriving DecidableEq

/-- The steps of the others. -/
def env (jobId : String) (s : World) : Others → World → Prop
  | .cancel k answer, t =>
      s.engine.cancelJob k = (answer, t.engine) ∧ t.stream = s.stream ∧
        t.unrecorded = s.unrecorded ∧ t.stopSeen = s.stopSeen
  | .elsewhere, t =>
      t.stream = s.stream ∧ t.unrecorded = s.unrecorded ∧ t.stopSeen = s.stopSeen ∧
        t.engine.jobs.get jobId = s.engine.jobs.get jobId ∧
        t.engine.cancels.get jobId = s.engine.cancels.get jobId ∧
        t.engine.flags jobId = s.engine.flags jobId

/-- Every request can be answered. -/
theorem act_total (jobId : String) (s : World) (q : Request) : ∃ r t, act jobId s q r t := by
  cases q with
  | counts => exact ⟨_, _, rfl, rfl⟩
  | poll => exact ⟨_, _, rfl, rfl⟩
  | update u => exact ⟨(), _, rfl⟩
  | now => exact ⟨(0 : Nat), _, rfl⟩
  | dropFlag => exact ⟨(), _, rfl⟩
  | send e => exact ⟨(), _, rfl⟩
  | execute stmt => exact ⟨.ok (), _, rfl⟩
  | insert stmt => exact ⟨.ok 0, _, rfl⟩
  | readSource source => exact ⟨.ok (), _, rfl⟩
  | query sql => exact ⟨.ok ⟨[], []⟩, _, rfl⟩

/-- Surroundings without others: `refuse` says which statements fail, the query returns
`df`, all rows are taken. -/
def script (jobId : String) (refuse : Statement → Option String) (df : DataFrame) (s : World) :
    (q : Request) → Reply q × World
  | .update u => ((), { s with engine := s.engine.updateJob jobId u })
  | .counts => (s.engine.counts jobId, s)
  | .now => ((0 : Nat), s)
  | .poll =>
      (s.engine.flags jobId, { s with stopSeen := s.stopSeen || s.engine.flags jobId })
  | .dropFlag =>
      ((), { s with engine := { s.engine with cancels := s.engine.cancels.remove jobId } })
  | .send e => ((), { s with stream := s.stream ++ [e] })
  | .execute stmt =>
      match refuse stmt with
      | some e => (.error e, { s with unrecorded := lostCounts s.unrecorded stmt (.error e) })
      | none => (.ok (), { s with unrecorded := lostCounts s.unrecorded stmt (.ok ()) })
  | .insert stmt => (.ok (Fin.last stmt.rows.length), s)
  | .readSource _ => (.ok (), s)
  | .query _ => (.ok df, s)

theorem act_script {jobId : String} {refuse : Statement → Option String} {df : DataFrame}
    (s : World) (q : Request) :
    act jobId s q (script jobId refuse df s q).1 (script jobId refuse df s q).2 := by
  cases q with
  | counts => exact ⟨rfl, rfl⟩
  | poll => exact ⟨rfl, rfl⟩
  | execute stmt =>
      cases h : refuse stmt with
      | none =>
          simp only [script, h]
          rfl
      | some e =>
          simp only [script, h]
          rfl
  | _ => rfl

/-- The part of the world that belongs to one job. -/
@[ext] structure View where
  status : Option JobStatus
  stream : List Event
  unrecorded : Option (Nat × Nat)
  stopSeen : Bool

/-- The row counts of a status. -/
def JobStatus.counts (s : JobStatus) : Nat × Nat := (s.rowsRead, s.rowsWritten)

namespace View

/-- An update of the status. -/
def update (v : View) (u : StatusUpdate) : View := { v with status := v.status.map u.apply }

/-- One more event. -/
def push (v : View) (e : Event) : View := { v with stream := v.stream ++ [e] }

/-- The answer to a statement. -/
def answered (v : View) (stmt : Statement) (r : Except String Unit) : View :=
  { v with unrecorded := lostCounts v.unrecorded stmt r }

/-- The answer to a poll. -/
def seen (v : View) (r : Bool) : View := { v with stopSeen := v.stopSeen || r }

@[simp] theorem update_status (v : View) (u : StatusUpdate) :
    (v.update u).status = v.status.map u.apply := rfl

@[simp] theorem update_stream (v : View) (u : StatusUpdate) :
    (v.update u).stream = v.stream := rfl

@[simp] theorem update_unrecorded (v : View) (u : StatusUpdate) :
    (v.update u).unrecorded = v.unrecorded := rfl

@[simp] theorem update_stopSeen (v : View) (u : StatusUpdate) :
    (v.update u).stopSeen = v.stopSeen := rfl

@[simp] theorem push_stopSeen (v : View) (e : Event) : (v.push e).stopSeen = v.stopSeen := rfl

@[simp] theorem seen_false (v : View) : v.seen false = v := by
  simp [seen]

@[simp] theorem push_status (v : View) (e : Event) : (v.push e).status = v.status := rfl

@[simp] theorem push_stream (v : View) (e : Event) : (v.push e).stream = v.stream ++ [e] := rfl

@[simp] theorem push_unrecorded (v : View) (e : Event) :
    (v.push e).unrecorded = v.unrecorded := rfl

@[simp] theorem answered_status (v : View) (stmt : Statement) (r : Except String Unit) :
    (v.answered stmt r).status = v.status := rfl

@[simp] theorem answered_stream (v : View) (stmt : Statement) (r : Except String Unit) :
    (v.answered stmt r).stream = v.stream := rfl

/-- Only the progress of a batch can get lost. -/
theorem answered_eq (v : View) {stmt : Statement}
    (hstmt : ∀ rowsRead rowsWritten, stmt ≠ .updateJob (.progress rowsRead rowsWritten))
    (r : Except String Unit) : v.answered stmt r = v := by
  have hlost : lostCounts v.unrecorded stmt r = v.unrecorded := by
    unfold lostCounts
    split
    · rename_i rowsRead rowsWritten e
      exact absurd rfl (hstmt rowsRead rowsWritten)
    · rfl
  unfold answered
  rw [hlost]

@[simp] theorem answered_ok (v : View) (stmt : Statement) : v.answered stmt (.ok ()) = v := by
  cases stmt with
  | updateJob u => cases u <;> rfl
  | _ => rfl

end View

/-- What a request of the task does to a view. -/
def viewAct (v : View) : (q : Request) → Reply q → View → Prop
  | .update u, _, t => t = v.update u
  | .counts, r, t => t = v ∧ r = (v.status.map JobStatus.counts).getD (0, 0)
  | .now, _, t => t = v
  | .poll, r, t => t = v.seen r
  | .dropFlag, _, t => t = v
  | .send e, _, t => t = v.push e
  | .execute stmt, r, t => t = v.answered stmt r
  | .insert _, _, t => t = v
  | .readSource _, _, t => t = v
  | .query _, _, t => t = v

/-- The view of a world. -/
def World.view (jobId : String) (s : World) : View :=
  ⟨s.engine.jobs.get jobId, s.stream, s.unrecorded, s.stopSeen⟩

theorem get_updateJob (engine : Engine) (jobId : String) (u : StatusUpdate) :
    (engine.updateJob jobId u).jobs.get jobId = (engine.jobs.get jobId).map u.apply := by
  unfold Engine.updateJob
  cases h : engine.jobs.get jobId with
  | none => exact h
  | some s => exact BTreeMap.get_insert_self _ _ _

theorem view_act {jobId : String} {s t : World} {q : Request} {r : Reply q}
    (h : act jobId s q r t) : viewAct (s.view jobId) q r (t.view jobId) := by
  cases q with
  | update u =>
      cases h
      exact View.ext (get_updateJob _ _ _) rfl rfl rfl
  | counts =>
      obtain ⟨rfl, rfl⟩ := h
      exact ⟨rfl, rfl⟩
  | poll =>
      obtain ⟨rfl, -⟩ := h
      rfl
  | _ =>
      cases h
      rfl

theorem cancelJob_jobs (engine : Engine) (k : String) : (engine.cancelJob k).2.jobs = engine.jobs := by
  unfold Engine.cancelJob
  split <;> rfl

theorem view_env {jobId : String} {s t : World} {e : Others} (h : env jobId s e t) :
    t.view jobId = s.view jobId := by
  cases e with
  | cancel k answer =>
      obtain ⟨hcancel, hstream, hlost, hseen⟩ := h
      have hjobs := cancelJob_jobs s.engine k
      rw [hcancel] at hjobs
      exact View.ext (congrArg (fun m => m.get jobId) hjobs) hstream hlost hseen
  | elsewhere =>
      obtain ⟨hstream, hlost, hseen, hjobs, -, -⟩ := h
      exact View.ext hjobs hstream hlost hseen

section Requests

variable {σ α : Type} {act' : σ → (q : Request) → Reply q → σ → Prop} {E : Error → σ → Prop}
  {s : σ}

theorem wpTry_ask {q : Request} {Q : Reply q → σ → Prop} :
    wpTry act' Q E (ask q) s ↔ ∀ r t, act' s q r t → Q r t := Iff.rfl

theorem wpTry_check {Q : α → σ → Prop} {x : Except Error α} (hok : ∀ a, Q a s)
    (herr : ∀ e, x = .error e → E e s) : wpTry act' Q E (check x) s := by
  cases x with
  | ok a => exact hok a
  | error e => exact herr e rfl

end Requests

section Helpers

variable {α : Type} {E : Error → View → Prop} {v : View}

/-- A task goes on or is cancelled. -/
theorem wpTry_stopIfCancelled {Q : Unit → View → Prop} (hgo : Q () v)
    (hstop : E .cancelled (v.seen true)) : wpTry viewAct Q E stopIfCancelled v := by
  refine wpTry_bind.mpr (wpTry_ask.mpr ?_)
  rintro (_ | _) t rfl
  · rw [View.seen_false]
    exact hgo
  · exact hstop

theorem wpTry_clock {Q : Nat → View → Prop} :
    wpTry viewAct Q E clock v ↔ ∀ now, Q now v := by
  refine wpTry_ask.trans ⟨fun h now => h now v rfl, ?_⟩
  rintro h r t rfl
  exact h r

theorem wpTry_send {Q : Unit → View → Prop} {e : Event} :
    wpTry viewAct Q E (send e) v ↔ Q () (v.push e) := by
  refine wpTry_ask.trans ⟨fun h => h () _ rfl, ?_⟩
  rintro h ⟨⟩ t rfl
  exact h

/-- A statement is carried out or fails. -/
theorem wpTry_execute {Q : Unit → View → Prop} {stmt : Statement} :
    wpTry viewAct Q E (execute stmt) v ↔
      Q () v ∧ ∀ e, E (.sql e) (v.answered stmt (.error e)) := by
  constructor
  · intro h
    have hok : Q () (v.answered stmt (.ok ())) := h (.ok ()) _ rfl
    rw [View.answered_ok] at hok
    exact ⟨hok, fun e => h (.error e) _ rfl⟩
  · rintro ⟨hok, herr⟩ (e | u) t rfl
    · exact herr e
    · rw [View.answered_ok]
      exact hok

/-- Memory is updated first, whatever comes of the statement. -/
theorem wpTry_record {Q : Unit → View → Prop} {u : StatusUpdate} :
    wpTry viewAct Q E (record u) v ↔
      Q () (v.update u) ∧
        ∀ e, E (.sql e) ((v.update u).answered (.updateJob u) (.error e)) := by
  refine wpTry_bind.trans ?_
  constructor
  · intro h
    exact wpTry_execute.mp (h () _ rfl)
  · rintro h ⟨⟩ t rfl
    exact wpTry_execute.mpr h

theorem wpTry_insert {Q : Nat → View → Prop} {stmt : InsertRows}
    (hok : ∀ n, n ≤ stmt.rows.length → Q n v) (herr : ∀ e, E (.sql e) v) :
    wpTry viewAct Q E (insert stmt) v := by
  rintro (e | n) t rfl
  · exact herr e
  · exact hok n.val (Nat.le_of_lt_succ n.isLt)

theorem wpTry_readSource {Q : Unit → View → Prop} {spec : PipelineSpec} (hok : Q () v)
    (herr : ∀ e : SourceError, E e.toError v) : wpTry viewAct Q E (readSource spec) v := by
  rintro (e | u) t rfl
  · exact herr e
  · exact hok

theorem wpTry_collect {Q : DataFrame → View → Prop} {spec : PipelineSpec}
    (hok : ∀ df, Q df v) (herr : ∀ e : SourceError, E e.toError v) :
    wpTry viewAct Q E (collect spec) v := by
  rintro (e | df) t rfl
  · exact herr e
  · exact hok df

/-- A result that is thrown away. -/
theorem wp_run_of_wpTry {p : Task α} {R : View → Prop}
    (h : wpTry viewAct (fun _ => R) (fun _ => R) p v) : wp viewAct (fun _ => R) p.run v := by
  refine wp_mono (fun a t ha => ?_) h
  cases a <;> exact ha

end Helpers

end Etl
end OrbitOpenEO
