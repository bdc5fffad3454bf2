import OrbitOpenEO.Etl.Protocol
import OrbitOpenEO.Lib.Requests

/-!
# What a restart finds

The helpers record each update of a job twice, in memory and in the row of `orbit_jobs`.
After a restart the memory is gone and `Engine::status` reads the row.

`Log` keeps account of both.  A run of a task leaves in memory what all updates make of the job
that was registered, and in the row what the successful statements make of it; as long as no
statement has failed, the row is behind by at most the update whose statement is next.

The texts of times and states are those of their libraries and are parameters, `Formats`.
-/

namespace OrbitOpenEO
namespace Etl

open Lib Program

/-- A row of `orbit_jobs`, without the spec. -/
structure JobRow where
  id : String
  state : String
  rowsRead : Int
  rowsWritten : Int
  startedAt : String
  finishedAt : Option String
  error : Option String
deriving DecidableEq

/-- The texts of ids, states and times. -/
structure Formats where
  parseId : String → Except String String
  readState : String → Except String JobState
  formatTime : Nat → Option String
  parseTime : String → Except String Nat

/-- `serde_json::to_string` of a state. -/
def JobState.toJson : JobState → String
  | .pending => "\"Pending\""
  | .running => "\"Running\""
  | .completed => "\"Completed\""
  | .failed => "\"Failed\""
  | .cancelled => "\"Cancelled\""

/-- `as i64` of a `u64`. -/
def asI64 (n : Nat) : Int := if n < 2 ^ 63 then n else (n : Int) - 2 ^ 64

/-- `as u64` of an `i64`. -/
def asU64 (i : Int) : Nat := (i % 2 ^ 64).toNat

theorem asU64_asI64 {n : Nat} (h : n < 2 ^ 64) : asU64 (asI64 n) = n := by
  unfold asU64 asI64
  split <;> omega

/-- How `Engine::status` fails. -/
inductive StatusError where
  | jobNotFound (id : String)
  | internal (msg : String)
  | serde (msg : String)
deriving DecidableEq

namespace Formats

variable (fmt : Formats)

/-- A time in a row. -/
def timeText (t : Nat) : String := (fmt.formatTime t).getD ""

/-- A time of a row. -/
def readTime (s : String) : Except StatusError Nat :=
  (fmt.parseTime s).mapError fun e => .internal ("time parse: " ++ e)

/-- `row_to_status`. -/
def rowToStatus (row : JobRow) : Except StatusError JobStatus := do
  let id ← (fmt.parseId row.id).mapError .internal
  let state ← (fmt.readState row.state).mapError .serde
  let startedAt ← fmt.readTime row.startedAt
  let finishedAt ← row.finishedAt.mapM fmt.readTime
  pure ⟨id, state, asU64 row.rowsRead, asU64 row.rowsWritten, startedAt, finishedAt, row.error⟩

/-- The row that `run` inserts. -/
def firstRow (jobId : String) (startedAt : Nat) : JobRow :=
  ⟨jobId, JobState.pending.toJson, 0, 0, fmt.timeText startedAt, none, none⟩

/-- The `UPDATE` of a helper. -/
def writeUpdate (row : JobRow) : StatusUpdate → JobRow
  | .running => { row with state := JobState.running.toJson }
  | .progress rowsRead rowsWritten =>
      { row with rowsRead := asI64 rowsRead, rowsWritten := asI64 rowsWritten }
  | .completed rowsRead rowsWritten now =>
      { row with
        state := JobState.completed.toJson
        rowsRead := asI64 rowsRead
        rowsWritten := asI64 rowsWritten
        finishedAt := some (fmt.timeText now) }
  | .failed now err =>
      { row with
        state := JobState.failed.toJson
        finishedAt := some (fmt.timeText now)
        error := some err }
  | .cancelled now =>
      { row with
        state := JobState.cancelled.toJson
        finishedAt := some (fmt.timeText now)
        error := some "cancelled" }

/-- The text of a time gives the time back. -/
def KeepsTime (t : Nat) : Prop := ∃ s, fmt.formatTime t = some s ∧ fmt.parseTime s = .ok t

/-- The texts of the states, and of the id of a job, give these back. -/
structure Keeps (jobId : String) : Prop where
  id : fmt.parseId jobId = .ok jobId
  state : ∀ s : JobState, fmt.readState s.toJson = .ok s

/-- An update whose numbers fit into a row. -/
def Fits : StatusUpdate → Prop
  | .running => True
  | .progress rowsRead rowsWritten => rowsRead < 2 ^ 64 ∧ rowsWritten < 2 ^ 64
  | .completed rowsRead rowsWritten now =>
      rowsRead < 2 ^ 64 ∧ rowsWritten < 2 ^ 64 ∧ fmt.KeepsTime now
  | .failed now _ => fmt.KeepsTime now
  | .cancelled now => fmt.KeepsTime now

variable {fmt}

theorem readTime_timeText {t : Nat} (h : fmt.KeepsTime t) :
    fmt.readTime (fmt.timeText t) = .ok t := by
  obtain ⟨s, hformat, hparse⟩ := h
  simp [readTime, timeText, hformat, hparse, Except.mapError]

/-- The parts of a row that can be read. -/
structure Reads (fmt : Formats) (row : JobRow) (s : JobStatus) : Prop where
  id : fmt.parseId row.id = .ok s.id
  state : fmt.readState row.state = .ok s.state
  rowsRead : asU64 row.rowsRead = s.rowsRead
  rowsWritten : asU64 row.rowsWritten = s.rowsWritten
  startedAt : fmt.readTime row.startedAt = .ok s.startedAt
  finishedAt : row.finishedAt.mapM fmt.readTime = .ok s.finishedAt
  error : row.error = s.error

/-- A row is read part by part. -/
theorem rowToStatus_of_reads {row : JobRow} {s : JobStatus} (h : Reads fmt row s) :
    fmt.rowToStatus row = .ok s := by
  obtain ⟨hid, hstate, hread, hwritten, hstarted, hfinished, herror⟩ := h
  simp only [rowToStatus, hid, hstate, hstarted, hread, hwritten, hfinished, herror,
    Except.mapError]
  rfl

theorem reads_firstRow {jobId : String} {startedAt : Nat} (hkeeps : fmt.Keeps jobId)
    (htime : fmt.KeepsTime startedAt) :
    Reads fmt (fmt.firstRow jobId startedAt) (Engine.pendingStatus jobId startedAt) where
  id := hkeeps.id
  state := hkeeps.state .pending
  rowsRead := rfl
  rowsWritten := rfl
  startedAt := readTime_timeText htime
  finishedAt := rfl
  error := rfl

/-- A statement does to the row what its update does to the status. -/
theorem Reads.write {jobId : String} {row : JobRow} {s : JobStatus} {u : StatusUpdate}
    (hkeeps : fmt.Keeps jobId) (hu : fmt.Fits u) (h : Reads fmt row s) :
    Reads fmt (fmt.writeUpdate row u) (u.apply s) := by
  have hfinished : ∀ {now : Nat}, fmt.KeepsTime now →
      (some (fmt.timeText now)).mapM fmt.readTime = .ok (some now) := by
    intro now hnow
    rw [Option.mapM_some, readTime_timeText hnow]
    rfl
  cases u with
  | running => exact { h with state := hkeeps.state .running }
  | progress rowsRead rowsWritten =>
      exact { h with rowsRead := asU64_asI64 hu.1, rowsWritten := asU64_asI64 hu.2 }
  | completed rowsRead rowsWritten now =>
      exact { h with
        state := hkeeps.state .completed
        rowsRead := asU64_asI64 hu.1
        rowsWritten := asU64_asI64 hu.2.1
        finishedAt := hfinished hu.2.2 }
  | failed now err =>
      exact { h with state := hkeeps.state .failed, finishedAt := hfinished hu, error := rfl }
  | cancelled now =>
      exact { h with state := hkeeps.state .cancelled, finishedAt := hfinished hu, error := rfl }

end Formats

/-- `Engine::status`: the map first, then the table. -/
def Engine.status (fmt : Formats) (engine : Engine) (rows : String → Option JobRow)
    (jobId : String) : Except StatusError JobStatus :=
  match engine.jobs.get jobId with
  | some s => .ok s
  | none =>
      match rows jobId with
      | some row => fmt.rowToStatus row
      | none => .error (.jobNotFound jobId)

/-- The updates recorded in memory, those whose statement has succeeded, and whether one has
failed. -/
structure Log where
  recorded : List StatusUpdate
  persisted : List StatusUpdate
  lost : Bool

/-- The account after a request. -/
def Log.after (l : Log) : (q : Request) → Reply q → Log
  | .update u, _ => { l with recorded := l.recorded ++ [u] }
  | .execute (.updateJob u), .ok () => { l with persisted := l.persisted ++ [u] }
  | .execute (.updateJob _), .error _ => { l with lost := true }
  | _, _ => l

/-- The update whose statement a request is. -/
def inFlight : Request → List StatusUpdate
  | .execute (.updateJob u) => [u]
  | _ => []

/-- The update whose statement a program makes next. -/
def upcoming {α : Type} : Program Reply α → List StatusUpdate
  | .done _ => []
  | .call q _ => inFlight q

/-- What becomes of the job that was registered. -/
def replay (jobId : String) (startedAt : Nat) (us : List StatusUpdate) : JobStatus :=
  us.foldl (fun s u => u.apply s) (Engine.pendingStatus jobId startedAt)

section Account

variable (fmt : Formats) (jobId : String)

/-- The numbers of the surroundings: the clock gives times that can be written down, a frame has
less than `2 ^ 64` rows. -/
def Regular : (q : Request) → Reply q → Prop
  | .now, t => fmt.KeepsTime t
  | .query _, .ok df => df.height < 2 ^ 64
  | _, _ => True

/-- The row after a request; a statement that fails leaves it. -/
def rowAfter (row : JobRow) : (q : Request) → Reply q → JobRow
  | .execute (.updateJob u), .ok () => fmt.writeUpdate row u
  | _, _ => row

/-- A world with the row of the job, and the account. -/
structure Durable where
  world : World
  row : JobRow
  log : Log

/-- What a request of the task does. -/
def durableAct (s : Durable) (q : Request) (r : Reply q) (t : Durable) : Prop :=
  act jobId s.world q r t.world ∧ Regular fmt q r ∧ t.row = rowAfter fmt s.row q r ∧
    t.log = s.log.after q r

/-- The others leave the row alone. -/
def durableEnv (s : Durable) (e : Others) (t : Durable) : Prop :=
  env jobId s.world e t.world ∧ t.row = s.row ∧ t.log = s.log

/-- The job that `run` has registered and inserted. -/
def registered (engine : Engine) (startedAt : Nat) : Durable where
  world := ⟨engine.register jobId startedAt, [], none, false⟩
  row := fmt.firstRow jobId startedAt
  log := ⟨[], [], false⟩

/-- Memory is ahead of the row by `us`, unless a statement has failed. -/
structure Log.Ahead (l : Log) (us : List StatusUpdate) : Prop where
  recorded : ∀ u ∈ l.recorded, fmt.Fits u
  persisted : ∀ u ∈ l.persisted, fmt.Fits u
  even : l.lost = false → l.recorded = l.persisted ++ us

/-- What a request does to the account. -/
def logAct (l : Log) (q : Request) (r : Reply q) (t : Log) : Prop :=
  Regular fmt q r ∧ t = l.after q r

/-- The requests are made when memory is ahead by their own update. -/
def Due (l : Log) (q : Request) : Prop := l.Ahead fmt (inFlight q)

/-- A task that starts even ends even. -/
def Tidy {α : Type} (Q : α → Prop) (p : Task α) : Prop :=
  ∀ l : Log, l.Ahead fmt [] →
    safeTry (logAct fmt) (Due fmt) (fun a t => Q a ∧ t.Ahead fmt []) (fun _ t => t.Ahead fmt []) p l

end Account

section Tasks

variable {fmt : Formats} {jobId : String}

theorem Tidy.bind {α β : Type} {Q : α → Prop} {Q' : β → Prop} {p : Task α} {f : α → Task β}
    (h : Tidy fmt Q p) (hf : ∀ a, Q a → Tidy fmt Q' (f a)) : Tidy fmt Q' (p >>= f) :=
  fun l hl => safeTry_bind (h l hl) fun a t ht => hf a ht.1 t ht.2

theorem tidy_pure {α : Type} {Q : α → Prop} {a : α} (h : Q a) : Tidy fmt Q (pure a) :=
  fun _ hl => safeTry_pure ⟨h, hl⟩

/-- A request that leaves the account alone. -/
theorem tidy_ask {q : Request} {Q : Reply q → Prop} (hflight : inFlight q = [])
    (hafter : ∀ (l : Log) r, l.after q r = l) (hQ : ∀ r, Regular fmt q r → Q r) :
    Tidy fmt Q (ask q) := by
  intro l hl
  refine ⟨by rwa [Due, hflight], ?_⟩
  rintro r t ⟨hr, rfl⟩
  rw [hafter]
  exact ⟨hQ r hr, hl⟩

/-- So does a statement that updates nothing. -/
theorem tidy_execute {stmt : Statement} (hflight : inFlight (.execute stmt) = [])
    (hafter : ∀ (l : Log) r, l.after (.execute stmt) r = l) :
    Tidy fmt (fun _ => True) (execute stmt) := by
  intro l hl
  refine ⟨by rwa [Due, hflight], ?_⟩
  rintro r t ⟨-, rfl⟩
  rw [hafter]
  cases r with
  | ok u => exact ⟨trivial, hl⟩
  | error e => exact hl

theorem tidy_insert (stmt : InsertRows) :
    Tidy fmt (fun n => n ≤ stmt.rows.length) (insert stmt) := by
  intro l hl
  refine ⟨hl, ?_⟩
  rintro (e | n) t ⟨-, rfl⟩
  · exact hl
  · exact ⟨Nat.le_of_lt_succ n.isLt, hl⟩

theorem tidy_readSource (spec : PipelineSpec) : Tidy fmt (fun _ => True) (readSource spec) := by
  intro l hl
  refine ⟨hl, ?_⟩
  rintro (e | u) t ⟨-, rfl⟩
  · exact hl
  · exact ⟨trivial, hl⟩

theorem tidy_collect (spec : PipelineSpec) :
    Tidy fmt (fun df => df.height < 2 ^ 64) (collect spec) := by
  intro l hl
  refine ⟨hl, ?_⟩
  rintro (e | df) t ⟨hr, rfl⟩
  · exact hl
  · exact ⟨hr, hl⟩

theorem tidy_check {α : Type} (x : Except Error α) : Tidy fmt (fun _ => True) (check x) := by
  intro l hl
  cases x with
  | ok a => exact ⟨trivial, hl⟩
  | error e => exact hl

/-- The two halves of a record. -/
theorem tidy_record {u : StatusUpdate} (hu : fmt.Fits u) :
    Tidy fmt (fun _ => True) (record u) := by
  intro l hl
  refine ⟨hl, ?_⟩
  rintro ⟨⟩ t ⟨-, rfl⟩
  have hrecorded : ∀ v ∈ l.recorded ++ [u], fmt.Fits v := by
    intro v hv
    rcases List.mem_append.mp hv with hv | hv
    · exact hl.recorded v hv
    · rwa [List.mem_singleton.mp hv]
  have hpersisted : ∀ v ∈ l.persisted ++ [u], fmt.Fits v := by
    intro v hv
    rcases List.mem_append.mp hv with hv | hv
    · exact hl.persisted v hv
    · rwa [List.mem_singleton.mp hv]
  have heven : l.lost = false → l.recorded ++ [u] = l.persisted ++ [u] := by
    intro hlost
    rw [hl.even hlost, List.append_nil]
  refine ⟨⟨hrecorded, hl.persisted, heven⟩, ?_⟩
  rintro (e | ⟨⟩) t ⟨-, rfl⟩
  · exact ⟨hrecorded, hl.persisted, nofun⟩
  · refine ⟨trivial, hrecorded, hpersisted, fun hlost => ?_⟩
    rw [List.append_nil]
    exact heven hlost

theorem tidy_poll {Q : Bool → Prop} (hQ : ∀ r, Q r) : Tidy fmt Q poll :=
  tidy_ask rfl (fun _ _ => rfl) fun r _ => hQ r

theorem tidy_send (e : Event) : Tidy fmt (fun _ => True) (send e) :=
  tidy_ask rfl (fun _ _ => rfl) fun _ _ => trivial

theorem tidy_stopIfCancelled : Tidy fmt (fun _ => True) stopIfCancelled := by
  refine Tidy.bind (tidy_poll fun _ => trivial) fun raised _ l hl => ?_
  cases raised with
  | true => exact hl
  | false => exact ⟨trivial, hl⟩

/-- The time of a mark can be written down. -/
theorem tidy_mark {u : Nat → StatusUpdate} (hu : ∀ now, fmt.KeepsTime now → fmt.Fits (u now)) :
    Tidy fmt (fun _ => True) (clock >>= fun now => record (u now)) :=
  Tidy.bind (tidy_ask (Q := fmt.KeepsTime) rfl (fun _ _ => rfl) fun _ h => h)
    fun now hnow => tidy_record (hu now hnow)

variable {host : Host} {ops : FloatOps}

theorem tidy_insertStatements {table : String} {df : DataFrame} {doNothing : Bool} {batch : Nat} :
    ∀ (starts : List Nat) (total : Nat), Fits df.height batch total starts →
      Tidy fmt (fun n => n ≤ df.height)
        (insertStatements ops table df doNothing batch starts total)
  | [], total, hfits => tidy_pure hfits
  | start :: starts, total, hfits => by
      refine Tidy.bind (tidy_insert _) fun n hn => ?_
      have hrows : n ≤ min batch (df.height - start) := by
        simpa [DataFrame.slice, DataFrame.height] using hn
      exact tidy_insertStatements starts (total + n) (hfits.2.2.mono (Nat.add_le_add hfits.1 hrows))

theorem tidy_insertChunk (table : String) (df : DataFrame) (dedupe : Option String) :
    Tidy fmt (fun n => n ≤ df.height) (insertChunk host ops table df dedupe) := by
  unfold insertChunk
  split
  · exact tidy_pure (Nat.zero_le _)
  · refine Tidy.bind (tidy_check _) fun _ _ => ?_
    refine Tidy.bind (tidy_execute rfl fun _ _ => rfl) fun _ _ => ?_
    refine Tidy.bind (tidy_insertStatements _ 0
      (fits_stepBy (Nat.lt_of_lt_of_le Nat.zero_lt_one (Nat.le_max_right _ _)) _)) fun n hn => ?_
    exact Tidy.bind (tidy_execute rfl fun _ _ => rfl) fun _ _ => tidy_pure hn

/-- The loop over the batches counts no more rows than there are. -/
theorem tidy_insertBatches (jobId : String) (spec : PipelineSpec) {df : DataFrame} {batch : Nat}
    (hheight : df.height < 2 ^ 64) :
    ∀ (starts : List Nat) (written : Nat), Fits df.height batch written starts →
      Tidy fmt (fun n => n ≤ df.height)
        (insertBatches host ops jobId spec df batch starts written)
  | [], written, hfits => tidy_pure hfits
  | start :: starts, written, hfits => by
      refine Tidy.bind tidy_stopIfCancelled fun _ _ => ?_
      refine Tidy.bind (tidy_insertChunk _ _ _) fun n hn => ?_
      have hchunk : n ≤ min batch (df.height - start) := by
        refine le_trans hn ?_
        simp only [DataFrame.slice, DataFrame.height, List.length_take]
        exact Nat.min_le_left _ _
      have hmore : written + n ≤ start + min batch (df.height - start) :=
        Nat.add_le_add hfits.1 hchunk
      have hwritten : written + n < 2 ^ 64 := by
        have := hfits.2.1
        omega
      refine Tidy.bind (tidy_record ⟨hheight, hwritten⟩) fun _ _ => ?_
      refine Tidy.bind (tidy_send _) fun _ _ => ?_
      exact tidy_insertBatches jobId spec hheight starts (written + n) (hfits.2.2.mono hmore)

theorem tidy_load (jobId : String) (spec : PipelineSpec) {df : DataFrame}
    (hheight : df.height < 2 ^ 64) : Tidy fmt (fun _ => True) (load host ops jobId spec df) := by
  have hbatch : 0 < max spec.batchSize 1 := Nat.lt_of_lt_of_le Nat.zero_lt_one (Nat.le_max_right _ _)
  refine Tidy.bind (Tidy.bind (tidy_check _) fun _ _ => tidy_execute rfl fun _ _ => rfl)
    fun _ _ => ?_
  refine Tidy.bind tidy_stopIfCancelled fun _ _ => ?_
  refine Tidy.bind (tidy_insertBatches jobId spec hheight _ 0 (fits_stepBy hbatch _)) fun n hn => ?_
  refine Tidy.bind (tidy_mark fun now hnow => ⟨hheight, ?_, hnow⟩) fun _ _ => tidy_send _
  exact Nat.lt_of_le_of_lt hn hheight

theorem tidy_executeJob (jobId : String) (spec : PipelineSpec) :
    Tidy fmt (fun _ => True) (executeJob host ops jobId spec) := by
  refine Tidy.bind (tidy_record trivial) fun _ _ => ?_
  refine Tidy.bind (tidy_send _) fun _ _ => ?_
  refine Tidy.bind (tidy_readSource spec) fun _ _ => ?_
  exact Tidy.bind (tidy_collect spec) fun df hheight => tidy_load jobId spec hheight

/-- What a task does to the account. -/
theorem safe_task (host : Host) (ops : FloatOps) (jobId : String) (spec : PipelineSpec) {l : Log}
    (hl : l.Ahead fmt []) :
    safe (logAct fmt) (Due fmt) (fun _ t => t.Ahead fmt []) (task host ops jobId spec) l := by
  have hask : ∀ {q : Request} {l : Log}, inFlight q = [] → (∀ (l : Log) r, l.after q r = l) →
      l.Ahead fmt [] →
      safe (logAct fmt) (Due fmt) (fun _ t => t.Ahead fmt []) (exchange q) l := by
    intro q l hflight hafter hl
    refine safe_request (by rwa [Due, hflight]) ?_
    rintro r t ⟨-, rfl⟩
    rwa [hafter]
  have hrun : ∀ {α : Type} {p : Task α} {l : Log}, Tidy fmt (fun _ => True) p → l.Ahead fmt [] →
      safe (logAct fmt) (Due fmt) (fun _ t => t.Ahead fmt []) p.run l := by
    intro α p l hp hl
    refine safe_mono (fun x t hx => ?_) (hp l hl)
    cases x with
    | ok a => exact hx.2
    | error e => exact hx
  refine safe_bind (fun result t ht => safe_bind (fun _ t ht => ?_)
    (hask rfl (fun _ _ => rfl) ht)) (hrun (tidy_executeJob jobId spec) hl)
  cases result with
  | ok u => exact ht
  | error e =>
      cases e with
      | cancelled =>
          refine safe_bind (fun snapshot t ht => ?_) (hask (q := .counts) rfl (fun _ _ => rfl) ht)
          refine safe_bind (fun _ t ht => ?_) (hrun (tidy_mark (u := .cancelled) fun _ h => h) ht)
          exact hask (q := .send _) rfl (fun _ _ => rfl) ht
      | _ =>
          refine safe_bind (fun _ t ht => ?_)
            (hrun (tidy_mark (u := fun now => .failed now _) fun _ h => h) ht)
          exact hask (q := .send _) rfl (fun _ _ => rfl) ht

end Tasks

section Runs

variable {fmt : Formats} {jobId : String} {startedAt : Nat}

/-- Memory and the row are what the two accounts make of the job. -/
structure Accounts (fmt : Formats) (jobId : String) (startedAt : Nat) (s : Durable) : Prop where
  memory : s.world.engine.jobs.get jobId = some (replay jobId startedAt s.log.recorded)
  row : s.row = s.log.persisted.foldl fmt.writeUpdate (fmt.firstRow jobId startedAt)

theorem accounts_registered (engine : Engine) :
    Accounts fmt jobId startedAt (registered fmt jobId engine startedAt) :=
  ⟨BTreeMap.get_insert_self _ _ _, rfl⟩

/-- Only an update touches the status in memory. -/
theorem get_act {s t : World} {q : Request} {r : Reply q} (h : act jobId s q r t)
    (hq : ∀ u, q ≠ .update u) : t.engine.jobs.get jobId = s.engine.jobs.get jobId := by
  cases q with
  | update u => exact absurd rfl (hq u)
  | counts =>
      obtain ⟨rfl, -⟩ := h
      rfl
  | poll =>
      obtain ⟨rfl, -⟩ := h
      rfl
  | _ =>
      cases h
      rfl

theorem replay_append (us : List StatusUpdate) (u : StatusUpdate) :
    replay jobId startedAt (us ++ [u]) = u.apply (replay jobId startedAt us) := by
  unfold replay
  rw [List.foldl_append]
  rfl

theorem Accounts.act {s t : Durable} {q : Request} {r : Reply q}
    (h : Accounts fmt jobId startedAt s) (hact : durableAct fmt jobId s q r t) :
    Accounts fmt jobId startedAt t := by
  obtain ⟨hworld, -, hrow, hlog⟩ := hact
  obtain ⟨hmemory, hbefore⟩ := h
  cases q with
  | update u =>
      have hget : t.world.engine.jobs.get jobId =
          (s.world.engine.jobs.get jobId).map u.apply := by
        rw [show t.world = _ from hworld]
        exact get_updateJob _ _ _
      refine ⟨?_, ?_⟩
      · rw [hget, hmemory, hlog]
        exact congrArg some (replay_append _ _).symm
      · rw [hrow, hlog]
        exact hbefore
  | execute stmt =>
      have hget := get_act hworld nofun
      refine ⟨?_, ?_⟩
      · rw [hget, hmemory, hlog]
        cases stmt with
        | updateJob u => cases r <;> rfl
        | _ => rfl
      · rw [hrow, hlog]
        cases stmt with
        | updateJob u =>
            cases r with
            | ok v =>
                change fmt.writeUpdate s.row u = (s.log.persisted ++ [u]).foldl _ _
                rw [List.foldl_append, ← hbefore]
                rfl
            | error e => exact hbefore
        | _ => exact hbefore
  | _ =>
      have hget := get_act hworld nofun
      refine ⟨?_, ?_⟩
      · rw [hget, hmemory, hlog]
        rfl
      · rw [hrow, hlog]
        exact hbefore

theorem Accounts.env {s t : Durable} {e : Others} (h : Accounts fmt jobId startedAt s)
    (henv : durableEnv jobId s e t) : Accounts fmt jobId startedAt t := by
  obtain ⟨hworld, hrow, hlog⟩ := henv
  have hview := congrArg View.status (view_env hworld)
  refine ⟨?_, ?_⟩
  · rw [hlog, ← h.memory]
    exact hview
  · rw [hrow, hlog]
    exact h.row

/-- The row is read as what the statements make of the job. -/
theorem rowToStatus_foldl (hkeeps : fmt.Keeps jobId) (htime : fmt.KeepsTime startedAt)
    {us : List StatusUpdate} (hus : ∀ u ∈ us, fmt.Fits u) :
    fmt.rowToStatus (us.foldl fmt.writeUpdate (fmt.firstRow jobId startedAt)) =
      .ok (replay jobId startedAt us) := by
  have hreads : ∀ (us : List StatusUpdate) (row : JobRow) (s : JobStatus),
      (∀ u ∈ us, fmt.Fits u) → fmt.Reads row s →
      fmt.Reads (us.foldl fmt.writeUpdate row) (us.foldl (fun s u => u.apply s) s) := by
    intro us
    induction us with
    | nil => exact fun _ _ _ h => h
    | cons u us ih =>
        intro row s hus h
        obtain ⟨hu, hus⟩ := List.forall_mem_cons.mp hus
        exact ih _ _ hus (h.write hkeeps hu)
  exact Formats.rowToStatus_of_reads
    (hreads us _ _ hus (Formats.reads_firstRow hkeeps htime))

theorem Log.Ahead.of_due {α : Type} {p : Program Reply α} {l : Log}
    (h : safe (logAct fmt) (Due fmt) (fun _ t => t.Ahead fmt []) p l) :
    l.Ahead fmt (upcoming p) := by
  cases p with
  | done a => exact h
  | call q next => exact h.1

/-- At every moment of a job, beside whatever the others do: the engine reports the job after
all updates that the task has made, and an engine opened again on the same database reports it
after those whose statement has succeeded.  As long as none has failed these are the same, but
for an update whose statement is the next request. -/
theorem status_after_restart (host : Host) (ops : FloatOps) (spec : PipelineSpec)
    (engine : Engine) {ls : List (Label Reply Others)} {p : Program Reply Unit} {s : Durable}
    (hkeeps : fmt.Keeps jobId) (htime : fmt.KeepsTime startedAt)
    (hrun : Runs (durableAct fmt jobId) (durableEnv jobId) (task host ops jobId spec)
      (registered fmt jobId engine startedAt) ls p s)
    (rows : String → Option JobRow) (hrows : rows jobId = some s.row) :
    s.world.engine.status fmt rows jobId = .ok (replay jobId startedAt s.log.recorded) ∧
      Engine.opened.status fmt rows jobId = .ok (replay jobId startedAt s.log.persisted) ∧
      (s.log.lost = false → s.log.recorded = s.log.persisted ++ upcoming p) := by
  have haccounts : Accounts fmt jobId startedAt s :=
    hrun.invariant (accounts_registered engine) (fun _ _ _ _ h hact => h.act hact)
      fun _ _ _ h henv => h.env henv
  have hstart : (registered fmt jobId engine startedAt).log.Ahead fmt [] :=
    ⟨nofun, nofun, fun _ => rfl⟩
  have hlog : ∀ (s : Durable) (q : Request) (r : Reply q) (t : Durable),
      durableAct fmt jobId s q r t → logAct fmt s.log q r t.log :=
    fun _ _ _ _ hact => ⟨hact.2.1, hact.2.2.2⟩
  have hsafe := hrun.safe Durable.log hlog (fun _ _ _ henv => henv.2.2)
    (safe_task host ops jobId spec hstart)
  have hahead := Log.Ahead.of_due hsafe
  refine ⟨?_, ?_, hahead.even⟩
  · unfold Engine.status
    rw [haccounts.memory]
  · have hnone : Engine.opened.jobs.get jobId = none := rfl
    unfold Engine.status
    rw [hnone, hrows]
    change fmt.rowToStatus s.row = _
    rw [haccounts.row]
    exact rowToStatus_foldl hkeeps htime hahead.persisted

/-- The texts of the epoch. -/
def epochFormats : Formats where
  parseId id := .ok id
  readState s :=
    match [JobState.pending, .running, .completed, .failed, .cancelled].find? fun state =>
      state.toJson == s with
    | some state => .ok state
    | none => .error "unknown variant"
  formatTime t := if t = 0 then some "1970-01-01T00:00:00Z" else none
  parseTime s := if s = "1970-01-01T00:00:00Z" then .ok 0 else .error "invalid time"

theorem keeps_epochFormats (jobId : String) : epochFormats.Keeps jobId where
  id := rfl
  state s := by cases s <;> rfl

theorem keepsTime_epoch : epochFormats.KeepsTime 0 := ⟨_, rfl, rfl⟩

/-- The surroundings without others, with the row. -/
def durableScript (jobId : String) (refuse : Statement → Option String) (df : DataFrame)
    (s : Durable) (q : Request) : Reply q × Durable :=
  let out := script jobId refuse df s.world q
  (out.1, ⟨out.2, rowAfter epochFormats s.row q out.1, s.log.after q out.1⟩)

theorem durableAct_script (jobId : String) (refuse : Statement → Option String) {df : DataFrame}
    (hdf : df.height < 2 ^ 64) (s : Durable) (q : Request) :
    durableAct epochFormats jobId s q (durableScript jobId refuse df s q).1
      (durableScript jobId refuse df s q).2 := by
  refine ⟨act_script s.world q, ?_, rfl, rfl⟩
  cases q with
  | now => exact keepsTime_epoch
  | query sql => exact hdf
  | execute stmt => exact trivial
  | _ => exact trivial

/-- A frame of one row. -/
def sampleFrame : DataFrame := ⟨[("n", .integer)], [[.int 1]]⟩

theorem status_after_restart_sample :
    ∃ ls s, Runs (durableAct epochFormats "j") (durableEnv "j")
        (task Engine.sampleHost .exact "j" Engine.sampleSpec)
        (registered epochFormats "j" Engine.opened 0) ls (.done ()) s ∧
      Engine.opened.status epochFormats (fun _ => some s.row) "j" =
        s.world.engine.status epochFormats (fun _ => some s.row) "j" := by
  obtain ⟨ls, hrun⟩ := exists_runs_follow (durableEnv "j")
    (durableAct_script "j" (fun _ => none) (show sampleFrame.height < 2 ^ 64 by decide))
    (task Engine.sampleHost .exact "j" Engine.sampleSpec)
    (registered epochFormats "j" Engine.opened 0)
  obtain ⟨hmemory, hrow, heven⟩ := status_after_restart _ _ _ _ (keeps_epochFormats "j")
    keepsTime_epoch hrun (fun _ => some _) rfl
  refine ⟨ls, _, hrun, ?_⟩
  rw [hmemory, hrow, heven rfl]
  exact congrArg (fun us => Except.ok (replay "j" 0 us)) (List.append_nil _).symm

end Runs

end Etl
end OrbitOpenEO
