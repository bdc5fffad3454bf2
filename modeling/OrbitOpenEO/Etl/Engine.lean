import OrbitOpenEO.Json
import OrbitOpenEO.MapUpdate
import OrbitOpenEO.Lib.Interleaving
import Mathlib.Algebra.Ring.Int.Defs

/-!
# The pipeline engine

`Engine::run` checks a spec, registers a job and spawns a task for it.  The task is a
program: it reads the source, queries it, inserts the rows batch by batch, and records on
the way what has become of the job, in memory first and then in the database.

The engine's maps are shared by all jobs.  The flag of a job is named by its id, and
`cancels` holds the ids whose flag can be reached from outside.
-/

namespace OrbitOpenEO
namespace Etl

open Lib Program

/-- `JobState`. -/
inductive JobState where
  | pending
  | running
  | completed
  | failed
  | cancelled
deriving DecidableEq

/-- `JobState::is_terminal`. -/
def JobState.isTerminal : JobState → Bool
  | .pending => false
  | .running => false
  | .completed => true
  | .failed => true
  | .cancelled => true

/-- `JobStatus`. -/
structure JobStatus where
  id : String
  state : JobState
  rowsRead : Nat
  rowsWritten : Nat
  startedAt : Nat
  finishedAt : Option Nat
  error : Option String
deriving DecidableEq

/-- `Error`. -/
inductive Error where
  | invalidSpec (msg : String)
  | sourceNotFound (path : String)
  | polars (msg : String)
  | sql (msg : String)
  | io (msg : String)
  | serde (msg : String)
  | internal (msg : String)
  | timeout (duration : String)
  | cancelled
deriving DecidableEq

/-- `Error::to_string`. -/
def Error.toString : Error → String
  | .invalidSpec msg => "invalid pipeline spec: " ++ msg
  | .sourceNotFound path => "source file not found: " ++ path
  | .polars msg => "polars error: " ++ msg
  | .sql msg => "sql error: " ++ msg
  | .io msg => "io error: " ++ msg
  | .serde msg => "serialization error: " ++ msg
  | .internal msg => "internal: " ++ msg
  | .timeout duration => "operation timed out after " ++ duration
  | .cancelled => "job cancelled"

/-- `Event`. -/
inductive Event where
  | started (jobId : String)
  | progress (jobId : String) (rowsRead rowsWritten : Nat)
  | completed (jobId : String) (rowsRead rowsWritten : Nat)
  | failed (jobId : String) (error : String)
  | cancelled (jobId : String) (rowsRead rowsWritten : Nat)
deriving DecidableEq

/-- The bytes of a path. -/
abbrev Path := List UInt8

/-- `FileFormat`. -/
inductive FileFormat where
  | csv
  | parquet
  | json
deriving DecidableEq

/-- `FileSource`. -/
structure FileSource where
  path : Path
  format : FileFormat
  hasHeader : Bool
  delimiter : String
deriving DecidableEq

/-- `PipelineSpec`. -/
structure PipelineSpec where
  source : FileSource
  destinationTable : String
  sqlTransform : Option String
  dedupeColumn : Option String
  batchSize : Nat
deriving DecidableEq

/-- A cell of a data frame, as far as `anyvalue_to_json` tells cells apart. -/
inductive AnyValue where
  | null
  | boolean (b : Bool)
  | string (s : String)
  | int (i : Int)
  | float (x : F64)
  | other (text : String)
deriving DecidableEq

/-- `DataType`, as far as `polars_dtype_to_sqlite` tells types apart. -/
inductive DataType where
  | boolean
  | integer
  | float
  | string
  | other
deriving DecidableEq

/-- A data frame by rows. -/
structure DataFrame where
  columns : List (String × DataType)
  rows : List (List AnyValue)
deriving DecidableEq

namespace DataFrame

/-- `DataFrame::height`. -/
def height (df : DataFrame) : Nat := df.rows.length

/-- `DataFrame::slice`. -/
def slice (df : DataFrame) (offset length : Nat) : DataFrame :=
  { df with rows := (df.rows.drop offset).take length }

end DataFrame

/-- What the checks and messages need of the host. -/
structure Host where
  pathExists : Path → Bool
  canonicalize : Path → Except String Path
  display : Path → String
  debug : Path → String
  debugText : String → String
  serialize : PipelineSpec → Except String String

/-- The characters of an identifier after the first. -/
def isIdentifierTail (c : Char) : Bool := c.isAlphanum || c == '_'

/-- `validate_sql_identifier`. -/
def validateSqlIdentifier (host : Host) (name context : String) : Except Error Unit :=
  match name.toList with
  | [] => .error (.invalidSpec (context ++ " is empty"))
  | first :: tail =>
      if (first.isAlpha || first == '_') && tail.all isIdentifierTail then .ok ()
      else
        .error (.invalidSpec
          (context ++ " must match [A-Za-z_][A-Za-z0-9_]*: got " ++ host.debugText name))

/-- `PipelineSpec::validate`. -/
def PipelineSpec.validate (host : Host) (spec : PipelineSpec) : Except Error Unit :=
  if spec.destinationTable.isEmpty then
    .error (.invalidSpec "destination_table is empty")
  else
    match validateSqlIdentifier host spec.destinationTable "destination_table" with
    | .error e => .error e
    | .ok () =>
        if host.pathExists spec.source.path then .ok ()
        else .error (.sourceNotFound (host.display spec.source.path))

/-- The components of a canonical path. -/
def pathComponents (path : Path) : List (List UInt8) :=
  (path.splitOn ('/'.toNat.toUInt8)).filter fun c => !c.isEmpty

/-- `validate_path_under_root`, without the path that it returns. -/
def validatePathUnderRoot (host : Host) (path root : Path) : Except Error Unit :=
  match host.canonicalize root with
  | .error e =>
      .error (.invalidSpec ("data_root " ++ host.debug root ++ " does not exist: " ++ e))
  | .ok canonRoot =>
      match host.canonicalize path with
      | .error e =>
          .error (.invalidSpec
            ("source path " ++ host.debug path ++ " cannot be resolved: " ++ e))
      | .ok canonPath =>
          if (pathComponents canonRoot).isPrefixOf (pathComponents canonPath) then .ok ()
          else
            .error (.invalidSpec
              ("source path " ++ host.debug canonPath ++ " escapes data_root " ++
                host.debug canonRoot))

/-- The two checks at the beginning of `run`. -/
def checkSpec (host : Host) (dataRoot : Option Path) (spec : PipelineSpec) : Except Error Unit :=
  match spec.validate host with
  | .error e => .error e
  | .ok () =>
      match dataRoot with
      | some root => validatePathUnderRoot host spec.source.path root
      | none => .ok ()

/-- What a helper writes about a job, in memory and in `orbit_jobs`. -/
inductive StatusUpdate where
  | running
  | progress (rowsRead rowsWritten : Nat)
  | completed (rowsRead rowsWritten now : Nat)
  | failed (now : Nat) (err : String)
  | cancelled (now : Nat)
deriving DecidableEq

/-- The update of the status in memory. -/
def StatusUpdate.apply (u : StatusUpdate) (s : JobStatus) : JobStatus :=
  match u with
  | .running => { s with state := .running }
  | .progress rowsRead rowsWritten => { s with rowsRead := rowsRead, rowsWritten := rowsWritten }
  | .completed rowsRead rowsWritten now =>
      { s with
        state := .completed
        rowsRead := rowsRead
        rowsWritten := rowsWritten
        finishedAt := some now }
  | .failed now err => { s with state := .failed, finishedAt := some now, error := some err }
  | .cancelled now =>
      { s with state := .cancelled, finishedAt := some now, error := some "cancelled" }

/-- `Engine`: its `jobs`, its `cancels` and the flags. -/
structure Engine where
  jobs : BTreeMap JobStatus
  cancels : BTreeMap Unit
  flags : String → Bool

namespace Engine

/-- `jobs.get_mut` and an update. -/
def updateJob (engine : Engine) (jobId : String) (u : StatusUpdate) : Engine :=
  match engine.jobs.get jobId with
  | some s => { engine with jobs := engine.jobs.insert jobId (u.apply s) }
  | none => engine

/-- The row counts of a job in memory. -/
def counts (engine : Engine) (jobId : String) : Nat × Nat :=
  ((engine.jobs.get jobId).map fun s => (s.rowsRead, s.rowsWritten)).getD (0, 0)

/-- `Engine::cancel_job`. -/
def cancelJob (engine : Engine) (jobId : String) : Bool × Engine :=
  match engine.cancels.get jobId with
  | some () => (true, { engine with flags := Function.update engine.flags jobId true })
  | none => (false, engine)

/-- The status of a job that has just been registered. -/
def pendingStatus (jobId : String) (startedAt : Nat) : JobStatus :=
  ⟨jobId, .pending, 0, 0, startedAt, none, none⟩

/-- The registration of a job in `run`. -/
def register (engine : Engine) (jobId : String) (startedAt : Nat) : Engine where
  jobs := engine.jobs.insert jobId (pendingStatus jobId startedAt)
  cancels := engine.cancels.insert jobId ()
  flags := Function.update engine.flags jobId false

/-- `Engine::run` up to the spawn, with the new id, the time and the answer to the
`INSERT INTO orbit_jobs`. -/
def run (host : Host) (dataRoot : Option Path) (engine : Engine) (spec : PipelineSpec)
    (jobId : String) (startedAt : Nat) (inserted : Except String Unit) :
    Except Error String × Engine :=
  match checkSpec host dataRoot spec with
  | .error e => (.error e, engine)
  | .ok () =>
      let engine := engine.register jobId startedAt
      match host.serialize spec with
      | .error e => (.error (.serde e), engine)
      | .ok _ =>
          match inserted with
          | .error e => (.error (.sql e), engine)
          | .ok () => (.ok jobId, engine)

end Engine

/-- The value that `bind_json_value` binds. -/
inductive SqlValue where
  | null
  | integer (i : Int)
  | real (x : F64)
  | text (s : String)
deriving DecidableEq

/-- `anyvalue_to_json` and `bind_json_value`: floats that are no JSON numbers are null,
integers beyond `i64` become floats. -/
def bindAnyValue (ops : FloatOps) : AnyValue → SqlValue
  | .null => .null
  | .boolean b => .integer (if b then 1 else 0)
  | .string s => .text s
  | .int i => if -(2 ^ 63) ≤ i ∧ i < 2 ^ 63 then .integer i else .real (ops.ofInt i)
  | .float x => if x.isFinite then .real x else .null
  | .other s => .text s

/-- `polars_dtype_to_sqlite`. -/
def polarsDtypeToSqlite : DataType → String
  | .boolean => "INTEGER"
  | .integer => "INTEGER"
  | .float => "REAL"
  | .string => "TEXT"
  | .other => "TEXT"

/-- A column of a `CREATE TABLE` statement. -/
structure ColumnDef where
  name : String
  type : String
  unique : Bool
deriving DecidableEq

/-- The statements of a task, apart from the inserts. -/
inductive Statement where
  | updateJob (u : StatusUpdate)
  | createTable (table : String) (columns : List ColumnDef)
  | begin
  | commit
deriving DecidableEq

/-- `INSERT INTO table (columns) VALUES rows`, with its conflict clause. -/
structure InsertRows where
  table : String
  columns : List String
  rows : List (List SqlValue)
  doNothing : Bool
deriving DecidableEq

/-- How `read_source` and the query can fail. -/
inductive SourceError where
  | polars (msg : String)
  | io (msg : String)
  | internal (msg : String)
  | timeout (duration : String)
deriving DecidableEq

/-- The conversion of `?`. -/
def SourceError.toError : SourceError → Error
  | .polars msg => .polars msg
  | .io msg => .io msg
  | .internal msg => .internal msg
  | .timeout duration => .timeout duration

/-- What a task asks of its surroundings. -/
inductive Request where
  | update (u : StatusUpdate)
  | counts
  | now
  | poll
  | dropFlag
  | send (e : Event)
  | execute (stmt : Statement)
  | insert (stmt : InsertRows)
  | readSource (source : FileSource)
  | query (sql : Option String)
deriving DecidableEq

/-- The replies.  The number of rows affected by an insert is at most the number of rows
that it brings. -/
abbrev Reply : Request → Type
  | .update _ => Unit
  | .counts => Nat × Nat
  | .now => Nat
  | .poll => Bool
  | .dropFlag => Unit
  | .send _ => Unit
  | .execute _ => Except String Unit
  | .insert stmt => Except String (Fin (stmt.rows.length + 1))
  | .readSource _ => Except SourceError Unit
  | .query _ => Except SourceError DataFrame

/-- The code of a task that may stop with an error. -/
abbrev Task := ExceptT Error (Program Reply)

/-- A single request. -/
def exchange (q : Request) : Program Reply (Reply q) := Program.request q

/-- A request that cannot fail. -/
def ask (q : Request) : Task (Reply q) := ExceptT.lift (exchange q)

/-- `cancel_flag.load`. -/
def poll : Task Bool := ask .poll

/-- `if cancel_flag.load(..) { return Err(Error::Cancelled) }`. -/
def stopIfCancelled : Task Unit := do
  if ← poll then throw .cancelled

/-- `OffsetDateTime::now_utc`. -/
def clock : Task Nat := ask .now

/-- `tx.send`, whatever comes of it. -/
def send (e : Event) : Task Unit := ask (.send e)

/-- A check, with `?`. -/
def check {α : Type} (x : Except Error α) : Task α := ExceptT.mk (pure x)

/-- A request that may fail, with `?`. -/
def tryAsk {ε α : Type} (toError : ε → Error) (p : Program Reply (Except ε α)) : Task α :=
  ExceptT.mk (p >>= fun r => pure (r.mapError toError))

/-- A statement. -/
def execute (stmt : Statement) : Task Unit := tryAsk .sql (exchange (.execute stmt))

/-- An insert, and the rows affected. -/
def insert (stmt : InsertRows) : Task Nat := do
  let affected ← tryAsk .sql (exchange (.insert stmt))
  pure affected.val

/-- `read_source`. -/
def readSource (spec : PipelineSpec) : Task Unit :=
  tryAsk SourceError.toError (exchange (.readSource spec.source))

/-- `run_blocking_with_timeout` with the transform and `collect`. -/
def collect (spec : PipelineSpec) : Task DataFrame :=
  tryAsk SourceError.toError (exchange (.query spec.sqlTransform))

/-- What the helpers share: the status in memory, then the row. -/
def record (u : StatusUpdate) : Task Unit := do
  ask (.update u)
  execute (.updateJob u)

/-- `mark_running`. -/
def markRunning : Task Unit := record .running

/-- `bump_progress`. -/
def bumpProgress (rowsRead rowsWritten : Nat) : Task Unit :=
  record (.progress rowsRead rowsWritten)

/-- `mark_completed`. -/
def markCompleted (rowsRead rowsWritten : Nat) : Task Unit := do
  let now ← clock
  record (.completed rowsRead rowsWritten now)

/-- `mark_failed`. -/
def markFailed (err : String) : Task Unit := do
  let now ← clock
  record (.failed now err)

/-- `mark_cancelled`. -/
def markCancelled : Task Unit := do
  let now ← clock
  record (.cancelled now)

/-- The starts of `(0..height).step_by(batch)`. -/
def stepBy (height batch : Nat) : List Nat :=
  (List.range ((height + batch - 1) / batch)).map fun i => i * batch

/-- The checks that `ensure_table` and `insert_chunk` share. -/
def validateNames (host : Host) (table : String) (columns : List (String × DataType))
    (dedupeColumn : Option String) : Except Error Unit := do
  validateSqlIdentifier host table "destination_table"
  match dedupeColumn with
  | some dc => validateSqlIdentifier host dc "dedupe_column"
  | none => pure ()
  columns.forM fun c => validateSqlIdentifier host c.1 "source column name"

/-- `ensure_table`. -/
def ensureTable (host : Host) (table : String) (df : DataFrame) (dedupeColumn : Option String) :
    Task Unit := do
  check (validateNames host table df.columns dedupeColumn)
  execute (.createTable table (df.columns.map fun c =>
    ⟨c.1, polarsDtypeToSqlite c.2, some c.1 == dedupeColumn⟩))

/-- `SQLITE_BIND_LIMIT`. -/
def sqliteBindLimit : Nat := 900

/-- The statements of `insert_chunk`, from the rows that are left. -/
def insertStatements (ops : FloatOps) (table : String) (df : DataFrame) (doNothing : Bool)
    (rowsPerBatch : Nat) : List Nat → Nat → Task Nat
  | [], total => pure total
  | start :: starts, total => do
      let rows := (df.slice start rowsPerBatch).rows.map fun row => row.map (bindAnyValue ops)
      let affected ← insert ⟨table, df.columns.map Prod.fst, rows, doNothing⟩
      insertStatements ops table df doNothing rowsPerBatch starts (total + affected)

/-- `insert_chunk`. -/
def insertChunk (host : Host) (ops : FloatOps) (table : String) (df : DataFrame)
    (dedupeColumn : Option String) : Task Nat :=
  if df.height = 0 then pure 0
  else do
    check (validateNames host table df.columns dedupeColumn)
    let rowsPerBatch := max (sqliteBindLimit / max df.columns.length 1) 1
    execute .begin
    let total ← insertStatements ops table df dedupeColumn.isSome rowsPerBatch
      (stepBy df.height rowsPerBatch) 0
    execute .commit
    pure total

section Task

variable (host : Host) (ops : FloatOps) (jobId : String) (spec : PipelineSpec)

/-- The loop over the batches in `execute`. -/
def insertBatches (df : DataFrame) (batch : Nat) : List Nat → Nat → Task Nat
  | [], rowsWritten => pure rowsWritten
  | start :: starts, rowsWritten => do
      stopIfCancelled
      let chunk := df.slice start (min batch (df.height - start))
      let written ← insertChunk host ops spec.destinationTable chunk spec.dedupeColumn
      bumpProgress df.height (rowsWritten + written)
      send (.progress jobId df.height (rowsWritten + written))
      insertBatches df batch starts (rowsWritten + written)

/-- `Engine::execute` after the query. -/
def load (df : DataFrame) : Task Unit := do
  ensureTable host spec.destinationTable df spec.dedupeColumn
  stopIfCancelled
  let batch := max spec.batchSize 1
  let rowsWritten ← insertBatches host ops jobId spec df batch (stepBy df.height batch) 0
  markCompleted df.height rowsWritten
  send (.completed jobId df.height rowsWritten)

/-- `Engine::execute`. -/
def executeJob : Task Unit := do
  markRunning
  send (.started jobId)
  readSource spec
  let df ← collect spec
  load host ops jobId spec df

/-- What the task does with the result of `execute`. -/
def finish : Except Error Unit → Program Reply Unit
  | .ok () => pure ()
  | .error .cancelled => do
      let snapshot ← exchange .counts
      let _ ← markCancelled.run
      exchange (.send (.cancelled jobId snapshot.1 snapshot.2))
  | .error other => do
      let _ ← (markFailed other.toString).run
      exchange (.send (.failed jobId other.toString))

/-- The task that `Engine::run` spawns. -/
def task : Program Reply Unit := do
  let result ← (executeJob host ops jobId spec).run
  exchange .dropFlag
  finish jobId result

end Task

end Etl
end OrbitOpenEO
