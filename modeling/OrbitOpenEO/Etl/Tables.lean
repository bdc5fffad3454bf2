import OrbitOpenEO.Etl.World
import OrbitOpenEO.Lib.Admission

/-!
# The destination table

What the statements of a task do to its destination table: `CREATE TABLE IF NOT EXISTS`
leaves a table that exists as it is, with whatever uniqueness constraints it has, and
`ON CONFLICT DO NOTHING` passes over a row that violates one of them.  A constraint with a
`NULL` in it is never violated.

How a column converts and compares values depends on its declaration and is a parameter,
`Storage`.
-/

namespace OrbitOpenEO
namespace Etl

open Lib Program Admission

/-- What a column does by its declaration: `store` is its affinity, `same` its collation. -/
structure Storage where
  store : String → SqlValue → SqlValue
  same : String → SqlValue → SqlValue → Bool
  same_self : ∀ type v, same type v v = true

/-- Names of columns and tables are compared without regard to ASCII case. -/
def sameName (a b : String) : Bool := a.toList.map Char.toLower == b.toList.map Char.toLower

/-- A column of a table, with the value that it gets when an `INSERT` does not name it. -/
structure Column where
  name : String
  type : String
  default : SqlValue
deriving DecidableEq

/-- A row of a table. -/
abbrev Row := List SqlValue

/-- The columns of a table and its uniqueness constraints, each a list of positions: a unique index
over part of the rows, or over an expression, is none. -/
structure Schema where
  columns : List Column
  uniques : List (List Nat)
  uniques_lt : ∀ u ∈ uniques, ∀ i ∈ u, i < columns.length
deriving DecidableEq

namespace Schema

/-- The schema that `ensure_table` declares. -/
def ofDefs (defs : List ColumnDef) : Schema where
  columns := defs.map fun d => ⟨d.name, d.type, .null⟩
  uniques := ((List.range defs.length).filter fun i => defs[i]?.any ColumnDef.unique).map
    fun i => [i]
  uniques_lt := by
    intro u hu i hi
    obtain ⟨j, hj, rfl⟩ := List.mem_map.mp hu
    rw [List.mem_singleton.mp hi, List.length_map]
    exact List.mem_range.mp (List.mem_of_mem_filter hj)

/-- The row that an `INSERT` brings to a table. -/
def bring (storage : Storage) (schema : Schema) (columns : List String)
    (values : List SqlValue) : Row :=
  schema.columns.map fun c =>
    match (columns.zip values).find? fun p => sameName p.1 c.name with
    | some p => storage.store c.type p.2
    | none => c.default

/-- Two rows have the same value at a position. -/
def sameAt (storage : Storage) (schema : Schema) (x y : Row) (i : Nat) : Bool :=
  x.getD i .null != .null && y.getD i .null != .null &&
    storage.same ((schema.columns[i]?).elim "" Column.type) (x.getD i .null) (y.getD i .null)

/-- Two rows violate a uniqueness constraint together. -/
def clash (storage : Storage) (schema : Schema) (x y : Row) : Bool :=
  schema.uniques.any fun u => u.all (schema.sameAt storage x y)

/-- The position of a column. -/
def position (schema : Schema) (column : String) : Option Nat :=
  schema.columns.findIdx? fun c => sameName c.name column

theorem length_bring (storage : Storage) (schema : Schema) (columns : List String)
    (values : List SqlValue) :
    (schema.bring storage columns values).length = schema.columns.length :=
  List.length_map _

end Schema

/-- A table. -/
@[ext] structure Table where
  schema : Schema
  rows : List Row
  row_length : ∀ row ∈ rows, row.length = schema.columns.length
deriving DecidableEq

namespace Table

/-- The table that `ensure_table` creates. -/
def ofDefs (defs : List ColumnDef) : Table := ⟨.ofDefs defs, [], nofun⟩

/-- One more row. -/
def push (t : Table) (row : Row) (h : row.length = t.schema.columns.length) : Table where
  schema := t.schema
  rows := t.rows ++ [row]
  row_length := by
    intro r hr
    rcases List.mem_append.mp hr with hr | hr
    · exact t.row_length r hr
    · rw [List.mem_singleton.mp hr, h]

/-- A row of an `INSERT`. -/
def insertRow (storage : Storage) (columns : List String) (doNothing : Bool) (t : Table)
    (values : List SqlValue) : Option Table :=
  if t.rows.any (t.schema.clash storage (t.schema.bring storage columns values)) then
    if doNothing then some t else none
  else some (t.push (t.schema.bring storage columns values) (Schema.length_bring _ _ _ _))

/-- An `INSERT`; it fails if it names a column that the table does not have. -/
def insertRows (storage : Storage) (t : Table) (stmt : InsertRows) : Option Table :=
  if stmt.columns.all fun c => (t.schema.position c).isSome then
    stmt.rows.foldlM (insertRow storage stmt.columns stmt.doNothing) t
  else none

/-- `CREATE TABLE IF NOT EXISTS`; a table has no two columns of the same name. -/
def create (before : Option Table) (defs : List ColumnDef) : Option Table :=
  match before with
  | some t => some t
  | none =>
      if defs.Pairwise fun d d' => sameName d.name d'.name = false then some (.ofDefs defs)
      else none

/-- What `ON CONFLICT DO NOTHING` makes of many rows. -/
def insertAll (storage : Storage) (columns : List String) (values : List (List SqlValue))
    (t : Table) : Table where
  schema := t.schema
  rows := t.rows ++ admitted (t.schema.clash storage) t.rows
    (values.map (t.schema.bring storage columns))
  row_length := by
    intro r hr
    rcases List.mem_append.mp hr with hr | hr
    · exact t.row_length r hr
    · obtain ⟨v, -, rfl⟩ := List.mem_map.mp (mem_of_mem_admitted hr)
      exact Schema.length_bring _ _ _ _

section Inserts

variable {storage : Storage} {columns : List String} {t t' : Table}

theorem insertAll_nil : t.insertAll storage columns [] = t :=
  Table.ext rfl (List.append_nil _)

/-- Rows can be inserted in parts. -/
theorem insertAll_append (values values' : List (List SqlValue)) :
    (t.insertAll storage columns values).insertAll storage columns values' =
      t.insertAll storage columns (values ++ values') := by
  refine Table.ext rfl ?_
  simp only [insertAll, List.map_append, admitted_append, List.append_assoc]

theorem insertRow_doNothing (values : List SqlValue) :
    insertRow storage columns true t values = some (t.insertAll storage columns [values]) := by
  unfold insertRow
  split
  · rename_i h
    refine congrArg some (Table.ext rfl ?_)
    simp only [insertAll, List.map_cons, List.map_nil, admitted_singleton_of_true h,
      List.append_nil]
  · rename_i h
    refine congrArg some (Table.ext rfl ?_)
    simp only [insertAll, List.map_cons, List.map_nil,
      admitted_singleton_of_false (Bool.eq_false_iff.mpr h)]
    rfl

theorem foldlM_insertRow (values : List (List SqlValue)) (t : Table) :
    values.foldlM (insertRow storage columns true) t =
      some (t.insertAll storage columns values) := by
  induction values generalizing t with
  | nil => exact congrArg some insertAll_nil.symm
  | cons v values ih =>
      rw [List.foldlM_cons, insertRow_doNothing]
      exact (ih _).trans (congrArg some (insertAll_append [v] values))

/-- An `INSERT` with its conflict clause. -/
theorem insertRows_doNothing {stmt : InsertRows} (hclause : stmt.doNothing = true)
    (h : t.insertRows storage stmt = some t') :
    t' = t.insertAll storage stmt.columns stmt.rows := by
  unfold insertRows at h
  split at h
  · rw [hclause, foldlM_insertRow] at h
    exact (Option.some.inj h).symm
  · cases h

/-- An `INSERT` of one row without a conflict clause. -/
theorem length_insertRows {table : String} {values : List SqlValue}
    (h : t.insertRows storage ⟨table, columns, [values], false⟩ = some t') :
    t'.rows.length = t.rows.length + 1 := by
  unfold insertRows at h
  split at h
  · rw [List.foldlM_cons] at h
    unfold insertRow at h
    split at h
    · cases h
    · cases h
      exact List.length_append
  · cases h

end Inserts

end Table

/-- The rows of a table that may be absent. -/
def rowsOf (t : Option Table) : List Row := (t.map Table.rows).getD []

/-- The destination table, as the task sees it and as it has been committed. -/
structure Dest where
  table : Option Table
  committed : Option Table

/-- The table that the engine keeps for itself. -/
def isJobsTable (destination : String) : Bool := sameName destination "orbit_jobs"

/-- What a statement does to the destination table when it succeeds. -/
def Statement.Effect (destination : String) (s : Dest) : Statement → Dest → Prop
  | .begin, s' => s' = s
  | .commit, s' => s' = ⟨s.table, s.table⟩
  | .createTable _ defs, s' => ∃ t, Table.create s.table defs = some t ∧ s' = ⟨some t, some t⟩
  | .updateJob _, s' =>
      -- An `UPDATE` of the engine's own table keeps the number of its rows.
      if isJobsTable destination then
        (rowsOf s'.table).length = (rowsOf s.table).length ∧ s'.committed = s'.table
      else s' = s

/-- What a request of a task does to its destination table, when the query returns `df`.  A
failed insert or commit drops the transaction. -/
def destAct (storage : Storage) (destination : String) (df : DataFrame) (s : Dest) :
    (q : Request) → Reply q → Dest → Prop
  | .query _, r, s' => s' = s ∧ ∀ d, r = .ok d → d = df
  | .execute stmt, .ok (), s' => stmt.Effect destination s s'
  | .execute .commit, .error _, s' => s' = ⟨s.committed, s.committed⟩
  | .execute _, .error _, s' => s' = s
  | .insert stmt, .ok n, s' =>
      ∃ t t', s.table = some t ∧ t.insertRows storage stmt = some t' ∧
        t'.rows.length = t.rows.length + n ∧ s' = { s with table := some t' }
  | .insert _, .error _, s' => s' = ⟨s.committed, s.committed⟩
  | .update _, _, s' => s' = s
  | .counts, _, s' => s' = s
  | .now, _, s' => s' = s
  | .poll, _, s' => s' = s
  | .dropFlag, _, s' => s' = s
  | .send _, _, s' => s' = s
  | .readSource _, _, s' => s' = s

/-- The `INSERT INTO orbit_jobs` of `run`. -/
def RecordJob (storage : Storage) (destination : String) (before after : Option Table) : Prop :=
  if isJobsTable destination then
    ∃ t values, before = some t ∧ after.isSome ∧
      t.insertRows storage ⟨"orbit_jobs", ["id", "state", "started_at", "spec_json"], [values],
        false⟩ = after
  else after = before

/-- A pipeline that runs to completion, with nobody else at its table. -/
def Completes (host : Host) (ops : FloatOps) (storage : Storage) (spec : PipelineSpec)
    (df : DataFrame) (before after : Option Table) : Prop :=
  ∃ jobId recorded ls s,
    RecordJob storage spec.destinationTable before recorded ∧
      Runs (destAct storage spec.destinationTable df) (fun _ (e : Empty) _ => e.elim)
        (executeJob host ops jobId spec).run ⟨recorded, recorded⟩ ls (.done (.ok ())) s ∧
      s.table = after

end Etl
end OrbitOpenEO
