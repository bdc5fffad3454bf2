import OrbitOpenEO.Etl.Tables

/-!
# Dedupe

A run that completes with a dedupe column brings the rows of its frame to the destination
table one after the other, however they are cut into batches and statements
(`table_of_completes`).  What keeps rows out is the schema that `CREATE TABLE IF NOT EXISTS`
finds or makes, and the dedupe column has a part in that only if the table did not exist and
the column is one of the frame.
-/

namespace OrbitOpenEO
namespace Etl

open Lib Program Admission

theorem flatMap_range'_slices {α : Type} {batch : Nat} (xs : List α) :
    ∀ n k, xs.length ≤ (k + n) * batch →
      ((List.range' k n).flatMap fun i => (xs.drop (i * batch)).take batch) = xs.drop (k * batch)
  | 0, k, h => (List.drop_eq_nil_of_le h).symm
  | n + 1, k, h => by
      have hrest := flatMap_range'_slices xs n (k + 1) (by rwa [Nat.add_right_comm])
      rw [List.range'_succ, List.flatMap_cons, hrest, Nat.succ_mul, ← List.drop_drop,
        List.take_append_drop]

/-- The loops of the engine go through all rows in order. -/
theorem flatMap_stepBy_slices {α : Type} {batch : Nat} (hbatch : 0 < batch) (xs : List α) :
    ((stepBy xs.length batch).flatMap fun start => (xs.drop start).take batch) = xs := by
  have hcover : xs.length ≤ (0 + (xs.length + batch - 1) / batch) * batch := by
    have hdiv := Nat.div_add_mod (xs.length + batch - 1) batch
    have hmod := Nat.mod_lt (xs.length + batch - 1) hbatch
    rw [Nat.zero_add, Nat.mul_comm]
    omega
  have hall := flatMap_range'_slices xs _ 0 hcover
  rw [Nat.zero_mul, List.drop_zero, ← List.range_eq_range'] at hall
  rw [stepBy, List.flatMap_map]
  exact hall

/-- The rows of a batch. -/
theorem rows_slice (df : DataFrame) (start batch : Nat) :
    (df.slice start (min batch (df.height - start))).rows = (df.rows.drop start).take batch := by
  rw [DataFrame.slice, DataFrame.height, ← List.length_drop, ← List.take_eq_take_min]

section Walk

variable {host : Host} {ops : FloatOps} {storage : Storage} {destination : String}
  {df : DataFrame} {s : Dest} {Q : Unit → Dest → Prop}

/-- The names of the columns of a frame. -/
def DataFrame.names (df : DataFrame) : List String := df.columns.map Prod.fst

/-- The columns that `ensure_table` declares. -/
def columnDefs (df : DataFrame) (dedupeColumn : Option String) : List ColumnDef :=
  df.columns.map fun c => ⟨c.1, polarsDtypeToSqlite c.2, some c.1 == dedupeColumn⟩

theorem wpTry_execute_dest {stmt : Statement} (hQ : ∀ s', stmt.Effect destination s s' → Q () s') :
    wpTry (destAct storage destination df) Q (fun _ _ => True) (execute stmt) s := by
  rintro (e | u) s' h
  · trivial
  · exact hQ s' h

theorem wpTry_record_dest (hother : isJobsTable destination = false) (hQ : Q () s)
    {u : StatusUpdate} :
    wpTry (destAct storage destination df) Q (fun _ _ => True) (record u) s := by
  refine wpTry_bind.mpr (wpTry_ask.mpr ?_)
  rintro ⟨⟩ s' rfl
  refine wpTry_execute_dest fun s' h => ?_
  simp only [Statement.Effect, hother, Bool.false_eq_true, if_false] at h
  exact h ▸ hQ

theorem wpTry_send_dest (hQ : Q () s) {e : Event} :
    wpTry (destAct storage destination df) Q (fun _ _ => True) (send e) s := by
  refine wpTry_ask.mpr ?_
  rintro ⟨⟩ s' rfl
  exact hQ

theorem wpTry_clock_dest {Q : Nat → Dest → Prop} (hQ : ∀ now, Q now s) :
    wpTry (destAct storage destination df) Q (fun _ _ => True) clock s := by
  refine wpTry_ask.mpr ?_
  rintro now s' rfl
  exact hQ now

theorem wpTry_stopIfCancelled_dest (hQ : Q () s) :
    wpTry (destAct storage destination df) Q (fun _ _ => True) stopIfCancelled s := by
  refine wpTry_bind.mpr (wpTry_ask.mpr ?_)
  rintro (_ | _) s' rfl
  · exact hQ
  · trivial

theorem wpTry_readSource_dest {spec : PipelineSpec} (hQ : Q () s) :
    wpTry (destAct storage destination df) Q (fun _ _ => True) (readSource spec) s := by
  rintro (e | u) s' rfl
  · trivial
  · exact hQ

theorem wpTry_collect_dest {spec : PipelineSpec} {Q : DataFrame → Dest → Prop} (hQ : Q df s) :
    wpTry (destAct storage destination df) Q (fun _ _ => True) (collect spec) s := by
  rintro (e | d) s' ⟨rfl, hdf⟩
  · trivial
  · rw [hdf d rfl]
    exact hQ

theorem wpTry_insert_dest {stmt : InsertRows} (hclause : stmt.doNothing = true) {t : Table}
    (hs : s.table = some t) {Q : Nat → Dest → Prop}
    (hQ : ∀ n, Q n { s with table := some (t.insertAll storage stmt.columns stmt.rows) }) :
    wpTry (destAct storage destination df) Q (fun _ _ => True) (insert stmt) s := by
  rintro (e | n) s' h
  · trivial
  · obtain ⟨t₀, t₁, ht₀, hinsert, -, rfl⟩ := h
    rw [hs] at ht₀
    cases ht₀
    rw [Table.insertRows_doNothing hclause hinsert]
    exact hQ n

/-- The table has these rows of a frame more. -/
def Brought (storage : Storage) (ops : FloatOps) (t : Table) (columns : List String)
    (rows : List (List AnyValue)) (s : Dest) : Prop :=
  s.table = some (t.insertAll storage columns (rows.map fun row => row.map (bindAnyValue ops)))

theorem Brought.append {t : Table} {columns : List String} {rows rows' : List (List AnyValue)}
    (h : Brought storage ops (t.insertAll storage columns
      (rows.map fun row => row.map (bindAnyValue ops))) columns rows' s) :
    Brought storage ops t columns (rows ++ rows') s := by
  rw [Brought, Table.insertAll_append, ← List.map_append] at h
  exact h

/-- The statements of a chunk. -/
theorem wpTry_insertStatements_dest {table : String} {chunk : DataFrame} {rowsPerBatch : Nat} :
    ∀ (starts : List Nat) (total : Nat) {t : Table} {s : Dest}, s.table = some t →
      wpTry (destAct storage destination df)
        (fun _ => Brought storage ops t chunk.names
          (starts.flatMap fun start => (chunk.rows.drop start).take rowsPerBatch))
        (fun _ _ => True) (insertStatements ops table chunk true rowsPerBatch starts total) s
  | [], _, t, s, hs => by
      refine wpTry_pure.mpr ?_
      rw [Brought, List.flatMap_nil, List.map_nil, Table.insertAll_nil]
      exact hs
  | start :: starts, total, t, s, hs => by
      unfold insertStatements
      refine wpTry_bind.mpr (wpTry_insert_dest rfl hs fun n => ?_)
      refine wpTry_mono (fun _ s' hs' => ?_) (fun _ _ h => h)
        (wpTry_insertStatements_dest starts (total + n) rfl)
      rw [List.flatMap_cons]
      exact Brought.append hs'

/-- A chunk. -/
theorem wpTry_insertChunk_dest {table : String} {chunk : DataFrame} {dedupe : Option String}
    (hdedupe : dedupe.isSome = true) {t : Table} (hs : s.table = some t) :
    wpTry (destAct storage destination df)
      (fun _ => Brought storage ops t chunk.names chunk.rows) (fun _ _ => True)
      (insertChunk host ops table chunk dedupe) s := by
  unfold insertChunk
  split
  · rename_i hempty
    refine wpTry_pure.mpr ?_
    rw [Brought, List.eq_nil_of_length_eq_zero hempty, List.map_nil, Table.insertAll_nil]
    exact hs
  · refine wpTry_bind.mpr (wpTry_check (fun _ => ?_) fun _ _ => trivial)
    refine wpTry_bind.mpr (wpTry_execute_dest ?_)
    rintro s' rfl
    rw [hdedupe]
    refine wpTry_bind.mpr (wpTry_mono (fun n s' hs' => ?_) (fun _ _ h => h)
      (wpTry_insertStatements_dest _ 0 hs))
    refine wpTry_bind.mpr (wpTry_execute_dest ?_)
    rintro s'' rfl
    refine wpTry_pure.mpr ?_
    rw [Brought, DataFrame.height, flatMap_stepBy_slices
      (Nat.lt_of_lt_of_le Nat.zero_lt_one (Nat.le_max_right _ _))] at hs'
    exact hs'

/-- The loop over the batches. -/
theorem wpTry_insertBatches_dest {spec : PipelineSpec} {jobId : String} {frame : DataFrame}
    {batch : Nat} (hother : isJobsTable destination = false)
    (hdedupe : spec.dedupeColumn.isSome = true) :
    ∀ (starts : List Nat) (written : Nat) {t : Table} {s : Dest}, s.table = some t →
      wpTry (destAct storage destination df)
        (fun _ => Brought storage ops t frame.names
          (starts.flatMap fun start => (frame.rows.drop start).take batch))
        (fun _ _ => True) (insertBatches host ops jobId spec frame batch starts written) s
  | [], _, t, s, hs => by
      refine wpTry_pure.mpr ?_
      rw [Brought, List.flatMap_nil, List.map_nil, Table.insertAll_nil]
      exact hs
  | start :: starts, written, t, s, hs => by
      unfold insertBatches
      refine wpTry_bind.mpr (wpTry_stopIfCancelled_dest ?_)
      refine wpTry_bind.mpr (wpTry_mono (fun n s' hs' => ?_) (fun _ _ h => h)
        (wpTry_insertChunk_dest hdedupe hs))
      refine wpTry_bind.mpr (wpTry_record_dest hother ?_)
      refine wpTry_bind.mpr (wpTry_send_dest ?_)
      refine wpTry_mono (fun _ s'' hs'' => ?_) (fun _ _ h => h)
        (wpTry_insertBatches_dest hother hdedupe starts (written + n) hs')
      rw [rows_slice] at hs''
      rw [List.flatMap_cons]
      exact Brought.append hs''

/-- What a task brings to the table that it finds or creates. -/
theorem wpTry_executeJob_dest {spec : PipelineSpec} {jobId : String}
    (hother : isJobsTable destination = false) (hdedupe : spec.dedupeColumn.isSome = true) :
    wpTry (destAct storage destination df)
      (fun _ s' => ∃ t, Table.create s.table (columnDefs df spec.dedupeColumn) = some t ∧
        Brought storage ops t df.names df.rows s')
      (fun _ _ => True) (executeJob host ops jobId spec) s := by
  unfold executeJob
  refine wpTry_bind.mpr (wpTry_record_dest hother ?_)
  refine wpTry_bind.mpr (wpTry_send_dest ?_)
  refine wpTry_bind.mpr (wpTry_readSource_dest ?_)
  refine wpTry_bind.mpr (wpTry_collect_dest ?_)
  unfold load ensureTable
  refine wpTry_bind.mpr (wpTry_bind.mpr (wpTry_check (fun _ => ?_) fun _ _ => trivial))
  refine wpTry_execute_dest ?_
  rintro s' ⟨t, ht, rfl⟩
  refine wpTry_bind.mpr (wpTry_stopIfCancelled_dest ?_)
  refine wpTry_bind.mpr (wpTry_mono (fun n s' hs' => ?_) (fun _ _ h => h)
    (wpTry_insertBatches_dest hother hdedupe _ 0 rfl))
  refine wpTry_bind.mpr (wpTry_bind.mpr (wpTry_clock_dest fun now => ?_))
  refine wpTry_record_dest hother (wpTry_send_dest ⟨t, ht, ?_⟩)
  rw [DataFrame.height, flatMap_stepBy_slices
    (Nat.lt_of_lt_of_le Nat.zero_lt_one (Nat.le_max_right _ _))] at hs'
  exact hs'

end Walk

/-- The table has at least `n` rows, also when the transaction is dropped. -/
def AtLeast (n : Nat) (s : Dest) : Prop :=
  n ≤ (rowsOf s.table).length ∧ n ≤ (rowsOf s.committed).length

theorem length_create {before : Option Table} {defs : List ColumnDef} {t : Table}
    (h : Table.create before defs = some t) : (rowsOf before).length ≤ t.rows.length := by
  cases before with
  | none => exact Nat.zero_le _
  | some t₀ =>
      cases h
      exact le_refl _

/-- No statement of a task removes rows. -/
theorem atLeast_act {storage : Storage} {destination : String} {df : DataFrame} {n : Nat}
    {s s' : Dest} {q : Request} {r : Reply q} (hs : AtLeast n s)
    (h : destAct storage destination df s q r s') : AtLeast n s' := by
  cases q with
  | query sql =>
      obtain ⟨rfl, -⟩ := h
      exact hs
  | insert stmt =>
      cases r with
      | error e =>
          cases h
          exact ⟨hs.2, hs.2⟩
      | ok k =>
          obtain ⟨t, t', ht, -, hlength, rfl⟩ := h
          refine ⟨?_, hs.2⟩
          have hbefore := hs.1
          rw [ht] at hbefore
          exact le_trans hbefore (hlength ▸ Nat.le_add_right _ _)
  | execute stmt =>
      cases r with
      | error e =>
          cases stmt with
          | commit =>
              cases h
              exact ⟨hs.2, hs.2⟩
          | _ =>
              cases h
              exact hs
      | ok u =>
          cases stmt with
          | begin =>
              cases h
              exact hs
          | commit =>
              cases h
              exact ⟨hs.1, hs.1⟩
          | createTable table defs =>
              obtain ⟨t, ht, rfl⟩ := h
              have hmore := le_trans hs.1 (length_create ht)
              exact ⟨hmore, hmore⟩
          | updateJob u =>
              simp only [destAct, Statement.Effect] at h
              split at h
              · obtain ⟨hlength, hcommitted⟩ := h
                have hkept : n ≤ (rowsOf s'.table).length := hlength ▸ hs.1
                exact ⟨hkept, hcommitted ▸ hkept⟩
              · cases h
                exact hs
  | _ =>
      cases h
      exact hs

namespace Table

/-- The rows that a frame brings to a table. -/
def brought (storage : Storage) (ops : FloatOps) (t : Table) (df : DataFrame) : List Row :=
  (df.rows.map fun row => row.map (bindAnyValue ops)).map (t.schema.bring storage df.names)

/-- The table after a frame. -/
def withFrame (storage : Storage) (ops : FloatOps) (df : DataFrame) (t : Table) : Table :=
  t.insertAll storage df.names (df.rows.map fun row => row.map (bindAnyValue ops))

theorem withFrame_rows (storage : Storage) (ops : FloatOps) (df : DataFrame) (t : Table) :
    (t.withFrame storage ops df).rows =
      t.rows ++ admitted (t.schema.clash storage) t.rows (t.brought storage ops df) := rfl

@[simp] theorem withFrame_schema (storage : Storage) (ops : FloatOps) (df : DataFrame)
    (t : Table) : (t.withFrame storage ops df).schema = t.schema := rfl

end Table

section Completed

variable {host : Host} {ops : FloatOps} {storage : Storage} {spec : PipelineSpec}
  {df : DataFrame} {before after again : Option Table}

/-- The engine's own table gets a row for the job. -/
theorem length_of_completes (hjobs : isJobsTable spec.destinationTable = true)
    (h : Completes host ops storage spec df before after) :
    (rowsOf before).length < (rowsOf after).length := by
  obtain ⟨jobId, recorded, ls, s, hrecord, hruns, rfl⟩ := h
  rw [RecordJob, if_pos hjobs] at hrecord
  obtain ⟨t, values, rfl, hsome, hinsert⟩ := hrecord
  obtain ⟨t', rfl⟩ := Option.isSome_iff_exists.mp hsome
  have hlength : t'.rows.length = t.rows.length + 1 := Table.length_insertRows hinsert
  have hkept : AtLeast (t.rows.length + 1) s :=
    hruns.invariant ⟨hlength.ge, hlength.ge⟩ (fun _ _ _ _ hs h => atLeast_act hs h)
      fun _ e => e.elim
  exact hkept.1

/-- The table of a run that completes. -/
theorem table_of_completes (hother : isJobsTable spec.destinationTable = false)
    (hdedupe : spec.dedupeColumn.isSome = true)
    (h : Completes host ops storage spec df before after) :
    ∃ t, Table.create before (columnDefs df spec.dedupeColumn) = some t ∧
      after = some (t.withFrame storage ops df) := by
  obtain ⟨jobId, recorded, ls, s, hrecord, hruns, rfl⟩ := h
  rw [RecordJob, hother, if_neg Bool.false_ne_true] at hrecord
  subst hrecord
  exact hruns.wp id (fun _ _ _ _ h => h) (fun _ e => e.elim)
    (wpTry_executeJob_dest hother hdedupe)

end Completed

end Etl
end OrbitOpenEO
