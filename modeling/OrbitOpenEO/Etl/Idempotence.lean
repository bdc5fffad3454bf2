import OrbitOpenEO.Etl.Dedupe

/-!
# Running a pipeline again

The conflict clause names no column: a row is passed over when it violates any uniqueness
constraint of the table.  Running a pipeline again changes nothing exactly if each row has
its values in some constraint, be it one that has nothing to do with the dedupe column.
-/

namespace OrbitOpenEO
namespace Etl

open Lib Program Admission

namespace Schema

variable {storage : Storage} {schema : Schema} {column : String} {x y : Row}

/-- The dedupe key of a row, `NULL` if the table has no such column. -/
def keyOf (schema : Schema) (column : String) (row : Row) : SqlValue :=
  (schema.position column).elim .null fun i => row.getD i .null

/-- Two rows that store the same key; as in SQL, `NULL` is no key. -/
def ShareKey (schema : Schema) (column : String) (x y : Row) : Prop :=
  schema.keyOf column x ≠ .null ∧ schema.keyOf column x = schema.keyOf column y

/-- A row has all values of some uniqueness constraint. -/
def Guards (schema : Schema) (row : Row) : Prop :=
  ∃ u ∈ schema.uniques, ∀ i ∈ u, row.getD i .null ≠ .null

/-- The dedupe column alone is a uniqueness constraint. -/
def UniqueKey (schema : Schema) (column : String) : Prop :=
  ∃ i, schema.position column = some i ∧ [i] ∈ schema.uniques

theorem sameAt_self_iff {i : Nat} :
    schema.sameAt storage x x i = true ↔ x.getD i .null ≠ .null := by
  unfold sameAt
  rw [storage.same_self, Bool.and_true, Bool.and_self, bne_iff_ne]

theorem clash_self_iff : schema.clash storage x x = true ↔ schema.Guards x := by
  unfold clash Guards
  rw [List.any_eq_true]
  refine exists_congr fun u => and_congr_right fun _ => ?_
  rw [List.all_eq_true]
  exact forall₂_congr fun i _ => sameAt_self_iff

theorem clash_self_of_clash (h : schema.clash storage x y = true) :
    schema.clash storage x x = true := by
  obtain ⟨u, hu, hall⟩ := List.any_eq_true.mp h
  refine clash_self_iff.mpr ⟨u, hu, fun i hi => ?_⟩
  have hi := List.all_eq_true.mp hall i hi
  unfold sameAt at hi
  rw [Bool.and_eq_true, Bool.and_eq_true, bne_iff_ne] at hi
  exact hi.1.1

theorem clash_of_shareKey (hunique : schema.UniqueKey column)
    (h : schema.ShareKey column x y) : schema.clash storage y x = true := by
  obtain ⟨i, hposition, hmem⟩ := hunique
  obtain ⟨hne, heq⟩ := h
  simp only [keyOf, hposition, Option.elim_some] at hne heq
  refine List.any_eq_true.mpr ⟨[i], hmem, ?_⟩
  have hself : schema.sameAt storage x x i = true := sameAt_self_iff.mpr hne
  rw [List.all_cons, List.all_nil, Bool.and_true]
  unfold sameAt at hself ⊢
  rwa [← heq]

end Schema

namespace Table

/-- Of two rows with the same key, one violates a constraint together with a row of the
table or with an earlier row that violates none. -/
def KeepsApart (storage : Storage) (t : Table) (column : String) (rows : List Row) : Prop :=
  ∀ l₁ x l₂ x' l₃, rows = l₁ ++ x :: l₂ ++ x' :: l₃ →
    Free (t.schema.clash storage) t.rows l₁.reverse x →
    Free (t.schema.clash storage) t.rows (l₁ ++ x :: l₂).reverse x' →
    ¬ t.schema.ShareKey column x x'

theorem keepsApart_of_uniqueKey {storage : Storage} {t : Table} {column : String}
    (h : t.schema.UniqueKey column) (rows : List Row) : t.KeepsApart storage column rows := by
  refine pairwise_admitted_iff.mp ((pairwise_admitted t.rows rows).imp ?_)
  intro x y hclash hshare
  rw [Schema.clash_of_shareKey h hshare] at hclash
  cases hclash

theorem rows_create {before : Option Table} {defs : List ColumnDef} {t : Table}
    (h : create before defs = some t) : t.rows = rowsOf before := by
  cases before with
  | some t₀ =>
      cases h
      rfl
  | none =>
      simp only [create] at h
      split at h
      · cases h
        rfl
      · cases h

/-- A frame brings nothing the second time exactly if its rows are guarded. -/
theorem withFrame_withFrame_iff {storage : Storage} {ops : FloatOps} {df : DataFrame}
    {t : Table} :
    ((t.withFrame storage ops df).withFrame storage ops df).rows =
        (t.withFrame storage ops df).rows ↔
      ∀ row ∈ t.brought storage ops df, t.schema.Guards row := by
  have hself : ∀ x y, t.schema.clash storage x y = true → t.schema.clash storage x x = true :=
    fun _ _ => Schema.clash_self_of_clash
  refine List.append_right_eq_self.trans ((readmitted_eq_nil_iff hself).trans ?_)
  exact forall₂_congr fun row _ => Schema.clash_self_iff

/-- The rows that a frame adds have different keys exactly if they are kept apart. -/
theorem pairwise_withFrame_iff {storage : Storage} {ops : FloatOps} {df : DataFrame}
    {t : Table} {column : String} :
    (((t.withFrame storage ops df).rows.drop t.rows.length).Pairwise fun x y =>
        ¬ t.schema.ShareKey column x y) ↔
      t.KeepsApart storage column (t.brought storage ops df) := by
  rw [withFrame_rows, List.drop_left]
  exact pairwise_admitted_iff

end Table

/-- Running the pipeline again leaves the rows as they are, and no two rows of the first run
share a key. -/
structure Deduped (column : String) (before after again : Option Table) : Prop where
  rows_eq : rowsOf again = rowsOf after
  apart : ∀ t, after = some t → (t.rows.drop (rowsOf before).length).Pairwise fun x y =>
    ¬ t.schema.ShareKey column x y

/-- What the table that the task finds or creates has to do for that. -/
structure Enforces (storage : Storage) (t : Table) (column : String) (rows : List Row) : Prop where
  guards : ∀ row ∈ rows, t.schema.Guards row
  apart : t.schema.UniqueKey column ∨ t.KeepsApart storage column rows

section Created

variable {df : DataFrame} {column : String} {t : Table}

theorem create_none {defs : List ColumnDef} (h : Table.create none defs = some t) :
    t = .ofDefs defs ∧ defs.Pairwise fun d d' => sameName d.name d'.name = false := by
  simp only [Table.create] at h
  split at h
  · rename_i hnames
    exact ⟨(Option.some.inj h).symm, hnames⟩
  · cases h

theorem mem_uniques_created {u : List Nat} :
    u ∈ (Schema.ofDefs (columnDefs df (some column))).uniques ↔
      ∃ i, df.names[i]? = some column ∧ u = [i] := by
  have hunique (i : Nat) :
      (i ∈ List.range (columnDefs df (some column)).length ∧
        ((columnDefs df (some column))[i]?.any ColumnDef.unique) = true) ↔
      df.names[i]? = some column := by
    unfold columnDefs DataFrame.names
    rw [List.mem_range, List.length_map, List.getElem?_map, List.getElem?_map]
    cases hc : df.columns[i]? with
    | none => simp
    | some c =>
        have hi : i < df.columns.length := (List.getElem?_eq_some_iff.mp hc).1
        simp [hi]
  simp only [Schema.ofDefs, List.mem_map, List.mem_filter, hunique]
  exact exists_congr fun i => and_congr_right fun _ => eq_comm

/-- The dedupe column is found where it is declared. -/
theorem position_created {i : Nat}
    (hnames : (columnDefs df (some column)).Pairwise fun d d' => sameName d.name d'.name = false)
    (hi : df.names[i]? = some column) :
    (Schema.ofDefs (columnDefs df (some column))).position column = some i := by
  obtain ⟨hlt, hname⟩ := List.getElem?_eq_some_iff.mp hi
  have hpairs : df.names.Pairwise fun a b => sameName a b = false := by
    unfold columnDefs at hnames
    rw [List.pairwise_map] at hnames
    exact List.pairwise_map.mpr hnames
  have hposition : (Schema.ofDefs (columnDefs df (some column))).position column =
      df.names.findIdx? fun name => sameName name column := by
    unfold Schema.position Schema.ofDefs columnDefs DataFrame.names
    rw [List.findIdx?_map, List.findIdx?_map, List.findIdx?_map]
    rfl
  rw [hposition, List.findIdx?_eq_some_iff_getElem]
  refine ⟨hlt, ?_, fun j hj => ?_⟩
  · rw [hname]
    exact beq_self_eq_true _
  · have hearlier := List.pairwise_iff_getElem.mp hpairs j i (Nat.lt_trans hj hlt) hlt hj
    rw [hname] at hearlier
    rw [hearlier]
    exact Bool.false_ne_true

/-- A table that the task creates does what it should exactly if the dedupe column is one of
the frame, and no key is `NULL`. -/
theorem enforces_created_iff {storage : Storage} {rows : List Row}
    (hcreate : Table.create none (columnDefs df (some column)) = some t) :
    Enforces storage t column rows ↔
      ∀ row ∈ rows, column ∈ df.names ∧ t.schema.keyOf column row ≠ .null := by
  obtain ⟨rfl, hnames⟩ := create_none hcreate
  have hguards (row : Row) : (Schema.ofDefs (columnDefs df (some column))).Guards row ↔
      column ∈ df.names ∧
        (Schema.ofDefs (columnDefs df (some column))).keyOf column row ≠ .null := by
    constructor
    · rintro ⟨u, hu, hall⟩
      obtain ⟨i, hi, rfl⟩ := mem_uniques_created.mp hu
      refine ⟨List.mem_of_getElem? hi, ?_⟩
      rw [Schema.keyOf, position_created hnames hi]
      exact hall i List.mem_cons_self
    · rintro ⟨hmem, hkey⟩
      obtain ⟨i, hi⟩ := List.mem_iff_getElem?.mp hmem
      refine ⟨[i], mem_uniques_created.mpr ⟨i, hi, rfl⟩, fun j hj => ?_⟩
      rw [Schema.keyOf, position_created hnames hi] at hkey
      rw [List.mem_singleton.mp hj]
      exact hkey
  constructor
  · intro h row hrow
    exact (hguards row).mp (h.guards row hrow)
  · intro h
    refine ⟨fun row hrow => (hguards row).mpr (h row hrow), ?_⟩
    cases rows with
    | nil =>
        refine .inr fun l₁ x l₂ x' l₃ hrows => ?_
        simp at hrows
    | cons row rows =>
        obtain ⟨i, hi⟩ := List.mem_iff_getElem?.mp (h row List.mem_cons_self).1
        exact .inl ⟨i, position_created hnames hi, mem_uniques_created.mpr ⟨i, hi, rfl⟩⟩

end Created

section Again

variable {host : Host} {ops : FloatOps} {storage : Storage} {spec : PipelineSpec}
  {df : DataFrame} {before after again : Option Table} {column : String}

/-- A pipeline is idempotent exactly if the uniqueness constraints of its table see to it. -/
theorem deduped_iff (hdedupe : spec.dedupeColumn = some column)
    (hfirst : Completes host ops storage spec df before after)
    (hsecond : Completes host ops storage spec df after again) :
    Deduped column before after again ↔
      isJobsTable spec.destinationTable = false ∧
        ∃ t, Table.create before (columnDefs df (some column)) = some t ∧
          Enforces storage t column (t.brought storage ops df) := by
  cases hjobs : isJobsTable spec.destinationTable with
  | true =>
      have hmore := length_of_completes hjobs hsecond
      refine ⟨fun h => ?_, fun h => nomatch h.1⟩
      rw [h.rows_eq] at hmore
      exact absurd hmore (lt_irrefl _)
  | false =>
      have hsome : spec.dedupeColumn.isSome = true := by
        rw [hdedupe]
        rfl
      obtain ⟨t, ht, rfl⟩ := table_of_completes hjobs hsome hfirst
      obtain ⟨t', ht', rfl⟩ := table_of_completes hjobs hsome hsecond
      rw [hdedupe] at ht
      cases ht'
      constructor
      · rintro ⟨hrows, hkeys⟩
        have hkeys := hkeys _ rfl
        rw [← Table.rows_create ht] at hkeys
        exact ⟨rfl, t, ht, Table.withFrame_withFrame_iff.mp hrows,
          .inr (Table.pairwise_withFrame_iff.mp hkeys)⟩
      · rintro ⟨-, t', ht', hguards, hkeys⟩
        rw [ht] at ht'
        cases ht'
        have happart : t.KeepsApart storage column (t.brought storage ops df) :=
          hkeys.elim (fun h => Table.keepsApart_of_uniqueKey h _) id
        refine ⟨Table.withFrame_withFrame_iff.mpr hguards, fun t' ht' => ?_⟩
        cases ht'
        rw [← Table.rows_create ht]
        exact Table.pairwise_withFrame_iff.mpr happart

end Again

/-- The answer to an `INSERT` that fails only if it has to. -/
def insertReply (storage : Storage) (s : Dest) (stmt : InsertRows) :
    Except String (Fin (stmt.rows.length + 1)) × Dest :=
  match s.table.bind fun t => (t.insertRows storage stmt).map fun t' => (t, t') with
  | none => (.error "no such column", ⟨s.committed, s.committed⟩)
  | some (t, t') =>
      if h : t.rows.length ≤ t'.rows.length ∧
          t'.rows.length - t.rows.length < stmt.rows.length + 1 then
        (.ok ⟨t'.rows.length - t.rows.length, h.2⟩, { s with table := some t' })
      else (.error "too many rows", ⟨s.committed, s.committed⟩)

/-- The answer to `CREATE TABLE IF NOT EXISTS`. -/
def createReply (s : Dest) (defs : List ColumnDef) : Except String Unit × Dest :=
  match Table.create s.table defs with
  | some t => (.ok (), ⟨some t, some t⟩)
  | none => (.error "duplicate column name", s)

/-- Surroundings where everything else succeeds, and the query returns `df`. -/
def destScript (storage : Storage) (df : DataFrame) (s : Dest) : (q : Request) → Reply q × Dest
  | .query _ => (.ok df, s)
  | .insert stmt => insertReply storage s stmt
  | .execute (.createTable _ defs) => createReply s defs
  | .execute .commit => (.ok (), ⟨s.table, s.table⟩)
  | .execute .begin => (.ok (), s)
  | .execute (.updateJob _) => (.ok (), s)
  | .update _ => ((), s)
  | .counts => ((0, 0), s)
  | .now => ((0 : Nat), s)
  | .poll => (false, s)
  | .dropFlag => ((), s)
  | .send _ => ((), s)
  | .readSource _ => (.ok (), s)

section Script

variable {storage : Storage} {destination : String} {df : DataFrame}

theorem destAct_insertReply (s : Dest) (stmt : InsertRows) :
    destAct storage destination df s (.insert stmt) (insertReply storage s stmt).1
      (insertReply storage s stmt).2 := by
  unfold insertReply
  split
  · rfl
  · rename_i t t' h
    split
    · rename_i hle
      obtain ⟨t₀, htable, hmap⟩ := Option.bind_eq_some_iff.mp h
      obtain ⟨t₁, hinsert, hpair⟩ := Option.map_eq_some_iff.mp hmap
      cases hpair
      exact ⟨t, t', htable, hinsert, (Nat.add_sub_cancel' hle.1).symm, rfl⟩
    · rfl

theorem destAct_createReply (s : Dest) (table : String) (defs : List ColumnDef) :
    destAct storage destination df s (.execute (.createTable table defs)) (createReply s defs).1
      (createReply s defs).2 := by
  unfold createReply
  split
  · rename_i t h
    exact ⟨t, h, rfl⟩
  · rfl

theorem destAct_script (hother : isJobsTable destination = false) (s : Dest) (q : Request) :
    destAct storage destination df s q (destScript storage df s q).1
      (destScript storage df s q).2 := by
  cases q with
  | query sql =>
      refine ⟨rfl, fun d hd => ?_⟩
      cases hd
      rfl
  | insert stmt => exact destAct_insertReply s stmt
  | execute stmt =>
      cases stmt with
      | createTable table defs => exact destAct_createReply s table defs
      | updateJob u =>
          simp only [destScript, destAct, Statement.Effect, hother, Bool.false_eq_true, if_false]
      | _ => rfl
  | _ => rfl

end Script

/-- Columns that store values as they are and compare them bytewise. -/
def plainStorage : Storage where
  store _ v := v
  same _ v w := decide (v = w)
  same_self _ _ := decide_eq_true rfl

/-- A pipeline with a dedupe column. -/
def dedupeSpec : PipelineSpec := { Engine.sampleSpec with dedupeColumn := some "a" }

/-- A run of a pipeline. -/
def dedupeRun (spec : PipelineSpec) (df : DataFrame) (before : Option Table) :
    Except Error Unit × Dest :=
  follow (destScript plainStorage df) (executeJob Engine.sampleHost .exact "j" spec).run
    ⟨before, before⟩

theorem completes_dedupeRun {spec : PipelineSpec} {df : DataFrame} {before : Option Table}
    (hother : isJobsTable spec.destinationTable = false)
    (hok : (dedupeRun spec df before).1 = .ok ()) :
    Completes Engine.sampleHost .exact plainStorage spec df before
      (dedupeRun spec df before).2.table := by
  have hreplies : ∀ s q, destAct plainStorage spec.destinationTable df s q
      (destScript plainStorage df s q).1 (destScript plainStorage df s q).2 :=
    destAct_script hother
  obtain ⟨ls, hrun⟩ := exists_runs_follow (fun _ (e : Empty) _ => e.elim) hreplies
    (executeJob Engine.sampleHost .exact "j" spec).run ⟨before, before⟩
  have hresult : (follow (destScript plainStorage df)
      (executeJob Engine.sampleHost .exact "j" spec).run ⟨before, before⟩).1 = .ok () := hok
  rw [hresult] at hrun
  have hrecord : RecordJob plainStorage spec.destinationTable before before := by
    unfold RecordJob
    rw [hother]
    rfl
  exact ⟨"j", before, ls, _, hrecord, hrun, rfl⟩

/-- Three rows, of which the first and the last have one key. -/
def threeKeys : DataFrame :=
  ⟨[("a", .integer), ("b", .string)],
    [[.int 1, .string "x"], [.int 2, .null], [.int 1, .string "y"]]⟩

/-- The table that the pipeline makes in batches of two. -/
def dedupedTable (before : Option Table) : Option Table :=
  (dedupeRun { dedupeSpec with batchSize := 2 } threeKeys before).2.table

/-- The pipeline on a table that it creates. -/
theorem deduped_created :
    Deduped "a" none (dedupedTable none) (dedupedTable (dedupedTable none)) ∧
      rowsOf (dedupedTable none) = [[.integer 1, .text "x"], [.integer 2, .null]] := by
  refine ⟨?_, by decide⟩
  have hcreate : Table.create none (columnDefs threeKeys (some "a")) =
      some (.ofDefs (columnDefs threeKeys (some "a"))) := rfl
  refine (deduped_iff rfl (completes_dedupeRun rfl (by decide))
    (completes_dedupeRun rfl (by decide))).mpr ⟨rfl, _, hcreate, ?_⟩
  exact (enforces_created_iff hcreate).mpr (by decide)

/-- A frame with one row. -/
def oneKey : DataFrame := ⟨[("a", .integer)], [[.int 1]]⟩

/-- A table that was made by somebody else, without a constraint. -/
def plainTable : Table := ⟨⟨[⟨"a", "INTEGER", .null⟩], [], nofun⟩, [], nofun⟩

/-- Its row is there twice after two runs. -/
theorem duplicate_row :
    ¬ ∀ after again,
      Completes Engine.sampleHost .exact plainStorage dedupeSpec oneKey (some plainTable) after →
      Completes Engine.sampleHost .exact plainStorage dedupeSpec oneKey after again →
      Deduped "a" (some plainTable) after again := by
  intro h
  have hdeduped := h _ _ (completes_dedupeRun rfl (by decide))
    (completes_dedupeRun rfl (by decide))
  exact absurd hdeduped.rows_eq (by decide)

end Etl
end OrbitOpenEO
