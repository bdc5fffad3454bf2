import OrbitOpenEO.Etl.Engine
import OrbitOpenEO.Lib.Except
import OrbitOpenEO.Lib.Requests
import OrbitOpenEO.Lib.SqlText

/-!
# The texts of the statements

`ensure_table` and `insert_chunk` put the names of tables and columns into the text of their
statements; the cells go beside the text, one for each placeholder.  Whatever the source and
the spec are, the database reads each text as the one statement that was meant.

A frame without columns has a text that is no statement.
-/

namespace OrbitOpenEO
namespace Etl

open Lib Program SqlText

/-- A column in the text of `ensure_table`. -/
def columnText (c : ColumnDef) : String :=
  "\"" ++ c.name ++ "\" " ++ c.type ++ (if c.unique then " UNIQUE" else "")

/-- The text of `ensure_table`. -/
def createTableText (table : String) (columns : List ColumnDef) : String :=
  "CREATE TABLE IF NOT EXISTS \"" ++ table ++ "\" (" ++
    ", ".intercalate (columns.map columnText) ++ ")"

/-- What `push_values` writes for a row. -/
def rowText (row : List SqlValue) : String :=
  "(" ++ ", ".intercalate (row.map fun _ => "?") ++ ")"

/-- The text of `insert_chunk`. -/
def insertText (stmt : InsertRows) : String :=
  "INSERT INTO \"" ++ stmt.table ++ "\" (" ++
    ", ".intercalate (stmt.columns.map fun n => "\"" ++ n ++ "\"") ++ ") " ++
    "VALUES " ++ ", ".intercalate (stmt.rows.map rowText) ++
    (if stmt.doNothing then " ON CONFLICT DO NOTHING" else "")

/-- The text that goes to the database with a request, and the values bound to it. -/
def Request.sql : Request → Option (String × List SqlValue)
  | .execute (.createTable table columns) => some (createTableText table columns, [])
  | .insert stmt => some (insertText stmt, stmt.rows.flatten)
  | _ => none

/-- A column as the database reads it. -/
def ColumnDef.ofSql (c : SqlText.ColumnDef) : ColumnDef := ⟨c.name, c.type, c.unique⟩

/-- What the database makes of a text and of the values bound to it. -/
def understand (text : String) (values : List SqlValue) : Option Request :=
  match SqlText.read text with
  | some (.createTable table columns) =>
      if values = [] then some (.execute (.createTable table (columns.map .ofSql))) else none
  | some (.insert table columns rows doNothing) =>
      (fill rows values).map fun rows => .insert ⟨table, columns, rows, doNothing⟩
  | none => none

/-- The columns that a request names. -/
def Request.names : Request → List String
  | .execute (.createTable _ columns) => columns.map ColumnDef.name
  | .insert stmt => stmt.columns
  | _ => []

/-- `[A-Za-z_][A-Za-z0-9_]*`. -/
def IsIdentifier (name : String) : Prop := ∀ c ∈ name.toList, isWordChar c = true

theorem isIdentifier_of_validate {host : Host} {name context : String}
    (h : validateSqlIdentifier host name context = .ok ()) : IsIdentifier name := by
  unfold validateSqlIdentifier at h
  unfold IsIdentifier
  split at h
  · cases h
  · rename_i first tail hname
    split at h
    · rename_i hchars
      simp only [Bool.and_eq_true, Bool.or_eq_true, List.all_eq_true] at hchars
      rw [hname]
      refine List.forall_mem_cons.mpr ⟨?_, hchars.2⟩
      rcases hchars.1 with hfirst | hfirst
      · simp [isWordChar, Char.isAlphanum, hfirst]
      · simp only [isWordChar, hfirst, Bool.or_true]
    · cases h

theorem IsIdentifier.no_quote {name : String} (h : IsIdentifier name) : '"' ∉ name.toList :=
  fun hquote => absurd (h _ hquote) (by decide)

/-- The names that have passed the checks before a statement. -/
theorem identifiers_of_validateNames {host : Host} {table : String}
    {columns : List (String × DataType)} {dedupeColumn : Option String}
    (h : validateNames host table columns dedupeColumn = .ok ()) :
    IsIdentifier table ∧ ∀ c ∈ columns, IsIdentifier c.1 := by
  obtain ⟨u, htable, hrest⟩ := bind_eq_ok_iff.mp h
  have hcolumns : (columns.forM fun c =>
      validateSqlIdentifier host c.1 "source column name") = .ok () := by
    cases dedupeColumn with
    | none => exact hrest
    | some dc =>
        obtain ⟨u', -, hcolumns⟩ := bind_eq_ok_iff.mp hrest
        exact hcolumns
  refine ⟨isIdentifier_of_validate htable, fun c hc => ?_⟩
  exact isIdentifier_of_validate (forM_eq_ok_iff.mp hcolumns c hc)

/-- A column as the reader has it. -/
def ColumnDef.toSql (c : ColumnDef) : SqlText.ColumnDef := ⟨c.name, c.type, c.unique⟩

/-- The words and names of a column can be told apart. -/
structure ColumnDef.Plain (c : ColumnDef) : Prop where
  name : IsIdentifier c.name
  type : isWord c.type.toList = true

theorem piece_column {c : ColumnDef} (hc : c.Plain) :
    Piece (columnText c).toList c.toSql.tokens := by
  have hbase := (piece_quote hc.name.no_quote).blank (piece_word hc.type)
  have hunique : Piece "UNIQUE".toList [.word ['U', 'N', 'I', 'Q', 'U', 'E']] :=
    piece_word (by decide)
  unfold columnText SqlText.ColumnDef.tokens ColumnDef.toSql
  cases c.unique with
  | true => simpa [quote] using hbase.blank hunique
  | false => simpa [quote] using hbase

theorem toList_createTableText (table : String) (columns : List ColumnDef) :
    (createTableText table columns).toList =
      ((" ".intercalate ["CREATE", "TABLE", "IF", "NOT", "EXISTS"]).toList ++ ' ' ::
        quote table) ++ ' ' ::
        ('(' :: ([',', ' '].intercalate (columns.map fun c => (columnText c).toList) ++
          [')'])) := by
  have hcolumns : (columns.map fun c => (columnText c).toList) =
      (columns.map columnText).map String.toList := by
    rw [List.map_map]
    rfl
  unfold createTableText quote
  rw [hcolumns]
  simp [String.intercalate_cons_cons]

theorem tokens_createTableText {table : String} {columns : List ColumnDef}
    (htable : IsIdentifier table) (hcolumns : ∀ c ∈ columns, c.Plain) :
    tokens (createTableText table columns) =
      some (SqlText.Statement.createTable table (columns.map ColumnDef.toSql)).tokens := by
  have hkeywords := piece_words ["CREATE", "TABLE", "IF", "NOT", "EXISTS"] (by decide)
  have hlist := (piece_list (fun c => (columnText c).toList) _ columns
    fun c hc => piece_column (hcolumns c hc)).parens
  have htext := (hkeywords.blank (piece_quote htable.no_quote)).blank hlist
  rw [← toList_createTableText] at htext
  rw [htext.tokens_eq, SqlText.Statement.tokens, parenthesised, List.append_assoc, List.map_map]
  rfl

/-- The text of a `CREATE TABLE` reads as that statement. -/
theorem read_createTableText {table : String} {columns : List ColumnDef}
    (htable : IsIdentifier table) (hcolumns : ∀ c ∈ columns, c.Plain) (hne : columns ≠ []) :
    SqlText.read (createTableText table columns) =
      some (.createTable table (columns.map ColumnDef.toSql)) := by
  refine read_of_tokens ?_ (tokens_createTableText htable hcolumns)
  simpa [Statement.Proper] using hne

example : SqlText.read "CREATE TABLE IF NOT EXISTS \"t\" (\"id\" TEXT UNIQUE, \"n\" REAL)" =
    some (.createTable "t" [⟨"id", "TEXT", true⟩, ⟨"n", "REAL", false⟩]) := by decide

theorem piece_row (row : List SqlValue) : Piece (rowText row).toList (rowTokens row.length) := by
  have hplaceholders := (piece_list (fun _ => ['?']) placeholderTokens
    (List.replicate row.length ()) fun _ _ => piece_placeholder).parens
  have hmarks : (row.map fun _ => "?").map String.toList =
      (List.replicate row.length ()).map fun _ => ['?'] := by
    simp
  have htext : (rowText row).toList =
      '(' :: ([',', ' '].intercalate ((List.replicate row.length ()).map fun _ => ['?']) ++
        [')']) := by
    rw [← hmarks]
    simp [rowText]
  rw [htext]
  exact hplaceholders

theorem toList_insertText (stmt : InsertRows) :
    (insertText stmt).toList =
      (((((" ".intercalate ["INSERT", "INTO"]).toList ++ ' ' :: quote stmt.table) ++ ' ' ::
        ('(' :: ([',', ' '].intercalate (stmt.columns.map quote) ++ [')']))) ++ ' ' ::
        (" ".intercalate ["VALUES"]).toList) ++ ' ' ::
        [',', ' '].intercalate (stmt.rows.map fun row => (rowText row).toList)) ++
        (if stmt.doNothing then
          ' ' :: (" ".intercalate ["ON", "CONFLICT", "DO", "NOTHING"]).toList else []) := by
  have hrows : (stmt.rows.map fun row => (rowText row).toList) =
      (stmt.rows.map rowText).map String.toList := by
    rw [List.map_map]
    rfl
  have hcolumns : stmt.columns.map quote =
      (stmt.columns.map fun n => "\"" ++ n ++ "\"").map String.toList := by
    rw [List.map_map]
    exact List.map_congr_left fun n _ => by simp [quote]
  unfold insertText quote
  rw [hrows]
  unfold quote at hcolumns
  rw [hcolumns]
  cases stmt.doNothing <;> simp [String.intercalate_cons_cons]

/-- The tokens of an insert, as far as it goes without its conflict clause. -/
theorem piece_insert {stmt : InsertRows} (htable : IsIdentifier stmt.table)
    (hcolumns : ∀ n ∈ stmt.columns, IsIdentifier n) :
    Piece (insertText stmt).toList
      (SqlText.Statement.insert stmt.table stmt.columns (stmt.rows.map List.length)
        stmt.doNothing).tokens := by
  have hinto := piece_words ["INSERT", "INTO"] (by decide)
  have hnames := (piece_list quote nameTokens stmt.columns
    fun n hn => piece_quote (hcolumns n hn).no_quote).parens
  have hvalues := piece_words ["VALUES"] (by decide)
  have hrows := piece_list (fun row => (rowText row).toList) _ stmt.rows
    fun row _ => piece_row row
  have hplain := (((hinto.blank (piece_quote htable.no_quote)).blank hnames).blank
    hvalues).blank hrows
  have hclause := piece_words ["ON", "CONFLICT", "DO", "NOTHING"] (by decide)
  rw [toList_insertText]
  cases hdoNothing : stmt.doNothing with
  | true =>
      have hall := hplain.blank hclause
      simpa [SqlText.Statement.tokens, parenthesised, clauseTokens, Function.comp_def] using hall
  | false =>
      simpa [SqlText.Statement.tokens, parenthesised, clauseTokens, Function.comp_def] using hplain

/-- What should be understood of a request: itself, unless it names no column. -/
def Request.meaning (q : Request) : Option Request := if q.names = [] then none else some q

theorem understand_createTable {table : String} {columns : List ColumnDef}
    (htable : IsIdentifier table) (hcolumns : ∀ c ∈ columns, c.Plain) :
    understand (createTableText table columns) [] =
      (Request.execute (.createTable table columns)).meaning := by
  have hback : (columns.map ColumnDef.toSql).map ColumnDef.ofSql = columns := by
    rw [List.map_map]
    exact List.map_id columns
  have htokens := tokens_createTableText htable hcolumns
  unfold understand Request.meaning Request.names
  by_cases hne : columns = []
  · subst hne
    rw [read_of_tokens_createTable_nil htokens]
    rfl
  · rw [read_createTableText htable hcolumns hne]
    simp only [hback, List.map_eq_nil_iff, hne, if_true, if_false]

theorem understand_insert {stmt : InsertRows} (htable : IsIdentifier stmt.table)
    (hcolumns : ∀ n ∈ stmt.columns, IsIdentifier n) (hrows : stmt.rows ≠ [])
    (hwidth : ∀ row ∈ stmt.rows, row.length = stmt.columns.length) :
    understand (insertText stmt) stmt.rows.flatten = (Request.insert stmt).meaning := by
  have htokens := (piece_insert htable hcolumns).tokens_eq
  unfold understand Request.meaning Request.names
  by_cases hne : stmt.columns = []
  · rw [hne] at htokens
    rw [read_of_tokens_insert_nil htokens, if_pos hne]
  · have hproper : (SqlText.Statement.insert stmt.table stmt.columns (stmt.rows.map List.length)
        stmt.doNothing).Proper := by
      refine ⟨hne, by simpa using hrows, fun n hn => ?_⟩
      obtain ⟨row, hrow, rfl⟩ := List.mem_map.mp hn
      rw [hwidth row hrow]
      exact fun hzero => hne (List.length_eq_zero_iff.mp hzero)
    rw [read_of_tokens hproper htokens, if_neg hne]
    simp only [fill_flatten, Option.map_some]

/-- The frames that a query returns have a cell in every column of every row. -/
def ReplyFits : (q : Request) → Reply q → Prop
  | .query _, .ok df => ∀ row ∈ df.rows, row.length = df.columns.length
  | _, _ => True

/-- The text of a request and its values are understood as they were meant. -/
def Request.Understood (q : Request) : Prop :=
  ∀ text values, q.sql = some (text, values) → understand text values = q.meaning

section Statements

variable {Q : Unit → Prop} {host : Host} {ops : FloatOps}

theorem understood_of_no_sql {q : Request} (h : q.sql = none) : q.Understood := by
  intro text values hsql
  rw [h] at hsql
  cases hsql

theorem isWord_polarsDtypeToSqlite (t : DataType) :
    isWord (polarsDtypeToSqlite t).toList = true := by
  cases t <;> decide

theorem plain_ofType {c : String × DataType} (hname : IsIdentifier c.1) (unique : Bool) :
    ColumnDef.Plain ⟨c.1, polarsDtypeToSqlite c.2, unique⟩ :=
  ⟨hname, isWord_polarsDtypeToSqlite c.2⟩

/-- A task that gets replies that fit makes requests that are understood. -/
abbrev Clear {α : Type} (Q : α → Prop) (p : Task α) : Prop :=
  safeTry (fun _ q r _ => ReplyFits q r) (fun _ => Request.Understood) (fun a _ => Q a)
    (fun _ _ => True) p ()

theorem Clear.bind {α β : Type} {Q : α → Prop} {Q' : β → Prop} {p : Task α} {f : α → Task β}
    (h : Clear Q p) (hf : ∀ a, Q a → Clear Q' (f a)) : Clear Q' (p >>= f) :=
  safeTry_bind h fun a _ => hf a

/-- A request without a text of its own. -/
theorem clear_ask {q : Request} (h : q.sql = none) : Clear (fun _ => True) (ask q) :=
  ⟨understood_of_no_sql h, fun _ _ _ => trivial⟩

theorem clear_check {α : Type} {x : Except Error α} : Clear (fun a => x = .ok a) (check x) := by
  cases x with
  | ok a => exact rfl
  | error e => exact trivial

theorem clear_execute {stmt : Statement} (h : (Request.execute stmt).Understood) :
    Clear (fun _ => True) (execute stmt) := by
  refine ⟨h, fun r _ _ => ?_⟩
  cases r <;> exact trivial

theorem clear_insert {stmt : InsertRows} (h : (Request.insert stmt).Understood) :
    Clear (fun _ => True) (insert stmt) := by
  refine ⟨h, fun r _ _ => ?_⟩
  cases r <;> exact trivial

theorem clear_record (u : StatusUpdate) : Clear (fun _ => True) (record u) :=
  Clear.bind (clear_ask rfl) fun _ _ => clear_execute (understood_of_no_sql rfl)

theorem clear_ensureTable (table : String) (df : DataFrame) (dedupeColumn : Option String) :
    Clear (fun _ => True) (ensureTable host table df dedupeColumn) := by
  refine Clear.bind clear_check fun _ hnames => clear_execute ?_
  obtain ⟨htable, hcolumns⟩ := identifiers_of_validateNames hnames
  intro text values hsql
  cases hsql
  refine understand_createTable htable fun c hc => ?_
  obtain ⟨column, hcolumn, rfl⟩ := List.mem_map.mp hc
  exact plain_ofType (hcolumns column hcolumn) _

theorem lt_of_mem_stepBy {height batch start : Nat} (hbatch : 0 < batch)
    (h : start ∈ stepBy height batch) : start < height := by
  obtain ⟨i, hi, rfl⟩ := List.mem_map.mp h
  rw [List.mem_range, Nat.lt_div_iff_mul_lt hbatch] at hi
  omega

/-- The rows from a start are not empty, and as wide as the frame. -/
theorem clear_insertStatements {table : String} {df : DataFrame} {doNothing : Bool}
    {rowsPerBatch : Nat} (hbatch : 0 < rowsPerBatch) (htable : IsIdentifier table)
    (hcolumns : ∀ c ∈ df.columns, IsIdentifier c.1)
    (hwidth : ∀ row ∈ df.rows, row.length = df.columns.length) :
    ∀ (starts : List Nat) (total : Nat), (∀ start ∈ starts, start < df.height) →
      Clear (fun _ => True) (insertStatements ops table df doNothing rowsPerBatch starts total)
  | [], _, _ => safeTry_pure trivial
  | start :: starts, total, hstarts => by
      obtain ⟨hstart, hstarts⟩ := List.forall_mem_cons.mp hstarts
      refine Clear.bind (clear_insert ?_) fun affected _ =>
        clear_insertStatements hbatch htable hcolumns hwidth starts (total + affected) hstarts
      intro text values hsql
      cases hsql
      refine understand_insert htable ?_ ?_ ?_
      · intro n hn
        obtain ⟨c, hc, rfl⟩ := List.mem_map.mp hn
        exact hcolumns c hc
      · have hheight : start < df.rows.length := hstart
        intro hnil
        have hlength := congrArg List.length hnil
        simp only [DataFrame.slice, List.length_map, List.length_take, List.length_drop,
          List.length_nil] at hlength
        omega
      · intro row hrow
        obtain ⟨cells, hcells, rfl⟩ := List.mem_map.mp hrow
        rw [List.length_map, List.length_map]
        exact hwidth cells (List.mem_of_mem_drop (List.mem_of_mem_take hcells))

theorem clear_insertChunk (table : String) {df : DataFrame} (dedupeColumn : Option String)
    (hwidth : ∀ row ∈ df.rows, row.length = df.columns.length) :
    Clear (fun _ => True) (insertChunk host ops table df dedupeColumn) := by
  unfold insertChunk
  split
  · exact safeTry_pure trivial
  · have hbatch : 0 < max (sqliteBindLimit / max df.columns.length 1) 1 :=
      Nat.lt_of_lt_of_le Nat.zero_lt_one (Nat.le_max_right _ _)
    refine Clear.bind clear_check fun _ hnames => ?_
    obtain ⟨htable, hcolumns⟩ := identifiers_of_validateNames hnames
    refine Clear.bind (clear_execute (understood_of_no_sql rfl)) fun _ _ => ?_
    refine Clear.bind (clear_insertStatements hbatch htable hcolumns hwidth _ 0
      fun start hstart => lt_of_mem_stepBy hbatch hstart) fun total _ => ?_
    exact Clear.bind (clear_execute (understood_of_no_sql rfl)) fun _ _ =>
      safeTry_pure trivial

theorem clear_stopIfCancelled : Clear (fun _ => True) stopIfCancelled := by
  refine Clear.bind (clear_ask rfl) fun raised _ => ?_
  cases raised with
  | true => exact trivial
  | false => exact safeTry_pure trivial

theorem clear_insertBatches (jobId : String) (spec : PipelineSpec) {df : DataFrame} (batch : Nat)
    (hwidth : ∀ row ∈ df.rows, row.length = df.columns.length) :
    ∀ (starts : List Nat) (rowsWritten : Nat),
      Clear (fun _ => True) (insertBatches host ops jobId spec df batch starts rowsWritten)
  | [], _ => safeTry_pure trivial
  | start :: starts, rowsWritten => by
      have hslice : ∀ row ∈ (df.slice start (min batch (df.height - start))).rows,
          row.length = df.columns.length := fun row hrow =>
        hwidth row (List.mem_of_mem_drop (List.mem_of_mem_take hrow))
      refine Clear.bind clear_stopIfCancelled fun _ _ => ?_
      refine Clear.bind (clear_insertChunk _ _ hslice) fun written _ => ?_
      refine Clear.bind (clear_record _) fun _ _ => ?_
      refine Clear.bind (clear_ask rfl) fun _ _ => ?_
      exact clear_insertBatches jobId spec batch hwidth starts (rowsWritten + written)

theorem clear_load (jobId : String) (spec : PipelineSpec) {df : DataFrame}
    (hwidth : ∀ row ∈ df.rows, row.length = df.columns.length) :
    Clear (fun _ => True) (load host ops jobId spec df) := by
  refine Clear.bind (clear_ensureTable _ _ _) fun _ _ => ?_
  refine Clear.bind clear_stopIfCancelled fun _ _ => ?_
  refine Clear.bind (clear_insertBatches jobId spec _ hwidth _ 0) fun rowsWritten _ => ?_
  refine Clear.bind (Clear.bind (clear_ask rfl) fun now _ => clear_record _) fun _ _ => ?_
  exact clear_ask rfl

theorem clear_readSource (spec : PipelineSpec) : Clear (fun _ => True) (readSource spec) := by
  refine ⟨understood_of_no_sql rfl, fun r _ _ => ?_⟩
  cases r <;> exact trivial

/-- The frame of the query fits its columns. -/
theorem clear_collect (spec : PipelineSpec) :
    Clear (fun df => ∀ row ∈ df.rows, row.length = df.columns.length) (collect spec) := by
  refine ⟨understood_of_no_sql rfl, fun r _ hr => ?_⟩
  cases r with
  | ok df => exact hr
  | error e => exact trivial

theorem clear_executeJob (jobId : String) (spec : PipelineSpec) :
    Clear (fun _ => True) (executeJob host ops jobId spec) := by
  refine Clear.bind (clear_record _) fun _ _ => ?_
  refine Clear.bind (clear_ask rfl) fun _ _ => ?_
  refine Clear.bind (clear_readSource spec) fun _ _ => ?_
  exact Clear.bind (clear_collect spec) fun df hwidth => clear_load jobId spec hwidth

end Statements

/-- Whatever a task is answered, as long as its frame is rectangular: every text that it hands
to the database, with the values bound to it, is the one statement that was meant, or none at
all if the frame has no columns. -/
theorem statements_understood (host : Host) (ops : FloatOps) (jobId : String)
    (spec : PipelineSpec) :
    safe (fun _ q r _ => ReplyFits q r) (fun _ => Request.Understood) (fun _ _ => True)
      (task host ops jobId spec) () := by
  have hask : ∀ q : Request, q.sql = none →
      safe (fun _ q r _ => ReplyFits q r) (fun _ => Request.Understood) (fun _ _ => True)
        (exchange q) () :=
    fun q hq => safe_request (understood_of_no_sql hq) fun _ _ _ => trivial
  have hmark : ∀ u : Nat → StatusUpdate,
      safe (fun _ q r _ => ReplyFits q r) (fun _ => Request.Understood) (fun _ _ => True)
        (clock >>= fun now => record (u now) : Task Unit).run () := by
    intro u
    have hboth : Clear (fun _ => True) (clock >>= fun now => record (u now)) :=
      Clear.bind (clear_ask rfl) fun now _ => clear_record _
    exact safe_mono (fun _ _ _ => trivial) hboth
  refine safe_bind (fun result _ _ => safe_bind (fun _ _ _ => ?_) (hask .dropFlag rfl))
    (safe_mono (fun _ _ _ => trivial) (clear_executeJob jobId spec))
  cases result with
  | ok u => exact trivial
  | error e =>
      cases e with
      | cancelled =>
          refine safe_bind (fun snapshot _ _ => ?_) (hask .counts rfl)
          exact safe_bind (fun _ _ _ => hask (.send _) rfl) (hmark .cancelled)
      | _ => exact safe_bind (fun _ _ _ => hask (.send _) rfl) (hmark fun now => .failed now _)

end Etl
end OrbitOpenEO
