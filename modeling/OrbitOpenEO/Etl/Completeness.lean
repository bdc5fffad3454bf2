import OrbitOpenEO.Etl.Dedupe
import OrbitOpenEO.Etl.Start
import Mathlib.Data.Rat.Cast.Order

/-!
# Completeness of a load

The loop of `execute` cuts the frame into batches and `insert_chunk` cuts a batch into
statements.  Put together, the statements bring every row of the frame once and in order, none
of them binds more values than SQLite takes, and the row count that is reported is the sum of
what the statements affected.

A cell goes through `anyvalue_to_json` and `bind_json_value`.  Unsigned integers that do not fit
into an `i64` are bound as an `f64`, and only multiples of 2048 survive that.
-/

namespace OrbitOpenEO
namespace Etl

open Lib Program

/-- The multiple of a unit that is nearest to a number, the even one of two. -/
def roundHalfEven (n unit : Nat) : Nat :=
  if 2 * (n % unit) < unit ∨ 2 * (n % unit) = unit ∧ n / unit % 2 = 0 then n / unit * unit
  else (n / unit + 1) * unit

/-- `as f64` of a `u64`, which keeps 53 binary digits. -/
def u64AsF64 (n : Nat) : Nat := roundHalfEven n (2 ^ (n.log2 - 52))

theorem roundHalfEven_eq_iff {unit : Nat} (hunit : 0 < unit) (n : Nat) :
    roundHalfEven n unit = n ↔ unit ∣ n := by
  constructor
  · intro h
    unfold roundHalfEven at h
    split_ifs at h
    · exact ⟨n / unit, by rw [Nat.mul_comm]; exact h.symm⟩
    · exact ⟨n / unit + 1, by rw [Nat.mul_comm]; exact h.symm⟩
  · intro h
    have hmod : n % unit = 0 := Nat.mod_eq_zero_of_dvd h
    rw [roundHalfEven, if_pos (.inl (by rw [hmod]; exact hunit)), Nat.div_mul_cancel h]

/-- Beyond `i64` neighbouring floats are 2048 apart. -/
theorem u64AsF64_eq_iff {n : Nat} (hlow : 2 ^ 63 ≤ n) (hhigh : n < 2 ^ 64) :
    u64AsF64 n = n ↔ 2048 ∣ n := by
  have hzero : n ≠ 0 := by omega
  have hlog : n.log2 = 63 := by
    refine Nat.le_antisymm (Nat.le_of_lt_succ ((Nat.log2_lt hzero).mpr hhigh)) ?_
    exact (Nat.le_log2 hzero).mpr hlow
  rw [u64AsF64, hlog, roundHalfEven_eq_iff (Nat.two_pow_pos _)]

/-- The conversion of unsigned integers. -/
def CastsUnsigned (ops : FloatOps) : Prop :=
  ∀ n : Nat, n < 2 ^ 64 → ops.ofInt n = .finite (u64AsF64 n)

/-- The value that is bound for a boolean, an integer, a string or a null is that value. -/
def KeepsCell : AnyValue → SqlValue → Prop
  | .null, v => v = .null
  | .boolean b, v => v = .integer (if b then 1 else 0)
  | .string s, v => v = .text s
  | .int i, v => v = .integer i ∨ v = .real (.finite i)
  | .float _, _ => True
  | .other _, _ => True

/-- The integers of a cell have 64 bits. -/
def CellFits : AnyValue → Prop
  | .int i => -(2 ^ 63) ≤ i ∧ i < 2 ^ 64
  | _ => True

/-- A cell that can be bound as it is: not an integer beyond `i64` unless 2048 divides it. -/
def CellExact : AnyValue → Prop
  | .int i => i < 2 ^ 63 ∨ 2048 ∣ i
  | _ => True

theorem keepsCell_bindAnyValue_iff {ops : FloatOps} (hops : CastsUnsigned ops) {v : AnyValue}
    (hfits : CellFits v) : KeepsCell v (bindAnyValue ops v) ↔ CellExact v := by
  cases v with
  | null => exact iff_of_true rfl trivial
  | boolean b => exact iff_of_true rfl trivial
  | string s => exact iff_of_true rfl trivial
  | float x => exact Iff.rfl
  | other text => exact Iff.rfl
  | int i =>
      obtain ⟨hlow, hhigh⟩ := hfits
      rw [bindAnyValue]
      split_ifs with hi
      · exact iff_of_true (.inl rfl) (.inl hi.2)
      · have hbeyond : 2 ^ 63 ≤ i := by omega
        lift i to Nat using (by omega)
        have hcast : KeepsCell (.int i) (.real (ops.ofInt i)) ↔ u64AsF64 i = i := by
          rw [hops i (by omega)]
          simp only [KeepsCell, reduceCtorEq, false_or, SqlValue.real.injEq, F64.finite.injEq,
            Int.cast_natCast, Nat.cast_inj]
        rw [hcast, u64AsF64_eq_iff (by omega) (by omega), CellExact, or_iff_right (by omega)]
        omega

/-- What a run has issued, how many rows that affected, and the row counts with which the job
was recorded and reported as completed. -/
structure Ledger where
  issued : List InsertRows
  affected : Nat
  completions : List (Nat × Nat)

namespace Ledger

/-- The rows of the statements. -/
def rows (s : Ledger) : List (List SqlValue) := s.issued.flatMap InsertRows.rows

/-- A statement, and the rows that it affected. -/
def issue (s : Ledger) (stmt : InsertRows) (n : Nat) : Ledger :=
  { s with issued := s.issued ++ [stmt], affected := s.affected + n }

/-- The row counts of a job that has ended. -/
def complete (s : Ledger) (rowsRead rowsWritten : Nat) : Ledger :=
  { s with completions := s.completions ++ [(rowsRead, rowsWritten)] }

/-- Another exchange. -/
def note (s : Ledger) : Exchange Reply → Ledger
  | ⟨.insert stmt, .ok n⟩ => s.issue stmt n.val
  | ⟨.insert stmt, .error _⟩ => s.issue stmt 0
  | ⟨.update (.completed rowsRead rowsWritten _), _⟩ => s.complete rowsRead rowsWritten
  | ⟨.execute (.updateJob (.completed rowsRead rowsWritten _)), _⟩ =>
      s.complete rowsRead rowsWritten
  | ⟨.send (.completed _ rowsRead rowsWritten), _⟩ => s.complete rowsRead rowsWritten
  | _ => s

/-- The ledger of a run. -/
def ofTrace (tr : List (Exchange Reply)) : Ledger := tr.foldl note ⟨[], 0, []⟩

end Ledger

/-- An exchange is entered into the ledger. -/
def ledgerAct (s : Ledger) (q : Request) (r : Reply q) (t : Ledger) : Prop := t = s.note ⟨q, r⟩

section Walk

variable {α : Type} {host : Host} {ops : FloatOps} {Q : Unit → Ledger → Prop}
  {E : Error → Ledger → Prop} {s : Ledger}

theorem wpTry_insert_ledger {Q : Nat → Ledger → Prop} {stmt : InsertRows}
    (hok : ∀ n, Q n (s.issue stmt n)) (herr : ∀ e, E e (s.issue stmt 0)) :
    wpTry ledgerAct Q E (insert stmt) s := by
  rintro (e | n) t rfl
  · exact herr _
  · exact hok n.val

/-- A statement that does not complete the job. -/
theorem wpTry_execute_ledger {stmt : Statement}
    (hstmt : ∀ rowsRead rowsWritten now, stmt ≠ .updateJob (.completed rowsRead rowsWritten now))
    (hok : Q () s) (herr : ∀ e, E e s) : wpTry ledgerAct Q E (execute stmt) s := by
  have hnote : ∀ r, s.note ⟨.execute stmt, r⟩ = s := by
    intro r
    unfold Ledger.note
    split
    case h_4 heq =>
      cases heq
      exact absurd rfl (hstmt _ _ _)
    all_goals first | rfl | (rename_i heq; cases heq)
  rintro (e | u) t rfl
  · rw [hnote]
    exact herr _
  · rw [hnote]
    exact hok

theorem wpTry_stopIfCancelled_ledger (hok : Q () s) (herr : ∀ e, E e s) :
    wpTry ledgerAct Q E stopIfCancelled s := by
  refine wpTry_bind.mpr (wpTry_ask.mpr ?_)
  rintro (_ | _) t rfl
  · exact hok
  · exact herr _

theorem wpTry_bumpProgress_ledger {rowsRead rowsWritten : Nat} (hok : Q () s)
    (herr : ∀ e, E e s) : wpTry ledgerAct Q E (bumpProgress rowsRead rowsWritten) s := by
  refine wpTry_bind.mpr (wpTry_ask.mpr ?_)
  rintro ⟨⟩ t rfl
  exact wpTry_execute_ledger nofun hok herr

theorem wpTry_progress_ledger {jobId : String} {rowsRead rowsWritten : Nat} (hok : Q () s) :
    wpTry ledgerAct Q E (send (.progress jobId rowsRead rowsWritten)) s := by
  refine wpTry_ask.mpr ?_
  rintro ⟨⟩ t rfl
  exact hok

/-- The statements so far have these rows, and each of them is within a limit. -/
structure Account (limit : InsertRows → Prop) (rows : List (List SqlValue)) (n : Nat)
    (s : Ledger) : Prop where
  rows_eq : s.rows = rows
  affected_eq : s.affected = n
  completions_eq : s.completions = []
  limited : ∀ stmt ∈ s.issued, limit stmt

/-- A run that has come to its end: the statements begin the rows, and a completion has the
counts of the statements. -/
structure Settled (limit : InsertRows → Prop) (all : List (List SqlValue)) (height : Nat)
    (s : Ledger) : Prop where
  begins : s.rows <+: all
  counted : ∀ c ∈ s.completions, c = (height, s.affected)
  limited : ∀ stmt ∈ s.issued, limit stmt

variable {limit : InsertRows → Prop} {rows all : List (List SqlValue)} {n height : Nat}

theorem Account.issue (h : Account limit rows n s) {stmt : InsertRows} (hstmt : limit stmt)
    (m : Nat) : Account limit (rows ++ stmt.rows) (n + m) (s.issue stmt m) where
  rows_eq := by
    rw [← h.rows_eq]
    simp only [Ledger.rows, Ledger.issue, List.flatMap_append, List.flatMap_singleton]
  affected_eq := congrArg (· + m) h.affected_eq
  completions_eq := h.completions_eq
  limited := by
    intro x hx
    rcases List.mem_append.mp hx with hx | hx
    · exact h.limited x hx
    · rwa [List.mem_singleton.mp hx]

theorem Account.settled (h : Account limit rows n s) (hall : rows <+: all) :
    Settled limit all height s where
  begins := h.rows_eq ▸ hall
  counted c hc := by
    rw [h.completions_eq] at hc
    cases hc
  limited := h.limited

/-- The rows of a frame as they are bound. -/
def boundRows (ops : FloatOps) (rows : List (List AnyValue)) : List (List SqlValue) :=
  rows.map fun row => row.map (bindAnyValue ops)

theorem boundRows_append (rows rows' : List (List AnyValue)) :
    boundRows ops (rows ++ rows') = boundRows ops rows ++ boundRows ops rows' :=
  List.map_append

/-- The statements of a chunk. -/
theorem wpTry_insertStatements_ledger {table : String} {chunk : DataFrame} {doNothing : Bool}
    {rowsPerBatch : Nat}
    (hlimit : ∀ start, limit ⟨table, chunk.names,
      boundRows ops ((chunk.rows.drop start).take rowsPerBatch), doNothing⟩) :
    ∀ (starts : List Nat) (total : Nat) {before : Nat} {rows : List (List SqlValue)} {s : Ledger},
      Account limit rows (before + total) s →
      rows ++ boundRows ops
        (starts.flatMap fun start => (chunk.rows.drop start).take rowsPerBatch) <+: all →
      wpTry ledgerAct
        (fun n => Account limit (rows ++ boundRows ops
          (starts.flatMap fun start => (chunk.rows.drop start).take rowsPerBatch)) (before + n))
        (fun _ => Settled limit all height)
        (insertStatements ops table chunk doNothing rowsPerBatch starts total) s
  | [], total, before, rows, s, h, _ => by
      refine wpTry_pure.mpr ?_
      rw [List.flatMap_nil, boundRows, List.map_nil, List.append_nil]
      exact h
  | start :: starts, total, before, rows, s, h, hall => by
      rw [List.flatMap_cons, boundRows_append, ← List.append_assoc] at hall ⊢
      unfold insertStatements
      refine wpTry_bind.mpr (wpTry_insert_ledger (fun n => ?_) fun e => ?_)
      · have hnext := h.issue (hlimit start) n
        rw [Nat.add_assoc] at hnext
        exact wpTry_insertStatements_ledger hlimit starts (total + n) hnext hall
      · exact (h.issue (hlimit start) 0).settled ((List.prefix_append _ _).trans hall)

/-- How many rows of a frame a statement brings at most. -/
def rowsPerBatch (df : DataFrame) : Nat := max (sqliteBindLimit / max df.columns.length 1) 1

/-- A limit that the statements of a frame keep. -/
def LimitsFrame (limit : InsertRows → Prop) (ops : FloatOps) (df : DataFrame) : Prop :=
  ∀ table doNothing, ∀ rows ⊆ df.rows, rows.length ≤ rowsPerBatch df →
    limit ⟨table, df.names, boundRows ops rows, doNothing⟩

/-- A chunk. -/
theorem wpTry_insertChunk_ledger {table : String} {chunk : DataFrame} {dedupe : Option String}
    (hlimit : LimitsFrame limit ops chunk) (h : Account limit rows n s)
    (hall : rows ++ boundRows ops chunk.rows <+: all) :
    wpTry ledgerAct (fun m => Account limit (rows ++ boundRows ops chunk.rows) (n + m))
      (fun _ => Settled limit all height) (insertChunk host ops table chunk dedupe) s := by
  have hbegun : Settled limit all height s := h.settled ((List.prefix_append _ _).trans hall)
  have hbatch : 0 < rowsPerBatch chunk := Nat.lt_of_lt_of_le Nat.one_pos (Nat.le_max_right _ _)
  have hslices := flatMap_stepBy_slices hbatch chunk.rows
  unfold insertChunk
  split
  · rename_i hempty
    refine wpTry_pure.mpr ?_
    rw [List.eq_nil_of_length_eq_zero hempty, boundRows, List.map_nil, List.append_nil]
    exact h
  · refine wpTry_bind.mpr (wpTry_check (fun _ => ?_) fun _ _ => hbegun)
    refine wpTry_bind.mpr (wpTry_execute_ledger (by simp) ?_ fun _ => hbegun)
    have hstatement : ∀ start, limit ⟨table, chunk.names,
        boundRows ops ((chunk.rows.drop start).take (rowsPerBatch chunk)), dedupe.isSome⟩ :=
      fun start => hlimit table dedupe.isSome _
        (List.Subset.trans (List.take_subset _ _) (List.drop_subset _ _)) (List.length_take_le _ _)
    refine wpTry_bind.mpr (wpTry_mono (fun m t ht => ?_) (fun _ _ ht => ht)
      (wpTry_insertStatements_ledger hstatement (stepBy chunk.height (rowsPerBatch chunk)) 0 h ?_))
    · rw [DataFrame.height, hslices] at ht
      exact wpTry_bind.mpr (wpTry_execute_ledger (by simp) (wpTry_pure.mpr ht) fun _ => ht.settled hall)
    · rw [DataFrame.height, hslices]
      exact hall

/-- The loop over the batches. -/
theorem wpTry_insertBatches_ledger {jobId : String} {spec : PipelineSpec} {df : DataFrame}
    {batch : Nat} (hlimit : LimitsFrame limit ops df) :
    ∀ (starts : List Nat) {written : Nat} {rows : List (List SqlValue)} {s : Ledger},
      Account limit rows written s →
      rows ++ boundRows ops (starts.flatMap fun start => (df.rows.drop start).take batch) <+: all →
      wpTry ledgerAct
        (Account limit (rows ++ boundRows ops
          (starts.flatMap fun start => (df.rows.drop start).take batch)))
        (fun _ => Settled limit all height)
        (insertBatches host ops jobId spec df batch starts written) s
  | [], written, rows, s, h, _ => by
      refine wpTry_pure.mpr ?_
      rw [List.flatMap_nil, boundRows, List.map_nil, List.append_nil]
      exact h
  | start :: starts, written, rows, s, h, hall => by
      rw [List.flatMap_cons, boundRows_append, ← List.append_assoc] at hall ⊢
      have hbegun := (List.prefix_append _ _).trans hall
      have hchunk : LimitsFrame limit ops (df.slice start (min batch (df.height - start))) :=
        fun table doNothing rows' hrows' => hlimit table doNothing rows'
          (List.Subset.trans hrows'
            (List.Subset.trans (List.take_subset _ _) (List.drop_subset _ _)))
      unfold insertBatches
      refine wpTry_bind.mpr (wpTry_stopIfCancelled_ledger ?_ fun _ =>
        h.settled ((List.prefix_append _ _).trans hbegun))
      refine wpTry_bind.mpr (wpTry_mono (fun m t ht => ?_) (fun _ _ ht => ht)
        (wpTry_insertChunk_ledger hchunk h ?_))
      · rw [rows_slice] at ht
        refine wpTry_bind.mpr (wpTry_bumpProgress_ledger ?_ fun _ => ht.settled hbegun)
        refine wpTry_bind.mpr (wpTry_progress_ledger ?_)
        exact wpTry_insertBatches_ledger hlimit starts ht hall
      · rw [rows_slice]
        exact hbegun

/-- `mark_completed` enters the counts twice. -/
theorem wpTry_markCompleted_ledger {rowsRead rowsWritten : Nat}
    (hok : Q () ((s.complete rowsRead rowsWritten).complete rowsRead rowsWritten))
    (herr : ∀ e, E e ((s.complete rowsRead rowsWritten).complete rowsRead rowsWritten)) :
    wpTry ledgerAct Q E (markCompleted rowsRead rowsWritten) s := by
  refine wpTry_bind.mpr (wpTry_ask.mpr ?_)
  rintro now s rfl
  refine wpTry_bind.mpr (wpTry_ask.mpr ?_)
  rintro ⟨⟩ t rfl
  rintro (e | u) t rfl
  · exact herr _
  · exact hok

/-- A load that has succeeded. -/
structure Loaded (limit : InsertRows → Prop) (all : List (List SqlValue)) (height : Nat)
    (s : Ledger) : Prop extends Settled limit all height s where
  rows_eq : s.rows = all
  reported : (height, s.affected) ∈ s.completions

/-- Entering a completion with the counts of the statements. -/
theorem Settled.complete (h : Settled limit all height s) (hrows : s.rows = all) :
    Loaded limit all height (s.complete height s.affected) where
  begins := h.begins
  counted c hc := by
    rcases List.mem_append.mp hc with hc | hc
    · exact h.counted c hc
    · exact List.mem_singleton.mp hc
  limited := h.limited
  rows_eq := hrows
  reported := List.mem_append_right _ (List.mem_singleton.mpr rfl)

/-- `execute` after the query. -/
theorem wpTry_load_ledger {jobId : String} {spec : PipelineSpec} {df : DataFrame}
    (hlimit : LimitsFrame limit ops df) (h : Account limit [] 0 s) :
    wpTry ledgerAct (fun _ => Loaded limit (boundRows ops df.rows) df.height)
      (fun _ => Settled limit (boundRows ops df.rows) df.height)
      (load host ops jobId spec df) s := by
  have hbegun : Settled limit (boundRows ops df.rows) df.height s := h.settled List.nil_prefix
  have hbatch : 0 < max spec.batchSize 1 := Nat.lt_of_lt_of_le Nat.one_pos (Nat.le_max_right _ _)
  have hslices := flatMap_stepBy_slices hbatch df.rows
  unfold load
  refine wpTry_bind.mpr (wpTry_bind.mpr (wpTry_check (fun _ => ?_) fun _ _ => hbegun))
  refine wpTry_execute_ledger nofun ?_ fun _ => hbegun
  refine wpTry_bind.mpr (wpTry_stopIfCancelled_ledger ?_ fun _ => hbegun)
  refine wpTry_bind.mpr (wpTry_mono (fun written t ht => ?_) (fun _ _ ht => ht)
    (wpTry_insertBatches_ledger hlimit (stepBy df.height (max spec.batchSize 1)) h ?_))
  · rw [DataFrame.height, hslices, List.nil_append] at ht
    have hloaded := (ht.settled List.prefix_rfl : Settled _ _ df.height t).complete ht.rows_eq
    have hrecorded := hloaded.toSettled.complete hloaded.rows_eq
    have hsent := hrecorded.toSettled.complete hrecorded.rows_eq
    rw [← ht.affected_eq]
    refine wpTry_bind.mpr (wpTry_markCompleted_ledger (wpTry_ask.mpr ?_) fun _ =>
      hrecorded.toSettled)
    rintro ⟨⟩ t' rfl
    exact hsent
  · rw [DataFrame.height, hslices]
    exact List.prefix_rfl

end Walk

/-- A frame has a cell in every column of every row. -/
structure DataFrame.Typed (df : DataFrame) : Prop where
  rectangular : ∀ row ∈ df.rows, row.length = df.columns.length
  fits : ∀ row ∈ df.rows, ∀ v ∈ row, CellFits v

/-- The values of a statement go to the columns of the frame, and are no more than SQLite takes
if one row of the frame is not. -/
def BindsFrame (df : DataFrame) (stmt : InsertRows) : Prop :=
  stmt.columns = df.names ∧
    (df.columns.length ≤ sqliteBindLimit → (stmt.rows.map List.length).sum ≤ sqliteBindLimit)

theorem limitsFrame_bindsFrame (ops : FloatOps) {df : DataFrame} (hdf : df.Typed) :
    LimitsFrame (BindsFrame df) ops df := by
  intro table doNothing rows hrows hlength
  refine ⟨rfl, fun hcolumns => ?_⟩
  have hwidth : ∀ n ∈ (boundRows ops rows).map List.length, n = df.columns.length := by
    intro n hn
    obtain ⟨_, hbound, rfl⟩ := List.mem_map.mp hn
    obtain ⟨row, hrow, rfl⟩ := List.mem_map.mp hbound
    rw [List.length_map, hdf.rectangular row (hrows hrow)]
  have hsum : ((boundRows ops rows).map List.length).sum = rows.length * df.columns.length := by
    rw [List.eq_replicate_of_mem hwidth, List.sum_replicate_nat, List.length_map, boundRows,
      List.length_map]
  rw [hsum]
  rcases Nat.eq_zero_or_pos df.columns.length with hzero | hpos
  · rw [hzero, Nat.mul_zero]
    exact Nat.zero_le _
  · have hrowsPerBatch : rowsPerBatch df = sqliteBindLimit / df.columns.length := by
      have hone : 1 ≤ sqliteBindLimit / df.columns.length := (Nat.one_le_div_iff hpos).mpr hcolumns
      rw [rowsPerBatch, Nat.max_eq_left hpos, Nat.max_eq_left hone]
    rw [hrowsPerBatch] at hlength
    exact (Nat.mul_le_mul_right _ hlength).trans (Nat.div_mul_le_self _ _)

/-- What a run has issued: the first rows of the frame, all of them if it has succeeded, in
statements that SQLite takes.  The number of written rows that it records and reports is the sum
of what the statements affected. -/
structure RunRight (df : DataFrame) (tr : List (Exchange Reply)) (result : Except Error Unit) :
    Prop where
  complete : ∃ k, (result = .ok () → df.height ≤ k) ∧
    List.Forall₂ (List.Forall₂ KeepsCell) (df.rows.take k) (Ledger.ofTrace tr).rows
  limited : ∀ stmt ∈ (Ledger.ofTrace tr).issued, BindsFrame df stmt
  counted : ∀ c ∈ (Ledger.ofTrace tr).completions, c = (df.height, (Ledger.ofTrace tr).affected)
  reported : result = .ok () →
    (df.height, (Ledger.ofTrace tr).affected) ∈ (Ledger.ofTrace tr).completions

section Loads

variable (host : Host) (ops : FloatOps) (jobId : String) (spec : PipelineSpec) (df : DataFrame)

/-- Every load of the frame is right, whatever the replies. -/
def LoadRight : Prop :=
  ∀ tr result, Program.Path (load host ops jobId spec df).run tr result → RunRight df tr result

/-- The names in the spec and in the frame are identifiers. -/
def NamesValid : Prop :=
  validateNames host spec.destinationTable df.columns spec.dedupeColumn = .ok ()

variable {host ops jobId spec df}

theorem forall₂_boundRows_iff {rows : List (List AnyValue)} :
    List.Forall₂ (List.Forall₂ KeepsCell) rows (boundRows ops rows) ↔
      ∀ row ∈ rows, ∀ v ∈ row, KeepsCell v (bindAnyValue ops v) := by
  simp only [boundRows, List.forall₂_map_right_iff, List.forall₂_same]

theorem ledger_of_path (hdf : df.Typed) {tr : List (Exchange Reply)} {result : Except Error Unit}
    (h : Program.Path (load host ops jobId spec df).run tr result) :
    Settled (BindsFrame df) (boundRows ops df.rows) df.height (Ledger.ofTrace tr) ∧
      (result = .ok () →
        Loaded (BindsFrame df) (boundRows ops df.rows) df.height (Ledger.ofTrace tr)) := by
  have hempty : Account (BindsFrame df) [] 0 ⟨[], 0, []⟩ := ⟨rfl, rfl, rfl, nofun⟩
  have hend := Program.Path.of_wp h
    (wpTry_load_ledger (limitsFrame_bindsFrame ops hdf) hempty)
  cases result with
  | error e =>
      exact ⟨hend, nofun⟩
  | ok u =>
      exact ⟨hend.toSettled, fun _ => hend⟩

/-- The replies when nothing goes wrong. -/
def smoothReply : (q : Request) → Reply q
  | .update _ => ()
  | .counts => (0, 0)
  | .now => 0
  | .poll => false
  | .dropFlag => ()
  | .send _ => ()
  | .execute _ => .ok ()
  | .insert _ => .ok 0
  | .readSource _ => .ok ()
  | .query _ => .ok ⟨[], []⟩

theorem answer_insertStatements {table : String} {chunk : DataFrame} {doNothing : Bool}
    {batch : Nat} : ∀ (starts : List Nat) (total : Nat),
      ∃ n, (insertStatements ops table chunk doNothing batch starts total).run.answer smoothReply =
        .ok n
  | [], total => ⟨total, rfl⟩
  | start :: starts, total => by
      unfold insertStatements
      rw [answer_bind_of_ok smoothReply (a := 0) rfl]
      exact answer_insertStatements starts (total + 0)

theorem answer_insertChunk {chunk : DataFrame}
    (hnames : validateNames host spec.destinationTable chunk.columns spec.dedupeColumn = .ok ()) :
    ∃ n, (insertChunk host ops spec.destinationTable chunk spec.dedupeColumn).run.answer
      smoothReply = .ok n := by
  unfold insertChunk
  split
  · exact ⟨0, rfl⟩
  · obtain ⟨n, hn⟩ : ∃ n, (insertStatements ops spec.destinationTable chunk
        spec.dedupeColumn.isSome (rowsPerBatch chunk) (stepBy chunk.height (rowsPerBatch chunk))
        0).run.answer smoothReply = .ok n := answer_insertStatements _ 0
    refine ⟨n, ?_⟩
    rw [hnames, answer_bind_of_ok smoothReply (a := ()) rfl,
      answer_bind_of_ok smoothReply (a := ()) rfl]
    exact (answer_bind_of_ok smoothReply hn).trans rfl

theorem answer_insertBatches {batch : Nat} (hnames : NamesValid host spec df) :
    ∀ (starts : List Nat) (written : Nat),
      ∃ n, (insertBatches host ops jobId spec df batch starts written).run.answer smoothReply =
        .ok n
  | [], written => ⟨written, rfl⟩
  | start :: starts, written => by
      obtain ⟨n, hn⟩ : ∃ n, (insertChunk host ops spec.destinationTable
          (df.slice start (min batch (df.height - start))) spec.dedupeColumn).run.answer
          smoothReply = .ok n := answer_insertChunk hnames
      unfold insertBatches
      rw [answer_bind_of_ok smoothReply (a := ()) rfl, answer_bind_of_ok smoothReply hn]
      exact answer_insertBatches hnames starts (written + n)

/-- With valid names a load can succeed. -/
theorem exists_path_ok (hnames : NamesValid host spec df) :
    ∃ tr, Program.Path (load host ops jobId spec df).run tr (.ok ()) := by
  have hpath := path_answer smoothReply (load host ops jobId spec df).run
  obtain ⟨n, hn⟩ : ∃ n, (insertBatches host ops jobId spec df (max spec.batchSize 1)
      (stepBy df.height (max spec.batchSize 1)) 0).run.answer smoothReply = .ok n :=
    answer_insertBatches hnames _ 0
  have hok : (load host ops jobId spec df).run.answer smoothReply = .ok () := by
    unfold load ensureTable
    rw [hnames, answer_bind_of_ok smoothReply (a := ()) rfl,
      answer_bind_of_ok smoothReply (a := ()) rfl]
    exact (answer_bind_of_ok smoothReply hn).trans rfl
  rw [hok] at hpath
  exact ⟨_, hpath⟩

/-- With other names nothing is issued. -/
theorem path_of_not_namesValid (hnames : ¬ NamesValid host spec df) {tr : List (Exchange Reply)}
    {result : Except Error Unit} (h : Program.Path (load host ops jobId spec df).run tr result) :
    tr = [] ∧ result ≠ .ok () := by
  unfold NamesValid at hnames
  unfold load ensureTable at h
  cases hcheck : validateNames host spec.destinationTable df.columns spec.dedupeColumn with
  | ok u =>
      exact absurd hcheck hnames
  | error e =>
      rw [hcheck] at h
      obtain ⟨rfl, rfl⟩ := path_done_iff.mp h
      exact ⟨rfl, nofun⟩

/-- The cells of a frame whose loads are right. -/
theorem LoadRight.cellExact (h : LoadRight host ops jobId spec df) (hops : CastsUnsigned ops)
    (hdf : df.Typed) (hnames : NamesValid host spec df) :
    ∀ row ∈ df.rows, ∀ v ∈ row, CellExact v := by
  intro row hrow v hv
  obtain ⟨tr, htr⟩ : ∃ tr, Program.Path (load host ops jobId spec df).run tr (.ok ()) :=
    exists_path_ok hnames
  obtain ⟨k, hk, hkeeps⟩ := (h tr _ htr).complete
  have hrows := ((ledger_of_path hdf htr).2 rfl).rows_eq
  rw [List.take_of_length_le (hk rfl), hrows, forall₂_boundRows_iff] at hkeeps
  exact (keepsCell_bindAnyValue_iff hops (hdf.fits row hrow v hv)).mp (hkeeps row hrow v hv)

theorem loadRight_iff (hops : CastsUnsigned ops) (hdf : df.Typed) :
    LoadRight host ops jobId spec df ↔
      (NamesValid host spec df → ∀ row ∈ df.rows, ∀ v ∈ row, CellExact v) := by
  constructor
  · exact fun h hnames => h.cellExact hops hdf hnames
  · intro hexact tr result htr
    by_cases hnames : NamesValid host spec df
    case pos =>
      obtain ⟨hsettled, hloaded⟩ := ledger_of_path hdf htr
      have hrows : (Ledger.ofTrace tr).rows =
          boundRows ops (df.rows.take (Ledger.ofTrace tr).rows.length) := by
        rw [boundRows, List.map_take]
        exact List.prefix_iff_eq_take.mp hsettled.begins
      have hkeeps : List.Forall₂ (List.Forall₂ KeepsCell)
          (df.rows.take (Ledger.ofTrace tr).rows.length)
          (boundRows ops (df.rows.take (Ledger.ofTrace tr).rows.length)) := by
        refine forall₂_boundRows_iff.mpr fun row hrow v hv => ?_
        have hmem := List.mem_of_mem_take hrow
        exact (keepsCell_bindAnyValue_iff hops (hdf.fits row hmem v hv)).mpr
          (hexact hnames row hmem v hv)
      rw [← hrows] at hkeeps
      refine ⟨⟨_, fun hok => ?_, hkeeps⟩, hsettled.limited, hsettled.counted,
        fun hok => (hloaded hok).reported⟩
      rw [(hloaded hok).rows_eq, boundRows, List.length_map, DataFrame.height]
    case neg =>
      obtain ⟨rfl, hresult⟩ := path_of_not_namesValid hnames htr
      exact ⟨⟨0, fun hok => absurd hok hresult, .nil⟩, List.forall_mem_nil _, List.forall_mem_nil _,
        fun hok => absurd hok hresult⟩

/-- An arithmetic with the conversion of integers, and otherwise without rounding. -/
def castingOps : FloatOps :=
  { FloatOps.exact with
    ofInt := fun n =>
      .finite (if 0 ≤ n then (u64AsF64 n.toNat : ℚ) else -(u64AsF64 (-n).toNat : ℚ)) }

theorem castsUnsigned_castingOps : CastsUnsigned castingOps := fun n _ => by
  simp [castingOps]

/-- A frame with a single integer. -/
def oneInteger (i : Int) : DataFrame := ⟨[("a", .integer)], [[.int i]]⟩

theorem typed_oneInteger {i : Int} (h : CellFits (.int i)) : (oneInteger i).Typed where
  rectangular row hrow := by
    rw [List.mem_singleton.mp hrow]
    rfl
  fits row hrow v hv := by
    rw [List.mem_singleton.mp hrow] at hv
    rwa [List.mem_singleton.mp hv]

/-- Three rows, with the first float beyond `i64` in the last one. -/
def threeRows : DataFrame :=
  ⟨[("a", .integer), ("b", .string)],
    [[.int (-1), .string "x"], [.null, .string "y"], [.int (2 ^ 63), .null]]⟩

theorem typed_threeRows : threeRows.Typed where
  rectangular := by decide
  fits := by simp [threeRows, CellFits]

/-- The last batch has one row only. -/
theorem loadRight_of_multiple :
    LoadRight Engine.sampleHost castingOps "1" { Engine.sampleSpec with batchSize := 2 }
      threeRows :=
  (loadRight_iff castsUnsigned_castingOps typed_threeRows).mpr fun _ => by
    simp [threeRows, CellExact]

/-- The neighbour of the first float beyond `i64` is bound as that float. -/
theorem neighbour_rounded :
    ¬ LoadRight Engine.sampleHost castingOps "1" Engine.sampleSpec (oneInteger (2 ^ 63 + 1)) := by
  intro h
  have hfits : CellFits (.int (2 ^ 63 + 1)) := by
    unfold CellFits
    decide
  have hexact := h.cellExact castsUnsigned_castingOps (typed_oneInteger hfits) rfl _
    List.mem_cons_self _ List.mem_cons_self
  exact absurd hexact (by unfold CellExact; decide)

end Loads

end Etl
end OrbitOpenEO
