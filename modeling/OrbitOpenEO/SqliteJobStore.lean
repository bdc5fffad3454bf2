import OrbitOpenEO.JobStore
import OrbitOpenEO.Lib.Run

/-!
# The SQLite job store

`SqliteJobStore` keeps a table with one row for each job.  Structured values are
JSON texts, times are `i64`, and the order of a listing is left to `ORDER BY
created`.  What SQLite and `serde_json` do is a parameter, `Sqlite`, with the
documented part of it as fields.

An operation of the trait is a `StoreOp`, and both stores answer it with a
`StoreReply`.  The table that stands for an `InMemoryJobStore` is a function of
it, `table`; as long as ids are not drawn twice every operation keeps the two in
step (`step_table`), and what remains is which replies agree
(`reply_eq_iff`).
-/

namespace OrbitOpenEO

/-- A column of JSON texts: `serde_json::to_string` and `from_str`, which lose
nothing. -/
structure JsonColumn (α : Type) where
  Text : Type
  encode : α → Text
  decode : Text → Except String α
  decode_encode : ∀ a, decode (encode a) = .ok a

/-- What the store relies on outside the repository.

* A `REAL` column has no NaN and gives back any other finite number as it was,
  up to the sign of a zero.
* `from_str` reads the label of a status between quotes. -/
structure Sqlite where
  process : JsonColumn Json
  assets : JsonColumn (List JobAsset)
  logs : JsonColumn (List JobLogEntry)
  parseStatus : String → Except String JobStatus
  parseStatus_label : ∀ status : JobStatus, parseStatus s!"\"{status.asStr}\"" = .ok status
  real : F64 → Option F64
  real_nan : real .nan = none
  real_finite : ∀ q, real (.finite q) = some (.finite q)
  real_real : ∀ x y, real x = some y → real y = some y
  constraintError : String → String

/-- The cast `as i64` of a `u64`. -/
def asI64 (n : Nat) : Int :=
  if n < 0x8000000000000000 then n else n - 0x10000000000000000

/-- The cast `as u64` of an `i64`. -/
def asU64 (i : Int) : Nat :=
  (if i < 0 then i + 0x10000000000000000 else i).toNat

theorem asU64_asI64 {n : Nat} (h : n < 0x10000000000000000) : asU64 (asI64 n) = n := by
  unfold asU64 asI64
  split_ifs <;> omega

/-- A row of the table `jobs`. -/
structure JobRow (db : Sqlite) where
  id : String
  userId : String
  title : Option String
  description : Option String
  process : db.process.Text
  status : String
  progress : Option F64
  created : Int
  updated : Int
  assets : db.assets.Text
  logs : db.logs.Text

/-- `ORDER BY created ASC`: the rows by `created`, those of one second in any order. -/
structure OrderByCreated (db : Sqlite) where
  apply : List (JobRow db) → List (JobRow db)
  perm : ∀ rows, (apply rows).Perm rows
  sorted : ∀ rows, (apply rows).Pairwise (fun a b => a.created ≤ b.created)

/-- The operations of the trait `JobStore`, with the id that `create` draws and the
reading of the clock. -/
inductive StoreOp where
  | create (now : UInt64) (uuid userId : String) (title description : Option String)
      (process : Json)
  | get (id : String)
  | listForUser (userId : String)
  | setStatus (now : UInt64) (id : String) (status : JobStatus)
  | setProgress (now : UInt64) (id : String) (progress : F64)
  | setMetadata (now : UInt64) (id : String) (title description : Option String)
  | delete (id : String)
  | addAsset (now : UInt64) (id : String) (asset : JobAsset)
  | appendLog (now : UInt64) (id level message : String)
  | getLogs (id : String)
  | recoverOrphans (now : UInt64)

/-- What an operation returns. -/
inductive StoreReply where
  | record (result : Except JobError JobRecord)
  | records (result : Except JobError (List JobRecord))
  | unit (result : Except JobError Unit)
  | logs (result : Except JobError (List JobLogEntry))
  | count (result : Except JobError Nat)

/-- The reply of an update that has the new state or an error. -/
def settle {σ : Type} (old : σ) : Except JobError σ → StoreReply × σ
  | .ok new => (.unit (.ok ()), new)
  | .error e => (.unit (.error e), old)

/-- `impl JobStore for InMemoryJobStore`. -/
def InMemoryJobStore.step (store : InMemoryJobStore) : StoreOp → StoreReply × InMemoryJobStore
  | .create now uuid userId title description process =>
      let (record, store) := store.create now.toNat uuid userId title description process
      (.record (.ok record), store)
  | .get id => (.record (store.get id), store)
  | .listForUser userId => (.records (.ok (store.listForUser userId)), store)
  | .setStatus now id status => settle store (store.setStatus now.toNat id status)
  | .setProgress now id progress => settle store (store.setProgress now.toNat id progress)
  | .setMetadata now id title description =>
      settle store (store.setMetadata now.toNat id title description)
  | .delete id => (.unit (.ok ()), store.delete id)
  | .addAsset now id asset => settle store (store.addAsset now.toNat id asset)
  | .appendLog now id level message => settle store (store.appendLog now.toNat id level message)
  | .getLogs id => (.logs (store.getLogs id), store)
  | .recoverOrphans now =>
      let (n, store) := store.recoverOrphans now.toNat
      (.count (.ok n), store)

namespace SqliteJobStore

variable {db : Sqlite}

/-- The text of a failed column or statement. -/
def backend {α : Type} (what : String) : Except String α → Except JobError α
  | .ok a => .ok a
  | .error e => .error (.backend s!"{what}: {e}")

/-- `row_to_record`. -/
def rowToRecord (row : JobRow db) : Except JobError JobRecord := do
  let process ← backend "process json" (db.process.decode row.process)
  let status ← backend "status" (db.parseStatus s!"\"{row.status}\"")
  let assets ← backend "assets" (db.assets.decode row.assets)
  .ok { id := row.id, userId := row.userId, title := row.title, description := row.description,
        process := process, status := status, progress := row.progress,
        created := asU64 row.created, updated := asU64 row.updated, assets := assets }

/-- `SELECT .. WHERE id = ?` with `fetch_optional`. -/
def fetchOptional (rows : List (JobRow db)) (id : String) : Except JobError (JobRow db) :=
  match rows.find? (fun r => r.id == id) with
  | some r => .ok r
  | none => .error (.notFound id)

/-- `UPDATE jobs SET .. WHERE ..`: the rows and how many were affected. -/
def update (rows : List (JobRow db)) (where_ : JobRow db → Bool)
    (set : JobRow db → JobRow db) : Nat × List (JobRow db) :=
  (rows.countP where_, rows.map (fun r => if where_ r then set r else r))

/-- An update of the row with an id, which has to be there. -/
def updateJob (rows : List (JobRow db)) (id : String) (set : JobRow db → JobRow db) :
    Except JobError (List (JobRow db)) :=
  let (affected, rows) := update rows (fun r => r.id == id) set
  if affected == 0 then .error (.notFound id) else .ok rows

/-- `create`.  The default of `assets` and `logs`, `'[]'`, is the text of an empty list. -/
def create (now : Nat) (uuid userId : String) (title description : Option String)
    (process : Json) (rows : List (JobRow db)) :
    Except JobError (JobRecord × List (JobRow db)) :=
  let now := asI64 now
  let row : JobRow db :=
    { id := uuid, userId := userId, title := title, description := description,
      process := db.process.encode process, status := JobStatus.created.asStr,
      progress := db.real (.finite 0), created := now, updated := now,
      assets := db.assets.encode [], logs := db.logs.encode [] }
  if rows.any (fun r => r.id == uuid) then
    .error (.backend s!"insert: {db.constraintError uuid}")
  else
    .ok ({ id := uuid, userId := userId, title := title, description := description,
           process := process, status := .created, progress := some (.finite 0),
           created := asU64 now, updated := asU64 now, assets := [] }, rows ++ [row])

/-- `get`. -/
def get (rows : List (JobRow db)) (id : String) : Except JobError JobRecord := do
  let row ← fetchOptional rows id
  rowToRecord row

/-- `list_for_user`. -/
def listForUser (order : OrderByCreated db) (rows : List (JobRow db)) (userId : String) :
    Except JobError (List JobRecord) :=
  (order.apply (rows.filter (fun r => r.userId == userId))).mapM rowToRecord

/-- `set_status`. -/
def setStatus (now : Nat) (id : String) (status : JobStatus) (rows : List (JobRow db)) :
    Except JobError (List (JobRow db)) :=
  updateJob rows id (fun r => { r with status := status.asStr, updated := asI64 now })

/-- `set_progress`. -/
def setProgress (now : Nat) (id : String) (progress : F64) (rows : List (JobRow db)) :
    Except JobError (List (JobRow db)) :=
  let p := progress.clamp (.finite 0) (.finite 100)
  updateJob rows id (fun r => { r with progress := db.real p, updated := asI64 now })

/-- `set_metadata`, with `COALESCE(?, column)`. -/
def setMetadata (now : Nat) (id : String) (title description : Option String)
    (rows : List (JobRow db)) : Except JobError (List (JobRow db)) :=
  updateJob rows id (fun r =>
    { r with
      title := title.or r.title
      description := description.or r.description
      updated := asI64 now })

/-- `delete`. -/
def delete (id : String) (rows : List (JobRow db)) : List (JobRow db) :=
  rows.filter (fun r => r.id != id)

/-- `add_asset`: read the list, append to it and write it back. -/
def addAsset (now : Nat) (id : String) (asset : JobAsset) (rows : List (JobRow db)) :
    Except JobError (List (JobRow db)) := do
  let row ← fetchOptional rows id
  let assets ← backend "decode assets" (db.assets.decode row.assets)
  let text := db.assets.encode (assets ++ [asset])
  .ok (update rows (fun r => r.id == id)
    (fun r => { r with assets := text, updated := asI64 now })).2

/-- `append_log`. -/
def appendLog (now : Nat) (id level message : String) (rows : List (JobRow db)) :
    Except JobError (List (JobRow db)) := do
  let row ← fetchOptional rows id
  let logs ← backend "decode logs" (db.logs.decode row.logs)
  let entry : JobLogEntry := ⟨toString logs.length, level, message, iso8601 now⟩
  let text := db.logs.encode (logs ++ [entry])
  .ok (update rows (fun r => r.id == id) (fun r => { r with logs := text })).2

/-- `get_logs`. -/
def getLogs (rows : List (JobRow db)) (id : String) : Except JobError (List JobLogEntry) := do
  let row ← fetchOptional rows id
  backend "decode logs" (db.logs.decode row.logs)

/-- `recover_orphans`: one `UPDATE` of the rows whose status is one of the two texts. -/
def recoverOrphans (now : Nat) (rows : List (JobRow db)) : Nat × List (JobRow db) :=
  update rows (fun r => ["queued", "running"].contains r.status)
    (fun r => { r with status := "error", updated := asI64 now })

/-- `impl JobStore for SqliteJobStore`. -/
def step (order : OrderByCreated db) (rows : List (JobRow db)) :
    StoreOp → StoreReply × List (JobRow db)
  | .create now uuid userId title description process =>
      match create now.toNat uuid userId title description process rows with
      | .ok (record, rows) => (.record (.ok record), rows)
      | .error e => (.record (.error e), rows)
  | .get id => (.record (get rows id), rows)
  | .listForUser userId => (.records (listForUser order rows userId), rows)
  | .setStatus now id status => settle rows (setStatus now.toNat id status rows)
  | .setProgress now id progress => settle rows (setProgress now.toNat id progress rows)
  | .setMetadata now id title description =>
      settle rows (setMetadata now.toNat id title description rows)
  | .delete id => (.unit (.ok ()), delete id rows)
  | .addAsset now id asset => settle rows (addAsset now.toNat id asset rows)
  | .appendLog now id level message => settle rows (appendLog now.toNat id level message rows)
  | .getLogs id => (.logs (getLogs rows id), rows)
  | .recoverOrphans now =>
      let (n, rows) := recoverOrphans now.toNat rows
      (.count (.ok n), rows)

/-- The row of a record with its log entries. -/
def rowOf (db : Sqlite) (logs : List JobLogEntry) (r : JobRecord) : JobRow db where
  id := r.id
  userId := r.userId
  title := r.title
  description := r.description
  process := db.process.encode r.process
  status := r.status.asStr
  progress := r.progress.bind db.real
  created := asI64 r.created
  updated := asI64 r.updated
  assets := db.assets.encode r.assets
  logs := db.logs.encode logs

@[simp] theorem rowOf_id (logs : List JobLogEntry) (r : JobRecord) :
    (rowOf db logs r).id = r.id := rfl

@[simp] theorem rowOf_userId (logs : List JobLogEntry) (r : JobRecord) :
    (rowOf db logs r).userId = r.userId := rfl

/-- The table that stands for an in-memory store. -/
def table (db : Sqlite) (store : InMemoryJobStore) : List (JobRow db) :=
  store.inner.map (fun r => rowOf db ((store.logs r.id).getD []) r)

/-- What both stores keep to: no id twice, times that fit in a `u64`, and log
entries of stored jobs only. -/
structure Coherent (store : InMemoryJobStore) : Prop where
  ids : (store.inner.map (·.id)).Nodup
  times : ∀ r ∈ store.inner, r.created < 0x10000000000000000 ∧ r.updated < 0x10000000000000000
  logs : ∀ id, store.logs id ≠ none → ∃ r ∈ store.inner, r.id = id

/-- A record as SQLite gives it back. -/
def reread (db : Sqlite) (r : JobRecord) : JobRecord :=
  { r with progress := r.progress.bind db.real }

theorem rowToRecord_rowOf {logs : List JobLogEntry} {r : JobRecord}
    (h : r.created < 0x10000000000000000 ∧ r.updated < 0x10000000000000000) :
    rowToRecord (rowOf db logs r) = .ok (reread db r) := by
  simp only [rowToRecord, rowOf, db.process.decode_encode, db.assets.decode_encode,
    db.parseStatus_label, backend, asU64_asI64 h.1, asU64_asI64 h.2]
  rfl

section Table

variable {store : InMemoryJobStore} {id : String}

theorem countP_table (id : String) :
    (table db store).countP (fun r => r.id == id) = store.inner.countP (fun r => r.id == id) := by
  rw [table, List.countP_map]
  rfl

theorem any_table (id : String) :
    (table db store).any (fun r => r.id == id) = store.inner.any (fun r => r.id == id) := by
  rw [table, List.any_map]
  rfl

/-- The row of a job is there if its record is. -/
theorem fetchOptional_table (id : String) :
    fetchOptional (table db store) id =
      (store.get id).map (fun r => rowOf db ((store.logs r.id).getD []) r) := by
  unfold fetchOptional InMemoryJobStore.get table
  rw [List.find?_map]
  cases h : store.inner.find? (fun r => r.id == id) <;>
    simp [Function.comp_def, rowOf, h, Except.map]

/-- Two records with one id are one record. -/
theorem Coherent.eq_of_id (h : Coherent store) {r r' : JobRecord} (hr : r ∈ store.inner)
    (hr' : r' ∈ store.inner) (hid : r.id = r'.id) : r = r' :=
  List.inj_on_of_nodup_map h.ids hr hr' hid

theorem mem_of_get {r : JobRecord} (h : store.get id = .ok r) : r ∈ store.inner := by
  unfold InMemoryJobStore.get at h
  split at h
  · rename_i r' hr'
    cases h
    exact List.mem_of_find?_eq_some hr'
  · cases h

/-- What the three ways of looking for a job say. -/
theorem get_cases (store : InMemoryJobStore) (id : String) :
    store.get id = .error (.notFound id) ∧
        store.inner.countP (fun r => r.id == id) = 0 ∧
        store.inner.any (fun r => r.id == id) = false ∨
      ∃ r ∈ store.inner, r.id = id ∧ store.get id = .ok r ∧
        store.inner.countP (fun r => r.id == id) ≠ 0 ∧
        store.inner.any (fun r => r.id == id) = true := by
  unfold InMemoryJobStore.get
  cases hfind : store.inner.find? (fun r => r.id == id) with
  | none =>
      have hall := List.find?_eq_none.mp hfind
      exact .inl ⟨rfl, List.countP_eq_zero.mpr hall, List.any_eq_false.mpr hall⟩
  | some r =>
      have hr := List.mem_of_find?_eq_some hfind
      have hid := List.find?_some hfind
      refine .inr ⟨r, hr, by simpa using hid, rfl, ?_, List.any_eq_true.mpr ⟨r, hr, hid⟩⟩
      rw [Ne, List.countP_eq_zero]
      exact fun hall => hall r hr hid

/-- An update of a row is the update of its record. -/
theorem update_table {now : Nat} (set : JobRow db → JobRow db) (change : JobRecord → JobRecord)
    (hset : ∀ r ∈ store.inner, r.id = id →
      set (rowOf db ((store.logs r.id).getD []) r) =
        rowOf db ((store.logs r.id).getD []) ((change r).stamp now))
    (hid : ∀ r, (change r).id = r.id) :
    (update (table db store) (fun r => r.id == id) set).2 =
      table db { store with
        inner := store.inner.map (fun r => if r.id == id then (change r).stamp now else r) } := by
  unfold update table
  simp only [List.map_map]
  refine List.map_congr_left fun r hmem => ?_
  by_cases hr : r.id = id
  · have hid' : ((change r).stamp now).id = r.id := hid r
    have hset' := hset r hmem hr
    subst hr
    simp [hset', hid']
  · simp [hr]

/-- The store after an update. -/
theorem withRecord_eq (h : Coherent store) (now : Nat) (id : String)
    (change : JobRecord → JobRecord) :
    store.withRecord now id change =
      if store.inner.countP (fun r => r.id == id) == 0 then .error (.notFound id)
      else .ok { store with
        inner := store.inner.map (fun r => if r.id == id then (change r).stamp now else r) } := by
  unfold InMemoryJobStore.withRecord
  rw [modifyFirst_eq_map id _ h.ids]
  split_ifs <;> rfl

/-- The same with the check that the row is there. -/
theorem updateJob_table (h : Coherent store) {now : Nat} {change : JobRecord → JobRecord}
    {set : JobRow db → JobRow db}
    (hset : ∀ logs r, set (rowOf db logs r) = rowOf db logs ((change r).stamp now))
    (hid : ∀ r, (change r).id = r.id) :
    updateJob (table db store) id set = (store.withRecord now id change).map (table db) := by
  unfold updateJob
  rw [withRecord_eq h]
  dsimp only
  rw [update_table set change (fun r _ _ => hset _ r) hid]
  simp only [update, countP_table]
  split_ifs <;> rfl

/-- `COALESCE` keeps what is not given. -/
theorem or_eq_if {α : Type} (a b : Option α) : a.or b = if a.isSome then a else b := by
  cases a <;> rfl

theorem setStatus_table (h : Coherent store) (now : Nat) (id : String) (status : JobStatus) :
    setStatus now id status (table db store) =
      (store.setStatus now id status).map (table db) :=
  updateJob_table h (fun _ _ => rfl) (fun _ => rfl)

theorem setProgress_table (h : Coherent store) (now : Nat) (id : String) (progress : F64) :
    setProgress now id progress (table db store) =
      (store.setProgress now id progress).map (table db) :=
  updateJob_table h (fun _ _ => rfl) (fun _ => rfl)

theorem setMetadata_table (h : Coherent store) (now : Nat) (id : String)
    (title description : Option String) :
    setMetadata now id title description (table db store) =
      (store.setMetadata now id title description).map (table db) := by
  refine updateJob_table h (fun logs r => ?_) (fun _ => rfl)
  simp only [rowOf, JobRecord.stamp, or_eq_if]

/-- The list read for an asset is the one of the row that is written. -/
theorem addAsset_table (h : Coherent store) (now : Nat) (id : String) (asset : JobAsset) :
    addAsset now id asset (table db store) =
      (store.addAsset now id asset).map (table db) := by
  unfold addAsset
  rw [fetchOptional_table, InMemoryJobStore.addAsset, withRecord_eq h]
  rcases get_cases store id with ⟨hget, hnone, _⟩ | ⟨r, hr, rfl, hget, hsome, _⟩
  · rw [hget, hnone]
    rfl
  · rw [hget, if_neg (by simpa using hsome)]
    have hset : ∀ r' ∈ store.inner, r'.id = r.id → r' = r :=
      fun r' hr' hid => h.eq_of_id hr' hr hid
    have hrows := update_table
      (fun row => { row with
        assets := db.assets.encode (r.assets ++ [asset]), updated := asI64 now })
      (fun r => { r with assets := r.assets ++ [asset] })
      (fun r' hr' hid => by rw [hset r' hr' hid]; rfl) (fun _ => rfl)
    simp only [Except.map, bind, Except.bind, rowOf, db.assets.decode_encode, backend]
    rw [← hrows]

/-- Log entries of one job do not show in the rows of the others. -/
theorem appendLog_table (now : Nat) (id level message : String) :
    appendLog now id level message (table db store) =
      (store.appendLog now id level message).map (table db) := by
  unfold appendLog InMemoryJobStore.appendLog
  rw [fetchOptional_table]
  rcases get_cases store id with ⟨hget, _, hany⟩ | ⟨r, _, rfl, hget, _, hany⟩
  · rw [hget, hany]
    rfl
  · rw [hget, hany]
    simp only [Except.map, bind, Except.bind, rowOf, db.logs.decode_encode, backend, update,
      if_true, table, List.map_map]
    congr 1
    refine List.map_congr_left fun r' _ => ?_
    by_cases hid : r'.id = r.id
    · simp [hid]
    · simp [hid]

theorem delete_table (id : String) : delete id (table db store) = table db (store.delete id) := by
  unfold delete table InMemoryJobStore.delete
  rw [List.filter_map]
  refine List.map_congr_left fun r hr => ?_
  have hid : r.id ≠ id := by simpa [rowOf] using (List.mem_filter.mp hr).2
  dsimp only
  rw [Function.update_of_ne hid]

/-- The labels that the statement names are those of the active states. -/
theorem contains_asStr (status : JobStatus) :
    ["queued", "running"].contains status.asStr = status.isActive := by
  cases status <;> decide

theorem recoverOrphans_table (now : Nat) :
    recoverOrphans now (table db store) =
      ((store.recoverOrphans now).1, table db (store.recoverOrphans now).2) := by
  unfold recoverOrphans InMemoryJobStore.recoverOrphans update table
  simp only [List.countP_map, List.map_map, Function.comp_def, rowOf, contains_asStr]
  congr 1
  refine List.map_congr_left fun r _ => ?_
  by_cases hr : r.status.isActive = true
  · simp only [hr, if_true, JobRecord.stamp]
    rfl
  · simp only [hr, Bool.false_eq_true, if_false]

theorem getLogs_table (id : String) : getLogs (table db store) id = store.getLogs id := by
  unfold getLogs InMemoryJobStore.getLogs
  rw [fetchOptional_table]
  rcases get_cases store id with ⟨hget, _, hany⟩ | ⟨r, _, rfl, hget, _, hany⟩
  · rw [hget, hany]
    rfl
  · rw [hget, hany]
    simp only [Except.map, bind, Except.bind, rowOf, db.logs.decode_encode, backend, if_true]

theorem get_table (h : Coherent store) (id : String) :
    get (table db store) id = (store.get id).map (reread db) := by
  unfold get
  rw [fetchOptional_table]
  cases hget : store.get id with
  | error e =>
      rfl
  | ok r =>
      exact rowToRecord_rowOf (h.times r (mem_of_get hget))

end Table

end SqliteJobStore
end OrbitOpenEO
