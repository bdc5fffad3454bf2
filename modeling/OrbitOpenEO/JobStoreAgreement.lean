import OrbitOpenEO.SqliteJobStore
import Mathlib.Data.List.Sort
import Mathlib.Data.List.Perm.Basic

/-!
# The two job stores side by side

Both stores answer the same operations.  They differ in three places: an id that
is drawn twice, a progress value that a `REAL` column does not keep, and a
listing, which `InMemoryJobStore` gives in the order of creation and SQLite by
`created`.  `AgreesOn` is the condition on the state an operation finds, and runs
of the stores agree exactly if every operation meets it
(`job_stores_agree_iff`).
-/

namespace OrbitOpenEO
namespace SqliteJobStore

variable {db : Sqlite} {store : InMemoryJobStore}

/-- The comparison of `ORDER BY created ASC`. -/
def notAfter (a b : JobRow db) : Bool := decide (a.created ≤ b.created)

theorem notAfter_trans (a b c : JobRow db) (hab : notAfter a b = true)
    (hbc : notAfter b c = true) : notAfter a c = true := by
  unfold notAfter at *
  rw [decide_eq_true_eq] at *
  omega

theorem notAfter_total (a b : JobRow db) : (notAfter a b || notAfter b a) = true := by
  unfold notAfter
  rw [Bool.or_eq_true, decide_eq_true_eq, decide_eq_true_eq]
  omega

/-- `ORDER BY` for which the rows of one second keep their order. -/
def OrderByCreated.stable (db : Sqlite) : OrderByCreated db where
  apply rows := rows.mergeSort notAfter
  perm _ := List.mergeSort_perm _ _
  sorted rows := by
    simpa [notAfter] using List.pairwise_mergeSort notAfter_trans notAfter_total rows

/-- `ORDER BY` for which the rows of one second come last in, first out. -/
def OrderByCreated.reversed (db : Sqlite) : OrderByCreated db where
  apply rows := (OrderByCreated.stable db).apply rows.reverse
  perm rows := ((OrderByCreated.stable db).perm _).trans (List.reverse_perm rows)
  sorted _ := (OrderByCreated.stable db).sorted _

/-- The column of progress values gives back the one of the record. -/
def ProgressKept (db : Sqlite) (r : JobRecord) : Prop := r.progress.bind db.real = r.progress

/-- Where the two stores give the same reply:

* the id that `create` draws is new;
* the progress of a record that is read is one the column keeps;
* the records of a listing have later and later times of creation. -/
def AgreesOn (db : Sqlite) (store : InMemoryJobStore) : StoreOp → Prop
  | .create _ uuid _ _ _ _ => ∀ r ∈ store.inner, r.id ≠ uuid
  | .get id => ∀ r ∈ store.inner, r.id = id → ProgressKept db r
  | .listForUser userId =>
      let records := store.inner.filter (fun r => r.userId == userId)
      (∀ r ∈ records, ProgressKept db r) ∧
        records.Pairwise (fun a b => asI64 a.created < asI64 b.created)
  | _ => True

theorem reread_eq_self_iff {r : JobRecord} : reread db r = r ↔ ProgressKept db r := by
  unfold reread ProgressKept
  constructor
  · intro h
    exact congrArg JobRecord.progress h
  · intro h
    rw [h]

/-- What the column gave back once it gives back again. -/
theorem progressKept_reread (r : JobRecord) : ProgressKept db (reread db r) := by
  unfold ProgressKept reread
  dsimp only
  cases hr : r.progress with
  | none =>
      rfl
  | some x =>
      cases hx : db.real x with
      | none =>
          simp [hx]
      | some y =>
          simpa [hx] using db.real_real x y hx

theorem map_reread_eq_self {l : List JobRecord} (h : ∀ r ∈ l, ProgressKept db r) :
    l.map (reread db) = l := by
  conv_rhs => rw [← List.map_id l]
  exact List.map_congr_left fun r hr => reread_eq_self_iff.mpr (h r hr)

theorem mapM_map_ok {α β γ ε : Type} {key : α → β} {f : β → Except ε γ} {g : α → γ} :
    ∀ {l : List α}, (∀ a ∈ l, f (key a) = .ok (g a)) → (l.map key).mapM f = .ok (l.map g)
  | [], _ => rfl
  | a :: l, h => by
      rw [List.map_cons, List.mapM_cons, h a List.mem_cons_self,
        mapM_map_ok fun b hb => h b (List.mem_cons_of_mem a hb)]
      rfl

/-- In a list without repetition two elements stand one way round. -/
theorem not_sublist_swap {α : Type} {a b : α} :
    ∀ {l : List α}, l.Nodup → [a, b].Sublist l → ¬ [b, a].Sublist l
  | [], _, hab, _ => by cases hab
  | x :: l, h, hab, hba => by
      rw [List.nodup_cons] at h
      cases hab with
      | cons _ hab =>
          cases hba with
          | cons _ hba =>
              exact not_sublist_swap h.2 hab hba
          | cons_cons _ _ =>
              exact h.1 (hab.subset (by simp))
      | cons_cons _ hb =>
          cases hba with
          | cons _ hba =>
              exact h.1 (hba.subset (by simp))
          | cons_cons _ _ =>
              exact h.1 (hb.subset (by simp))

/-- The listing of the table: the records in another order, which is by `created`. -/
theorem listForUser_table (h : Coherent store) (order : OrderByCreated db) (userId : String) :
    ∃ l : List JobRecord, l.Perm (store.listForUser userId) ∧
      l.Pairwise (fun a b => asI64 a.created ≤ asI64 b.created) ∧
      order.apply ((store.listForUser userId).map
        (fun r => rowOf db ((store.logs r.id).getD []) r)) =
          l.map (fun r => rowOf db ((store.logs r.id).getD []) r) ∧
      listForUser order (table db store) userId = .ok (l.map (reread db)) := by
  have hrows : (table db store).filter (fun r => r.userId == userId) =
      (store.listForUser userId).map (fun r => rowOf db ((store.logs r.id).getD []) r) := by
    unfold table InMemoryJobStore.listForUser
    rw [List.filter_map]
    rfl
  have hcomp : Relation.Comp (fun rows l => rows = l.map
      (fun r => rowOf db ((store.logs r.id).getD []) r)) List.Perm
      (order.apply ((table db store).filter (fun r => r.userId == userId)))
      (store.listForUser userId) := by
    rw [List.eq_map_comp_perm]
    dsimp only
    rw [← hrows]
    exact order.perm _
  obtain ⟨l, happly, hperm⟩ := hcomp
  refine ⟨l, hperm, ?_, by rw [← hrows, happly], ?_⟩
  · have hsorted := order.sorted ((table db store).filter (fun r => r.userId == userId))
    rw [happly, List.pairwise_map] at hsorted
    exact hsorted
  · unfold listForUser
    rw [happly]
    refine mapM_map_ok fun r hr => rowToRecord_rowOf (h.times r ?_)
    exact List.mem_of_mem_filter (hperm.subset hr)

/-- Listings agree for every order that `ORDER BY` may give exactly if the column
keeps each progress and the times of creation increase. -/
theorem listForUser_eq_iff (h : Coherent store) (userId : String) :
    (∀ order, listForUser order (table db store) userId = .ok (store.listForUser userId)) ↔
      (∀ r ∈ store.listForUser userId, ProgressKept db r) ∧
        (store.listForUser userId).Pairwise (fun a b => asI64 a.created < asI64 b.created) := by
  constructor
  · intro hall
    obtain ⟨l, _, hsorted, _, hlist⟩ := listForUser_table h (OrderByCreated.stable db) userId
    have hreread : l.map (reread db) = store.listForUser userId :=
      Except.ok.inj (hlist.symm.trans (hall _))
    have hkept : ∀ r ∈ store.listForUser userId, ProgressKept db r := by
      rw [← hreread]
      intro r hr
      obtain ⟨r', _, rfl⟩ := List.mem_map.mp hr
      exact progressKept_reread r'
    refine ⟨hkept, ?_⟩
    obtain ⟨l', hperm', _, hrows, hlist'⟩ :=
      listForUser_table h (OrderByCreated.reversed db) userId
    have hl' : l' = store.listForUser userId := by
      have hl := Except.ok.inj (hlist'.symm.trans (hall _))
      rwa [map_reread_eq_self fun r hr => hkept r (hperm'.subset hr)] at hl
    subst hl'
    have hle : (store.listForUser userId).Pairwise
        (fun a b => asI64 a.created ≤ asI64 b.created) := by
      rw [← hreread, List.pairwise_map]
      exact hsorted
    have hnodup : ((store.listForUser userId).map
        (fun r => rowOf db ((store.logs r.id).getD []) r)).Nodup := by
      refine List.Nodup.of_map (fun row => row.id) ?_
      rw [List.map_map]
      exact h.ids.sublist (List.filter_sublist.map _)
    rw [List.pairwise_iff_forall_sublist] at hle ⊢
    intro a b hab
    -- Two records of one second come back the other way round.
    by_contra hnot
    have hsame : notAfter (rowOf db ((store.logs b.id).getD []) b)
        (rowOf db ((store.logs a.id).getD []) a) = true := by
      unfold notAfter
      rw [decide_eq_true_eq]
      exact not_lt.mp hnot
    have hrev := (hab.map (fun r => rowOf db ((store.logs r.id).getD []) r)).reverse
    have hswap := List.pair_sublist_mergeSort notAfter_trans notAfter_total hsame hrev
    refine not_sublist_swap hnodup (hab.map _) ?_
    rw [← hrows]
    exact hswap
  · rintro ⟨hkept, hstrict⟩ order
    obtain ⟨l, hperm, hsorted, _, hlist⟩ := listForUser_table h order userId
    rw [hlist, map_reread_eq_self fun r hr => hkept r (hperm.subset hr)]
    congr 1
    have hnodup : ((store.listForUser userId).map (fun r => asI64 r.created)).Nodup := by
      rw [List.Nodup, List.pairwise_map]
      exact hstrict.imp fun hab => by omega
    refine List.Perm.eq_of_pairwise ?_ hsorted (hstrict.imp fun hab => by omega) hperm
    intro a b ha hb hab hba
    exact List.inj_on_of_nodup_map hnodup (hperm.subset ha) hb (by omega)

/-- Records are read alike exactly if the column keeps the progress. -/
theorem get_table_eq_iff (h : Coherent store) (id : String) :
    get (table db store) id = store.get id ↔
      ∀ r ∈ store.inner, r.id = id → ProgressKept db r := by
  rw [get_table h]
  rcases get_cases store id with ⟨hget, hnone, _⟩ | ⟨r, hr, rfl, hget, _⟩
  · rw [hget]
    refine iff_of_true rfl fun r hr hid => ?_
    exact absurd hid (by simpa using List.countP_eq_zero.mp hnone r hr)
  · rw [hget]
    simp only [Except.map, Except.ok.injEq, reread_eq_self_iff]
    constructor
    · intro hkept r' hr' hid
      rwa [h.eq_of_id hr' hr hid]
    · intro hall
      exact hall r hr rfl

/-- The table takes a new job exactly if its id is new, and then like the list. -/
theorem create_table {now : Nat} (hnow : now < 0x10000000000000000) (uuid userId : String)
    (title description : Option String) (process : Json) :
    create now uuid userId title description process (table db store) =
      if store.inner.any (fun r => r.id == uuid) then
        .error (.backend s!"insert: {db.constraintError uuid}")
      else
        let (record, _) := store.create now uuid userId title description process
        .ok (record, table db store ++ [rowOf db [] record]) := by
  unfold create
  dsimp only
  rw [any_table, asU64_asI64 hnow]
  rfl

theorem table_create (h : Coherent store) {uuid : String} (hnew : ∀ r ∈ store.inner, r.id ≠ uuid)
    (now : Nat) (userId : String) (title description : Option String) (process : Json) :
    table db (store.create now uuid userId title description process).2 =
      table db store ++
        [rowOf db [] (store.create now uuid userId title description process).1] := by
  have hlogs : store.logs uuid = none := by
    by_contra hsome
    obtain ⟨r, hr, hid⟩ := h.logs uuid hsome
    exact hnew r hr hid
  unfold table InMemoryJobStore.create
  simp [hlogs]

/-- An update that both stores make alike gets the same reply. -/
theorem settle_map (store : InMemoryJobStore) (result : Except JobError InMemoryJobStore) :
    settle (table db store) (result.map (table db)) =
      ((settle store result).1, table db (settle store result).2) := by
  cases result <;> rfl

/-- **One operation.**  The replies agree, whatever order a listing comes in, exactly
under the condition. -/
theorem reply_eq_iff (h : Coherent store) (op : StoreOp) :
    (∀ order, (step order (table db store) op).1 = (store.step op).1) ↔
      AgreesOn db store op := by
  cases op with
  | create now uuid userId title description process =>
      simp only [step, create_table now.toNat_lt, InMemoryJobStore.step, AgreesOn]
      constructor
      · intro hall r hr hid
        have hany : store.inner.any (fun r => r.id == uuid) = true :=
          List.any_eq_true.mpr ⟨r, hr, by simpa using hid⟩
        have hreply := hall (OrderByCreated.stable db)
        rw [if_pos hany] at hreply
        cases hreply
      · intro hnew order
        have hany : ¬ store.inner.any (fun r => r.id == uuid) = true := by
          simpa using hnew
        rw [if_neg hany]
  | get id =>
      simp only [step, InMemoryJobStore.step, StoreReply.record.injEq, get_table_eq_iff h, AgreesOn]
      exact ⟨fun hall => hall (OrderByCreated.stable db), fun hkept _ => hkept⟩
  | listForUser userId =>
      simp only [step, InMemoryJobStore.step, StoreReply.records.injEq]
      exact listForUser_eq_iff h userId
  | setStatus now id status =>
      simp [step, InMemoryJobStore.step, setStatus_table h, settle_map, AgreesOn]
  | setProgress now id progress =>
      simp [step, InMemoryJobStore.step, setProgress_table h, settle_map, AgreesOn]
  | setMetadata now id title description =>
      simp [step, InMemoryJobStore.step, setMetadata_table h, settle_map, AgreesOn]
  | delete id =>
      simp [step, InMemoryJobStore.step, AgreesOn]
  | addAsset now id asset =>
      simp [step, InMemoryJobStore.step, addAsset_table h, settle_map, AgreesOn]
  | appendLog now id level message =>
      simp [step, InMemoryJobStore.step, appendLog_table, settle_map, AgreesOn]
  | getLogs id =>
      simp [step, InMemoryJobStore.step, getLogs_table, AgreesOn]
  | recoverOrphans now =>
      simp [step, InMemoryJobStore.step, recoverOrphans_table, AgreesOn]

/-- **One operation.**  Under the condition the table stays that of the store. -/
theorem step_table (h : Coherent store) {op : StoreOp} (hop : AgreesOn db store op)
    (order : OrderByCreated db) :
    (step order (table db store) op).2 = table db (store.step op).2 := by
  cases op with
  | create now uuid userId title description process =>
      have hnew : ∀ r ∈ store.inner, r.id ≠ uuid := hop
      have hany : ¬ store.inner.any (fun r => r.id == uuid) = true := by
        simpa using hnew
      simp only [step, create_table now.toNat_lt, InMemoryJobStore.step]
      rw [if_neg hany, table_create h hnew]
  | get id =>
      rfl
  | listForUser userId =>
      rfl
  | setStatus now id status =>
      simp only [step, InMemoryJobStore.step, setStatus_table h, settle_map]
  | setProgress now id progress =>
      simp only [step, InMemoryJobStore.step, setProgress_table h, settle_map]
  | setMetadata now id title description =>
      simp only [step, InMemoryJobStore.step, setMetadata_table h, settle_map]
  | delete id =>
      exact delete_table id
  | addAsset now id asset =>
      simp only [step, InMemoryJobStore.step, addAsset_table h, settle_map]
  | appendLog now id level message =>
      simp only [step, InMemoryJobStore.step, appendLog_table, settle_map]
  | getLogs id =>
      rfl
  | recoverOrphans now =>
      simp only [step, InMemoryJobStore.step, recoverOrphans_table]

/-- Records that keep their ids and have times of the clock keep a store coherent. -/
theorem Coherent.map_inner (h : Coherent store) {change : JobRecord → JobRecord}
    (hid : ∀ r, (change r).id = r.id)
    (htimes : ∀ r, r.created < 0x10000000000000000 ∧ r.updated < 0x10000000000000000 →
      (change r).created < 0x10000000000000000 ∧ (change r).updated < 0x10000000000000000) :
    Coherent { store with inner := store.inner.map change } where
  ids := by
    rw [List.map_map]
    simpa [Function.comp_def, hid] using h.ids
  times := by
    intro r hr
    obtain ⟨r', hr', rfl⟩ := List.mem_map.mp hr
    exact htimes r' (h.times r' hr')
  logs := by
    intro id hid'
    obtain ⟨r, hr, hrid⟩ := h.logs id hid'
    exact ⟨change r, List.mem_map_of_mem hr, (hid r).trans hrid⟩

theorem Coherent.settle_withRecord (h : Coherent store) (now : UInt64) (id : String)
    {change : JobRecord → JobRecord} (hid : ∀ r, (change r).id = r.id)
    (hcreated : ∀ r, (change r).created = r.created) :
    Coherent (settle store (store.withRecord now.toNat id change)).2 := by
  rw [withRecord_eq h]
  split_ifs
  · exact h
  · refine h.map_inner (fun r => ?_) (fun r hr => ?_)
    · split_ifs
      · exact hid r
      · rfl
    · split_ifs
      · exact ⟨by rw [JobRecord.stamp, hcreated]; exact hr.1, now.toNat_lt⟩
      · exact hr

theorem Coherent.create (h : Coherent store) {uuid : String}
    (hnew : ∀ r ∈ store.inner, r.id ≠ uuid) (now : UInt64) (userId : String)
    (title description : Option String) (process : Json) :
    Coherent (store.create now.toNat uuid userId title description process).2 where
  ids := by
    unfold InMemoryJobStore.create
    rw [List.map_append, List.nodup_append]
    refine ⟨h.ids, by simp, ?_⟩
    intro a ha b hb
    obtain ⟨r, hr, rfl⟩ := List.mem_map.mp ha
    rw [show b = uuid by simpa using hb]
    exact hnew r hr
  times := by
    intro r hr
    rcases List.mem_append.mp hr with hr | hr
    · exact h.times r hr
    · rw [List.mem_singleton] at hr
      subst hr
      exact ⟨now.toNat_lt, now.toNat_lt⟩
  logs := by
    intro id hid
    obtain ⟨r, hr, hrid⟩ := h.logs id hid
    exact ⟨r, List.mem_append_left _ hr, hrid⟩

theorem Coherent.delete (h : Coherent store) (id : String) : Coherent (store.delete id) where
  ids := h.ids.sublist (List.filter_sublist.map _)
  times r hr := h.times r (List.mem_of_mem_filter hr)
  logs := by
    intro id' hid'
    have hne : id' ≠ id := by
      rintro rfl
      exact hid' (Function.update_self _ _ _)
    have hlogs : (store.delete id).logs id' = store.logs id' := Function.update_of_ne hne _ _
    obtain ⟨r, hr, hrid⟩ := h.logs id' (hlogs ▸ hid')
    exact ⟨r, List.mem_filter.mpr ⟨hr, by simpa [hrid] using hne⟩, hrid⟩

theorem Coherent.appendLog (h : Coherent store) (now : Nat) (id level message : String) :
    Coherent (settle store (store.appendLog now id level message)).2 := by
  unfold InMemoryJobStore.appendLog
  split_ifs with hany
  · refine ⟨h.ids, h.times, ?_⟩
    intro id' hid'
    by_cases he : id' = id
    · obtain ⟨r, hr, hrid⟩ := List.any_eq_true.mp hany
      exact ⟨r, hr, (eq_of_beq hrid).trans he.symm⟩
    · refine h.logs id' ?_
      simpa only [settle, Function.update_of_ne he] using hid'
  · exact h

/-- **One operation.**  Under the condition a store stays coherent. -/
theorem Coherent.step (h : Coherent store) {op : StoreOp} (hop : AgreesOn db store op) :
    Coherent (store.step op).2 := by
  cases op with
  | create now uuid userId title description process =>
      exact h.create hop now userId title description process
  | get id =>
      exact h
  | listForUser userId =>
      exact h
  | setStatus now id status =>
      exact h.settle_withRecord now id (fun _ => rfl) (fun _ => rfl)
  | setProgress now id progress =>
      exact h.settle_withRecord now id (fun _ => rfl) (fun _ => rfl)
  | setMetadata now id title description =>
      exact h.settle_withRecord now id (fun _ => rfl) (fun _ => rfl)
  | delete id =>
      exact h.delete id
  | addAsset now id asset =>
      exact h.settle_withRecord now id (fun _ => rfl) (fun _ => rfl)
  | appendLog now id level message =>
      exact h.appendLog now.toNat id level message
  | getLogs id =>
      exact h
  | recoverOrphans now =>
      refine h.map_inner (fun r => ?_) (fun r hr => ?_)
      · split_ifs
        · rfl
        · rfl
      · split_ifs
        · exact ⟨hr.1, now.toNat_lt⟩
        · exact hr

theorem coherent_empty : Coherent InMemoryJobStore.empty where
  ids := List.nodup_nil
  times _ hr := nomatch hr
  logs _ hid := absurd rfl hid

/-- **The two stores.**  A list of operations, on a store and its table, gets the same
replies from both, whatever order SQLite gives to the rows of one second, if and
only if each operation meets the condition on the state it finds. -/
theorem replies_table_iff (h : Coherent store) (ops : List StoreOp) :
    (∀ order, Lib.replies (step order) (table db store) ops =
        Lib.replies InMemoryJobStore.step store ops) ↔
      Lib.AllMeet InMemoryJobStore.step (AgreesOn db) store ops :=
  Lib.replies_eq_iff (table db) (fun _ op h => reply_eq_iff h op)
    (fun _ _ h hop => h.step hop) (fun order _ _ h hop => step_table h hop order) ops store h

/-- New stores agree on a list of operations exactly under the condition. -/
theorem job_stores_agree_iff (db : Sqlite) (ops : List StoreOp) :
    (∀ order : OrderByCreated db, Lib.replies (step order) [] ops =
        Lib.replies InMemoryJobStore.step InMemoryJobStore.empty ops) ↔
      Lib.AllMeet InMemoryJobStore.step (AgreesOn db) InMemoryJobStore.empty ops :=
  replies_table_iff coherent_empty ops

/-- A column whose texts are the values. -/
def JsonColumn.plain (α : Type) : JsonColumn α := ⟨α, id, .ok, fun _ => rfl⟩

/-- SQLite with such columns, which stores a negative zero as zero. -/
def plainSqlite : Sqlite where
  process := JsonColumn.plain _
  assets := JsonColumn.plain _
  logs := JsonColumn.plain _
  parseStatus
    | "\"created\"" => .ok .created
    | "\"queued\"" => .ok .queued
    | "\"running\"" => .ok .running
    | "\"canceled\"" => .ok .canceled
    | "\"finished\"" => .ok .finished
    | "\"error\"" => .ok .error
    | _ => .error "unknown variant"
  parseStatus_label status := by cases status <;> rfl
  real
    | .nan => none
    | .negZero => some (.finite 0)
    | x => some x
  real_nan := rfl
  real_finite _ := rfl
  real_real x y h := by cases x <;> cases h <;> rfl
  constraintError _ := "UNIQUE constraint failed: jobs.id"

/-- A progress that is not a number reads as none, and a clock that is set back
turns a listing round. -/
theorem job_stores_differ :
    (¬ ∀ order : OrderByCreated plainSqlite,
      let ops := [.create 0 "job" "alice" none none .null, .setProgress 1 "job" .nan, .get "job"]
      Lib.replies (step order) [] ops =
        Lib.replies InMemoryJobStore.step InMemoryJobStore.empty ops) ∧
    (¬ ∀ order : OrderByCreated plainSqlite,
      let ops := [.create 20 "first" "alice" none none .null,
        .create 10 "second" "alice" none none .null, .listForUser "alice"]
      Lib.replies (step order) [] ops =
        Lib.replies InMemoryJobStore.step InMemoryJobStore.empty ops) := by
  refine ⟨fun h => ?_, fun h => ?_⟩
  · obtain ⟨_, _, hget, _⟩ := (replies_table_iff coherent_empty _).mp h
    have hkept := hget _ List.mem_cons_self rfl
    cases hkept
  · obtain ⟨_, _, ⟨_, hlater⟩, _⟩ := (replies_table_iff coherent_empty _).mp h
    have := List.rel_of_pairwise_cons hlater List.mem_cons_self
    revert this
    decide

end SqliteJobStore
end OrbitOpenEO
