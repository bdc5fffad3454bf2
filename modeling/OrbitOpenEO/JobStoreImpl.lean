import OrbitOpenEO.SqliteJobStore
import OrbitOpenEO.Lib.Except

/-!
# The trait `JobStore`

What a caller that only looks at `Ok` and `Err` sees of a job store, as a
structure with the laws that both implementations keep.  `InMemoryJobStore.impl`
and `SqliteJobStore.impl` are the two instances.
-/

namespace OrbitOpenEO

open Lib

/-- A reply without its value. -/
def StoreReply.toUnit : StoreReply → Except JobError Unit
  | .record r => r.map fun _ => ()
  | .records r => r.map fun _ => ()
  | .unit r => r
  | .logs r => r.map fun _ => ()
  | .count r => r.map fun _ => ()

/-- The updates of a job that a runner makes. -/
def StoreOp.updates : StoreOp → Option String
  | .setStatus _ id _ => some id
  | .setProgress _ id _ => some id
  | .addAsset _ id _ => some id
  | .appendLog _ id _ _ => some id
  | _ => none

/-- The id that a call brings into the store. -/
def StoreOp.creates : StoreOp → Option String
  | .create _ uuid _ _ _ _ => some uuid
  | _ => none

/-- An implementation of the trait `JobStore`.

* `Fault` are the failures of the backend itself; a call that meets one changes
  nothing.
* Only a `create` brings an id into the store, an update needs the job to be
  there, and `delete` says `Ok` whether it was there or not. -/
structure JobStoreImpl (σ : Type) where
  step : σ → StoreOp → StoreReply × σ
  has : σ → String → Bool
  Fault : Type
  text : Fault → String
  has_step : ∀ {jobs op id}, has (step jobs op).2 id = true →
    has jobs id = true ∨ op.creates = some id
  update_absent : ∀ {jobs op id}, op.updates = some id → has jobs id = false →
    (step jobs op).1.toUnit = .error (.notFound id)
  delete_ok : ∀ {jobs id}, (step jobs (.delete id)).1.toUnit = .ok ()
  has_delete : ∀ {jobs id}, has (step jobs (.delete id)).2 id = false

/-- One call of the store. -/
def JobStoreImpl.call {σ : Type} (impl : JobStoreImpl σ) (fault : Option impl.Fault) (jobs : σ)
    (op : StoreOp) : Except JobError Unit × σ :=
  match fault with
  | some e => (.error (.backend (impl.text e)), jobs)
  | none => ((impl.step jobs op).1.toUnit, (impl.step jobs op).2)

theorem any_eq_true_of_modifyFirst {α : Type} {p q : α → Bool} {f : α → α}
    (hq : ∀ a, q (f a) = q a) {l l' : List α} (h : modifyFirst p f l = some l') :
    l'.any q = l.any q := by
  induction l generalizing l' with
  | nil =>
      simp [modifyFirst] at h
  | cons a l ih =>
      unfold modifyFirst at h
      split_ifs at h with hp
      · cases h
        simp [hq]
      · obtain ⟨l₁, hl₁, rfl⟩ := Option.map_eq_some_iff.mp h
        simp [ih hl₁]

namespace InMemoryJobStore

/-- There is a record with this id. -/
def has (store : InMemoryJobStore) (id : String) : Bool := store.inner.any (fun r => r.id == id)

theorem has_withRecord {store store' : InMemoryJobStore} {now : Nat} {id : String}
    {change : JobRecord → JobRecord} (h : store.withRecord now id change = .ok store')
    (hid : ∀ r, (change r).id = r.id) (k : String) : store'.has k = store.has k := by
  unfold withRecord at h
  split at h
  · rename_i inner hinner
    cases h
    exact any_eq_true_of_modifyFirst (fun r => by simp [JobRecord.stamp, hid]) hinner
  · cases h

theorem withRecord_absent {store : InMemoryJobStore} {id : String} (h : store.has id = false)
    (now : Nat) (change : JobRecord → JobRecord) :
    store.withRecord now id change = .error (.notFound id) := by
  have hnone : store.inner.find? (fun r => r.id == id) = none := by
    rw [List.find?_eq_none]
    exact List.any_eq_false.mp h
  unfold withRecord
  cases hm : modifyFirst (fun r => r.id == id) (fun r => (change r).stamp now) store.inner with
  | none =>
      rfl
  | some inner =>
      have := (modifyFirst_isSome_iff (fun r => r.id == id) (fun r => (change r).stamp now)
        store.inner).mp (by rw [hm]; rfl)
      simp [hnone] at this

theorem has_update {store : InMemoryJobStore} {now : Nat} {k : String}
    {change : JobRecord → JobRecord} (hid : ∀ r, (change r).id = r.id) (id : String) :
    (settle store (store.withRecord now k change)).2.has id = store.has id := by
  cases h : store.withRecord now k change with
  | ok store' =>
      exact has_withRecord h hid id
  | error e =>
      rfl

/-- What a call leaves of the ids. -/
theorem has_step {store : InMemoryJobStore} {op : StoreOp} {id : String}
    (h : (store.step op).2.has id = true) :
    store.has id = true ∨ op.creates = some id := by
  cases op with
  | create now uuid userId title description process =>
      simp only [step, create, has, List.any_append, Bool.or_eq_true, List.any_cons,
        List.any_nil, Bool.or_false, beq_iff_eq] at h
      rcases h with h | rfl
      · exact .inl h
      · exact .inr rfl
  | setStatus now k status =>
      exact .inl ((has_update (by intro r; rfl) id).symm.trans h)
  | setProgress now k progress =>
      exact .inl ((has_update (by intro r; rfl) id).symm.trans h)
  | setMetadata now k title description =>
      exact .inl ((has_update (by intro r; rfl) id).symm.trans h)
  | addAsset now k asset =>
      exact .inl ((has_update (by intro r; rfl) id).symm.trans h)
  | appendLog now k level message =>
      left
      simp only [step, appendLog] at h
      split_ifs at h
      · exact h
      · exact h
  | delete k =>
      left
      simp only [step, delete, has, List.any_filter, List.any_eq_true, Bool.and_eq_true] at h ⊢
      obtain ⟨r, hr, -, hid⟩ := h
      exact ⟨r, hr, hid⟩
  | recoverOrphans now =>
      left
      simp only [step, recoverOrphans, has, List.any_map, List.any_eq_true] at h ⊢
      obtain ⟨r, hr, hid⟩ := h
      refine ⟨r, hr, ?_⟩
      dsimp only [Function.comp_apply] at hid
      split_ifs at hid
      · exact hid
      · exact hid
  | get k =>
      exact .inl h
  | listForUser userId =>
      exact .inl h
  | getLogs k =>
      exact .inl h

theorem update_absent {store : InMemoryJobStore} {op : StoreOp} {id : String}
    (hop : op.updates = some id) (h : store.has id = false) :
    (store.step op).1.toUnit = .error (.notFound id) := by
  cases op with
  | setStatus now k status =>
      cases hop
      rw [step, setStatus, withRecord_absent h]
      rfl
  | setProgress now k progress =>
      cases hop
      rw [step, setProgress, withRecord_absent h]
      rfl
  | addAsset now k asset =>
      cases hop
      rw [step, addAsset, withRecord_absent h]
      rfl
  | appendLog now k level message =>
      cases hop
      have hany : store.inner.any (fun r => r.id == id) = false := h
      rw [step, appendLog, hany]
      rfl
  | _ =>
      cases hop

theorem has_delete {store : InMemoryJobStore} {id : String} : (store.delete id).has id = false := by
  simp only [has, delete, List.any_filter, List.any_eq_false]
  intro r _
  simp

/-- `InMemoryJobStore` does not fail. -/
def impl : JobStoreImpl InMemoryJobStore where
  step := step
  has := has
  Fault := Empty
  text := Empty.elim
  has_step := has_step
  update_absent := update_absent
  delete_ok := rfl
  has_delete := has_delete

end InMemoryJobStore

namespace SqliteJobStore

variable {db : Sqlite} {rows : List (JobRow db)} {id : String}

/-- There is a row with this id. -/
def has (rows : List (JobRow db)) (id : String) : Bool := rows.any (fun r => r.id == id)

theorem has_map {f : JobRow db → JobRow db} (hf : ∀ r, (f r).id = r.id) (k : String) :
    has (rows.map f) k = has rows k := by
  unfold has
  rw [List.any_map]
  congr 1
  funext r
  rw [Function.comp_apply, hf]

theorem has_update {where_ : JobRow db → Bool} {set : JobRow db → JobRow db}
    (hid : ∀ r, (set r).id = r.id) (k : String) : has (update rows where_ set).2 k = has rows k := by
  refine has_map (fun r => ?_) k
  split_ifs
  · exact hid r
  · rfl

theorem has_settle {r : Except JobError (List (JobRow db))}
    (h : ∀ rows', r = .ok rows' → has rows' id = has rows id) :
    has (settle rows r).2 id = has rows id := by
  cases r with
  | ok rows' =>
      exact h rows' rfl
  | error e =>
      rfl

theorem has_updateJob {rows' : List (JobRow db)} {k : String} {set : JobRow db → JobRow db}
    (hid : ∀ r, (set r).id = r.id) (h : updateJob rows k set = .ok rows') :
    has rows' id = has rows id := by
  unfold updateJob at h
  dsimp only at h
  split_ifs at h
  cases h
  exact has_update hid id

theorem has_addAsset {rows' : List (JobRow db)} {now : Nat} {k : String} {asset : JobAsset}
    (h : addAsset now k asset rows = .ok rows') : has rows' id = has rows id := by
  obtain ⟨row, -, h⟩ := bind_eq_ok_iff.mp h
  obtain ⟨assets, -, h⟩ := bind_eq_ok_iff.mp h
  cases h
  exact has_update (by intro r; rfl) id

theorem has_appendLog {rows' : List (JobRow db)} {now : Nat} {k level message : String}
    (h : appendLog now k level message rows = .ok rows') : has rows' id = has rows id := by
  obtain ⟨row, -, h⟩ := bind_eq_ok_iff.mp h
  obtain ⟨logs, -, h⟩ := bind_eq_ok_iff.mp h
  cases h
  exact has_update (by intro r; rfl) id

/-- What a call leaves of the ids. -/
theorem has_step {order : OrderByCreated db} {op : StoreOp}
    (h : has (step order rows op).2 id = true) :
    has rows id = true ∨ op.creates = some id := by
  cases op with
  | create now uuid userId title description process =>
      simp only [step, create] at h
      split at h
      · rename_i record rows' hok
        split_ifs at hok
        cases hok
        simp only [has, List.any_append, Bool.or_eq_true, List.any_cons, List.any_nil,
          Bool.or_false, beq_iff_eq] at h
        rcases h with h | rfl
        · exact .inl h
        · exact .inr rfl
      · exact .inl h
  | setStatus now k status =>
      exact .inl ((has_settle fun _ => has_updateJob (by intro r; rfl)).symm.trans h)
  | setProgress now k progress =>
      exact .inl ((has_settle fun _ => has_updateJob (by intro r; rfl)).symm.trans h)
  | setMetadata now k title description =>
      exact .inl ((has_settle fun _ => has_updateJob (by intro r; rfl)).symm.trans h)
  | addAsset now k asset =>
      exact .inl ((has_settle fun _ => has_addAsset).symm.trans h)
  | appendLog now k level message =>
      exact .inl ((has_settle fun _ => has_appendLog).symm.trans h)
  | delete k =>
      left
      simp only [step, delete, has, List.any_filter, List.any_eq_true, Bool.and_eq_true] at h ⊢
      obtain ⟨r, hr, -, hid⟩ := h
      exact ⟨r, hr, hid⟩
  | recoverOrphans now =>
      exact .inl ((has_update (by intro r; rfl) id).symm.trans h)
  | get k =>
      exact .inl h
  | listForUser userId =>
      exact .inl h
  | getLogs k =>
      exact .inl h

theorem updateJob_absent (h : has rows id = false) (set : JobRow db → JobRow db) :
    updateJob rows id set = .error (.notFound id) := by
  have hzero : rows.countP (fun r => r.id == id) = 0 := by
    rw [List.countP_eq_zero]
    exact List.any_eq_false.mp h
  unfold updateJob update
  rw [hzero]
  rfl

theorem fetchOptional_absent (h : has rows id = false) :
    fetchOptional rows id = .error (.notFound id) := by
  have hnone : rows.find? (fun r => r.id == id) = none := by
    rw [List.find?_eq_none]
    exact List.any_eq_false.mp h
  unfold fetchOptional
  rw [hnone]

theorem update_absent {order : OrderByCreated db} {op : StoreOp} (hop : op.updates = some id)
    (h : has rows id = false) : (step order rows op).1.toUnit = .error (.notFound id) := by
  cases op with
  | setStatus now k status =>
      cases hop
      rw [step, setStatus, updateJob_absent h]
      rfl
  | setProgress now k progress =>
      cases hop
      rw [step, setProgress, updateJob_absent h]
      rfl
  | addAsset now k asset =>
      cases hop
      rw [step, addAsset, fetchOptional_absent h]
      rfl
  | appendLog now k level message =>
      cases hop
      rw [step, appendLog, fetchOptional_absent h]
      rfl
  | _ =>
      cases hop

theorem has_delete : has (delete id rows) id = false := by
  simp only [has, delete, List.any_filter, List.any_eq_false]
  intro r _
  simp

/-- A call of `SqliteJobStore` that meets a fault returns its text as `Backend`. -/
def impl (order : OrderByCreated db) : JobStoreImpl (List (JobRow db)) where
  step := step order
  has := has
  Fault := String
  text := fun text => text
  has_step := has_step
  update_absent := update_absent
  delete_ok := rfl
  has_delete := has_delete

end SqliteJobStore

end OrbitOpenEO
