import OrbitOpenEO.Json
import Mathlib.Tactic.Common

/-!
# The job store

`InMemoryJobStore` keeps a list of records and finds a job by the first record
with its id.  Every update that the trait offers has the same shape, find the
record, change it, stamp it, which is `withRecord`; the four updates are
instances of it, and `get_withRecord` is all that later proofs know about them.

The wall clock is an argument, `now`, of every operation that reads it.
-/

namespace OrbitOpenEO

/-- Lifecycle state of a single job. -/
inductive JobStatus where
  | created
  | queued
  | running
  | canceled
  | finished
  | error
deriving DecidableEq

namespace JobStatus

/-- `JobStatus::as_str`. -/
def asStr : JobStatus → String
  | .created => "created"
  | .queued => "queued"
  | .running => "running"
  | .canceled => "canceled"
  | .finished => "finished"
  | .error => "error"

/-- The pattern `Queued | Running`. -/
def isActive : JobStatus → Bool
  | .queued => true
  | .running => true
  | _ => false

/-- The pattern `Finished | Error | Canceled`. -/
def isTerminal : JobStatus → Bool
  | .finished => true
  | .error => true
  | .canceled => true
  | _ => false

end JobStatus

/-- One output asset attached to a job. -/
structure JobAsset where
  name : String
  mediaType : String
  size : Nat
deriving DecidableEq

/-- A log entry. -/
structure JobLogEntry where
  id : String
  level : String
  message : String
  time : String

/-- One persisted job. -/
structure JobRecord where
  id : String
  userId : String
  title : Option String
  description : Option String
  process : Json
  status : JobStatus
  progress : Option F64
  created : Nat
  updated : Nat
  assets : List JobAsset

/-- `rec.updated = Self::now()`. -/
def JobRecord.stamp (now : Nat) (r : JobRecord) : JobRecord := { r with updated := now }

/-- `days_to_ymd`: the civil date of a day counted from 1970-01-01. -/
def daysToYmd (z : Int) : Int × Nat × Nat :=
  let z := z + 719468
  let era := z / 146097
  let doe := (z - era * 146097).toNat
  let yoe := (doe - doe / 1460 + doe / 36524 - doe / 146096) / 365
  let y := (yoe : Int) + era * 400
  let doy := doe - (365 * yoe + yoe / 4 - yoe / 100)
  let mp := (5 * doy + 2) / 153
  let d := doy - (153 * mp + 2) / 5 + 1
  let m := if mp < 10 then mp + 3 else mp - 9
  (if m ≤ 2 then y + 1 else y, m, d)

/-- Decimal digits, filled up with zeros on the left. -/
def padLeft (width : Nat) (text : String) : String :=
  String.ofList (List.replicate (width - text.length) '0') ++ text

/-- `iso8601`.  Seconds from `2^63` on turn negative in the cast to `i64`. -/
def iso8601 (unixSecs : Nat) : String :=
  let secs : Int :=
    if unixSecs < 0x8000000000000000 then unixSecs else unixSecs - 0x10000000000000000
  let (y, m, d) := daysToYmd (secs / 86400)
  let secsOfDay := (secs % 86400).toNat
  let year := if y < 0 then "-" ++ padLeft 3 (toString (-y)) else padLeft 4 (toString y)
  year ++ "-" ++ padLeft 2 (toString m) ++ "-" ++ padLeft 2 (toString d) ++ "T" ++
    padLeft 2 (toString (secsOfDay / 3600)) ++ ":" ++
    padLeft 2 (toString (secsOfDay / 60 % 60)) ++ ":" ++
    padLeft 2 (toString (secsOfDay % 60)) ++ "Z"

/-- Errors a job store can surface. -/
inductive JobError where
  | notFound (id : String)
  | backend (msg : String)
deriving DecidableEq

/-- The text of a job-store error. -/
def JobError.toText : JobError → String
  | .notFound id => s!"job not found: {id}"
  | .backend msg => s!"job store error: {msg}"

/-- Change the first element that satisfies `p`. -/
def modifyFirst {α : Type} (p : α → Bool) (f : α → α) : List α → Option (List α)
  | [] => none
  | a :: l => if p a then some (f a :: l) else (modifyFirst p f l).map (a :: ·)

theorem modifyFirst_isSome_iff {α : Type} (p : α → Bool) (f : α → α) :
    ∀ l : List α, (modifyFirst p f l).isSome ↔ (l.find? p).isSome
  | [] => by simp [modifyFirst]
  | a :: l => by
      unfold modifyFirst
      by_cases hp : p a = true
      · simp [hp]
      · rw [if_neg hp, List.find?_cons_of_neg hp, Option.isSome_map]
        exact modifyFirst_isSome_iff p f l

/-- Looking for an element the change leaves recognisable. -/
theorem find?_modifyFirst {α : Type} {p q : α → Bool} {f : α → α} (hq : ∀ a, q (f a) = q a) :
    ∀ {l l' : List α}, modifyFirst p f l = some l' →
      ((∀ a, p a = true → q a = false) → l'.find? q = l.find? q) ∧
      ((∀ a, p a = q a) → l'.find? q = (l.find? q).map f)
  | [], l', h => by simp [modifyFirst] at h
  | a :: l, l', h => by
      unfold modifyFirst at h
      by_cases hp : p a = true
      · rw [if_pos hp, Option.some.injEq] at h
        subst h
        refine ⟨fun hne => ?_, fun he => ?_⟩
        · simp [hq, hne a hp]
        · simp [hq, ← he a, hp]
      · rw [if_neg hp] at h
        obtain ⟨l₁, hl₁, rfl⟩ := Option.map_eq_some_iff.mp h
        obtain ⟨h₁, h₂⟩ := find?_modifyFirst hq hl₁
        refine ⟨fun hne => ?_, fun he => ?_⟩
        · by_cases hqa : q a = true
          · simp [hqa]
          · rw [List.find?_cons_of_neg hqa, List.find?_cons_of_neg hqa, h₁ hne]
        · have hqa : ¬ q a = true := by rw [← he a]; exact hp
          rw [List.find?_cons_of_neg hqa, List.find?_cons_of_neg hqa, h₂ he]

/-- Where no two elements have the same key, the first one with a key is the only one. -/
theorem modifyFirst_eq_map {α κ : Type} [BEq κ] [LawfulBEq κ] {key : α → κ} (k : κ) (f : α → α) :
    ∀ {l : List α}, (l.map key).Nodup →
      modifyFirst (fun a => key a == k) f l =
        if l.countP (fun a => key a == k) == 0 then none
        else some (l.map (fun a => if key a == k then f a else a))
  | [], _ => by simp [modifyFirst]
  | a :: l, h => by
      rw [List.map_cons, List.nodup_cons] at h
      unfold modifyFirst
      by_cases hk : (key a == k) = true
      · have hother : ∀ b ∈ l, ¬ (key b == k) = true := by
          intro b hb hbk
          exact h.1 (List.mem_map.mpr ⟨b, hb, (eq_of_beq hbk).trans (eq_of_beq hk).symm⟩)
        have hmap : l.map (fun b => if key b == k then f b else b) = l := by
          conv_rhs => rw [← List.map_id l]
          exact List.map_congr_left fun b hb => by simp [hother b hb]
        simp [hk, hmap]
      · rw [if_neg hk, modifyFirst_eq_map k f h.2,
          List.countP_cons_of_neg (p := fun a => key a == k) hk, List.map_cons, if_neg hk]
        split_ifs <;> rfl

/-- `InMemoryJobStore`: the records in the order of creation, and the log
entries of each job. -/
structure InMemoryJobStore where
  inner : List JobRecord
  logs : String → Option (List JobLogEntry)

namespace InMemoryJobStore

/-- `InMemoryJobStore::new`. -/
def empty : InMemoryJobStore := ⟨[], fun _ => none⟩

/-- `create`, with the UUID the store draws. -/
def create (now : Nat) (uuid userId : String) (title description : Option String)
    (process : Json) (store : InMemoryJobStore) : JobRecord × InMemoryJobStore :=
  let record : JobRecord :=
    { id := uuid, userId := userId, title := title, description := description,
      process := process, status := .created, progress := some (.finite 0),
      created := now, updated := now, assets := [] }
  (record, { store with inner := store.inner ++ [record] })

/-- `get`. -/
def get (store : InMemoryJobStore) (id : String) : Except JobError JobRecord :=
  match store.inner.find? (fun r => r.id == id) with
  | some r => .ok r
  | none => .error (.notFound id)

/-- Find a record, change it and stamp it with the time. -/
def withRecord (now : Nat) (id : String) (change : JobRecord → JobRecord)
    (store : InMemoryJobStore) : Except JobError InMemoryJobStore :=
  match modifyFirst (fun r => r.id == id) (fun r => (change r).stamp now) store.inner with
  | some inner => .ok { store with inner := inner }
  | none => .error (.notFound id)

/-- `set_status`. -/
def setStatus (now : Nat) (id : String) (status : JobStatus) (store : InMemoryJobStore) :
    Except JobError InMemoryJobStore :=
  store.withRecord now id (fun r => { r with status := status })

/-- `set_progress`. -/
def setProgress (now : Nat) (id : String) (progress : F64) (store : InMemoryJobStore) :
    Except JobError InMemoryJobStore :=
  store.withRecord now id
    (fun r => { r with progress := some (progress.clamp (.finite 0) (.finite 100)) })

/-- `set_metadata`: only the fields that are given change. -/
def setMetadata (now : Nat) (id : String) (title description : Option String)
    (store : InMemoryJobStore) : Except JobError InMemoryJobStore :=
  store.withRecord now id (fun r =>
    { r with
      title := if title.isSome then title else r.title
      description := if description.isSome then description else r.description })

/-- `add_asset`. -/
def addAsset (now : Nat) (id : String) (asset : JobAsset) (store : InMemoryJobStore) :
    Except JobError InMemoryJobStore :=
  store.withRecord now id (fun r => { r with assets := r.assets ++ [asset] })

/-- `delete`: no error if the job is absent. -/
def delete (id : String) (store : InMemoryJobStore) : InMemoryJobStore where
  inner := store.inner.filter (fun r => r.id != id)
  logs := Function.update store.logs id none

/-- `append_log`. -/
def appendLog (now : Nat) (id level message : String) (store : InMemoryJobStore) :
    Except JobError InMemoryJobStore :=
  if store.inner.any (fun r => r.id == id) then
    let entries := (store.logs id).getD []
    let entry : JobLogEntry := ⟨toString entries.length, level, message, iso8601 now⟩
    .ok { store with logs := Function.update store.logs id (some (entries ++ [entry])) }
  else .error (.notFound id)

/-- `list_for_user`. -/
def listForUser (store : InMemoryJobStore) (userId : String) : List JobRecord :=
  store.inner.filter (fun r => r.userId == userId)

/-- `get_logs`. -/
def getLogs (store : InMemoryJobStore) (id : String) : Except JobError (List JobLogEntry) :=
  if store.inner.any (fun r => r.id == id) then .ok ((store.logs id).getD [])
  else .error (.notFound id)

/-- `recover_orphans`: the active jobs fail; how many there were. -/
def recoverOrphans (now : Nat) (store : InMemoryJobStore) : Nat × InMemoryJobStore :=
  (store.inner.countP (fun r => r.status.isActive),
    { store with
      inner := store.inner.map (fun r =>
        if r.status.isActive then ({ r with status := .error } : JobRecord).stamp now else r) })

section Get

variable {store store' : InMemoryJobStore} {now : Nat} {id : String}
variable {change : JobRecord → JobRecord}

theorem id_of_get {r : JobRecord} (h : store.get id = .ok r) : r.id = id := by
  unfold get at h
  split at h
  · rename_i r' hr'
    cases h
    simpa using List.find?_some hr'
  · cases h

/-- An update of an absent job fails, and of a present one succeeds. -/
theorem withRecord_eq_ok {r : JobRecord} (h : store.get id = .ok r) (now : Nat)
    (change : JobRecord → JobRecord) : ∃ store', store.withRecord now id change = .ok store' := by
  have hsome : (store.inner.find? (fun r => r.id == id)).isSome := by
    unfold get at h
    split at h
    · rename_i hr
      simp [hr]
    · cases h
  rw [← modifyFirst_isSome_iff _ (fun r => (change r).stamp now)] at hsome
  obtain ⟨inner, hinner⟩ := Option.isSome_iff_exists.mp hsome
  exact ⟨_, by simp only [withRecord, hinner]; rfl⟩

/-- **What an update does**: it changes the record of its job and no other. -/
theorem get_withRecord (h : store.withRecord now id change = .ok store')
    (hid : ∀ r, (change r).id = r.id) (k : String) :
    store'.get k =
      if k = id then (store.get id).map (fun r => (change r).stamp now)
      else store.get k := by
  unfold withRecord at h
  split at h
  · rename_i inner hinner
    cases h
    have hq : ∀ r, (((change r).stamp now).id == k) = (r.id == k) := by
      intro r
      simp [JobRecord.stamp, hid]
    obtain ⟨hother, hsame⟩ := find?_modifyFirst (q := fun r => r.id == k) hq hinner
    split_ifs with hk
    · subst hk
      simp only [get, hsame (fun _ => rfl)]
      cases store.inner.find? (fun r => r.id == k) <;> rfl
    · have hne : ∀ r : JobRecord, (r.id == id) = true → (r.id == k) = false := by
        intro r hr
        have : r.id = id := by simpa using hr
        simpa [this] using Ne.symm hk
      simp only [get, hother hne]
  · cases h

/-- The same, by cases: nothing happens to a record, or it is the changed one. -/
theorem get_withRecord_cases (h : store.withRecord now id change = .ok store')
    (hid : ∀ r, (change r).id = r.id) (k : String) :
    store'.get k = store.get k ∨
      k = id ∧ ∃ r, store.get k = .ok r ∧ store'.get k = .ok ((change r).stamp now) := by
  have hget := get_withRecord h hid k
  split_ifs at hget with hk
  · subst hk
    cases hr : store.get k with
    | error e =>
        rw [hr] at hget
        exact .inl hget
    | ok r =>
        rw [hr] at hget
        exact .inr ⟨rfl, r, rfl, hget⟩
  · exact .inl hget

theorem get_appendLog {level message : String}
    (h : store.appendLog now id level message = .ok store') (k : String) :
    store'.get k = store.get k := by
  unfold appendLog at h
  split_ifs at h
  cases h
  rfl

theorem get_delete (k : String) :
    (store.delete id).get k = if k = id then .error (.notFound k) else store.get k := by
  unfold delete get
  have hfind : ∀ l : List JobRecord,
      (l.filter (fun r => r.id != id)).find? (fun r => r.id == k) =
        if k = id then none else l.find? (fun r => r.id == k) := by
    intro l
    induction l with
    | nil =>
        simp
    | cons r l ih =>
        by_cases hr : r.id = id
        · by_cases hk : k = id
          · simp_all
          · have : ¬ r.id = k := fun he => hk (he.symm.trans hr)
            simp_all
        · by_cases hrk : r.id = k
          · have hk : ¬ k = id := fun he => hr (hrk.trans he)
            simp [hrk, hk]
          · simp_all
  rw [hfind]
  split_ifs <;> rfl

theorem get_create {uuid : String} (hnew : ∀ r, store.get uuid ≠ .ok r) (now : Nat)
    (userId : String) (title description : Option String) (process : Json) (k : String) :
    (store.create now uuid userId title description process).2.get k =
      if k = uuid then .ok (store.create now uuid userId title description process).1
      else store.get k := by
  unfold create get at *
  dsimp only at *
  rw [List.find?_append]
  split_ifs with hk
  · subst hk
    cases hfind : store.inner.find? (fun r => r.id == k) with
    | none =>
        simp
    | some r =>
        exact absurd (by rw [hfind]) (hnew r)
  · have hne : ¬ uuid = k := fun he => hk he.symm
    cases store.inner.find? (fun r => r.id == k) with
    | none =>
        simp [hne]
    | some r =>
        simp

end Get

end InMemoryJobStore

end OrbitOpenEO
