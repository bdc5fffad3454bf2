import OrbitOpenEO.FileRoutes
import OrbitOpenEO.JobStoreAgreement

/-!
# The stores behind the service

A `JobStoreBackend` is a job store that the service cannot tell from the one in memory, and a
`FileStoreBackend` such a file store: each is alike a store in memory, answers what the service
asks as that one does, and stays alike.  `JobStoreBackend.sqlite` is the database of `--db-url`
and `FileStoreBackend.objectStore` the directory of `--files-dir`; they stay when the process
ends.
-/

namespace OrbitOpenEO

open Lib

/-- The operations to which every job store gives the same reply: an id that is created is new,
progress is a number, and nothing is listed. -/
def StoreOp.Plain (store : InMemoryJobStore) : StoreOp → Prop
  | .create _ uuid _ _ _ _ => ∀ r ∈ store.inner, r.id ≠ uuid
  | .setProgress _ _ progress => ∃ q, progress = .finite q
  | .listForUser _ => False
  | _ => True

/-- A job store that is alike one in memory.  `lasts` says that it outlives the process. -/
structure JobStoreBackend where
  State : Type
  empty : State
  step : State → StoreOp → StoreReply × State
  lasts : Bool
  Like : State → InMemoryJobStore → Prop
  like_empty : Like empty .empty
  step_like : ∀ {jobs : State} {store : InMemoryJobStore}, Like jobs store → ∀ op : StoreOp,
    op.Plain store → (step jobs op).1 = (store.step op).1 ∧
      Like (step jobs op).2 (store.step op).2

/-- The operations to which every file store gives the same reply: nothing is listed. -/
def FileOp.isPlain : FileOp → Bool
  | .list _ => false
  | _ => true

/-- A file store that is alike one in memory, for the users it serves.  One that ends with the
process serves everyone. -/
structure FileStoreBackend where
  State : Type
  store : FileBackend State
  lasts : Bool
  Serves : String → Prop
  serves_of_lost : lasts = false → ∀ userId, Serves userId
  Like : State → InMemoryFileStore → Prop
  like_empty : Like store.empty .empty
  answer_like : ∀ {files : State} {mem : InMemoryFileStore}, Like files mem → ∀ op : FileOp,
    Serves op.userId → op.isPlain = true → (store.answer files op).1 = (mem.step op).1 ∧
      Like (store.answer files op).2 (mem.step op).2

/-- A request to the file routes leaves the stores alike. -/
theorem FileStoreBackend.handle_like (F : FileStoreBackend) {files : F.State}
    {mem : InMemoryFileStore} (h : F.Like files mem) (request : FilesRequest)
    (hserves : F.Serves request.userId) :
    F.Like (F.store.handle files request).2 (FileBackend.memory.handle mem request).2 := by
  rw [FileBackend.handle_snd, FileBackend.handle_snd, FileBackend.answer_memory]
  cases request with
  | list userId => exact h
  | download userId path => exact h
  | upload userId path body => exact (F.answer_like h (.put ⟨userId, path⟩ body) hserves rfl).2
  | delete userId path => exact (F.answer_like h (.delete ⟨userId, path⟩) hserves rfl).2

/-- `InMemoryJobStore`. -/
def JobStoreBackend.memory : JobStoreBackend where
  State := InMemoryJobStore
  empty := .empty
  step := InMemoryJobStore.step
  lasts := false
  Like jobs store := jobs = store
  like_empty := rfl
  step_like := by
    rintro jobs _ rfl op -
    exact ⟨rfl, rfl⟩

/-- `InMemoryFileStore`. -/
def FileStoreBackend.memory : FileStoreBackend where
  State := InMemoryFileStore
  store := .memory
  lasts := false
  Serves _ := True
  serves_of_lost _ _ := trivial
  Like files store := files = store
  like_empty := rfl
  answer_like := by
    rintro files _ rfl op - -
    rw [FileBackend.answer_memory]
    exact ⟨rfl, rfl⟩

/-- Progress is a number wherever there is one. -/
def PlainProgress (r : JobRecord) : Prop := ∀ x ∈ r.progress, ∃ q, x = .finite q

section Progress

variable {store : InMemoryJobStore} {now : Nat} {id : String} {change : JobRecord → JobRecord}

theorem exists_clamp_finite (q : ℚ) :
    ∃ p, F64.clamp (.finite q) (.finite 0) (.finite 100) = .finite p := by
  unfold F64.clamp
  split_ifs <;> exact ⟨_, rfl⟩

/-- A `REAL` column keeps a number. -/
theorem PlainProgress.kept {db : Sqlite} {r : JobRecord} (h : PlainProgress r) :
    SqliteJobStore.ProgressKept db r := by
  unfold SqliteJobStore.ProgressKept
  cases hprogress : r.progress with
  | none => rfl
  | some x =>
      obtain ⟨q, rfl⟩ := h x hprogress
      exact db.real_finite q

theorem plainProgress_settle (hcoherent : SqliteJobStore.Coherent store)
    (h : ∀ r ∈ store.inner, PlainProgress r)
    (hchange : ∀ r, PlainProgress r → PlainProgress (change r)) :
    ∀ r ∈ (settle store (store.withRecord now id change)).2.inner, PlainProgress r := by
  rw [SqliteJobStore.withRecord_eq hcoherent]
  split_ifs
  · exact h
  · intro r hr
    obtain ⟨r', hr', rfl⟩ := List.mem_map.mp hr
    split_ifs
    · exact hchange r' (h r' hr')
    · exact h r' hr'

/-- **One operation** leaves numbers. -/
theorem plainProgress_step (hcoherent : SqliteJobStore.Coherent store)
    (h : ∀ r ∈ store.inner, PlainProgress r) {op : StoreOp} (hop : op.Plain store) :
    ∀ r ∈ (store.step op).2.inner, PlainProgress r := by
  cases op with
  | create now uuid userId title description process =>
      intro r hr
      rcases List.mem_append.mp hr with hr | hr
      · exact h r hr
      · rw [List.mem_singleton.mp hr]
        rintro x ⟨⟩
        exact ⟨0, rfl⟩
  | setProgress now id progress =>
      obtain ⟨q, rfl⟩ := hop
      obtain ⟨p, hp⟩ := exists_clamp_finite q
      refine plainProgress_settle hcoherent h fun r _ => ?_
      rw [hp]
      rintro x ⟨⟩
      exact ⟨p, rfl⟩
  | setStatus now id status => exact plainProgress_settle hcoherent h fun _ hr => hr
  | setMetadata now id title description => exact plainProgress_settle hcoherent h fun _ hr => hr
  | addAsset now id asset => exact plainProgress_settle hcoherent h fun _ hr => hr
  | appendLog now id level message =>
      dsimp only [InMemoryJobStore.step, InMemoryJobStore.appendLog]
      split_ifs <;> exact h
  | delete id => exact fun r hr => h r (List.mem_of_mem_filter hr)
  | recoverOrphans now =>
      intro r hr
      obtain ⟨r', hr', rfl⟩ := List.mem_map.mp hr
      split_ifs
      · exact h r' hr'
      · exact h r' hr'
  | get id => exact h
  | listForUser userId => exact h
  | getLogs id => exact h

/-- A plain operation on numbers is one on which the database agrees. -/
theorem agreesOn_of_plain {db : Sqlite} (h : ∀ r ∈ store.inner, PlainProgress r) {op : StoreOp}
    (hop : op.Plain store) : SqliteJobStore.AgreesOn db store op := by
  cases op with
  | create now uuid userId title description process => exact hop
  | get id => exact fun r hr _ => (h r hr).kept
  | listForUser userId => exact hop.elim
  | _ => trivial

end Progress

/-- `SqliteJobStore`, whose table stands for the store. -/
def JobStoreBackend.sqlite (db : Sqlite) (order : OrderByCreated db) : JobStoreBackend where
  State := List (JobRow db)
  empty := []
  step := SqliteJobStore.step order
  lasts := true
  Like rows store := rows = SqliteJobStore.table db store ∧ SqliteJobStore.Coherent store ∧
    ∀ r ∈ store.inner, PlainProgress r
  like_empty := ⟨rfl, SqliteJobStore.coherent_empty, fun _ hr => nomatch hr⟩
  step_like := by
    rintro rows store ⟨rfl, hcoherent, hprogress⟩ op hop
    have hagrees : SqliteJobStore.AgreesOn db store op := agreesOn_of_plain hprogress hop
    exact ⟨(SqliteJobStore.reply_eq_iff hcoherent op).mpr hagrees order,
      SqliteJobStore.step_table hcoherent hagrees order, hcoherent.step hagrees,
      plainProgress_step hcoherent hprogress hop⟩

/-- `ObjectStoreBackend`, for users whose ids name directories beside each other. -/
def FileStoreBackend.objectStore {σ : Type} (P : PathParser) (S : ObjectStore σ)
    (users : Set String) (hcanonical : ∀ u ∈ users, Canonical u) (hfree : PrefixFree users) :
    FileStoreBackend where
  State := σ
  store := .object P S
  lasts := true
  Serves userId := userId ∈ users
  serves_of_lost := nofun
  Like s mem := Represents P S users mem s
  like_empty := represents_empty
  answer_like := by
    intro s mem h op hserves hop
    rw [FileBackend.answer_object]
    refine h.step_eq hcanonical hfree hserves ?_
    rintro userId rfl
    cases hop

end OrbitOpenEO
