import OrbitOpenEO.Etl.Engine

/-!
# The start of a job

`run` registers a job before it serialises the spec and writes the row.  If one of these
two fails, the job stays in both maps: it is reported as pending and can be cancelled,
although no task was ever spawned for it.
-/

namespace OrbitOpenEO
namespace Etl

namespace Engine

@[simp] theorem jobs_register (engine : Engine) (jobId : String) (startedAt : Nat) :
    (engine.register jobId startedAt).jobs =
      engine.jobs.insert jobId (pendingStatus jobId startedAt) := rfl

@[simp] theorem cancels_register (engine : Engine) (jobId : String) (startedAt : Nat) :
    (engine.register jobId startedAt).cancels = engine.cancels.insert jobId () := rfl

@[simp] theorem flags_register (engine : Engine) (jobId : String) (startedAt : Nat) :
    (engine.register jobId startedAt).flags jobId = false := by
  simp [register]

variable {host : Host} {dataRoot : Option Path} {engine engine' : Engine} {spec : PipelineSpec}
  {jobId : String} {startedAt : Nat} {inserted : Except String Unit}

/-- What a job that has been started finds. -/
theorem run_eq_ok {id : String}
    (h : engine.run host dataRoot spec jobId startedAt inserted = (.ok id, engine')) :
    id = jobId ∧ engine' = engine.register jobId startedAt := by
  unfold run at h
  cases hcheck : checkSpec host dataRoot spec with
  | error e =>
      rw [hcheck] at h
      cases h
  | ok u =>
      cases hjson : host.serialize spec with
      | error e =>
          rw [hcheck, hjson] at h
          cases h
      | ok json =>
          cases inserted with
          | error e =>
              rw [hcheck, hjson] at h
              cases h
          | ok u' =>
              rw [hcheck, hjson] at h
              cases h
              exact ⟨rfl, rfl⟩

/-- The two steps of `run` after the registration. -/
def Recorded (host : Host) (spec : PipelineSpec) (inserted : Except String Unit) : Prop :=
  (∃ json, host.serialize spec = .ok json) ∧ inserted = .ok ()

/-- An error after the registration leaves the job behind. -/
theorem run_of_not_recorded (hcheck : checkSpec host dataRoot spec = .ok ())
    (hrecorded : ¬ Recorded host spec inserted) :
    ∃ e, engine.run host dataRoot spec jobId startedAt inserted =
      (.error e, engine.register jobId startedAt) := by
  unfold run
  rw [hcheck]
  cases hjson : host.serialize spec with
  | error e => exact ⟨.serde e, rfl⟩
  | ok json =>
      cases inserted with
      | error e => exact ⟨.sql e, rfl⟩
      | ok u => exact absurd ⟨⟨json, hjson⟩, rfl⟩ hrecorded

theorem run_of_recorded (hcheck : checkSpec host dataRoot spec = .ok ())
    (hrecorded : Recorded host spec inserted) :
    engine.run host dataRoot spec jobId startedAt inserted =
      (.ok jobId, engine.register jobId startedAt) := by
  obtain ⟨⟨json, hjson⟩, rfl⟩ := hrecorded
  unfold run
  rw [hcheck]
  simp only [hjson]

theorem run_of_refused {e : Error} (hcheck : checkSpec host dataRoot spec = .error e) :
    engine.run host dataRoot spec jobId startedAt inserted = (.error e, engine) := by
  unfold run
  rw [hcheck]

/-- A job that was left behind is pending and takes a cancellation. -/
theorem leftover (engine : Engine) (jobId : String) (startedAt : Nat) :
    (engine.register jobId startedAt).jobs.get jobId = some (pendingStatus jobId startedAt) ∧
      ((engine.register jobId startedAt).cancelJob jobId).1 = true := by
  refine ⟨BTreeMap.get_insert_self _ _ _, ?_⟩
  have hcancel : (engine.register jobId startedAt).cancels.get jobId = some () :=
    BTreeMap.get_insert_self _ _ _
  unfold cancelJob
  rw [hcancel]

/-- A start that fails leaves both maps as they were. -/
def StartsAtomically (host : Host) (dataRoot : Option Path) (engine : Engine)
    (spec : PipelineSpec) (jobId : String) (startedAt : Nat) (inserted : Except String Unit) :
    Prop :=
  ∀ e engine', engine.run host dataRoot spec jobId startedAt inserted = (.error e, engine') →
    engine'.jobs = engine.jobs ∧ engine'.cancels = engine.cancels

/-- A start is atomic exactly if nothing fails after the checks. -/
theorem startsAtomically_iff (hfresh : engine.jobs.get jobId = none) :
    StartsAtomically host dataRoot engine spec jobId startedAt inserted ↔
      (checkSpec host dataRoot spec = .ok () → Recorded host spec inserted) := by
  constructor
  · intro h hcheck
    by_contra hrecorded
    obtain ⟨e, hrun⟩ := run_of_not_recorded hcheck hrecorded
    have hjobs := (h e _ hrun).1
    have hpending := (leftover engine jobId startedAt).1
    rw [hjobs, hfresh] at hpending
    cases hpending
  · intro h e engine' hrun
    cases hcheck : checkSpec host dataRoot spec with
    | error e' =>
        rw [run_of_refused hcheck] at hrun
        cases hrun
        exact ⟨rfl, rfl⟩
    | ok u =>
        rw [run_of_recorded hcheck (h hcheck)] at hrun
        cases hrun

/-- A host where every path exists and every spec can be written down. -/
def sampleHost : Host where
  pathExists _ := true
  canonicalize path := .ok path
  display _ := "data.csv"
  debug _ := "\"data.csv\""
  debugText s := s
  serialize _ := .ok "{}"

def sampleSpec : PipelineSpec where
  source := ⟨[100], .csv, true, ","⟩
  destinationTable := "t"
  sqlTransform := none
  dedupeColumn := none
  batchSize := 1024

theorem checkSpec_sample : checkSpec sampleHost none sampleSpec = .ok () := rfl

/-- The engine after `open`. -/
def opened : Engine := ⟨.empty, .empty, fun _ => false⟩

/-- A start that is refused and one that succeeds. -/
theorem startsAtomically_sample :
    (∃ e, opened.run sampleHost none { sampleSpec with destinationTable := "t; --" } "j" 0
        (.error "database is locked") = (.error e, opened)) ∧
      StartsAtomically sampleHost none opened { sampleSpec with destinationTable := "t; --" } "j" 0
        (.error "database is locked") ∧
      StartsAtomically sampleHost none opened sampleSpec "j" 0 (.ok ()) :=
  ⟨⟨_, rfl⟩, (startsAtomically_iff rfl).mpr nofun,
    (startsAtomically_iff rfl).mpr fun _ => ⟨⟨"{}", rfl⟩, rfl⟩⟩

/-- With the database locked, the job is left behind. -/
theorem insert_fails :
    ¬ StartsAtomically sampleHost none opened sampleSpec "j" 0 (.error "database is locked") := by
  intro h
  have hjobs := (h (.sql "database is locked") (opened.register "j" 0) rfl).1
  have hpending := (leftover opened "j" 0).1
  rw [hjobs] at hpending
  cases hpending

end Engine
end Etl
end OrbitOpenEO
