import OrbitOpenEO.Json
import OrbitOpenEO.Lib.ExpositionFormat
import OrbitOpenEO.Lib.KeyedFolds
import Mathlib.Algebra.GroupWithZero.Nat
import Mathlib.Data.List.Lex
import Mathlib.Data.Prod.Lex

/-!
# The in-memory recorder of metrics

`InMemoryRecorder` keeps counters and histograms by metric and labels in ordered maps.  Floats are
a type with a zero, a sum and a decimal text, which is all that the recorder uses of them.

After any calls the maps hold the totals of the series that have been called, and nothing else
(`mem_counters_iff`, `mem_histograms_iff`).
-/

namespace OrbitOpenEO
namespace Metrics

open Lib Lib.Exposition Lib.KeyedFold

/-- Stable identifiers for every metric the platform exports. -/
inductive MetricName where
  | etlJobsTotal
  | etlRowsReadTotal
  | etlRowsWrittenTotal
  | etlJobDurationSeconds
  | catalogSearchTotal
  | cacheHitsTotal
  | cacheMissesTotal
  | cacheBytesOutTotal
  | cacheBytesInTotal
  | kernelBlockDurationSeconds
  | grpcRequestsTotal
  | grpcErrorsTotal
deriving DecidableEq

/-- Prometheus metric kind. -/
inductive MetricKind where
  | counter
  | histogram
deriving DecidableEq

/-- `MetricKind::type_str`. -/
def MetricKind.typeStr : MetricKind → String
  | .counter => "counter"
  | .histogram => "histogram"

namespace MetricName

/-- `MetricName::as_str`. -/
def asStr : MetricName → String
  | .etlJobsTotal => "orbit_etl_jobs_total"
  | .etlRowsReadTotal => "orbit_etl_rows_read_total"
  | .etlRowsWrittenTotal => "orbit_etl_rows_written_total"
  | .etlJobDurationSeconds => "orbit_etl_job_duration_seconds"
  | .catalogSearchTotal => "orbit_catalog_search_total"
  | .cacheHitsTotal => "orbit_cache_hits_total"
  | .cacheMissesTotal => "orbit_cache_misses_total"
  | .cacheBytesOutTotal => "orbit_cache_bytes_out_total"
  | .cacheBytesInTotal => "orbit_cache_bytes_in_total"
  | .kernelBlockDurationSeconds => "orbit_kernel_block_duration_seconds"
  | .grpcRequestsTotal => "orbit_grpc_requests_total"
  | .grpcErrorsTotal => "orbit_grpc_errors_total"

/-- `MetricName::kind`. -/
def kind : MetricName → MetricKind
  | .etlJobDurationSeconds => .histogram
  | .kernelBlockDurationSeconds => .histogram
  | _ => .counter

/-- The derived order of the names: that of their declaration. -/
def index : MetricName → Nat
  | .etlJobsTotal => 0
  | .etlRowsReadTotal => 1
  | .etlRowsWrittenTotal => 2
  | .etlJobDurationSeconds => 3
  | .catalogSearchTotal => 4
  | .cacheHitsTotal => 5
  | .cacheMissesTotal => 6
  | .cacheBytesOutTotal => 7
  | .cacheBytesInTotal => 8
  | .kernelBlockDurationSeconds => 9
  | .grpcRequestsTotal => 10
  | .grpcErrorsTotal => 11

end MetricName

/-- Sorted label set. -/
abbrev Labels := BTreeMap String

/-- The key of a series. -/
abbrev SeriesKey := MetricName × Labels

/-- The derived order of the keys: by metric, then by the labels one after the other. -/
def orderKey (k : SeriesKey) : ℕ ×ₗ List (String ×ₗ String) :=
  toLex (k.1.index, k.2.entries.map toLex)

def compareSeries : SeriesKey → SeriesKey → Ordering := compareOn orderKey

def compareNames : MetricName → MetricName → Ordering := compareOn MetricName.index

/-- What the recorder needs of floats: a zero, a sum, and their decimal text with its inverse. -/
structure FloatText (F : Type) where
  zero : F
  add : F → F → F
  format : F → String
  read : String → Option F

/-- The decimal text of a float is one word and can be read back. -/
structure FloatText.Invertible {F : Type} (fmt : FloatText F) : Prop where
  read_format : ∀ x, fmt.read (fmt.format x) = some x
  word : ∀ x, IsWord (fmt.format x).toList
  plain : ∀ x, '\n' ∉ (fmt.format x).toList ∧ '{' ∉ (fmt.format x).toList

/-- `Inner`: the counters, and the histograms as counts and sums. -/
structure Inner (F : Type) where
  counters : Std.TreeMap SeriesKey Nat compareSeries
  histograms : Std.TreeMap SeriesKey (Nat × F) compareSeries

/-- `InMemoryRecorder::new`. -/
def Inner.new {F : Type} : Inner F := ⟨∅, ∅⟩

section Recorder

variable {F : Type} (fmt : FloatText F)

/-- `counter_inc`.  The addition is that of `u64` in release builds, which wraps. -/
def Inner.counterInc (g : Inner F) (name : MetricName) (labels : Labels) (delta : Nat) : Inner F :=
  { g with
    counters := g.counters.alter (name, labels) fun v => some ((v.getD 0 + delta) % 2 ^ 64) }

/-- `histogram_observe`. -/
def Inner.histogramObserve (g : Inner F) (name : MetricName) (labels : Labels) (value : F) :
    Inner F :=
  { g with
    histograms := g.histograms.alter (name, labels) fun v =>
      let e := v.getD (0, fmt.zero)
      some ((e.1 + 1) % 2 ^ 64, fmt.add e.2 value) }

/-- `InMemoryRecorder::counter`. -/
def Inner.counter (g : Inner F) (name : MetricName) (labels : Labels) : Nat :=
  g.counters[(name, labels)]?.getD 0

/-- `InMemoryRecorder::histogram`. -/
def Inner.histogram (g : Inner F) (name : MetricName) (labels : Labels) : Nat × F :=
  g.histograms[(name, labels)]?.getD (0, fmt.zero)

/-- A call that records something. -/
inductive Call (F : Type) where
  | counterInc (name : MetricName) (labels : Labels) (delta : Nat)
  | histogramObserve (name : MetricName) (labels : Labels) (value : F)

/-- One call. -/
def Inner.call (g : Inner F) : Call F → Inner F
  | .counterInc name labels delta => g.counterInc name labels delta
  | .histogramObserve name labels value => g.histogramObserve fmt name labels value

/-- A new recorder after calls. -/
def record (calls : List (Call F)) : Inner F := calls.foldl (Inner.call fmt) Inner.new

end Recorder

instance lawfulEqOrd_lex {α β : Type} [Ord α] [Ord β] [Std.LawfulEqOrd α] [Std.LawfulEqOrd β] :
    Std.LawfulEqOrd (α ×ₗ β) where
  compare_self := compareLex_eq_eq.mpr ⟨Std.ReflOrd.compare_self, Std.ReflOrd.compare_self⟩
  eq_of_compare h := by
    obtain ⟨hfst, hsnd⟩ := compareLex_eq_eq.mp h
    exact ofLex.injective
      (Prod.ext (Std.LawfulEqOrd.eq_of_compare hfst) (Std.LawfulEqOrd.eq_of_compare hsnd))

theorem index_injective : Function.Injective MetricName.index := by
  intro a b h
  cases a <;> cases b <;> first | rfl | cases h

theorem orderKey_injective : Function.Injective orderKey := by
  rintro ⟨name, labels⟩ ⟨name', labels'⟩ h
  have hpair := Prod.mk.inj (toLex.injective h)
  have hname : name = name' := index_injective hpair.1
  have hentries : labels.entries = labels'.entries :=
    List.map_injective_iff.mpr toLex.injective hpair.2
  rw [hname, BTreeMap.ext hentries]

instance : Std.TransCmp compareSeries := inferInstanceAs (Std.TransCmp (compareOn orderKey))

instance : Std.LawfulEqCmp compareSeries where
  eq_of_compare h := orderKey_injective (Std.LawfulEqOrd.eq_of_compare h)

instance : Std.TransCmp compareNames := inferInstanceAs (Std.TransCmp (compareOn MetricName.index))

instance : Std.LawfulEqCmp compareNames where
  eq_of_compare h := index_injective (Std.LawfulEqOrd.eq_of_compare h)

instance : DecidableEq Labels := fun _ _ => decidable_of_iff _ BTreeMap.ext_iff.symm

section Calls

variable {F : Type}

def Call.name : Call F → MetricName
  | .counterInc name _ _ => name
  | .histogramObserve name _ _ => name

def Call.labels : Call F → Labels
  | .counterInc _ labels _ => labels
  | .histogramObserve _ labels _ => labels

/-- The metric is used with its own kind. -/
def Call.OwnKind : Call F → Prop
  | .counterInc name _ _ => name.kind = .counter
  | .histogramObserve name _ _ => name.kind = .histogram

/-- Calls with metrics of the right kind and with names of labels that are names. -/
structure Proper (calls : List (Call F)) : Prop where
  ownKind : ∀ c ∈ calls, c.OwnKind
  labelNames : ∀ c ∈ calls, ∀ k ∈ c.labels.keys, IsLabelName k

/-- A metric that is called. -/
def Used (calls : List (Call F)) (name : MetricName) : Prop := ∃ c ∈ calls, c.name = name

def Call.increment : Call F → Option (SeriesKey × Nat)
  | .counterInc name labels delta => some ((name, labels), delta)
  | .histogramObserve _ _ _ => none

def Call.observation : Call F → Option (SeriesKey × F)
  | .counterInc _ _ _ => none
  | .histogramObserve name labels value => some ((name, labels), value)

/-- What is added to a counter, call by call. -/
def increments (calls : List (Call F)) (key : SeriesKey) : List Nat :=
  (itemsAt Prod.fst (calls.filterMap Call.increment) key).map Prod.snd

/-- What is observed for a histogram, call by call. -/
def observations (calls : List (Call F)) (key : SeriesKey) : List F :=
  (itemsAt Prod.fst (calls.filterMap Call.observation) key).map Prod.snd

theorem increments_ne_nil_iff {calls : List (Call F)} {key : SeriesKey} :
    increments calls key ≠ [] ↔ ∃ delta, Call.counterInc key.1 key.2 delta ∈ calls := by
  have hcall : ∀ c : Call F, ∀ delta, c.increment = some (key, delta) ↔
      c = .counterInc key.1 key.2 delta := by
    intro c delta
    cases c with
    | counterInc name labels delta' =>
        simp [Call.increment, Prod.ext_iff, and_assoc]
    | histogramObserve name labels value =>
        simp [Call.increment]
  unfold increments
  rw [ne_eq, List.map_eq_nil_iff, itemsAt_ne_nil_iff]
  simp only [List.mem_filterMap, hcall, exists_eq_right]

theorem observations_ne_nil_iff {calls : List (Call F)} {key : SeriesKey} :
    observations calls key ≠ [] ↔ ∃ value, Call.histogramObserve key.1 key.2 value ∈ calls := by
  have hcall : ∀ c : Call F, ∀ value, c.observation = some (key, value) ↔
      c = .histogramObserve key.1 key.2 value := by
    intro c value
    cases c with
    | counterInc name labels delta =>
        simp [Call.observation]
    | histogramObserve name labels value' =>
        simp [Call.observation, Prod.ext_iff, and_assoc]
  unfold observations
  rw [ne_eq, List.map_eq_nil_iff, itemsAt_ne_nil_iff]
  simp only [List.mem_filterMap, hcall, exists_eq_right]

variable (fmt : FloatText F)

/-- Only increments change the counters. -/
theorem counters_foldl (calls : List (Call F)) (g : Inner F) :
    (calls.foldl (Inner.call fmt) g).counters =
      (calls.filterMap Call.increment).foldl
        (enter Prod.fst 0 fun v e => (v + e.2) % 2 ^ 64) g.counters := by
  induction calls generalizing g with
  | nil =>
      rfl
  | cons c calls ih =>
      rw [List.foldl_cons, ih]
      cases c with
      | counterInc name labels delta =>
          rfl
      | histogramObserve name labels value =>
          rfl

/-- Only observations change the histograms. -/
theorem histograms_foldl (calls : List (Call F)) (g : Inner F) :
    (calls.foldl (Inner.call fmt) g).histograms =
      (calls.filterMap Call.observation).foldl
        (enter Prod.fst (0, fmt.zero) fun v e => ((v.1 + 1) % 2 ^ 64, fmt.add v.2 e.2))
        g.histograms := by
  induction calls generalizing g with
  | nil =>
      rfl
  | cons c calls ih =>
      rw [List.foldl_cons, ih]
      cases c with
      | counterInc name labels delta =>
          rfl
      | histogramObserve name labels value =>
          rfl

theorem foldl_increments (items : List (SeriesKey × Nat)) (v : Nat) :
    items.foldl (fun v e => (v + e.2) % 2 ^ 64) (v % 2 ^ 64) =
      (v + (items.map Prod.snd).sum) % 2 ^ 64 := by
  induction items generalizing v with
  | nil =>
      rfl
  | cons e items ih =>
      rw [List.foldl_cons, Nat.mod_add_mod, ih, List.map_cons, List.sum_cons, Nat.add_assoc]

theorem foldl_observations (items : List (SeriesKey × F)) (n : Nat) (x : F) :
    items.foldl (fun v e => ((v.1 + 1) % 2 ^ 64, fmt.add v.2 e.2)) (n % 2 ^ 64, x) =
      ((n + (items.map Prod.snd).length) % 2 ^ 64, (items.map Prod.snd).foldl fmt.add x) := by
  induction items generalizing n x with
  | nil =>
      rfl
  | cons e items ih =>
      rw [List.foldl_cons, Nat.mod_add_mod, ih, List.map_cons, List.length_cons, List.foldl_cons,
        Nat.add_assoc, Nat.add_comm 1]

theorem total_increments (calls : List (Call F)) (key : SeriesKey) :
    (itemsAt Prod.fst (calls.filterMap Call.increment) key).foldl
      (fun v e => (v + e.2) % 2 ^ 64) 0 = (increments calls key).sum % 2 ^ 64 := by
  have htotal := foldl_increments (itemsAt Prod.fst (calls.filterMap Call.increment) key) 0
  rw [Nat.zero_add] at htotal
  exact htotal

theorem total_observations (calls : List (Call F)) (key : SeriesKey) :
    (itemsAt Prod.fst (calls.filterMap Call.observation) key).foldl
      (fun v e => ((v.1 + 1) % 2 ^ 64, fmt.add v.2 e.2)) (0, fmt.zero) =
        ((observations calls key).length % 2 ^ 64,
          (observations calls key).foldl fmt.add fmt.zero) := by
  have htotal := foldl_observations fmt
    (itemsAt Prod.fst (calls.filterMap Call.observation) key) 0 fmt.zero
  rw [Nat.zero_add] at htotal
  exact htotal

/-- **The counters are the totals of the increments.** -/
theorem mem_counters_iff (calls : List (Call F)) (key : SeriesKey) (v : Nat) :
    (key, v) ∈ (record fmt calls).counters.toList ↔
      increments calls key ≠ [] ∧ v = (increments calls key).sum % 2 ^ 64 := by
  rw [record, counters_foldl, Inner.new, mem_toList_foldl_iff, total_increments, increments, ne_eq,
    ne_eq, List.map_eq_nil_iff]

/-- **The histograms are the numbers and the sums of the observations.** -/
theorem mem_histograms_iff (calls : List (Call F)) (key : SeriesKey) (v : Nat × F) :
    (key, v) ∈ (record fmt calls).histograms.toList ↔
      observations calls key ≠ [] ∧ v = ((observations calls key).length % 2 ^ 64,
        (observations calls key).foldl fmt.add fmt.zero) := by
  rw [record, histograms_foldl, Inner.new, mem_toList_foldl_iff, total_observations, observations,
    ne_eq, ne_eq, List.map_eq_nil_iff]

/-- A counter that is asked for, recorded or not. -/
theorem counter_record (calls : List (Call F)) (name : MetricName) (labels : Labels) :
    (record fmt calls).counter name labels = (increments calls (name, labels)).sum % 2 ^ 64 := by
  rw [Inner.counter, record, counters_foldl, Inner.new, getD_foldl_empty, total_increments]

theorem histogram_record (calls : List (Call F)) (name : MetricName) (labels : Labels) :
    (record fmt calls).histogram fmt name labels =
      ((observations calls (name, labels)).length % 2 ^ 64,
        (observations calls (name, labels)).foldl fmt.add fmt.zero) := by
  rw [Inner.histogram, record, histograms_foldl, Inner.new, getD_foldl_empty, total_observations]

/-- What the maps of a recorder hold after proper calls. -/
structure WellFormed (g : Inner F) : Prop where
  counters : ∀ e ∈ g.counters.toList, e.1.1.kind = .counter ∧ ∀ k ∈ e.1.2.keys, IsLabelName k
  histograms : ∀ e ∈ g.histograms.toList,
    e.1.1.kind = .histogram ∧ ∀ k ∈ e.1.2.keys, IsLabelName k

theorem wellFormed_record {calls : List (Call F)} (h : Proper calls) :
    WellFormed (record fmt calls) where
  counters := by
    rintro ⟨key, v⟩ he
    obtain ⟨delta, hcall⟩ := increments_ne_nil_iff.mp ((mem_counters_iff fmt calls key v).mp he).1
    exact ⟨h.ownKind _ hcall, h.labelNames _ hcall⟩
  histograms := by
    rintro ⟨key, v⟩ he
    obtain ⟨value, hcall⟩ :=
      observations_ne_nil_iff.mp ((mem_histograms_iff fmt calls key v).mp he).1
    exact ⟨h.ownKind _ hcall, h.labelNames _ hcall⟩

end Calls

end Metrics
end OrbitOpenEO
