import OrbitOpenEO.Metrics
import Mathlib.Data.List.Induction

/-!
# The series of the metrics

The export groups the entries of the two maps by metric.  A counter is one series, a histogram is
two, under names of their own.  The groups of a recorder hold every series once (`nodup_series`),
and after calls they hold what has been recorded (`mem_series_iff`).
-/

namespace OrbitOpenEO
namespace Metrics

open Lib Lib.Exposition Lib.KeyedFold

/-- The loops that group the series by name. -/
def groupByName {α : Type} (series : Std.TreeMap SeriesKey α compareSeries) :
    Std.TreeMap MetricName (List (Labels × α)) compareNames :=
  series.toList.foldl (fun groups e =>
    groups.alter e.1.1 fun v => some (v.getD [] ++ [(e.1.2, e.2)])) ∅

/-- The sample of a name with a reading belongs to the metric. -/
inductive Belongs {F : Type} (name : MetricName) : String → Reading F → Prop
  | counter (h : name.kind = .counter) (n : Nat) : Belongs name name.asStr (.whole n)
  | count (h : name.kind = .histogram) (n : Nat) : Belongs name (name.asStr ++ "_count") (.whole n)
  | sum (h : name.kind = .histogram) (x : F) : Belongs name (name.asStr ++ "_sum") (.float x)

/-- All metrics. -/
def allNames : List MetricName :=
  [.etlJobsTotal, .etlRowsReadTotal, .etlRowsWrittenTotal, .etlJobDurationSeconds,
    .catalogSearchTotal, .cacheHitsTotal, .cacheMissesTotal, .cacheBytesOutTotal,
    .cacheBytesInTotal, .kernelBlockDurationSeconds, .grpcRequestsTotal, .grpcErrorsTotal]

/-- The names of the samples of a metric. -/
def sampleNames (name : MetricName) : List String :=
  match name.kind with
  | .counter => [name.asStr]
  | .histogram => [name.asStr ++ "_count", name.asStr ++ "_sum"]

/-- The metric that a sample belongs to. -/
def metricOf (s : String) : Option MetricName := allNames.find? fun name => s ∈ sampleNames name

theorem metricOf_eq : ∀ name, ∀ s ∈ sampleNames name, metricOf s = some name := by
  intro name
  cases name <;> decide

theorem mem_sampleNames_of_belongs {F : Type} {name : MetricName} {s : String} {v : Reading F}
    (h : Belongs name s v) : s ∈ sampleNames name := by
  unfold sampleNames
  cases h with
  | counter h n =>
      rw [h]
      exact List.mem_cons_self
  | count h n =>
      rw [h]
      exact List.mem_cons_self
  | sum h x =>
      rw [h]
      exact List.mem_cons_of_mem _ List.mem_cons_self

/-- A sample belongs to one metric. -/
theorem eq_of_belongs {F : Type} {name name' : MetricName} {s : String} {v v' : Reading F}
    (h : Belongs name s v) (h' : Belongs name' s v') : name = name' := by
  have hname := metricOf_eq name s (mem_sampleNames_of_belongs h)
  rw [metricOf_eq name' s (mem_sampleNames_of_belongs h'), Option.some.injEq] at hname
  exact hname.symm

/-- The name of a metric gives the metric. -/
theorem asStr_injective : Function.Injective MetricName.asStr := by
  have hfind : ∀ name, allNames.find? (fun n => n.asStr == name.asStr) = some name := by
    intro name
    cases name <;> decide
  intro a b h
  have ha := hfind a
  rw [h, hfind b, Option.some.injEq] at ha
  exact ha.symm

theorem isMetricName_asStr (name : MetricName) : IsMetricName name.asStr := by
  cases name <;> decide

theorem isMetricName_of_belongs {F : Type} {name : MetricName} {s : String} {v : Reading F}
    (h : Belongs name s v) : IsMetricName s := by
  cases h with
  | counter h n =>
      exact isMetricName_asStr name
  | count h n =>
      rw [IsMetricName, String.toList_append]
      exact isName_append (isMetricName_asStr name) (by decide)
  | sum h x =>
      rw [IsMetricName, String.toList_append]
      exact isName_append (isMetricName_asStr name) (by decide)

theorem typeStr_mem_kinds (kind : MetricKind) : kind.typeStr.toList ∈ kinds := by
  cases kind <;> decide

section Series

variable {F : Type}

/-- The series of a counter. -/
def counterSeries (name : MetricName) (e : Labels × Nat) : List (Series F) :=
  [((name.asStr, e.1.entries), .whole e.2)]

/-- The two series of a histogram. -/
def histogramSeries (name : MetricName) (e : Labels × (Nat × F)) : List (Series F) :=
  [((name.asStr ++ "_count", e.1.entries), .whole e.2.1),
    ((name.asStr ++ "_sum", e.1.entries), .float e.2.2)]

/-- The metrics of a map with the series of each. -/
def groupBlocks {α : Type} (series : MetricName → Labels × α → List (Series F))
    (m : Std.TreeMap SeriesKey α compareSeries) : List (MetricName × List (Series F)) :=
  (groupByName m).toList.map fun e => (e.1, e.2.flatMap (series e.1))

/-- The metrics of a recorder with the series of each. -/
def Inner.blocks (g : Inner F) : List (MetricName × List (Series F)) :=
  groupBlocks counterSeries g.counters ++ groupBlocks histogramSeries g.histograms

/-- What is asked of the series of a metric. -/
structure IsBlock (b : MetricName × List (Series F)) : Prop where
  belongs : ∀ x ∈ b.2, Belongs b.1 x.1.1 x.2
  labels : ∀ x ∈ b.2, ∀ l ∈ x.1.2, IsLabelName l.1
  nodup : (b.2.map Prod.fst).Nodup

/-- The series that are written for an entry belong to its metric and have its labels. -/
structure IsSeriesOf {α : Type} (kind : MetricKind)
    (series : MetricName → Labels × α → List (Series F)) : Prop where
  belongs : ∀ name e, name.kind = kind → ∀ x ∈ series name e, Belongs name x.1.1 x.2
  labels : ∀ name e, ∀ x ∈ series name e, x.1.2 = e.1.entries
  nodup : ∀ name e, ((series name e).map Prod.fst).Nodup

theorem isSeriesOf_counterSeries : IsSeriesOf (F := F) .counter counterSeries where
  belongs name e hkind x hx := by
    rw [counterSeries, List.mem_singleton] at hx
    subst hx
    exact .counter hkind e.2
  labels name e x hx := by
    rw [counterSeries, List.mem_singleton] at hx
    rw [hx]
  nodup name e := List.nodup_singleton _

theorem isSeriesOf_histogramSeries : IsSeriesOf (F := F) .histogram histogramSeries where
  belongs name e hkind x hx := by
    rw [histogramSeries, List.mem_pair] at hx
    rcases hx with rfl | rfl
    · exact .count hkind e.2.1
    · exact .sum hkind e.2.2
  labels name e x hx := by
    rw [histogramSeries, List.mem_pair] at hx
    rcases hx with rfl | rfl
    · rfl
    · rfl
  nodup name e := by
    have hne : name.asStr ++ "_count" ≠ name.asStr ++ "_sum" := by
      cases name <;> decide
    simp [histogramSeries, hne]

section Groups

variable {α : Type} {m : Std.TreeMap SeriesKey α compareSeries}
  {series : MetricName → Labels × α → List (Series F)}

theorem foldl_concat_eq_map {β γ : Type} (f : β → γ) (l : List β) :
    l.foldl (fun acc b => acc ++ [f b]) [] = l.map f := by
  induction l using List.reverseRecOn with
  | nil =>
      rfl
  | append_singleton l b ih =>
      rw [List.foldl_concat, ih, List.map_append]
      rfl

/-- A group is what the map holds for its metric. -/
theorem mem_groupByName_iff {name : MetricName} {group : List (Labels × α)} :
    (name, group) ∈ (groupByName m).toList ↔ group ≠ [] ∧
      group = (itemsAt (fun e => e.1.1) m.toList name).map fun e => (e.1.2, e.2) := by
  rw [groupByName]
  refine (mem_toList_foldl_iff (fun e : SeriesKey × α => e.1.1) ([] : List (Labels × α))
    (fun group e => group ++ [(e.1.2, e.2)]) m.toList name group).trans ?_
  rw [foldl_concat_eq_map fun e : SeriesKey × α => (e.1.2, e.2)]
  refine and_congr_left fun heq => ?_
  rw [heq, ne_eq, ne_eq, List.map_eq_nil_iff]

theorem mem_group_iff {name : MetricName} {group : List (Labels × α)}
    (h : (name, group) ∈ (groupByName m).toList) {e : Labels × α} :
    e ∈ group ↔ ((name, e.1), e.2) ∈ m.toList := by
  rw [(mem_groupByName_iff.mp h).2, List.mem_map]
  constructor
  · rintro ⟨⟨⟨name', labels⟩, v⟩, hitem, rfl⟩
    obtain ⟨hmem, hname⟩ := mem_itemsAt_iff.mp hitem
    cases hname
    exact hmem
  · intro hmem
    exact ⟨_, mem_itemsAt_iff.mpr ⟨hmem, rfl⟩, rfl⟩

/-- Every metric with series has a group. -/
theorem exists_group {name : MetricName} {labels : Labels} {v : α}
    (h : ((name, labels), v) ∈ m.toList) : ∃ group, (name, group) ∈ (groupByName m).toList := by
  have hmem : ((name, labels), v) ∈ itemsAt (fun e => e.1.1) m.toList name :=
    mem_itemsAt_iff.mpr ⟨h, rfl⟩
  refine ⟨_, mem_groupByName_iff.mpr ⟨?_, rfl⟩⟩
  rw [ne_eq, List.map_eq_nil_iff]
  exact List.ne_nil_of_mem hmem

/-- The labels in a group differ. -/
theorem pairwise_group {name : MetricName} {group : List (Labels × α)}
    (h : (name, group) ∈ (groupByName m).toList) :
    group.Pairwise fun e e' => e.1.entries ≠ e'.1.entries := by
  have hkeys : (itemsAt (fun e => e.1.1) m.toList name).Pairwise fun e e' =>
      ¬ compareSeries e.1 e'.1 = .eq := Std.TreeMap.distinct_keys_toList.filter _
  rw [(mem_groupByName_iff.mp h).2, List.pairwise_map]
  refine hkeys.imp_of_mem fun he he' hne heq => hne ?_
  have hkey : _ = _ := Prod.ext ((mem_itemsAt_iff.mp he).2.trans (mem_itemsAt_iff.mp he').2.symm)
    (BTreeMap.ext heq)
  rw [hkey]
  exact Std.ReflCmp.compare_self

/-- The names of the groups differ. -/
theorem nodup_groupBlocks (m : Std.TreeMap SeriesKey α compareSeries)
    (series : MetricName → Labels × α → List (Series F)) :
    ((groupBlocks series m).map Prod.fst).Nodup := by
  unfold groupBlocks
  rw [List.map_map, List.Nodup, List.pairwise_map]
  refine Std.TreeMap.distinct_keys_toList.imp fun {e e'} hne heq => hne ?_
  have hname : e.1 = e'.1 := heq
  rw [hname]
  exact Std.ReflCmp.compare_self

theorem exists_of_mem_groupBlocks {b : MetricName × List (Series F)}
    (h : b ∈ groupBlocks series m) : ∃ group, (b.1, group) ∈ (groupByName m).toList ∧
      b.2 = group.flatMap (series b.1) := by
  obtain ⟨e, he, rfl⟩ := List.mem_map.mp h
  exact ⟨e.2, he, rfl⟩

/-- The metrics of the groups are those of the map. -/
theorem mem_map_fst_groupBlocks_iff {name : MetricName} :
    name ∈ (groupBlocks series m).map Prod.fst ↔
      ∃ labels v, ((name, labels), v) ∈ m.toList := by
  rw [List.mem_map]
  constructor
  · rintro ⟨b, hb, rfl⟩
    obtain ⟨group, hgroup, -⟩ := exists_of_mem_groupBlocks hb
    obtain ⟨e, he⟩ := List.exists_mem_of_ne_nil group (mem_groupByName_iff.mp hgroup).1
    exact ⟨e.1, e.2, (mem_group_iff hgroup).mp he⟩
  · rintro ⟨labels, v, h⟩
    obtain ⟨group, hgroup⟩ := exists_group h
    exact ⟨_, List.mem_map_of_mem hgroup, rfl⟩

/-- The series of the groups are those of the entries of the map. -/
theorem mem_flatMap_groupBlocks_iff {x : Series F} :
    x ∈ (groupBlocks series m).flatMap Prod.snd ↔
      ∃ name labels v, ((name, labels), v) ∈ m.toList ∧ x ∈ series name (labels, v) := by
  rw [List.mem_flatMap]
  constructor
  · rintro ⟨b, hb, hx⟩
    obtain ⟨group, hgroup, heq⟩ := exists_of_mem_groupBlocks hb
    rw [heq] at hx
    obtain ⟨e, he, hx⟩ := List.mem_flatMap.mp hx
    exact ⟨b.1, e.1, e.2, (mem_group_iff hgroup).mp he, hx⟩
  · rintro ⟨name, labels, v, h, hx⟩
    obtain ⟨group, hgroup⟩ := exists_group h
    exact ⟨_, List.mem_map_of_mem hgroup,
      List.mem_flatMap.mpr ⟨(labels, v), (mem_group_iff hgroup).mpr h, hx⟩⟩

/-- The groups of a map whose metrics have the kind and whose names of labels are names. -/
theorem isBlock_of_mem_groupBlocks {kind : MetricKind} (hseries : IsSeriesOf kind series)
    (hm : ∀ e ∈ m.toList, e.1.1.kind = kind ∧ ∀ k ∈ e.1.2.keys, IsLabelName k)
    {b : MetricName × List (Series F)} (h : b ∈ groupBlocks series m) :
    IsBlock b ∧ b.1.kind = kind := by
  obtain ⟨group, hgroup, heq⟩ := exists_of_mem_groupBlocks h
  have hentry : ∀ x ∈ b.2, ∃ e, x ∈ series b.1 e ∧ ((b.1, e.1), e.2) ∈ m.toList := by
    intro x hx
    rw [heq] at hx
    obtain ⟨e, he, hx⟩ := List.mem_flatMap.mp hx
    exact ⟨e, hx, (mem_group_iff hgroup).mp he⟩
  have hkind : b.1.kind = kind := by
    obtain ⟨e, he⟩ := List.exists_mem_of_ne_nil group (mem_groupByName_iff.mp hgroup).1
    exact (hm _ ((mem_group_iff hgroup).mp he)).1
  refine ⟨⟨fun x hx => ?_, fun x hx l hl => ?_, ?_⟩, hkind⟩
  · obtain ⟨e, hx, -⟩ := hentry x hx
    exact hseries.belongs b.1 e hkind x hx
  · obtain ⟨e, hx, he⟩ := hentry x hx
    rw [hseries.labels b.1 e x hx] at hl
    exact (hm _ he).2 l.1 (List.mem_map_of_mem hl)
  · rw [heq, List.map_flatMap, List.nodup_flatMap]
    refine ⟨fun e _ => hseries.nodup b.1 e, (pairwise_group hgroup).imp fun {e e'} hne => ?_⟩
    -- two entries of a group have different labels
    intro key hkey hkey'
    obtain ⟨x, hx, rfl⟩ := List.mem_map.mp hkey
    obtain ⟨x', hx', heq⟩ := List.mem_map.mp hkey'
    refine hne ?_
    rw [← hseries.labels b.1 e x hx, ← hseries.labels b.1 e' x' hx', heq]

end Groups

theorem isBlock_blocks {g : Inner F} (h : WellFormed g) {b : MetricName × List (Series F)}
    (hb : b ∈ g.blocks) : IsBlock b := by
  rcases List.mem_append.mp hb with hb | hb
  · exact (isBlock_of_mem_groupBlocks isSeriesOf_counterSeries h.counters hb).1
  · exact (isBlock_of_mem_groupBlocks isSeriesOf_histogramSeries h.histograms hb).1

/-- No metric has two blocks: those of counters and those of histograms differ in the kind. -/
theorem nodup_blocks {g : Inner F} (h : WellFormed g) : (g.blocks.map Prod.fst).Nodup := by
  unfold Inner.blocks
  rw [List.map_append]
  refine (nodup_groupBlocks _ _).append (nodup_groupBlocks _ _) ?_
  intro name hcounter hhistogram
  obtain ⟨b, hb, rfl⟩ := List.mem_map.mp hcounter
  obtain ⟨b', hb', heq⟩ := List.mem_map.mp hhistogram
  have hkind := (isBlock_of_mem_groupBlocks isSeriesOf_counterSeries h.counters hb).2
  have hkind' := (isBlock_of_mem_groupBlocks isSeriesOf_histogramSeries h.histograms hb').2
  rw [heq, hkind] at hkind'
  cases hkind'

/-- No series is written twice. -/
theorem nodup_series {g : Inner F} (h : WellFormed g) :
    ((g.blocks.flatMap Prod.snd).map Prod.fst).Nodup := by
  rw [List.map_flatMap, List.nodup_flatMap]
  have hpairs : g.blocks.Pairwise fun b b' => b.1 ≠ b'.1 := List.pairwise_map.mp (nodup_blocks h)
  refine ⟨fun b hb => (isBlock_blocks h hb).nodup, hpairs.imp_of_mem fun hb hb' hne => ?_⟩
  -- a sample of two metrics is ruled out by its name
  intro key hkey hkey'
  obtain ⟨x, hx, rfl⟩ := List.mem_map.mp hkey
  obtain ⟨x', hx', heq⟩ := List.mem_map.mp hkey'
  have hbelongs := (isBlock_blocks h hb').belongs x' hx'
  rw [heq] at hbelongs
  exact hne (eq_of_belongs ((isBlock_blocks h hb).belongs x hx) hbelongs)

section Record

variable (fmt : FloatText F)

/-- The series that calls have recorded: the totals of the counters, and the number and the sum of
the observations of the histograms. -/
inductive Recorded (calls : List (Call F)) : Series F → Prop
  | counter (name : MetricName) (labels : Labels) (h : increments calls (name, labels) ≠ []) :
      Recorded calls ((name.asStr, labels.entries),
        .whole ((increments calls (name, labels)).sum % 2 ^ 64))
  | count (name : MetricName) (labels : Labels) (h : observations calls (name, labels) ≠ []) :
      Recorded calls ((name.asStr ++ "_count", labels.entries),
        .whole ((observations calls (name, labels)).length % 2 ^ 64))
  | sum (name : MetricName) (labels : Labels) (h : observations calls (name, labels) ≠ []) :
      Recorded calls ((name.asStr ++ "_sum", labels.entries),
        .float ((observations calls (name, labels)).foldl fmt.add fmt.zero))

theorem mem_series_iff (calls : List (Call F)) (x : Series F) :
    x ∈ (record fmt calls).blocks.flatMap Prod.snd ↔ Recorded fmt calls x := by
  unfold Inner.blocks
  rw [List.flatMap_append, List.mem_append, mem_flatMap_groupBlocks_iff,
    mem_flatMap_groupBlocks_iff]
  constructor
  · rintro (⟨name, labels, v, hmem, hx⟩ | ⟨name, labels, v, hmem, hx⟩)
    · obtain ⟨hne, rfl⟩ := (mem_counters_iff fmt calls _ _).mp hmem
      rw [counterSeries, List.mem_singleton] at hx
      subst hx
      exact .counter name labels hne
    · obtain ⟨hne, rfl⟩ := (mem_histograms_iff fmt calls _ _).mp hmem
      rw [histogramSeries, List.mem_pair] at hx
      rcases hx with rfl | rfl
      · exact .count name labels hne
      · exact .sum name labels hne
  · rintro (⟨name, labels, hne⟩ | ⟨name, labels, hne⟩ | ⟨name, labels, hne⟩)
    · exact .inl ⟨name, labels, _, (mem_counters_iff fmt calls _ _).mpr ⟨hne, rfl⟩,
        List.mem_singleton.mpr rfl⟩
    · exact .inr ⟨name, labels, _, (mem_histograms_iff fmt calls _ _).mpr ⟨hne, rfl⟩,
        List.mem_pair.mpr (.inl rfl)⟩
    · exact .inr ⟨name, labels, _, (mem_histograms_iff fmt calls _ _).mpr ⟨hne, rfl⟩,
        List.mem_pair.mpr (.inr rfl)⟩

/-- The metrics that are called have a block each. -/
theorem mem_blocks_iff (calls : List (Call F)) (name : MetricName) :
    name ∈ (record fmt calls).blocks.map Prod.fst ↔ Used calls name := by
  unfold Inner.blocks
  rw [List.map_append, List.mem_append, mem_map_fst_groupBlocks_iff, mem_map_fst_groupBlocks_iff]
  constructor
  · rintro (⟨labels, v, hmem⟩ | ⟨labels, v, hmem⟩)
    · obtain ⟨delta, hcall⟩ :=
        increments_ne_nil_iff.mp ((mem_counters_iff fmt calls _ _).mp hmem).1
      exact ⟨_, hcall, rfl⟩
    · obtain ⟨value, hcall⟩ :=
        observations_ne_nil_iff.mp ((mem_histograms_iff fmt calls _ _).mp hmem).1
      exact ⟨_, hcall, rfl⟩
  · rintro ⟨c, hc, rfl⟩
    cases c with
    | counterInc name labels delta =>
        have hne : increments calls (name, labels) ≠ [] :=
          increments_ne_nil_iff.mpr ⟨delta, hc⟩
        exact .inl ⟨labels, _, (mem_counters_iff fmt calls _ _).mpr ⟨hne, rfl⟩⟩
    | histogramObserve name labels value =>
        have hne : observations calls (name, labels) ≠ [] :=
          observations_ne_nil_iff.mpr ⟨value, hc⟩
        exact .inr ⟨labels, _, (mem_histograms_iff fmt calls _ _).mpr ⟨hne, rfl⟩⟩

end Record

end Series

end Metrics
end OrbitOpenEO
