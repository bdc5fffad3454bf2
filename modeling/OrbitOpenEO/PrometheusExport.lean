import OrbitOpenEO.MetricSeries

/-!
# The export of metrics as text

`to_prometheus` groups the counters and the histograms by metric and writes the groups out, the
type of a metric before its series.

The text is that of a list of lines (`toPrometheus_eq`), which the reader of the format reads back
(`read_toPrometheus`) with all their series (`readSeries_lines`).  These are the series that have
been recorded (`export_faithful`).
-/

namespace OrbitOpenEO
namespace Metrics

open Lib Lib.Exposition Lib.KeyedFold

/-- The text that `push_labels` puts in the place of a character. -/
def escapeChar : Char → List Char
  | '\\' => ['\\', '\\']
  | '"' => ['\\', '"']
  | '\n' => ['\\', 'n']
  | c => [c]

/-- The loop of `push_labels`. -/
def pushPairs (first : Bool) : List (String × String) → List Char
  | [] => []
  | (k, v) :: labels =>
      (if first then [] else [',']) ++ (k.toList ++ '=' :: '"' ::
        (v.toList.flatMap escapeChar ++ '"' :: pushPairs false labels))

/-- `push_labels`, on the entries of the map. -/
def pushLabels (labels : List (String × String)) : List Char :=
  if labels.isEmpty then [] else '{' :: (pushPairs true labels ++ ['}'])

/-- The `# TYPE` line of a metric. -/
def typeLine (name : MetricName) : List Char :=
  "# TYPE ".toList ++ name.asStr.toList ++ ' ' :: name.kind.typeStr.toList ++ ['\n']

/-- The line of a counter. -/
def counterLine (name : MetricName) (labels : Labels) (v : Nat) : List Char :=
  name.asStr.toList ++ pushLabels labels.entries ++ ' ' :: (toString v).toList ++ ['\n']

section Export

variable {F : Type} (fmt : FloatText F)

/-- The two lines of a histogram. -/
def histogramLines (name : MetricName) (labels : Labels) (v : Nat × F) : List Char :=
  let countLine := name.asStr ++ "_count"
  let sumLine := name.asStr ++ "_sum"
  countLine.toList ++ pushLabels labels.entries ++ ' ' :: (toString v.1).toList ++ ['\n'] ++
    (sumLine.toList ++ pushLabels labels.entries ++ ' ' :: (fmt.format v.2).toList ++ ['\n'])

/-- `to_prometheus`. -/
def Inner.toPrometheus (g : Inner F) : String :=
  let counters := (groupByName g.counters).toList.flatMap fun e =>
    typeLine e.1 ++ e.2.flatMap fun s => counterLine e.1 s.1 s.2
  let histos := (groupByName g.histograms).toList.flatMap fun e =>
    typeLine e.1 ++ e.2.flatMap fun s => histogramLines fmt e.1 s.1 s.2
  String.ofList (counters ++ histos)

end Export

/-- Whatever stands in the place of a character is read as the character. -/
theorem readQuoted_escapeChar (c : Char) (cs : List Char) :
    readQuoted (escapeChar c ++ cs) = (readQuoted cs).map fun r => (c :: r.1, r.2) := by
  unfold escapeChar
  split
  · rfl
  · rfl
  · rfl
  · rename_i hbackslash hquote _
    rw [List.singleton_append, readQuoted.eq_7 _ _ hquote]
    · exact fun _ h => absurd h hbackslash
    · exact fun _ h => absurd h hbackslash
    · exact fun _ h => absurd h hbackslash
    · exact hbackslash

/-- **The escapes are undone.** -/
theorem readQuoted_escaped (v rest : List Char) :
    readQuoted (v.flatMap escapeChar ++ '"' :: rest) = some (v, rest) := by
  induction v with
  | nil =>
      rfl
  | cons c v ih =>
      rw [List.flatMap_cons, List.append_assoc, readQuoted_escapeChar, ih]
      rfl

theorem pushPairs_false {labels : List (String × String)} (h : labels ≠ []) :
    pushPairs false labels = ',' :: pushPairs true labels := by
  cases labels with
  | nil =>
      exact absurd rfl h
  | cons label labels =>
      rfl

/-- The labels between the braces are read back. -/
theorem readLabels_pushPairs {labels : List (String × String)} (hne : labels ≠ [])
    (hnames : ∀ l ∈ labels, IsLabelName l.1) {n : Nat} (hn : labels.length ≤ n)
    (rest : List Char) :
    readLabels n (pushPairs true labels ++ '}' :: rest) = some (labels, rest) := by
  induction labels generalizing n with
  | nil =>
      exact absurd rfl hne
  | cons label labels ih =>
      obtain ⟨k, v⟩ := label
      obtain ⟨hk, hnames⟩ := List.forall_mem_cons.mp hnames
      obtain ⟨n, rfl⟩ : ∃ m, n = m + 1 := ⟨n - 1, by rw [List.length_cons] at hn; omega⟩
      have hlabel : readLabel (k.toList ++ '=' :: '"' :: (v.toList.flatMap escapeChar ++
          '"' :: (pushPairs false labels ++ '}' :: rest))) =
            some ((k, v), pushPairs false labels ++ '}' :: rest) :=
        readLabel_plain hk (readQuoted_escaped v.toList _)
      have htext : pushPairs true ((k, v) :: labels) ++ '}' :: rest =
          k.toList ++ '=' :: '"' :: (v.toList.flatMap escapeChar ++
            '"' :: (pushPairs false labels ++ '}' :: rest)) := by
        simp [pushPairs]
      rw [htext, readLabels_label hk hlabel]
      by_cases hlast : labels = []
      · subst hlast
        rfl
      · have hcomma : skipBlanks (',' :: pushPairs true labels ++ '}' :: rest) =
            ',' :: (pushPairs true labels ++ '}' :: rest) := skipBlanks_cons rfl _
        rw [pushPairs_false hlast, hcomma]
        change Option.map _ (readLabels n (pushPairs true labels ++ '}' :: rest)) = _
        rw [ih hlast hnames (Nat.le_of_succ_le_succ hn)]
        rfl

theorem length_le_pushPairs (first : Bool) (labels : List (String × String)) :
    labels.length ≤ (pushPairs first labels).length := by
  induction labels generalizing first with
  | nil =>
      exact Nat.le_refl 0
  | cons label labels ih =>
      have hmore := ih false
      simp only [pushPairs, List.length_append, List.length_cons]
      omega

/-- What `push_labels` writes is read back, and the value comes next. -/
theorem readBraces_pushLabels {labels : List (String × String)}
    (hnames : ∀ l ∈ labels, IsLabelName l.1) {value : List Char} (hvalue : IsWord value)
    (hopen : '{' ∉ value) :
    ∃ rest, readBraces (pushLabels labels ++ ' ' :: value) = some (labels, rest) ∧
      skipBlanks rest = value := by
  unfold pushLabels
  cases hempty : labels.isEmpty with
  | true =>
      rw [List.isEmpty_iff] at hempty
      subst hempty
      exact ⟨value, readBraces_none hvalue hopen, skipBlanks_word hvalue⟩
  | false =>
      have hne : labels ≠ [] := by
        rintro rfl
        cases hempty
      refine ⟨' ' :: value, ?_, skipBlanks_blank_word hvalue⟩
      have hlength := length_le_pushPairs true labels
      have hread := readLabels_pushPairs hne hnames (n := (pushPairs true labels ++
        '}' :: ' ' :: value).length + 1) (by simp only [List.length_append]; omega) (' ' :: value)
      rw [if_neg Bool.false_ne_true, List.cons_append, List.append_assoc, List.singleton_append]
      unfold readBraces
      rw [skipBlanks_cons rfl]
      exact hread

/-- The text of a line. -/
def lineText : Line → List Char
  | .nothing => []
  | .type name kind =>
      '#' :: ' ' :: ("TYPE".toList ++ ' ' :: (name.toList ++ ' ' :: kind.toList))
  | .sample s => s.name.toList ++ (pushLabels s.labels ++ ' ' :: s.value.toList)

section Lines

variable {F : Type} (fmt : FloatText F)

/-- The text of a value. -/
def valueText : Reading F → String
  | .whole n => toString n
  | .float x => fmt.format x

/-- A series as a sample. -/
def sampleOf (x : Series F) : Sample := ⟨x.1.1, x.1.2, valueText fmt x.2⟩

/-- A metric and its series as lines. -/
def blockLines (b : MetricName × List (Series F)) : List Line :=
  .type b.1.asStr b.1.kind.typeStr :: b.2.map fun x => .sample (sampleOf fmt x)

/-- The lines of the export. -/
def Inner.lines (g : Inner F) : List Line := g.blocks.flatMap (blockLines fmt)

/-- Lines as text, every one ended by a line feed. -/
def linesText (lines : List Line) : List Char := lines.flatMap fun line => lineText line ++ ['\n']

theorem lineText_type (name : MetricName) :
    lineText (.type name.asStr name.kind.typeStr) ++ ['\n'] = typeLine name := by
  have hhead : "# TYPE ".toList = '#' :: ' ' :: ("TYPE".toList ++ [' ']) := by decide
  unfold lineText typeLine
  rw [hhead]
  simp only [List.cons_append, List.append_assoc, List.nil_append]

theorem linesText_append (lines lines' : List Line) :
    linesText (lines ++ lines') = linesText lines ++ linesText lines' :=
  List.flatMap_append

theorem linesText_cons (line : Line) (lines : List Line) :
    linesText (line :: lines) = lineText line ++ ['\n'] ++ linesText lines :=
  List.flatMap_cons

theorem linesText_flatMap {β : Type} (f : β → List Line) (l : List β) :
    linesText (l.flatMap f) = l.flatMap fun b => linesText (f b) :=
  List.flatMap_assoc

/-- The text of the groups of a map. -/
theorem linesText_groupBlocks {α : Type} {series : MetricName → Labels × α → List (Series F)}
    {text : MetricName → Labels → α → List Char}
    (htext : ∀ name labels v, linesText ((series name (labels, v)).map fun x =>
      .sample (sampleOf fmt x)) = text name labels v)
    (m : Std.TreeMap SeriesKey α compareSeries) :
    linesText ((groupBlocks series m).flatMap (blockLines fmt)) =
      (groupByName m).toList.flatMap fun e =>
        typeLine e.1 ++ e.2.flatMap fun s => text e.1 s.1 s.2 := by
  unfold groupBlocks
  rw [linesText_flatMap, List.flatMap_map]
  refine List.flatMap_congr fun e _ => ?_
  have hseries : linesText ((e.2.flatMap (series e.1)).map fun x => .sample (sampleOf fmt x)) =
      e.2.flatMap fun s => text e.1 s.1 s.2 := by
    rw [List.map_flatMap, linesText_flatMap]
    exact List.flatMap_congr fun s _ => htext e.1 s.1 s.2
  rw [blockLines, linesText_cons, lineText_type, hseries]

/-- **The text is that of the lines.** -/
theorem toPrometheus_eq (g : Inner F) :
    g.toPrometheus fmt = String.ofList (linesText (g.lines fmt)) := by
  have hcounter : ∀ name labels v, linesText ((counterSeries name (labels, v)).map fun x =>
      .sample (sampleOf fmt x)) = counterLine name labels v := by
    intro name labels v
    simp [linesText, counterSeries, lineText, sampleOf, valueText, counterLine]
  have hhistogram : ∀ name labels v, linesText ((histogramSeries name (labels, v)).map fun x =>
      .sample (sampleOf fmt x)) = histogramLines fmt name labels v := by
    intro name labels v
    simp [linesText, histogramSeries, lineText, sampleOf, valueText, histogramLines]
  unfold Inner.toPrometheus Inner.lines Inner.blocks
  rw [List.flatMap_append, linesText_append, linesText_groupBlocks fmt hcounter,
    linesText_groupBlocks fmt hhistogram]

theorem feed_not_mem_escapeChar (c : Char) : '\n' ∉ escapeChar c := by
  unfold escapeChar
  split
  · decide
  · decide
  · decide
  · rename_i hfeed
    exact fun h => hfeed (List.mem_singleton.mp h).symm

theorem feed_not_mem_pushPairs {labels : List (String × String)}
    (hnames : ∀ l ∈ labels, IsLabelName l.1) (first : Bool) : '\n' ∉ pushPairs first labels := by
  induction labels generalizing first with
  | nil =>
      exact List.not_mem_nil
  | cons label labels ih =>
      obtain ⟨k, v⟩ := label
      obtain ⟨hk, hnames⟩ := List.forall_mem_cons.mp hnames
      have hname : '\n' ∉ k.toList := not_mem_of_isName hk (by decide) (by decide)
      have hvalue : '\n' ∉ v.toList.flatMap escapeChar := by
        intro h
        obtain ⟨c, -, hc⟩ := List.mem_flatMap.mp h
        exact feed_not_mem_escapeChar c hc
      have hcomma : '\n' ∉ if first then [] else [','] := by
        cases first <;> decide
      simp [pushPairs, hname, hvalue, hcomma, ih hnames]

theorem feed_not_mem_pushLabels {labels : List (String × String)}
    (hnames : ∀ l ∈ labels, IsLabelName l.1) : '\n' ∉ pushLabels labels := by
  unfold pushLabels
  split_ifs
  · exact List.not_mem_nil
  · simp [feed_not_mem_pushPairs hnames]

variable {fmt}

/-- A value is one word, without an opening brace or a line feed. -/
theorem isWord_valueText (hfmt : fmt.Invertible) (v : Reading F) :
    IsWord (valueText fmt v).toList ∧ '\n' ∉ (valueText fmt v).toList ∧
      '{' ∉ (valueText fmt v).toList := by
  cases v with
  | whole n =>
      exact isWord_digits n
  | float x =>
      exact ⟨hfmt.word x, hfmt.plain x⟩

/-- The line of a series is read back. -/
theorem readLine_sampleOf (hfmt : fmt.Invertible) {x : Series F} (hname : IsMetricName x.1.1)
    (hlabels : ∀ l ∈ x.1.2, IsLabelName l.1) :
    readLine (lineText (.sample (sampleOf fmt x))) = some (.sample (sampleOf fmt x)) := by
  obtain ⟨hword, -, hopen⟩ := isWord_valueText hfmt x.2
  obtain ⟨rest, hbraces, hrest⟩ := readBraces_pushLabels hlabels hword hopen
  have hstop : ∀ c cs, pushLabels x.1.2 ++ ' ' :: (valueText fmt x.2).toList = c :: cs →
      isMetricChar c = false := by
    intro c cs h
    unfold pushLabels at h
    split_ifs at h
    · cases h
      decide
    · cases h
      decide
  have hsample := readSample_plain hname hstop hbraces hword hrest
  unfold lineText
  rw [sampleOf, readLine_sample hname, hsample]
  rfl

theorem feed_not_mem_sampleOf (hfmt : fmt.Invertible) {x : Series F} (hname : IsMetricName x.1.1)
    (hlabels : ∀ l ∈ x.1.2, IsLabelName l.1) :
    '\n' ∉ lineText (.sample (sampleOf fmt x)) := by
  have hvalue := (isWord_valueText hfmt x.2).2.1
  have hn : '\n' ∉ x.1.1.toList := not_mem_of_isName hname (by decide) (by decide)
  simp [lineText, sampleOf, hn, hvalue, feed_not_mem_pushLabels hlabels]

/-- A type that has been given is that of a metric. -/
def DeclaresMetrics (declared : List (String × String)) : Prop :=
  ∀ d ∈ declared, ∃ name : MetricName, d = (name.asStr, name.kind.typeStr)

/-- A sample of a histogram is not one of a counter. -/
theorem counter_not_mem {declared : List (String × String)} (hd : DeclaresMetrics declared)
    {name : MetricName} (hkind : name.kind = .histogram) {s : String} {v : Reading F}
    (h : Belongs name s v) : (s, "counter") ∉ declared := by
  intro hmem
  obtain ⟨name', heq⟩ := hd _ hmem
  obtain ⟨rfl, htype⟩ := Prod.mk.inj heq
  have hkind' : name'.kind = .counter := by
    cases hk : name'.kind with
    | counter =>
        rfl
    | histogram =>
        rw [hk] at htype
        exact absurd htype (by decide)
  obtain rfl := eq_of_belongs h (.counter (F := F) hkind' 0)
  rw [hkind] at hkind'
  cases hkind'

/-- A sum is not a count. -/
theorem sum_ne_count {declared : List (String × String)} (hd : DeclaresMetrics declared)
    {name : MetricName} (hkind : name.kind = .histogram) :
    ¬ ∃ d ∈ declared, d.2 = "histogram" ∧ name.asStr ++ "_sum" = d.1 ++ "_count" := by
  rintro ⟨d, hmem, htype, heq⟩
  obtain ⟨name', rfl⟩ := hd d hmem
  have hkind' : name'.kind = .histogram := by
    cases hk : name'.kind with
    | counter =>
        dsimp only at htype
        rw [hk] at htype
        exact absurd htype (by decide)
    | histogram =>
        rfl
  have hname : name = name' := by
    have hsum : Belongs name (name.asStr ++ "_sum") (.float ()) := .sum hkind ()
    have hcount : Belongs name' (name'.asStr ++ "_count") (.whole (F := Unit) 0) := .count hkind' 0
    rw [heq] at hsum
    exact eq_of_belongs hsum hcount
  subst hname
  revert heq
  cases name <;> decide

/-- The value of a series is read back. -/
theorem readValue_sampleOf (hfmt : fmt.Invertible) {declared : List (String × String)}
    (hd : DeclaresMetrics declared) {name : MetricName} {x : Series F}
    (hmem : (name.asStr, name.kind.typeStr) ∈ declared) (h : Belongs name x.1.1 x.2) :
    readValue fmt.read declared (sampleOf fmt x) = some x.2 := by
  obtain ⟨⟨s, labels⟩, v⟩ := x
  dsimp only at h
  unfold readValue sampleOf
  dsimp only
  cases h with
  | counter hkind n =>
      rw [hkind, MetricKind.typeStr] at hmem
      rw [if_pos hmem, valueText, readWhole_toString]
      rfl
  | count hkind n =>
      have hnot := counter_not_mem hd hkind (.count (F := F) hkind n)
      rw [hkind] at hmem
      rw [if_neg hnot, if_pos ⟨_, hmem, rfl, rfl⟩, valueText, readWhole_toString]
      rfl
  | sum hkind x =>
      have hnot := counter_not_mem hd hkind (.sum hkind x)
      have hsum := sum_ne_count hd hkind
      rw [hkind] at hmem
      rw [if_neg hnot, if_neg hsum, if_pos ⟨_, hmem, rfl, rfl⟩, valueText, hfmt.read_format]
      rfl

/-- The samples of a metric whose type is given. -/
theorem readSeries_samples (hfmt : fmt.Invertible) {declared : List (String × String)}
    (hd : DeclaresMetrics declared) {name : MetricName}
    (hmem : (name.asStr, name.kind.typeStr) ∈ declared) {series : List (Series F)}
    (h : ∀ x ∈ series, Belongs name x.1.1 x.2) (lines : List Line) :
    readSeries fmt.read declared ((series.map fun x => .sample (sampleOf fmt x)) ++ lines) =
      (readSeries fmt.read declared lines).map (series ++ ·) := by
  induction series with
  | nil =>
      exact Option.map_id'.symm
  | cons x series ih =>
      obtain ⟨hx, hseries⟩ := List.forall_mem_cons.mp h
      rw [List.map_cons, List.cons_append, readSeries, readValue_sampleOf hfmt hd hmem hx,
        ih hseries]
      cases readSeries fmt.read declared lines with
      | none =>
          rfl
      | some more =>
          rfl

/-- **All series are read back.** -/
theorem readSeries_blocks (hfmt : fmt.Invertible) {blocks : List (MetricName × List (Series F))}
    (h : ∀ b ∈ blocks, IsBlock b) (hnodup : (blocks.map Prod.fst).Nodup)
    {declared : List (String × String)} (hd : DeclaresMetrics declared)
    (hnew : ∀ name ∈ blocks.map Prod.fst, name.asStr ∉ declared.map Prod.fst) :
    readSeries fmt.read declared (blocks.flatMap (blockLines fmt)) =
      some (blocks.flatMap Prod.snd) := by
  induction blocks generalizing declared with
  | nil =>
      rfl
  | cons b blocks ih =>
      obtain ⟨hb, hblocks⟩ := List.forall_mem_cons.mp h
      obtain ⟨hbnew, hnew⟩ := List.forall_mem_cons.mp hnew
      obtain ⟨hbname, hnodup⟩ := List.nodup_cons.mp hnodup
      have hd' : DeclaresMetrics ((b.1.asStr, b.1.kind.typeStr) :: declared) :=
        List.forall_mem_cons.mpr ⟨⟨b.1, rfl⟩, hd⟩
      have hnew' : ∀ name ∈ blocks.map Prod.fst, name.asStr ∉
          ((b.1.asStr, b.1.kind.typeStr) :: declared).map Prod.fst := by
        intro name hname hmem
        rcases List.mem_cons.mp hmem with heq | hmem
        · exact hbname (asStr_injective heq ▸ hname)
        · exact hnew name hname hmem
      rw [List.flatMap_cons, blockLines, List.cons_append, readSeries, if_neg hbnew,
        readSeries_samples hfmt hd' List.mem_cons_self hb.belongs, ih hblocks hnodup hd' hnew']
      rfl

theorem types_blocks (blocks : List (MetricName × List (Series F))) :
    types (blocks.flatMap (blockLines fmt)) =
      blocks.map fun b => (b.1.asStr, b.1.kind.typeStr) := by
  have hsamples : ∀ series : List (Series F),
      types (series.map fun x => .sample (sampleOf fmt x)) = [] := by
    intro series
    unfold types
    rw [List.filterMap_map, List.filterMap_eq_nil_iff]
    exact fun _ _ => rfl
  induction blocks with
  | nil =>
      rfl
  | cons b blocks ih =>
      have hblock : types (blockLines fmt b) = [(b.1.asStr, b.1.kind.typeStr)] := by
        change _ :: types (b.2.map fun x => .sample (sampleOf fmt x)) = _
        rw [hsamples]
      rw [List.flatMap_cons, types, List.filterMap_append, ← types, ← types, ih, hblock]
      rfl

/-- **The lines are read back.** -/
theorem read_toPrometheus (hfmt : fmt.Invertible) {g : Inner F} (h : WellFormed g) :
    Exposition.read (g.toPrometheus fmt) = some (g.lines fmt) := by
  rw [toPrometheus_eq]
  refine read_lines fun line hline => ?_
  obtain ⟨b, hb, hline⟩ := List.mem_flatMap.mp hline
  rcases List.mem_cons.mp hline with rfl | hline
  · have hfeed : '\n' ∉ b.1.kind.typeStr.toList := by
      cases b.1.kind <;> decide
    have hname : '\n' ∉ b.1.asStr.toList :=
      not_mem_of_isName (isMetricName_asStr b.1) (by decide) (by decide)
    refine ⟨readLine_type (isMetricName_asStr b.1) (typeStr_mem_kinds b.1.kind), ?_⟩
    simp [lineText, hfeed, hname]
  · obtain ⟨x, hx, rfl⟩ := List.mem_map.mp hline
    have hblock := isBlock_blocks h hb
    have hname : IsMetricName x.1.1 := isMetricName_of_belongs (hblock.belongs x hx)
    exact ⟨readLine_sampleOf hfmt hname (hblock.labels x hx),
      feed_not_mem_sampleOf hfmt hname (hblock.labels x hx)⟩

theorem readSeries_lines (hfmt : fmt.Invertible) {g : Inner F} (h : WellFormed g) :
    readSeries fmt.read [] (g.lines fmt) = some (g.blocks.flatMap Prod.snd) :=
  readSeries_blocks hfmt (fun _ => isBlock_blocks h) (nodup_blocks h) (fun _ => nofun)
    fun _ _ => List.not_mem_nil

variable (fmt)

/-- What is read from a text is what calls have recorded. -/
structure Faithful (calls : List (Call F)) (lines : List Line) (series : List (Series F)) :
    Prop where
  /-- The series are those that have been recorded. -/
  series_iff : ∀ x, x ∈ series ↔ Recorded fmt calls x
  /-- No name and labels are given twice. -/
  series_once : (series.map Prod.fst).Nodup
  /-- The types are those of the metrics that have been called. -/
  types_iff : ∀ d, d ∈ types lines ↔
    ∃ name : MetricName, Used calls name ∧ d = (name.asStr, name.kind.typeStr)
  /-- No metric is given a type twice. -/
  types_once : ((types lines).map Prod.fst).Nodup
  /-- The type of its metric stands before a sample. -/
  types_first : ∀ pre s post, lines = pre ++ .sample s :: post → Covered (types pre) s

/-- **The export is faithful.** -/
theorem export_faithful (hfmt : fmt.Invertible) (calls : List (Call F)) (h : Proper calls) :
    ∃ lines series, Exposition.read ((record fmt calls).toPrometheus fmt) = some lines ∧
      readSeries fmt.read [] lines = some series ∧ Faithful fmt calls lines series := by
  have hwf : WellFormed (record fmt calls) := wellFormed_record fmt h
  have hseries := readSeries_lines hfmt hwf
  refine ⟨_, _, read_toPrometheus hfmt hwf, hseries, mem_series_iff fmt calls, nodup_series hwf,
    fun d => ?_, ?_, fun pre s post hlines => ?_⟩
  · unfold Inner.lines
    rw [types_blocks]
    simp only [← mem_blocks_iff fmt, List.mem_map]
    constructor
    · rintro ⟨b, hb, rfl⟩
      exact ⟨b.1, ⟨b, hb, rfl⟩, rfl⟩
    · rintro ⟨name, ⟨b, hb, rfl⟩, rfl⟩
      exact ⟨b, hb, rfl⟩
  · simpa using nodup_types_of_readSeries fmt.read hseries List.nodup_nil
  · rw [hlines] at hseries
    simpa using covered_of_readSeries fmt.read hseries

end Lines

/-- The floats that are whole numbers, whose text is that of the number. -/
def wholeFloats : FloatText Nat := ⟨0, (· + ·), toString, readWhole⟩

theorem wholeFloats_invertible : wholeFloats.Invertible where
  read_format := readWhole_toString
  word x := (isWord_digits x).1
  plain x := (isWord_digits x).2

/-- A label whose value has a quote, a backslash and a line feed. -/
def pathLabel : Labels := ⟨[("path", "a\"b\\c\nd")], by decide⟩

example : (record wholeFloats [.counterInc .cacheHitsTotal pathLabel 2]).toPrometheus wholeFloats =
    "# TYPE orbit_cache_hits_total counter\n" ++
      "orbit_cache_hits_total\x7bpath=\"a\\\"b\\\\c\\nd\"\x7d 2\n" := by
  decide +kernel

theorem export_faithful_pathLabel :
    ∃ lines series, Exposition.read ((record wholeFloats
        [.counterInc .cacheHitsTotal pathLabel 2, .histogramObserve .etlJobDurationSeconds .empty 3,
          .counterInc .cacheHitsTotal pathLabel 5]).toPrometheus wholeFloats) = some lines ∧
      readSeries wholeFloats.read [] lines = some series ∧
      Faithful wholeFloats
        [.counterInc .cacheHitsTotal pathLabel 2, .histogramObserve .etlJobDurationSeconds .empty 3,
          .counterInc .cacheHitsTotal pathLabel 5] lines series := by
  have hlabels : ∀ k ∈ pathLabel.keys, IsLabelName k :=
    List.forall_mem_singleton.mpr (by decide)
  refine export_faithful wholeFloats wholeFloats_invertible _ ⟨?_, ?_⟩
  · exact List.forall_mem_cons.mpr ⟨rfl, List.forall_mem_cons.mpr ⟨rfl,
      List.forall_mem_singleton.mpr rfl⟩⟩
  · exact List.forall_mem_cons.mpr ⟨hlabels, List.forall_mem_cons.mpr ⟨nofun,
      List.forall_mem_singleton.mpr hlabels⟩⟩

end Metrics
end OrbitOpenEO
