import OrbitOpenEO.Lib.Numerals
import Mathlib.Data.List.TakeWhile
import Mathlib.Tactic.Common

/-!
# The text exposition format for metrics

A reader for the line-based format: comments, `# TYPE` lines and samples with labels in braces,
whose values are quoted with escapes for backslash, quote and line feed.  Blanks and tabs may
stand between any two tokens, a comma may follow the last label and a timestamp the value.

The lemmas say what each part of the reader does with a text in the plain spelling, one blank
between the value and what comes before it.
-/

namespace OrbitOpenEO
namespace Lib
namespace Exposition

/-- A sample: its labels with the escapes undone, its value as it is written. -/
structure Sample where
  name : String
  labels : List (String × String)
  value : String
deriving DecidableEq

/-- What a line says. -/
inductive Line where
  /-- An empty line, or a comment that is not about types. -/
  | nothing
  | type (name kind : String)
  | sample (s : Sample)
deriving DecidableEq

def isBlank (c : Char) : Bool := c == ' ' || c == '\t'

def skipBlanks (cs : List Char) : List Char := cs.dropWhile isBlank

/-- What stands up to the next blank. -/
def word (cs : List Char) : List Char := cs.takeWhile fun c => !isBlank c

def afterWord (cs : List Char) : List Char := cs.dropWhile fun c => !isBlank c

def isLabelStart (c : Char) : Bool := c.isAlpha || c == '_'

def isLabelChar (c : Char) : Bool := isLabelStart c || c.isDigit

def isMetricStart (c : Char) : Bool := isLabelStart c || c == ':'

def isMetricChar (c : Char) : Bool := isMetricStart c || c.isDigit

/-- A name: its first character and the ones that may follow. -/
def readName (start more : Char → Bool) : List Char → Option (List Char × List Char)
  | [] => none
  | c :: cs => if start c then some (c :: cs.takeWhile more, cs.dropWhile more) else none

/-- The text is a name. -/
def IsName (start more : Char → Bool) : List Char → Prop
  | [] => False
  | c :: cs => start c = true ∧ ∀ d ∈ cs, more d = true

instance (start more : Char → Bool) : DecidablePred (IsName start more)
  | [] => isFalse id
  | c :: cs => decidable_of_iff (start c = true ∧ cs.all more = true)
      (and_congr_right fun _ => List.all_eq_true)

abbrev IsLabelName (s : String) : Prop := IsName isLabelStart isLabelChar s.toList

abbrev IsMetricName (s : String) : Prop := IsName isMetricStart isMetricChar s.toList

/-- The value of a label after the opening quote, and what comes after the closing one. -/
def readQuoted : List Char → Option (List Char × List Char)
  | [] => none
  | '"' :: cs => some ([], cs)
  | '\\' :: '\\' :: cs => (readQuoted cs).map fun r => ('\\' :: r.1, r.2)
  | '\\' :: '"' :: cs => (readQuoted cs).map fun r => ('"' :: r.1, r.2)
  | '\\' :: 'n' :: cs => (readQuoted cs).map fun r => ('\n' :: r.1, r.2)
  | '\\' :: _ => none
  | c :: cs => (readQuoted cs).map fun r => (c :: r.1, r.2)

/-- A label, with its name and its quoted value. -/
def readLabel (cs : List Char) : Option ((String × String) × List Char) := do
  let (name, cs) ← readName isLabelStart isLabelChar cs
  let cs ← match skipBlanks cs with
    | '=' :: cs => some cs
    | _ => none
  let (value, cs) ← match skipBlanks cs with
    | '"' :: cs => readQuoted cs
    | _ => none
  some ((String.ofList name, String.ofList value), cs)

/-- The labels after the opening brace, at most `n` of them. -/
def readLabels : Nat → List Char → Option (List (String × String) × List Char)
  | 0, _ => none
  | n + 1, cs =>
      match skipBlanks cs with
      | '}' :: rest => some ([], rest)
      | cs => do
          let (label, cs) ← readLabel cs
          match skipBlanks cs with
          | '}' :: rest => some ([label], rest)
          | ',' :: cs =>
              let (more, rest) ← readLabels n cs
              some (label :: more, rest)
          | _ => none

/-- An integer, as timestamps are. -/
def isInteger : List Char → Bool
  | '-' :: c :: cs => (c :: cs).all Char.isDigit
  | c :: cs => (c :: cs).all Char.isDigit
  | [] => false

/-- After the value: nothing, or a timestamp. -/
def isTimestamp (cs : List Char) : Bool :=
  (skipBlanks cs).isEmpty ||
    (isInteger (word (skipBlanks cs)) && (skipBlanks (afterWord (skipBlanks cs))).isEmpty)

/-- The labels of a sample, none without a brace. -/
def readBraces (cs : List Char) : Option (List (String × String) × List Char) :=
  match skipBlanks cs with
  | '{' :: cs => readLabels (cs.length + 1) cs
  | cs => some ([], cs)

def readSample (cs : List Char) : Option Sample := do
  let (name, cs) ← readName isMetricStart isMetricChar cs
  let (labels, cs) ← readBraces cs
  let value := word (skipBlanks cs)
  if !value.isEmpty && isTimestamp (afterWord (skipBlanks cs)) then
    some ⟨String.ofList name, labels, String.ofList value⟩
  else none

def kinds : List (List Char) :=
  ["counter", "gauge", "histogram", "summary", "untyped"].map String.toList

/-- The name and the kind after `TYPE`. -/
def readType (cs : List Char) : Option Line := do
  let (name, cs) ← readName isMetricStart isMetricChar (skipBlanks cs)
  let kind := word (skipBlanks cs)
  if kind ∈ kinds ∧ (skipBlanks (afterWord (skipBlanks cs))).isEmpty then
    some (.type (String.ofList name) (String.ofList kind))
  else none

/-- A line that begins with `#`. -/
def readComment (cs : List Char) : Option Line :=
  let cs := skipBlanks cs
  if word cs = "TYPE".toList then readType (afterWord cs) else some .nothing

def readLine (cs : List Char) : Option Line :=
  match skipBlanks cs with
  | [] => some .nothing
  | '#' :: cs => readComment cs
  | cs => (readSample cs).map .sample

/-- The lines of a text, every one ended by a line feed. -/
def splitLines (line : List Char) : List Char → Option (List (List Char))
  | [] => if line.isEmpty then some [] else none
  | '\n' :: cs => (splitLines [] cs).map (line :: ·)
  | c :: cs => splitLines (line ++ [c]) cs

/-- **The reader.** -/
def read (text : String) : Option (List Line) := do
  let lines ← splitLines [] text.toList
  lines.mapM readLine

/-- The names with their types. -/
def types (lines : List Line) : List (String × String) :=
  lines.filterMap fun
    | .type name kind => some (name, kind)
    | _ => none

/-- A number: whole, as counts are, or a float. -/
inductive Reading (F : Type) where
  | whole (n : Nat)
  | float (x : F)
deriving DecidableEq

/-- A series: name, labels and value. -/
abbrev Series (F : Type) := (String × List (String × String)) × Reading F

/-- A whole number in decimals. -/
def readWhole (text : String) : Option Nat :=
  if !text.isEmpty && text.toList.all Char.isDigit then some (numeral 10 text.toList) else none

section Series

variable {F : Type} (readFloat : String → Option F)

/-- The value of a sample, by the type of its metric: a counter and the count of a histogram are
whole numbers, the sum of a histogram is a float. -/
def readValue (declared : List (String × String)) (s : Sample) : Option (Reading F) :=
  if (s.name, "counter") ∈ declared then (readWhole s.value).map .whole
  else if ∃ d ∈ declared, d.2 = "histogram" ∧ s.name = d.1 ++ "_count" then
    (readWhole s.value).map .whole
  else if ∃ d ∈ declared, d.2 = "histogram" ∧ s.name = d.1 ++ "_sum" then
    (readFloat s.value).map .float
  else none

/-- The series of a text.  A metric has one type, which is given before its samples. -/
def readSeries (declared : List (String × String)) : List Line → Option (List (Series F))
  | [] => some []
  | .nothing :: lines => readSeries declared lines
  | .type name kind :: lines =>
      if name ∈ declared.map Prod.fst then none
      else readSeries ((name, kind) :: declared) lines
  | .sample s :: lines => do
      let value ← readValue readFloat declared s
      let more ← readSeries declared lines
      some (((s.name, s.labels), value) :: more)

/-- The sample belongs to a metric whose type is given. -/
def Covered (declared : List (String × String)) (s : Sample) : Prop :=
  (s.name, "counter") ∈ declared ∨
    ∃ name, (name, "histogram") ∈ declared ∧ (s.name = name ++ "_count" ∨ s.name = name ++ "_sum")

theorem covered_of_readValue {declared : List (String × String)} {s : Sample} {v : Reading F}
    (h : readValue readFloat declared s = some v) : Covered declared s := by
  unfold readValue at h
  split_ifs at h with hcounter hcount hsum
  · exact .inl hcounter
  · obtain ⟨⟨name, kind⟩, hd, rfl, hname⟩ := hcount
    exact .inr ⟨name, hd, .inl hname⟩
  · obtain ⟨⟨name, kind⟩, hd, rfl, hname⟩ := hsum
    exact .inr ⟨name, hd, .inr hname⟩

/-- What has been read in full gives no metric two types. -/
theorem nodup_types_of_readSeries {declared : List (String × String)} {lines : List Line}
    {series : List (Series F)} (h : readSeries readFloat declared lines = some series)
    (hnodup : (declared.map Prod.fst).Nodup) :
    ((types lines).map Prod.fst ++ declared.map Prod.fst).Nodup := by
  induction lines generalizing declared series with
  | nil =>
      exact hnodup
  | cons line lines ih =>
      cases line with
      | nothing =>
          exact ih h hnodup
      | type name kind =>
          rw [readSeries] at h
          split_ifs at h with hmem
          have hnext := ih h (List.nodup_cons.mpr ⟨hmem, hnodup⟩)
          exact (List.perm_middle.nodup_iff).mp hnext
      | sample s =>
          rw [readSeries] at h
          obtain ⟨v, -, h⟩ := Option.bind_eq_some_iff.mp h
          obtain ⟨more, hmore, -⟩ := Option.bind_eq_some_iff.mp h
          exact ih hmore hnodup

/-- What has been read in full gives the type of every sample before it. -/
theorem covered_of_readSeries {declared : List (String × String)} {pre post : List Line}
    {s : Sample} {series : List (Series F)}
    (h : readSeries readFloat declared (pre ++ .sample s :: post) = some series) :
    Covered (types pre ++ declared) s := by
  induction pre generalizing declared series with
  | nil =>
      rw [List.nil_append, readSeries] at h
      obtain ⟨v, hv, -⟩ := Option.bind_eq_some_iff.mp h
      exact covered_of_readValue readFloat hv
  | cons line pre ih =>
      cases line with
      | nothing =>
          exact ih h
      | type name kind =>
          rw [List.cons_append, readSeries] at h
          split_ifs at h
          have hcovered := ih h
          unfold Covered at hcovered ⊢
          simpa [types, or_left_comm, or_assoc] using hcovered
      | sample t =>
          rw [List.cons_append, readSeries] at h
          obtain ⟨v, -, h⟩ := Option.bind_eq_some_iff.mp h
          obtain ⟨more, hmore, -⟩ := Option.bind_eq_some_iff.mp h
          exact ih hmore

end Series

/-- A word: not empty, and without blanks. -/
def IsWord (cs : List Char) : Prop := cs ≠ [] ∧ ∀ c ∈ cs, isBlank c = false

instance : DecidablePred IsWord := fun cs =>
  decidable_of_iff (cs ≠ [] ∧ (cs.all fun c => !isBlank c) = true)
    (and_congr_right fun _ => by rw [List.all_eq_true]; simp only [Bool.not_eq_true'])

theorem toList_toString (n : Nat) : (toString n).toList = Nat.toDigits 10 n := String.toList_ofList

theorem isDigit_of_mem_toString {n : Nat} {c : Char} (h : c ∈ (toString n).toList) :
    c.isDigit = true := by
  rw [toList_toString] at h
  exact Nat.isDigit_of_mem_toDigits (by decide) (by decide) h

/-- The digits of a number are one word, without an opening brace or a line feed. -/
theorem isWord_digits (n : Nat) :
    IsWord (toString n).toList ∧ '\n' ∉ (toString n).toList ∧ '{' ∉ (toString n).toList := by
  refine ⟨⟨?_, fun c hc => ?_⟩, fun h => ?_, fun h => ?_⟩
  · rw [toList_toString]
    exact Nat.toDigits_ne_nil
  · rw [Bool.eq_false_iff]
    intro hblank
    unfold isBlank at hblank
    rw [Bool.or_eq_true, beq_iff_eq, beq_iff_eq] at hblank
    rcases hblank with rfl | rfl
    · exact absurd (isDigit_of_mem_toString hc) (by decide)
    · exact absurd (isDigit_of_mem_toString hc) (by decide)
  · exact absurd (isDigit_of_mem_toString h) (by decide)
  · exact absurd (isDigit_of_mem_toString h) (by decide)

/-- A number in decimals is read back. -/
theorem readWhole_toString (n : Nat) : readWhole (toString n) = some n := by
  have hdigits : (toString n).toList.all Char.isDigit = true :=
    List.all_eq_true.mpr fun _ => isDigit_of_mem_toString
  have hnonempty : (toString n).isEmpty = false := by
    rw [Bool.eq_false_iff, ne_eq, String.isEmpty_iff, ← String.toList_eq_nil_iff]
    exact (isWord_digits n).1.1
  unfold readWhole
  rw [hdigits, hnonempty, toList_toString, numeral_toDigits]
  rfl

theorem skipBlanks_cons {c : Char} (h : isBlank c = false) (cs : List Char) :
    skipBlanks (c :: cs) = c :: cs := by
  rw [skipBlanks, List.dropWhile_cons_of_neg (by simp [h])]

theorem skipBlanks_word {cs : List Char} (h : IsWord cs) : skipBlanks cs = cs := by
  obtain ⟨hne, hall⟩ := h
  cases cs with
  | nil =>
      exact absurd rfl hne
  | cons c cs =>
      exact skipBlanks_cons (hall c List.mem_cons_self) cs

/-- After one blank a word is found. -/
theorem skipBlanks_blank_word {cs : List Char} (h : IsWord cs) : skipBlanks (' ' :: cs) = cs :=
  skipBlanks_word h

theorem word_of_isWord {cs : List Char} (h : IsWord cs) : word cs = cs :=
  List.takeWhile_eq_self_iff.mpr fun c hc => by rw [h.2 c hc]; rfl

theorem afterWord_of_isWord {cs : List Char} (h : IsWord cs) : afterWord cs = [] :=
  List.dropWhile_eq_nil_iff.mpr fun c hc => by rw [h.2 c hc]; rfl

/-- A name ends where a character comes that it may not contain. -/
theorem readName_append {start more : Char → Bool} {name rest : List Char}
    (h : IsName start more name) (hrest : ∀ c cs, rest = c :: cs → more c = false) :
    readName start more (name ++ rest) = some (name, rest) := by
  cases name with
  | nil =>
      cases h
  | cons c name =>
      have htake : (name ++ rest).takeWhile more = name ∧
          (name ++ rest).dropWhile more = rest := by
        rw [List.takeWhile_append_of_pos h.2, List.dropWhile_append_of_pos h.2]
        cases rest with
        | nil =>
            simp
        | cons d rest =>
            simp [hrest d rest rfl]
      rw [List.cons_append, readName, if_pos h.1, htake.1, htake.2]

/-- A name may go on with any text that it may contain. -/
theorem isName_append {start more : Char → Bool} {name rest : List Char}
    (h : IsName start more name) (hrest : rest.all more = true) :
    IsName start more (name ++ rest) := by
  cases name with
  | nil =>
      cases h
  | cons c name =>
      exact ⟨h.1, List.forall_mem_append.mpr ⟨h.2, List.all_eq_true.mp hrest⟩⟩

/-- What may stand nowhere in a name does not. -/
theorem not_mem_of_isName {start more : Char → Bool} {name : List Char} (h : IsName start more name)
    {c : Char} (hstart : start c = false) (hmore : more c = false) : c ∉ name := by
  cases name with
  | nil =>
      cases h
  | cons d ds =>
      intro hmem
      rcases List.mem_cons.mp hmem with rfl | hmem
      · exact Bool.false_ne_true (hstart.symm.trans h.1)
      · exact Bool.false_ne_true (hmore.symm.trans (h.2 c hmem))

theorem isBlank_of_isLabelStart {c : Char} (h : isLabelStart c = true) : isBlank c = false := by
  rw [Bool.eq_false_iff]
  intro hblank
  unfold isBlank at hblank
  rw [Bool.or_eq_true, beq_iff_eq, beq_iff_eq] at hblank
  rcases hblank with rfl | rfl
  · exact absurd h (by decide)
  · exact absurd h (by decide)

/-- A label with a value in quotes. -/
theorem readLabel_plain {k v : String} {quoted rest : List Char} (hk : IsLabelName k)
    (hv : readQuoted quoted = some (v.toList, rest)) :
    readLabel (k.toList ++ '=' :: '"' :: quoted) = some ((k, v), rest) := by
  have hname : readName isLabelStart isLabelChar (k.toList ++ '=' :: '"' :: quoted) =
      some (k.toList, '=' :: '"' :: quoted) := by
    refine readName_append hk fun c cs h => ?_
    cases h
    decide
  unfold readLabel
  rw [hname]
  have heq : skipBlanks ('=' :: '"' :: quoted) = '=' :: '"' :: quoted := skipBlanks_cons rfl _
  have hquote : skipBlanks ('"' :: quoted) = '"' :: quoted := skipBlanks_cons rfl _
  simp only [Option.bind_eq_bind, Option.bind_some, heq, hquote, hv, String.ofList_toList]

/-- Labels begin with a label; what comes after it decides whether there are more. -/
theorem readLabels_label {k : String} (hk : IsLabelName k) {cs cs' : List Char}
    {label : String × String} (h : readLabel (k.toList ++ cs) = some (label, cs')) (n : Nat) :
    readLabels (n + 1) (k.toList ++ cs) =
      match skipBlanks cs' with
      | '}' :: rest => some ([label], rest)
      | ',' :: cs => (readLabels n cs).map fun r => (label :: r.1, r.2)
      | _ => none := by
  cases hcs : k.toList with
  | nil =>
      rw [IsLabelName, hcs] at hk
      cases hk
  | cons c ds =>
      rw [IsLabelName, hcs] at hk
      rw [hcs, List.cons_append] at h
      rw [List.cons_append, readLabels, skipBlanks_cons (isBlank_of_isLabelStart hk.1)]
      split
      · rename_i heq
        cases heq
        exact absurd hk.1 (by decide)
      · rw [h, Option.bind_eq_bind, Option.bind_some]
        dsimp only
        split
        · rfl
        · rename_i cs _
          cases readLabels n cs with
          | none =>
              rfl
          | some r =>
              rfl
        · rfl

/-- Without a brace there are no labels. -/
theorem readBraces_none {value : List Char} (hvalue : IsWord value) (hopen : '{' ∉ value) :
    readBraces (' ' :: value) = some ([], value) := by
  unfold readBraces
  rw [skipBlanks_blank_word hvalue]
  split
  · exact absurd List.mem_cons_self hopen
  · rfl

/-- A sample with a word for its value. -/
theorem readSample_plain {name value : String} {rest rest' : List Char}
    {labels : List (String × String)} (hname : IsMetricName name)
    (hstop : ∀ c cs, rest = c :: cs → isMetricChar c = false)
    (hbraces : readBraces rest = some (labels, rest')) (hvalue : IsWord value.toList)
    (hrest : skipBlanks rest' = value.toList) :
    readSample (name.toList ++ rest) = some ⟨name, labels, value⟩ := by
  have hnonempty : value.toList.isEmpty = false := by simpa using hvalue.1
  have hend : isTimestamp [] = true := rfl
  unfold readSample
  rw [readName_append hname hstop]
  simp only [Option.bind_eq_bind, Option.bind_some, hbraces, hrest, word_of_isWord hvalue,
    afterWord_of_isWord hvalue, hnonempty, hend, Bool.not_false, Bool.and_self, if_true,
    String.ofList_toList]

theorem not_blank_of_isMetricStart {c : Char} (h : isMetricStart c = true) :
    isBlank c = false ∧ c ≠ '#' := by
  unfold isMetricStart at h
  rcases Bool.or_eq_true_iff.mp h with h | h
  · refine ⟨isBlank_of_isLabelStart h, ?_⟩
    rintro rfl
    exact absurd h (by decide)
  · rw [beq_iff_eq] at h
    subst h
    decide

/-- A line that begins with a metric name is a sample. -/
theorem readLine_sample {name : String} (h : IsMetricName name) (rest : List Char) :
    readLine (name.toList ++ rest) = (readSample (name.toList ++ rest)).map .sample := by
  cases hcs : name.toList with
  | nil =>
      rw [IsMetricName, hcs] at h
      cases h
  | cons c cs =>
      rw [IsMetricName, hcs] at h
      obtain ⟨hblank, hhash⟩ := not_blank_of_isMetricStart h.1
      unfold readLine
      rw [List.cons_append, skipBlanks_cons hblank]
      split
      · rename_i heq
        cases heq
      · rename_i heq
        cases heq
        exact absurd rfl hhash
      · rfl

/-- A line that gives a type. -/
theorem readLine_type {name kind : String} (hname : IsMetricName name) (hkind : kind.toList ∈ kinds) :
    readLine ('#' :: ' ' :: ("TYPE".toList ++ ' ' :: (name.toList ++ ' ' :: kind.toList))) =
      some (.type name kind) := by
  have hwords : kinds.all (fun k => decide (IsWord k)) = true := by decide
  have hword : IsWord kind.toList := of_decide_eq_true (List.all_eq_true.mp hwords _ hkind)
  have hskip : skipBlanks (' ' :: (name.toList ++ ' ' :: kind.toList)) =
      name.toList ++ ' ' :: kind.toList := by
    cases hcs : name.toList with
    | nil =>
        rw [IsMetricName, hcs] at hname
        cases hname
    | cons c cs =>
        rw [IsMetricName, hcs] at hname
        exact skipBlanks_cons (not_blank_of_isMetricStart hname.1).1 _
  have hread : readName isMetricStart isMetricChar (name.toList ++ ' ' :: kind.toList) =
      some (name.toList, ' ' :: kind.toList) := by
    refine readName_append hname fun c cs h => ?_
    cases h
    decide
  have hline : readLine ('#' :: ' ' :: ("TYPE".toList ++ ' ' :: (name.toList ++ ' ' :: kind.toList))) =
      readType (' ' :: (name.toList ++ ' ' :: kind.toList)) := rfl
  have hend : (skipBlanks ([] : List Char)).isEmpty = true := rfl
  rw [hline, readType, hskip, hread]
  simp only [Option.bind_eq_bind, Option.bind_some, skipBlanks_blank_word hword,
    word_of_isWord hword, afterWord_of_isWord hword, hkind, hend, and_self, if_true,
    String.ofList_toList]

/-- The lines of a text. -/
theorem splitLines_append {line : List Char} (h : '\n' ∉ line) (before rest : List Char) :
    splitLines before (line ++ '\n' :: rest) = (splitLines [] rest).map ((before ++ line) :: ·) := by
  induction line generalizing before with
  | nil =>
      rw [List.nil_append, List.append_nil, splitLines]
  | cons c line ih =>
      have hc : c ≠ '\n' := fun hc => h (hc ▸ List.mem_cons_self)
      rw [List.cons_append, splitLines.eq_3 _ _ _ hc, ih fun hmem => h (List.mem_cons_of_mem c hmem),
        List.append_assoc, List.singleton_append]

theorem splitLines_lines {lines : List (List Char)} (h : ∀ line ∈ lines, '\n' ∉ line) :
    splitLines [] (lines.flatMap fun line => line ++ ['\n']) = some lines := by
  induction lines with
  | nil =>
      rfl
  | cons line lines ih =>
      obtain ⟨hline, hlines⟩ := List.forall_mem_cons.mp h
      rw [List.flatMap_cons, List.append_assoc, List.singleton_append, splitLines_append hline,
        ih hlines]
      rfl

/-- A text of lines that can be read one by one. -/
theorem read_lines {text : Line → List Char} {lines : List Line}
    (h : ∀ line ∈ lines, readLine (text line) = some line ∧ '\n' ∉ text line) :
    read (String.ofList (lines.flatMap fun line => text line ++ ['\n'])) = some lines := by
  have hsplit : splitLines [] ((lines.map text).flatMap fun line => line ++ ['\n']) =
      some (lines.map text) := by
    refine splitLines_lines fun line hline => ?_
    obtain ⟨l, hl, rfl⟩ := List.mem_map.mp hline
    exact (h l hl).2
  have hread : (lines.map text).mapM readLine = some lines := by
    clear hsplit
    induction lines with
    | nil =>
        rfl
    | cons line lines ih =>
        obtain ⟨hline, hlines⟩ := List.forall_mem_cons.mp h
        rw [List.map_cons, List.mapM_cons, hline.1, ih hlines]
        rfl
  unfold read
  rw [List.flatMap_map] at hsplit
  rw [String.toList_ofList, hsplit]
  exact hread

end Exposition
end Lib
end OrbitOpenEO
