import OrbitOpenEO.CubeCalls
import OrbitOpenEO.Lib.Timestamps

/-!
# Filtering scenes by time

`filter_temporal` compares the times of the scenes with the bounds as texts, after it has
made a timestamp of a bound that is only a date.  The texts of a cube are timestamps in one
of their spellings.  Which scenes should be kept is a question of instants; the texts give
the same answer as long as the spelling of scenes and bounds does not get in the way.
-/

namespace OrbitOpenEO

open Lib

/-- The first second of a day. -/
def firstSecond (d : Day) : Timestamp where
  date := d
  separator := .upper
  hour := 0
  minute := 0
  second := 0
  fraction := []
  zone := .utc true
  hour_lt := by decide
  minute_lt := by decide
  second_le := by decide

/-- The last second of a day. -/
def lastSecond (d : Day) : Timestamp where
  date := d
  separator := .upper
  hour := 23
  minute := 59
  second := 59
  fraction := []
  zone := .utc true
  hour_lt := by decide
  minute_lt := by decide
  second_le := by decide

/-- One end of an extent. -/
inductive Bound where
  | null
  /-- `".."`. -/
  | dots
  | date (d : Day)
  | time (t : Timestamp)

namespace Bound

def json : Bound → Json
  | .null => .null
  | .dots => .str ".."
  | .date d => .str (String.ofList d.text)
  | .time t => .str t.text

/-- The instant from which on a beginning lets scenes through. -/
def startInstant : Bound → Option ℚ
  | .null => none
  | .dots => none
  | .date d => some (firstSecond d).instant
  | .time t => some t.instant

/-- The instant up to which an end lets scenes through, and whether it is let through itself.
A date means the whole day. -/
def stopInstant : Bound → Option (ℚ × Bool)
  | .null => none
  | .dots => none
  | .date d => some ((firstSecond d).instant + 86400, false)
  | .time t => some (t.instant, true)

def begins (b : Bound) (t : Timestamp) : Bool :=
  match b.startInstant with
  | none => true
  | some x => decide (x ≤ t.instant)

/-- An instant that an end lets through. -/
def UpTo (limit : ℚ × Bool) (x : ℚ) : Prop := x < limit.1 ∨ (x = limit.1 ∧ limit.2 = true)

instance (limit : ℚ × Bool) (x : ℚ) : Decidable (UpTo limit x) :=
  inferInstanceAs (Decidable (_ ∨ _))

def ends (b : Bound) (t : Timestamp) : Bool :=
  match b.stopInstant with
  | none => true
  | some limit => decide (UpTo limit t.instant)

/-- The later of two beginnings. -/
def laterStart (a b : Bound) : Bound :=
  match a.startInstant, b.startInstant with
  | none, _ => b
  | _, none => a
  | some x, some y => if x ≤ y then b else a

/-- The earlier of two ends. -/
def earlierStop (a b : Bound) : Bound :=
  match a.stopInstant, b.stopInstant with
  | none, _ => b
  | _, none => a
  | some x, some y => if x.1 < y.1 ∨ (x.1 = y.1 ∧ x.2 = false) then a else b

theorem begins_laterStart (a b : Bound) (t : Timestamp) :
    (laterStart a b).begins t = (a.begins t && b.begins t) := by
  unfold laterStart begins
  cases ha : a.startInstant with
  | none =>
      simp
  | some x =>
      cases hb : b.startInstant with
      | none =>
          simp [ha]
      | some y =>
          by_cases hxy : x ≤ y
          · simp only [hxy, if_true, hb]
            rw [← Bool.decide_and, decide_eq_decide]
            exact ⟨fun h => ⟨hxy.trans h, h⟩, fun h => h.2⟩
          · simp only [hxy, if_false, ha]
            rw [← Bool.decide_and, decide_eq_decide]
            exact ⟨fun h => ⟨h, (not_le.mp hxy).le.trans h⟩, fun h => h.1⟩

/-- An end lets through what an earlier one does. -/
theorem UpTo.of_earlier {l m : ℚ × Bool} (h : l.1 < m.1 ∨ (l.1 = m.1 ∧ (m.2 = true ∨ l.2 = false)))
    {x : ℚ} (hx : UpTo l x) : UpTo m x := by
  rcases hx with hx | ⟨hx, hin⟩
  · rcases h with h | ⟨h, -⟩
    · exact .inl (hx.trans h)
    · exact .inl (h ▸ hx)
  · rcases h with h | ⟨h, hm | hl⟩
    · exact .inl (hx ▸ h)
    · exact .inr ⟨hx.trans h, hm⟩
    · rw [hl] at hin
      cases hin

theorem ends_earlierStop (a b : Bound) (t : Timestamp) :
    (earlierStop a b).ends t = (a.ends t && b.ends t) := by
  unfold earlierStop ends
  cases ha : a.stopInstant with
  | none =>
      simp
  | some l =>
      cases hb : b.stopInstant with
      | none =>
          simp [ha]
      | some m =>
          by_cases hlm : l.1 < m.1 ∨ (l.1 = m.1 ∧ l.2 = false)
          · have hsub : UpTo l t.instant → UpTo m t.instant :=
              UpTo.of_earlier (hlm.imp_right fun h => ⟨h.1, .inr h.2⟩)
            simp only [hlm, if_true, ha]
            rw [← Bool.decide_and, decide_eq_decide]
            exact ⟨fun h => ⟨h, hsub h⟩, fun h => h.1⟩
          · have hml : m.1 < l.1 ∨ (m.1 = l.1 ∧ (l.2 = true ∨ m.2 = false)) := by
              rw [not_or, not_lt, not_and, Bool.not_eq_false] at hlm
              rcases hlm.1.lt_or_eq with hlt | heq
              · exact .inl hlt
              · exact .inr ⟨heq, .inl (hlm.2 heq.symm)⟩
            have hsub : UpTo m t.instant → UpTo l t.instant := UpTo.of_earlier hml
            simp only [hlm, if_false, hb]
            rw [← Bool.decide_and, decide_eq_decide]
            exact ⟨fun h => ⟨hsub h, h⟩, fun h => h.2⟩

end Bound

/-- The argument `extent`. -/
structure Extent where
  start : Bound
  stop : Bound

namespace Extent

/-- The instants meant. -/
def holds (I : Extent) (t : Timestamp) : Bool := I.start.begins t && I.stop.ends t

/-- What two extents have in common. -/
def meet (I J : Extent) : Extent :=
  ⟨I.start.laterStart J.start, I.stop.earlierStop J.stop⟩

theorem holds_meet (I J : Extent) (t : Timestamp) :
    (I.meet J).holds t = (I.holds t && J.holds t) := by
  unfold holds meet
  rw [Bound.begins_laterStart, Bound.ends_earlierStop]
  cases I.start.begins t <;> cases J.start.begins t <;> cases I.stop.ends t <;> rfl

/-- The arguments of a call. -/
def args (I : Extent) (data : Envelope) : Args :=
  (BTreeMap.empty.insert "data" data).insert "extent"
    (.value (.arr [I.start.json, I.stop.json]) .missingEnvelope)

end Extent

/-- The first text comes first or is the same. -/
def SpelledBy (a b : Timestamp) : Prop :=
  a.ClockBefore b ∨ (a.SameClock b ∧ a.rest ≤ b.rest)

namespace Bound

/-- What a beginning is compared as. -/
def startText (b : Bound) : Option String := b.json.asStr.map (fun s => normaliseIso s true)

/-- What an end is compared as. -/
def stopText (b : Bound) : Option String := b.json.asStr.map (fun s => normaliseIso s false)

/-- The spelling of a scene does not come before that of the beginning. -/
def StartSpelled (b : Bound) (t : Timestamp) : Prop :=
  match b with
  | .null => True
  | .dots => True
  | .date d => SpelledBy (firstSecond d) t
  | .time s => SpelledBy s t

/-- The spelling of a scene does not come after that of the end.  Every timestamp comes after
two dots. -/
def StopSpelled (b : Bound) (t : Timestamp) : Prop :=
  match b with
  | .null => True
  | .dots => False
  | .date d => SpelledBy t (lastSecond d)
  | .time s => SpelledBy t s

theorem normaliseIso_text (t : Timestamp) (isStart : Bool) : normaliseIso t.text isStart = t.text := by
  have hcolon : ':' ∈ t.text.toList := by
    unfold Timestamp.text Timestamp.clockText
    rw [String.toList_ofList]
    simp
  unfold normaliseIso
  rw [if_pos (.inr (.inr hcolon))]

theorem utf8ByteSize_of_ascii {cs : List Char} (h : ∀ c ∈ cs, c.utf8Size = 1) :
    (String.ofList cs).utf8ByteSize = cs.length := by
  induction cs with
  | nil =>
      rfl
  | cons c cs ih =>
      rw [List.forall_mem_cons] at h
      rw [← List.singleton_append, String.ofList_append, String.utf8ByteSize_append, ih h.2,
        ← String.singleton_eq_ofList, String.utf8ByteSize_singleton, h.1]
      simp [Nat.add_comm]

/-- A date is written with digits and two dashes. -/
theorem mem_text_day {d : Day} {c : Char} (h : c ∈ d.text) : c ∈ "0123456789-".toList := by
  have hdigit : ∀ k, digit k ∈ "0123456789-".toList := fun k =>
    List.mem_append_left ['-'] (digit_mem k)
  have hdash : '-' ∈ "0123456789-".toList := by decide
  simp only [Day.text, fourDigits, twoDigits, List.mem_append, List.mem_cons, List.not_mem_nil,
    or_false] at h
  rcases h with (rfl | rfl | rfl | rfl) | rfl | (rfl | rfl) | rfl | rfl | rfl
  all_goals first | exact hdash | exact hdigit _

theorem count_dash_day (d : Day) : d.text.count '-' = 2 := by
  have hdigit : ∀ k, digit k ≠ '-' := digit_ne_of_not_mem (by decide)
  simp [Day.text, fourDigits, twoDigits, hdigit]

theorem normaliseIso_day (d : Day) (isStart : Bool) :
    normaliseIso (String.ofList d.text) isStart =
      if isStart then (firstSecond d).text else (lastSecond d).text := by
  have hplain : ∀ c ∈ "0123456789-".toList, c ≠ 'T' ∧ c ≠ ':' ∧ c.utf8Size = 1 := by
    simp [Char.utf8Size]
  have hT : 'T' ∉ d.text := fun h => (hplain _ (mem_text_day h)).1 rfl
  have hcolon : ':' ∉ d.text := fun h => (hplain _ (mem_text_day h)).2.1 rfl
  have hsize : (String.ofList d.text).utf8ByteSize = 10 :=
    utf8ByteSize_of_ascii fun c hc => (hplain c (mem_text_day hc)).2.2
  have hdots : String.ofList d.text ≠ ".." := by
    intro h
    have hlen := congrArg (fun s => s.toList.length) h
    simp at hlen
  unfold normaliseIso
  rw [if_neg (by simp [hdots, hT, hcolon]), if_pos ⟨hsize, by simp [count_dash_day]⟩]
  have hfirst : (firstSecond d).text = String.ofList d.text ++ "T00:00:00Z" := by
    have hchars : (firstSecond d).clockText ++ (firstSecond d).rest = d.text ++ "T00:00:00Z".toList := by
      simp [Timestamp.clockText, Timestamp.rest, firstSecond, Separator.char, Zone.text, twoDigits,
        digit]
    rw [Timestamp.text, hchars, String.ofList_append, String.ofList_toList]
  have hlast : (lastSecond d).text = String.ofList d.text ++ "T23:59:59Z" := by
    have hchars : (lastSecond d).clockText ++ (lastSecond d).rest = d.text ++ "T23:59:59Z".toList := by
      simp [Timestamp.clockText, Timestamp.rest, lastSecond, Separator.char, Zone.text, twoDigits,
        digit]
    rw [Timestamp.text, hchars, String.ofList_append, String.ofList_toList]
  rw [hfirst, hlast]

theorem startText_date (d : Day) : (Bound.date d).startText = some (firstSecond d).text :=
  congrArg some (normaliseIso_day d true)

theorem stopText_date (d : Day) : (Bound.date d).stopText = some (lastSecond d).text :=
  congrArg some (normaliseIso_day d false)

theorem startText_time (s : Timestamp) : (Bound.time s).startText = some s.text :=
  congrArg some (normaliseIso_text s true)

theorem stopText_time (s : Timestamp) : (Bound.time s).stopText = some s.text :=
  congrArg some (normaliseIso_text s false)

/-- Two dots come before the text of every timestamp. -/
theorem dots_lt_text (t : Timestamp) : ".." < t.text := by
  have hdot : '.' < digit (t.date.year / 1000) := by
    have hall : ∀ c ∈ "0123456789".toList, '.' < c := by simp
    exact hall _ (digit_mem _)
  have hchars : t.text.toList = t.clockText ++ t.rest := String.toList_ofList
  rw [String.lt_iff_toList_lt, hchars]
  exact List.Lex.rel hdot

theorem le_text_iff_startSpelled (b : Bound) (t : Timestamp) :
    b.startText.all (fun s => decide (s ≤ t.text)) = true ↔ b.StartSpelled t := by
  cases b with
  | null =>
      exact iff_of_true rfl trivial
  | dots =>
      have hdots : Bound.dots.startText = some ".." := rfl
      rw [hdots]
      exact iff_of_true (decide_eq_true (dots_lt_text t).le) trivial
  | date d =>
      rw [startText_date, Option.all_some, decide_eq_true_eq]
      exact Timestamp.text_le_iff _ _
  | time s =>
      rw [startText_time, Option.all_some, decide_eq_true_eq]
      exact Timestamp.text_le_iff _ _

theorem text_le_iff_stopSpelled (b : Bound) (t : Timestamp) :
    b.stopText.all (fun s => decide (t.text ≤ s)) = true ↔ b.StopSpelled t := by
  cases b with
  | null =>
      exact iff_of_true rfl trivial
  | dots =>
      have hdots : Bound.dots.stopText = some ".." := rfl
      rw [hdots, Option.all_some, decide_eq_true_eq]
      exact iff_of_false (dots_lt_text t).not_ge id
  | date d =>
      rw [stopText_date, Option.all_some, decide_eq_true_eq]
      exact Timestamp.text_le_iff _ _
  | time s =>
      rw [stopText_time, Option.all_some, decide_eq_true_eq]
      exact Timestamp.text_le_iff _ _

end Bound

namespace Extent

/-- What the scenes are selected by. -/
def compares (I : Extent) (t : Timestamp) : Bool :=
  I.start.startText.all (fun s => decide (s ≤ t.text)) &&
    I.stop.stopText.all (fun s => decide (t.text ≤ s))

theorem compares_iff (I : Extent) (t : Timestamp) :
    I.compares t = true ↔ I.start.StartSpelled t ∧ I.stop.StopSpelled t := by
  rw [compares, Bool.and_eq_true, Bound.le_text_iff_startSpelled, Bound.text_le_iff_stopSpelled]

end Extent

/-- The order of two spellings says of two times what `X` says, when `X` says that the first is
not the later one: by the clocks, and where these are written alike by the rest. -/
def InOrder (a b : Timestamp) (X : Prop) : Prop :=
  (a.ClockBefore b → X) ∧ (b.ClockBefore a → ¬ X) ∧ (a.SameClock b → (a.rest ≤ b.rest ↔ X))

theorem inOrder_iff (a b : Timestamp) (X : Prop) : InOrder a b X ↔ (SpelledBy a b ↔ X) := by
  have hasymm : ¬ (a.ClockBefore b ∧ b.ClockBefore a) := by
    rw [← Timestamp.clockText_lt_iff, ← Timestamp.clockText_lt_iff]
    exact fun h => lt_asymm h.1 h.2
  unfold InOrder SpelledBy Timestamp.SameClock
  by_cases hab : a.ClockBefore b
  · have hba : ¬ b.ClockBefore a := fun h => hasymm ⟨hab, h⟩
    simp [hab, hba]
  · by_cases hba : b.ClockBefore a
    · simp [hab, hba]
    · simp [hab, hba]

namespace Bound

/-- The spelling of a beginning and of a scene are in the order of time. -/
def StartInOrder (b : Bound) (t : Timestamp) : Prop :=
  match b with
  | .null => True
  | .dots => True
  | .date d => InOrder (firstSecond d) t ((firstSecond d).instant ≤ t.instant)
  | .time s => InOrder s t (s.instant ≤ t.instant)

/-- The spelling of a scene and of an end are in the order of time.  Two dots are an end that no
spelling is in order with. -/
def StopInOrder (b : Bound) (t : Timestamp) : Prop :=
  match b with
  | .null => True
  | .dots => False
  | .date d => InOrder t (lastSecond d) (t.instant < (firstSecond d).instant + 86400)
  | .time s => InOrder t s (t.instant ≤ s.instant)

theorem startInOrder_iff (b : Bound) (t : Timestamp) :
    b.StartInOrder t ↔ (b.StartSpelled t ↔ b.begins t = true) := by
  cases b with
  | null =>
      exact iff_of_true trivial (iff_of_true trivial rfl)
  | dots =>
      exact iff_of_true trivial (iff_of_true trivial rfl)
  | date d =>
      change InOrder _ _ _ ↔ (SpelledBy _ _ ↔ decide _ = true)
      rw [decide_eq_true_eq]
      exact inOrder_iff _ _ _
  | time s =>
      change InOrder _ _ _ ↔ (SpelledBy _ _ ↔ decide _ = true)
      rw [decide_eq_true_eq]
      exact inOrder_iff _ _ _

theorem stopInOrder_iff (b : Bound) (t : Timestamp) :
    b.StopInOrder t ↔ (b.StopSpelled t ↔ b.ends t = true) := by
  cases b with
  | null =>
      exact iff_of_true trivial (iff_of_true trivial rfl)
  | dots =>
      exact iff_of_false id (fun h => h.mpr rfl)
  | date d =>
      have hends : (Bound.date d).ends t = true ↔ t.instant < (firstSecond d).instant + 86400 := by
        simp [ends, stopInstant, UpTo]
      rw [hends]
      exact inOrder_iff _ _ _
  | time s =>
      have hends : (Bound.time s).ends t = true ↔ t.instant ≤ s.instant := by
        simp [ends, stopInstant, UpTo, le_iff_lt_or_eq]
      rw [hends]
      exact inOrder_iff _ _ _

end Bound

/-- The spellings of an extent and of a scene are in the order of time, wherever the scene lies
in the extent by its spelling or by its instant. -/
def Extent.InOrder (I : Extent) (t : Timestamp) : Prop :=
  (I.start.StartSpelled t ∧ I.stop.StopSpelled t) ∨ I.holds t = true →
    I.start.StartInOrder t ∧ I.stop.StopInOrder t

theorem Extent.inOrder_iff (I : Extent) (t : Timestamp) :
    I.InOrder t ↔ I.compares t = I.holds t := by
  have hholds : I.holds t = true ↔ I.start.begins t = true ∧ I.stop.ends t = true := by
    rw [Extent.holds, Bool.and_eq_true]
  have hsame : I.compares t = I.holds t ↔ (I.compares t = true ↔ I.holds t = true) :=
    Bool.eq_iff_iff
  rw [hsame, I.compares_iff, Extent.InOrder, Bound.startInOrder_iff, Bound.stopInOrder_iff, hholds]
  tauto

/-- Universal time with whole seconds, in the format of a promoted date. -/
structure Plain (t : Timestamp) : Prop where
  separator : t.separator = .upper
  zone : t.zone = .utc true
  fraction : t.fraction = []
  second : t.second < 60

theorem plain_firstSecond (d : Day) : Plain (firstSecond d) := ⟨rfl, rfl, rfl, Nat.zero_lt_succ 59⟩

theorem plain_lastSecond (d : Day) : Plain (lastSecond d) := ⟨rfl, rfl, rfl, Nat.lt_succ_self 59⟩

namespace Plain

variable {a b : Timestamp}

theorem instant_eq (ha : Plain a) : a.instant = a.wholeSeconds := by
  simp [Timestamp.instant, Timestamp.localSeconds, ha.fraction, ha.zone, Timestamp.fractionOf,
    Zone.seconds]

theorem wholeSeconds_lt (ha : Plain a) (hb : Plain b) (h : a.ClockBefore b) :
    a.wholeSeconds < b.wholeSeconds :=
  Timestamp.wholeSeconds_lt_of_clockBefore (ha.separator.trans hb.separator.symm) ha.second h

theorem rest_eq (ha : Plain a) (hb : Plain b) : a.rest = b.rest := by
  unfold Timestamp.rest
  rw [ha.fraction, hb.fraction, ha.zone, hb.zone]

theorem instant_le_iff (ha : Plain a) (hb : Plain b) :
    a.instant ≤ b.instant ↔ a.wholeSeconds ≤ b.wholeSeconds := by
  rw [ha.instant_eq, hb.instant_eq, Nat.cast_le]

/-- Plain timestamps are spelled in the order of time. -/
theorem inOrder (ha : Plain a) (hb : Plain b) : InOrder a b (a.instant ≤ b.instant) := by
  rw [ha.instant_le_iff hb]
  refine ⟨fun h => (ha.wholeSeconds_lt hb h).le, fun h => not_le.mpr (hb.wholeSeconds_lt ha h),
    fun h => iff_of_true (ha.rest_eq hb).le ?_⟩
  obtain ⟨hdate, -, hhour, hminute, hsecond⟩ := (Timestamp.sameClock_iff a b).mp h
  unfold Timestamp.wholeSeconds
  rw [hdate, hhour, hminute, hsecond]

/-- In whole seconds, a day ends with its last second. -/
theorem instant_lt_nextDay_iff (ha : Plain a) (d : Day) :
    a.instant < (firstSecond d).instant + 86400 ↔ a.instant ≤ (lastSecond d).instant := by
  have hfirst : (firstSecond d).wholeSeconds = d.number * 86400 + 0 * 3600 + 0 * 60 + 0 := rfl
  have hlast : (lastSecond d).wholeSeconds = d.number * 86400 + 23 * 3600 + 59 * 60 + 59 := rfl
  have hcast : ((firstSecond d).wholeSeconds : ℚ) + 86400 = (lastSecond d).wholeSeconds + 1 := by
    rw [hfirst, hlast]
    push_cast
    linarith
  rw [ha.instant_le_iff (plain_lastSecond d), ← Nat.lt_add_one_iff, ← Nat.cast_lt (α := ℚ),
    Nat.cast_add, Nat.cast_one, ha.instant_eq, (plain_firstSecond d).instant_eq, hcast]

end Plain

namespace Bound

/-- The times of a bound are plain, and it is not two dots. -/
def IsPlain : Bound → Prop
  | .null => True
  | .dots => False
  | .date _ => True
  | .time s => Plain s

theorem startInOrder_of_plain {b : Bound} {t : Timestamp} (hb : b.IsPlain) (ht : Plain t) :
    b.StartInOrder t := by
  cases b with
  | null =>
      trivial
  | dots =>
      trivial
  | date d =>
      exact (plain_firstSecond d).inOrder ht
  | time s =>
      exact Plain.inOrder hb ht

theorem stopInOrder_of_plain {b : Bound} {t : Timestamp} (hb : b.IsPlain) (ht : Plain t) :
    b.StopInOrder t := by
  cases b with
  | null =>
      trivial
  | dots =>
      cases hb
  | date d =>
      have hin := ht.inOrder (plain_lastSecond d)
      rw [← ht.instant_lt_nextDay_iff] at hin
      exact hin
  | time s =>
      exact ht.inOrder hb

end Bound

/-- Where all times have one format, spellings are in the order of time. -/
theorem Extent.inOrder_of_plain {I : Extent} {t : Timestamp} (hstart : I.start.IsPlain)
    (hstop : I.stop.IsPlain) (ht : Plain t) : I.InOrder t :=
  fun _ => ⟨Bound.startInOrder_of_plain hstart ht, Bound.stopInOrder_of_plain hstop ht⟩

/-- The entries that belong to the selected scenes. -/
def selected {α β : Type} (p : α → Bool) (xs : List α) (ys : List β) : List β :=
  ((xs.zip ys).filter (fun e => p e.1)).map Prod.snd

theorem selected_map {α β : Type} (p : α → Bool) (xs : List α) (f : α → β) :
    selected p xs (xs.map f) = (xs.filter p).map f := by
  unfold selected
  induction xs with
  | nil =>
      rfl
  | cons x xs ih =>
      rw [List.map_cons, List.zip_cons_cons, List.filter_cons, List.filter_cons]
      cases p x with
      | true =>
          simpa using ih
      | false =>
          simpa using ih

theorem length_selected {α β : Type} {p : α → Bool} {xs : List α} {ys : List β}
    (h : xs.length = ys.length) : (selected p xs ys).length = (xs.filter p).length := by
  unfold selected
  conv_rhs => rw [← List.map_fst_zip h.le, List.filter_map, List.length_map]
  rw [List.length_map]
  rfl

/-- A selection among the selected. -/
theorem selected_selected {α β : Type} {p q : α → Bool} {xs : List α} {ys : List β}
    (h : xs.length = ys.length) :
    selected q (xs.filter p) (selected p xs ys) = selected (fun x => p x && q x) xs ys := by
  have hfst : xs.filter p = ((xs.zip ys).filter (fun e => p e.1)).map Prod.fst := by
    conv_lhs => rw [← List.map_fst_zip h.le, List.filter_map]
    rfl
  unfold selected
  rw [hfst, List.zip_map', List.filter_map, List.map_map]
  simp only [Function.comp_def, List.filter_filter, Bool.and_comm]

/-- Picking the positions kept is selecting the scenes. -/
theorem pick_zipIdx {α β : Type} (p : α → Bool) {xs : List α} {ys : List β} (before : List β)
    (h : xs.length = ys.length) :
    pick (((xs.zipIdx before.length).filter (fun e => p e.1)).map Prod.snd) (before ++ ys) =
      selected p xs ys := by
  induction xs generalizing ys before with
  | nil =>
      rfl
  | cons x xs ih =>
      cases ys with
      | nil =>
          cases h
      | cons y ys =>
          have hlen : xs.length = ys.length := Nat.succ.inj h
          have hrest := ih (before ++ [y]) hlen
          rw [List.length_append, List.length_singleton, List.append_assoc,
            List.singleton_append] at hrest
          rw [List.zipIdx_cons, List.filter_cons, selected, List.zip_cons_cons, List.filter_cons]
          cases hx : p x with
          | true =>
              simp only [if_true, List.map_cons]
              rw [← selected, ← hrest]
              simp [pick]
          | false =>
              simp only [Bool.false_eq_true, if_false]
              rw [← selected, ← hrest]

theorem pick_keepScenes (I : Extent) {ts : List Timestamp} {β : Type} {ys : List β}
    (h : ts.length = ys.length) :
    pick (keepScenes I.start.startText I.stop.stopText (ts.map Timestamp.text)) ys =
      selected I.compares ts ys := by
  have hlen : (ts.map Timestamp.text).length = ys.length := by rw [List.length_map, h]
  have hpick := pick_zipIdx
    (fun dt => I.start.startText.all (fun s => decide (s ≤ dt)) &&
      I.stop.stopText.all (fun s => decide (dt ≤ s))) [] hlen
  have hmap : selected
      (fun dt => I.start.startText.all (fun s => decide (s ≤ dt)) &&
        I.stop.stopText.all (fun s => decide (dt ≤ s)))
      (ts.map Timestamp.text) ys = selected I.compares ts ys := by
    unfold selected
    rw [List.zip_map_left, List.filter_map, List.map_map]
    rfl
  exact hpick.trans hmap

theorem length_keepScenes (I : Extent) (ts : List Timestamp) :
    (keepScenes I.start.startText I.stop.stopText (ts.map Timestamp.text)).length =
      (ts.filter I.compares).length := by
  rw [← length_pick (fun i hi => lt_of_mem_keepScenes hi),
    pick_keepScenes I (List.length_map _).symm, length_selected (List.length_map _).symm]

theorem keepScenes_eq_nil_iff (I : Extent) (ts : List Timestamp) :
    keepScenes I.start.startText I.stop.stopText (ts.map Timestamp.text) = [] ↔
      ts.filter I.compares = [] := by
  rw [← List.length_eq_zero_iff, length_keepScenes, List.length_eq_zero_iff]

/-- The scenes `p` of a cube, in their order: their times, their number, and of every band with
a path for each scene their paths. -/
structure KeepsScenes (c : DataCube) (ts : List Timestamp) (p : Timestamp → Bool)
    (out : DataCube) : Prop where
  datetimes : out.datetimes = some ((ts.filter p).map Timestamp.text)
  sceneCount : out.sceneCount = some (ts.filter p).length
  bands : ∀ b paths, c.bands.get b = some paths → paths.length = ts.length →
    out.bands.get b = some (selected p ts paths)

/-- A call keeps the scenes `p`, or fails as there is none. -/
def Selects (c : DataCube) (ts : List Timestamp) (p : Timestamp → Bool)
    (r : Except ExecError Envelope) : Prop :=
  match r with
  | .error _ => ts.filter p = []
  | .ok v => ts.filter p ≠ [] ∧ ∃ out, v = .cube out ∧ KeepsScenes c ts p out

section Filtering

variable {c : DataCube} {ts : List Timestamp}

theorem evalFilterTemporal_args (c : DataCube) (I : Extent) :
    evalFilterTemporal (I.args (.cube c)) =
      (filterTemporal c I.start.startText I.stop.stopText).map .cube := by
  have hdata : requireArg (I.args (.cube c)) "data" "filter_temporal: missing `data`" =
      .ok (.cube c) := by
    simp [requireArg, Extent.args, BTreeMap.get_insert]
  have hextent : argArray (I.args (.cube c)) "extent" = some [I.start.json, I.stop.json] := by
    simp [argArray, Extent.args, Envelope.asArray, Envelope.json]
  unfold evalFilterTemporal
  simp only [hdata, hextent, Bind.bind, Except.bind, decodeCube, DataCube.fromEnvelopeOwned]
  unfold Bound.startText Bound.stopText
  cases filterTemporal c (I.start.json.asStr.map (fun s => normaliseIso s true))
      (I.stop.json.asStr.map (fun s => normaliseIso s false)) with
  | error e =>
      rfl
  | ok out =>
      rfl

/-- `filter_temporal` keeps the scenes whose texts lie between those of the bounds. -/
theorem evalFilterTemporal_selects (h : c.datetimes = some (ts.map Timestamp.text)) (I : Extent) :
    Selects c ts I.compares (evalFilterTemporal (I.args (.cube c))) := by
  rw [evalFilterTemporal_args]
  cases hout : filterTemporal c I.start.startText I.stop.stopText with
  | error e =>
      by_contra hne
      have hkeep := (keepScenes_eq_nil_iff I ts).not.mpr hne
      have hok := filterTemporal_eq_ok_iff.mpr ⟨_, h, hkeep, rfl⟩
      rw [hout] at hok
      cases hok
  | ok out =>
      obtain ⟨datetimes, hdt, hkeep, rfl⟩ := filterTemporal_eq_ok_iff.mp hout
      rw [h] at hdt
      cases hdt
      refine ⟨(keepScenes_eq_nil_iff I ts).not.mp hkeep, _, rfl, ?_, ?_, ?_⟩
      · rw [pick_keepScenes I (List.length_map _).symm, selected_map]
      · rw [length_keepScenes]
      · intro b paths hpaths hlen
        simp only [BTreeMap.get_mapValues, hpaths, Option.map_some, List.length_map, hlen, if_true]
        rw [pick_keepScenes I hlen.symm]

theorem evalFilterTemporal_none (h : c.datetimes = some (ts.map Timestamp.text)) {I : Extent}
    (hnone : ts.filter I.compares = []) :
    evalFilterTemporal (I.args (.cube c)) =
      .error (.backend "filter_temporal: no scenes fall within the requested extent") := by
  have hkeep := (keepScenes_eq_nil_iff I ts).mpr hnone
  rw [evalFilterTemporal_args]
  unfold filterTemporal
  simp only [h, hkeep, List.isEmpty_nil, if_true]
  rfl

/-- A selection is right for one predicate on the scenes only. -/
theorem Selects.unique {p q : Timestamp → Bool} {r : Except ExecError Envelope}
    (hp : Selects c ts p r) (hq : Selects c ts q r) : ∀ t ∈ ts, p t = q t := by
  have hsame : ts.filter p = ts.filter q := by
    cases r with
    | error e =>
        have hp' : ts.filter p = [] := hp
        have hq' : ts.filter q = [] := hq
        rw [hp', hq']
    | ok v =>
        obtain ⟨-, out, rfl, hkeeps⟩ := hp
        obtain ⟨-, out', hv, hkeeps'⟩ := hq
        cases hv
        have htimes := hkeeps.datetimes.symm.trans hkeeps'.datetimes
        exact List.map_injective_iff.mpr Timestamp.text_injective (Option.some.inj htimes)
  intro t ht
  have hmem : t ∈ ts.filter p ↔ t ∈ ts.filter q := by rw [hsame]
  rw [List.mem_filter, List.mem_filter] at hmem
  exact Bool.eq_iff_iff.mpr (by simpa [ht] using hmem)

/-- Predicates that agree on the scenes select the same. -/
theorem Selects.congr {p q : Timestamp → Bool} (hpq : ∀ t ∈ ts, p t = q t)
    {r : Except ExecError Envelope} (h : Selects c ts p r) : Selects c ts q r := by
  have hfilter : ts.filter p = ts.filter q := List.filter_congr hpq
  have hselected : ∀ {β : Type} (ys : List β), selected p ts ys = selected q ts ys := by
    intro β ys
    unfold selected
    congr 1
    apply List.filter_congr
    intro e he
    exact hpq e.1 (List.of_mem_zip he).1
  cases r with
  | error e =>
      change ts.filter q = []
      rw [← hfilter]
      exact h
  | ok v =>
      obtain ⟨hne, out, rfl, hkeeps⟩ := h
      refine ⟨hfilter ▸ hne, out, rfl, hfilter ▸ hkeeps.datetimes, hfilter ▸ hkeeps.sceneCount, ?_⟩
      intro b paths hpaths hlen
      rw [hkeeps.bands b paths hpaths hlen, hselected]

/-- Filter by one extent, and the result by another. -/
def filterTwice (c : DataCube) (I J : Extent) : Except ExecError Envelope := do
  let v ← evalFilterTemporal (I.args (.cube c))
  evalFilterTemporal (J.args v)

/-- Filtering twice keeps the scenes that both comparisons let through. -/
theorem filterTwice_selects (h : c.datetimes = some (ts.map Timestamp.text)) (I J : Extent) :
    Selects c ts (fun t => I.compares t && J.compares t) (filterTwice c I J) := by
  have hboth : ts.filter (fun t => I.compares t && J.compares t) =
      (ts.filter I.compares).filter J.compares := by
    rw [List.filter_filter]
    simp only [Bool.and_comm]
  have hfirst := evalFilterTemporal_selects h I
  unfold filterTwice
  cases hv : evalFilterTemporal (I.args (.cube c)) with
  | error e =>
      rw [hv] at hfirst
      have hnone : ts.filter I.compares = [] := hfirst
      change ts.filter _ = []
      rw [hboth, hnone]
      rfl
  | ok v =>
      rw [hv] at hfirst
      obtain ⟨-, mid, rfl, hkeeps⟩ := hfirst
      have hsecond := evalFilterTemporal_selects hkeeps.datetimes J
      change Selects c ts _ (evalFilterTemporal (J.args (.cube mid)))
      cases hw : evalFilterTemporal (J.args (.cube mid)) with
      | error e =>
          rw [hw] at hsecond
          change ts.filter _ = []
          rw [hboth]
          exact hsecond
      | ok w =>
          rw [hw] at hsecond
          obtain ⟨hne, out, rfl, hkeeps'⟩ := hsecond
          refine ⟨hboth ▸ hne, out, rfl, hboth ▸ hkeeps'.datetimes, hboth ▸ hkeeps'.sceneCount, ?_⟩
          intro b paths hpaths hlen
          have hmid := hkeeps.bands b paths hpaths hlen
          rw [hkeeps'.bands b _ hmid (length_selected hlen.symm), selected_selected hlen.symm]

/-- Two calls keep the same scenes. -/
def SameScenes (c : DataCube) (ts : List Timestamp) (r r' : Except ExecError Envelope) : Prop :=
  ∃ p, Selects c ts p r ∧ Selects c ts p r'

theorem selects_iff_forall {p q : Timestamp → Bool} {r : Except ExecError Envelope}
    (h : Selects c ts p r) : Selects c ts q r ↔ ∀ t ∈ ts, p t = q t :=
  ⟨fun hq => h.unique hq, fun hpq => h.congr hpq⟩

theorem sameScenes_iff_forall {p q : Timestamp → Bool} {r r' : Except ExecError Envelope}
    (h : Selects c ts p r) (h' : Selects c ts q r') : SameScenes c ts r r' ↔ ∀ t ∈ ts, p t = q t := by
  constructor
  · rintro ⟨s, hs, hs'⟩ t ht
    rw [h.unique hs t ht, h'.unique hs' t ht]
  · intro hpq
    exact ⟨q, h.congr hpq, h'⟩

/-- `filter_temporal` keeps the scenes whose instants lie in the extent. -/
def SelectsByTime (c : DataCube) (ts : List Timestamp) (I : Extent) : Prop :=
  Selects c ts I.holds (evalFilterTemporal (I.args (.cube c)))

/-- Filtering by one extent and then another is filtering by what they have in common. -/
def ComposesWith (c : DataCube) (ts : List Timestamp) (I J : Extent) : Prop :=
  SameScenes c ts (filterTwice c I J) (evalFilterTemporal ((I.meet J).args (.cube c)))

theorem selectsByTime_iff (h : c.datetimes = some (ts.map Timestamp.text)) (I : Extent) :
    SelectsByTime c ts I ↔ ∀ t ∈ ts, I.InOrder t := by
  unfold SelectsByTime
  rw [selects_iff_forall (evalFilterTemporal_selects h I)]
  simp only [I.inOrder_iff]

theorem composesWith_iff (h : c.datetimes = some (ts.map Timestamp.text)) (I J : Extent) :
    ComposesWith c ts I J ↔
      ∀ t ∈ ts, (I.compares t && J.compares t) = (I.meet J).compares t :=
  sameScenes_iff_forall (filterTwice_selects h I J) (evalFilterTemporal_selects h (I.meet J))

/-- `filter_temporal` selects by time, and filters compose as the extents do, exactly when the
spellings of the extents and of their common part are in the order of time with the scenes. -/
theorem filterTemporal_byTime_iff (h : c.datetimes = some (ts.map Timestamp.text))
    (I J : Extent) :
    (SelectsByTime c ts I ∧ SelectsByTime c ts J ∧ ComposesWith c ts I J) ↔
      ∀ K ∈ [I, J, I.meet J], ∀ t ∈ ts, K.InOrder t := by
  rw [List.forall_mem_cons, List.forall_mem_cons, List.forall_mem_singleton,
    selectsByTime_iff h, selectsByTime_iff h, composesWith_iff h]
  simp only [Extent.inOrder_iff, Extent.holds_meet]
  refine and_congr_right fun hI => and_congr_right fun hJ => forall₂_congr fun t ht => ?_
  rw [hI t ht, hJ t ht]
  exact eq_comm

end Filtering

/-- A day of June 2024. -/
def june (day : Nat) (h : 1 ≤ day ∧ day ≤ 30) : Day :=
  ⟨2024, 6, day, by decide, by decide, h⟩

/-- Ten in the morning. -/
def morning (d : Day) : Timestamp where
  date := d
  separator := .upper
  hour := 10
  minute := 0
  second := 0
  fraction := []
  zone := .utc true
  hour_lt := by decide
  minute_lt := by decide
  second_le := by decide

theorem plain_morning (d : Day) : Plain (morning d) := ⟨rfl, rfl, rfl, Nat.zero_lt_succ 59⟩

def juneScenes : List Timestamp :=
  [morning (june 1 (by decide)), morning (june 15 (by decide)), morning (june 30 (by decide))]

/-- A cube of one band. -/
def juneCube (ts : List Timestamp) : DataCube where
  bands := BTreeMap.empty.insert "red" (ts.map Timestamp.text)
  collection := some "sentinel-2-l2a"
  sceneCount := some ts.length
  datetimes := some (ts.map Timestamp.text)

theorem filterTemporal_byTime_iff_june :
    let I : Extent := ⟨.date (june 10 (by decide)), .null⟩
    let J : Extent := ⟨.null, .date (june 20 (by decide))⟩
    SelectsByTime (juneCube juneScenes) juneScenes I ∧
      SelectsByTime (juneCube juneScenes) juneScenes J ∧
      ComposesWith (juneCube juneScenes) juneScenes I J := by
  intro I J
  refine (filterTemporal_byTime_iff rfl I J).mpr ?_
  have hplain : ∀ t ∈ juneScenes, Plain t := by
    simp [juneScenes, plain_morning]
  have hbounds : ∀ K ∈ [I, J, I.meet J], K.start.IsPlain ∧ K.stop.IsPlain := by
    simp [I, J, Extent.meet, Bound.laterStart, Bound.earlierStop, Bound.startInstant,
      Bound.stopInstant, Bound.IsPlain]
  intro K hK t ht
  exact Extent.inOrder_of_plain (hbounds K hK).1 (hbounds K hK).2 (hplain t ht)

/-- A cube loses its scene though the scene is meant. -/
theorem loses_scene {I : Extent} {t : Timestamp} (hmeant : I.holds t = true)
    (hspelled : ¬ (I.start.StartSpelled t ∧ I.stop.StopSpelled t)) :
    I.holds t = true ∧
      evalFilterTemporal (I.args (.cube (juneCube [t]))) =
        .error (.backend "filter_temporal: no scenes fall within the requested extent") ∧
      ¬ SelectsByTime (juneCube [t]) [t] I := by
  have hnone : [t].filter I.compares = [] := by
    rw [List.filter_eq_nil_iff, List.forall_mem_singleton, I.compares_iff]
    exact hspelled
  have herror := evalFilterTemporal_none (c := juneCube [t]) rfl hnone
  refine ⟨hmeant, herror, fun hselects => ?_⟩
  unfold SelectsByTime at hselects
  rw [herror] at hselects
  have hempty : [t].filter I.holds = [] := hselects
  rw [List.filter_eq_nil_iff, List.forall_mem_singleton] at hempty
  exact hempty hmeant

/-- An end of two dots loses every scene, and a beginning those of its first second that are
given with decimals. -/
theorem openEnd_loses_scenes :
    let t : Timestamp := morning (june 15 (by decide))
    let u : Timestamp := { firstSecond (june 15 (by decide)) with fraction := [5] }
    let I : Extent := ⟨.date (june 1 (by decide)), .dots⟩
    let J : Extent := ⟨.date (june 15 (by decide)), .null⟩
    (I.holds t = true ∧
      evalFilterTemporal (I.args (.cube (juneCube [t]))) =
        .error (.backend "filter_temporal: no scenes fall within the requested extent") ∧
      ¬ SelectsByTime (juneCube [t]) [t] I) ∧
    (J.holds u = true ∧
      evalFilterTemporal (J.args (.cube (juneCube [u]))) =
        .error (.backend "filter_temporal: no scenes fall within the requested extent") ∧
      ¬ SelectsByTime (juneCube [u]) [u] J) := by
  intro t u I J
  constructor
  · apply loses_scene
    · have hbefore : (firstSecond (june 1 (by decide))).ClockBefore t :=
        .inl (.inr ⟨rfl, .inr ⟨rfl, by decide⟩⟩)
      have hlt : (firstSecond (june 1 (by decide))).instant < t.instant :=
        Timestamp.instant_lt_of_clockBefore rfl rfl (Nat.zero_lt_succ 59) hbefore
      exact (Bool.and_true _).trans (decide_eq_true hlt.le)
    · exact fun h => h.2
  · apply loses_scene
    · have hle : (firstSecond (june 15 (by decide))).instant ≤ u.instant := by
        have hlater := Timestamp.instant_withFraction (firstSecond (june 15 (by decide))) rfl [5]
        rw [hlater, le_add_iff_nonneg_right]
        exact (Timestamp.fractionOf_bounds [5]).1
      exact (Bool.and_true _).trans (decide_eq_true hle)
    · rintro ⟨hbefore | ⟨-, hrest⟩, -⟩
      · have hsame : Timestamp.SameClock (firstSecond (june 15 (by decide))) u :=
          (Timestamp.sameClock_iff _ _).mpr ⟨rfl, rfl, rfl, rfl, rfl⟩
        exact hsame.1 hbefore
      · exact absurd hrest (by decide)

end OrbitOpenEO
