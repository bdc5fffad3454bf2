import OrbitOpenEO.SceneTimes
import OrbitOpenEO.UrlPolicy

/-!
# Searching a catalogue in memory

`InMemoryStacClient::search` filters a list of items by ids, or by collections, box and time, and
returns the first ids.  The times of the items and the bounds of the request are compared as texts
and the boxes without strictness: two boxes that touch are let through, and a date that ends an
interval comes before every time on that day.
-/

namespace OrbitOpenEO

open Lib

/-- A box `[west, south, east, north]`. -/
structure Bbox where
  west : F64
  south : F64
  east : F64
  north : F64
deriving DecidableEq

/-- `SearchRequest`, without the `filter` that this client does not look at. -/
structure SearchRequest where
  bbox : Option Bbox
  datetime : Option String
  collections : List String
  ids : List String
  limit : Option Nat

/-- `InMemoryItem`. -/
structure InMemoryItem where
  id : String
  collection : String
  bbox : Bbox
  datetime : String

/-- `InMemoryError`. -/
inductive InMemoryError where
  | badDatetime (s : String)
deriving DecidableEq

/-- One side of an interval. -/
def openOrText (s : String) : Option String := if s = ".." then none else some s

/-- `parse_datetime`. -/
def parseDatetime (s : String) : Except InMemoryError (Option String × Option String) :=
  if s = "" then .error (.badDatetime s)
  else
    match splitOnce ['/'] s.toList with
    | some (lhs, rhs) =>
        let start := openOrText (String.ofList lhs)
        let stop := openOrText (String.ofList rhs)
        if start.isNone && stop.isNone then .error (.badDatetime s) else .ok (start, stop)
    | none => .ok (some s, some s)

/-- `datetime_matches`. -/
def datetimeMatches (start stop : Option String) (item : String) : Bool :=
  start.all (fun s => !decide (item < s)) && stop.all (fun e => !decide (e < item))

/-- `bbox_intersects`. -/
def bboxIntersects (a b : Bbox) : Bool :=
  !(F64.lt a.east b.west || F64.lt b.east a.west || F64.lt a.north b.south ||
    F64.lt b.north a.south)

/-- The filter of `search`. -/
def itemMatches (req : SearchRequest) (dtFilter : Option (Option String × Option String))
    (it : InMemoryItem) : Bool :=
  if !req.ids.isEmpty then req.ids.any (fun i => i == it.id)
  else
    (req.collections.isEmpty || req.collections.any (fun c => c == it.collection)) &&
      (req.bbox.all (fun b => bboxIntersects b it.bbox) &&
        dtFilter.all (fun dt => datetimeMatches dt.1 dt.2 it.datetime))

/-- `InMemoryStacClient::search`. -/
def search (items : List InMemoryItem) (req : SearchRequest) :
    Except InMemoryError (List String) := do
  let dtFilter ← req.datetime.mapM parseDatetime
  let out := (items.filter (itemMatches req dtFilter)).map InMemoryItem.id
  .ok (out.take (req.limit.getD 100))

/-- A date or a timestamp. -/
inductive Moment where
  | date (d : Day)
  | time (t : Timestamp)

/-- The forms of a datetime expression. -/
inductive DatetimeExpr where
  | exact (m : Moment)
  | closed (start stop : Moment)
  | since (start : Moment)
  | upTo (stop : Moment)

namespace Moment

def text : Moment → String
  | .date d => String.ofList d.text
  | .time t => t.text

/-- The bound of an extent. -/
def bound : Moment → Bound
  | .date d => .date d
  | .time t => .time t

end Moment

namespace DatetimeExpr

def text : DatetimeExpr → String
  | .exact m => m.text
  | .closed start stop => start.text ++ "/" ++ stop.text
  | .since start => start.text ++ "/.."
  | .upTo stop => "../" ++ stop.text

def start : DatetimeExpr → Option Moment
  | .exact m => some m
  | .closed start _ => some start
  | .since start => some start
  | .upTo _ => none

def stop : DatetimeExpr → Option Moment
  | .exact m => some m
  | .closed _ stop => some stop
  | .since _ => none
  | .upTo stop => some stop

/-- The instants meant. -/
def extent (e : DatetimeExpr) : Extent :=
  ⟨(e.start.map Moment.bound).getD .null, (e.stop.map Moment.bound).getD .null⟩

end DatetimeExpr

namespace Moment

theorem slash_notMem_rest (t : Timestamp) : '/' ∉ t.rest := by
  have hdigit : ∀ k, digit k ≠ '/' := digit_ne_of_not_mem (by decide)
  have hzone : '/' ∉ t.zone.text := by
    cases t.zone with
    | utc upper =>
        cases upper <;> decide
    | offset west hours minutes =>
        cases west <;> simp [Zone.text, twoDigits, (hdigit _).symm]
  have hfraction : ∀ ds : List (Fin 10), '/' ∉ ds.map fun d : Fin 10 => digit d := by
    intro ds h
    obtain ⟨d, -, hd⟩ := List.mem_map.mp h
    exact hdigit d hd
  unfold Timestamp.rest
  rw [List.mem_append, not_or]
  refine ⟨?_, hzone⟩
  cases hds : t.fraction with
  | nil =>
      exact List.not_mem_nil
  | cons d ds =>
      rw [List.mem_cons, not_or]
      exact ⟨by decide, hfraction (d :: ds)⟩

theorem slash_notMem_day (d : Day) : '/' ∉ d.text := fun h =>
  absurd (Bound.mem_text_day h) (by decide)

theorem slash_notMem (m : Moment) : '/' ∉ m.text.toList := by
  have hdigit : ∀ k, digit k ≠ '/' := digit_ne_of_not_mem (by decide)
  cases m with
  | date d =>
      rw [text, String.toList_ofList]
      exact slash_notMem_day d
  | time t =>
      have hseparator : t.separator.char ≠ '/' := by
        cases t.separator <;> decide
      rw [text, Timestamp.text, String.toList_ofList, Timestamp.clockText]
      simp [slash_notMem_day, slash_notMem_rest, twoDigits, (hdigit _).symm, hseparator.symm]

theorem text_ne_dots (m : Moment) : m.text ≠ ".." := by
  cases m with
  | date d =>
      intro h
      have hlength := congrArg (fun s => s.toList.length) h
      rw [text, String.toList_ofList, Day.length_text] at hlength
      cases hlength
  | time t =>
      exact (Bound.dots_lt_text t).ne'

theorem openOrText_text (m : Moment) : openOrText m.text = some m.text :=
  if_neg m.text_ne_dots

theorem text_ne_empty (m : Moment) : m.text ≠ "" := by
  cases m with
  | date d =>
      intro h
      have hlength := congrArg (fun s => s.toList.length) h
      rw [text, String.toList_ofList, Day.length_text] at hlength
      cases hlength
  | time t =>
      intro h
      have hlt := Bound.dots_lt_text t
      rw [text] at h
      rw [h] at hlt
      exact absurd hlt (by decide)

end Moment

/-- An interval is taken apart at its slash. -/
theorem parseDatetime_interval (lhs rhs : String) (hslash : '/' ∉ lhs.toList)
    (hone : (openOrText lhs).isNone = false ∨ (openOrText rhs).isNone = false) :
    parseDatetime (lhs ++ "/" ++ rhs) = .ok (openOrText lhs, openOrText rhs) := by
  have hchars : (lhs ++ "/" ++ rhs).toList = lhs.toList ++ '/' :: rhs.toList := by
    simp [String.toList_append]
  have hempty : lhs ++ "/" ++ rhs ≠ "" := by
    intro h
    have hnil := congrArg String.toList h
    rw [hchars] at hnil
    simp at hnil
  have hsome : ¬ ((openOrText lhs).isNone && (openOrText rhs).isNone) = true := by
    rcases hone with h | h <;> simp [h]
  rw [parseDatetime, if_neg hempty, hchars, splitOnce_append hslash]
  simp only [String.ofList_toList, if_neg hsome]

theorem parseDatetime_text (e : DatetimeExpr) :
    parseDatetime e.text = .ok (e.start.map Moment.text, e.stop.map Moment.text) := by
  have hdots : openOrText ".." = none := rfl
  cases e with
  | exact m =>
      have hsplit : splitOnce ['/'] m.text.toList = none := by
        rw [splitOnce_eq_none_iff (List.cons_ne_nil _ _), List.singleton_infix_iff]
        exact m.slash_notMem
      rw [DatetimeExpr.text, parseDatetime, if_neg m.text_ne_empty, hsplit]
      rfl
  | closed start stop =>
      have hparse := parseDatetime_interval start.text stop.text start.slash_notMem
        (.inl (by rw [start.openOrText_text]; rfl))
      rw [start.openOrText_text, stop.openOrText_text] at hparse
      exact hparse
  | since start =>
      have hparse := parseDatetime_interval start.text ".." start.slash_notMem
        (.inl (by rw [start.openOrText_text]; rfl))
      rw [start.openOrText_text, hdots, String.append_assoc] at hparse
      exact hparse
  | upTo stop =>
      have hparse := parseDatetime_interval ".." stop.text (by decide)
        (.inr (by rw [stop.openOrText_text]; rfl))
      rw [stop.openOrText_text, hdots] at hparse
      exact hparse

/-- What passes one of two tests meets a condition exactly if the tests say the same. -/
def Tells (R P P' : Prop) : Prop := (P ∨ P' → R) ↔ (P ↔ P')

theorem tells_of_iff {R P P' : Prop} (h : R ↔ (P ↔ P')) : Tells R P P' := by
  unfold Tells
  tauto

theorem tells_and {R S P P' Q Q' : Prop} (h : Tells R P P') (h' : Tells S Q Q') :
    Tells (R ∧ S) (P ∧ Q) (P' ∧ Q') := by
  constructor
  · intro hboth
    constructor
    · intro hP
      obtain ⟨hR, hS⟩ := hboth (.inl hP)
      exact ⟨(h.mp fun _ => hR).mp hP.1, (h'.mp fun _ => hS).mp hP.2⟩
    · intro hP'
      obtain ⟨hR, hS⟩ := hboth (.inr hP')
      exact ⟨(h.mp fun _ => hR).mpr hP'.1, (h'.mp fun _ => hS).mpr hP'.2⟩
  · intro hsame hone
    have hP : P ∧ Q := hone.elim id hsame.mpr
    have hP' : P' ∧ Q' := hone.elim hsame.mp id
    exact ⟨h.mpr (iff_of_true hP.1 hP'.1) (.inl hP.1),
      h'.mpr (iff_of_true hP.2 hP'.2) (.inl hP.2)⟩

theorem tells_forall {α : Type} (o : Option α) {R P P' : α → Prop}
    (h : ∀ a, Tells (R a) (P a) (P' a)) :
    Tells (∀ a, o = some a → R a) (∀ a, o = some a → P a) (∀ a, o = some a → P' a) := by
  cases o with
  | none =>
      exact tells_of_iff (iff_of_true nofun (iff_of_true nofun nofun))
  | some a =>
      simpa only [Option.some.injEq, forall_eq'] using h a

theorem day_lt_text_iff (d : Day) (t : Timestamp) :
    String.ofList d.text < t.text ↔ d.text ≤ t.date.text := by
  have hlength : d.text.length = t.date.text.length := rfl
  have hday : d.text = d.text ++ [] := (List.append_nil _).symm
  rw [String.lt_iff_toList_lt, String.toList_ofList, Timestamp.text, String.toList_ofList,
    Timestamp.clockText, List.append_assoc, hday, append_lt_append_iff hlength, List.append_nil,
    List.cons_append, le_iff_lt_or_eq]
  simp only [List.nil_lt_cons, and_true]

theorem text_lt_day_iff (d : Day) (t : Timestamp) :
    t.text < String.ofList d.text ↔ t.date.text < d.text := by
  have hlength : t.date.text.length = d.text.length := rfl
  have hday : d.text = d.text ++ [] := (List.append_nil _).symm
  rw [String.lt_iff_toList_lt, String.toList_ofList, Timestamp.text, String.toList_ofList,
    Timestamp.clockText, List.append_assoc, hday, append_lt_append_iff hlength, List.append_nil]
  simp only [List.not_lt_nil, and_false, or_false]

namespace Moment

/-- The spelling of a time does not come before that of a beginning. -/
def StartSpelled (m : Moment) (t : Timestamp) : Prop :=
  match m with
  | .date d => ¬ t.date.Before d
  | .time s => SpelledBy s t

/-- The spelling of a time does not come after that of an end.  A date comes before every time on
it. -/
def StopSpelled (m : Moment) (t : Timestamp) : Prop :=
  match m with
  | .date d => t.date.Before d
  | .time s => SpelledBy t s

theorem not_text_lt_iff (m : Moment) (t : Timestamp) :
    (!decide (t.text < m.text)) = true ↔ m.StartSpelled t := by
  rw [Bool.not_eq_true', decide_eq_false_iff_not]
  cases m with
  | date d =>
      rw [text, text_lt_day_iff, Day.text_lt_iff]
      exact Iff.rfl
  | time s =>
      rw [text, not_lt]
      exact Timestamp.text_le_iff s t

theorem not_lt_text_iff (m : Moment) (t : Timestamp) :
    (!decide (m.text < t.text)) = true ↔ m.StopSpelled t := by
  rw [Bool.not_eq_true', decide_eq_false_iff_not]
  cases m with
  | date d =>
      rw [text, day_lt_text_iff, not_le, Day.text_lt_iff]
      exact Iff.rfl
  | time s =>
      rw [text, not_lt]
      exact Timestamp.text_le_iff t s

/-- The spelling of a beginning and of a time are in the order of time. -/
def StartInOrder (m : Moment) (t : Timestamp) : Prop :=
  match m with
  | .date d => t.date.Before d ↔ t.instant < (firstSecond d).instant
  | .time s => InOrder s t (s.instant ≤ t.instant)

/-- The spelling of a time and of an end are in the order of time. -/
def StopInOrder (m : Moment) (t : Timestamp) : Prop :=
  match m with
  | .date d => t.date.Before d ↔ t.instant < (firstSecond d).instant + 86400
  | .time s => InOrder t s (t.instant ≤ s.instant)

theorem startInOrder_iff (m : Moment) (t : Timestamp) :
    m.StartInOrder t ↔ (m.StartSpelled t ↔ m.bound.begins t = true) := by
  cases m with
  | date d =>
      have hbegins : (Bound.date d).begins t = true ↔ ¬ t.instant < (firstSecond d).instant := by
        rw [Bound.begins, Bound.startInstant, decide_eq_true_eq, not_lt]
      change (_ ↔ _) ↔ (¬ _ ↔ (Bound.date d).begins t = true)
      rw [hbegins, not_iff_not]
  | time s =>
      exact Bound.startInOrder_iff (.time s) t

theorem stopInOrder_iff (m : Moment) (t : Timestamp) :
    m.StopInOrder t ↔ (m.StopSpelled t ↔ m.bound.ends t = true) := by
  cases m with
  | date d =>
      have hends : (Bound.date d).ends t = true ↔ t.instant < (firstSecond d).instant + 86400 := by
        simp [Bound.ends, Bound.stopInstant, Bound.UpTo]
      change _ ↔ (_ ↔ (Bound.date d).ends t = true)
      rw [hends]
      exact Iff.rfl
  | time s =>
      exact Bound.stopInOrder_iff (.time s) t

end Moment

namespace DatetimeExpr

/-- The spelling of a time lies between the bounds. -/
def Spelled (e : DatetimeExpr) (t : Timestamp) : Prop :=
  (∀ m, e.start = some m → m.StartSpelled t) ∧ ∀ m, e.stop = some m → m.StopSpelled t

/-- The spellings of the bounds and of a time are in the order of time. -/
def InOrder (e : DatetimeExpr) (t : Timestamp) : Prop :=
  (∀ m, e.start = some m → m.StartInOrder t) ∧ ∀ m, e.stop = some m → m.StopInOrder t

theorem datetimeMatches_iff (e : DatetimeExpr) (t : Timestamp) :
    datetimeMatches (e.start.map Moment.text) (e.stop.map Moment.text) t.text = true ↔
      e.Spelled t := by
  simp only [datetimeMatches, Bool.and_eq_true, Option.all_map, Option.all_eq_true,
    Moment.not_text_lt_iff, Moment.not_lt_text_iff, Spelled]

theorem holds_iff (e : DatetimeExpr) (t : Timestamp) :
    e.extent.holds t = true ↔
      (∀ m, e.start = some m → m.bound.begins t = true) ∧
        ∀ m, e.stop = some m → m.bound.ends t = true := by
  rw [Extent.holds, Bool.and_eq_true, extent]
  cases e.start <;> cases e.stop <;>
    simp [Bound.begins, Bound.startInstant, Bound.ends, Bound.stopInstant]

theorem tells_inOrder (e : DatetimeExpr) (t : Timestamp) :
    Tells (e.InOrder t) (e.Spelled t) (e.extent.holds t = true) := by
  have hstart := tells_forall e.start fun m => tells_of_iff (m.startInOrder_iff t)
  have hstop := tells_forall e.stop fun m => tells_of_iff (m.stopInOrder_iff t)
  rw [e.holds_iff]
  exact tells_and hstart hstop

end DatetimeExpr

theorem F64.lt_asymm {x y : F64} (h : F64.lt x y = true) : F64.lt y x = false := by
  cases x <;> cases y <;> simp [F64.lt] at h ⊢
  · exact h.le
  · exact h.le
  · exact h.le

namespace Bbox

/-- There is a gap between the boxes. -/
def Apart (a b : Bbox) : Prop :=
  F64.lt a.east b.west = true ∨ F64.lt b.east a.west = true ∨ F64.lt a.north b.south = true ∨
    F64.lt b.north a.south = true

/-- The boxes have more than edges in common. -/
def Overlaps (a b : Bbox) : Prop :=
  (F64.lt b.west a.east = true ∧ F64.lt a.west b.east = true) ∧
    F64.lt b.south a.north = true ∧ F64.lt a.south b.north = true

instance (a b : Bbox) : Decidable (a.Overlaps b) := inferInstanceAs (Decidable (_ ∧ _))

/-- The boxes do not merely touch. -/
def Clear (a b : Bbox) : Prop := a.Apart b ∨ a.Overlaps b

theorem bboxIntersects_iff (a b : Bbox) : bboxIntersects a b = true ↔ ¬ a.Apart b := by
  rw [bboxIntersects, Bool.not_eq_true', ← Bool.not_eq_true]
  simp only [Bool.or_eq_true, Apart, or_assoc]

theorem not_apart_of_overlaps {a b : Bbox} (h : a.Overlaps b) : ¬ a.Apart b := by
  obtain ⟨⟨hwest, heast⟩, hsouth, hnorth⟩ := h
  simp only [Apart, F64.lt_asymm hwest, F64.lt_asymm heast, F64.lt_asymm hsouth,
    F64.lt_asymm hnorth, Bool.false_eq_true, or_self, not_false_eq_true]

theorem clear_iff (a b : Bbox) : a.Clear b ↔ (¬ a.Apart b ↔ a.Overlaps b) := by
  constructor
  · rintro (hapart | hoverlaps)
    · exact iff_of_false (not_not.mpr hapart) fun h => not_apart_of_overlaps h hapart
    · exact iff_of_true (not_apart_of_overlaps hoverlaps) hoverlaps
  · intro h
    by_cases hapart : a.Apart b
    case pos =>
      exact .inl hapart
    case neg =>
      exact .inr (h.mp hapart)

end Bbox

/-- An item with its time. -/
structure CatalogItem where
  id : String
  collection : String
  bbox : Bbox
  time : Timestamp

/-- The item as it is stored. -/
def CatalogItem.item (it : CatalogItem) : InMemoryItem :=
  ⟨it.id, it.collection, it.bbox, it.time.text⟩

/-- A request with a datetime expression. -/
structure CatalogQuery where
  bbox : Option Bbox
  datetime : Option DatetimeExpr
  collections : List String
  ids : List String
  limit : Option Nat

namespace CatalogQuery

variable (q : CatalogQuery) (it : CatalogItem)

/-- The request as it is sent. -/
def request : SearchRequest :=
  ⟨q.bbox, q.datetime.map DatetimeExpr.text, q.collections, q.ids, q.limit⟩

/-- The item is of a collection of the request. -/
def InScope : Prop := q.collections = [] ∨ it.collection ∈ q.collections

instance : Decidable (q.InScope it) := inferInstanceAs (Decidable (_ ∨ _))

/-- The item is wanted: it has one of the ids, if there are any, and otherwise it is in scope, its
box overlaps that of the request and its instant lies in the interval. -/
def wanted : Bool :=
  if q.ids ≠ [] then decide (it.id ∈ q.ids)
  else
    decide (q.InScope it) && (q.bbox.all (fun b => decide (b.Overlaps it.bbox)) &&
      q.datetime.all (fun e => e.extent.holds it.time))

/-- The filter lets the item through. -/
def found : Bool :=
  itemMatches q.request
    (q.datetime.map fun e => (e.start.map Moment.text, e.stop.map Moment.text)) it.item

/-- The spelling of the item does not get in the way and its box does not merely touch that of
the request, wherever the item is in scope and passes the two tests in one of the two ways. -/
def Clear : Prop :=
  q.ids = [] → q.InScope it →
    ((∀ b, q.bbox = some b → ¬ b.Apart it.bbox) ∧
        ∀ e, q.datetime = some e → e.Spelled it.time) ∨
      ((∀ b, q.bbox = some b → b.Overlaps it.bbox) ∧
        ∀ e, q.datetime = some e → e.extent.holds it.time = true) →
    (∀ b, q.bbox = some b → b.Clear it.bbox) ∧ ∀ e, q.datetime = some e → e.InOrder it.time

theorem found_iff_of_ids (h : q.ids ≠ []) : q.found it = true ↔ it.id ∈ q.ids := by
  have hids : (!q.request.ids.isEmpty) = true := by
    simpa [request] using h
  rw [found, itemMatches, if_pos hids, List.any_eq_true]
  simp [request, CatalogItem.item]

theorem found_iff (h : q.ids = []) :
    q.found it = true ↔ q.InScope it ∧ (∀ b, q.bbox = some b → ¬ b.Apart it.bbox) ∧
      ∀ e, q.datetime = some e → e.Spelled it.time := by
  have hids : ¬ (!q.request.ids.isEmpty) = true := by
    simp [request, h]
  have hscope : (q.request.collections.isEmpty ||
      q.request.collections.any fun c => c == it.item.collection) = true ↔ q.InScope it := by
    simp [request, CatalogItem.item, InScope]
  rw [found, itemMatches, if_neg hids, Bool.and_eq_true, Bool.and_eq_true, hscope]
  simp only [request, CatalogItem.item, Option.all_map, Option.all_eq_true,
    Bbox.bboxIntersects_iff, DatetimeExpr.datetimeMatches_iff]

theorem wanted_iff (h : q.ids = []) :
    q.wanted it = true ↔ q.InScope it ∧ (∀ b, q.bbox = some b → b.Overlaps it.bbox) ∧
      ∀ e, q.datetime = some e → e.extent.holds it.time = true := by
  rw [wanted, if_neg (not_not.mpr h)]
  simp only [Bool.and_eq_true, Option.all_eq_true, decide_eq_true_eq]

/-- An item is clear if the filter does what is wanted. -/
theorem clear_iff : q.Clear it ↔ q.found it = q.wanted it := by
  rw [Bool.eq_iff_iff]
  by_cases hids : q.ids = []
  case neg =>
    have hwanted : q.wanted it = true ↔ it.id ∈ q.ids := by
      rw [wanted, if_pos hids, decide_eq_true_eq]
    rw [q.found_iff_of_ids it hids, hwanted]
    exact iff_of_true (fun h => absurd h hids) Iff.rfl
  case pos =>
    have hbbox := tells_forall q.bbox fun b => tells_of_iff (b.clear_iff it.bbox)
    have hdatetime := tells_forall q.datetime fun e => e.tells_inOrder it.time
    rw [q.found_iff it hids, q.wanted_iff it hids, Clear]
    have hboth := tells_and hbbox hdatetime
    rw [and_congr_right_iff]
    exact (forall_prop_of_true hids).trans (imp_congr_right fun _ => hboth)

end CatalogQuery

/-- The entries that are looked at until as many have passed a test as are asked for. -/
def lookedAt {α : Type} (p : α → Bool) : Nat → List α → List α
  | 0, _ => []
  | _ + 1, [] => []
  | n + 1, x :: xs => x :: if p x then lookedAt p n xs else lookedAt p (n + 1) xs

theorem take_filter_eq {α : Type} {p q : α → Bool} :
    ∀ (n : Nat) (xs : List α), (∀ x ∈ lookedAt q n xs, p x = q x) →
      (xs.filter p).take n = (xs.filter q).take n
  | 0, xs, _ => by rw [List.take_zero, List.take_zero]
  | n + 1, [], _ => rfl
  | n + 1, x :: xs, h => by
      rw [lookedAt, List.forall_mem_cons] at h
      obtain ⟨hx, h⟩ := h
      rw [List.filter_cons, List.filter_cons, hx]
      cases hq : q x with
      | true =>
          rw [hq, if_pos rfl] at h
          simp only [if_true, List.take_succ_cons, take_filter_eq n xs h]
      | false =>
          rw [hq, if_neg Bool.false_ne_true] at h
          simp only [Bool.false_eq_true, if_false, take_filter_eq (n + 1) xs h]

/-- Among entries with names of their own, other tests give other results. -/
theorem eq_of_take_filter_eq {α β : Type} {p q : α → Bool} {name : α → β} :
    ∀ (n : Nat) (xs : List α), (xs.map name).Nodup →
      ((xs.filter p).map name).take n = ((xs.filter q).map name).take n →
        ∀ x ∈ lookedAt q n xs, p x = q x
  | 0, xs, _, _ => by simp [lookedAt]
  | n + 1, [], _, _ => by simp [lookedAt]
  | n + 1, x :: xs, hnodup, h => by
      rw [List.map_cons, List.nodup_cons] at hnodup
      obtain ⟨hx, hnodup⟩ := hnodup
      have hnot : ∀ r : α → Bool, name x ∉ ((xs.filter r).map name).take (n + 1) := by
        intro r hmem
        obtain ⟨y, hy, hname⟩ := List.mem_map.mp (List.mem_of_mem_take hmem)
        exact hx (hname ▸ List.mem_map_of_mem (List.mem_of_mem_filter hy))
      have hhead : ∀ zs : List β, name x ∈ (name x :: zs).take (n + 1) := fun zs => by
        rw [List.take_succ_cons]
        exact List.mem_cons_self
      rw [List.filter_cons, List.filter_cons] at h
      rw [lookedAt, List.forall_mem_cons]
      cases hp : p x <;> cases hq : q x <;> simp only [hp, hq] at h
      · exact ⟨rfl, eq_of_take_filter_eq (n + 1) xs hnodup (by simpa using h)⟩
      · exfalso
        refine hnot p ?_
        simp only [Bool.false_eq_true, if_false, if_true, List.map_cons] at h
        rw [h]
        exact hhead _
      · exfalso
        refine hnot q ?_
        simp only [Bool.false_eq_true, if_false, if_true, List.map_cons] at h
        rw [← h]
        exact hhead _
      · refine ⟨rfl, eq_of_take_filter_eq n xs hnodup ?_⟩
        simpa using h

section Search

variable (items : List CatalogItem) (q : CatalogQuery)

/-- The search gives the first ids of the wanted items, as many as are asked for. -/
def SearchRight : Prop :=
  search (items.map CatalogItem.item) q.request =
    .ok (((items.filter q.wanted).map CatalogItem.id).take (q.limit.getD 100))

/-- The items that are looked at until the limit is reached are clear. -/
def SearchClear : Prop := ∀ it ∈ lookedAt q.wanted (q.limit.getD 100) items, q.Clear it

theorem search_eq :
    search (items.map CatalogItem.item) q.request =
      .ok (((items.filter q.found).map CatalogItem.id).take (q.limit.getD 100)) := by
  have hparse : q.request.datetime.mapM parseDatetime = .ok
      (q.datetime.map fun e => (e.start.map Moment.text, e.stop.map Moment.text)) := by
    rw [CatalogQuery.request]
    cases q.datetime with
    | none => rfl
    | some e =>
        rw [Option.map_some, Option.mapM_some, parseDatetime_text]
        rfl
  have hout : (items.map CatalogItem.item).filter (itemMatches q.request
        (q.datetime.map fun e => (e.start.map Moment.text, e.stop.map Moment.text))) =
      (items.filter q.found).map CatalogItem.item := by
    rw [List.filter_map]
    rfl
  rw [search, hparse]
  change Except.ok _ = _
  rw [hout, List.map_map]
  rfl

/-- The search is right if the items that are looked at are clear, and only then if their ids are
distinct. -/
theorem searchRight_iff :
    (SearchClear items q → SearchRight items q) ∧
      ((items.map CatalogItem.id).Nodup → SearchRight items q → SearchClear items q) := by
  unfold SearchRight SearchClear
  simp only [search_eq, q.clear_iff, Except.ok.injEq]
  refine ⟨fun h => ?_, fun hnodup h => ?_⟩
  · rw [← List.map_take, ← List.map_take, take_filter_eq _ items h]
  · exact eq_of_take_filter_eq _ items hnodup h

end Search

/-- A box of one degree. -/
def degreeBox (west : ℚ) : Bbox := ⟨.finite west, .finite 0, .finite (west + 1), .finite 1⟩

theorem thirty_days : 1 ≤ 30 ∧ 30 ≤ 30 := by decide

/-- An item of the last morning in June. -/
def lastMorning : CatalogItem := ⟨"a", "c", degreeBox 0, morning (june 30 thirty_days)⟩

/-- A box that touches is let through, and the last day of an interval is lost. -/
theorem neighbour_found_lastDay_lost :
    ¬ SearchRight [lastMorning] ⟨some (degreeBox 1), none, [], [], none⟩ ∧
      ¬ SearchRight [lastMorning]
        ⟨none, some (.closed (.date (june 1 (by decide))) (.date (june 30 (by decide)))), [], [],
          none⟩ := by
  unfold SearchRight
  rw [search_eq, search_eq]
  decide +kernel

theorem instant_firstSecond (d : Day) : (firstSecond d).instant = d.number * 86400 := by
  have hwhole : (firstSecond d).wholeSeconds = d.number * 86400 + 0 * 3600 + 0 * 60 + 0 := rfl
  rw [(plain_firstSecond d).instant_eq, hwhole]
  push_cast
  linarith

/-- A plain timestamp lies on its day. -/
theorem Plain.on_day {t : Timestamp} (ht : Plain t) :
    (firstSecond t.date).instant ≤ t.instant ∧
      t.instant < (firstSecond t.date).instant + 86400 := by
  have hhour := t.hour_lt
  have hminute := t.minute_lt
  have hsecond := ht.second
  have hlow : t.date.number * 86400 ≤ t.wholeSeconds := by
    unfold Timestamp.wholeSeconds
    omega
  have hhigh : t.wholeSeconds < t.date.number * 86400 + 86400 := by
    unfold Timestamp.wholeSeconds
    omega
  rw [instant_firstSecond, ht.instant_eq]
  exact ⟨by exact_mod_cast hlow, by exact_mod_cast hhigh⟩

/-- Days follow one another. -/
theorem nextDay_le {a b : Day} (h : a.Before b) :
    (firstSecond a).instant + 86400 ≤ (firstSecond b).instant := by
  have hnumber : a.number * 86400 + 86400 ≤ b.number * 86400 := by
    have hlt := Day.number_lt_of_before h
    omega
  rw [instant_firstSecond, instant_firstSecond]
  exact_mod_cast hnumber

theorem Day.before_trichotomy (a b : Day) : a.Before b ∨ a = b ∨ b.Before a := by
  rw [← Day.text_lt_iff, ← Day.text_lt_iff, ← Day.text_inj]
  exact lt_trichotomy a.text b.text

namespace Moment

/-- A date that begins an interval is in the order of time with all plain timestamps. -/
theorem startInOrder_date {t : Timestamp} (ht : Plain t) (d : Day) :
    (Moment.date d).StartInOrder t := by
  obtain ⟨hlow, hhigh⟩ := ht.on_day
  rcases Day.before_trichotomy t.date d with hbefore | heq | hafter
  · exact iff_of_true hbefore (hhigh.trans_le (nextDay_le hbefore))
  · rw [heq] at hlow
    refine iff_of_false (fun h => ?_) hlow.not_gt
    rw [heq, ← Day.text_lt_iff] at h
    exact lt_irrefl _ h
  · have hnext := nextDay_le hafter
    refine iff_of_false (fun h => ?_) (by linarith)
    have hnext' := nextDay_le h
    linarith

/-- A date that ends an interval is so with those on other days. -/
theorem stopInOrder_date_iff {t : Timestamp} (ht : Plain t) (d : Day) :
    (Moment.date d).StopInOrder t ↔ t.date ≠ d := by
  obtain ⟨hlow, hhigh⟩ := ht.on_day
  constructor
  · rintro h rfl
    have hbefore := h.mpr hhigh
    rw [← Day.text_lt_iff] at hbefore
    exact lt_irrefl _ hbefore
  · intro hne
    rcases Day.before_trichotomy t.date d with hbefore | heq | hafter
    · have hnext := nextDay_le hbefore
      exact iff_of_true hbefore (by linarith)
    · exact absurd heq hne
    · have hnext := nextDay_le hafter
      refine iff_of_false (fun h => ?_) (by linarith)
      have hnext' := nextDay_le h
      linarith

/-- The time of a bound is plain. -/
def IsPlain : Moment → Prop
  | .date _ => True
  | .time s => Plain s

theorem startInOrder_of_plain {m : Moment} (hm : m.IsPlain) {t : Timestamp} (ht : Plain t) :
    m.StartInOrder t := by
  cases m with
  | date d =>
      exact startInOrder_date ht d
  | time s =>
      exact Plain.inOrder hm ht

theorem stopInOrder_of_plain {m : Moment} (hm : m.IsPlain) {t : Timestamp} (ht : Plain t)
    (hday : ∀ d, m = .date d → t.date ≠ d) : m.StopInOrder t := by
  cases m with
  | date d =>
      exact (stopInOrder_date_iff ht d).mpr (hday d rfl)
  | time s =>
      exact ht.inOrder hm

end Moment

end OrbitOpenEO
