import Mathlib.Algebra.Order.Ring.Rat
import Mathlib.Data.List.Lex
import Mathlib.Data.String.Basic
import Mathlib.Tactic.Linarith
import Mathlib.Tactic.NormNum

/-!
# Timestamps and their texts

A timestamp in the format of RFC 3339 is a date, a time of day with any number of decimals
and an offset.  It has a text, in one of several spellings, and it denotes an instant.  Texts
are ordered by their characters and instants by their number.  The first nineteen characters
of a text have fixed widths, so texts are ordered by the fields first and by the rest of the
text where the fields are the same.
-/

namespace OrbitOpenEO
namespace Lib

/-- After two beginnings of one length the rest matters where they are equal. -/
theorem append_lt_append_iff {α : Type} [LinearOrder α] {p q : List α} (h : p.length = q.length)
    {r s : List α} : p ++ r < q ++ s ↔ p < q ∨ (p = q ∧ r < s) := by
  induction p generalizing q with
  | nil =>
      rw [List.length_nil, eq_comm, List.length_eq_zero_iff] at h
      subst h
      simp
  | cons a p ih =>
      cases q with
      | nil =>
          cases h
      | cons b q =>
          rw [List.length_cons, List.length_cons, Nat.add_right_cancel_iff] at h
          rw [List.cons_append, List.cons_append, List.cons_lt_cons_iff, List.cons_lt_cons_iff,
            ih h, List.cons.injEq]
          tauto

/-- A decimal digit. -/
def digit (k : Nat) : Char := Char.ofNat (48 + k % 10)

/-- The last two digits. -/
def twoDigits (n : Nat) : List Char := [digit (n / 10), digit n]

/-- The last four digits. -/
def fourDigits (n : Nat) : List Char :=
  [digit (n / 1000), digit (n / 100), digit (n / 10), digit n]

theorem digit_mem (k : Nat) : digit k ∈ "0123456789".toList := by
  have hlt : k % 10 < 10 := Nat.mod_lt k (by decide)
  have hall : ∀ r < 10, Char.ofNat (48 + r) ∈ "0123456789".toList := by decide
  exact hall (k % 10) hlt

theorem digit_ne_of_not_mem {c : Char} (h : c ∉ "0123456789".toList) (k : Nat) : digit k ≠ c :=
  fun he => h (he ▸ digit_mem k)

theorem digit_lt_iff (a b : Nat) : digit a < digit b ↔ a % 10 < b % 10 := by
  have ha : a % 10 < 10 := Nat.mod_lt a (by decide)
  have hb : b % 10 < 10 := Nat.mod_lt b (by decide)
  have hall : ∀ r < 10, ∀ s < 10, (Char.ofNat (48 + r) < Char.ofNat (48 + s) ↔ r < s) := by
    decide
  exact hall _ ha _ hb

theorem digit_inj {a b : Nat} : digit a = digit b ↔ a % 10 = b % 10 := by
  constructor
  · intro h
    have hab : ¬ a % 10 < b % 10 := by
      rw [← digit_lt_iff, h]
      exact lt_irrefl _
    have hba : ¬ b % 10 < a % 10 := by
      rw [← digit_lt_iff, h]
      exact lt_irrefl _
    omega
  · intro h
    unfold digit
    rw [h]

theorem twoDigits_lt_iff {a b : Nat} (ha : a < 100) (hb : b < 100) :
    twoDigits a < twoDigits b ↔ a < b := by
  unfold twoDigits
  simp only [List.cons_lt_cons_iff, digit_lt_iff, digit_inj, lt_irrefl, and_false, or_false]
  omega

theorem twoDigits_inj {a b : Nat} (ha : a < 100) (hb : b < 100) :
    twoDigits a = twoDigits b ↔ a = b := by
  unfold twoDigits
  simp only [List.cons.injEq, digit_inj, and_true]
  omega

theorem fourDigits_eq (n : Nat) : fourDigits n = twoDigits (n / 100) ++ twoDigits n := by
  have h : n / 100 / 10 = n / 1000 := by omega
  simp [fourDigits, twoDigits, h]

theorem twoDigits_mod (n : Nat) : twoDigits n = twoDigits (n % 100) := by
  unfold twoDigits
  simp only [List.cons.injEq, digit_inj, and_true]
  omega

theorem fourDigits_lt_iff {a b : Nat} (ha : a < 10000) (hb : b < 10000) :
    fourDigits a < fourDigits b ↔ a < b := by
  have ha' : a / 100 < 100 := by omega
  have hb' : b / 100 < 100 := by omega
  have hlen : (twoDigits (a / 100)).length = (twoDigits (b / 100)).length := rfl
  rw [fourDigits_eq, fourDigits_eq, append_lt_append_iff hlen, twoDigits_mod a, twoDigits_mod b,
    twoDigits_lt_iff ha' hb', twoDigits_inj ha' hb',
    twoDigits_lt_iff (Nat.mod_lt a (by decide)) (Nat.mod_lt b (by decide))]
  omega

theorem fourDigits_inj {a b : Nat} (ha : a < 10000) (hb : b < 10000) :
    fourDigits a = fourDigits b ↔ a = b := by
  have hab := fourDigits_lt_iff ha hb
  have hba := fourDigits_lt_iff hb ha
  constructor
  · intro h
    rw [h, lt_self_iff_false, false_iff] at hab hba
    omega
  · intro h
    rw [h]

/-- A leap year of the Gregorian calendar. -/
def isLeapYear (y : Nat) : Bool := y % 4 == 0 && (y % 100 != 0 || y % 400 == 0)

def daysInMonth (y m : Nat) : Nat :=
  match m with
  | 2 => if isLeapYear y then 29 else 28
  | 4 | 6 | 9 | 11 => 30
  | _ => 31

/-- The days of the years before. -/
def daysBeforeYear : Nat → Nat
  | 0 => 0
  | y + 1 => daysBeforeYear y + (if isLeapYear y then 366 else 365)

/-- The days of the months before, in the same year. -/
def daysBeforeMonth (y : Nat) : Nat → Nat
  | 0 => 0
  | 1 => 0
  | m + 2 => daysBeforeMonth y (m + 1) + daysInMonth y (m + 1)

/-- A day of the calendar. -/
structure Day where
  year : Nat
  month : Nat
  day : Nat
  year_lt : year < 10000
  month_mem : 1 ≤ month ∧ month ≤ 12
  day_mem : 1 ≤ day ∧ day ≤ daysInMonth year month

theorem daysInMonth_le (y m : Nat) : daysInMonth y m ≤ 31 := by
  unfold daysInMonth
  split
  · split
    · decide
    · decide
  all_goals decide

namespace Day

/-- The days since the first of January of the year 0. -/
def number (d : Day) : Nat := daysBeforeYear d.year + daysBeforeMonth d.year d.month + d.day - 1

/-- `YYYY-MM-DD`. -/
def text (d : Day) : List Char :=
  fourDigits d.year ++ ('-' :: (twoDigits d.month ++ ('-' :: twoDigits d.day)))

theorem month_lt (d : Day) : d.month < 100 := by
  have h := d.month_mem
  omega

theorem day_lt (d : Day) : d.day < 100 := by
  have h := d.day_mem
  have hle := daysInMonth_le d.year d.month
  omega

@[simp] theorem length_text (d : Day) : d.text.length = 10 := rfl

/-- An earlier day of the calendar. -/
def Before (a b : Day) : Prop :=
  a.year < b.year ∨ (a.year = b.year ∧ (a.month < b.month ∨ (a.month = b.month ∧ a.day < b.day)))

theorem text_lt_iff (a b : Day) : a.text < b.text ↔ a.Before b := by
  unfold text Before
  rw [append_lt_append_iff, fourDigits_lt_iff a.year_lt b.year_lt,
    fourDigits_inj a.year_lt b.year_lt, List.cons_lt_cons_iff, append_lt_append_iff,
    twoDigits_lt_iff a.month_lt b.month_lt, twoDigits_inj a.month_lt b.month_lt,
    List.cons_lt_cons_iff, twoDigits_lt_iff a.day_lt b.day_lt]
  · simp
  · rfl
  · rfl

theorem text_inj {a b : Day} : a.text = b.text ↔ a = b := by
  have hab := (text_lt_iff a b).not
  have hba := (text_lt_iff b a).not
  constructor
  · intro h
    rw [h, lt_self_iff_false, not_false_eq_true, true_iff] at hab hba
    obtain ⟨ya, ma, da, _, _, _⟩ := a
    obtain ⟨yb, mb, db, _, _, _⟩ := b
    unfold Before at hab hba
    dsimp only at hab hba
    rw [mk.injEq]
    omega
  · intro h
    rw [h]

end Day

theorem daysBeforeMonth_add_le {y m m' : Nat} (hm : 1 ≤ m) (h : m < m') :
    daysBeforeMonth y m + daysInMonth y m ≤ daysBeforeMonth y m' := by
  induction m', h using Nat.le_induction with
  | base =>
      cases m with
      | zero =>
          cases hm
      | succ k =>
          exact le_refl _
  | succ n hn ih =>
      cases n with
      | zero =>
          omega
      | succ k =>
          exact ih.trans (Nat.le_add_right _ _)

theorem daysBeforeMonth_december (y : Nat) :
    daysBeforeMonth y 12 + 31 = if isLeapYear y then 366 else 365 := by
  simp only [daysBeforeMonth, daysInMonth]
  cases isLeapYear y with
  | true =>
      rfl
  | false =>
      rfl

theorem daysBeforeYear_add_le {y y' : Nat} (h : y < y') :
    daysBeforeYear y + (if isLeapYear y then 366 else 365) ≤ daysBeforeYear y' := by
  induction y', h using Nat.le_induction with
  | base =>
      exact le_refl _
  | succ n hn ih =>
      exact ih.trans (Nat.le_add_right _ _)

/-- The days up to one of a year are less than the days of the year. -/
theorem Day.le_daysInYear (d : Day) :
    daysBeforeMonth d.year d.month + d.day ≤ if isLeapYear d.year then 366 else 365 := by
  obtain ⟨hlow, hhigh⟩ := d.month_mem
  have hday := d.day_mem.2
  rw [← daysBeforeMonth_december]
  rcases hhigh.lt_or_eq with hlt | heq
  · have hle := daysBeforeMonth_add_le (y := d.year) hlow hlt
    omega
  · rw [heq] at hday ⊢
    have hlast : daysInMonth d.year 12 = 31 := rfl
    omega

/-- An earlier day has a smaller number. -/
theorem Day.number_lt_of_before {a b : Day} (h : a.Before b) : a.number < b.number := by
  have ha := a.le_daysInYear
  have hday := a.day_mem
  have hday' := b.day_mem
  unfold Day.number
  rcases h with hyear | ⟨hyear, hmonth | ⟨hmonth, hd⟩⟩
  · have hle := daysBeforeYear_add_le hyear
    omega
  · have hle := daysBeforeMonth_add_le (y := a.year) a.month_mem.1 hmonth
    rw [hyear] at hle hday ⊢
    omega
  · rw [hyear, hmonth]
    omega

/-- What stands between date and time: a letter, or a blank. -/
inductive Separator where
  | upper
  | lower
  | blank
deriving DecidableEq

def Separator.char : Separator → Char
  | .upper => 'T'
  | .lower => 't'
  | .blank => ' '

/-- The offset from universal time. -/
inductive Zone where
  | utc (upper : Bool)
  | offset (west : Bool) (hours : Fin 24) (minutes : Fin 60)
deriving DecidableEq

namespace Zone

def text : Zone → List Char
  | .utc true => ['Z']
  | .utc false => ['z']
  | .offset west hours minutes =>
      (if west then '-' else '+') :: (twoDigits hours ++ (':' :: twoDigits minutes))

/-- The offset in seconds. -/
def seconds : Zone → Int
  | .utc _ => 0
  | .offset west hours minutes =>
      let n : Int := hours * 3600 + minutes * 60
      if west then -n else n

end Zone

/-- A timestamp; a second may be a leap second. -/
structure Timestamp where
  date : Day
  separator : Separator
  hour : Nat
  minute : Nat
  second : Nat
  /-- The decimals of the second. -/
  fraction : List (Fin 10)
  zone : Zone
  hour_lt : hour < 24
  minute_lt : minute < 60
  second_le : second ≤ 60

namespace Timestamp

/-- The decimals and the offset: what has no fixed width. -/
def rest (t : Timestamp) : List Char :=
  (match t.fraction with
    | [] => []
    | ds => '.' :: ds.map (fun d : Fin 10 => digit d)) ++ t.zone.text

/-- The first nineteen characters. -/
def clockText (t : Timestamp) : List Char :=
  t.date.text ++ (t.separator.char :: (twoDigits t.hour ++ (':' :: (twoDigits t.minute ++
    (':' :: twoDigits t.second)))))

def text (t : Timestamp) : String := String.ofList (t.clockText ++ t.rest)

/-- The decimals as a part of a second. -/
def fractionOf : List (Fin 10) → ℚ
  | [] => 0
  | d :: ds => ((d : Nat) + fractionOf ds) / 10

/-- The date and the time of day, in whole seconds. -/
def wholeSeconds (t : Timestamp) : Nat :=
  t.date.number * 86400 + t.hour * 3600 + t.minute * 60 + t.second

/-- The date and the time of day, in seconds. -/
def localSeconds (t : Timestamp) : ℚ := t.wholeSeconds + fractionOf t.fraction

/-- The instant, in seconds of universal time. -/
def instant (t : Timestamp) : ℚ := t.localSeconds - t.zone.seconds

/-- The date and the time of day, as they are written, come first. -/
def ClockBefore (a b : Timestamp) : Prop :=
  a.date.Before b.date ∨ (a.date = b.date ∧
    (a.separator.char < b.separator.char ∨ (a.separator = b.separator ∧
      (a.hour < b.hour ∨ (a.hour = b.hour ∧
        (a.minute < b.minute ∨ (a.minute = b.minute ∧ a.second < b.second)))))))

/-- The date and the time of day are written alike. -/
def SameClock (a b : Timestamp) : Prop := ¬ ClockBefore a b ∧ ¬ ClockBefore b a

theorem char_inj {a b : Separator} : a.char = b.char ↔ a = b := by
  cases a <;> cases b <;> decide

theorem clockText_lt_iff (a b : Timestamp) : a.clockText < b.clockText ↔ ClockBefore a b := by
  have hbound : ∀ t : Timestamp, t.hour < 100 ∧ t.minute < 100 ∧ t.second < 100 := by
    intro t
    have h := t.hour_lt
    have h' := t.minute_lt
    have h'' := t.second_le
    omega
  obtain ⟨hah, ham, has⟩ := hbound a
  obtain ⟨hbh, hbm, hbs⟩ := hbound b
  unfold clockText ClockBefore
  rw [append_lt_append_iff, List.cons_lt_cons_iff, append_lt_append_iff,
    List.cons_lt_cons_iff, append_lt_append_iff, List.cons_lt_cons_iff, Day.text_lt_iff,
    Day.text_inj, twoDigits_lt_iff hah hbh, twoDigits_inj hah hbh, twoDigits_lt_iff ham hbm,
    twoDigits_inj ham hbm, twoDigits_lt_iff has hbs, char_inj]
  · simp
  · rfl
  · rfl
  · rfl

theorem sameClock_iff (a b : Timestamp) :
    SameClock a b ↔ a.date = b.date ∧ a.separator = b.separator ∧ a.hour = b.hour ∧
      a.minute = b.minute ∧ a.second = b.second := by
  have hclock : SameClock a b ↔ a.clockText = b.clockText := by
    unfold SameClock
    rw [← clockText_lt_iff, ← clockText_lt_iff, not_lt, not_lt]
    exact ⟨fun h => le_antisymm h.2 h.1, fun h => ⟨h.ge, h.le⟩⟩
  constructor
  · intro h
    obtain ⟨hdate, hrest⟩ := List.append_inj (hclock.mp h) rfl
    obtain ⟨hno, hno'⟩ := h
    have hday : a.date = b.date := Day.text_inj.mp hdate
    have hsep : a.separator = b.separator := char_inj.mp (List.cons.inj hrest).1
    unfold ClockBefore at hno hno'
    simp only [hday, hsep, lt_irrefl, true_and, false_or, not_or, not_and] at hno hno'
    refine ⟨hday, hsep, ?_⟩
    omega
  · rintro ⟨hdate, hsep, hhour, hminute, hsecond⟩
    rw [hclock]
    unfold clockText
    rw [hdate, hsep, hhour, hminute, hsecond]

theorem zone_text_inj {y z : Zone} (h : y.text = z.text) : y = z := by
  cases y with
  | utc u =>
      cases z with
      | utc v =>
          cases u <;> cases v <;> first | rfl | exact absurd h (by decide)
      | offset west hours minutes =>
          have hlen := congrArg List.length h
          cases u <;> simp [Zone.text, twoDigits] at hlen
  | offset west hours minutes =>
      cases z with
      | utc v =>
          have hlen := congrArg List.length h
          cases v <;> simp [Zone.text, twoDigits] at hlen
      | offset west' hours' minutes' =>
          have hh := hours.isLt
          have hh' := hours'.isLt
          have hm := minutes.isLt
          have hm' := minutes'.isLt
          obtain ⟨hsign, hrest⟩ := List.cons.inj h
          obtain ⟨hhours, hrest⟩ := List.append_inj hrest rfl
          have hminutes := (List.cons.inj hrest).2
          rw [twoDigits_inj (by omega) (by omega)] at hhours hminutes
          have hwest : west = west' := by
            cases west <;> cases west' <;> first | rfl | exact absurd hsign (by decide)
          rw [hwest, Fin.ext hhours, Fin.ext hminutes]

/-- An offset does not begin with a digit or a point. -/
theorem zone_text_ne_cons (z : Zone) {c : Char} (hc : c ∈ "0123456789.".toList)
    (cs : List Char) : z.text ≠ c :: cs := by
  intro h
  have hhead : z.text.head? = some c := by
    rw [h]
    rfl
  cases z with
  | utc u =>
      cases u <;> cases hhead <;> exact absurd hc (by decide)
  | offset west hours minutes =>
      cases west <;> cases hhead <;> exact absurd hc (by decide)

theorem digits_inj {ds es : List (Fin 10)} {y z : Zone}
    (h : ds.map (fun d : Fin 10 => digit d) ++ y.text =
      es.map (fun d : Fin 10 => digit d) ++ z.text) : ds = es ∧ y = z := by
  have hpoint : ∀ d : Fin 10, digit d ∈ "0123456789.".toList := by
    intro d
    exact List.mem_append_left ['.'] (digit_mem d)
  induction ds generalizing es with
  | nil =>
      cases es with
      | nil =>
          exact ⟨rfl, zone_text_inj h⟩
      | cons e es =>
          exact absurd h (zone_text_ne_cons y (hpoint e) _)
  | cons d ds ih =>
      cases es with
      | nil =>
          exact absurd h.symm (zone_text_ne_cons z (hpoint d) _)
      | cons e es =>
          obtain ⟨hd, hrest⟩ := List.cons.inj h
          rw [digit_inj, Nat.mod_eq_of_lt d.isLt, Nat.mod_eq_of_lt e.isLt] at hd
          obtain ⟨hds, hz⟩ := ih hrest
          exact ⟨by rw [Fin.ext hd, hds], hz⟩

theorem rest_inj {a b : Timestamp} (h : a.rest = b.rest) :
    a.fraction = b.fraction ∧ a.zone = b.zone := by
  unfold rest at h
  cases ha : a.fraction with
  | nil =>
      cases hb : b.fraction with
      | nil =>
          rw [ha, hb] at h
          exact ⟨rfl, zone_text_inj h⟩
      | cons e es =>
          rw [ha, hb] at h
          exact absurd h (zone_text_ne_cons a.zone (by decide) _)
  | cons d ds =>
      cases hb : b.fraction with
      | nil =>
          rw [ha, hb] at h
          exact absurd h.symm (zone_text_ne_cons b.zone (by decide) _)
      | cons e es =>
          rw [ha, hb] at h
          exact digits_inj (List.cons.inj h).2

/-- A text is that of one timestamp. -/
theorem text_injective : Function.Injective text := by
  intro a b h
  have hchars : a.clockText ++ a.rest = b.clockText ++ b.rest := String.ofList_injective h
  obtain ⟨hclock, hrest⟩ := List.append_inj hchars rfl
  have hsame : SameClock a b := by
    unfold SameClock
    rw [← clockText_lt_iff, ← clockText_lt_iff, hclock]
    exact ⟨lt_irrefl _, lt_irrefl _⟩
  obtain ⟨hdate, hsep, hhour, hminute, hsecond⟩ := (sameClock_iff a b).mp hsame
  obtain ⟨hfraction, hzone⟩ := rest_inj hrest
  cases a
  cases b
  simp_all

/-- Texts are ordered by the date and the time of day, and then by the rest. -/
theorem text_le_iff (a b : Timestamp) :
    a.text ≤ b.text ↔ ClockBefore a b ∨ (SameClock a b ∧ a.rest ≤ b.rest) := by
  have hlen : b.clockText.length = a.clockText.length := rfl
  have hlt : b.text < a.text ↔
      b.clockText < a.clockText ∨ (b.clockText = a.clockText ∧ b.rest < a.rest) := by
    unfold text
    rw [String.lt_iff_toList_lt, String.toList_ofList, String.toList_ofList,
      append_lt_append_iff hlen]
  rw [← not_lt, hlt]
  unfold SameClock
  rw [← clockText_lt_iff, ← clockText_lt_iff, ← not_lt]
  rcases lt_trichotomy a.clockText b.clockText with h | h | h
  · simp [h, h.ne', h.not_gt]
  · simp [h]
  · simp [h, h.not_gt]

/-- Decimals added to whole seconds add to the instant. -/
theorem instant_withFraction (t : Timestamp) (h : t.fraction = []) (ds : List (Fin 10)) :
    ({ t with fraction := ds } : Timestamp).instant = t.instant + fractionOf ds := by
  unfold instant localSeconds
  rw [h, fractionOf, add_zero]
  exact (sub_add_eq_add_sub _ _ _).symm

theorem fractionOf_bounds (ds : List (Fin 10)) : 0 ≤ fractionOf ds ∧ fractionOf ds < 1 := by
  induction ds with
  | nil =>
      norm_num [fractionOf]
  | cons d ds ih =>
      have hd : ((d : Nat) : ℚ) ≤ 9 := by
        exact_mod_cast Nat.le_of_lt_succ d.isLt
      have hnonneg : (0 : ℚ) ≤ (d : Nat) := Nat.cast_nonneg _
      unfold fractionOf
      constructor
      · linarith [ih.1]
      · linarith [ih.2]

/-- Behind one separator, an earlier clock shows fewer seconds, unless it shows a leap second. -/
theorem wholeSeconds_lt_of_clockBefore {a b : Timestamp} (hsep : a.separator = b.separator)
    (hleap : a.second < 60) (h : ClockBefore a b) : a.wholeSeconds < b.wholeSeconds := by
  have hah := a.hour_lt
  have ham := a.minute_lt
  unfold wholeSeconds
  rcases h with hdate | ⟨hdate, hrest⟩
  · have hnumber := Day.number_lt_of_before hdate
    omega
  · rw [hsep, lt_self_iff_false, false_or] at hrest
    rw [hdate]
    omega

/-- Among timestamps of one offset and separator, an earlier clock is an earlier instant, unless
it shows a leap second. -/
theorem instant_lt_of_clockBefore {a b : Timestamp} (hsep : a.separator = b.separator)
    (hzone : a.zone = b.zone) (hleap : a.second < 60) (h : ClockBefore a b) :
    a.instant < b.instant := by
  have hwhole : (a.wholeSeconds : ℚ) + 1 ≤ b.wholeSeconds := by
    exact_mod_cast wholeSeconds_lt_of_clockBefore hsep hleap h
  unfold instant localSeconds
  rw [hzone]
  linarith [(fractionOf_bounds a.fraction).2, (fractionOf_bounds b.fraction).1]

end Timestamp

end Lib
end OrbitOpenEO
