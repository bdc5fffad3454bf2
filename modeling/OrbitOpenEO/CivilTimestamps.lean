import OrbitOpenEO.JobStore
import OrbitOpenEO.Lib.CivilDates
import Mathlib.Tactic.Ring

/-!
# The texts of the clock

The job store and the provenance records write the time without a calendar library.  Both copies
of `days_to_ymd` divide the days from the first of March of the year 0 into eras of 400 years,
years and months.  The estimate of the year is monotone and right at both ends of every year of an
era (`yearOfEra_eq`), so it is right in between.  Up to the end of the year 9999 the texts have a
fixed width, and their order is that of the instants.
-/

namespace OrbitOpenEO

open Lib

namespace Provenance

/-- `days_to_ymd`: the civil date of a day counted from the first of March of the year 0. -/
def daysToYmd (z : Int) : Int × Nat × Nat :=
  let era := z / 146097
  let doe := (z - era * 146097).toNat
  let yoe := (doe - doe / 1460 + doe / 36524 - doe / 146096) / 365
  let y := (yoe : Int) + era * 400
  let doy := doe - (365 * yoe + yoe / 4 - yoe / 100)
  let mp := (5 * doy + 2) / 153
  let d := doy - (153 * mp + 2) / 5 + 1
  let m := if mp < 10 then mp + 3 else mp - 9
  (if m ≤ 2 then y + 1 else y, m, d)

/-- `now_rfc3339`.  `sinceEpoch` is what the clock says, nothing before 1970. -/
def nowRfc3339 (sinceEpoch : Option Nat) : String :=
  let now := sinceEpoch.getD 0
  let days : Int := (now / 86400 : Nat)
  let secsOfDay := now % 86400
  let (y, m, d) := daysToYmd (days + 719468)
  let year := if y < 0 then "-" ++ padLeft 3 (toString (-y)) else padLeft 4 (toString y)
  year ++ "-" ++ padLeft 2 (toString m) ++ "-" ++ padLeft 2 (toString d) ++ "T" ++
    padLeft 2 (toString (secsOfDay / 3600)) ++ ":" ++
    padLeft 2 (toString (secsOfDay / 60 % 60)) ++ ":" ++
    padLeft 2 (toString (secsOfDay % 60)) ++ "Z"

/-- The two copies differ in where the shift of the days is done. -/
theorem daysToYmd_shifted (z : Int) : daysToYmd (z + 719468) = OrbitOpenEO.daysToYmd z := rfl

end Provenance

/-- The estimate of the year within an era. -/
def yearOfEra (doe : Nat) : Nat := (doe - doe / 1460 + doe / 36524 - doe / 146096) / 365

theorem yearOfEra_succ (doe : Nat) : yearOfEra doe ≤ yearOfEra (doe + 1) := by
  have hle : doe / 1460 ≤ doe := Nat.div_le_self doe 1460
  have hfour : (doe + 1) / 1460 ≤ doe / 1460 + 1 := by omega
  have hcentury : doe / 36524 ≤ (doe + 1) / 36524 := by omega
  -- The last day of an era also ends a century.
  have hera : (doe + 1) / 146096 - doe / 146096 ≤ (doe + 1) / 36524 - doe / 36524 := by omega
  refine Nat.div_le_div_right ?_
  generalize (doe + 1) / 1460 = a at *
  generalize (doe + 1) / 36524 = b at *
  generalize (doe + 1) / 146096 = c at *
  omega

theorem yearOfEra_mono : Monotone yearOfEra := monotone_nat_of_le_succ yearOfEra_succ

/-- The estimate is right on the first and on the last day of every year. -/
theorem yearOfEra_ends : ∀ y < 400, yearOfEra (marchYearStart y) = y ∧
    yearOfEra (marchYearStart (y + 1) - 1) = y := by
  decide +kernel

theorem yearOfEra_eq {doe y : Nat} (hy : y < 400) (hlow : marchYearStart y ≤ doe)
    (hhigh : doe < marchYearStart (y + 1)) : yearOfEra doe = y := by
  obtain ⟨hfirst, hlast⟩ := yearOfEra_ends y hy
  refine le_antisymm ?_ ?_
  · exact (yearOfEra_mono (Nat.le_sub_one_of_lt hhigh)).trans_eq hlast
  · exact hfirst.symm.trans_le (yearOfEra_mono hlow)

/-- The date of a day after the epoch, by the year that begins in March and the day in it. -/
theorem exists_marchDay (n : Nat) :
    ∃ y doy, marchYearStart y + doy = n + 719468 ∧ marchYearStart y + doy < marchYearStart (y + 1) ∧
      daysToYmd n =
        (let mp := (5 * doy + 2) / 153
         let m := if mp < 10 then mp + 3 else mp - 9
         (((if m ≤ 2 then y + 1 else y : Nat) : Int), m, doy - marchMonthStart mp + 1)) := by
  have hdoe : (n + 719468) % 146097 < marchYearStart 400 := Nat.mod_lt _ (by decide)
  obtain ⟨yoe, hyoe, hlow, hhigh⟩ := exists_marchYear hdoe
  have hera := Nat.div_add_mod (n + 719468) 146097
  have hstart := marchYearStart_era ((n + 719468) / 146097) yoe
  have hnext := marchYearStart_era ((n + 719468) / 146097) (yoe + 1)
  refine ⟨400 * ((n + 719468) / 146097) + yoe, (n + 719468) % 146097 - marchYearStart yoe,
    by omega, ?_, ?_⟩
  · rw [← add_assoc] at hnext
    omega
  · have hcast : ((n : Int) + 719468 - ((n : Int) + 719468) / 146097 * 146097).toNat =
        (n + 719468) % 146097 := by omega
    have hyear : ((n + 719468) % 146097 - (n + 719468) % 146097 / 1460 +
        (n + 719468) % 146097 / 36524 - (n + 719468) % 146097 / 146096) / 365 = yoe :=
      yearOfEra_eq hyoe hlow hhigh
    have hdays : 365 * yoe + yoe / 4 - yoe / 100 = marchYearStart yoe := by
      unfold marchYearStart
      omega
    have hcount : (yoe : Int) + ((n : Int) + 719468) / 146097 * 400 =
        ((400 * ((n + 719468) / 146097) + yoe : Nat) : Int) := by omega
    unfold daysToYmd
    dsimp only
    rw [hcast, hyear, hdays, hcount, Nat.cast_ite, Nat.cast_succ]
    rfl

/-- The first second after the year 9999. -/
def yearTenThousand : Nat := 253402300800

/-- The first of January 1970. -/
def epochDay : Day := ⟨1970, 1, 1, by decide, by decide, by decide⟩

theorem number_epochDay : epochDay.number = 719528 := by
  have h := daysBeforeYear_eq 1970
  have hstart : marchYearStart 1970 = 719527 := by decide
  have hleap : leapDay 1970 = 0 := by decide
  have hmonth : daysBeforeMonth 1970 1 = 0 := rfl
  unfold Day.number epochDay
  dsimp only
  omega

/-- **`days_to_ymd` gives the Gregorian date**, whose number is that of the day. -/
theorem exists_day {secs : Nat} (h : secs < yearTenThousand) :
    ∃ d : Day, daysToYmd (secs / 86400 : Nat) = ((d.year : Int), d.month, d.day) ∧
      d.number = epochDay.number + secs / 86400 := by
  obtain ⟨y, doy, hplace, hin, hdate⟩ := exists_marchDay (secs / 86400)
  obtain ⟨hmonth, hday, hnumber⟩ := number_of_marchDay hin
  rw [hplace] at hnumber
  have hyear : ∀ year month day, 1 ≤ day →
      daysBeforeYear year + daysBeforeMonth year month + day - 1 =
        secs / 86400 + 719468 + 60 → year < 10000 := by
    intro year month day hone hsum
    by_contra hge
    have hle : daysBeforeYear 10000 ≤ daysBeforeYear year := by
      rcases (not_lt.mp hge).lt_or_eq with hlt | heq
      · exact (Nat.le_add_right _ _).trans (daysBeforeYear_add_le hlt)
      · rw [heq]
    have hten := daysBeforeYear_eq 10000
    have hstart : marchYearStart 10000 = 3652425 := by decide
    have hleap : leapDay 10000 = 1 := by decide
    unfold yearTenThousand at h
    omega
  refine ⟨⟨_, _, _, hyear _ _ _ hday.1 hnumber, hmonth, hday⟩, hdate, ?_⟩
  rw [number_epochDay]
  unfold Day.number
  dsimp only
  rw [hnumber]
  omega

theorem digitChar_eq_digit {k : Nat} (h : k < 10) : Nat.digitChar k = digit k := by
  have hall : ∀ r < 10, Nat.digitChar r = digit r := by decide
  exact hall k h

theorem toList_padLeft (width n : Nat) : (padLeft width (toString n)).toList =
    List.replicate (width - (Nat.toDigits 10 n).length) '0' ++ Nat.toDigits 10 n := by
  unfold padLeft
  rw [Nat.toString_eq_repr, String.toList_append, String.toList_ofList, Nat.toList_repr,
    ← String.length_toList, Nat.toList_repr]

/-- The last digit, and the digits before it in the width that is left. -/
theorem toList_padLeft_succ {width : Nat} (hwidth : 1 ≤ width) (n : Nat) :
    (padLeft (width + 1) (toString n)).toList =
      (padLeft width (toString (n / 10))).toList ++ [digit n] := by
  have hlast : digit n = Nat.digitChar (n % 10) := by
    rw [digitChar_eq_digit (Nat.mod_lt n (by decide)), digit, digit, Nat.mod_mod]
  rw [toList_padLeft, toList_padLeft, hlast]
  rcases Nat.lt_or_ge n 10 with hn | hn
  · have hdiv : n / 10 = 0 := Nat.div_eq_of_lt hn
    obtain ⟨k, rfl⟩ := Nat.exists_eq_add_of_le' hwidth
    rw [hdiv, Nat.mod_eq_of_lt hn, Nat.toDigits_of_lt_base hn, Nat.toDigits_zero,
      List.length_singleton, List.length_singleton, Nat.add_sub_cancel, Nat.add_sub_cancel,
      List.replicate_succ']
  · rw [Nat.toDigits_of_base_le (by decide) hn, List.length_append, List.length_singleton,
      Nat.add_sub_add_right, List.append_assoc]

theorem toList_padLeft_one {n : Nat} (h : n < 10) :
    (padLeft 1 (toString n)).toList = [digit n] := by
  rw [toList_padLeft, Nat.toDigits_of_lt_base h, digitChar_eq_digit h]
  rfl

theorem toList_padLeft_two {n : Nat} (h : n < 100) :
    (padLeft 2 (toString n)).toList = twoDigits n := by
  rw [toList_padLeft_succ (le_refl 1), toList_padLeft_one (by omega)]
  rfl

theorem toList_padLeft_four {n : Nat} (h : n < 10000) :
    (padLeft 4 (toString n)).toList = fourDigits n := by
  have hhundred : n / 10 / 10 = n / 100 := Nat.div_div_eq_div_mul n 10 10
  rw [toList_padLeft_succ (by decide), toList_padLeft_succ (by decide), hhundred,
    toList_padLeft_two (by omega), fourDigits_eq]
  simp [twoDigits]

/-- The timestamp of a day and the seconds of the day, written with `T`, `Z` and whole seconds. -/
def utcStamp (d : Day) (secsOfDay : Nat) (h : secsOfDay < 86400) : Timestamp where
  date := d
  separator := .upper
  hour := secsOfDay / 3600
  minute := secsOfDay / 60 % 60
  second := secsOfDay % 60
  fraction := []
  zone := .utc true
  hour_lt := by omega
  minute_lt := by omega
  second_le := by omega

/-- The first instant of 1970. -/
def epoch : Timestamp := utcStamp epochDay 0 (by decide)

theorem wholeSeconds_utcStamp {d : Day} {secsOfDay : Nat} (h : secsOfDay < 86400) :
    (utcStamp d secsOfDay h).wholeSeconds = d.number * 86400 + secsOfDay := by
  unfold Timestamp.wholeSeconds utcStamp
  dsimp only
  omega

theorem instant_utcStamp {d : Day} {secsOfDay : Nat} (h : secsOfDay < 86400) :
    (utcStamp d secsOfDay h).instant = d.number * 86400 + secsOfDay := by
  unfold Timestamp.instant Timestamp.localSeconds
  rw [wholeSeconds_utcStamp]
  simp [utcStamp, Timestamp.fractionOf, Zone.seconds]

/-- The text of a date and a time of day, as both copies put it together. -/
theorem text_utcStamp {d : Day} {secsOfDay : Nat} (h : secsOfDay < 86400) :
    padLeft 4 (toString (d.year : Int)) ++ "-" ++ padLeft 2 (toString d.month) ++ "-" ++
      padLeft 2 (toString d.day) ++ "T" ++ padLeft 2 (toString (secsOfDay / 3600)) ++ ":" ++
      padLeft 2 (toString (secsOfDay / 60 % 60)) ++ ":" ++
      padLeft 2 (toString (secsOfDay % 60)) ++ "Z" = (utcStamp d secsOfDay h).text := by
  have hyear : toString (d.year : Int) = toString d.year := rfl
  rw [← String.toList_inj, hyear]
  simp only [String.toList_append, toList_padLeft_four d.year_lt, toList_padLeft_two d.month_lt,
    toList_padLeft_two d.day_lt, toList_padLeft_two (by omega : secsOfDay / 3600 < 100),
    toList_padLeft_two (by omega : secsOfDay / 60 % 60 < 100),
    toList_padLeft_two (by omega : secsOfDay % 60 < 100)]
  unfold Timestamp.text Timestamp.clockText Timestamp.rest Day.text utcStamp
  rw [String.toList_ofList]
  simp [Separator.char, Zone.text]

theorem iso8601_eq {secs : Nat} {d : Day} (h : secs < yearTenThousand)
    (hdate : daysToYmd (secs / 86400 : Nat) = ((d.year : Int), d.month, d.day)) :
    iso8601 secs = (utcStamp d (secs % 86400) (Nat.mod_lt _ (by decide))).text := by
  have hsmall : secs < 0x8000000000000000 := h.trans (by decide)
  have hdays : (secs : Int) / 86400 = (secs / 86400 : Nat) := by omega
  have htime : ((secs : Int) % 86400).toNat = secs % 86400 := by omega
  have hyear : ¬ (d.year : Int) < 0 := by omega
  unfold iso8601
  dsimp only
  rw [if_pos hsmall, hdays, hdate, htime]
  dsimp only
  rw [if_neg hyear, text_utcStamp]

/-- The two copies write the same text. -/
theorem nowRfc3339_eq {secs : Nat} {d : Day}
    (hdate : daysToYmd (secs / 86400 : Nat) = ((d.year : Int), d.month, d.day)) :
    Provenance.nowRfc3339 (some secs) =
      (utcStamp d (secs % 86400) (Nat.mod_lt _ (by decide))).text := by
  have hyear : ¬ (d.year : Int) < 0 := by omega
  unfold Provenance.nowRfc3339
  dsimp only
  rw [Option.getD_some, Provenance.daysToYmd_shifted, hdate]
  dsimp only
  rw [if_neg hyear, text_utcStamp]

/-- Texts of one spelling without leap seconds are ordered by the seconds that they show. -/
theorem text_lt_of_wholeSeconds_lt {a b : Timestamp} (hsep : a.separator = b.separator)
    (hleap : b.second < 60) (h : a.wholeSeconds < b.wholeSeconds) : a.text < b.text := by
  rw [← not_le, Timestamp.text_le_iff]
  rintro (hbefore | ⟨hsame, -⟩)
  · exact absurd (Timestamp.wholeSeconds_lt_of_clockBefore hsep.symm hleap hbefore) h.not_gt
  · obtain ⟨hdate, -, hhour, hminute, hsecond⟩ := (Timestamp.sameClock_iff b a).mp hsame
    unfold Timestamp.wholeSeconds at h
    rw [hdate, hhour, hminute, hsecond] at h
    exact absurd h (lt_irrefl _)

/-- What the texts of a second count have to be. -/
structure StampsExactly (secs : Nat) (t : Timestamp) : Prop where
  /-- The timestamp denotes the instant. -/
  instant : t.instant - epoch.instant = secs
  /-- It shows no leap second. -/
  noLeap : t.second < 60
  /-- The date is the one that the conversion gives. -/
  date : daysToYmd (secs / 86400 : Nat) = ((t.date.year : Int), t.date.month, t.date.day)
  /-- The number of the date undoes the conversion. -/
  number : t.date.number = epochDay.number + secs / 86400
  /-- The job store writes it. -/
  iso8601 : iso8601 secs = t.text
  /-- The provenance records write the same. -/
  nowRfc3339 : Provenance.nowRfc3339 (some secs) = t.text
  /-- Later instants have greater texts. -/
  increasing : ∀ later, secs < later → later < yearTenThousand → t.text < OrbitOpenEO.iso8601 later

/-- **The texts of the clock are exact and ordered up to the end of the year 9999.** -/
theorem timestamps_exact {secs : Nat} (h : secs < yearTenThousand) :
    ∃ t, StampsExactly secs t := by
  obtain ⟨d, hdate, hnumber⟩ := exists_day h
  refine ⟨utcStamp d (secs % 86400) (Nat.mod_lt _ (by decide)), ?_, ?_, hdate, hnumber,
    iso8601_eq h hdate, nowRfc3339_eq hdate, ?_⟩
  · have hsplit : secs / 86400 * 86400 + secs % 86400 = secs := Nat.div_add_mod' secs 86400
    rw [epoch, instant_utcStamp, instant_utcStamp, hnumber, ← hsplit]
    push_cast
    rw [hsplit]
    ring
  · exact Nat.mod_lt _ (by decide)
  · intro later hlt hlater
    obtain ⟨d', hdate', hnumber'⟩ := exists_day hlater
    rw [iso8601_eq hlater hdate']
    refine text_lt_of_wholeSeconds_lt rfl (Nat.mod_lt _ (by decide)) ?_
    rw [wholeSeconds_utcStamp, wholeSeconds_utcStamp, hnumber, hnumber']
    omega

/-- The leap day of the year 2000. -/
theorem timestamps_exact_leapDay : ∃ t, StampsExactly 951827696 t :=
  timestamps_exact (by decide)

example : iso8601 951827696 = "2000-02-29T12:34:56Z" := by decide

end OrbitOpenEO
