import OrbitOpenEO.Lib.Timestamps
import Mathlib.Tactic.IntervalCases

/-!
# Dates from day counts

The days of the Gregorian calendar counted from the first of March of the year 0, so that a leap
day is the last day of its year.  The starts of these years are given by three divisions
(`marchYearStart`), and every day lies in one of them (`exists_marchYear`).  In a year that begins
in March the months follow one linear rule (`number_of_marchDay`).
-/

namespace OrbitOpenEO
namespace Lib

/-- The days from the first of March of the year 0 to that of another year. -/
def marchYearStart (y : Nat) : Nat := 365 * y + y / 4 - y / 100 + y / 400

/-- One in a leap year. -/
def leapDay (y : Nat) : Nat := if isLeapYear y then 1 else 0

theorem isLeapYear_iff (y : Nat) :
    isLeapYear y = true ↔ y % 4 = 0 ∧ (y % 100 ≠ 0 ∨ y % 400 = 0) := by
  simp [isLeapYear]

theorem leapDay_le (y : Nat) : leapDay y ≤ 1 := by
  unfold leapDay
  split
  · exact le_refl _
  · exact Nat.zero_le _

theorem daysBeforeYear_succ (y : Nat) :
    daysBeforeYear (y + 1) = daysBeforeYear y + 365 + leapDay y := by
  unfold leapDay
  rw [daysBeforeYear]
  split_ifs
  · rfl
  · rfl

theorem marchYearStart_succ (y : Nat) :
    marchYearStart (y + 1) = marchYearStart y + 365 + leapDay (y + 1) := by
  have hle : y / 100 ≤ y / 4 := Nat.div_le_div_left (by decide) (by decide)
  have hcentury : 400 ∣ y + 1 → 100 ∣ y + 1 := fun h => Dvd.dvd.trans (by decide) h
  have hfour : 100 ∣ y + 1 → 4 ∣ y + 1 := fun h => Dvd.dvd.trans (by decide) h
  unfold leapDay marchYearStart
  simp only [Nat.succ_div, isLeapYear_iff, ← Nat.dvd_iff_mod_eq_zero, ne_eq]
  -- One century in four keeps its leap day, and all other years divisible by four do.
  by_cases h4 : 4 ∣ y + 1
  · by_cases h100 : 100 ∣ y + 1
    · by_cases h400 : 400 ∣ y + 1
      · simp only [h4, h100, h400, or_true, and_true, if_true]
        omega
      · simp only [h4, h100, h400, not_true_eq_false, or_false, and_false, if_true, if_false]
        omega
    · have h400 : ¬ 400 ∣ y + 1 := mt hcentury h100
      simp only [h4, h100, h400, not_false_eq_true, true_or, and_true, if_true, if_false]
      omega
  · have h100 : ¬ 100 ∣ y + 1 := mt hfour h4
    have h400 : ¬ 400 ∣ y + 1 := mt hcentury h100
    simp only [h4, h100, h400, false_and, if_false]
    omega

/-- The rule of 4, 100 and 400 years, with the leap day of the year itself. -/
theorem daysBeforeYear_eq (y : Nat) :
    daysBeforeYear y + leapDay y = marchYearStart y + 1 := by
  induction y with
  | zero =>
      rfl
  | succ y ih =>
      rw [daysBeforeYear_succ, marchYearStart_succ]
      omega

/-- Every 400 years the calendar repeats. -/
theorem marchYearStart_era (era y : Nat) :
    marchYearStart (400 * era + y) = 146097 * era + marchYearStart y := by
  unfold marchYearStart
  omega

/-- Every day lies in a year. -/
theorem exists_marchYear {n day : Nat} (h : day < marchYearStart n) :
    ∃ y < n, marchYearStart y ≤ day ∧ day < marchYearStart (y + 1) := by
  induction n with
  | zero =>
      exact absurd h (Nat.not_lt_zero _)
  | succ n ih =>
      by_cases hday : day < marchYearStart n
      · obtain ⟨y, hy, hbounds⟩ := ih hday
        exact ⟨y, hy.trans n.lt_succ_self, hbounds⟩
      · exact ⟨n, n.lt_succ_self, not_lt.mp hday, h⟩

/-- The days from the first of March to the first of the month that comes `k` later. -/
def marchMonthStart (k : Nat) : Nat := (153 * k + 2) / 5

theorem daysBeforeMonth_march {y k : Nat} (h : k ≤ 9) :
    daysBeforeMonth y (k + 3) = 59 + leapDay y + marchMonthStart k := by
  unfold leapDay
  interval_cases k
  all_goals
    simp only [daysBeforeMonth, daysInMonth, marchMonthStart]
    split_ifs
    · rfl
    · rfl

theorem daysInMonth_march {y k : Nat} (h : k ≤ 9) :
    daysInMonth y (k + 3) = marchMonthStart (k + 1) - marchMonthStart k := by
  interval_cases k <;> rfl

/-- The linear rule finds the month of a day. -/
theorem marchMonth_bounds (day : Nat) :
    marchMonthStart ((5 * day + 2) / 153) ≤ day ∧
      day < marchMonthStart ((5 * day + 2) / 153 + 1) := by
  unfold marchMonthStart
  omega

/-- **A date of a year that begins in March**: month and day are valid, and the number of the day
is that of the year's start and the day's place in the year. -/
theorem number_of_marchDay {y doy : Nat} (h : marchYearStart y + doy < marchYearStart (y + 1)) :
    let k := (5 * doy + 2) / 153
    let month := if k < 10 then k + 3 else k - 9
    let year := if month ≤ 2 then y + 1 else y
    let day := doy - marchMonthStart k + 1
    (1 ≤ month ∧ month ≤ 12) ∧ (1 ≤ day ∧ day ≤ daysInMonth year month) ∧
      daysBeforeYear year + daysBeforeMonth year month + day - 1 = marchYearStart y + doy + 60 := by
  intro k month year day
  have hdoy : doy < 365 + leapDay (y + 1) := by
    rw [marchYearStart_succ] at h
    omega
  have hleap := leapDay_le (y + 1)
  obtain ⟨hlow, hhigh⟩ := marchMonth_bounds doy
  have hk : k ≤ 11 := by omega
  have hstart := daysBeforeYear_eq y
  have hnext : daysBeforeYear (y + 1) = marchYearStart y + 366 := by
    rw [daysBeforeYear_succ]
    omega
  have hday : day = doy - marchMonthStart k + 1 := rfl
  change marchMonthStart k ≤ doy at hlow
  change doy < marchMonthStart (k + 1) at hhigh
  by_cases hmarch : k < 10
  · have hmonth : month = k + 3 := if_pos hmarch
    have hyear : year = y := if_neg (by omega)
    rw [hyear, hmonth, daysBeforeMonth_march (by omega), daysInMonth_march (by omega)]
    omega
  · have hmonth : month = k - 9 := if_neg hmarch
    have hyear : year = y + 1 := if_pos (by omega)
    have htwo : k = 10 ∨ k = 11 := by omega
    rw [hyear, hmonth, hnext]
    rcases htwo with hk10 | hk11
    · have hstarts : marchMonthStart 10 = 306 ∧ marchMonthStart 11 = 337 := by decide
      have hin : daysInMonth (y + 1) (10 - 9) = 31 := rfl
      have hbefore : daysBeforeMonth (y + 1) (10 - 9) = 0 := rfl
      rw [hk10] at hlow hhigh hday ⊢
      rw [hin, hbefore]
      omega
    · have hstarts : marchMonthStart 11 = 337 := by decide
      have hin : daysInMonth (y + 1) (11 - 9) = 28 + leapDay (y + 1) := by
        unfold leapDay
        simp only [daysInMonth]
        split_ifs
        · rfl
        · rfl
      have hbefore : daysBeforeMonth (y + 1) (11 - 9) = 31 := rfl
      rw [hk11] at hlow hday ⊢
      rw [hin, hbefore]
      omega

end Lib
end OrbitOpenEO
