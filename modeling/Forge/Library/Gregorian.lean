import Mathlib.Data.Nat.Cast.Order.Basic
import Mathlib.Order.Defs.LinearOrder
import Mathlib.Tactic.IntervalCases

/-! The proleptic Gregorian calendar from its first year on: dates, the days up to a date counted
month by month, and the closed form of that count. -/

namespace Forge.Library.Gregorian

def IsLeap (year : Nat) : Prop := year % 4 = 0 ∧ (year % 100 ≠ 0 ∨ year % 400 = 0)

instance (year : Nat) : Decidable (IsLeap year) := inferInstanceAs (Decidable (_ ∧ _))

def monthLength (year month : Nat) : Nat :=
  match month with
  | 2 => if IsLeap year then 29 else 28
  | 4 | 6 | 9 | 11 => 30
  | _ => 31

def yearLength (year : Nat) : Nat := if IsLeap year then 366 else 365

def daysOfYears : Nat → Nat
  | 0 => 0
  | years + 1 => daysOfYears years + yearLength (years + 1)

def daysOfMonths (year : Nat) : Nat → Nat
  | 0 => 0
  | months + 1 => daysOfMonths year months + monthLength year (months + 1)

structure Date where
  year : Nat
  month : Nat
  day : Nat
  year_pos : 1 ≤ year
  month_pos : 1 ≤ month
  month_le : month ≤ 12
  day_pos : 1 ≤ day
  day_le : day ≤ monthLength year month

/-- A second of a day. -/
structure DateTime extends Date where
  hour : Nat
  minute : Nat
  second : Nat
  hour_lt : hour < 24
  minute_lt : minute < 60
  second_lt : second < 60

namespace Date

variable (date : Date)

def days : Nat :=
  daysOfYears (date.year - 1) + daysOfMonths date.year (date.month - 1) + (date.day - 1)

def Earlier (first second : Date) : Prop :=
  first.year < second.year ∨ first.year = second.year ∧
    (first.month < second.month ∨ first.month = second.month ∧ first.day < second.day)

end Date

namespace DateTime

variable (time : DateTime)

def secondOfDay : Nat := time.hour * 3600 + time.minute * 60 + time.second

def seconds : Int := ((time.days : Int) - daysOfYears 1969) * 86400 + time.secondOfDay

def Earlier (first second : DateTime) : Prop :=
  first.toDate.Earlier second.toDate ∨ first.year = second.year ∧ first.month = second.month ∧
    first.day = second.day ∧ (first.hour < second.hour ∨ first.hour = second.hour ∧
      (first.minute < second.minute ∨ first.minute = second.minute ∧
        first.second < second.second))

end DateTime

section Counts

theorem daysOfYears_eq (years : Nat) :
    daysOfYears years = 365 * years + years / 4 - years / 100 + years / 400 := by
  induction years with
  | zero => rfl
  | succ years ih =>
      rw [daysOfYears, ih, yearLength]
      by_cases leap : IsLeap (years + 1)
      · rw [if_pos leap]
        unfold IsLeap at leap
        omega
      · rw [if_neg leap]
        unfold IsLeap at leap
        omega

theorem epoch_days : daysOfYears 1969 = 719162 := daysOfYears_eq 1969

theorem daysOfYears_pred {year : Nat} (positive : 1 ≤ year) :
    daysOfYears year = daysOfYears (year - 1) + yearLength year := by
  obtain ⟨years, rfl⟩ := Nat.exists_eq_add_of_le' positive
  rfl

theorem daysOfMonths_eq (year : Nat) {month : Nat} (positive : 1 ≤ month) (small : month ≤ 12) :
    daysOfMonths year (month - 1) =
      if month ≤ 2 then 31 * (month - 1)
      else (153 * (month - 3) + 2) / 5 + if IsLeap year then 60 else 59 := by
  by_cases leap : IsLeap year <;>
    interval_cases month <;> simp [daysOfMonths, monthLength, leap]

theorem daysOfMonths_year (year : Nat) : daysOfMonths year 12 = yearLength year := by
  by_cases leap : IsLeap year
  · simp [daysOfMonths, monthLength, yearLength, leap]
  · simp [daysOfMonths, monthLength, yearLength, leap]

theorem daysOfMonths_mono (year : Nat) {first second : Nat} (le : first ≤ second) :
    daysOfMonths year first ≤ daysOfMonths year second := by
  induction le with
  | refl => exact Nat.le_refl _
  | step _ ih => exact ih.trans (Nat.le_add_right _ _)

theorem daysOfYears_mono {first second : Nat} (le : first ≤ second) :
    daysOfYears first ≤ daysOfYears second := by
  induction le with
  | refl => exact Nat.le_refl _
  | step _ ih => exact ih.trans (Nat.le_add_right _ _)

end Counts

namespace Date

variable (date : Date)

theorem dayOfYear_lt : daysOfMonths date.year (date.month - 1) + (date.day - 1) <
    daysOfMonths date.year date.month := by
  have whole : daysOfMonths date.year (date.month - 1 + 1) =
      daysOfMonths date.year (date.month - 1) + monthLength date.year (date.month - 1 + 1) := rfl
  rw [Nat.sub_add_cancel date.month_pos] at whole
  have inside := date.day_le
  have positive := date.day_pos
  omega

theorem days_lt : date.days < daysOfYears date.year := by
  have whole := daysOfYears_pred date.year_pos
  have inside := date.dayOfYear_lt
  have within := daysOfMonths_mono date.year date.month_le
  rw [daysOfMonths_year] at within
  unfold days
  omega

theorem days_lt_of_earlier {first second : Date} (earlier : first.Earlier second) :
    first.days < second.days := by
  rcases earlier with years | ⟨sameYear, months | ⟨sameMonth, days⟩⟩
  · have passed : daysOfYears first.year ≤ daysOfYears (second.year - 1) :=
      daysOfYears_mono (Nat.le_sub_one_of_lt years)
    have inside := first.days_lt
    unfold Date.days at inside ⊢
    omega
  · have passed : daysOfMonths second.year first.month ≤
        daysOfMonths second.year (second.month - 1) :=
      daysOfMonths_mono _ (Nat.le_sub_one_of_lt months)
    have inside := first.dayOfYear_lt
    unfold Date.days
    rw [sameYear] at inside ⊢
    omega
  · have positive := first.day_pos
    unfold Date.days
    rw [sameYear, sameMonth]
    omega

end Date

namespace DateTime

theorem secondOfDay_lt (time : DateTime) : time.secondOfDay < 86400 := by
  have hour := time.hour_lt
  have minute := time.minute_lt
  have second := time.second_lt
  unfold secondOfDay
  omega

theorem seconds_lt_of_earlier {first second : DateTime} (earlier : first.Earlier second) :
    first.seconds < second.seconds := by
  unfold seconds
  rcases earlier with dates | ⟨sameYear, sameMonth, sameDay, clock⟩
  · have days := Date.days_lt_of_earlier dates
    have inside := first.secondOfDay_lt
    omega
  · have sameDays : first.days = second.days := by
      unfold Date.days
      rw [sameYear, sameMonth, sameDay]
    have minute := first.minute_lt
    have seconds := first.second_lt
    have later : first.secondOfDay < second.secondOfDay := by
      unfold secondOfDay
      rcases clock with hours | ⟨sameHour, minutes | ⟨sameMinute, moments⟩⟩
      · omega
      · omega
      · omega
    omega

end DateTime

section ClosedForm

def marchYear (year month : Int) : Int := if month ≤ 2 then year - 1 else year

def marchDay (month : Int) : Int := (153 * (if 2 < month then month - 3 else month + 9) + 2) / 5

def civilDays (year month day : Int) : Int :=
  365 * marchYear year month + marchYear year month / 4 - marchYear year month / 100
    + marchYear year month / 400 + marchDay month + (day - 1) - 719468

theorem cast_daysOfYears (years : Nat) : (daysOfYears years : Int) =
    365 * (years : Int) + (years : Int) / 4 - (years : Int) / 100 + (years : Int) / 400 := by
  rw [daysOfYears_eq]
  omega

theorem civilDays_eq (date : Date) :
    civilDays date.year date.month date.day = (date.days : Int) - daysOfYears 1969 := by
  have month_pos := date.month_pos
  have month_le := date.month_le
  have year_pos := date.year_pos
  have day_pos := date.day_pos
  unfold civilDays Date.days marchYear marchDay
  rw [daysOfMonths_eq date.year month_pos month_le, epoch_days]
  by_cases early : date.month ≤ 2
  · have early' : (date.month : Int) ≤ 2 := by omega
    have counted := cast_daysOfYears (date.year - 1)
    rw [Int.natCast_sub year_pos] at counted
    rw [if_pos early, if_pos early', if_neg (Int.not_lt.2 early')]
    have month : date.month = 1 ∨ date.month = 2 := by omega
    -- January and February are the last months of the year that begins in March.
    rcases month with month | month
    · rw [month]
      omega
    · rw [month]
      omega
  · have late : ¬(date.month : Int) ≤ 2 := by omega
    have counted := cast_daysOfYears date.year
    have passed := daysOfYears_pred year_pos
    rw [if_neg early, if_neg late, if_pos (Int.not_le.1 late)]
    by_cases leap : IsLeap date.year
    · rw [yearLength, if_pos leap] at passed
      rw [if_pos leap]
      omega
    · rw [yearLength, if_neg leap] at passed
      rw [if_neg leap]
      omega

end ClosedForm

end Forge.Library.Gregorian
