import Mathlib.Data.Int.Basic
import Mathlib.Tactic.IntervalCases

/-!
# The proleptic Gregorian calendar

Dates of every year, before and after the calendar's adoption, and the day count that
numbers them from 1970-01-01. A date carries the bounds of its month and day, so the count
is a bijection between dates and whole numbers that takes each date's successor one up.
-/

namespace GregorianCalendar

def IsLeap (year : ℤ) : Prop := 4 ∣ year ∧ (¬100 ∣ year ∨ 400 ∣ year)

instance (year : ℤ) : Decidable (IsLeap year) := inferInstanceAs (Decidable (_ ∧ _))

def yearLength (year : ℤ) : ℤ := if IsLeap year then 366 else 365

def monthLength (year : ℤ) : ℕ → ℤ
  | 2 => if IsLeap year then 29 else 28
  | 4 | 6 | 9 | 11 => 30
  | _ => 31

@[ext] structure Date where
  year : ℤ
  month : ℕ
  day : ℤ
  one_le_month : 1 ≤ month
  month_le : month ≤ 12
  one_le_day : 1 ≤ day
  day_le : day ≤ monthLength year month

/-- The day count of a year's first day. -/
def yearStart (year : ℤ) : ℤ :=
  365 * (year - 1) + (year - 1) / 4 - (year - 1) / 100 + (year - 1) / 400 - 719162

def daysBeforeMonth (year : ℤ) : ℕ → ℤ
  | 0 | 1 => 0
  | month + 1 => daysBeforeMonth year month + monthLength year month

namespace Date

def dayCount (date : Date) : ℤ :=
  yearStart date.year + daysBeforeMonth date.year date.month + date.day - 1

def epoch : Date := ⟨1970, 1, 1, by decide, by decide, by decide, by decide⟩

end Date

theorem le_monthLength (year : ℤ) (month : ℕ) : 28 ≤ monthLength year month := by
  unfold monthLength
  split
  · by_cases h : IsLeap year <;> simp [h]
  all_goals decide

def Date.next (date : Date) : Date :=
  if h : date.day < monthLength date.year date.month then
    ⟨date.year, date.month, date.day + 1, date.one_le_month, date.month_le,
      by have := date.one_le_day; omega, by omega⟩
  else if h' : date.month < 12 then
    ⟨date.year, date.month + 1, 1, by omega, by omega, by omega,
      by have := le_monthLength date.year (date.month + 1); omega⟩
  else ⟨date.year + 1, 1, 1, by omega, by omega, by omega,
    by have := le_monthLength (date.year + 1) 1; omega⟩

variable {year year' : ℤ} {month month' : ℕ}

theorem yearStart_succ (year : ℤ) : yearStart (year + 1) = yearStart year + yearLength year := by
  unfold yearStart
  by_cases h : IsLeap year
  · rw [yearLength, if_pos h]
    unfold IsLeap at h
    omega
  · rw [yearLength, if_neg h]
    unfold IsLeap at h
    omega

/-- Years come in order, each at least 365 days after the last. -/
theorem yearStart_lt (h : year < year') : yearStart year + 365 ≤ yearStart year' := by
  unfold yearStart
  omega

theorem daysBeforeMonth_succ (year : ℤ) (h : 1 ≤ month) :
    daysBeforeMonth year (month + 1) = daysBeforeMonth year month + monthLength year month := by
  obtain ⟨m, rfl⟩ := Nat.exists_eq_add_of_le' h
  rfl

theorem daysBeforeMonth_thirteen (year : ℤ) : daysBeforeMonth year 13 = yearLength year := by
  by_cases h : IsLeap year <;> simp [daysBeforeMonth, monthLength, yearLength, h]

/-- Months come in order, each after the whole of the last. -/
theorem daysBeforeMonth_lt (year : ℤ) (h₁ : 1 ≤ month) (h : month < month') :
    daysBeforeMonth year month + monthLength year month ≤ daysBeforeMonth year month' := by
  induction month', h using Nat.le_induction with
  | base => rw [daysBeforeMonth_succ year h₁]
  | succ m hm ih =>
    have hlength := le_monthLength year m
    rw [daysBeforeMonth_succ year (by omega)]
    omega

namespace Date

variable {date date' : Date}

theorem dayCount_epoch : epoch.dayCount = 0 := by decide

theorem yearStart_le_dayCount (date : Date) : yearStart date.year ≤ date.dayCount := by
  have hday := date.one_le_day
  have hmonth : 0 ≤ daysBeforeMonth date.year date.month := by
    obtain heq | hlt := date.one_le_month.eq_or_lt
    · rw [← heq]
      rfl
    · have hfirst := daysBeforeMonth_lt date.year le_rfl hlt
      have hlength := le_monthLength date.year 1
      rw [daysBeforeMonth] at hfirst
      omega
  unfold dayCount
  omega

theorem dayCount_lt_yearStart (date : Date) : date.dayCount < yearStart (date.year + 1) := by
  have hday := date.day_le
  have hrest := daysBeforeMonth_lt date.year date.one_le_month (Nat.lt_succ_of_le date.month_le)
  rw [daysBeforeMonth_thirteen] at hrest
  rw [yearStart_succ, dayCount]
  omega

theorem dayCount_next (date : Date) : date.next.dayCount = date.dayCount + 1 := by
  have hday := date.day_le
  unfold next
  split
  · simp only [dayCount]
    omega
  · rename_i hlast
    split
    · simp only [dayCount]
      rw [daysBeforeMonth_succ _ date.one_le_month]
      omega
    · have hmonth : date.month = 12 := by
        have := date.month_le
        omega
      have hyear := daysBeforeMonth_succ date.year date.one_le_month
      rw [hmonth, daysBeforeMonth_thirteen] at hyear
      rw [hmonth] at hday hlast
      simp only [dayCount, hmonth]
      rw [yearStart_succ, daysBeforeMonth]
      omega

theorem year_eq (h : yearStart year ≤ date.dayCount) (h' : date.dayCount < yearStart (year + 1)) :
    date.year = year := by
  have h₁ := date.yearStart_le_dayCount
  have h₂ := date.dayCount_lt_yearStart
  obtain hlt | heq | hlt := lt_trichotomy date.year year
  · obtain heq | hlt := (Int.add_one_le_of_lt hlt).eq_or_lt
    · rw [heq] at h₂
      omega
    · have := yearStart_lt hlt
      omega
  · exact heq
  · obtain heq | hlt := (Int.add_one_le_of_lt hlt).eq_or_lt
    · rw [heq] at h'
      omega
    · have := yearStart_lt hlt
      omega

theorem dayCount_injective : Function.Injective dayCount := by
  intro date date' h
  have hyear : date.year = date'.year :=
    year_eq (h ▸ date'.yearStart_le_dayCount) (h ▸ date'.dayCount_lt_yearStart)
  have hday := date.one_le_day
  have hday' := date'.one_le_day
  have hlast := date.day_le
  have hlast' := date'.day_le
  have hmonth : date.month = date'.month := by
    unfold dayCount at h
    rw [hyear] at h hlast
    obtain hlt | heq | hlt := lt_trichotomy date.month date'.month
    · have := daysBeforeMonth_lt date'.year date.one_le_month hlt
      omega
    · exact heq
    · have := daysBeforeMonth_lt date'.year date'.one_le_month hlt
      omega
  unfold dayCount at h
  rw [hyear, hmonth] at h
  exact Date.ext hyear hmonth (by omega)

theorem exists_previous (date : Date) : ∃ previous : Date, previous.dayCount = date.dayCount - 1 := by
  have hlength := le_monthLength date.year (date.month - 1)
  obtain heq | hlt := date.one_le_day.eq_or_lt
  · obtain hfirst | hlater := date.one_le_month.eq_or_lt
    · have hyear := yearStart_succ (date.year - 1)
      have hmonths := daysBeforeMonth_succ (date.year - 1) (show 1 ≤ 12 by decide)
      rw [daysBeforeMonth_thirteen] at hmonths
      rw [Int.sub_add_cancel] at hyear
      have hdecember := le_monthLength (date.year - 1) 12
      refine ⟨⟨date.year - 1, 12, monthLength (date.year - 1) 12, by decide, le_rfl, by omega, le_rfl⟩, ?_⟩
      have hjanuary : daysBeforeMonth date.year 1 = 0 := rfl
      simp only [dayCount, ← heq, ← hfirst, hjanuary]
      omega
    · have hmonths := daysBeforeMonth_succ date.year (show 1 ≤ date.month - 1 by omega)
      rw [Nat.sub_add_cancel date.one_le_month] at hmonths
      have hmonth := date.month_le
      refine ⟨⟨date.year, date.month - 1, monthLength date.year (date.month - 1), by omega, by omega,
        by omega, le_rfl⟩, ?_⟩
      simp only [dayCount]
      omega
  · have hday := date.day_le
    refine ⟨⟨date.year, date.month, date.day - 1, date.one_le_month, date.month_le, by omega,
      by omega⟩, ?_⟩
    simp only [dayCount]
    omega

theorem dayCount_surjective : Function.Surjective dayCount := by
  intro days
  induction days using Int.induction_on with
  | zero => exact ⟨epoch, dayCount_epoch⟩
  | succ n ih =>
    obtain ⟨date, hdate⟩ := ih
    exact ⟨date.next, by rw [dayCount_next, hdate]⟩
  | pred n ih =>
    obtain ⟨date, hdate⟩ := ih
    obtain ⟨previous, hprevious⟩ := date.exists_previous
    exact ⟨previous, by rw [hprevious, hdate]⟩

end Date

end GregorianCalendar
