import Laterite.GregorianCalendar
import Laterite.MarketSession
import Mathlib.Data.Nat.Bitwise

/-!
# New York civil time

The market's hours are New York's: standard time is five hours behind UTC, daylight time
four, from 2:00 on the second Sunday of March to 2:00 on the first Sunday of November. The
program reads the UTC day instead of the local date; on the days the market can open the
two agree.
-/

namespace Laterite

open GregorianCalendar

def marchMonthDay (doy : ℤ) : ℤ × ℤ :=
  let mp := (5 * doy + 2) / 153
  (if mp < 10 then mp + 3 else mp - 9, doy - (153 * mp + 2) / 5 + 1)

/-- A quotient by parts: the divisor's multiple and a remainder below it. -/
theorem ediv_eq {divisor quotient rest : ℤ} (h : 0 ≤ rest) (hrest : rest < divisor) :
    (divisor * quotient + rest) / divisor = quotient := by
  rw [Int.add_comm, Int.add_mul_ediv_left _ _ (by omega), Int.ediv_eq_zero_of_lt h hrest, Int.zero_add]

section YearOfEra

variable {century cycle year doy : ℤ}

/-- The days of a 400-year era before a day, given the cycles of 100, 4 and 1 years it is in. -/
def dayOfEra (century cycle year doy : ℤ) : ℤ := 36524 * century + 1461 * cycle + 365 * year + doy

structure EraBounds (century cycle year doy : ℤ) : Prop where
  century_mem : 0 ≤ century ∧ century ≤ 3
  cycle_mem : 0 ≤ cycle ∧ cycle ≤ 24
  year_mem : 0 ≤ year ∧ year ≤ 3
  doy_mem : 0 ≤ doy ∧ doy ≤ 365
  leap : doy = 365 → year = 3 ∧ (cycle < 24 ∨ century = 3)

theorem EraBounds.century_eq (h : EraBounds century cycle year doy) :
    dayOfEra century cycle year doy / 36524 - dayOfEra century cycle year doy / 146096 = century := by
  obtain ⟨hcentury, hcycle, hyear, hdoy, hleap⟩ := h
  by_cases hlast : dayOfEra century cycle year doy = 146096
  · have : century = 3 := by
      unfold dayOfEra at hlast
      omega
    rw [hlast, this]
    rfl
  · have hrest : 1461 * cycle + 365 * year + doy < 36524 := by
      unfold dayOfEra at hlast
      omega
    have hera : dayOfEra century cycle year doy / 146096 = 0 := by
      refine Int.ediv_eq_zero_of_lt ?_ ?_ <;> unfold dayOfEra <;> omega
    have hcount : dayOfEra century cycle year doy =
        36524 * century + (1461 * cycle + 365 * year + doy) := by
      unfold dayOfEra
      omega
    rw [hera, hcount, ediv_eq (by omega) hrest, Int.sub_zero]

theorem EraBounds.year_eq (h : EraBounds century cycle year doy) :
    (dayOfEra century cycle year doy - dayOfEra century cycle year doy / 1460 +
      dayOfEra century cycle year doy / 36524 - dayOfEra century cycle year doy / 146096) / 365 =
        100 * century + 4 * cycle + year := by
  have hcentury := h.century_eq
  have hquotient : dayOfEra century cycle year doy / 1460 =
      25 * century + cycle + (24 * century + cycle + 365 * year + doy) / 1460 := by
    have hcount : dayOfEra century cycle year doy =
        1460 * (25 * century + cycle) + (24 * century + cycle + 365 * year + doy) := by
      unfold dayOfEra
      omega
    rw [hcount, Int.add_comm, Int.add_mul_ediv_left _ _ (by decide), Int.add_comm]
  obtain ⟨hc, hq, hs, hdoy, hleap⟩ := h
  have hover : 0 ≤ doy - (24 * century + cycle + 365 * year + doy) / 1460 ∧
      doy - (24 * century + cycle + 365 * year + doy) / 1460 < 365 := by
    omega
  have hsum : dayOfEra century cycle year doy - dayOfEra century cycle year doy / 1460 +
      dayOfEra century cycle year doy / 36524 - dayOfEra century cycle year doy / 146096 =
        365 * (100 * century + 4 * cycle + year) +
          (doy - (24 * century + cycle + 365 * year + doy) / 1460) := by
    rw [hquotient]
    unfold dayOfEra at *
    omega
  rw [hsum, ediv_eq hover.1 hover.2]

theorem exists_eraBounds (days : ℤ) : ∃ era century cycle year doy, EraBounds century cycle year doy ∧
    days = 146097 * era + dayOfEra century cycle year doy - 719468 := by
  have hcentury : ∃ century, 0 ≤ century ∧ century ≤ 3 ∧
      0 ≤ (days + 719468) % 146097 - 36524 * century ∧
      (days + 719468) % 146097 - 36524 * century ≤ 36524 ∧
      (century < 3 → (days + 719468) % 146097 - 36524 * century < 36524) :=
    ⟨min ((days + 719468) % 146097 / 36524) 3, by omega⟩
  rcases hcentury with ⟨century, hcentury, hcentury', hrest, hrest', hlast⟩
  generalize hday : (days + 719468) % 146097 - 36524 * century = rest at hrest hrest' hlast
  have hyear : ∃ year, 0 ≤ year ∧ year ≤ 3 ∧ 0 ≤ rest % 1461 - 365 * year ∧
      rest % 1461 - 365 * year ≤ 365 ∧ (rest % 1461 - 365 * year = 365 → year = 3) :=
    ⟨min (rest % 1461 / 365) 3, by omega⟩
  rcases hyear with ⟨year, hyear, hyear', hdoy, hdoy', hleap⟩
  refine ⟨(days + 719468) / 146097, century, rest / 1461, year, rest % 1461 - 365 * year,
    ⟨⟨hcentury, hcentury'⟩, ⟨by omega, by omega⟩, ⟨hyear, hyear'⟩, ⟨hdoy, hdoy'⟩, ?_⟩, ?_⟩
  · intro h
    have := hleap h
    omega
  · unfold dayOfEra
    omega

end YearOfEra

theorem monthDay_eq {days era century cycle year doy : ℤ} (h : EraBounds century cycle year doy)
    (hdays : days = 146097 * era + dayOfEra century cycle year doy - 719468) :
    monthDay days = marchMonthDay doy := by
  have hyear := h.year_eq
  obtain ⟨hc, hq, hs, hdoy, hleap⟩ := h
  have hbound : 0 ≤ dayOfEra century cycle year doy ∧ dayOfEra century cycle year doy < 146097 := by
    unfold dayOfEra
    omega
  have hdoe : (days + 719468) % 146097 = dayOfEra century cycle year doy := by
    rw [hdays, Int.sub_add_cancel, Int.mul_add_emod_self_left, Int.emod_eq_of_lt hbound.1 hbound.2]
  have hfour : (100 * century + 4 * cycle + year) / 4 = 25 * century + cycle := by
    omega
  have hhundred : (100 * century + 4 * cycle + year) / 100 = century := by
    omega
  have hday : dayOfEra century cycle year doy -
      (365 * (100 * century + 4 * cycle + year) + (25 * century + cycle) - century) = doy := by
    unfold dayOfEra
    omega
  unfold monthDay
  simp only [hdoe, hyear, hfour, hhundred, hday]
  rfl

def daysBeforeMarch (year : ℤ) : ℤ := if IsLeap year then 60 else 59

theorem monthDay_march {year doy : ℤ} (hdoy : 0 ≤ doy ∧ doy ≤ 365)
    (hleap : doy = 365 → IsLeap (year + 1)) :
    monthDay (yearStart year + daysBeforeMarch year + doy) = marchMonthDay doy := by
  have hbounds : EraBounds (year % 400 / 100) (year % 100 / 4) (year % 4) doy := by
    refine ⟨by omega, by omega, by omega, hdoy, fun h => ?_⟩
    have := hleap h
    unfold IsLeap at this
    omega
  have hdays : yearStart year + daysBeforeMarch year + doy = 146097 * (year / 400) +
      dayOfEra (year % 400 / 100) (year % 100 / 4) (year % 4) doy - 719468 := by
    unfold yearStart daysBeforeMarch dayOfEra
    by_cases h : IsLeap year
    · rw [if_pos h]
      unfold IsLeap at h
      omega
    · rw [if_neg h]
      unfold IsLeap at h
      omega
  exact monthDay_eq hbounds hdays

theorem yearLength_eq (year : ℤ) : yearLength year = 306 + daysBeforeMarch year := by
  by_cases h : IsLeap year <;> simp [yearLength, daysBeforeMarch, h]

/-- Counted from March, the months begin at regular steps, and none outlasts its step. -/
theorem daysBeforeMonth_march (year : ℤ) {month : ℕ} (h : 3 ≤ month) (h' : month ≤ 12) :
    daysBeforeMonth year month = daysBeforeMarch year + (153 * (↑month - 3) + 2) / 5 ∧
      5 * monthLength year month ≤ 153 + (153 * (↑month - 3) + 2) % 5 := by
  by_cases hleap : IsLeap year <;> interval_cases month <;>
    simp [daysBeforeMonth, monthLength, daysBeforeMarch, hleap]

theorem daysBeforeMonth_early (year : ℤ) {month : ℕ} (h : 1 ≤ month) (h' : month < 3) :
    306 + daysBeforeMonth year month = (153 * (↑month + 9) + 2) / 5 ∧
      5 * monthLength year month ≤ 153 + (153 * (↑month + 9) + 2) % 5 ∧
      306 + daysBeforeMonth year month + monthLength year month ≤ 366 := by
  by_cases hleap : IsLeap year <;> interval_cases month <;>
    simp [daysBeforeMonth, monthLength, hleap]

theorem marchMonthDay_eq {mp day : ℤ} (hday : 1 ≤ day) (hstep : 5 * day ≤ 153 + (153 * mp + 2) % 5) :
    marchMonthDay ((153 * mp + 2) / 5 + day - 1) = (if mp < 10 then mp + 3 else mp - 9, day) := by
  have hquotient : (5 * ((153 * mp + 2) / 5 + day - 1) + 2) / 153 = mp := by
    omega
  have hrest : (153 * mp + 2) / 5 + day - 1 - (153 * mp + 2) / 5 + 1 = day := by
    omega
  simp only [marchMonthDay, hquotient, hrest]

theorem monthDay_dayCount (date : Date) : monthDay date.dayCount = (↑date.month, date.day) := by
  obtain ⟨year, month, day, hmonth, hmonth', hday, hday'⟩ := date
  by_cases hearly : month < 3
  · obtain ⟨hbefore, hlength, hyear⟩ := daysBeforeMonth_early year hmonth hearly
    have hlast := yearStart_succ (year - 1)
    rw [Int.sub_add_cancel, yearLength_eq] at hlast
    have hcount : (Date.mk year month day hmonth hmonth' hday hday').dayCount =
        yearStart (year - 1) + daysBeforeMarch (year - 1) +
          ((153 * (↑month + 9) + 2) / 5 + day - 1) := by
      simp only [Date.dayCount]
      omega
    rw [hcount, monthDay_march (by omega) ?_, marchMonthDay_eq hday (by omega), if_neg (by omega)]
    · simp
    · intro hlastDay
      by_contra hleap
      rw [Int.sub_add_cancel] at hleap
      interval_cases month
      · simp only [monthLength] at hday'
        omega
      · simp only [monthLength, hleap, if_false] at hday'
        omega
  · obtain ⟨hbefore, hlength⟩ := daysBeforeMonth_march year (not_lt.mp hearly) hmonth'
    have hcount : (Date.mk year month day hmonth hmonth' hday hday').dayCount =
        yearStart year + daysBeforeMarch year + ((153 * (↑month - 3) + 2) / 5 + day - 1) := by
      simp only [Date.dayCount]
      omega
    rw [hcount, monthDay_march (by omega) (by omega), marchMonthDay_eq hday (by omega),
      if_pos (by omega)]
    simp

/-- The Sunday of a month whose day is at least `first` and within the week from it. -/
structure IsSunday (year : ℤ) (month : ℕ) (first : ℤ) (date : Date) : Prop where
  year_eq : date.year = year
  month_eq : date.month = month
  first_le : first ≤ date.day
  day_lt : date.day < first + 7
  weekday_eq : weekday date.dayCount = 0

/-- Daylight time begins at 2:00 standard time on the second Sunday of March and ends at 2:00
daylight time on the first Sunday of November. -/
def IsDaylightTime (instant : ℤ) : Prop :=
  ∃ year spring fall, IsSunday year 3 8 spring ∧ IsSunday year 11 1 fall ∧
    spring.dayCount * daySeconds + (2 + 5) * hourSeconds ≤ instant ∧
    instant < fall.dayCount * daySeconds + (2 + 4) * hourSeconds

theorem exists_sunday (year : ℤ) (month : ℕ) (first : ℤ) (hmonth : 1 ≤ month)
    (hmonth' : month ≤ 12) (h : 1 ≤ first) (h' : first ≤ 22) : ∃ date, IsSunday year month first date := by
  have hlength := le_monthLength year month
  have hday : first ≤ first + 6 - (yearStart year + daysBeforeMonth year month + first + 9) % 7 := by
    omega
  refine ⟨⟨year, month, first + 6 - (yearStart year + daysBeforeMonth year month + first + 9) % 7,
    hmonth, hmonth', by omega, by omega⟩, rfl, rfl, hday, ?_, ?_⟩
  · simp only
    omega
  · simp only [weekday, Date.dayCount]
    omega

theorem dayCount_march {date : Date} (h : 3 ≤ date.month) :
    date.dayCount = yearStart date.year + daysBeforeMarch date.year +
      (153 * (↑date.month - 3) + 2) / 5 + date.day - 1 := by
  have hbefore := (daysBeforeMonth_march date.year h date.month_le).1
  unfold Date.dayCount
  omega

theorem dayCount_lt_march {date : Date} (h : date.month < 3) :
    date.dayCount < yearStart date.year + daysBeforeMarch date.year := by
  have hbefore := daysBeforeMonth_lt date.year date.one_le_month h
  have hmarch := (daysBeforeMonth_march date.year le_rfl (by decide)).1
  have hday := date.day_le
  unfold Date.dayCount
  omega

theorem IsSunday.dayCount_eq {year first : ℤ} {month : ℕ} {date : Date}
    (h : IsSunday year month first date) (hmonth : 3 ≤ month) :
    date.dayCount = yearStart year + daysBeforeMarch year + (153 * (↑month - 3) + 2) / 5 +
      date.day - 1 := by
  have hcount := @dayCount_march date (h.month_eq ▸ hmonth)
  rw [h.year_eq, h.month_eq] at hcount
  exact hcount

theorem usDaylightTime_eq (date : Date) (weekday : ℤ) :
    usDaylightTime date.dayCount weekday =
      if 4 ≤ (date.month : ℤ) ∧ (date.month : ℤ) ≤ 10 then true
      else if (date.month : ℤ) = 3 then
        decide (date.day ≥ 1 + (7 - (weekday - (date.day - 1)) % 7) % 7 + 7)
      else if (date.month : ℤ) = 11 then
        decide (date.day < 1 + (7 - (weekday - (date.day - 1)) % 7) % 7)
      else false := by
  unfold usDaylightTime
  rw [monthDay_dayCount]

theorem usDaylightTime_between {date spring fall : Date} (hday : weekday date.dayCount ≠ 0)
    (hspring : IsSunday date.year 3 8 spring) (hfall : IsSunday date.year 11 1 fall) :
    usDaylightTime date.dayCount (weekday date.dayCount) = true ↔
      spring.dayCount < date.dayCount ∧ date.dayCount < fall.dayCount := by
  have hspringCount := hspring.dayCount_eq le_rfl
  have hfallCount := hfall.dayCount_eq (by decide)
  have hspringSunday := hspring.weekday_eq
  have hfallSunday := hfall.weekday_eq
  have hspringDay := And.intro hspring.first_le hspring.day_lt
  have hfallDay := And.intro hfall.first_le hfall.day_lt
  have hone := date.one_le_day
  have hlast := date.month_le
  rw [usDaylightTime_eq]
  unfold weekday at *
  by_cases hearly : date.month < 3
  · have hbefore := dayCount_lt_march hearly
    rw [if_neg (by omega), if_neg (by omega), if_neg (by omega)]
    simp only [Bool.false_eq_true, false_iff]
    omega
  · have hcount := dayCount_march (not_lt.mp hearly)
    have hlength := (daysBeforeMonth_march date.year (not_lt.mp hearly) hlast).2
    have hdayLe := date.day_le
    by_cases hsummer : 4 ≤ date.month ∧ date.month ≤ 10
    · rw [if_pos (by omega)]
      simp only [true_iff]
      omega
    · rw [if_neg (by omega)]
      by_cases hmarch : date.month = 3
      · rw [if_pos (by omega), decide_eq_true_iff]
        rw [hmarch] at hcount
        omega
      · rw [if_neg (by omega)]
        by_cases hnovember : date.month = 11
        · rw [if_pos (by omega), decide_eq_true_iff]
          rw [hnovember] at hcount
          omega
        · have hdecember : date.month = 12 := by omega
          rw [if_neg (by omega)]
          simp only [Bool.false_eq_true, false_iff]
          rw [hdecember] at hcount
          omega

/-- On a day that is no Sunday, the program's test is whether daylight time is in force, all
day long. -/
theorem usDaylightTime_iff {instant : ℤ} (hday : weekday (instant / daySeconds) ≠ 0) :
    usDaylightTime (instant / daySeconds) (weekday (instant / daySeconds)) = true ↔
      IsDaylightTime instant := by
  obtain ⟨date, hdate⟩ := Date.dayCount_surjective (instant / daySeconds)
  have hspringDay (spring : Date) (h : weekday spring.dayCount = 0) :
      spring.dayCount < date.dayCount ↔
        spring.dayCount * daySeconds + (2 + 5) * hourSeconds ≤ instant := by
    have hne : spring.dayCount ≠ date.dayCount := fun heq => hday (by rw [← hdate, ← heq, h])
    unfold daySeconds hourSeconds at *
    omega
  have hfallDay (fall : Date) (h : weekday fall.dayCount = 0) :
      date.dayCount < fall.dayCount ↔
        instant < fall.dayCount * daySeconds + (2 + 4) * hourSeconds := by
    have hne : fall.dayCount ≠ date.dayCount := fun heq => hday (by rw [← hdate, ← heq, h])
    unfold daySeconds hourSeconds at *
    omega
  rw [← hdate] at hday ⊢
  constructor
  · intro hdaylight
    obtain ⟨spring, hspring⟩ := exists_sunday date.year 3 8 (by decide) (by decide) (by decide) (by decide)
    obtain ⟨fall, hfall⟩ := exists_sunday date.year 11 1 (by decide) (by decide) (by decide) (by decide)
    obtain ⟨h, h'⟩ := (usDaylightTime_between hday hspring hfall).mp hdaylight
    exact ⟨date.year, spring, fall, hspring, hfall, (hspringDay spring hspring.weekday_eq).mp h,
      (hfallDay fall hfall.weekday_eq).mp h'⟩
  · rintro ⟨year, spring, fall, hspring, hfall, h, h'⟩
    have hbegun := (hspringDay spring hspring.weekday_eq).mpr h
    have hnotEnded := (hfallDay fall hfall.weekday_eq).mpr h'
    have hyear : date.year = year := by
      refine Date.year_eq ?_ ?_
      · exact hspring.year_eq ▸ spring.yearStart_le_dayCount.trans hbegun.le
      · exact hfall.year_eq ▸ hnotEnded.trans fall.dayCount_lt_yearStart
    subst hyear
    exact (usDaylightTime_between hday hspring hfall).mpr ⟨hbegun, hnotEnded⟩

open Classical in
noncomputable def newYorkTime (instant : ℤ) : ℤ :=
  instant - if IsDaylightTime instant then 4 * hourSeconds else 5 * hourSeconds

def MarketCalendar.Marks (self : MarketCalendar) (bits : Vector UInt8 (calendarDays / 8)) (day : ℤ) :
    Prop :=
  ∃ byte, bits[(day - self.firstDay.toNat).toNat / 8]? = some byte ∧
    byte.toNat.testBit ((day - self.firstDay.toNat).toNat % 8) = true

structure InSession (calendar : MarketCalendar) (day seconds : ℤ) : Prop where
  weekday : 1 ≤ weekday day ∧ weekday day ≤ 5
  covered : (calendar.firstDay.toNat : ℤ) ≤ day ∧ day ≤ calendar.validThrough.toNat
  notHoliday : ¬calendar.Marks calendar.holidays day
  opened : 9 * hourSeconds + 30 * 60 ≤ seconds
  notClosed : seconds < 16 * hourSeconds
  notClosedEarly : calendar.Marks calendar.earlyCloses day → seconds < 13 * hourSeconds

theorem and_shiftLeft_ne_zero {byte : UInt8} {place : ℕ} (h : place < 8) :
    byte &&& (1 <<< UInt8.ofNat place) ≠ 0 ↔ byte.toNat.testBit place = true := by
  have hshift : ((1 : UInt8) <<< UInt8.ofNat place).toNat = 2 ^ place := by
    interval_cases place <;> rfl
  rw [Ne, ← UInt8.toNat_inj, UInt8.toNat_and, hshift, Nat.land_comm, Nat.two_pow_and]
  cases byte.toNat.testBit place <;> simp

theorem isSet_iff {calendar : MarketCalendar} {bits : Vector UInt8 (calendarDays / 8)} {day : ℤ} :
    isSet bits (day - calendar.firstDay.toNat).toNat = true ↔ calendar.Marks bits day := by
  unfold isSet MarketCalendar.Marks
  cases bits[(day - calendar.firstDay.toNat).toNat / 8]? with
  | none => simp
  | some byte => simp [← and_shiftLeft_ne_zero (Nat.mod_lt _ (by decide : 8 > 0))]

theorem index_eq_some {calendar : MarketCalendar} {day : ℤ} {index : ℕ} :
    calendar.index day = some index ↔
      ((calendar.firstDay.toNat : ℤ) ≤ day ∧ day ≤ calendar.validThrough.toNat) ∧
        (day - calendar.firstDay.toNat).toNat = index := by
  unfold MarketCalendar.index
  split <;> simp [*]

theorem usMarketOpen_iff {now offset : ℤ} {calendar : MarketCalendar}
    (hoffset : offset = if usDaylightTime (now / daySeconds) (weekday (now / daySeconds)) then
      4 * hourSeconds else 5 * hourSeconds) :
    usMarketOpen now calendar = true ↔
      InSession calendar (now / daySeconds) (now % daySeconds - offset) := by
  have hweek : 0 ≤ weekday (now / daySeconds) ∧ weekday (now / daySeconds) < 7 := by
    unfold weekday
    omega
  cases hindex : calendar.index (now / daySeconds) with
  | none =>
    simp only [usMarketOpen, hindex, Bool.false_eq_true, false_iff]
    intro h
    simp [MarketCalendar.index, h.covered] at hindex
  | some index =>
    obtain ⟨hcovered, rfl⟩ := index_eq_some.mp hindex
    simp only [usMarketOpen, hindex, ← hoffset]
    by_cases hclosed : weekday (now / daySeconds) = 0 ∨ weekday (now / daySeconds) = 6 ∨
        isSet calendar.holidays (now / daySeconds - calendar.firstDay.toNat).toNat = true
    · rw [if_pos hclosed]
      simp only [Bool.false_eq_true, false_iff]
      intro h
      have hholiday := isSet_iff.not.mpr h.notHoliday
      have hweekday := h.weekday
      simp only [hholiday, or_false, Bool.false_eq_true] at hclosed
      omega
    · rw [if_neg hclosed, decide_eq_true_iff]
      simp only [not_or, isSet_iff] at hclosed
      obtain ⟨hsunday, hsaturday, hholiday⟩ := hclosed
      unfold sessionOpen sessionClose sessionEarlyClose
      constructor
      · rintro ⟨hopened, hnotClosed⟩
        refine ⟨by omega, hcovered, hholiday, by omega, ?_, fun hearly => ?_⟩
        · split at hnotClosed <;> unfold hourSeconds at * <;> omega
        · rw [if_pos (isSet_iff.mpr hearly)] at hnotClosed
          omega
      · intro h
        refine ⟨by have := h.opened; omega, ?_⟩
        split
        · have := h.notClosedEarly (isSet_iff.mp ‹_›)
          omega
        · have := h.notClosed
          omega

theorem newYorkTime_bounds (instant : ℤ) :
    newYorkTime instant + 4 * hourSeconds ≤ instant ∧ instant ≤ newYorkTime instant + 5 * hourSeconds := by
  unfold newYorkTime hourSeconds
  split <;> omega

theorem newYorkTime_eq {instant : ℤ} (hday : weekday (instant / daySeconds) ≠ 0) :
    newYorkTime instant =
      instant - if usDaylightTime (instant / daySeconds) (weekday (instant / daySeconds)) then
        4 * hourSeconds else 5 * hourSeconds := by
  rw [newYorkTime]
  by_cases h : IsDaylightTime instant
  · rw [if_pos h, if_pos ((usDaylightTime_iff hday).mpr h)]
  · rw [if_neg h, if_neg fun hday' => h ((usDaylightTime_iff hday).mp hday')]

/-- While the session lasts, New York's date is the UTC day. -/
theorem newYorkTime_day {instant : ℤ} (h : newYorkTime instant % daySeconds < 16 * hourSeconds) :
    newYorkTime instant / daySeconds = instant / daySeconds := by
  have hbounds := newYorkTime_bounds instant
  unfold daySeconds hourSeconds at *
  omega

/-- The market is open exactly in a regular session of New York's calendar and clock. The month
and day of every day count are the Gregorian ones, and reading the UTC day in place of the local
date never changes the answer. -/
theorem usMarketOpen_newYork (now : ℤ) (calendar : MarketCalendar) :
    (usMarketOpen now calendar = true ↔
      InSession calendar (newYorkTime now / daySeconds) (newYorkTime now % daySeconds)) ∧
    (InSession calendar (now / daySeconds) (newYorkTime now % daySeconds) ↔
      InSession calendar (newYorkTime now / daySeconds) (newYorkTime now % daySeconds)) ∧
    ∀ days, ∃ date : Date, date.dayCount = days ∧ (∀ other : Date, other.dayCount = days → other = date) ∧
      monthDay days = (↑date.month, date.day) := by
  have hsame : InSession calendar (now / daySeconds) (newYorkTime now % daySeconds) ↔
      InSession calendar (newYorkTime now / daySeconds) (newYorkTime now % daySeconds) :=
    ⟨fun h => newYorkTime_day h.notClosed ▸ h, fun h => newYorkTime_day h.notClosed ▸ h⟩
  refine ⟨?_, hsame, fun days => ?_⟩
  · rw [← hsame, usMarketOpen_iff rfl]
    constructor
    · intro h
      have hlocal := @newYorkTime_eq now (by have := h.weekday; omega)
      have hopened := h.opened
      have hnotClosed := h.notClosed
      have hseconds : newYorkTime now % daySeconds = now % daySeconds -
          if usDaylightTime (now / daySeconds) (weekday (now / daySeconds)) then
            4 * hourSeconds else 5 * hourSeconds := by
        rw [hlocal]
        unfold daySeconds hourSeconds at *
        omega
      exact hseconds ▸ h
    · intro h
      have hlocal := @newYorkTime_eq now (by have := h.weekday; omega)
      have hbounds := newYorkTime_bounds now
      have hnotClosed := h.notClosed
      have hseconds : newYorkTime now % daySeconds = now % daySeconds -
          if usDaylightTime (now / daySeconds) (weekday (now / daySeconds)) then
            4 * hourSeconds else 5 * hourSeconds := by
        rw [hlocal] at hbounds hnotClosed ⊢
        unfold daySeconds hourSeconds at *
        omega
      exact hseconds ▸ h
  · obtain ⟨date, rfl⟩ := Date.dayCount_surjective days
    exact ⟨date, rfl, fun _ h => Date.dayCount_injective h, monthDay_dayCount date⟩

end Laterite
