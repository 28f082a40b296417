import Laterite.ClientConstants
import Laterite.NewYorkTime

/-!
# The regular session as the client computes it

Days, weekdays and daylight time are derived with division that rounds toward zero, and the
session is an interval of seconds rather than a time of day. The answer is the program's.
-/

namespace Laterite.Client

structure MarketCalendar where
  firstDay : ℤ
  validThrough : ℤ
  holidays : List UInt8
  earlyCloses : List UInt8

def MarketCalendar.of (calendar : Laterite.MarketCalendar) : MarketCalendar :=
  ⟨calendar.firstDay.toNat, calendar.validThrough.toNat, calendar.holidays.toList,
    calendar.earlyCloses.toList⟩

def hour : ℤ := 3600

/-- When the session opens, after midnight in New York. -/
def openTime : ℤ := 9 * hour + 30 * 60

def closeTime : ℤ := 16 * hour

def earlyCloseTime : ℤ := 13 * hour

structure MarketSession where
  closes : ℤ
  opens : ℤ

def divEuclid (value divisor : ℤ) : ℤ :=
  let quotient := value.tdiv divisor
  if value.tmod divisor < 0 then quotient - 1 else quotient

def isSet (bits : List UInt8) (index : ℕ) : Bool :=
  ((bits[index >>> 3]?.map UInt8.toNat).getD 0) &&& (1 <<< (index &&& 7)) ≠ 0

/-- Day of the week of a day count since 1970-01-01, a Thursday; 0 is Sunday. -/
def weekday (day : ℤ) : ℤ := ((day + 4).tmod 7 + 7).tmod 7

def monthDay (days : ℤ) : ℤ × ℤ :=
  let z := days + 719468
  let doe := (z.tmod 146097 + 146097).tmod 146097
  let yoe := (doe - doe.tdiv 1460 + doe.tdiv 36524 - doe.tdiv 146096).tdiv 365
  let doy := doe - (365 * yoe + yoe.tdiv 4 - yoe.tdiv 100)
  let mp := (5 * doy + 2).tdiv 153
  let day := doy - (153 * mp + 2).tdiv 5 + 1
  (if mp < 10 then mp + 3 else mp - 9, day)

/-- Daylight saving time runs from the second Sunday in March to the first in November. -/
def daylightTime (days dayOfWeek : ℤ) : Bool :=
  let (month, day) := monthDay days
  let firstWeekday := ((dayOfWeek - (day - 1)).tmod 7 + 7).tmod 7
  let firstSunday := 1 + (7 - firstWeekday).tmod 7
  if month ≥ 4 ∧ month ≤ 10 then true
  else if month = 3 then day ≥ firstSunday + 7
  else if month = 11 then day < firstSunday
  else false

def marketSession (day : ℤ) (calendar : MarketCalendar) : Option MarketSession :=
  if day < calendar.firstDay ∨ day > calendar.validThrough then none
  else
    let index := (day - calendar.firstDay).toNat
    let dayOfWeek := weekday day
    if dayOfWeek = 0 ∨ dayOfWeek = 6 ∨ isSet calendar.holidays index then none
    else
      let offset := if daylightTime day dayOfWeek then 4 * hour else 5 * hour
      let start := day * daySeconds + offset
      some {
        closes := start + if isSet calendar.earlyCloses index then earlyCloseTime else closeTime
        opens := start + openTime }

def usMarketOpen (now : ℤ) (calendar : MarketCalendar) : Bool :=
  match marketSession (divEuclid now daySeconds) calendar with
  | none => false
  | some session => now ≥ session.opens ∧ now < session.closes

theorem divEuclid_eq (value : ℤ) {divisor : ℤ} (h : 0 < divisor) :
    divEuclid value divisor = value / divisor := TruncatedDivision.tdiv_floor h

theorem weekday_eq (day : ℤ) : weekday day = Laterite.weekday day :=
  TruncatedDivision.tmod_floor (by decide)

theorem isSet_eq (bits : Vector UInt8 (Laterite.calendarDays / 8)) (index : ℕ) :
    isSet bits.toList index = Laterite.isSet bits index := by
  have hbyte : index >>> 3 = index / 8 := Nat.shiftRight_eq_div_pow index 3
  have hbit : index &&& 7 = index % 8 := Nat.and_two_pow_sub_one_eq_mod index 3
  have hlt : index % 8 < 8 := Nat.mod_lt _ (by decide)
  unfold isSet Laterite.isSet
  rw [hbyte, hbit, Vector.getElem?_toList]
  cases bits[index / 8]? with
  | none => simp
  | some byte =>
    have hshift : (1 <<< UInt8.ofNat (index % 8) : UInt8).toNat = 1 <<< (index % 8) := by
      generalize index % 8 = bit at hlt
      interval_cases bit <;> rfl
    rw [Option.map_some, Option.getD_some, ← hshift, ← UInt8.toNat_and]
    exact decide_eq_decide.mpr (not_congr (UInt8.toNat_inj (b := 0)))

theorem monthDay_eq (days : ℤ) : monthDay days = Laterite.monthDay days := by
  rcases exists_eraBounds days with ⟨era, century, cycle, year, doy, h, hdays⟩
  have hyear := h.year_eq
  rcases h with ⟨hc, hq, hs, hdoy, hleap⟩
  have hera : (days + 719468) % 146097 = dayOfEra century cycle year doy := by
    unfold dayOfEra at hdays ⊢
    omega
  have hdoe : ((days + 719468).tmod 146097 + 146097).tmod 146097 = dayOfEra century cycle year doy :=
    (TruncatedDivision.tmod_floor (by decide)).trans hera
  have hnonneg : 0 ≤ dayOfEra century cycle year doy := by
    unfold dayOfEra
    omega
  have hsum : 0 ≤ dayOfEra century cycle year doy - dayOfEra century cycle year doy / 1460 +
      dayOfEra century cycle year doy / 36524 - dayOfEra century cycle year doy / 146096 := by
    omega
  have hyoe : 0 ≤ 100 * century + 4 * cycle + year := by omega
  have hfour : (100 * century + 4 * cycle + year) / 4 = 25 * century + cycle := by omega
  have hhundred : (100 * century + 4 * cycle + year) / 100 = century := by omega
  have hday : dayOfEra century cycle year doy -
      (365 * (100 * century + 4 * cycle + year) + (25 * century + cycle) - century) = doy := by
    unfold dayOfEra
    omega
  have hmonth : 0 ≤ 5 * doy + 2 := by omega
  have hstart : 0 ≤ 153 * ((5 * doy + 2) / 153) + 2 := by omega
  have htdiv {x y : ℤ} (hx : 0 ≤ x) : x.tdiv y = x / y := Int.tdiv_eq_ediv_of_nonneg hx
  unfold monthDay Laterite.monthDay
  simp only [hdoe, hera, htdiv hnonneg, htdiv hsum, hyear, htdiv hyoe, hfour, hhundred, hday,
    htdiv hmonth, htdiv hstart]

theorem daylightTime_eq (days dayOfWeek : ℤ) :
    daylightTime days dayOfWeek = usDaylightTime days dayOfWeek := by
  have hfirst (x : ℤ) : (x.tmod 7 + 7).tmod 7 = x % 7 := TruncatedDivision.tmod_floor (by decide)
  have hsunday (x : ℤ) : (7 - x % 7).tmod 7 = (7 - x % 7) % 7 :=
    Int.tmod_eq_emod_of_nonneg (by omega)
  unfold daylightTime usDaylightTime
  simp only [monthDay_eq, hfirst, hsunday, ge_iff_le]

theorem usMarketOpen_eq (now : ℤ) (calendar : Laterite.MarketCalendar) :
    usMarketOpen now (MarketCalendar.of calendar) = Laterite.usMarketOpen now calendar := by
  have hday : divEuclid now daySeconds = now / Laterite.daySeconds := divEuclid_eq now (by decide)
  unfold usMarketOpen marketSession Laterite.usMarketOpen Laterite.MarketCalendar.index
  rw [hday]
  simp only [MarketCalendar.of, weekday_eq, daylightTime_eq, isSet_eq]
  generalize hdays : now / Laterite.daySeconds = days
  by_cases hcovered : (calendar.firstDay.toNat : ℤ) ≤ days ∧ days ≤ calendar.validThrough.toNat
  · rw [if_pos hcovered, if_neg (by omega)]
    dsimp only
    by_cases hshut : Laterite.weekday days = 0 ∨ Laterite.weekday days = 6 ∨
        Laterite.isSet calendar.holidays (days - calendar.firstDay.toNat).toNat = true
    · rw [if_pos hshut, if_pos hshut]
    · rw [if_neg hshut, if_neg hshut]
      have hseconds : now = days * daySeconds + now % Laterite.daySeconds := by
        rw [← hdays, Int.mul_comm]
        exact (Int.mul_ediv_add_emod now Laterite.daySeconds).symm
      generalize now % Laterite.daySeconds = seconds at hseconds
      rw [hseconds]
      unfold openTime closeTime earlyCloseTime sessionOpen sessionClose sessionEarlyClose hour
        hourSeconds
      by_cases hdaylight : usDaylightTime days (Laterite.weekday days) = true <;>
        by_cases hearly : Laterite.isSet calendar.earlyCloses
          (days - calendar.firstDay.toNat).toNat = true
      all_goals
        simp only [hdaylight, hearly, if_true, if_false, Bool.false_eq_true]
        apply decide_eq_decide.mpr
        omega
  · rw [if_neg hcovered, if_pos (by omega)]

end Laterite.Client
