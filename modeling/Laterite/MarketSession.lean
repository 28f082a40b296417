import Laterite.ProgramState

/-!
# The regular US equity session

From the clock and the NYSE calendar kept in the config. Days count from 1970-01-01; the
quotients and remainders round down, as Euclidean division by a positive number does.
-/

namespace Laterite

open CheckedComputation

def hourSeconds : ℤ := 60 * 60

def sessionOpen : ℤ := 9 * hourSeconds + 30 * 60

def sessionClose : ℤ := 16 * hourSeconds

def sessionEarlyClose : ℤ := 13 * hourSeconds

/-- Day of the week of a day count since 1970-01-01, a Thursday; 0 is Sunday. -/
def weekday (days : ℤ) : ℤ := (days + 4) % 7

def monthDay (days : ℤ) : ℤ × ℤ :=
  let z := days + 719468
  let doe := z % 146097
  let yoe := (doe - doe / 1460 + doe / 36524 - doe / 146096) / 365
  let doy := doe - (365 * yoe + yoe / 4 - yoe / 100)
  let mp := (5 * doy + 2) / 153
  let day := doy - (153 * mp + 2) / 5 + 1
  let month := if mp < 10 then mp + 3 else mp - 9
  (month, day)

/-- Daylight saving time runs from the second Sunday in March to the first in November. -/
def usDaylightTime (days weekday : ℤ) : Bool :=
  let (month, day) := monthDay days
  let firstWeekday := (weekday - (day - 1)) % 7
  let firstSunday := 1 + (7 - firstWeekday) % 7
  if 4 ≤ month ∧ month ≤ 10 then true
  else if month = 3 then day ≥ firstSunday + 7
  else if month = 11 then day < firstSunday
  else false

/-- Bit `index` of a bitmap, unset past its end. -/
def isSet (bits : Vector UInt8 (calendarDays / 8)) (index : ℕ) : Bool :=
  match bits[index / 8]? with
  | some byte => byte &&& (1 <<< UInt8.ofNat (index % 8)) ≠ 0
  | none => false

def MarketCalendar.index (self : MarketCalendar) (day : ℤ) : Option ℕ :=
  if (self.firstDay.toNat : ℤ) ≤ day ∧ day ≤ self.validThrough.toNat then
    some (day - self.firstDay.toNat).toNat
  else none

def usMarketOpen (now : ℤ) (calendar : MarketCalendar) : Bool :=
  let days := now / daySeconds
  let weekday := weekday days
  match calendar.index days with
  | none => false
  | some index =>
    if weekday = 0 ∨ weekday = 6 ∨ isSet calendar.holidays index then false
    else
      let offset := if usDaylightTime days weekday then 4 * hourSeconds else 5 * hourSeconds
      let close := if isSet calendar.earlyCloses index then sessionEarlyClose else sessionClose
      sessionOpen + offset ≤ now % daySeconds ∧ now % daySeconds < close + offset

/-- Sets bit `index` of a bitmap; past its end the index aborts. -/
def setBit (bits : Vector UInt8 (calendarDays / 8)) (index : ℕ) :
    Result (Vector UInt8 (calendarDays / 8)) := do
  let byte ← orPanic bits[index / 8]?
  return bits.setIfInBounds (index / 8) (byte ||| (1 <<< UInt8.ofNat (index % 8)))

/-- Marks one closure: a weekday, at most `calendarMaxAgeDays` old and not after `last`. A
closure before today is checked but not kept. -/
def markDay (today last day : ℤ) (bits : Vector UInt8 (calendarDays / 8)) :
    Result (Vector UInt8 (calendarDays / 8)) := do
  require ((I64.saturatingSub today calendarMaxAgeDays ≤ day ∧ day ≤ last) ∧
      1 ≤ weekday day ∧ weekday day ≤ 5) LateriteError.implausibleMarketDay
  if today ≤ day then setBit bits (day - today).toNat else return bits

def markDays (today last : ℤ) : List UInt16 → Vector UInt8 (calendarDays / 8) →
    Result (Vector UInt8 (calendarDays / 8))
  | [], bits => return bits
  | day :: days, bits => do
    let bits ← markDay today last day.toNat bits
    markDays today last days bits

def ascending (days : List UInt16) : Bool :=
  (days.zip days.tail).all fun (a, b) => a < b

/-- Loads ascending closures on `today`: each is a weekday on one list only, and
`validThrough` lies within `calendarDays` from today. -/
def MarketCalendar.new (holidays earlyCloses : List UInt16) (validThrough : UInt16) (today : ℤ) :
    Result MarketCalendar := do
  let last : ℤ := validThrough.toNat
  require (today ≤ last ∧ last < I64.saturatingAdd today calendarDays)
    LateriteError.implausibleMarketDay
  require (ascending holidays) LateriteError.calendarNotAscending
  let holidayBits ← markDays today last holidays MarketCalendar.default.holidays
  require (ascending earlyCloses) LateriteError.calendarNotAscending
  let earlyCloseBits ← markDays today last earlyCloses MarketCalendar.default.earlyCloses
  require (¬earlyCloses.any fun day => day ∈ holidays) LateriteError.implausibleMarketDay
  return ⟨UInt16.ofInt today, validThrough, holidayBits, earlyCloseBits⟩

/-- A closure the calendar keeps lies within its bitmaps, so marking it never aborts. -/
theorem noPanic_markDay {today last : ℤ} (hlast : last < today + calendarDays) (day : ℤ)
    (bits : Vector UInt8 (calendarDays / 8)) : NoPanic (markDay today last day bits) := by
  refine NoPanic.bind (NoPanic.require _ _) fun _ hday => ?_
  rw [require_eq_ok] at hday
  refine NoPanic.ite (fun hkept => ?_) fun _ => NoPanic.pure _
  have hindex : (day - today).toNat / 8 < calendarDays / 8 := by
    unfold calendarDays at *
    omega
  exact NoPanic.bind (NoPanic.orPanic (by simp [hindex])) fun _ _ => NoPanic.pure _

theorem noPanic_markDays {today last : ℤ} (hlast : last < today + calendarDays)
    (days : List UInt16) (bits : Vector UInt8 (calendarDays / 8)) :
    NoPanic (markDays today last days bits) := by
  induction days generalizing bits with
  | nil => exact NoPanic.pure _
  | cons day days ih => exact NoPanic.bind (noPanic_markDay hlast _ _) fun bits' _ => ih bits'

theorem MarketCalendar.noPanic_new (holidays earlyCloses : List UInt16) (validThrough : UInt16)
    (today : ℤ) : NoPanic (MarketCalendar.new holidays earlyCloses validThrough today) := by
  unfold MarketCalendar.new
  refine NoPanic.bind (NoPanic.require _ _) fun _ hspan => ?_
  rw [require_eq_ok] at hspan
  have hlast : (validThrough.toNat : ℤ) < today + calendarDays := by
    have := hspan.2
    unfold I64.saturatingAdd I64.minValue at this
    unfold calendarDays at *
    omega
  refine NoPanic.bind (NoPanic.require _ _) fun _ _ => ?_
  refine NoPanic.bind (noPanic_markDays hlast _ _) fun _ _ => ?_
  refine NoPanic.bind (NoPanic.require _ _) fun _ _ => ?_
  refine NoPanic.bind (noPanic_markDays hlast _ _) fun _ _ => ?_
  exact NoPanic.bind (NoPanic.require _ _) fun _ _ => NoPanic.pure _

end Laterite
