import Laterite.Bitmaps
import Laterite.ClientMarket
import Laterite.ConfigLifecycle

/-!
# Loading the market calendar

A deployment keeps the closures in a file. It builds the load on one day, the program stores the
calendar from the day the load executes on, and the deployment's check compares the file with
what is stored. The three count days from different days and agree on the bits.
-/

namespace Laterite

open CheckedComputation TimedRuns

theorem isSet_eq_test (bits : Vector UInt8 (calendarDays / 8)) (index : ℕ) :
    isSet bits index = Bitmaps.test bits.toList index := by
  unfold isSet Bitmaps.test
  rw [Vector.getElem?_toList]
  cases bits[index / 8]? with
  | none => rfl
  | some byte =>
    rw [Option.any_some, Bool.eq_iff_iff, decide_eq_true_eq]
    exact and_shiftLeft_ne_zero (Nat.mod_lt _ (by decide))

@[simp] theorem isSet_default (index : ℕ) : isSet MarketCalendar.default.holidays index = false := by
  rw [isSet_eq_test]
  exact Bitmaps.test_zeros _ index

theorem exists_setBit (bits : Vector UInt8 (calendarDays / 8)) {index : ℕ}
    (h : index < calendarDays) :
    ∃ after, setBit bits index = .ok after ∧
      ∀ other, isSet after other = (isSet bits other || decide (index = other)) := by
  have hbyte : index / 8 < calendarDays / 8 := by
    unfold calendarDays at *
    omega
  have hread : bits[index / 8]? = some bits[index / 8] := Vector.getElem?_eq_getElem hbyte
  refine ⟨bits.setIfInBounds (index / 8) (bits[index / 8] ||| (1 <<< UInt8.ofNat (index % 8))), ?_, ?_⟩
  · unfold setBit
    rw [hread]
    rfl
  · intro other
    have hlist : (bits.setIfInBounds (index / 8)
        (bits[index / 8] ||| (1 <<< UInt8.ofNat (index % 8)))).toList =
        Bitmaps.mark bits.toList index := by
      unfold Bitmaps.mark
      rw [Vector.toList_setIfInBounds, List.modify_eq_set_getElem?, Vector.getElem?_toList, hread]
      rfl
    rw [isSet_eq_test, isSet_eq_test, hlist]
    exact Bitmaps.test_mark (by rwa [Vector.length_toList]) other

/-- What a closure passes: at most `calendarMaxAgeDays` old, not after the last day, a weekday. -/
def Plausible (today last day : ℤ) : Prop :=
  (today - calendarMaxAgeDays ≤ day ∧ day ≤ last) ∧ 1 ≤ weekday day ∧ weekday day ≤ 5

section Marking

variable {today last : ℤ}

theorem plausible_iff (htoday : 0 ≤ today) (hspan : today ≤ last) (hword : last < 2 ^ 16) (day : ℤ) :
    ((I64.saturatingSub today calendarMaxAgeDays ≤ day ∧ day ≤ last) ∧
      1 ≤ weekday day ∧ weekday day ≤ 5) ↔ Plausible today last day := by
  have hage : I64.saturatingSub today calendarMaxAgeDays = today - calendarMaxAgeDays := by
    unfold I64.saturatingSub I64.minValue I64.maxValue calendarMaxAgeDays
    omega
  rw [hage]
  rfl

variable (htoday : 0 ≤ today) (hspan : today ≤ last) (hword : last < 2 ^ 16)
include htoday hspan hword

theorem plausible_of_markDay {day : ℤ} {bits after : Vector UInt8 (calendarDays / 8)}
    (h : markDay today last day bits = .ok after) : Plausible today last day := by
  unfold markDay at h
  rw [bind_eq_ok] at h
  rcases h with ⟨_, hrequired, _⟩
  exact (plausible_iff htoday hspan hword day).mp (require_eq_ok.mp hrequired)

/-- A closure from today on is marked; an older one is checked only. -/
theorem exists_markDay (hdays : last < today + calendarDays) {day : ℤ}
    (h : Plausible today last day) (bits : Vector UInt8 (calendarDays / 8)) :
    ∃ after, markDay today last day bits = .ok after ∧
      ∀ index : ℕ, isSet after index = true ↔ isSet bits index = true ∨ today + index = day := by
  unfold markDay
  rw [require_of ((plausible_iff htoday hspan hword day).mpr h), ok_bind]
  by_cases hkept : today ≤ day
  · have hindex : (day - today).toNat < calendarDays := by
      have hlast := h.1.2
      omega
    rcases exists_setBit bits hindex with ⟨after, hafter, hbits⟩
    rw [if_pos hkept]
    refine ⟨after, hafter, fun index => ?_⟩
    rw [hbits, Bool.or_eq_true, decide_eq_true_eq]
    constructor
    · rintro (hset | rfl)
      · exact .inl hset
      · exact .inr (by omega)
    · rintro (hset | hday)
      · exact .inl hset
      · exact .inr (by omega)
  · rw [if_neg hkept]
    refine ⟨bits, rfl, fun index => ?_⟩
    constructor
    · exact .inl
    · rintro (hset | hday)
      · exact hset
      · omega

theorem plausible_of_markDays {days : List UInt16} {bits after : Vector UInt8 (calendarDays / 8)}
    (h : markDays today last days bits = .ok after) :
    ∀ day ∈ days, Plausible today last day.toNat := by
  induction days generalizing bits with
  | nil => simp
  | cons first days ih =>
    unfold markDays at h
    rw [bind_eq_ok] at h
    rcases h with ⟨next, hfirst, hrest⟩
    intro day hday
    rcases List.mem_cons.mp hday with rfl | hday
    · exact plausible_of_markDay htoday hspan hword hfirst
    · exact ih hrest day hday

theorem exists_markDays (hdays : last < today + calendarDays) {days : List UInt16}
    (h : ∀ day ∈ days, Plausible today last day.toNat) (bits : Vector UInt8 (calendarDays / 8)) :
    ∃ after, markDays today last days bits = .ok after ∧
      ∀ index : ℕ, isSet after index = true ↔
        isSet bits index = true ∨ ∃ day ∈ days, today + index = (day.toNat : ℤ) := by
  induction days generalizing bits with
  | nil => exact ⟨bits, rfl, by simp⟩
  | cons first days ih =>
    rcases exists_markDay htoday hspan hword hdays (h first (List.mem_cons_self ..)) bits with
      ⟨next, hfirst, hmarked⟩
    rcases ih (fun day hday => h day (List.mem_cons_of_mem _ hday)) next with ⟨after, hrest, hbits⟩
    refine ⟨after, ?_, fun index => ?_⟩
    · unfold markDays
      rw [hfirst, ok_bind, hrest]
    · rw [hbits, hmarked, or_assoc, List.exists_mem_cons_iff]

end Marking

theorem ascending_iff (days : List UInt16) : ascending days = true ↔ days.Pairwise (· < ·) := by
  rw [← List.isChain_iff_pairwise]
  unfold ascending
  induction days with
  | nil => simp
  | cons first days ih =>
    cases days with
    | nil => simp
    | cons second days =>
      rw [List.isChain_cons_cons, ← ih]
      simp

def dayCounts (days : List UInt16) : List ℤ := days.map fun day => (day.toNat : ℤ)

/-- Closures as a file lists them: ascending, on one list only, weekdays not after the last day. -/
structure Closures (holidays earlyCloses : List ℤ) (last : ℤ) : Prop where
  holidays_ascending : holidays.Pairwise (· < ·)
  earlyCloses_ascending : earlyCloses.Pairwise (· < ·)
  disjoint : ∀ day ∈ earlyCloses, day ∉ holidays
  weekdays : ∀ day ∈ holidays ++ earlyCloses, 1 ≤ weekday day ∧ weekday day ≤ 5
  covered : ∀ day ∈ holidays ++ earlyCloses, day ≤ last

structure Loadable (holidays earlyCloses : List ℤ) (last today : ℤ) : Prop
    extends Closures holidays earlyCloses last where
  recent : ∀ day ∈ holidays ++ earlyCloses, today - calendarMaxAgeDays ≤ day
  span : today ≤ last ∧ last < today + calendarDays

/-- A calendar that holds exactly the given closures from `today` to its last day. -/
structure Holds (calendar : MarketCalendar) (holidays earlyCloses : List ℤ) (last today : ℤ) :
    Prop where
  firstDay : (calendar.firstDay.toNat : ℤ) = today
  validThrough : (calendar.validThrough.toNat : ℤ) = last
  holidays : ∀ index : ℕ, isSet calendar.holidays index = true ↔ today + index ∈ holidays
  earlyCloses : ∀ index : ℕ, isSet calendar.earlyCloses index = true ↔ today + index ∈ earlyCloses

theorem mem_dayCounts {days : List UInt16} {day : ℤ} :
    day ∈ dayCounts days ↔ ∃ word ∈ days, day = (word.toNat : ℤ) := by
  unfold dayCounts
  rw [List.mem_map]
  constructor
  · rintro ⟨word, hword, rfl⟩
    exact ⟨word, hword, rfl⟩
  · rintro ⟨word, hword, rfl⟩
    exact ⟨word, hword, rfl⟩

theorem mem_dayCounts_word {days : List UInt16} {word : UInt16} :
    (word.toNat : ℤ) ∈ dayCounts days ↔ word ∈ days := by
  rw [mem_dayCounts]
  constructor
  · rintro ⟨other, hother, heq⟩
    have hsame : word = other := UInt16.toNat_inj.mp (Int.ofNat_inj.mp heq)
    exact hsame ▸ hother
  · intro hword
    exact ⟨word, hword, rfl⟩

theorem pairwise_dayCounts {days : List UInt16} :
    (dayCounts days).Pairwise (· < ·) ↔ ascending days = true := by
  rw [ascending_iff]
  unfold dayCounts
  rw [List.pairwise_map]
  simp only [Int.ofNat_lt, UInt16.lt_iff_toNat_lt]

variable {holidays earlyCloses : List UInt16} {validThrough : UInt16} {today : ℤ}
  {calendar : MarketCalendar}

theorem span_iff (htoday : 0 ≤ today) (last : ℤ) (hword : last < 2 ^ 16) :
    (today ≤ last ∧ last < I64.saturatingAdd today calendarDays) ↔
      today ≤ last ∧ last < today + calendarDays := by
  unfold I64.saturatingAdd I64.minValue I64.maxValue calendarDays
  omega

theorem words_disjoint :
    ¬(earlyCloses.any fun day => decide (day ∈ holidays)) = true ↔
      ∀ day ∈ dayCounts earlyCloses, day ∉ dayCounts holidays := by
  rw [List.any_eq_true]
  constructor
  · intro hnone day hearly hholiday
    rcases mem_dayCounts.mp hearly with ⟨word, hword, rfl⟩
    exact hnone ⟨word, hword, decide_eq_true (mem_dayCounts_word.mp hholiday)⟩
  · rintro hdisjoint ⟨word, hword, hholiday⟩
    exact hdisjoint _ (mem_dayCounts_word.mpr hword)
      (mem_dayCounts_word.mpr (of_decide_eq_true hholiday))

theorem loadable_of_new (htoday : 0 ≤ today)
    (h : MarketCalendar.new holidays earlyCloses validThrough today = .ok calendar) :
    Loadable (dayCounts holidays) (dayCounts earlyCloses) validThrough.toNat today := by
  have hword : (validThrough.toNat : ℤ) < 2 ^ 16 := by
    have := validThrough.toNat_lt
    omega
  simp only [MarketCalendar.new, bind_eq_ok, require_eq_ok, exists_const] at h
  rcases h with ⟨hspan, hascending, holidayBits, hholidays, hearlyAscending, earlyBits, hearly,
    hdisjoint, -⟩
  rw [span_iff htoday _ hword] at hspan
  have hchecked : ∀ day ∈ dayCounts holidays ++ dayCounts earlyCloses,
      Plausible today validThrough.toNat day := by
    intro day hday
    rcases List.mem_append.mp hday with hday | hday
    · rcases mem_dayCounts.mp hday with ⟨word, hmem, rfl⟩
      exact plausible_of_markDays htoday hspan.1 hword hholidays word hmem
    · rcases mem_dayCounts.mp hday with ⟨word, hmem, rfl⟩
      exact plausible_of_markDays htoday hspan.1 hword hearly word hmem
  exact {
    holidays_ascending := pairwise_dayCounts.mpr hascending
    earlyCloses_ascending := pairwise_dayCounts.mpr hearlyAscending
    disjoint := words_disjoint.mp hdisjoint
    weekdays := fun day hday => (hchecked day hday).2
    covered := fun day hday => (hchecked day hday).1.2
    recent := fun day hday => (hchecked day hday).1.1
    span := hspan }

theorem exists_new (htoday : 0 ≤ today)
    (h : Loadable (dayCounts holidays) (dayCounts earlyCloses) validThrough.toNat today) :
    ∃ calendar, MarketCalendar.new holidays earlyCloses validThrough today = .ok calendar ∧
      Holds calendar (dayCounts holidays) (dayCounts earlyCloses) validThrough.toNat today := by
  have hword : (validThrough.toNat : ℤ) < 2 ^ 16 := by
    have := validThrough.toNat_lt
    omega
  have hchecked {days : List UInt16}
      (hsub : ∀ day ∈ dayCounts days, day ∈ dayCounts holidays ++ dayCounts earlyCloses) :
      ∀ day ∈ days, Plausible today validThrough.toNat day.toNat := by
    intro day hday
    have hmem := hsub _ (mem_dayCounts_word.mpr hday)
    exact ⟨⟨h.recent _ hmem, h.covered _ hmem⟩, h.weekdays _ hmem⟩
  rcases exists_markDays htoday h.span.1 hword h.span.2
    (hchecked fun day hday => List.mem_append_left _ hday) MarketCalendar.default.holidays with
    ⟨holidayBits, hholidays, hholidayBits⟩
  rcases exists_markDays htoday h.span.1 hword h.span.2
    (hchecked fun day hday => List.mem_append_right _ hday) MarketCalendar.default.earlyCloses with
    ⟨earlyBits, hearly, hearlyBits⟩
  refine ⟨⟨UInt16.ofInt today, validThrough, holidayBits, earlyBits⟩, ?_, ?_⟩
  · unfold MarketCalendar.new
    dsimp only
    rw [require_of ((span_iff htoday _ hword).mpr h.span), ok_bind,
      require_of (pairwise_dayCounts.mp h.holidays_ascending), ok_bind, hholidays, ok_bind,
      require_of (pairwise_dayCounts.mp h.earlyCloses_ascending), ok_bind, hearly, ok_bind,
      require_of (words_disjoint.mpr h.disjoint), ok_bind]
    rfl
  · have hspan := h.span.1
    have hset (bits : Vector UInt8 (calendarDays / 8)) (days : List UInt16)
        (hbits : ∀ index : ℕ, isSet bits index = true ↔
          isSet MarketCalendar.default.holidays index = true ∨
            ∃ day ∈ days, today + index = (day.toNat : ℤ)) (index : ℕ) :
        isSet bits index = true ↔ today + index ∈ dayCounts days := by
      rw [hbits, isSet_default, mem_dayCounts]
      simp
    exact {
      firstDay := by
        change ((UInt16.ofInt today).toNat : ℤ) = today
        have hvalue : (UInt16.ofInt today).toNat = (today % 2 ^ 16).toNat := by
          have hofNat : UInt16.ofInt today = UInt16.ofNat (today % 2 ^ 16).toNat := rfl
          rw [hofNat, UInt16.toNat_ofNat_of_lt']
          change (today % 2 ^ 16).toNat < 2 ^ 16
          omega
        omega
      validThrough := rfl
      holidays := hset holidayBits holidays hholidayBits
      earlyCloses := hset earlyBits earlyCloses hearlyBits }

end Laterite
