import Laterite.CalendarLoading
import Laterite.ReplayedRuns

/-!
# Keeping the stored calendar to its file

The deployment loads a file's closures unless the config already holds them. A load executed
some days after it was built stores what the check then finds in place, and what the check finds
in place agrees with the file on every day the stored calendar covers.
-/

namespace Laterite.Setup

open CheckedComputation TimedRuns

structure MarketCalendarDays where
  earlyCloses : List ℤ
  holidays : List ℤ
  validThrough : ℤ

/-- The closures a load on `today` keeps. -/
def marketCalendarArgs (calendar : MarketCalendarDays) (today : ℤ) : MarketCalendarDays :=
  let kept (days : List ℤ) := days.filter (· ≥ today)
  { earlyCloses := kept calendar.earlyCloses
    holidays := kept calendar.holidays
    validThrough := calendar.validThrough }

/-- A number as the instruction's encoder takes it; it throws for one that is no 16-bit word. -/
def toU16 (number : ℤ) : Option UInt16 :=
  if 0 ≤ number ∧ number < 2 ^ 16 then some (UInt16.ofNat number.toNat) else none

def getSetMarketCalendarInstruction (args : MarketCalendarDays) :
    Option (List UInt16 × List UInt16 × UInt16) := do
  let holidays ← args.holidays.mapM toU16
  let earlyCloses ← args.earlyCloses.mapM toU16
  let validThrough ← toU16 args.validThrough
  return (holidays, earlyCloses, validThrough)

def markClosure (stored : Client.MarketCalendar) (bitmap : List UInt8) (closure : ℤ) : List UInt8 :=
  let index := closure - stored.firstDay
  if index ≥ 0 ∧ closure ≤ stored.validThrough then
    bitmap.modify (index.toNat >>> 3) (· ||| (1 <<< UInt8.ofNat (index.toNat &&& 7)))
  else bitmap

def closureBits (stored : Client.MarketCalendar) (days : List ℤ) : List UInt8 :=
  days.foldl (markClosure stored) (List.replicate stored.holidays.length 0)

/-- Whether every byte of `a` is the byte of `b` at its place. -/
def same (a b : List UInt8) : Bool := a.zipIdx.all fun (byte, index) => b[index]? = some byte

def isMarketCalendarLoaded (stored : Client.MarketCalendar) (calendar : MarketCalendarDays) : Bool :=
  if stored.validThrough ≠ calendar.validThrough then false
  else
    same (closureBits stored calendar.holidays) stored.holidays &&
      same (closureBits stored calendar.earlyCloses) stored.earlyCloses

/-- The load to send at a clock; nothing when the config already holds the calendar. -/
def ensureMarketCalendar (stored : Client.MarketCalendar) (calendar : MarketCalendarDays)
    (unixTimestamp : ℤ) : Option MarketCalendarDays :=
  if isMarketCalendarLoaded stored calendar then none
  else some (marketCalendarArgs calendar (unixTimestamp.tdiv 86400))

theorem same_iff {a b : List UInt8} (h : a.length = b.length) : same a b = true ↔ a = b := by
  unfold same
  rw [List.all_eq_true]
  constructor
  · intro hall
    apply List.ext_getElem h
    intro index ha hb
    have hbyte := hall (a[index], index) (List.mem_zipIdx_iff_getElem?.mpr (List.getElem?_eq_getElem ha))
    rw [decide_eq_true_eq, List.getElem?_eq_getElem hb] at hbyte
    exact (Option.some.inj hbyte).symm
  · rintro rfl ⟨byte, index⟩ hmem
    exact decide_eq_true (List.mem_zipIdx_iff_getElem?.mp hmem)

theorem markClosure_eq {stored : Client.MarketCalendar} {closure : ℤ}
    (h : closure - stored.firstDay ≥ 0 ∧ closure ≤ stored.validThrough) (bitmap : List UInt8) :
    markClosure stored bitmap closure = Bitmaps.mark bitmap (closure - stored.firstDay).toNat := by
  unfold markClosure Bitmaps.mark
  dsimp only
  rw [if_pos h, Nat.shiftRight_eq_div_pow, Nat.and_two_pow_sub_one_eq_mod _ 3]

theorem test_foldl_markClosure {stored : Client.MarketCalendar} {span : ℕ}
    (hspan : stored.validThrough < stored.firstDay + 8 * span) (days : List ℤ)
    (bitmap : List UInt8) (hlength : bitmap.length = span) :
    (days.foldl (markClosure stored) bitmap).length = span ∧
    ∀ index : ℕ, Bitmaps.test (days.foldl (markClosure stored) bitmap) index = true ↔
      Bitmaps.test bitmap index = true ∨
        (stored.firstDay + index ≤ stored.validThrough ∧ stored.firstDay + index ∈ days) := by
  induction days generalizing bitmap with
  | nil => exact ⟨hlength, by simp⟩
  | cons closure days ih =>
    rw [List.foldl_cons]
    by_cases hcovered : closure - stored.firstDay ≥ 0 ∧ closure ≤ stored.validThrough
    · have hwithin : (closure - stored.firstDay).toNat / 8 < bitmap.length := by omega
      rw [markClosure_eq hcovered]
      have hrest := ih (Bitmaps.mark bitmap (closure - stored.firstDay).toNat)
        ((Bitmaps.length_mark _ _).trans hlength)
      refine ⟨hrest.1, fun index => ?_⟩
      rw [hrest.2, Bitmaps.test_mark hwithin, Bool.or_eq_true, decide_eq_true_eq, List.mem_cons,
        or_assoc]
      apply or_congr_right
      constructor
      · rintro (hindex | hlater)
        · exact ⟨by omega, .inl (by omega)⟩
        · exact ⟨hlater.1, .inr hlater.2⟩
      · rintro ⟨hlast, hday | hlater⟩
        · exact .inl (by omega)
        · exact .inr ⟨hlast, hlater⟩
    · have hkept : markClosure stored bitmap closure = bitmap := if_neg hcovered
      have hrest := ih bitmap hlength
      rw [hkept]
      refine ⟨hrest.1, fun index => ?_⟩
      rw [hrest.2, List.mem_cons]
      apply or_congr_right
      constructor
      · rintro ⟨hlast, hlater⟩
        exact ⟨hlast, .inr hlater⟩
      · rintro ⟨hlast, hday | hlater⟩
        · exact absurd ⟨by omega, by omega⟩ hcovered
        · exact ⟨hlast, hlater⟩

def Spans (calendar : MarketCalendar) : Prop :=
  (calendar.validThrough.toNat : ℤ) < calendar.firstDay.toNat + calendarDays

instance (calendar : MarketCalendar) : Decidable (Spans calendar) := inferInstanceAs (Decidable (_ < _))

theorem same_closureBits_iff {calendar : MarketCalendar} (hspans : Spans calendar)
    (bits : Vector UInt8 (calendarDays / 8)) (days : List ℤ) :
    same (closureBits (Client.MarketCalendar.of calendar) days) bits.toList = true ↔
      ∀ index : ℕ, isSet bits index = true ↔
        (calendar.firstDay.toNat + index ≤ (calendar.validThrough.toNat : ℤ) ∧
          (calendar.firstDay.toNat : ℤ) + index ∈ days) := by
  have hspan : (Client.MarketCalendar.of calendar).validThrough <
      (Client.MarketCalendar.of calendar).firstDay + 8 * (calendarDays / 8 : ℕ) := hspans
  have hfold := test_foldl_markClosure hspan days
    (List.replicate (Client.MarketCalendar.of calendar).holidays.length 0)
    (by rw [List.length_replicate, Client.MarketCalendar.of, Vector.length_toList])
  have hlength : (closureBits (Client.MarketCalendar.of calendar) days).length =
      bits.toList.length := by
    exact hfold.1.trans Vector.length_toList.symm
  rw [same_iff hlength]
  constructor
  · intro heq index
    rw [isSet_eq_test, ← heq]
    refine (hfold.2 index).trans ?_
    rw [Bitmaps.test_zeros]
    exact or_iff_right Bool.false_ne_true
  · intro hset
    apply Bitmaps.ext hlength
    intro index
    rw [Bool.eq_iff_iff, ← isSet_eq_test, hset]
    refine (hfold.2 index).trans ?_
    rw [Bitmaps.test_zeros]
    exact or_iff_right Bool.false_ne_true

/-- What the check finds: the same last day, and on every covered day the same closures. -/
theorem isMarketCalendarLoaded_iff {calendar : MarketCalendar} (hspans : Spans calendar)
    (file : MarketCalendarDays) :
    isMarketCalendarLoaded (Client.MarketCalendar.of calendar) file = true ↔
      (calendar.validThrough.toNat : ℤ) = file.validThrough ∧
      (∀ index : ℕ, isSet calendar.holidays index = true ↔
        (calendar.firstDay.toNat + index ≤ (calendar.validThrough.toNat : ℤ) ∧
          (calendar.firstDay.toNat : ℤ) + index ∈ file.holidays)) ∧
      ∀ index : ℕ, isSet calendar.earlyCloses index = true ↔
        (calendar.firstDay.toNat + index ≤ (calendar.validThrough.toNat : ℤ) ∧
          (calendar.firstDay.toNat : ℤ) + index ∈ file.earlyCloses) := by
  have hholidays := same_closureBits_iff hspans calendar.holidays file.holidays
  have hearly := same_closureBits_iff hspans calendar.earlyCloses file.earlyCloses
  rw [← hholidays, ← hearly]
  unfold isMarketCalendarLoaded
  by_cases hlast : (calendar.validThrough.toNat : ℤ) = file.validThrough
  · have hclient : ¬(Client.MarketCalendar.of calendar).validThrough ≠ file.validThrough :=
      not_not.mpr hlast
    rw [if_neg hclient, Bool.and_eq_true]
    exact ⟨fun h => ⟨hlast, h⟩, fun h => h.2⟩
  · have hclient : (Client.MarketCalendar.of calendar).validThrough ≠ file.validThrough := hlast
    rw [if_pos hclient]
    constructor
    · intro h
      cases h
    · intro h
      exact absurd h.1 hlast

theorem of_toU16 {number : ℤ} {word : UInt16} (h : toU16 number = some word) :
    (word.toNat : ℤ) = number := by
  unfold toU16 at h
  split at h
  · rename_i hword
    rw [← Option.some.inj h, UInt16.toNat_ofNat_of_lt']
    · omega
    · change number.toNat < 2 ^ 16
      omega
  · cases h

theorem dayCounts_of_mapM {days : List ℤ} {words : List UInt16} (h : days.mapM toU16 = some words) :
    dayCounts words = days := by
  induction days generalizing words with
  | nil =>
    cases h
    rfl
  | cons day days ih =>
    simp only [List.mapM_cons, Option.bind_eq_bind, Option.bind_eq_some_iff, Option.pure_def,
      Option.some.injEq] at h
    rcases h with ⟨word, hword, rest, hrest, rfl⟩
    unfold dayCounts at *
    rw [List.map_cons, ih hrest, of_toU16 hword]

theorem exists_mapM_toU16 {days : List ℤ} (h : ∀ day ∈ days, 0 ≤ day ∧ day < 2 ^ 16) :
    ∃ words, days.mapM toU16 = some words := by
  induction days with
  | nil => exact ⟨[], rfl⟩
  | cons day days ih =>
    rcases ih fun later hlater => h later (List.mem_cons_of_mem _ hlater) with ⟨rest, hrest⟩
    refine ⟨UInt16.ofNat day.toNat :: rest, ?_⟩
    have hday : toU16 day = some (UInt16.ofNat day.toNat) := if_pos (h day (List.mem_cons_self ..))
    rw [List.mapM_cons, hday, hrest]
    rfl

theorem getSetMarketCalendarInstruction_eq_some {args : MarketCalendarDays}
    {holidays earlyCloses : List UInt16} {validThrough : UInt16}
    (h : getSetMarketCalendarInstruction args = some (holidays, earlyCloses, validThrough)) :
    dayCounts holidays = args.holidays ∧ dayCounts earlyCloses = args.earlyCloses ∧
      (validThrough.toNat : ℤ) = args.validThrough := by
  simp only [getSetMarketCalendarInstruction, Option.bind_eq_bind, Option.bind_eq_some_iff,
    Option.pure_def, Option.some.injEq, Prod.mk.injEq] at h
  rcases h with ⟨holidays', hholidays, earlyCloses', hearly, last, hlast, rfl, rfl, rfl⟩
  exact ⟨dayCounts_of_mapM hholidays, dayCounts_of_mapM hearly, of_toU16 hlast⟩

def MarketCalendarDays.Listed (file : MarketCalendarDays) : Prop :=
  Closures file.holidays file.earlyCloses file.validThrough

theorem mem_marketCalendarArgs_holidays {file : MarketCalendarDays} {built day : ℤ} :
    day ∈ (marketCalendarArgs file built).holidays ↔ day ∈ file.holidays ∧ built ≤ day := by
  unfold marketCalendarArgs
  rw [List.mem_filter, decide_eq_true_eq]

theorem mem_marketCalendarArgs_earlyCloses {file : MarketCalendarDays} {built day : ℤ} :
    day ∈ (marketCalendarArgs file built).earlyCloses ↔ day ∈ file.earlyCloses ∧ built ≤ day := by
  unfold marketCalendarArgs
  rw [List.mem_filter, decide_eq_true_eq]

/-- A load built from a file is one the program takes for a year after. -/
theorem MarketCalendarDays.Listed.loadable {file : MarketCalendarDays} (h : file.Listed)
    {built today : ℤ} (hage : today ≤ built + calendarMaxAgeDays)
    (hspan : today ≤ file.validThrough ∧ file.validThrough < today + calendarDays) :
    Loadable (marketCalendarArgs file built).holidays (marketCalendarArgs file built).earlyCloses
      file.validThrough today := by
  have hfile : ∀ day ∈ (marketCalendarArgs file built).holidays ++
      (marketCalendarArgs file built).earlyCloses,
      day ∈ file.holidays ++ file.earlyCloses ∧ built ≤ day := by
    intro day hday
    rw [List.mem_append, mem_marketCalendarArgs_holidays, mem_marketCalendarArgs_earlyCloses] at hday
    rcases hday with hday | hday
    · exact ⟨List.mem_append_left _ hday.1, hday.2⟩
    · exact ⟨List.mem_append_right _ hday.1, hday.2⟩
  exact {
    holidays_ascending := h.holidays_ascending.filter _
    earlyCloses_ascending := h.earlyCloses_ascending.filter _
    disjoint := fun day hearly hholiday =>
      h.disjoint day (mem_marketCalendarArgs_earlyCloses.mp hearly).1
        (mem_marketCalendarArgs_holidays.mp hholiday).1
    weekdays := fun day hday => h.weekdays day (hfile day hday).1
    covered := fun day hday => h.covered day (hfile day hday).1
    recent := fun day hday => by
      have := (hfile day hday).2
      omega
    span := hspan }

/-- What a load of the file's closures stores, the check finds in place. -/
theorem isMarketCalendarLoaded_of_holds {file : MarketCalendarDays} (hfile : file.Listed)
    {built today : ℤ} (hbuilt : built ≤ today)
    (hspan : file.validThrough < today + calendarDays) {calendar : MarketCalendar}
    (h : Holds calendar (marketCalendarArgs file built).holidays
      (marketCalendarArgs file built).earlyCloses file.validThrough today) :
    isMarketCalendarLoaded (Client.MarketCalendar.of calendar) file = true := by
  have hspans : Spans calendar := by
    unfold Spans
    rw [h.validThrough, h.firstDay]
    exact hspan
  apply (isMarketCalendarLoaded_iff hspans file).mpr
  refine ⟨h.validThrough, fun index => ?_, fun index => ?_⟩
  · rw [h.holidays, mem_marketCalendarArgs_holidays, h.firstDay, h.validThrough]
    constructor
    · intro hday
      exact ⟨hfile.covered _ (List.mem_append_left _ hday.1), hday.1⟩
    · intro hday
      exact ⟨hday.2, by omega⟩
  · rw [h.earlyCloses, mem_marketCalendarArgs_earlyCloses, h.firstDay, h.validThrough]
    constructor
    · intro hday
      exact ⟨hfile.covered _ (List.mem_append_right _ hday.1), hday.1⟩
    · intro hday
      exact ⟨hday.2, by omega⟩

theorem spans_of_new {holidays earlyCloses : List UInt16} {validThrough : UInt16} {today : ℤ}
    {calendar : MarketCalendar}
    (h : MarketCalendar.new holidays earlyCloses validThrough today = .ok calendar) :
    Spans calendar := by
  simp only [MarketCalendar.new, bind_eq_ok, require_eq_ok, exists_const, pure_eq_ok] at h
  rcases h with ⟨hspan, _, _, _, _, _, _, _, rfl⟩
  have hfirst : (UInt16.ofInt today).toNat = (today % 2 ^ 16).toNat := by
    have hofNat : UInt16.ofInt today = UInt16.ofNat (today % 2 ^ 16).toNat := rfl
    rw [hofNat, UInt16.toNat_ofNat_of_lt']
    change (today % 2 ^ 16).toNat < 2 ^ 16
    omega
  have hword := validThrough.toNat_lt
  unfold Spans
  dsimp only
  rw [hfirst]
  unfold I64.saturatingAdd I64.minValue I64.maxValue calendarDays at *
  omega

/-- Whatever config there is covers no more days than its bitmaps have. -/
def ConfigSpans (config : Option Config) : Prop := ∀ c, config = some c → Spans c.marketCalendar

theorem ConfigStep.spans {t : Transition (Option Config) (Signers × ConfigAction)}
    (h : ConfigStep t) (ih : ConfigSpans t.before) : ConfigSpans t.after := by
  have hdefault : Spans MarketCalendar.default := by decide
  intro c hafter
  cases h with
  | initializeConfig signed valid =>
    cases hafter
    exact hdefault
  | @updateConfig _ _ before =>
    cases hafter
    exact ih before rfl
  | @setPaused _ _ before =>
    cases hafter
    exact ih before rfl
  | setMarketCalendar signed loaded =>
    cases hafter
    exact spans_of_new loaded
  | @proposeAdmin _ _ before =>
    cases hafter
    exact ih before rfl
  | @acceptAdmin _ _ before =>
    cases hafter
    exact ih before rfl
  | @takeSeat _ _ before =>
    cases hafter
    exact ih before rfl
  | @freeSeat _ _ before =>
    cases hafter
    exact ih before rfl

theorem spans_of_run {d : Deployment} {accounts : Accounts}
    {history : List (Transition Chain Happening)} {chain : Chain} {config : Config}
    (run : ProgramRun d accounts history chain) (hconfig : chain.config = some config) :
    Spans config.marketCalendar := by
  have hrun : ConfigRun (configHistory history) (some config) := hconfig ▸ run.configRun
  have hinvariant : ConfigSpans (some config) := by
    apply Run.invariant (I := ConfigSpans) hrun
    · intro c hc
      cases hc
    · exact fun t ht ih => ConfigStep.spans ht ih
  exact hinvariant config rfl

/-- The stored calendar ends on the file's last day and marks the file's closures on every day
it covers. -/
structure Agrees (stored : MarketCalendar) (file : MarketCalendarDays) : Prop where
  validThrough : (stored.validThrough.toNat : ℤ) = file.validThrough
  holidays : ∀ day : ℤ, (stored.firstDay.toNat : ℤ) ≤ day → day ≤ stored.validThrough.toNat →
    (isSet stored.holidays (day - stored.firstDay.toNat).toNat = true ↔ day ∈ file.holidays)
  earlyCloses : ∀ day : ℤ, (stored.firstDay.toNat : ℤ) ≤ day → day ≤ stored.validThrough.toNat →
    (isSet stored.earlyCloses (day - stored.firstDay.toNat).toNat = true ↔ day ∈ file.earlyCloses)

theorem agrees_of_loaded {stored : MarketCalendar} (hspans : Spans stored)
    {file : MarketCalendarDays}
    (h : isMarketCalendarLoaded (Client.MarketCalendar.of stored) file = true) :
    Agrees stored file := by
  rcases (isMarketCalendarLoaded_iff hspans file).mp h with ⟨hlast, hholidays, hearly⟩
  have hindex {day : ℤ} (hfirst : (stored.firstDay.toNat : ℤ) ≤ day) :
      (stored.firstDay.toNat : ℤ) + (day - stored.firstDay.toNat).toNat = day := by omega
  exact {
    validThrough := hlast
    holidays := fun day hfirst hthrough => by
      rw [hholidays, hindex hfirst, and_iff_right hthrough]
    earlyCloses := fun day hfirst hthrough => by
      rw [hearly, hindex hfirst, and_iff_right hthrough] }

/-- A file whose last day is a 16-bit word has a load on every day. -/
theorem exists_instruction {file : MarketCalendarDays} (hfile : file.Listed) {built : ℤ}
    (hbuilt : 0 ≤ built) (hlast : 0 ≤ file.validThrough ∧ file.validThrough < 2 ^ 16) :
    ∃ instruction, getSetMarketCalendarInstruction (marketCalendarArgs file built) =
      some instruction := by
  have hholidays : ∀ day ∈ (marketCalendarArgs file built).holidays, 0 ≤ day ∧ day < 2 ^ 16 := by
    intro day hday
    rcases mem_marketCalendarArgs_holidays.mp hday with ⟨hmem, hkept⟩
    have hcovered := hfile.covered day (List.mem_append_left _ hmem)
    omega
  have hearly : ∀ day ∈ (marketCalendarArgs file built).earlyCloses, 0 ≤ day ∧ day < 2 ^ 16 := by
    intro day hday
    rcases mem_marketCalendarArgs_earlyCloses.mp hday with ⟨hmem, hkept⟩
    have hcovered := hfile.covered day (List.mem_append_right _ hmem)
    omega
  rcases exists_mapM_toU16 hholidays with ⟨holidays, hholidays⟩
  rcases exists_mapM_toU16 hearly with ⟨earlyCloses, hearly⟩
  refine ⟨(holidays, earlyCloses, UInt16.ofNat file.validThrough.toNat), ?_⟩
  unfold getSetMarketCalendarInstruction
  rw [hholidays, hearly]
  change (do
    let validThrough ← toU16 file.validThrough
    return (holidays, earlyCloses, validThrough)) = _
  rw [toU16, if_pos hlast]
  rfl

section Loads

variable {inv : Invocation} {chain : Chain} {admin : Pubkey} {config : Config}
  {file : MarketCalendarDays} {built : ℤ} {holidays earlyCloses : List UInt16}
  {validThrough : UInt16}

/-- A load executed within a year of its building stores the file's closures. -/
theorem setMarketCalendar_stores (hadmin : adminOnly inv chain admin = .ok config)
    (hfile : file.Listed)
    (hbuilt : getSetMarketCalendarInstruction (marketCalendarArgs file built) =
      some (holidays, earlyCloses, validThrough))
    (hnow : 0 ≤ inv.now) (hlater : built ≤ inv.now / daySeconds)
    (hage : inv.now / daySeconds ≤ built + calendarMaxAgeDays)
    (hspan : inv.now / daySeconds ≤ file.validThrough ∧
      file.validThrough < inv.now / daySeconds + calendarDays) :
    ∃ event after calendar,
      setMarketCalendar inv chain admin holidays earlyCloses validThrough = .ok (event, after) ∧
      after.config = some { config with marketCalendar := calendar } ∧
      isMarketCalendarLoaded (Client.MarketCalendar.of calendar) file = true := by
  have htoday : 0 ≤ inv.now / daySeconds := Int.ediv_nonneg hnow (by decide)
  rcases getSetMarketCalendarInstruction_eq_some hbuilt with ⟨hholidays, hearly, hlast⟩
  have hargs : (marketCalendarArgs file built).validThrough = file.validThrough := rfl
  have hloadable := hfile.loadable hage hspan
  rw [← hholidays, ← hearly, ← hargs, ← hlast] at hloadable
  rcases exists_new htoday hloadable with ⟨calendar, hnew, hholds⟩
  rw [hholidays, hearly, hlast, hargs] at hholds
  refine ⟨.marketCalendarSet holidays earlyCloses validThrough,
    chain.setConfig { config with marketCalendar := calendar }, calendar, ?_, rfl,
    isMarketCalendarLoaded_of_holds hfile hlater hspan.2 hholds⟩
  unfold setMarketCalendar
  rw [hadmin, ok_bind]
  dsimp only
  rw [hnew, ok_bind]
  rfl

end Loads

/-- The program loads exactly the calendars it should and sets exactly their bits; a file's load
is in place once executed, so that it is not sent again; and a calendar found in place is the
file's, whatever config the program reached. -/
theorem marketCalendar_loads (d : Deployment) :
    (∀ (holidays earlyCloses : List UInt16) (validThrough : UInt16) (today : ℤ), 0 ≤ today →
      NoPanic (MarketCalendar.new holidays earlyCloses validThrough today) ∧
      ((∃ calendar, MarketCalendar.new holidays earlyCloses validThrough today = .ok calendar) ↔
        Loadable (dayCounts holidays) (dayCounts earlyCloses) validThrough.toNat today) ∧
      ∀ calendar, MarketCalendar.new holidays earlyCloses validThrough today = .ok calendar →
        Holds calendar (dayCounts holidays) (dayCounts earlyCloses) validThrough.toNat today) ∧
    (∀ (file : MarketCalendarDays) (built : ℤ), file.Listed → 0 ≤ built →
      0 ≤ file.validThrough ∧ file.validThrough < 2 ^ 16 →
      ∃ instruction, getSetMarketCalendarInstruction (marketCalendarArgs file built) =
        some instruction) ∧
    (∀ (inv : Invocation) (chain : Chain) (admin : Pubkey) (config : Config)
      (file : MarketCalendarDays) (built : ℤ) (holidays earlyCloses : List UInt16)
      (validThrough : UInt16), adminOnly inv chain admin = .ok config → file.Listed →
      getSetMarketCalendarInstruction (marketCalendarArgs file built) =
        some (holidays, earlyCloses, validThrough) →
      0 ≤ inv.now → built ≤ inv.now / daySeconds →
      inv.now / daySeconds ≤ built + calendarMaxAgeDays →
      inv.now / daySeconds ≤ file.validThrough ∧
        file.validThrough < inv.now / daySeconds + calendarDays →
      ∃ event after calendar,
        setMarketCalendar inv chain admin holidays earlyCloses validThrough = .ok (event, after) ∧
        after.config = some { config with marketCalendar := calendar } ∧
        isMarketCalendarLoaded (Client.MarketCalendar.of calendar) file = true ∧
        ∀ clock, ensureMarketCalendar (Client.MarketCalendar.of calendar) file clock = none) ∧
    (∀ (accounts : Accounts) (history : List (Transition Chain Happening)) (chain : Chain)
      (config : Config), ProgramRun d accounts history chain → chain.config = some config →
      ∀ file, isMarketCalendarLoaded (Client.MarketCalendar.of config.marketCalendar) file = true →
        Agrees config.marketCalendar file) := by
  refine ⟨?_, ?_, ?_, ?_⟩
  · intro holidays earlyCloses validThrough today htoday
    have hloads (h : Loadable (dayCounts holidays) (dayCounts earlyCloses) validThrough.toNat today) :=
      exists_new htoday h
    refine ⟨MarketCalendar.noPanic_new _ _ _ _, ⟨?_, ?_⟩, ?_⟩
    · rintro ⟨calendar, hnew⟩
      exact loadable_of_new htoday hnew
    · intro h
      rcases hloads h with ⟨calendar, hnew, _⟩
      exact ⟨calendar, hnew⟩
    · intro calendar hnew
      rcases hloads (loadable_of_new htoday hnew) with ⟨loaded, hloaded, hholds⟩
      rw [hnew] at hloaded
      cases hloaded
      exact hholds
  · intro file built hfile hbuilt hlast
    exact exists_instruction hfile hbuilt hlast
  · intro inv chain admin config file built holidays earlyCloses validThrough hadmin hfile hbuilt
      hnow hlater hage hspan
    rcases setMarketCalendar_stores hadmin hfile hbuilt hnow hlater hage hspan with
      ⟨event, after, calendar, hset, hafter, hloaded⟩
    refine ⟨event, after, calendar, hset, hafter, hloaded, fun clock => ?_⟩
    rw [ensureMarketCalendar, if_pos hloaded]
  · intro accounts history chain config run hconfig file hloaded
    exact agrees_of_loaded (spans_of_run run hconfig) hloaded

open Rehearsal in
/-- A Tuesday's holiday and a Friday's early close, in a load built five days before. -/
theorem marketCalendar_loads_founder :
    ∃ event after calendar,
      setMarketCalendar (byFounder 1700000000 (by decide))
        ⟨some (params.toConfig founder), fun _ => none, fun _ => none, accounts⟩ founder
        [19675] [19678] 19700 = .ok (event, after) ∧
      after.config = some { params.toConfig founder with marketCalendar := calendar } ∧
      isMarketCalendarLoaded (Client.MarketCalendar.of calendar) ⟨[19678], [19675], 19700⟩ = true ∧
      ∀ clock, ensureMarketCalendar (Client.MarketCalendar.of calendar) ⟨[19678], [19675], 19700⟩ clock =
        none :=
  (marketCalendar_loads deployment).2.2.1 _ _ founder _ ⟨[19678], [19675], 19700⟩ 19670 _ _ _ rfl
    ⟨by decide, by decide, by decide, by decide, by decide⟩ (by decide) (by decide) (by decide)
    (by decide) (by decide)

end Laterite.Setup
