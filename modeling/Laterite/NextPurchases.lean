import Laterite.SweepBoundaries
import Laterite.SweepFrequency
import Laterite.UserWellFormed

/-!
# When the next purchase can happen

The dashboard foretells it from the engine's rules alone. The program also asks for a token that was
not yet swept on the day, and a session may be under way when the user's week starts over.
-/

namespace Laterite

open CheckedComputation TimedRuns

def UserConfig.Fresh (u : UserConfig) (time : ℤ) : Prop :=
  ∃ token lastDay, enabled u.paymentTokens token = true ∧ u.lastSweepDay[token]? = some lastDay ∧
    lastDay < UInt32.ofInt (utcDay time)

def UserConfig.Pullable (u : UserConfig) (betaCap : UInt64) (calendar : MarketCalendar)
    (balances : ℕ → ℤ → UInt64) (time : ℤ) : Prop :=
  ∃ token lastDay, enabled u.paymentTokens token = true ∧ u.lastSweepDay[token]? = some lastDay ∧
    lastDay < UInt32.ofInt (utcDay time) ∧
    (u.engine = .weekly → usMarketOpen time calendar = true) ∧
    ∃ p, u.pull token (balances token time) betaCap calendar time = .ok p ∧
      0 < p.engine.toNat + p.pending.toNat

/-- From `now` on no balance limits a pull. -/
def UserConfig.Ample (u : UserConfig) (betaCap : UInt64) (balances : ℕ → ℤ → UInt64) (now : ℤ) :
    Prop :=
  ∀ token < paymentTokenCount, enabled u.paymentTokens token = true → ∀ time, now ≤ time →
    (u.weeklyCap betaCap time).toNat - (u.spentAt time).toNat ≤
      (balances token time).toNat - (u.cushions[token]?.getD UInt64.maxValue).toNat

/-- The calendar as the program loads it on `today`. -/
def MarketCalendar.LoadedOn (self : MarketCalendar) (today : ℤ) : Prop :=
  ∃ holidays earlyCloses validThrough,
    MarketCalendar.new holidays earlyCloses validThrough today = .ok self

/-- The account's times are past ones of a clock that counts from 1970. -/
structure UserConfig.Dated (u : UserConfig) (now : ℤ) : Prop where
  enrolled : 0 ≤ u.enrolledAt
  since : u.enrolledAt ≤ now
  ran : u.engineRanAt ≤ now
  week : ∃ time, u.enrolledAt ≤ time ∧ time ≤ now ∧ u.week = u.weekAt time

theorem UserRun.dated {user : Pubkey} {h : List (Transition (Option UserConfig) UserAction)}
    {u : UserConfig} (run : UserRun user h (some u)) :
    ∀ now, (∀ p ∈ h, 0 ≤ p.now ∧ p.now ≤ now) → u.Dated now := by
  refine run.induct (J := fun h u => ∀ now, (∀ p ∈ h, 0 ≤ p.now ∧ p.now ≤ now) → u.Dated now) ?_ ?_
  · intro start bump params config _ _ now hclock
    rcases hclock _ List.mem_cons_self with ⟨hstart, hnow⟩
    have hweek : (UserConfig.enrolled user bump params start).weekAt start = 0 := by
      have helapsed : max (I64.saturatingSub start start) 0 / weekSeconds = 0 := by
        unfold I64.saturatingSub I64.minValue I64.maxValue weekSeconds daySeconds
        omega
      exact congrArg UInt32.ofInt helapsed
    exact ⟨hstart, hnow, hstart.trans hnow, start, le_refl _, hnow, hweek.symm⟩
  · intro h t u u' past later taken hb ha ih now hclock
    rcases ih now fun p hp => hclock p (List.mem_cons_of_mem t hp) with ⟨henrolled, hsince, hran, hweek⟩
    have hnow := (hclock t List.mem_cons_self).2
    rcases taken.books hb ha with ⟨config, event, balance, total, -, -, rfl⟩ | ⟨-, hbooks⟩
    · rcases past.enrolledIn.begun with ⟨first, hfirst, hfirstTime⟩
      refine ⟨henrolled, hsince, ?_, t.now, hfirstTime ▸ later first hfirst, hnow, rfl⟩
      unfold UserConfig.swept
      dsimp only
      split
      · exact hnow
      · exact hran
    · rcases hweek with ⟨time, hstart, hend, hweek⟩
      refine ⟨?_, ?_, ?_, time, ?_, hend, ?_⟩
      · rw [hbooks.enrolledAt]
        exact henrolled
      · rw [hbooks.enrolledAt]
        exact hsince
      · rw [hbooks.engineRanAt]
        exact hran
      · rw [hbooks.enrolledAt]
        exact hstart
      · rw [hbooks.week, hweek, UserConfig.weekAt, UserConfig.weekAt, hbooks.enrolledAt]

namespace Client

variable {start time day day' : ℤ} {calendar : MarketCalendar} {session other : MarketSession}

theorem divEuclid_day (time : ℤ) : divEuclid time daySeconds = time / 86400 :=
  divEuclid_eq time (by decide)

theorem marketSession_bounds (h : marketSession day calendar = some session) :
    day * 86400 ≤ session.opens ∧ session.opens < session.closes ∧
      session.closes < (day + 1) * 86400 := by
  unfold marketSession at h
  split at h
  · cases h
  · dsimp only at h
    split at h
    · cases h
    · cases h
      unfold openTime closeTime earlyCloseTime hour daySeconds
      dsimp only
      split <;> split <;> omega

theorem marketSession_covered (h : marketSession day calendar = some session) :
    calendar.firstDay ≤ day ∧ day ≤ calendar.validThrough := by
  unfold marketSession at h
  split at h
  · cases h
  · omega

theorem usMarketOpen_iff : usMarketOpen time calendar = true ↔
    ∃ session, marketSession (time / 86400) calendar = some session ∧ session.opens ≤ time ∧
      time < session.closes := by
  unfold usMarketOpen
  rw [divEuclid_day]
  cases marketSession (time / 86400) calendar with
  | none => simp
  | some session => simp

theorem nextMarketSessionFrom_first {days : ℕ}
    (h : nextMarketSessionFrom start calendar days day = some session) :
    ∃ found, day ≤ found ∧ marketSession found calendar = some session ∧ start < session.closes ∧
      ∀ earlier other, day ≤ earlier → earlier < found →
        marketSession earlier calendar = some other → other.closes ≤ start := by
  induction days generalizing day with
  | zero => cases h
  | succ days ih =>
    have hlater (hnot : ∀ other, marketSession day calendar = some other → other.closes ≤ start)
        (h : nextMarketSessionFrom start calendar days (day + 1) = some session) :
        ∃ found, day ≤ found ∧ marketSession found calendar = some session ∧
          start < session.closes ∧ ∀ earlier other, day ≤ earlier → earlier < found →
            marketSession earlier calendar = some other → other.closes ≤ start := by
      rcases ih h with ⟨found, hle, hfound, hopen, hbefore⟩
      refine ⟨found, by omega, hfound, hopen, fun earlier other hearlier hlt hother => ?_⟩
      rcases hearlier.eq_or_lt with rfl | hearlier
      · exact hnot other hother
      · exact hbefore earlier other hearlier hlt hother
    unfold nextMarketSessionFrom at h
    cases hsession : marketSession day calendar with
    | none =>
      rw [hsession] at h
      exact hlater (fun other hother => by cases hsession.symm.trans hother) h
    | some today =>
      rw [hsession] at h
      dsimp only at h
      split at h
      · rename_i hopen
        cases h
        exact ⟨day, le_refl day, hsession, hopen, fun earlier other hle hlt => by omega⟩
      · rename_i hclosed
        refine hlater (fun other hother => ?_) h
        cases hsession.symm.trans hother
        omega

theorem nextMarketSessionFrom_none {days : ℕ}
    (h : nextMarketSessionFrom start calendar days day = none) (hfrom : day ≤ day')
    (hto : day' < day + days) (hother : marketSession day' calendar = some other) :
    other.closes ≤ start := by
  induction days generalizing day with
  | zero => omega
  | succ days ih =>
    unfold nextMarketSessionFrom at h
    rcases hfrom.eq_or_lt with rfl | hlt
    · rw [hother] at h
      dsimp only at h
      split at h
      · cases h
      · omega
    · cases hsession : marketSession day calendar with
      | none =>
        rw [hsession] at h
        exact ih h (by omega) (by omega)
      | some today =>
        rw [hsession] at h
        dsimp only at h
        split at h
        · cases h
        · exact ih h (by omega) (by omega)

theorem nextMarketSession_opens_le (hstart : start ≤ time) (hopen : usMarketOpen time calendar = true) :
    ∃ session, nextMarketSession start calendar = some session ∧ session.opens ≤ time := by
  rcases usMarketOpen_iff.mp hopen with ⟨current, hcurrent, hopened, hcloses⟩
  have hcovered := (marketSession_covered hcurrent).2
  unfold nextMarketSession
  dsimp only
  rw [divEuclid_day]
  cases hnext : nextMarketSessionFrom start calendar
      (calendar.validThrough + 1 - start / 86400).toNat (start / 86400) with
  | none =>
    have hclosed := nextMarketSessionFrom_none hnext (by omega) (by omega) hcurrent
    omega
  | some session =>
    rcases nextMarketSessionFrom_first hnext with ⟨found, -, hfound, -, hbefore⟩
    refine ⟨session, rfl, ?_⟩
    rcases lt_trichotomy found (time / 86400) with hlt | heq | hgt
    · have hbounds := marketSession_bounds hfound
      omega
    · rw [heq, hcurrent] at hfound
      cases hfound
      exact hopened
    · have hclosed := hbefore (time / 86400) current (by omega) hgt hcurrent
      omega

theorem usMarketOpen_of_next (h : nextMarketSession start calendar = some session)
    (hopened : session.opens ≤ time) (hcloses : time < session.closes) :
    usMarketOpen time calendar = true := by
  rcases nextMarketSessionFrom_first h with ⟨found, -, hfound, -, -⟩
  have hbounds := marketSession_bounds hfound
  have hday : time / 86400 = found := by omega
  exact usMarketOpen_iff.mpr ⟨session, hday ▸ hfound, hopened, hcloses⟩

theorem day_of_next (h : nextMarketSession start calendar = some session)
    (hopened : session.opens ≤ time) (hcloses : time < session.closes) :
    time / 86400 = session.opens / 86400 := by
  rcases nextMarketSessionFrom_first h with ⟨found, -, hfound, -, -⟩
  have hbounds := marketSession_bounds hfound
  omega

theorem opens_lt_closes (h : nextMarketSession start calendar = some session) :
    session.opens < session.closes := by
  rcases nextMarketSessionFrom_first h with ⟨found, -, hfound, -, -⟩
  exact (marketSession_bounds hfound).2.1

theorem opens_covered (h : nextMarketSession start calendar = some session) :
    session.opens < (calendar.validThrough + 1) * 86400 := by
  rcases nextMarketSessionFrom_first h with ⟨found, -, hfound, -, -⟩
  have hbounds := marketSession_bounds hfound
  have hcovered := marketSession_covered hfound
  omega

end Client

namespace App

open Client (divEuclid engineDue nextMarketSession spentAt weekAt weeklyCap)

inductive NextBuy where
  | paused
  | income
  | soon
  | atTime (time : ℤ)
  | hold
  deriving DecidableEq

def resetsAt (user : Client.UserConfig) (now : ℤ) : ℤ :=
  user.enrolledAt + ((weekAt user now + 1 : ℕ) : ℤ) * Client.weekSeconds

def ranThisWeek (user : Client.UserConfig) (now : ℤ) : Bool :=
  user.engineRanAt ≥ user.enrolledAt ∧ weekAt user user.engineRanAt = weekAt user now

/-- Something waits, or the weekly engine has not run this week. -/
def weeklyDue (user : Client.UserConfig) (now : ℤ) : Bool :=
  user.pending > 0 || !ranThisWeek user now

/-- When the next purchase can happen, by the engine's rules. -/
def nextBuy (user : Client.UserConfig) (calendar : Client.MarketCalendar) (now : ℤ) : NextBuy :=
  if user.status = .paused then .paused
  else
    let scheduled : Bool := user.engineAmount > 0
    let waiting : Bool := user.pending > 0
    if !scheduled && !waiting then .income
    else if user.engine = .daily then
      if waiting || engineDue user calendar now then .soon
      else .atTime ((divEuclid now Client.daySeconds + 1) * Client.daySeconds)
    else
      let today := divEuclid now Client.daySeconds
      if today < calendar.firstDay ∨ today > calendar.validThrough then .hold
      else
        let start := if weeklyDue user now then now else resetsAt user now
        match nextMarketSession start calendar with
        | none => .hold
        | some session => if session.opens ≤ now then .soon else .atTime session.opens

/-- What the dashboard says of an active user is so: something can be pulled now, or at the time and
no earlier, or never while the calendar lasts. -/
def TellsTrue (u : UserConfig) (betaCap : UInt64) (calendar : MarketCalendar)
    (balances : ℕ → ℤ → UInt64) (now : ℤ) : NextBuy → Prop
  | .paused | .income => True
  | .soon => u.Pullable betaCap calendar balances now
  | .atTime time => now < time ∧
    (∀ earlier, now ≤ earlier → earlier < time → ¬u.Pullable betaCap calendar balances earlier) ∧
    u.Pullable betaCap calendar balances time
  | .hold => ∀ time, now ≤ time → (calendar.firstDay.toNat : ℤ) ≤ utcDay time →
    utcDay time ≤ calendar.validThrough.toNat → ¬u.Pullable betaCap calendar balances time

/-- When the dashboard is right about a user who has something to invest. The day of the purchase
is one no enabled token, or not every one, was swept on: today, or tomorrow once a daily engine with
nothing waiting has run; for a weekly user, while the calendar lasts, the day of the next session,
from the week's reset on once the engine has run and nothing waits. And that session does not open
before the reset. -/
def Opportune (u : UserConfig) (calendar : Client.MarketCalendar) (now : ℤ) : Prop :=
  let user := Client.UserConfig.of u
  user.engineAmount > 0 ∨ user.pending > 0 →
    if user.engine = .daily then
      u.Fresh (if user.pending > 0 || engineDue user calendar now then now
        else (divEuclid now Client.daySeconds + 1) * Client.daySeconds)
    else
      let today := divEuclid now Client.daySeconds
      calendar.firstDay ≤ today ∧ today ≤ calendar.validThrough →
        ∀ session, nextMarketSession (if weeklyDue user now then now else resetsAt user now)
            calendar = some session →
          u.Fresh session.opens ∧ (weeklyDue user now = false → resetsAt user now ≤ session.opens)

def HasRoom (user : Client.UserConfig) (betaCap time : ℤ) : Prop :=
  spentAt user time < weeklyCap user betaCap time

/-- What the engine's rules ask of an instant at which something is pulled. -/
structure Buys (user : Client.UserConfig) (betaCap : ℤ) (calendar : Client.MarketCalendar)
    (time : ℤ) : Prop where
  session : user.engine = .weekly → Client.usMarketOpen time calendar = true
  room : HasRoom user betaCap time
  wanted : (engineDue user calendar time = true ∧ 0 < user.engineAmount) ∨ 0 < user.pending

variable {u : UserConfig} {betaCap : UInt64} {calendar : MarketCalendar}
  {balances : ℕ → ℤ → UInt64} {now time : ℤ}

theorem pull_positive {token : ℕ} {balance : UInt64} (hactive : u.status = .active)
    (hample : (u.weeklyCap betaCap time).toNat - (u.spentAt time).toNat ≤
      balance.toNat - (u.cushions[token]?.getD UInt64.maxValue).toNat) :
    (∃ p, u.pull token balance betaCap calendar time = .ok p ∧
        0 < p.engine.toNat + p.pending.toNat) ↔
      (u.spentAt time).toNat < (u.weeklyCap betaCap time).toNat ∧
        ((u.engineDue calendar time = true ∧ 0 < u.engineAmount.toNat) ∨ 0 < u.pending.toNat) := by
  have hroom : (min ((u.weeklyCap betaCap time).saturatingSub (u.spentAt time))
      (balance.saturatingSub (u.cushions[token]?.getD UInt64.maxValue))).toNat =
        (u.weeklyCap betaCap time).toNat - (u.spentAt time).toNat := by
    rw [UInt64.toNat_min, UInt64.toNat_saturatingSub, UInt64.toNat_saturatingSub]
    omega
  unfold UserConfig.pull
  rw [if_neg (not_not.mpr hactive)]
  dsimp only
  generalize min ((u.weeklyCap betaCap time).saturatingSub (u.spentAt time))
    (balance.saturatingSub (u.cushions[token]?.getD UInt64.maxValue)) = room at hroom
  have hengine : (if u.engineDue calendar time = true then min u.engineAmount room else 0).toNat =
      if u.engineDue calendar time = true then min u.engineAmount.toNat room.toNat else 0 := by
    split
    · exact UInt64.toNat_min _ _
    · rfl
  generalize (if u.engineDue calendar time = true then min u.engineAmount room else 0) = engine
    at hengine
  have hle : engine ≤ room := by
    rw [UInt64.le_iff_toNat_le, hengine]
    split
    · exact Nat.min_le_right _ _
    · exact Nat.zero_le _
  have hrest : room.checkedSub engine = (.ok (room - engine) : Result UInt64) := if_pos hle
  have hrestValue : (room - engine).toNat = room.toNat - engine.toNat :=
    UInt64.toNat_sub_of_le room engine hle
  have hpending : (min u.pending (room - engine)).toNat =
      min u.pending.toNat (room.toNat - engine.toNat) := by
    rw [UInt64.toNat_min, hrestValue]
  rw [hrest, ok_bind]
  have hvalue : (∃ p, (pure ⟨engine, min u.pending (room - engine)⟩ : Result Pull) = .ok p ∧
      0 < p.engine.toNat + p.pending.toNat) ↔
        0 < engine.toNat + min u.pending.toNat (room.toNat - engine.toNat) := by
    constructor
    · rintro ⟨p, hp, hpositive⟩
      cases hp
      rw [hpending] at hpositive
      exact hpositive
    · intro hpositive
      refine ⟨_, rfl, ?_⟩
      rw [hpending]
      exact hpositive
  rw [hvalue]
  clear hvalue
  by_cases hdue : u.engineDue calendar time = true
  · rw [if_pos hdue] at hengine
    simp only [hdue, true_and]
    omega
  · rw [if_neg hdue] at hengine
    simp only [hdue, false_and, false_or, Bool.false_eq_true]
    omega

/-- A time the program's clock can read, with a week to spare. -/
def Readable (time : ℤ) : Prop := time + weekSeconds ≤ I64.maxValue

theorem buys_iff (hdated : u.Dated now) (hreadable : Readable now) (hnow : now ≤ time)
    (htime : time ≤ I64.maxValue) :
    Buys (.of u) betaCap.toNat (.of calendar) time ↔
      (u.engine = .weekly → usMarketOpen time calendar = true) ∧
        (u.spentAt time).toNat < (u.weeklyCap betaCap time).toNat ∧
        ((u.engineDue calendar time = true ∧ 0 < u.engineAmount.toNat) ∨ 0 < u.pending.toNat) := by
  rcases hdated with ⟨henrolled, hsince, hran, -⟩
  unfold Readable at hreadable
  unfold I64.maxValue at hreadable htime
  have hstart : I64.minValue ≤ u.enrolledAt := by
    unfold I64.minValue
    omega
  have htrial : u.enrolledAt + Client.trialSeconds ≤ I64.maxValue := by
    unfold I64.maxValue
    unfold weekSeconds daySeconds at hreadable
    unfold Client.trialSeconds Client.weekSeconds Client.daySeconds
    omega
  have hspent := @Client.spentAt_eq u time (by omega)
  have hcap := @Client.weeklyCap_eq u time betaCap hstart htrial
  have hdue := @Client.engineDue_eq u time calendar (by omega) (by omega)
  have hopen := Client.usMarketOpen_eq time calendar
  have hamount : (Client.UserConfig.of u).engineAmount = u.engineAmount.toNat := rfl
  have hpending : (Client.UserConfig.of u).pending = u.pending.toNat := rfl
  constructor
  · rintro ⟨hsession, hroom, hwanted⟩
    unfold HasRoom at hroom
    rw [hspent, hcap] at hroom
    rw [hopen] at hsession
    rw [hdue, hamount, hpending, Int.natCast_pos, Int.natCast_pos] at hwanted
    exact ⟨hsession, Int.ofNat_lt.mp hroom, hwanted⟩
  · rintro ⟨hsession, hroom, hwanted⟩
    refine ⟨fun hweekly => hopen.trans (hsession hweekly), ?_, ?_⟩
    · unfold HasRoom
      rw [hspent, hcap]
      exact Int.ofNat_lt.mpr hroom
    · rw [hdue, hamount, hpending, Int.natCast_pos, Int.natCast_pos]
      exact hwanted

/-- Something can be pulled where the engine's rules allow it and a token is fresh. -/
theorem pullable_iff (hactive : u.status = .active) (hample : u.Ample betaCap balances now)
    (hdated : u.Dated now) (hreadable : Readable now) (hnow : now ≤ time)
    (htime : time ≤ I64.maxValue) :
    u.Pullable betaCap calendar balances time ↔
      u.Fresh time ∧ Buys (.of u) betaCap.toNat (.of calendar) time := by
  rw [buys_iff hdated hreadable hnow htime]
  constructor
  · rintro ⟨token, lastDay, henabled, hlast, hfresh, hsession, hpull⟩
    have hindex : token < paymentTokenCount := (Vector.getElem?_eq_some_iff.mp hlast).1
    have hallowed := (pull_positive hactive (hample token hindex henabled time hnow)).mp hpull
    exact ⟨⟨token, lastDay, henabled, hlast, hfresh⟩, hsession, hallowed⟩
  · rintro ⟨⟨token, lastDay, henabled, hlast, hfresh⟩, hsession, hallowed⟩
    have hindex : token < paymentTokenCount := (Vector.getElem?_eq_some_iff.mp hlast).1
    have hpull := (pull_positive hactive (hample token hindex henabled time hnow)).mpr hallowed
    exact ⟨token, lastDay, henabled, hlast, hfresh, hsession, hpull⟩

variable {user : Client.UserConfig} {cap later : ℤ}

theorem HasRoom.congr (hroom : HasRoom user cap time) (htime : user.enrolledAt ≤ time)
    (hlater : user.enrolledAt ≤ later)
    (hweek : userWeek user.enrolledAt later = userWeek user.enrolledAt time) :
    HasRoom user cap later := by
  unfold userWeek at hweek
  have hweekAt : weekAt user later = weekAt user time := by
    have helapsed (t : ℤ) (ht : user.enrolledAt ≤ t) :
        (if t - user.enrolledAt > 0 then t - user.enrolledAt else 0).tdiv Client.weekSeconds =
          (t - user.enrolledAt) / weekSeconds := by
      have hclamp : (if t - user.enrolledAt > 0 then t - user.enrolledAt else 0) =
          t - user.enrolledAt := by
        split <;> omega
      rw [hclamp, Int.tdiv_eq_ediv_of_nonneg (by omega)]
      rfl
    unfold weekAt
    dsimp only
    rw [helapsed later hlater, helapsed time htime, hweek]
  have htrial : later < user.enrolledAt + Client.trialSeconds ↔
      time < user.enrolledAt + Client.trialSeconds := by
    unfold Client.trialSeconds Client.weekSeconds Client.daySeconds
    unfold weekSeconds daySeconds at hweek
    omega
  unfold HasRoom spentAt weeklyCap at hroom ⊢
  simp only [hweekAt, htrial]
  exact hroom

theorem HasRoom.midnight (hroom : HasRoom user cap now)
    (hnext : HasRoom user cap (now + Client.weekSeconds)) (hsince : user.enrolledAt ≤ now)
    (hlater : now ≤ later) (hday : later ≤ now + 86400) : HasRoom user cap later := by
  have hcases : userWeek user.enrolledAt later = userWeek user.enrolledAt now ∨
      userWeek user.enrolledAt later = userWeek user.enrolledAt (now + Client.weekSeconds) := by
    unfold userWeek weekSeconds daySeconds Client.weekSeconds Client.daySeconds
    omega
  rcases hcases with hthis | hfollowing
  · exact hroom.congr hsince (by omega) hthis
  · refine hnext.congr ?_ (by omega) hfollowing
    unfold Client.weekSeconds Client.daySeconds
    omega

/-- Before the days of any calendar end, the weeks of a user enrolled since 1970 fit their word. -/
def Calendared (time : ℤ) : Prop := time < 65536 * 86400

theorem weekAt_eq_userWeek (henrolled : 0 ≤ user.enrolledAt) (htime : user.enrolledAt ≤ time)
    (hcalendared : Calendared time) :
    (weekAt user time : ℤ) = userWeek user.enrolledAt time := by
  unfold Calendared at hcalendared
  have hclock : time < user.enrolledAt + (2 ^ 32 - 1) * Client.weekSeconds := by
    unfold Client.weekSeconds Client.daySeconds
    omega
  rw [Client.weekAt_eq_ediv user hclock, Int.max_eq_left (by omega)]
  rfl

theorem lt_resetsAt (henrolled : 0 ≤ user.enrolledAt) (hnow : user.enrolledAt ≤ now)
    (hcalendared : Calendared now) :
    now < resetsAt user now ∧ ∀ time, now ≤ time → (resetsAt user now ≤ time ↔
      userWeek user.enrolledAt now < userWeek user.enrolledAt time) := by
  have hweek := weekAt_eq_userWeek henrolled hnow hcalendared
  unfold resetsAt
  rw [Nat.cast_add, hweek]
  unfold userWeek weekSeconds daySeconds Client.weekSeconds Client.daySeconds
  constructor
  · omega
  · intro time hlater
    omega

/-- The account's tables let every later week begin with room. -/
theorem HasRoom.onward {u : UserConfig} {betaCap : UInt64} (htier : u.tier.toNat < 2)
    (hdated : u.Dated now) (hroom : HasRoom (.of u) betaCap.toNat now) (hnow : now ≤ time)
    (hcalendared : Calendared time) : HasRoom (.of u) betaCap.toNat time := by
  rcases hdated with ⟨henrolled, hsince, -, past, hstart, hpast, hweek⟩
  have hcalendaredNow : Calendared now := by
    unfold Calendared at hcalendared ⊢
    omega
  rcases (userWeek_mono u.enrolledAt hnow).eq_or_lt with hsame | hlater
  · exact hroom.congr hsince (hsince.trans hnow) hsame.symm
  · have hspent : spentAt (Client.UserConfig.of u) time = 0 := by
      apply if_neg
      intro hequal
      have hpastWeek : (weekAt (Client.UserConfig.of u) past : ℤ) = userWeek u.enrolledAt past := by
        refine @weekAt_eq_userWeek past (.of u) henrolled hstart ?_
        unfold Calendared at hcalendared ⊢
        omega
      have hclient : weekAt (Client.UserConfig.of u) past = u.week.toNat := by
        rw [hweek]
        apply Client.weekAt_eq
        unfold Calendared at hcalendared
        omega
      have htimeWeek : (weekAt (Client.UserConfig.of u) time : ℤ) = userWeek u.enrolledAt time :=
        @weekAt_eq_userWeek time (.of u) henrolled (hsince.trans hnow) hcalendared
      have hle := userWeek_mono u.enrolledAt hpast
      have hstored : (Client.UserConfig.of u).week = u.week.toNat := rfl
      omega
    have hcapped : 0 < (betaCap.toNat : ℤ) := by
      have hspentNow : 0 ≤ spentAt (Client.UserConfig.of u) now := by
        unfold spentAt
        split
        · exact Int.natCast_nonneg _
        · exact le_refl 0
      unfold HasRoom weeklyCap Client.min at hroom
      dsimp only at hroom
      split at hroom <;> omega
    have htrial : ¬time < (Client.UserConfig.of u).enrolledAt + Client.trialSeconds := by
      have hpositive : 0 ≤ userWeek u.enrolledAt now := by
        unfold userWeek weekSeconds daySeconds
        omega
      change ¬time < u.enrolledAt + Client.trialSeconds
      unfold Client.trialSeconds Client.weekSeconds Client.daySeconds
      unfold userWeek weekSeconds daySeconds at hpositive hlater
      omega
    have htable : 0 < Client.tiers[(Client.UserConfig.of u).tier]?.getD 0 := by
      change 0 < Client.tiers[u.tier.toNat]?.getD 0
      interval_cases u.tier.toNat <;> decide
    unfold HasRoom
    rw [hspent]
    unfold weeklyCap
    rw [if_neg htrial]
    unfold Client.min
    dsimp only
    split
    · exact htable
    · exact hcapped

theorem ranThisWeek_iff (henrolled : 0 ≤ user.enrolledAt) (hsince : user.enrolledAt ≤ now)
    (hran : user.engineRanAt ≤ now) (hcalendared : Calendared now) :
    ranThisWeek user now = true ↔ user.enrolledAt ≤ user.engineRanAt ∧
      userWeek user.enrolledAt user.engineRanAt = userWeek user.enrolledAt now := by
  have hweek := weekAt_eq_userWeek henrolled hsince hcalendared
  unfold ranThisWeek
  rw [decide_eq_true_eq]
  apply and_congr_right
  intro hstarted
  have hranWeek : (weekAt user user.engineRanAt : ℤ) =
      userWeek user.enrolledAt user.engineRanAt := by
    apply weekAt_eq_userWeek henrolled hstarted
    unfold Calendared at hcalendared ⊢
    omega
  omega

theorem engineDue_weekly {calendar : Client.MarketCalendar} (hweekly : user.engine = .weekly)
    (henrolled : 0 ≤ user.enrolledAt) (hsince : user.enrolledAt ≤ time)
    (hran : user.engineRanAt ≤ time) (hcalendared : Calendared time) :
    engineDue user calendar time = true ↔
      (user.enrolledAt ≤ user.engineRanAt →
        userWeek user.enrolledAt user.engineRanAt < userWeek user.enrolledAt time) ∧
      Client.usMarketOpen time calendar = true := by
  have hweek := weekAt_eq_userWeek henrolled hsince hcalendared
  have hranWeek (hstarted : user.enrolledAt ≤ user.engineRanAt) :
      (weekAt user user.engineRanAt : ℤ) = userWeek user.enrolledAt user.engineRanAt := by
    apply weekAt_eq_userWeek henrolled hstarted
    unfold Calendared at hcalendared ⊢
    omega
  unfold engineDue
  rw [hweekly]
  simp only [reduceCtorEq, if_false, Bool.and_eq_true, Bool.or_eq_true, Bool.not_eq_true',
    decide_eq_false_iff_not, decide_eq_true_eq, ge_iff_le]
  apply and_congr_left
  intro _
  constructor
  · rintro (hnever | hlater) hstarted
    · exact absurd hstarted hnever
    · have hranWeek := hranWeek hstarted
      omega
  · intro hlater
    by_cases hstarted : user.enrolledAt ≤ user.engineRanAt
    · have hranWeek := hranWeek hstarted
      have hlater := hlater hstarted
      right
      omega
    · exact Or.inl hstarted

/-- A weekly user's purchases fall in the sessions from the dashboard's start on. -/
theorem buys_weekly {u : UserConfig} {calendar : MarketCalendar} {betaCap : UInt64}
    (hweekly : u.engine = .weekly) (htier : u.tier.toNat < 2) (hdated : u.Dated now)
    (hwants : 0 < (Client.UserConfig.of u).engineAmount ∨ 0 < (Client.UserConfig.of u).pending)
    (hroom : HasRoom (.of u) betaCap.toNat now) (hnow : now ≤ time) (hcalendared : Calendared time) :
    Buys (.of u) betaCap.toNat (.of calendar) time ↔
      Client.usMarketOpen time (.of calendar) = true ∧
        (if weeklyDue (.of u) now then now else resetsAt (.of u) now) ≤ time := by
  have hroomThen := hroom.onward htier hdated hnow hcalendared
  rcases hdated with ⟨henrolled, hsince, hran, -⟩
  have hcalendaredNow : Calendared now := by
    unfold Calendared at hcalendared ⊢
    omega
  have hengine : (Client.UserConfig.of u).engine = .weekly := hweekly
  have hranThisWeek := @ranThisWeek_iff now (.of u) henrolled hsince hran hcalendaredNow
  have hdue := @engineDue_weekly time (.of u) (.of calendar) hengine henrolled (hsince.trans hnow)
    (hran.trans hnow) hcalendared
  have hresets := (@lt_resetsAt now (.of u) henrolled hsince hcalendaredNow).2 time hnow
  have hmono := userWeek_mono u.enrolledAt hnow
  have hranMono := userWeek_mono u.enrolledAt hran
  by_cases hwaiting : 0 < (Client.UserConfig.of u).pending
  · have hdueNow : weeklyDue (.of u) now = true := by
      unfold weeklyDue
      rw [decide_eq_true hwaiting, Bool.true_or]
    rw [if_pos hdueNow]
    exact ⟨fun h => ⟨h.session hengine, hnow⟩, fun h => ⟨fun _ => h.1, hroomThen, Or.inr hwaiting⟩⟩
  · have hscheduled := hwants.resolve_right hwaiting
    have hdueNow : weeklyDue (.of u) now = !ranThisWeek (.of u) now := by
      unfold weeklyDue
      rw [decide_eq_false hwaiting, Bool.false_or]
    rw [hdueNow]
    cases hthisWeek : ranThisWeek (.of u) now with
    | true =>
      have hsame := (hranThisWeek.mp hthisWeek)
      rw [if_neg (by decide), hresets]
      constructor
      · rintro ⟨hsession, -, hwanted⟩
        have hlater := (hdue.mp (hwanted.resolve_right hwaiting).1).1 hsame.1
        rw [hsame.2] at hlater
        exact ⟨hsession hengine, hlater⟩
      · rintro ⟨hopen, hlater⟩
        refine ⟨fun _ => hopen, hroomThen, Or.inl ⟨hdue.mpr ⟨fun _ => ?_, hopen⟩, hscheduled⟩⟩
        rw [hsame.2]
        exact hlater
    | false =>
      have hother : ¬ranThisWeek (.of u) now = true := by
        rw [hthisWeek]
        decide
      rw [if_pos (by decide)]
      constructor
      · intro h
        exact ⟨h.session hengine, hnow⟩
      · rintro ⟨hopen, -⟩
        refine ⟨fun _ => hopen, hroomThen, Or.inl ⟨hdue.mpr ⟨fun hstarted => ?_, hopen⟩, hscheduled⟩⟩
        have hne : userWeek u.enrolledAt u.engineRanAt ≠ userWeek u.enrolledAt now :=
          fun heq => hother (hranThisWeek.mpr ⟨hstarted, heq⟩)
        change userWeek u.enrolledAt u.engineRanAt < userWeek u.enrolledAt time
        omega

theorem fresh_congr {u : UserConfig} (hday : utcDay time = utcDay later) :
    u.Fresh time ↔ u.Fresh later := by
  unfold UserConfig.Fresh
  rw [hday]

/-- A loaded calendar starts on the day it was loaded, or covers none. -/
theorem firstDay_le {calendar : MarketCalendar} {today : ℤ} (h : calendar.LoadedOn today) :
    (calendar.firstDay.toNat : ℤ) ≤ today ∨ calendar.validThrough.toNat < calendar.firstDay.toNat := by
  rcases h with ⟨holidays, earlyCloses, validThrough, h⟩
  simp only [MarketCalendar.new, bind_eq_ok, require_eq_ok, pure_eq_ok, exists_const] at h
  rcases h with ⟨⟨htoday, hlast⟩, -, _, -, -, _, -, -, rfl⟩
  have hword := validThrough.toNat_lt
  have hnonneg := Int.emod_nonneg today (show (65536 : ℤ) ≠ 0 by decide)
  have hlt := Int.emod_lt_of_pos today (show (0 : ℤ) < 65536 by decide)
  have hfirst : (UInt16.ofInt today).toNat = (today % 65536).toNat := by
    have hcast : UInt16.ofInt today = UInt16.ofNat (today % 2 ^ 16).toNat := rfl
    rw [hcast, UInt16.toNat_ofNat_of_lt']
    · rfl
    · change (today % 65536).toNat < 65536
      omega
  dsimp only
  rw [hfirst]
  unfold I64.saturatingAdd I64.minValue I64.maxValue calendarDays at hlast
  omega

/-- The moment from which a weekly user's next session is looked for. -/
def weeklyFrom (user : Client.UserConfig) (now : ℤ) : ℤ :=
  if weeklyDue user now then now else resetsAt user now

/-- From `now` on, what is pulled is pulled in the sessions that `start` leaves. -/
def PullsFrom (u : UserConfig) (betaCap : UInt64) (calendar : MarketCalendar)
    (balances : ℕ → ℤ → UInt64) (now start : ℤ) : Prop :=
  ∀ time, now ≤ time → Calendared time → (u.Pullable betaCap calendar balances time ↔
    u.Fresh time ∧ Client.usMarketOpen time (.of calendar) = true ∧ start ≤ time)

section Sessions

variable {u : UserConfig} {calendar : MarketCalendar} {betaCap : UInt64}
  {balances : ℕ → ℤ → UInt64} {today start : ℤ} {session : Client.MarketSession}

theorem calendared_of_day {day : UInt16} (h : utcDay time ≤ day.toNat) : Calendared time := by
  have hword := day.toNat_lt
  unfold utcDay daySeconds at h
  unfold Calendared
  omega

theorem calendared_opens (h : nextMarketSession start (.of calendar) = some session) :
    Calendared session.opens := by
  have hlast := Client.opens_covered h
  have hcovers : (Client.MarketCalendar.of calendar).validThrough = calendar.validThrough.toNat := rfl
  have hword := calendar.validThrough.toNat_lt
  unfold Calendared
  omega

/-- Neither paused nor without anything to invest. -/
theorem wants_something (hactive : u.status = .active)
    (hwants : 0 < (Client.UserConfig.of u).engineAmount ∨ 0 < (Client.UserConfig.of u).pending) :
    ¬(Client.UserConfig.of u).status = .paused ∧
      (!decide ((Client.UserConfig.of u).engineAmount > 0) &&
        !decide ((Client.UserConfig.of u).pending > 0)) = false := by
  constructor
  · change ¬u.status = .paused
    rw [hactive]
    decide
  · rcases hwants with hscheduled | hwaiting
    · rw [decide_eq_true hscheduled]
      rfl
    · rw [decide_eq_true hwaiting, Bool.not_true, Bool.and_false]

theorem pullsFrom_weekly (hactive : u.status = .active) (hweekly : u.engine = .weekly)
    (htier : u.tier.toNat < 2) (hdated : u.Dated now) (hreadable : Readable now)
    (hwants : 0 < (Client.UserConfig.of u).engineAmount ∨ 0 < (Client.UserConfig.of u).pending)
    (hroom : HasRoom (.of u) betaCap.toNat now) (hample : u.Ample betaCap balances now) :
    PullsFrom u betaCap calendar balances now (weeklyFrom (.of u) now) := by
  intro time hnow hcalendared
  have hmax : time ≤ I64.maxValue := by
    unfold Calendared at hcalendared
    unfold I64.maxValue
    omega
  rw [pullable_iff hactive hample hdated hreadable hnow hmax,
    buys_weekly hweekly htier hdated hwants hroom hnow hcalendared]
  rfl

theorem nextBuy_weekly (hactive : u.status = .active) (hweekly : u.engine = .weekly)
    (hwants : 0 < (Client.UserConfig.of u).engineAmount ∨ 0 < (Client.UserConfig.of u).pending) :
    nextBuy (.of u) (.of calendar) now =
      if utcDay now < calendar.firstDay.toNat ∨ utcDay now > calendar.validThrough.toNat then .hold
      else match nextMarketSession (weeklyFrom (.of u) now) (.of calendar) with
        | none => .hold
        | some session => if session.opens ≤ now then .soon else .atTime session.opens := by
  rcases wants_something hactive hwants with ⟨hstatus, hsomething⟩
  have hengine : ¬(Client.UserConfig.of u).engine = .daily := by
    change ¬u.engine = .daily
    rw [hweekly]
    decide
  unfold nextBuy
  rw [if_neg hstatus]
  dsimp only
  rw [hsomething, if_neg Bool.false_ne_true, if_neg hengine, Client.divEuclid_day]
  rfl

theorem opportune_weekly (hweekly : u.engine = .weekly)
    (hwants : 0 < (Client.UserConfig.of u).engineAmount ∨ 0 < (Client.UserConfig.of u).pending) :
    Opportune u (.of calendar) now ↔
      ((calendar.firstDay.toNat : ℤ) ≤ utcDay now ∧ utcDay now ≤ calendar.validThrough.toNat →
        ∀ session, nextMarketSession (weeklyFrom (.of u) now) (.of calendar) = some session →
          u.Fresh session.opens ∧
            (weeklyDue (.of u) now = false → resetsAt (.of u) now ≤ session.opens)) := by
  have hengine : ¬(Client.UserConfig.of u).engine = .daily := by
    change ¬u.engine = .daily
    rw [hweekly]
    decide
  unfold Opportune
  dsimp only
  rw [if_neg hengine, Client.divEuclid_day]
  exact ⟨fun h => h hwants, fun h _ => h⟩

theorem PullsFrom.held (h : PullsFrom u betaCap calendar balances now start)
    (hnext : nextMarketSession start (.of calendar) = none) :
    TellsTrue u betaCap calendar balances now .hold := by
  intro time hnow hfirst hlast hpulled
  rcases (h time hnow (calendared_of_day hlast)).mp hpulled with ⟨-, hopen, hle⟩
  rcases Client.nextMarketSession_opens_le hle hopen with ⟨session, hsession, -⟩
  rw [hnext] at hsession
  cases hsession

/-- In a session that is open, a user who is due is swept on its day. -/
theorem PullsFrom.pulls_now (h : PullsFrom u betaCap calendar balances now now)
    (hnext : nextMarketSession now (.of calendar) = some session) (hopened : session.opens ≤ now)
    (hcalendared : Calendared now) :
    u.Pullable betaCap calendar balances now ↔ u.Fresh session.opens := by
  have hnow := Client.closes_of_nextMarketSession hnext
  have hday : utcDay now = utcDay session.opens := Client.day_of_next hnext hopened hnow
  have hopen := Client.usMarketOpen_of_next hnext hopened hnow
  rw [h now (le_refl now) hcalendared, fresh_congr hday]
  exact ⟨fun h => h.1, fun h => ⟨h, hopen, le_refl now⟩⟩

/-- The session ahead is the first one in which something can be pulled, if `start` leaves it. -/
theorem PullsFrom.ahead (h : PullsFrom u betaCap calendar balances now start)
    (hnext : nextMarketSession start (.of calendar) = some session) (hahead : now < session.opens) :
    TellsTrue u betaCap calendar balances now (.atTime session.opens) ↔
      u.Fresh session.opens ∧ start ≤ session.opens := by
  have hcalendared := calendared_opens hnext
  have hopen := Client.usMarketOpen_of_next hnext (le_refl session.opens)
    (Client.opens_lt_closes hnext)
  have hbefore : ∀ earlier, now ≤ earlier → earlier < session.opens →
      ¬u.Pullable betaCap calendar balances earlier := by
    intro earlier hnow hlt hpulled
    have hcalendaredThen : Calendared earlier := by
      unfold Calendared at hcalendared ⊢
      omega
    rcases (h earlier hnow hcalendaredThen).mp hpulled with ⟨-, hopenThen, hle⟩
    rcases Client.nextMarketSession_opens_le hle hopenThen with ⟨other, hother, hopenedThen⟩
    cases hnext.symm.trans hother
    omega
  constructor
  · rintro ⟨-, -, hpulled⟩
    rcases (h session.opens hahead.le hcalendared).mp hpulled with ⟨hfresh, -, hle⟩
    exact ⟨hfresh, hle⟩
  · rintro ⟨hfresh, hle⟩
    exact ⟨hahead, hbefore, (h session.opens hahead.le hcalendared).mpr ⟨hfresh, hopen, hle⟩⟩

/-- The dashboard on a weekly user with something to invest. -/
theorem tellsTrue_weekly (hactive : u.status = .active) (hweekly : u.engine = .weekly)
    (htier : u.tier.toNat < 2) (hdated : u.Dated now) (hreadable : Readable now)
    (hloaded : calendar.LoadedOn today) (htoday : today ≤ utcDay now)
    (hwants : 0 < (Client.UserConfig.of u).engineAmount ∨ 0 < (Client.UserConfig.of u).pending)
    (hroom : HasRoom (.of u) betaCap.toNat now) (hample : u.Ample betaCap balances now) :
    TellsTrue u betaCap calendar balances now (nextBuy (.of u) (.of calendar) now) ↔
      Opportune u (.of calendar) now := by
  have hpulls := @pullsFrom_weekly now u calendar betaCap balances hactive hweekly htier hdated
    hreadable hwants hroom hample
  rw [nextBuy_weekly hactive hweekly hwants, opportune_weekly hweekly hwants]
  by_cases hcovered : (calendar.firstDay.toNat : ℤ) ≤ utcDay now ∧
      utcDay now ≤ calendar.validThrough.toNat
  swap
  · -- Outside its days a loaded calendar has none left.
    rw [if_pos (by omega)]
    apply iff_of_true
    · intro time hnow hfirst hlast
      have hday : utcDay now ≤ utcDay time := by
        unfold utcDay daySeconds
        omega
      have hload := firstDay_le hloaded
      omega
    · intro h
      exact absurd h hcovered
  have hcalendared : Calendared now := calendared_of_day hcovered.2
  have hreset := (@lt_resetsAt now (.of u) hdated.enrolled hdated.since hcalendared).1
  rw [if_neg (by omega)]
  cases hnext : nextMarketSession (weeklyFrom (.of u) now) (.of calendar) with
  | none =>
    apply iff_of_true
    · exact hpulls.held hnext
    · intro _ session hsession
      cases hsession
  | some session =>
    have hcondition : ((calendar.firstDay.toNat : ℤ) ≤ utcDay now ∧
        utcDay now ≤ calendar.validThrough.toNat → ∀ other, some session = some other →
          u.Fresh other.opens ∧
            (weeklyDue (.of u) now = false → resetsAt (.of u) now ≤ other.opens)) ↔
        u.Fresh session.opens ∧
          (weeklyDue (.of u) now = false → resetsAt (.of u) now ≤ session.opens) := by
      constructor
      · intro h
        exact h hcovered session rfl
      · intro h _ other hother
        cases hother
        exact h
    rw [hcondition]
    dsimp only
    cases hdue : weeklyDue (.of u) now with
    | true =>
      have hstart : weeklyFrom (.of u) now = now := if_pos hdue
      rw [hstart] at hpulls hnext
      by_cases hopened : session.opens ≤ now
      · rw [if_pos hopened]
        refine (hpulls.pulls_now hnext hopened hcalendared).trans ?_
        exact ⟨fun h => ⟨h, fun hfalse => nomatch hfalse⟩, fun h => h.1⟩
      · rw [if_neg hopened, hpulls.ahead hnext (not_le.mp hopened)]
        exact ⟨fun h => ⟨h.1, fun hfalse => nomatch hfalse⟩, fun h => ⟨h.1, (not_le.mp hopened).le⟩⟩
    | false =>
      have hstart : weeklyFrom (.of u) now = resetsAt (.of u) now :=
        if_neg (by rw [hdue]; exact Bool.false_ne_true)
      rw [hstart] at hpulls hnext
      by_cases hopened : session.opens ≤ now
      · -- A session that opened before the reset says nothing is pulled yet.
        rw [if_pos hopened]
        apply iff_of_false
        · intro hpulled
          have hle := ((hpulls now (le_refl now) hcalendared).mp hpulled).2.2
          omega
        · intro h
          have hle := h.2 rfl
          omega
      · rw [if_neg hopened, hpulls.ahead hnext (not_le.mp hopened)]
        exact ⟨fun h => ⟨h.1, fun _ => h.2⟩, fun h => ⟨h.1, h.2 rfl⟩⟩

end Sessions

theorem tellsTrue_daily {u : UserConfig} {calendar : MarketCalendar} {betaCap : UInt64}
    {balances : ℕ → ℤ → UInt64} (hactive : u.status = .active) (hdaily : u.engine = .daily)
    (hdated : u.Dated now) (hreadable : Readable now)
    (hwants : 0 < (Client.UserConfig.of u).engineAmount ∨ 0 < (Client.UserConfig.of u).pending)
    (hroom : HasRoom (.of u) betaCap.toNat now)
    (hnext : HasRoom (.of u) betaCap.toNat (now + Client.weekSeconds))
    (hample : u.Ample betaCap balances now) :
    TellsTrue u betaCap calendar balances now (nextBuy (.of u) (.of calendar) now) ↔
      Opportune u (.of calendar) now := by
  have hengine : (Client.UserConfig.of u).engine = .daily := hdaily
  have hmaxNow : now ≤ I64.maxValue := by
    unfold Readable weekSeconds daySeconds at hreadable
    omega
  have hdue (time : ℤ) : engineDue (.of u) (.of calendar) time = true ↔
      (u.enrolledAt ≤ u.engineRanAt → u.engineRanAt / 86400 < time / 86400) := by
    unfold engineDue
    rw [if_pos hengine, Client.divEuclid_day, Client.divEuclid_day, Bool.or_eq_true,
      Bool.not_eq_true', decide_eq_false_iff_not, decide_eq_true_eq]
    exact imp_iff_not_or.symm
  have hbuys (time : ℤ) (hroomThen : HasRoom (.of u) betaCap.toNat time) :
      Buys (.of u) betaCap.toNat (.of calendar) time ↔
        (engineDue (.of u) (.of calendar) time = true ∧ 0 < (Client.UserConfig.of u).engineAmount) ∨
          0 < (Client.UserConfig.of u).pending := by
    refine ⟨fun h => h.wanted, fun h => ⟨fun hweekly => ?_, hroomThen, h⟩⟩
    cases hengine.symm.trans hweekly
  rcases wants_something hactive hwants with ⟨hstatus, hsomething⟩
  unfold nextBuy Opportune
  dsimp only
  rw [if_neg hstatus, hsomething, if_neg Bool.false_ne_true, if_pos hengine, if_pos hengine,
    Client.divEuclid_day]
  by_cases hnow : (decide ((Client.UserConfig.of u).pending > 0) ||
      engineDue (.of u) (.of calendar) now) = true
  · rw [if_pos hnow, if_pos hnow]
    change u.Pullable betaCap calendar balances now ↔ _
    rw [pullable_iff hactive hample hdated hreadable (le_refl now) hmaxNow, hbuys now hroom]
    have hwanted : (engineDue (.of u) (.of calendar) now = true ∧
        0 < (Client.UserConfig.of u).engineAmount) ∨ 0 < (Client.UserConfig.of u).pending := by
      rcases Bool.or_eq_true _ _ ▸ hnow with hwaiting | hdueNow
      · exact Or.inr (of_decide_eq_true hwaiting)
      · exact hwants.imp_left fun hscheduled => ⟨hdueNow, hscheduled⟩
    exact ⟨fun h _ => h.1, fun h => ⟨h hwants, hwanted⟩⟩
  · rw [if_neg hnow, if_neg hnow]
    rw [Bool.or_eq_true, not_or, decide_eq_true_eq, hdue] at hnow
    rcases hnow with ⟨hwaiting, hran⟩
    rcases Classical.not_imp.mp hran with ⟨hstarted, hranToday⟩
    have hscheduled := hwants.resolve_right hwaiting
    have hmidnight : now < (now / 86400 + 1) * Client.daySeconds ∧
        (now / 86400 + 1) * Client.daySeconds ≤ now + 86400 ∧
        (now / 86400 + 1) * Client.daySeconds = (now / 86400 + 1) * 86400 := by
      unfold Client.daySeconds
      omega
    generalize (now / 86400 + 1) * Client.daySeconds = midnight at hmidnight
    rcases hmidnight with ⟨hahead, hwithin, hday⟩
    have hmax : midnight ≤ I64.maxValue := by
      unfold Readable weekSeconds daySeconds at hreadable
      omega
    have hroomThen := hroom.midnight hnext hdated.since hahead.le hwithin
    have hdueThen : engineDue (.of u) (.of calendar) midnight = true := by
      rw [hdue]
      intro _
      have hpast := hdated.ran
      omega
    have hbefore : ∀ earlier, now ≤ earlier → earlier < midnight →
        ¬u.Pullable betaCap calendar balances earlier := by
      intro earlier hlater hlt hpulled
      rw [pullable_iff hactive hample hdated hreadable hlater (hlt.le.trans hmax)] at hpulled
      have hdueEarlier := (hdue earlier).mp (hpulled.2.wanted.resolve_right hwaiting).1 hstarted
      omega
    have hpullable : u.Pullable betaCap calendar balances midnight ↔ u.Fresh midnight := by
      rw [pullable_iff hactive hample hdated hreadable hahead.le hmax, hbuys midnight hroomThen]
      exact and_iff_left (Or.inl ⟨hdueThen, hscheduled⟩)
    change now < midnight ∧ _ ∧ u.Pullable betaCap calendar balances midnight ↔ _
    rw [hpullable]
    exact ⟨fun h _ => h.2.2, fun h => ⟨hahead, hbefore, h hwants⟩⟩

variable {d : Deployment} {accounts : Accounts} {history : List (Transition Chain Happening)}
  {chain : Chain} {key : Pubkey} {u : UserConfig} {calendar : MarketCalendar} {betaCap : UInt64}
  {balances : ℕ → ℤ → UInt64} {today : ℤ}

/-- An active user's dashboard tells the true time of the next purchase exactly when the opportunity
it names is one: on a day not every enabled token was swept on, in a session that does not begin
before the week it belongs to. -/
theorem nextBuy_tells_true (run : ProgramRun d accounts history chain)
    (hclock : ∀ t ∈ history, 0 ≤ t.now ∧ t.now ≤ now) (huser : chain.userConfigs key = some u)
    (hactive : u.status = .active) (hreadable : Readable now) (hloaded : calendar.LoadedOn today)
    (htoday : today ≤ utcDay now) (hroom : HasRoom (.of u) betaCap.toNat now)
    (hnext : HasRoom (.of u) betaCap.toNat (now + Client.weekSeconds))
    (hample : u.Ample betaCap balances now) :
    TellsTrue u betaCap calendar balances now (nextBuy (.of u) (.of calendar) now) ↔
      Opportune u (.of calendar) now := by
  have life := run.userRun key
  rw [huser] at life
  have hdated : u.Dated now := by
    apply life.dated
    intro p hp
    rcases List.mem_filterMap.mp hp with ⟨t, ht, hmoment⟩
    rcases Option.map_eq_some_iff.mp hmoment with ⟨_, _, rfl⟩
    exact hclock t ht
  have htier : u.tier.toNat < 2 := (life.wellFormed.valid (by rw [hactive]; decide)).tier
  by_cases hwants : 0 < (Client.UserConfig.of u).engineAmount ∨ 0 < (Client.UserConfig.of u).pending
  · cases hengine : u.engine with
    | daily => exact tellsTrue_daily hactive hengine hdated hreadable hwants hroom hnext hample
    | weekly =>
      exact tellsTrue_weekly hactive hengine htier hdated hreadable hloaded htoday hwants hroom hample
  · have hstatus : ¬(Client.UserConfig.of u).status = .paused := by
      change ¬u.status = .paused
      rw [hactive]
      decide
    have hnothing : (!decide ((Client.UserConfig.of u).engineAmount > 0) &&
        !decide ((Client.UserConfig.of u).pending > 0)) = true := by
      rw [not_or] at hwants
      rw [decide_eq_false hwants.1, decide_eq_false hwants.2]
      rfl
    have hanswer : nextBuy (.of u) (.of calendar) now = .income := by
      unfold nextBuy
      rw [if_neg hstatus]
      dsimp only
      rw [if_pos hnothing]
    rw [hanswer]
    exact iff_of_true trivial fun hsome => absurd hsome hwants

end App

namespace PurchaseRehearsal

open App Rehearsal

def laterPayment : Attestation := ⟨.payment, user, 0, 12300000, 1700000150, Vector.replicate 64 7, 1⟩

def laterCheck : InstructionData :=
  let message := attestationMessage deployment params.genesisHash laterPayment
  let header := [signatureOffset, 65535, publicKeyOffset, 65535, messageOffset, message.length, 65535]
  ⟨address 206, [1, 0] ++ header.flatMap (LittleEndian.bytes 2) ++ attestor.toList ++
    List.replicate 64 0 ++ message⟩

def attestingLater : Invocation × Call :=
  (surroundings 1700100100 ⟨[founder], founder_signs⟩ (some laterCheck) (by decide),
    .attest founder laterPayment)

/-- No closures until the end of the month. -/
def calendar : MarketCalendar :=
  ⟨19677, 19691, MarketCalendar.default.holidays, MarketCalendar.default.earlyCloses⟩

theorem loaded : calendar.LoadedOn 19677 := ⟨[], [], 19691, rfl⟩

def balances : ℕ → ℤ → UInt64 := fun _ _ => 1000000000000

structure Shows (u : UserConfig) (answer : NextBuy) : Prop where
  active : u.status = .active
  room : HasRoom (.of u) (25000000 : UInt64).toNat 1700100200
  next : HasRoom (.of u) (25000000 : UInt64).toNat (1700100200 + Client.weekSeconds)
  ample : u.Ample 25000000 balances 1700100200
  answer : nextBuy (.of u) (.of calendar) 1700100200 = answer

def shows (u : UserConfig) (answer : NextBuy) : Bool :=
  u.status = .active ∧
    Client.spentAt (.of u) 1700100200 <
      Client.weeklyCap (.of u) (25000000 : UInt64).toNat 1700100200 ∧
    Client.spentAt (.of u) (1700100200 + Client.weekSeconds) <
      Client.weeklyCap (.of u) (25000000 : UInt64).toNat (1700100200 + Client.weekSeconds) ∧
    (∀ token < paymentTokenCount,
      largestCap.toNat ≤ 1000000000000 - (u.cushions[token]?.getD UInt64.maxValue).toNat) ∧
    nextBuy (.of u) (.of calendar) 1700100200 = answer

theorem shows_of {u : UserConfig} {answer : NextBuy} (h : shows u answer = true) : Shows u answer := by
  rcases of_decide_eq_true h with ⟨hactive, hroom, hnext, hample, hanswer⟩
  refine ⟨hactive, hroom, hnext, fun token htoken _ time _ => ?_, hanswer⟩
  have hcap := u.weeklyCap_le 25000000 time
  have hbalance : (balances token time).toNat = 1000000000000 := rfl
  have hcushion := hample token htoken
  omega

/-- After the day's sweep nothing waits, and the engine buys again at midnight. -/
theorem exists_swept : ∃ u, (ledger (sweeping :: beginnings)).userConfigs user = some u ∧
    Shows u (.atTime 1700179200) ∧ Opportune u (.of calendar) 1700100200 := by
  have hsome : ((ledger (sweeping :: beginnings)).userConfigs user).any (fun u =>
      shows u (.atTime 1700179200) ∧ enabled u.paymentTokens 0 = true ∧
        u.lastSweepDay[0]?.any (· < UInt32.ofInt (utcDay 1700179200)) ∧
        (Client.UserConfig.of u).engine = .daily ∧
        (decide ((Client.UserConfig.of u).pending > 0) ||
          Client.engineDue (.of u) (.of calendar) 1700100200) = false) = true := by
    decide +kernel
  rcases (Option.any_eq_true _ _).mp hsome with ⟨u, huser, hall⟩
  rcases of_decide_eq_true hall with ⟨hshows, henabled, hfresh, hdaily, hnothing⟩
  rcases (Option.any_eq_true _ _).mp hfresh with ⟨lastDay, hlast, hlt⟩
  refine ⟨u, huser, shows_of hshows, fun _ => ?_⟩
  rw [if_pos hdaily, hnothing]
  exact ⟨0, lastDay, henabled, hlast, of_decide_eq_true hlt⟩

theorem exists_waiting : ∃ u,
    (ledger (attestingLater :: sweeping :: beginnings)).userConfigs user = some u ∧
      Shows u .soon ∧ ¬u.Fresh 1700100200 := by
  have hsome : ((ledger (attestingLater :: sweeping :: beginnings)).userConfigs user).any (fun u =>
      shows u .soon ∧ ∀ token < paymentTokenCount, enabled u.paymentTokens token = true →
        ¬u.lastSweepDay[token]?.any (· < UInt32.ofInt (utcDay 1700100200)) = true) = true := by
    decide +kernel
  rcases (Option.any_eq_true _ _).mp hsome with ⟨u, huser, hall⟩
  rcases of_decide_eq_true hall with ⟨hshows, hstale⟩
  refine ⟨u, huser, shows_of hshows, ?_⟩
  rintro ⟨token, lastDay, henabled, hlast, hlt⟩
  have hindex : token < paymentTokenCount := (Vector.getElem?_eq_some_iff.mp hlast).1
  apply hstale token hindex henabled
  exact (Option.any_eq_true _ _).mpr ⟨lastDay, hlast, decide_eq_true hlt⟩

end PurchaseRehearsal

namespace App

/-- What the dashboard says after the rehearsed day's sweep is so: the next purchase is at midnight. -/
theorem nextBuy_tells_true_swept : ∃ u,
    TellsTrue u 25000000 PurchaseRehearsal.calendar PurchaseRehearsal.balances 1700100200
      (.atTime 1700179200) := by
  rcases PurchaseRehearsal.exists_swept with ⟨u, huser, hshows, hopportune⟩
  have htrue := nextBuy_tells_true (Rehearsal.ledger_run (Rehearsal.sweeping :: Rehearsal.beginnings)
    (by decide)) (by decide +kernel) huser hshows.active (by unfold Readable; decide)
    PurchaseRehearsal.loaded (by decide) hshows.room hshows.next hshows.ample
  rw [hshows.answer] at htrue
  exact ⟨u, htrue.mpr hopportune⟩

/-- With a payment waiting after the day's sweep the dashboard says soon, and nothing can be pulled. -/
theorem not_nextBuy_tells_true :
    ¬∀ (d : Deployment) (accounts : Accounts) (history : List (Transition Chain Happening))
      (chain : Chain) (key : Pubkey) (u : UserConfig) (calendar : MarketCalendar) (betaCap : UInt64)
      (balances : ℕ → ℤ → UInt64) (now today : ℤ), ProgramRun d accounts history chain →
      (∀ t ∈ history, 0 ≤ t.now ∧ t.now ≤ now) → chain.userConfigs key = some u →
      u.status = .active → Readable now → calendar.LoadedOn today → today ≤ utcDay now →
      HasRoom (.of u) betaCap.toNat now →
      HasRoom (.of u) betaCap.toNat (now + Client.weekSeconds) → u.Ample betaCap balances now →
      TellsTrue u betaCap calendar balances now (nextBuy (.of u) (.of calendar) now) := by
  intro h
  rcases PurchaseRehearsal.exists_waiting with ⟨u, huser, hshows, hstale⟩
  have htrue := h _ _ _ _ _ u _ _ _ 1700100200 _
    (Rehearsal.ledger_run (PurchaseRehearsal.attestingLater :: Rehearsal.sweeping :: Rehearsal.beginnings)
      (by decide)) (by decide +kernel) huser hshows.active (by unfold Readable; decide)
    PurchaseRehearsal.loaded (by decide) hshows.room hshows.next hshows.ample
  rw [hshows.answer] at htrue
  rcases htrue with ⟨token, lastDay, henabled, hlast, hlt, -, -⟩
  exact hstale ⟨token, lastDay, henabled, hlast, hlt⟩

end App

end Laterite
