import Laterite.ClientSweep
import Laterite.SteadyReadings

/-!
# Until when a foretold pull stands

A built sweep lands some seconds after its pull was foretold. The client counts the seconds to
the next instant that can change the pull, and builds nothing too close to it. Every reading of
the clock the pull depends on is steady until the nearest of the boundaries it lists.
-/

namespace Laterite.Client

open SteadyReadings

def nextMarketSessionFrom (now : ℤ) (calendar : MarketCalendar) : ℕ → ℤ → Option MarketSession
  | 0, _ => none
  | days + 1, day =>
    match marketSession day calendar with
    | none => nextMarketSessionFrom now calendar days (day + 1)
    | some session =>
      if now < session.closes then some session
      else nextMarketSessionFrom now calendar days (day + 1)

def nextMarketSession (now : ℤ) (calendar : MarketCalendar) : Option MarketSession :=
  let day := divEuclid now daySeconds
  nextMarketSessionFrom now calendar (calendar.validThrough + 1 - day).toNat day

/-- The next instants the amount engine's own clock readings change at. -/
def weekBoundary (userConfig : UserConfig) (now : ℤ) : ℤ :=
  if now < userConfig.enrolledAt then userConfig.enrolledAt
  else userConfig.enrolledAt + ((weekAt userConfig now + 1 : ℕ) : ℤ) * weekSeconds

def sessionBoundaries (userConfig : UserConfig) (calendar : MarketCalendar) (now : ℤ) : List ℤ :=
  if userConfig.engine = .weekly then
    match nextMarketSession now calendar with
    | none => []
    | some session => [if now < session.opens then session.opens else session.closes]
  else []

/-- The expiry of a subscription and the end of its native period, those that are ahead. -/
def subscriptionBoundaries (subscription : Option SubscriptionDelegation) (now : ℤ) : List ℤ :=
  match subscription with
  | none => []
  | some subscription =>
    let period := subscription.periodHours * 3600
    let start := subscription.currentPeriodStartTs
    (if subscription.expiresAtTs > now then [subscription.expiresAtTs] else []) ++
      if period > 0 ∧ now ≥ start then [start + ((now - start).tdiv period + 1) * period] else []

/-- Seconds from the state's clock to the next instant that can change the pull. -/
def secondsToNextSweepBoundary (state : SweepState) : ℤ :=
  let now := state.now
  nearest ((divEuclid now daySeconds + 1) * daySeconds)
    (weekBoundary state.userConfig now ::
      (sessionBoundaries state.userConfig state.config.marketCalendar now ++
        subscriptionBoundaries state.subscription now)) - now

variable {now boundary : ℤ} {calendar : MarketCalendar}

theorem closes_of_nextMarketSessionFrom {days : ℕ} {day : ℤ} {session : MarketSession}
    (h : nextMarketSessionFrom now calendar days day = some session) : now < session.closes := by
  induction days generalizing day with
  | zero => cases h
  | succ days ih =>
    unfold nextMarketSessionFrom at h
    split at h
    · exact ih h
    · split at h
      · cases h
        assumption
      · exact ih h

theorem closes_of_nextMarketSession {session : MarketSession}
    (h : nextMarketSession now calendar = some session) : now < session.closes :=
  closes_of_nextMarketSessionFrom h

theorem nextMarketSession_today {session : MarketSession}
    (h : marketSession (divEuclid now daySeconds) calendar = some session)
    (hopen : now < session.closes) : nextMarketSession now calendar = some session := by
  have hcovered : divEuclid now daySeconds ≤ calendar.validThrough := by
    by_contra hpast
    rw [marketSession, if_pos (Or.inr (by omega))] at h
    cases h
  rcases hdays : (calendar.validThrough + 1 - divEuclid now daySeconds).toNat with _ | days
  · omega
  · unfold nextMarketSession
    dsimp only
    rw [hdays, nextMarketSessionFrom, h]
    exact if_pos hopen

theorem steady_usMarketOpen (userConfig : UserConfig) (hengine : userConfig.engine = .weekly)
    (hday : Steady (divEuclid · daySeconds) now boundary)
    (h : ∀ b ∈ sessionBoundaries userConfig calendar now, boundary ≤ b) :
    Steady (usMarketOpen · calendar) now boundary := by
  intro time hnow hlt
  have hsame : divEuclid time daySeconds = divEuclid now daySeconds := hday time hnow hlt
  change usMarketOpen time calendar = usMarketOpen now calendar
  unfold usMarketOpen
  rw [hsame]
  cases hsession : marketSession (divEuclid now daySeconds) calendar with
  | none => rfl
  | some session =>
    apply decide_eq_decide.mpr
    by_cases hclosed : now < session.closes
    · have hbound : boundary ≤ if now < session.opens then session.opens else session.closes := by
        apply h
        rw [sessionBoundaries, if_pos hengine, nextMarketSession_today hsession hclosed]
        exact List.mem_singleton_self _
      split at hbound <;> omega
    · omega

theorem weekAt_eq_ediv (userConfig : UserConfig)
    (hclock : now < userConfig.enrolledAt + (2 ^ 32 - 1) * weekSeconds) :
    (weekAt userConfig now : ℤ) = max (now - userConfig.enrolledAt) 0 / weekSeconds := by
  have hclamp : (if now - userConfig.enrolledAt > 0 then now - userConfig.enrolledAt else 0) =
      max (now - userConfig.enrolledAt) 0 := by
    split <;> omega
  have hnonneg : 0 ≤ max (now - userConfig.enrolledAt) 0 := by omega
  unfold weekAt
  dsimp only
  rw [hclamp, Int.tdiv_eq_ediv_of_nonneg hnonneg]
  unfold weekSeconds daySeconds at hclock ⊢
  omega

theorem lt_weekBoundary (userConfig : UserConfig)
    (hclock : now < userConfig.enrolledAt + (2 ^ 32 - 1) * weekSeconds) :
    now < weekBoundary userConfig now := by
  have hweek := weekAt_eq_ediv userConfig hclock
  unfold weekBoundary
  split
  · assumption
  · unfold weekSeconds daySeconds at hweek ⊢
    omega

theorem steady_weekAt (userConfig : UserConfig)
    (hclock : now < userConfig.enrolledAt + (2 ^ 32 - 1) * weekSeconds)
    (h : boundary ≤ weekBoundary userConfig now) :
    Steady (weekAt userConfig) now boundary := by
  intro time hnow hlt
  have hweek := weekAt_eq_ediv userConfig hclock
  have hstart : now < userConfig.enrolledAt → time < userConfig.enrolledAt := by
    intro hbefore
    rw [weekBoundary, if_pos hbefore] at h
    omega
  have hend : userConfig.enrolledAt ≤ now →
      time < userConfig.enrolledAt + ((weekAt userConfig now + 1 : ℕ) : ℤ) * weekSeconds := by
    intro hafter
    rw [weekBoundary, if_neg (by omega)] at h
    omega
  have hlimit : time < userConfig.enrolledAt + (2 ^ 32 - 1) * weekSeconds := by
    unfold weekSeconds daySeconds at *
    omega
  have htime := weekAt_eq_ediv userConfig hlimit
  unfold weekSeconds daySeconds at *
  omega

theorem steady_trial (userConfig : UserConfig)
    (hclock : now < userConfig.enrolledAt + (2 ^ 32 - 1) * weekSeconds)
    (h : boundary ≤ weekBoundary userConfig now) :
    Steady (fun time => decide (time < userConfig.enrolledAt + trialSeconds)) now boundary := by
  apply Steady.deadline
  intro htrial
  have hweek := weekAt_eq_ediv userConfig hclock
  unfold weekBoundary at h
  unfold trialSeconds weekSeconds daySeconds at *
  split at h <;> omega

theorem steady_weeklyCap (userConfig : UserConfig) (betaCap : ℤ)
    (htrial : Steady (fun time => decide (time < userConfig.enrolledAt + trialSeconds)) now boundary) :
    Steady (weeklyCap userConfig betaCap) now boundary := by
  intro time hnow hlt
  have hsame := decide_eq_decide.mp (htrial time hnow hlt)
  unfold weeklyCap
  simp only [hsame]

theorem steady_spentAt (userConfig : UserConfig)
    (hweek : Steady (weekAt userConfig) now boundary) :
    Steady (spentAt userConfig) now boundary :=
  hweek.map fun week => if week = userConfig.week then userConfig.weekSpent else 0

theorem steady_engineDue (userConfig : UserConfig)
    (hday : Steady (divEuclid · daySeconds) now boundary)
    (hweek : Steady (weekAt userConfig) now boundary)
    (hopen : userConfig.engine = .weekly → Steady (usMarketOpen · calendar) now boundary) :
    Steady (engineDue userConfig calendar) now boundary := by
  intro time hnow hlt
  have hsame : divEuclid time daySeconds = divEuclid now daySeconds := hday time hnow hlt
  unfold engineDue
  dsimp only
  rw [hsame, hweek time hnow hlt]
  cases hengine : userConfig.engine with
  | daily => rfl
  | weekly =>
    have hmarket : usMarketOpen time calendar = usMarketOpen now calendar :=
      hopen hengine time hnow hlt
    rw [hmarket]

variable {subscription : Option SubscriptionDelegation}

theorem lt_of_mem_subscriptionBoundaries {b : ℤ}
    (h : b ∈ subscriptionBoundaries subscription now) : now < b := by
  cases subscription with
  | none => cases h
  | some subscription =>
    rcases List.mem_append.mp h with hexpiry | hperiod
    · split at hexpiry
      · rw [List.mem_singleton.mp hexpiry]
        assumption
      · cases hexpiry
    · split at hperiod
      · rename_i hlive
        have helapsed : 0 ≤ now - subscription.currentPeriodStartTs := by omega
        have hlt := Int.lt_ediv_add_one_mul_self (now - subscription.currentPeriodStartTs) hlive.1
        rw [List.mem_singleton.mp hperiod, Int.tdiv_eq_ediv_of_nonneg helapsed]
        omega
      · cases hperiod

theorem le_expiry {s : SubscriptionDelegation}
    (h : ∀ b ∈ subscriptionBoundaries (some s) now, boundary ≤ b) (hahead : now < s.expiresAtTs) :
    boundary ≤ s.expiresAtTs := by
  apply h
  apply List.mem_append_left
  rw [if_pos hahead]
  exact List.mem_singleton_self _

theorem steady_isRunning (h : ∀ b ∈ subscriptionBoundaries subscription now, boundary ≤ b) :
    Steady (isRunning subscription) now boundary := by
  intro time hnow hlt
  cases subscription with
  | none => rfl
  | some s =>
    have hexpiry : now < s.expiresAtTs → boundary ≤ s.expiresAtTs := le_expiry h
    apply decide_eq_decide.mpr
    omega

theorem steady_nativeRemaining (hhours : ∀ s, subscription = some s → s.periodHours = 168)
    (hday : boundary ≤ now + daySeconds)
    (h : ∀ b ∈ subscriptionBoundaries subscription now, boundary ≤ b) :
    Steady (nativeRemaining subscription) now boundary := by
  intro time hnow hlt
  cases subscription with
  | none => rfl
  | some s =>
    have hexpiry : now < s.expiresAtTs → boundary ≤ s.expiresAtTs := le_expiry h
    have hweek : s.periodHours * 3600 = 604800 := by
      rw [hhours s rfl]
      rfl
    have hperiod : min (s.periodHours * 3600) u64Max = 604800 := by
      rw [hweek]
      rfl
    have hend : s.currentPeriodStartTs ≤ now → boundary ≤ s.currentPeriodStartTs +
        ((now - s.currentPeriodStartTs) / 604800 + 1) * 604800 := by
      intro hstarted
      apply h
      apply List.mem_append_right
      rw [hweek, if_pos ⟨by decide, hstarted⟩, Int.tdiv_eq_ediv_of_nonneg (by omega)]
      exact List.mem_singleton_self _
    have hpast : (time - s.currentPeriodStartTs ≥ 0 ∧ time - s.currentPeriodStartTs ≥ 604800) ↔
        now - s.currentPeriodStartTs ≥ 0 ∧ now - s.currentPeriodStartTs ≥ 604800 := by
      unfold daySeconds at hday
      omega
    have hexpired : (s.expiresAtTs ≠ 0 ∧ time ≥ s.expiresAtTs) ↔
        s.expiresAtTs ≠ 0 ∧ now ≥ s.expiresAtTs := by
      omega
    unfold nativeRemaining
    simp only [hperiod, hpast, hexpired]

/-- The pull is settled by the day, the session of a weekly user, what the engine reads of the
clock and what the subscription does. -/
theorem getSweepPull_congr (state : SweepState) {time : ℤ}
    (hday : divEuclid time daySeconds = divEuclid state.now daySeconds)
    (hopen : state.userConfig.engine = .weekly →
      usMarketOpen time state.config.marketCalendar =
        usMarketOpen state.now state.config.marketCalendar)
    (hcap : weeklyCap state.userConfig state.config.userWeeklyCap time =
      weeklyCap state.userConfig state.config.userWeeklyCap state.now)
    (hspent : spentAt state.userConfig time = spentAt state.userConfig state.now)
    (hdue : engineDue state.userConfig state.config.marketCalendar time =
      engineDue state.userConfig state.config.marketCalendar state.now)
    (hrunning : isRunning state.subscription time = isRunning state.subscription state.now)
    (hremaining : nativeRemaining state.subscription time =
      nativeRemaining state.subscription state.now) :
    getSweepPull { state with now := time } = getSweepPull state := by
  have hpull (balance : ℤ) :
      pull state.userConfig state.paymentToken balance state.config.userWeeklyCap
        state.config.marketCalendar time =
      pull state.userConfig state.paymentToken balance state.config.userWeeklyCap
        state.config.marketCalendar state.now := by
    unfold pull
    rw [hcap, hspent, hdue]
  have hsession : (state.userConfig.engine = .weekly ∧
        ¬usMarketOpen time state.config.marketCalendar = true) =
      (state.userConfig.engine = .weekly ∧
        ¬usMarketOpen state.now state.config.marketCalendar = true) := by
    apply propext
    constructor
    · rintro ⟨hengine, hclosed⟩
      exact ⟨hengine, hopen hengine ▸ hclosed⟩
    · rintro ⟨hengine, hclosed⟩
      exact ⟨hengine, (hopen hengine).symm ▸ hclosed⟩
  unfold getSweepPull
  simp only [hday, hpull, hsession, hrunning, hremaining]

theorem lt_of_mem_sessionBoundaries {userConfig : UserConfig} {b : ℤ}
    (h : b ∈ sessionBoundaries userConfig calendar now) : now < b := by
  unfold sessionBoundaries at h
  split at h
  · split at h
    · cases h
    · rename_i session hsession
      have hcloses := closes_of_nextMarketSession hsession
      rw [List.mem_singleton.mp h]
      split <;> omega
  · cases h

/-- The seconds counted are positive, and until they have passed the state foretells the same
pull or gives the same reason. -/
theorem sweepBoundary_sound (state : SweepState)
    (hperiod : ∀ s, state.subscription = some s → s.periodHours = 168)
    (hclock : state.now < state.userConfig.enrolledAt + (2 ^ 32 - 1) * weekSeconds) :
    0 < secondsToNextSweepBoundary state ∧
    ∀ time, state.now ≤ time → time < state.now + secondsToNextSweepBoundary state →
      getSweepPull { state with now := time } = getSweepPull state := by
  have hfloor (time : ℤ) : divEuclid time daySeconds = time / daySeconds :=
    divEuclid_eq time (by decide)
  have hmidnight : state.now < (divEuclid state.now daySeconds + 1) * daySeconds := by
    rw [hfloor]
    exact Int.lt_ediv_add_one_mul_self state.now (by decide)
  have hsoon : (divEuclid state.now daySeconds + 1) * daySeconds ≤ state.now + daySeconds := by
    rw [hfloor]
    unfold daySeconds
    omega
  have hahead : state.now < nearest ((divEuclid state.now daySeconds + 1) * daySeconds)
      (weekBoundary state.userConfig state.now ::
        (sessionBoundaries state.userConfig state.config.marketCalendar state.now ++
          subscriptionBoundaries state.subscription state.now)) := by
    apply lt_nearest hmidnight
    intro b hb
    rcases List.mem_cons.mp hb with rfl | hb
    · exact lt_weekBoundary state.userConfig hclock
    · rcases List.mem_append.mp hb with hb | hb
      · exact lt_of_mem_sessionBoundaries hb
      · exact lt_of_mem_subscriptionBoundaries hb
  have hlimit : state.now + secondsToNextSweepBoundary state =
      nearest ((divEuclid state.now daySeconds + 1) * daySeconds)
        (weekBoundary state.userConfig state.now ::
          (sessionBoundaries state.userConfig state.config.marketCalendar state.now ++
            subscriptionBoundaries state.subscription state.now)) := by
    unfold secondsToNextSweepBoundary
    exact add_sub_cancel _ _
  constructor
  · omega
  · rw [hlimit]
    generalize hboundary : nearest _ _ = boundary
    have hend : boundary ≤ (divEuclid state.now daySeconds + 1) * daySeconds :=
      hboundary ▸ nearest_le_first _ _
    have hweekEnd : boundary ≤ weekBoundary state.userConfig state.now :=
      hboundary ▸ nearest_le_of_mem _ (List.mem_cons_self ..)
    have hsessions : ∀ b ∈ sessionBoundaries state.userConfig state.config.marketCalendar state.now,
        boundary ≤ b := fun b hb =>
      hboundary ▸ nearest_le_of_mem _ (List.mem_cons_of_mem _ (List.mem_append_left _ hb))
    have hsubscription : ∀ b ∈ subscriptionBoundaries state.subscription state.now, boundary ≤ b :=
      fun b hb =>
        hboundary ▸ nearest_le_of_mem _ (List.mem_cons_of_mem _ (List.mem_append_right _ hb))
    have hday : Steady (divEuclid · daySeconds) state.now boundary := by
      have hdays := @Steady.periods state.now boundary daySeconds (by decide) 0 (by
        rw [sub_zero, zero_add, ← hfloor]
        exact hend)
      simp only [sub_zero] at hdays
      simpa only [hfloor] using hdays
    have hopen : state.userConfig.engine = .weekly →
        Steady (usMarketOpen · state.config.marketCalendar) state.now boundary := fun hengine =>
      steady_usMarketOpen state.userConfig hengine hday hsessions
    have hweek := steady_weekAt state.userConfig hclock hweekEnd
    have hcap := steady_weeklyCap state.userConfig state.config.userWeeklyCap
      (steady_trial state.userConfig hclock hweekEnd)
    have hspent := steady_spentAt state.userConfig hweek
    have hdue := steady_engineDue state.userConfig hday hweek hopen
    have hrunning := steady_isRunning hsubscription
    have hremaining := steady_nativeRemaining hperiod (hend.trans hsoon) hsubscription
    intro time hnow hlt
    exact getSweepPull_congr state (hday time hnow hlt) (fun hengine => hopen hengine time hnow hlt)
      (hcap time hnow hlt) (hspent time hnow hlt) (hdue time hnow hlt) (hrunning time hnow hlt)
      (hremaining time hnow hlt)

/-- The newcomer with a hundred dollars at hand and a subscription that ends in two minutes. -/
def newcomerState : SweepState where
  authority := Pubkey.default
  authorityState := some ⟨5⟩
  config := ⟨false, [⟨Pubkey.default, Pubkey.default, 6, 0⟩], 25000000,
    MarketCalendar.of Laterite.MarketCalendar.default⟩
  now := 1700000100
  paymentAccount := Pubkey.default
  paymentAccountState := some ⟨100000000, some Pubkey.default, 50000000, false⟩
  paymentToken := 0
  subscription := some ⟨5, 25000000, 168, 0, 1700000000, 1700000220⟩
  userConfig := UserConfig.of newcomer

/-- Their pull stands for two minutes. -/
theorem sweepBoundary_sound_newcomer :
    getSweepPull newcomerState = .ok ⟨1000000, 1400000⟩ ∧
    ∀ time, 1700000100 ≤ time → time < 1700000220 →
      getSweepPull { newcomerState with now := time } = .ok ⟨1000000, 1400000⟩ := by
  have hpull : getSweepPull newcomerState = .ok ⟨1000000, 1400000⟩ := by rfl
  have hboundary : newcomerState.now + secondsToNextSweepBoundary newcomerState = 1700000220 := by
    decide
  refine ⟨hpull, fun time hnow hlt => ?_⟩
  have hsame := (sweepBoundary_sound newcomerState
    (fun s hs => by cases hs; rfl) (by decide)).2 time hnow (by omega)
  exact hsame.trans hpull

end Laterite.Client
