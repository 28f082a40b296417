import Laterite.AmountEngine
import Laterite.ClientMarket
import Laterite.UserSubscriptions

/-!
# The amount engine as the client computes it

The client reckons in unbounded integers with clamps of its own, where the program saturates,
wraps and casts machine words. For every clock and every user the two give the same amounts.
-/

namespace Laterite.Client

open CheckedComputation

structure UserConfig where
  tier : ℕ
  paymentTokens : ℕ
  engine : Engine
  engineAmount : ℤ
  incomeRule : Bool
  changeMultiplier : ℕ
  cushions : List ℤ
  enrolledAt : ℤ
  week : ℕ
  weekSpent : ℤ
  engineRanAt : ℤ
  pending : ℤ
  status : UserStatus
  attestableFrom : ℤ
  lastSweepDay : List ℕ

def UserConfig.of (user : Laterite.UserConfig) : UserConfig where
  tier := user.tier.toNat
  paymentTokens := user.paymentTokens.toNat
  engine := user.engine
  engineAmount := user.engineAmount.toNat
  incomeRule := user.incomeRule
  changeMultiplier := user.changeMultiplier.toNat
  cushions := user.cushions.toList.map fun cushion => (cushion.toNat : ℤ)
  enrolledAt := user.enrolledAt
  week := user.week.toNat
  weekSpent := user.weekSpent.toNat
  engineRanAt := user.engineRanAt
  pending := user.pending.toNat
  status := user.status
  attestableFrom := user.attestableFrom
  lastSweepDay := user.lastSweepDay.toList.map UInt32.toNat

/-- A subscription as the client decodes it, with the identity of the authority it was made
through. -/
structure SubscriptionDelegation where
  initId : ℤ
  amount : ℤ
  periodHours : ℤ
  amountPulledInPeriod : ℤ
  currentPeriodStartTs : ℤ
  expiresAtTs : ℤ

def SubscriptionDelegation.of (initId : ℤ) (subscription : Laterite.SubscriptionDelegation) :
    SubscriptionDelegation where
  initId := initId
  amount := subscription.amount.toNat
  periodHours := subscription.periodHours.toNat
  amountPulledInPeriod := subscription.amountPulledInPeriod.toNat
  currentPeriodStartTs := subscription.currentPeriodStartTs
  expiresAtTs := subscription.expiresAtTs

/-- What one sweep pulls, by source, in payment-token raw units. -/
structure Pull where
  engine : ℤ
  pending : ℤ
  deriving DecidableEq, Repr

def Pull.of (pull : Laterite.Pull) : Pull := ⟨pull.engine.toNat, pull.pending.toNat⟩

def min (a b : ℤ) : ℤ := if a < b then a else b

def saturatingSub (a b : ℤ) : ℤ := if a > b then a - b else 0

/-- Exactly what the sweep takes from the user. -/
def pullTotal (pull : Pull) : ℤ := pull.engine + pull.pending

def cappedPull (pull : Pull) (limit : ℤ) : Pull :=
  let engine := min pull.engine limit
  { engine := engine, pending := min pull.pending (limit - engine) }

def incomeShare (user : UserConfig) (income : ℤ) : ℤ :=
  if user.incomeRule ∧ income ≥ incomeMin then (income * incomeShareBps).tdiv 10000 else 0

/-- What change per payment adds for an outgoing payment. -/
def change (user : UserConfig) (payment : ℤ) : ℤ :=
  let roundUp := (changeStep - payment.tmod changeStep).tmod changeStep
  (if roundUp > changeMin then roundUp else changeMin) * user.changeMultiplier

/-- Index of the user's week at `now`, counted from enrollment: the low 32 bits. -/
def weekAt (user : UserConfig) (now : ℤ) : ℕ :=
  let elapsed := now - user.enrolledAt
  ((if elapsed > 0 then elapsed else 0).tdiv weekSeconds % 2 ^ 32).toNat

/-- The combined cap for the week of `now`, never above the beta's cap per user. -/
def weeklyCap (user : UserConfig) (betaCap now : ℤ) : ℤ :=
  let cap := if now < user.enrolledAt + trialSeconds then trialCap else tiers[user.tier]?.getD 0
  min cap betaCap

def spentAt (user : UserConfig) (now : ℤ) : ℤ :=
  if weekAt user now = user.week then user.weekSpent else 0

def engineDue (user : UserConfig) (calendar : MarketCalendar) (now : ℤ) : Bool :=
  let ran : Bool := user.engineRanAt ≥ user.enrolledAt
  if user.engine = .daily then
    !ran || divEuclid now daySeconds > divEuclid user.engineRanAt daySeconds
  else (!ran || weekAt user now > weekAt user user.engineRanAt) && usMarketOpen now calendar

def pull (user : UserConfig) (paymentToken : ℕ) (balance betaCap : ℤ) (calendar : MarketCalendar)
    (now : ℤ) : Pull :=
  if user.status ≠ .active then { engine := 0, pending := 0 }
  else
    let cushion := user.cushions[paymentToken]?.getD u64Max
    let room := min (saturatingSub (weeklyCap user betaCap now) (spentAt user now))
      (saturatingSub balance cushion)
    let engine := if engineDue user calendar now then min user.engineAmount room else 0
    { engine := engine, pending := min user.pending (room - engine) }

def nativeRemaining (subscription : Option SubscriptionDelegation) (now : ℤ) : ℤ :=
  match subscription with
  | none => 0
  | some subscription =>
    if subscription.expiresAtTs ≠ 0 ∧ now ≥ subscription.expiresAtTs then 0
    else
      let period := min (subscription.periodHours * 3600) u64Max
      let elapsed := now - subscription.currentPeriodStartTs
      if elapsed ≥ 0 ∧ elapsed ≥ period then subscription.amount
      else saturatingSub subscription.amount subscription.amountPulledInPeriod

theorem min_natCast (a b : ℕ) : min a b = (Min.min a b : ℕ) := by
  unfold min
  split <;> omega

theorem saturatingSub_natCast (a b : ℕ) : saturatingSub a b = (a - b : ℕ) := by
  unfold saturatingSub
  split <;> omega

theorem toNat_ofInt (x : ℤ) : (UInt32.ofInt x).toNat = (x % 2 ^ 32).toNat := by
  have hnonneg := Int.emod_nonneg x (show (2 ^ 32 : ℤ) ≠ 0 by decide)
  have hlt := Int.emod_lt_of_pos x (show (0 : ℤ) < 2 ^ 32 by decide)
  have hword : UInt32.ofInt x = UInt32.ofNat (x % 2 ^ 32).toNat := rfl
  rw [hword, UInt32.toNat_ofNat_of_lt']
  change (x % 2 ^ 32).toNat < 2 ^ 32
  omega

/-- A time within the years the amounts are compared for. -/
def Within (time : ℤ) : Prop := -2 ^ 62 ≤ time ∧ time ≤ 2 ^ 62

instance (time : ℤ) : Decidable (Within time) := inferInstanceAs (Decidable (_ ∧ _))

theorem Within.sub_le {later earlier : ℤ} (h : Within later) (h' : Within earlier) :
    later - earlier ≤ 2 ^ 63 := by
  unfold Within at h h'
  omega

variable (user : Laterite.UserConfig) {now : ℤ}

theorem incomeShare_eq (income : UInt64) :
    incomeShare (UserConfig.of user) income.toNat = (user.incomeShare income).toNat := by
  have hlt := income.toNat_lt
  have hmin : (income.toNat : ℤ) ≥ incomeMin ↔ ¬income < Laterite.incomeMin := by
    rw [UInt64.lt_iff_toNat_lt]
    change (income.toNat : ℤ) ≥ 50000000 ↔ ¬income.toNat < 50000000
    omega
  have hshare : ((income.toNat : ℤ) * incomeShareBps).tdiv 10000 =
      (income.toNat * Laterite.incomeShareBps / 10000 : ℕ) := (Int.ofNat_tdiv _ _).symm
  have hword : income.toNat * Laterite.incomeShareBps / 10000 < 2 ^ 64 := by
    unfold Laterite.incomeShareBps
    omega
  unfold incomeShare Laterite.UserConfig.incomeShare
  by_cases h : user.incomeRule = true ∧ ¬income < Laterite.incomeMin
  · rw [if_pos ⟨h.1, hmin.mpr h.2⟩, if_neg (by simpa using h), hshare,
      UInt64.toNat_ofNat_of_lt' hword]
  · rw [if_neg fun hmet => h ⟨hmet.1, hmin.mp hmet.2⟩, if_pos (by simpa [imp_iff_not_or] using h)]
    rfl

theorem change_eq (payment : UInt64) :
    ∃ added, user.change payment = .ok added ∧
      change (UserConfig.of user) payment.toNat = added.toNat := by
  rcases user.exists_change payment with ⟨added, hadded, hvalue⟩
  refine ⟨added, hadded, ?_⟩
  have hmod : (payment.toNat : ℤ).tmod changeStep = (payment.toNat % 1000000 : ℕ) :=
    (Int.ofNat_tmod _ _).symm
  have hround : (changeStep - (payment.toNat % 1000000 : ℕ)).tmod changeStep =
      ((1000000 - payment.toNat % 1000000) % 1000000 : ℕ) := by
    unfold changeStep
    rw [Int.tmod_eq_emod_of_nonneg (by omega)]
    omega
  dsimp only [change, UserConfig.of]
  rw [hmod, hround, hvalue, Nat.cast_mul]
  congr 1
  unfold changeMin
  split <;> omega

theorem weekAt_eq (helapsed : now - user.enrolledAt ≤ 2 ^ 63) :
    weekAt (UserConfig.of user) now = (user.weekAt now).toNat := by
  have hclamp : (if now - user.enrolledAt > 0 then now - user.enrolledAt else 0) =
      max (now - user.enrolledAt) 0 := by
    split <;> omega
  have hquotient : max (now - user.enrolledAt) 0 / weekSeconds =
      max (I64.saturatingSub now user.enrolledAt) 0 / Laterite.weekSeconds := by
    unfold weekSeconds daySeconds Laterite.weekSeconds Laterite.daySeconds I64.saturatingSub
      I64.minValue I64.maxValue
    omega
  have hnonneg : 0 ≤ max (now - user.enrolledAt) 0 := by omega
  dsimp only [weekAt, Laterite.UserConfig.weekAt, UserConfig.of]
  rw [toNat_ofInt, ← hquotient, hclamp, Int.tdiv_eq_ediv_of_nonneg hnonneg]

theorem weeklyCap_eq (betaCap : UInt64) (henrolled : I64.minValue ≤ user.enrolledAt)
    (htrial : user.enrolledAt + trialSeconds ≤ I64.maxValue) :
    weeklyCap (UserConfig.of user) betaCap.toNat now = (user.weeklyCap betaCap now).toNat := by
  have hend : I64.saturatingAdd user.enrolledAt Laterite.trialSeconds =
      user.enrolledAt + trialSeconds := by
    unfold trialSeconds weekSeconds daySeconds I64.maxValue at htrial
    unfold I64.minValue at henrolled
    unfold trialSeconds weekSeconds daySeconds Laterite.trialSeconds Laterite.weekSeconds
      Laterite.daySeconds I64.saturatingAdd I64.minValue I64.maxValue
    omega
  have htier (tier : ℕ) : tiers[tier]?.getD 0 = ((Laterite.tiers[tier]?.getD 0).toNat : ℤ) := by
    match tier with
    | 0 | 1 => rfl
    | tier + 2 => rfl
  have hcap : (if now < user.enrolledAt + trialSeconds then trialCap
      else tiers[user.tier.toNat]?.getD 0) =
      ((if now < user.enrolledAt + trialSeconds then Laterite.trialCap
        else Laterite.tiers[user.tier.toNat]?.getD 0).toNat : ℤ) := by
    split
    · rfl
    · exact htier _
  unfold weeklyCap Laterite.UserConfig.weeklyCap
  rw [hend, UInt64.toNat_min, ← min_natCast]
  exact congrArg (min · _) hcap

theorem spentAt_eq (helapsed : now - user.enrolledAt ≤ 2 ^ 63) :
    spentAt (UserConfig.of user) now = (user.spentAt now).toNat := by
  have hweek : weekAt (UserConfig.of user) now = (UserConfig.of user).week ↔
      user.weekAt now = user.week := by
    rw [weekAt_eq user helapsed]
    exact UInt32.toNat_inj
  unfold spentAt Laterite.UserConfig.spentAt
  by_cases h : user.weekAt now = user.week
  · rw [if_pos (hweek.mpr h), if_pos h]
    rfl
  · rw [if_neg (mt hweek.mp h), if_neg h]
    rfl

theorem engineDue_eq (calendar : Laterite.MarketCalendar)
    (helapsed : now - user.enrolledAt ≤ 2 ^ 63)
    (hran : user.engineRanAt - user.enrolledAt ≤ 2 ^ 63) :
    engineDue (UserConfig.of user) (MarketCalendar.of calendar) now =
      user.engineDue calendar now := by
  have hday (time : ℤ) : divEuclid time daySeconds = time / Laterite.daySeconds :=
    divEuclid_eq time (by decide)
  have hran' : weekAt (UserConfig.of user) (UserConfig.of user).engineRanAt =
      (user.weekAt user.engineRanAt).toNat := weekAt_eq user hran
  unfold engineDue Laterite.UserConfig.engineDue
  rw [usMarketOpen_eq, weekAt_eq user helapsed, hran', hday, hday]
  cases hengine : user.engine with
  | daily =>
    have hdaily : (UserConfig.of user).engine = .daily := hengine
    rw [if_pos hdaily]
    rfl
  | weekly =>
    have hother : (UserConfig.of user).engine ≠ .daily := by
      change user.engine ≠ .daily
      rw [hengine]
      decide
    rw [if_neg hother]
    simp only [gt_iff_lt, UInt32.lt_iff_toNat_lt]
    rfl

/-- What is left of a limit once the engine has its part goes to the pending amount. -/
theorem split_eq {engine limit : UInt64} (pending : UInt64) (h : engine ≤ limit) :
    ∃ p, (limit.checkedSub engine >>= fun rest =>
        pure (Laterite.Pull.mk engine (Min.min pending rest)) : Result Laterite.Pull) = .ok p ∧
      Pull.mk engine.toNat (min pending.toNat (limit.toNat - engine.toNat)) = Pull.of p := by
  have hle := UInt64.le_iff_toNat_le.mp h
  have hrest := UInt64.toNat_sub_of_le limit engine h
  have hsub : limit.checkedSub engine = (.ok (limit - engine) : Result UInt64) := if_pos h
  rw [hsub, ok_bind]
  refine ⟨_, rfl, ?_⟩
  rw [Pull.of, UInt64.toNat_min, hrest, ← min_natCast, Nat.cast_sub hle]

theorem cappedPull_eq (p : Laterite.Pull) (limit : UInt64) :
    ∃ q, p.capped limit = .ok q ∧ cappedPull (Pull.of p) limit.toNat = Pull.of q := by
  have hle : Min.min p.engine limit ≤ limit := by
    rw [UInt64.le_iff_toNat_le, UInt64.toNat_min]
    exact Nat.min_le_right _ _
  rcases split_eq p.pending hle with ⟨q, hq, hof⟩
  refine ⟨q, hq, ?_⟩
  rw [UInt64.toNat_min, ← min_natCast] at hof
  exact hof

theorem pull_eq (paymentToken : ℕ) (balance betaCap : UInt64) (calendar : Laterite.MarketCalendar)
    (henrolled : I64.minValue ≤ user.enrolledAt)
    (htrial : user.enrolledAt + trialSeconds ≤ I64.maxValue)
    (helapsed : now - user.enrolledAt ≤ 2 ^ 63)
    (hran : user.engineRanAt - user.enrolledAt ≤ 2 ^ 63) :
    ∃ p, user.pull paymentToken balance betaCap calendar now = .ok p ∧
      pull (UserConfig.of user) paymentToken balance.toNat betaCap.toNat
        (MarketCalendar.of calendar) now = Pull.of p := by
  have hcushion : (UserConfig.of user).cushions[paymentToken]?.getD u64Max =
      ((user.cushions[paymentToken]?.getD UInt64.maxValue).toNat : ℤ) := by
    dsimp only [UserConfig.of]
    rw [List.getElem?_map, Vector.getElem?_toList]
    cases user.cushions[paymentToken]? <;> rfl
  unfold pull Laterite.UserConfig.pull
  rw [weeklyCap_eq user betaCap henrolled htrial, spentAt_eq user helapsed,
    engineDue_eq user calendar helapsed hran, hcushion]
  by_cases hactive : user.status ≠ .active
  · rw [if_pos hactive]
    exact ⟨Laterite.Pull.default, rfl, if_pos hactive⟩
  · have hroom : min (saturatingSub (user.weeklyCap betaCap now).toNat (user.spentAt now).toNat)
        (saturatingSub balance.toNat
          (user.cushions[paymentToken]?.getD UInt64.maxValue).toNat) =
        (Min.min ((user.weeklyCap betaCap now).saturatingSub (user.spentAt now))
          (balance.saturatingSub (user.cushions[paymentToken]?.getD UInt64.maxValue))).toNat := by
      rw [saturatingSub_natCast, saturatingSub_natCast, min_natCast, UInt64.toNat_min,
        UInt64.toNat_saturatingSub, UInt64.toNat_saturatingSub]
    have hclient : (UserConfig.of user).status = .active := not_not.mp hactive
    rw [if_neg hactive, if_neg (not_not.mpr hclient)]
    dsimp only
    rw [hroom]
    generalize Min.min ((user.weeklyCap betaCap now).saturatingSub (user.spentAt now))
      (balance.saturatingSub (user.cushions[paymentToken]?.getD UInt64.maxValue)) = room
    have hengine : (if user.engineDue calendar now = true then
        min (UserConfig.of user).engineAmount room.toNat else 0) =
        ((if user.engineDue calendar now = true then Min.min user.engineAmount room else 0).toNat : ℤ) := by
      split
      · rw [UInt64.toNat_min, ← min_natCast]
        rfl
      · rfl
    have hle : (if user.engineDue calendar now = true then Min.min user.engineAmount room else 0) ≤
        room := by
      rw [UInt64.le_iff_toNat_le]
      split
      · rw [UInt64.toNat_min]
        exact Nat.min_le_right _ _
      · exact Nat.zero_le _
    rcases split_eq user.pending hle with ⟨p, hp, hof⟩
    refine ⟨p, hp, ?_⟩
    rw [hengine]
    exact hof

theorem nativeRemaining_eq (d : Deployment) (account : AccountInfo) (initId : ℤ)
    (helapsed : ∀ s, d.readSubscription account = some s → now - s.currentPeriodStartTs ≤ 2 ^ 63) :
    nativeRemaining ((d.readSubscription account).map (SubscriptionDelegation.of initId)) now =
      (d.remaining account now).toNat := by
  unfold Deployment.remaining
  cases hread : d.readSubscription account with
  | none => rfl
  | some s =>
    have helapsed := helapsed s hread
    have hvalue : (s.periodHours.saturatingMul 3600).toNat =
        Min.min (s.periodHours.toNat * 3600) (2 ^ 64 - 1) := UInt64.toNat_saturatingMul _ _
    have hperiod : min ((s.periodHours.toNat : ℤ) * 3600) u64Max =
        (s.periodHours.saturatingMul 3600).toNat := by
      rw [hvalue]
      unfold min u64Max
      split <;> omega
    have hlimit := (s.periodHours.saturatingMul 3600).toNat_lt
    have hpast : (now - s.currentPeriodStartTs ≥ 0 ∧
          now - s.currentPeriodStartTs ≥ ((s.periodHours.saturatingMul 3600).toNat : ℤ)) ↔
        (0 ≤ I64.saturatingSub now s.currentPeriodStartTs ∧
          (I64.saturatingSub now s.currentPeriodStartTs).toNat ≥
            (s.periodHours.saturatingMul 3600).toNat) := by
      unfold I64.saturatingSub I64.minValue I64.maxValue
      omega
    have hrest : saturatingSub (s.amount.toNat : ℤ) s.amountPulledInPeriod.toNat =
        (s.amount.saturatingSub s.amountPulledInPeriod).toNat := by
      rw [saturatingSub_natCast, UInt64.toNat_saturatingSub]
    dsimp only [Option.map_some, nativeRemaining, SubscriptionDelegation.of]
    rw [hperiod, hrest]
    by_cases hexpired : s.expiresAtTs ≠ 0 ∧ now ≥ s.expiresAtTs
    · rw [if_pos hexpired, if_pos hexpired]
      rfl
    · rw [if_neg hexpired, if_neg hexpired]
      by_cases h : now - s.currentPeriodStartTs ≥ 0 ∧
          now - s.currentPeriodStartTs ≥ ((s.periodHours.saturatingMul 3600).toNat : ℤ)
      · rw [if_pos h, if_pos (hpast.mp h)]
      · rw [if_neg h, if_neg (mt hpast.mpr h)]

/-- For every user, clock and calendar, and every balance, cap, transfer, pull and subscription,
the client's amounts are the program's. -/
theorem amounts_agree (paymentToken : ℕ) (balance betaCap transfer limit : UInt64)
    (planned : Laterite.Pull) (calendar : Laterite.MarketCalendar)
    (hnow : Within now) (henrolled : Within user.enrolledAt) (hran : Within user.engineRanAt) :
    (∃ p, user.pull paymentToken balance betaCap calendar now = .ok p ∧
      pull (UserConfig.of user) paymentToken balance.toNat betaCap.toNat
        (MarketCalendar.of calendar) now = Pull.of p) ∧
    (∃ p, planned.capped limit = .ok p ∧ cappedPull (Pull.of planned) limit.toNat = Pull.of p) ∧
    incomeShare (UserConfig.of user) transfer.toNat = (user.incomeShare transfer).toNat ∧
    (∃ added, user.change transfer = .ok added ∧
      change (UserConfig.of user) transfer.toNat = added.toNat) ∧
    weekAt (UserConfig.of user) now = (user.weekAt now).toNat ∧
    weeklyCap (UserConfig.of user) betaCap.toNat now = (user.weeklyCap betaCap now).toNat ∧
    spentAt (UserConfig.of user) now = (user.spentAt now).toNat ∧
    engineDue (UserConfig.of user) (MarketCalendar.of calendar) now = user.engineDue calendar now ∧
    (∀ (d : Deployment) (account : AccountInfo) (initId : ℤ),
      (∀ s, d.readSubscription account = some s → Within s.currentPeriodStartTs) →
      nativeRemaining ((d.readSubscription account).map (SubscriptionDelegation.of initId)) now =
        (d.remaining account now).toNat) ∧
    usMarketOpen now (MarketCalendar.of calendar) = Laterite.usMarketOpen now calendar :=
by
  have helapsed : now - user.enrolledAt ≤ 2 ^ 63 := hnow.sub_le henrolled
  have hranAt : user.engineRanAt - user.enrolledAt ≤ 2 ^ 63 := hran.sub_le henrolled
  have hstart : I64.minValue ≤ user.enrolledAt := by
    unfold Within at henrolled
    unfold I64.minValue
    omega
  have htrial : user.enrolledAt + trialSeconds ≤ I64.maxValue := by
    unfold Within at henrolled
    unfold trialSeconds weekSeconds daySeconds I64.maxValue
    omega
  exact ⟨pull_eq user paymentToken balance betaCap calendar hstart htrial helapsed hranAt,
    cappedPull_eq planned limit, incomeShare_eq user transfer, change_eq user transfer,
    weekAt_eq user helapsed, weeklyCap_eq user betaCap hstart htrial, spentAt_eq user helapsed,
    engineDue_eq user calendar helapsed hranAt,
    fun d account initId hperiod => nativeRemaining_eq d account initId fun s hread =>
      hnow.sub_le (hperiod s hread),
    usMarketOpen_eq now calendar⟩

def newcomer : Laterite.UserConfig where
  user := Pubkey.default
  tier := 0
  paymentTokens := 1
  asset := 0
  engine := .daily
  engineAmount := 1000000
  incomeRule := true
  changeMultiplier := 2
  cushions := #v[5000000, 0]
  enrolledAt := 1700000000
  goalAmount := 0
  goalLabel := Vector.replicate 32 0
  bump := 255
  week := 0
  weekSpent := 0
  engineRanAt := 0
  pending := 1400000
  status := .active
  attestableFrom := 1700000000
  lastSweepDay := #v[0, 0]

theorem amounts_agree_newcomer :
    pull (UserConfig.of newcomer) 0 100000000 25000000
      (MarketCalendar.of Laterite.MarketCalendar.default) 1700000100 = ⟨1000000, 1400000⟩ := by
  obtain ⟨p, hp, hclient⟩ := (@amounts_agree newcomer 1700000100 0 100000000 25000000 0 0
    Laterite.Pull.default Laterite.MarketCalendar.default (by decide) (by decide) (by decide)).1
  refine hclient.trans ?_
  have hvalue : newcomer.pull 0 100000000 25000000 Laterite.MarketCalendar.default 1700000100 =
      .ok ⟨1000000, 1400000⟩ := by decide
  rw [hvalue] at hp
  cases hp
  rfl

end Laterite.Client
