import Laterite.SweepBoundaries
import Laterite.SweepForetelling
import Mathlib.Data.List.Nodup

/-!
# The payment tokens the crank reads before it sweeps

The crank lists the tokens worth reading from each user's record alone, with the largest balance
there can be. More balance never lets a sweep pull less, so a token left out is one that no
balance, approval or subscription would have it sweep.
-/

namespace Laterite

namespace Client

def enabledPaymentTokens (paymentTokens : ℕ) : List ℕ :=
  [0, 1].filter fun token => paymentTokens &&& (1 <<< token) ≠ 0

theorem nodup_enabledPaymentTokens (paymentTokens : ℕ) : (enabledPaymentTokens paymentTokens).Nodup :=
  (by decide : [0, 1].Nodup).filter _

theorem min_mono {a b : ℤ} (c : ℤ) (h : a ≤ b) : min c a ≤ min c b := by
  unfold min
  split <;> split <;> omega

theorem saturatingSub_mono {a b : ℤ} (c : ℤ) (h : a ≤ b) : saturatingSub a c ≤ saturatingSub b c := by
  unfold saturatingSub
  split <;> split <;> omega

theorem saturatingSub_nonneg (a b : ℤ) : 0 ≤ saturatingSub a b := by
  unfold saturatingSub
  split <;> omega

theorem pullTotal_within {engineAmount pending room : ℤ} (hpending : 0 ≤ pending) (due : Bool) :
    pullTotal ⟨if due then min engineAmount room else 0,
      min pending (room - if due then min engineAmount room else 0)⟩ =
      min ((if due then engineAmount else 0) + pending) room := by
  unfold pullTotal min
  cases due
  · simp only [Bool.false_eq_true, if_false]
    split <;> split <;> omega
  · simp only [if_true]
    split <;> split <;> split <;> omega

theorem pullTotal_mono (user : UserConfig) (paymentToken : ℕ) {balance more : ℤ} (betaCap : ℤ)
    (calendar : MarketCalendar) (now : ℤ) (hle : balance ≤ more) (hengine : 0 ≤ user.engineAmount)
    (hpending : 0 ≤ user.pending) :
    0 ≤ pullTotal (pull user paymentToken balance betaCap calendar now) ∧
    pullTotal (pull user paymentToken balance betaCap calendar now) ≤
      pullTotal (pull user paymentToken more betaCap calendar now) := by
  unfold pull
  by_cases hactive : user.status ≠ .active
  · rw [if_pos hactive, if_pos hactive]
    exact ⟨le_rfl, le_rfl⟩
  · rw [if_neg hactive, if_neg hactive]
    dsimp only
    have hweek := saturatingSub_nonneg (weeklyCap user betaCap now) (spentAt user now)
    have hcushion := saturatingSub_nonneg balance (user.cushions[paymentToken]?.getD u64Max)
    have hspare := saturatingSub_mono (user.cushions[paymentToken]?.getD u64Max) hle
    have hroom := min_mono (saturatingSub (weeklyCap user betaCap now) (spentAt user now)) hspare
    generalize saturatingSub (weeklyCap user betaCap now) (spentAt user now) = week at *
    generalize saturatingSub balance (user.cushions[paymentToken]?.getD u64Max) = spare at *
    generalize saturatingSub more (user.cushions[paymentToken]?.getD u64Max) = spareMore at *
    have hsome : 0 ≤ min week spare := by
      unfold min
      split <;> omega
    rw [pullTotal_within hpending,
      pullTotal_within hpending]
    constructor
    · unfold min at *
      split <;> split <;> omega
    · exact min_mono _ hroom

/-- A pull was foretold, or the user is to be told to restore the token. -/
def Wanted (foretold : Except ClientError Pull) : Prop :=
  (∃ pull, foretold = .ok pull) ∨
    ∃ reason account, foretold = .error (.restoreRequired reason account)

theorem Wanted.check {check : Prop} [Decidable check] {code : ℕ} {rest : Except ClientError Pull}
    (h : Wanted (if check then .error (.lateriteCheck code) else rest)) : ¬check ∧ Wanted rest := by
  by_cases hfails : check
  · rw [if_pos hfails] at h
    rcases h with ⟨_, h⟩ | ⟨_, _, h⟩ <;> cases h
  · rw [if_neg hfails] at h
    exact ⟨hfails, h⟩

/-- Until it looks at the subscription, the client goes on only for an enabled token not swept
today, with a session open for a weekly user and a pull that is not empty. -/
theorem Wanted.checks {state : SweepState} (h : Wanted (getSweepPull state)) :
    state.paymentToken < state.config.paymentTokens.length ∧
    (∀ last, state.userConfig.lastSweepDay[state.paymentToken]? = some last →
      last < (divEuclid state.now daySeconds % 2 ^ 32).toNat) ∧
    ¬(state.userConfig.engine = .weekly ∧ ¬usMarketOpen state.now state.config.marketCalendar) ∧
    pullTotal (pull state.userConfig state.paymentToken
      ((state.paymentAccountState.map TokenAccountState.amount).getD 0) state.config.userWeeklyCap
      state.config.marketCalendar state.now) ≠ 0 ∧
    state.userConfig.paymentTokens &&& (1 <<< state.paymentToken) ≠ 0 := by
  have hlisted := h.check.2.check
  have hfresh := hlisted.2.check
  have hsession := hfresh.2.check
  have htotal := hsession.2.check
  have henabled := htotal.2.check
  refine ⟨?_, ?_, hsession.1, htotal.1, henabled.1⟩
  · by_contra hpast
    exact hlisted.1 (by rw [List.getElem?_eq_none (not_lt.mp hpast)]; rfl)
  · intro last hlast
    have hday := hfresh.1
    rw [hlast, Option.any_some, decide_eq_true_eq, not_le] at hday
    exact hday

end Client

namespace Crank

open Client

/-- A user's record: whose it is, with the settings and sweep state. -/
structure EnrolledUser extends Client.UserConfig where
  user : Pubkey

def EnrolledUser.of (user : Laterite.UserConfig) : EnrolledUser :=
  ⟨Client.UserConfig.of user, user.user⟩

structure Candidate where
  paymentToken : ℕ
  user : EnrolledUser

/-- Whether a user's token was not swept today and could be pulled from with any balance. -/
def isCandidate (user : EnrolledUser) (config : Client.Config) (now : ℤ) (paymentToken : ℕ) : Bool :=
  let day := divEuclid now daySeconds
  if user.lastSweepDay[paymentToken]?.any fun last => (last : ℤ) ≥ day then false
  else
    let upperBound := pull user.toUserConfig paymentToken u64Max config.userWeeklyCap
      config.marketCalendar now
    pullTotal upperBound > 0

def sweepCandidates (users : List EnrolledUser) (config : Client.Config) (now : ℤ) : List Candidate :=
  let isOpen := Client.usMarketOpen now config.marketCalendar
  users.flatMap fun user =>
    if user.status ≠ .active ∨ user.engine = .weekly ∧ ¬isOpen then []
    else
      ((enabledPaymentTokens user.paymentTokens).filter (isCandidate user config now)).map
        fun paymentToken => { paymentToken := paymentToken, user := user }

variable {users : List EnrolledUser} {config : Client.Config} {now : ℤ}

/-- A pair is listed for a user of the list, when each check passes. -/
theorem mem_sweepCandidates {candidate : Candidate} :
    candidate ∈ sweepCandidates users config now ↔
      candidate.user ∈ users ∧ candidate.user.status = .active ∧
      (candidate.user.engine = .weekly → Client.usMarketOpen now config.marketCalendar = true) ∧
      candidate.paymentToken ∈ enabledPaymentTokens candidate.user.paymentTokens ∧
      isCandidate candidate.user config now candidate.paymentToken = true := by
  unfold sweepCandidates
  dsimp only
  rw [List.mem_flatMap]
  constructor
  · rintro ⟨user, huser, hmem⟩
    split at hmem
    · cases hmem
    · rename_i hpassed
      rw [not_or, not_not] at hpassed
      rcases List.mem_map.mp hmem with ⟨token, htoken, rfl⟩
      rcases List.mem_filter.mp htoken with ⟨henabled, hcandidate⟩
      refine ⟨huser, hpassed.1, fun hengine => ?_, henabled, hcandidate⟩
      by_contra hclosed
      exact hpassed.2 ⟨hengine, hclosed⟩
  · rintro ⟨huser, hactive, hopen, henabled, hcandidate⟩
    refine ⟨candidate.user, huser, ?_⟩
    rw [if_neg (by rintro (h | ⟨hengine, hclosed⟩); exacts [h hactive, hclosed (hopen hengine)])]
    exact List.mem_map.mpr ⟨candidate.paymentToken, List.mem_filter.mpr ⟨henabled, hcandidate⟩, rfl⟩

/-- What `isCandidate` finds is not swept today and has a pull with the largest balance. -/
theorem isCandidate_eq_true {user : EnrolledUser} {paymentToken : ℕ} :
    isCandidate user config now paymentToken = true ↔
      (∀ last, user.lastSweepDay[paymentToken]? = some last → (last : ℤ) < divEuclid now daySeconds) ∧
      0 < pullTotal (pull user.toUserConfig paymentToken u64Max config.userWeeklyCap
        config.marketCalendar now) := by
  unfold isCandidate
  dsimp only
  cases user.lastSweepDay[paymentToken]? with
  | none => simp
  | some last =>
    by_cases hswept : (last : ℤ) ≥ divEuclid now daySeconds
    · simp [hswept]
    · simp [hswept, not_le.mp hswept]

theorem nodup_sweepCandidates (h : (users.map EnrolledUser.user).Nodup) :
    ((sweepCandidates users config now).map fun candidate =>
      (candidate.user.user, candidate.paymentToken)).Nodup := by
  unfold sweepCandidates
  dsimp only
  rw [List.map_flatMap, List.nodup_flatMap]
  constructor
  · intro user _
    split
    · exact List.nodup_nil
    · rw [List.map_map]
      apply List.Nodup.map
      · intro a b hab
        exact congrArg Prod.snd hab
      · exact (nodup_enabledPaymentTokens _).filter _
  · apply (List.pairwise_map.mp h).imp
    intro a b hne
    apply List.disjoint_left.mpr
    intro pair ha hb
    have hfst {user : EnrolledUser} (hmem : pair ∈ (if user.status ≠ .active ∨
        user.engine = .weekly ∧ ¬Client.usMarketOpen now config.marketCalendar = true then []
        else ((enabledPaymentTokens user.paymentTokens).filter (isCandidate user config now)).map
          fun paymentToken => (Candidate.mk paymentToken user)).map
        fun candidate => (candidate.user.user, candidate.paymentToken)) : pair.1 = user.user := by
      split at hmem
      · cases hmem
      · rw [List.map_map] at hmem
        rcases List.mem_map.mp hmem with ⟨token, _, rfl⟩
        rfl
    exact hne ((hfst ha).symm.trans (hfst hb))

/-- A read balance is a machine word. -/
def IsBalance (amount : ℤ) : Prop := 0 ≤ amount ∧ amount ≤ u64Max

theorem isCandidate_of_wanted {record : Laterite.UserConfig} {state : SweepState}
    (huser : state.userConfig = Client.UserConfig.of record)
    (hbalance : ∀ account, state.paymentAccountState = some account → IsBalance account.amount)
    (hnow : 0 ≤ state.now) (hlimit : state.now < 2 ^ 32 * daySeconds)
    (h : Wanted (getSweepPull state)) :
    isCandidate (EnrolledUser.of record) state.config state.now state.paymentToken = true := by
  have hchecks := h.checks
  rw [huser] at hchecks
  rcases hchecks with ⟨_, hfresh, _, htotal, _⟩
  have hamount : (state.paymentAccountState.map TokenAccountState.amount).getD 0 ≤ u64Max := by
    cases haccount : state.paymentAccountState with
    | none => decide
    | some account => exact (hbalance account haccount).2
  have hmono := pullTotal_mono (Client.UserConfig.of record) state.paymentToken
    state.config.userWeeklyCap state.config.marketCalendar state.now hamount
    (Int.natCast_nonneg _) (Int.natCast_nonneg _)
  apply isCandidate_eq_true.mpr
  constructor
  · intro last hlast
    have hday := hfresh last hlast
    have hdays : (divEuclid state.now daySeconds % 2 ^ 32).toNat = state.now / daySeconds := by
      rw [divEuclid_eq _ (by decide)]
      unfold daySeconds at *
      omega
    rw [divEuclid_eq _ (by decide), ← hdays]
    exact Int.ofNat_lt.mpr hday
  · exact lt_of_lt_of_le (lt_of_le_of_ne hmono.1 htotal.symm) hmono.2

/-- The list misses no sweep that is wanted, holds only tokens that could be swept, and names
none twice. -/
theorem sweepCandidates_exact (records : List Laterite.UserConfig) (config : Laterite.Config)
    (hnow : 0 ≤ now) (hlimit : now < 2 ^ 32 * daySeconds) :
    (∀ record ∈ records, ∀ state : SweepState,
      state.userConfig = Client.UserConfig.of record → state.config = Client.Config.of config →
      state.now = now →
      (∀ account, state.paymentAccountState = some account → IsBalance account.amount) →
      Wanted (getSweepPull state) →
      ⟨state.paymentToken, EnrolledUser.of record⟩ ∈
        sweepCandidates (records.map EnrolledUser.of) (Client.Config.of config) now) ∧
    (∀ candidate ∈ sweepCandidates (records.map EnrolledUser.of) (Client.Config.of config) now,
      ∃ record ∈ records, candidate.user = EnrolledUser.of record ∧ record.status = .active ∧
        enabled record.paymentTokens candidate.paymentToken = true ∧
        (∀ last, record.lastSweepDay[candidate.paymentToken]? = some last →
          (last.toNat : ℤ) < now / Laterite.daySeconds) ∧
        (record.engine = .weekly → Laterite.usMarketOpen now config.marketCalendar = true) ∧
        ∃ balance : UInt64, 0 < pullTotal (pull (Client.UserConfig.of record)
          candidate.paymentToken balance.toNat (Client.Config.of config).userWeeklyCap
          (Client.Config.of config).marketCalendar now)) ∧
    ((records.map Laterite.UserConfig.user).Nodup →
      ((sweepCandidates (records.map EnrolledUser.of) (Client.Config.of config) now).map
        fun candidate => (candidate.user.user, candidate.paymentToken)).Nodup) := by
  refine ⟨?_, ?_, ?_⟩
  · intro record hrecord state huser hconfig hclock hbalance hwanted
    subst hclock
    have hcandidate := isCandidate_of_wanted huser hbalance hnow hlimit hwanted
    rcases hwanted.checks with ⟨hlisted, _, hsession, htotal, henabled⟩
    rw [hconfig] at hcandidate hsession hlisted
    rw [huser] at hsession henabled htotal
    apply mem_sweepCandidates.mpr
    refine ⟨List.mem_map.mpr ⟨record, hrecord, rfl⟩, ?_, ?_, ?_, hcandidate⟩
    · by_contra hinactive
      have hclient : (Client.UserConfig.of record).status ≠ .active := hinactive
      apply htotal
      rw [pull, if_pos hclient]
      rfl
    · intro hengine
      by_contra hclosed
      exact hsession ⟨hengine, hclosed⟩
    · have htable : state.paymentToken < 2 := by
        rw [Client.Config.of, Vector.length_toList] at hlisted
        exact hlisted
      apply List.mem_filter.mpr
      constructor
      · change state.paymentToken ∈ [0, 1]
        rw [List.mem_cons, List.mem_singleton]
        omega
      · exact decide_eq_true henabled
  · intro candidate hmem
    rcases mem_sweepCandidates.mp hmem with ⟨huser, hactive, hopen, henabled, hcandidate⟩
    rcases List.mem_map.mp huser with ⟨record, hrecord, hof⟩
    rw [← hof] at hactive hopen henabled hcandidate
    rcases isCandidate_eq_true.mp hcandidate with ⟨hfresh, hpull⟩
    refine ⟨record, hrecord, hof.symm, hactive, ?_, ?_, ?_, UInt64.maxValue, hpull⟩
    · rcases List.mem_filter.mp henabled with ⟨htoken, hbit⟩
      have htable : candidate.paymentToken < 2 := by
        rcases List.mem_cons.mp htoken with h | h
        · omega
        · rw [List.mem_singleton.mp h]
          decide
      by_contra hdisabled
      exact of_decide_eq_true hbit ((enabled_eq htable).mpr hdisabled)
    · intro last hlast
      have hread : (EnrolledUser.of record).lastSweepDay[candidate.paymentToken]? =
          some last.toNat := by
        change (record.lastSweepDay.toList.map UInt32.toNat)[candidate.paymentToken]? = _
        rw [List.getElem?_map, Vector.getElem?_toList, hlast, Option.map_some]
      have hday := hfresh last.toNat hread
      rw [divEuclid_eq _ (by decide)] at hday
      exact hday
    · intro hengine
      rw [← usMarketOpen_eq]
      exact hopen hengine
  · intro hdistinct
    apply nodup_sweepCandidates
    rw [List.map_map]
    exact hdistinct

/-- The newcomer's first token is read: there is a dollar to invest and change pending. -/
theorem sweepCandidates_exact_newcomer :
    ⟨0, EnrolledUser.of newcomer⟩ ∈ sweepCandidates [EnrolledUser.of newcomer]
      (Client.Config.of SweepRehearsal.config) 1700000100 := by
  have hpull : getSweepPull { newcomerState with config := Client.Config.of SweepRehearsal.config } =
      .ok ⟨1000000, 1400000⟩ := by rfl
  exact (sweepCandidates_exact [newcomer] SweepRehearsal.config (by decide) (by decide)).1
    newcomer (List.mem_singleton_self _)
    { newcomerState with config := Client.Config.of SweepRehearsal.config } rfl rfl rfl
    (fun account haccount => by cases haccount; exact ⟨by decide, by decide⟩) (.inl ⟨_, hpull⟩)

end Crank

end Laterite
