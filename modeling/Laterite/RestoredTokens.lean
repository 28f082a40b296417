import Laterite.SubscriptionEffects

/-!
# Restoring a payment token

A sweep names what stops it; restore builds the instructions that take it away, or says when it can.
Both look at the same subscription, authority and account, but only the sweep looks at how much of
the approval is left.
-/

namespace Laterite.Client

section

variable {d : Deployment} {unknownInitId now : ℤ} {payers : List Pubkey} {plan : PlanState}
  {token : TokenState} {user sponsor : Pubkey} {run : Run} {account : TokenAccountState}
  {instructions : List Instruction}

/-- The subscription has not run out. -/
def RecordedSubscription.Runs (self : RecordedSubscription) (now : ℤ) : Prop :=
  self.delegation.expiresAtTs = 0 ∨ now < self.delegation.expiresAtTs

/-- The plan's subscription runs and goes through the authority there is. -/
def Keeps (now : ℤ) (plan : PlanState) (token : TokenState) (held : RecordedSubscription) : Prop :=
  plan.subscriptionState = some held ∧ held.Runs now ∧
    token.authorityState.map RecordedAuthority.initId = some held.initId

/-- The plan's subscription runs through an authority that is gone, and who could close it is not at
hand. -/
def Stranded (now : ℤ) (payers : List Pubkey) (plan : PlanState) (sponsor : Pubkey)
    (token : TokenState) (held : RecordedSubscription) : Prop :=
  plan.subscriptionState = some held ∧ held.Runs now ∧
    token.authorityState.map RecordedAuthority.initId ≠ some held.initId ∧
    held.payer ∉ sponsor :: payers

theorem not_runs {held : RecordedSubscription} :
    ¬held.Runs now ↔ held.delegation.expiresAtTs ≠ 0 ∧ held.delegation.expiresAtTs ≤ now := by
  unfold RecordedSubscription.Runs
  rw [not_or, not_lt]

theorem find_payer {payer : Pubkey} :
    (sponsor :: payers).find? (fun p => p = payer) =
      if payer ∈ sponsor :: payers then some payer else none := by
  by_cases hmem : payer ∈ sponsor :: payers
  · rw [if_pos hmem]
    cases hfind : (sponsor :: payers).find? (fun p => p = payer) with
    | none =>
      have hall := List.find?_eq_none.mp hfind payer hmem
      simp at hall
    | some p =>
      have hp := List.find?_some hfind
      rw [decide_eq_true_eq] at hp
      rw [hp]
  · rw [if_neg hmem, List.find?_eq_none]
    intro p hp heq
    rw [decide_eq_true_eq] at heq
    exact hmem (heq ▸ hp)

theorem subscriptionInstructions_noAccount (h : token.accountState = none) :
    subscriptionInstructions d unknownInitId now payers plan sponsor token user =
      .error (.noAccount user token.mint) := by
  unfold subscriptionInstructions
  rw [h]
  rfl

theorem subscriptionInstructions_frozen (h : token.accountState = some account)
    (hfrozen : account.frozen = true) :
    subscriptionInstructions d unknownInitId now payers plan sponsor token user =
      .error (.client (.restoreRequired .frozen token.account)) := by
  unfold subscriptionInstructions
  rw [h]
  exact if_pos hfrozen

theorem subscriptionInstructions_thawed (h : token.accountState = some account)
    (hthawed : account.frozen = false) :
    subscriptionInstructions d unknownInitId now payers plan sponsor token user =
      match plan.subscriptionState with
      | none => .ok (approveInstructions sponsor user token account ++
          [subscribeInstruction d unknownInitId plan sponsor user token])
      | some held =>
        if held.delegation.expiresAtTs ≠ 0 ∧ held.delegation.expiresAtTs ≤ now then
          .ok (.revokeSubscription user plan.plan held.payer plan.subscription ::
            (approveInstructions sponsor user token account ++
              [subscribeInstruction d unknownInitId plan sponsor user token]))
        else if token.authorityState.map RecordedAuthority.initId ≠ some held.initId then
          if held.payer ∈ sponsor :: payers then
            .ok (.revokeAbandonedSubscription held.payer plan.plan plan.subscription token.authority ::
              (approveInstructions sponsor user token account ++
                [subscribeInstruction d unknownInitId plan sponsor user token]))
          else .error (.recordedPayerRequired held.payer plan.subscription)
        else if held.delegation.expiresAtTs = 0 then .ok (approveInstructions sponsor user token account)
        else .ok (approveInstructions sponsor user token account ++
          [.resumeSubscription held.delegation.expiresAtTs plan.plan user plan.subscription token.mint]) := by
  have hopen : ¬account.frozen = true := by simp [hthawed]
  unfold subscriptionInstructions closeSubscriptionInstruction
  rw [h]
  change (if account.frozen = true then _ else _) = _
  rw [if_neg hopen]
  cases hheld : plan.subscriptionState with
  | none => rfl
  | some held =>
    dsimp only
    rw [find_payer]
    by_cases hmem : held.payer ∈ sponsor :: payers
    · simp only [if_pos hmem]
      rfl
    · simp only [if_neg hmem]
      rfl

theorem run_resubscribe {close : Instruction}
    (hdocumented : Documented d unknownInitId now (sponsor :: payers) plan token user run)
    (haccount : token.accountState = some account) (hthawed : account.frozen = false)
    (hclose : run close (Standing.of plan token) =
      some { Standing.of plan token with subscription := none }) :
    ∃ after subscription, runAll run (close :: (approveInstructions sponsor user token account ++
        [subscribeInstruction d unknownInitId plan sponsor user token])) (Standing.of plan token) =
        some after ∧
      Restored token account subscription after ∧
      ∃ authority, Opened plan authority sponsor subscription := by
  rcases run_subscribe { Standing.of plan token with subscription := none } hdocumented
    List.mem_cons_self haccount hthawed rfl rfl with ⟨after, subscription, hrun, hrest⟩
  refine ⟨after, subscription, ?_, hrest⟩
  rw [runAll, hclose]
  exact hrun

/-- A subscription that runs through the authority there is, once the account is approved again and
a pending expiry is cleared. -/
theorem run_keep {held : RecordedSubscription}
    (hdocumented : Documented d unknownInitId now (sponsor :: payers) plan token user run)
    (haccount : token.accountState = some account) (hthawed : account.frozen = false)
    (hkeeps : Keeps now plan token held) :
    ∃ after, runAll run (approveInstructions sponsor user token account ++
        if held.delegation.expiresAtTs = 0 then []
        else [.resumeSubscription held.delegation.expiresAtTs plan.plan user plan.subscription
          token.mint]) (Standing.of plan token) = some after ∧
      Restored token account (held.expiring 0) after := by
  rcases hkeeps with ⟨hheld, hruns, hbound⟩
  rcases run_approve (Standing.of plan token) hdocumented List.mem_cons_self haccount
    hthawed rfl with ⟨mid, hmid, happroved⟩
  have hsubscription : mid.subscription = some held := happroved.subscription.trans hheld
  have hauthority : mid.authority.map RecordedAuthority.initId = some held.initId := by
    rcases happroved.authority with ⟨authority, hafter, hkept, -⟩
    rcases Option.map_eq_some_iff.mp hbound with ⟨before, hbefore, hinitId⟩
    rw [hafter, Option.map_some, ← hkept before hbefore, hinitId]
  rw [runAll_append, hmid, Option.bind_some]
  by_cases hexpiry : held.delegation.expiresAtTs = 0
  · rw [if_pos hexpiry]
    have hsame : held.expiring 0 = held := by
      unfold RecordedSubscription.expiring
      rw [← hexpiry]
    rw [hsame]
    exact ⟨mid, rfl, hsubscription, hexpiry, hauthority, happroved.account⟩
  · rw [if_neg hexpiry]
    have hrun := hdocumented.resume hsubscription hauthority hexpiry (hruns.resolve_left hexpiry)
    refine ⟨{ mid with subscription := some (held.expiring 0) }, ?_, rfl, rfl, hauthority,
      happroved.account⟩
    rw [runAll, hrun]
    rfl

theorem run_subscriptionInstructions
    (hdocumented : Documented d unknownInitId now (sponsor :: payers) plan token user run)
    (haccount : token.accountState = some account) (hthawed : account.frozen = false)
    (h : subscriptionInstructions d unknownInitId now payers plan sponsor token user =
      .ok instructions) :
    ∃ after subscription, runAll run instructions (Standing.of plan token) = some after ∧
      Restored token account subscription after ∧
      ((∃ held, Keeps now plan token held ∧ subscription = held.expiring 0) ∨
        (∀ held, ¬Keeps now plan token held) ∧
          ∃ authority, Opened plan authority sponsor subscription) := by
  rw [subscriptionInstructions_thawed haccount hthawed] at h
  cases hheld : plan.subscriptionState with
  | none =>
    rw [hheld] at h
    obtain rfl := Except.ok.inj h
    rcases run_subscribe (Standing.of plan token) hdocumented List.mem_cons_self haccount
      hthawed rfl hheld with ⟨after, subscription, hrun, hrestored, hopened⟩
    refine ⟨after, subscription, hrun, hrestored, .inr ⟨?_, hopened⟩⟩
    intro held hkeeps
    rw [hkeeps.1] at hheld
    cases hheld
  | some held =>
    rw [hheld] at h
    dsimp only at h
    have hleft : (Standing.of plan token).subscription = some held := hheld
    have hsame {other : RecordedSubscription} (hkeeps : Keeps now plan token other) : other = held :=
      Option.some.inj (hkeeps.1.symm.trans hheld)
    by_cases hexpired : held.delegation.expiresAtTs ≠ 0 ∧ held.delegation.expiresAtTs ≤ now
    · rw [if_pos hexpired] at h
      obtain rfl := Except.ok.inj h
      rcases run_resubscribe hdocumented haccount hthawed
        (hdocumented.closeExpired hleft hexpired.1 hexpired.2) with
        ⟨after, subscription, hrun, hrestored, hopened⟩
      refine ⟨after, subscription, hrun, hrestored, .inr ⟨?_, hopened⟩⟩
      intro other hkeeps
      rw [hsame hkeeps] at hkeeps
      exact not_runs.mpr hexpired hkeeps.2.1
    rw [if_neg hexpired] at h
    by_cases hbound : token.authorityState.map RecordedAuthority.initId = some held.initId
    · rw [if_neg (not_not.mpr hbound)] at h
      have hkeeps : Keeps now plan token held :=
        ⟨hheld, not_not.mp (mt not_runs.mp hexpired), hbound⟩
      rcases run_keep hdocumented haccount hthawed hkeeps with ⟨after, hrun, hrestored⟩
      refine ⟨after, held.expiring 0, ?_, hrestored, .inl ⟨held, hkeeps, rfl⟩⟩
      rw [← hrun]
      split at h
      · rename_i hexpiry
        rw [if_pos hexpiry, List.append_nil, Except.ok.inj h]
      · rename_i hexpiry
        rw [if_neg hexpiry, Except.ok.inj h]
    · rw [if_pos hbound] at h
      split at h
      swap
      · cases h
      rename_i hpayer
      obtain rfl := Except.ok.inj h
      rcases run_resubscribe hdocumented haccount hthawed
        (hdocumented.closeAbandoned hleft hbound hpayer) with
        ⟨after, subscription, hrun, hrestored, hopened⟩
      refine ⟨after, subscription, hrun, hrestored, .inr ⟨?_, hopened⟩⟩
      intro other hkeeps
      rw [hsame hkeeps] at hkeeps
      exact hbound hkeeps.2.2

/-- Over an account that is not frozen nothing is built exactly when the subscription is stranded. -/
theorem subscriptionInstructions_stranded (haccount : token.accountState = some account)
    (hthawed : account.frozen = false) {held : RecordedSubscription}
    (hstranded : Stranded now payers plan sponsor token held) :
    subscriptionInstructions d unknownInitId now payers plan sponsor token user =
      .error (.recordedPayerRequired held.payer plan.subscription) := by
  rcases hstranded with ⟨hheld, hruns, hunbound, hpayer⟩
  rw [subscriptionInstructions_thawed haccount hthawed, hheld]
  dsimp only
  rw [if_neg (mt not_runs.mpr (not_not.mpr hruns)), if_pos hunbound, if_neg hpayer]

theorem subscriptionInstructions_ok (d : Deployment) (unknownInitId : ℤ) (user : Pubkey)
    (haccount : token.accountState = some account)
    (hthawed : account.frozen = false)
    (hstranded : ∀ held, ¬Stranded now payers plan sponsor token held) :
    ∃ instructions, subscriptionInstructions d unknownInitId now payers plan sponsor token user =
      .ok instructions := by
  rw [subscriptionInstructions_thawed haccount hthawed]
  cases hheld : plan.subscriptionState with
  | none => exact ⟨_, rfl⟩
  | some held =>
    dsimp only
    split
    · exact ⟨_, rfl⟩
    rename_i hexpired
    split
    · rename_i hunbound
      split
      · exact ⟨_, rfl⟩
      · rename_i hpayer
        exact absurd ⟨hheld, not_not.mp (mt not_runs.mp hexpired), hunbound, hpayer⟩ (hstranded held)
    · split
      · exact ⟨_, rfl⟩
      · exact ⟨_, rfl⟩

end

section

variable (config : Laterite.Config) (userConfig : Laterite.UserConfig) (paymentToken : ℕ) (now : ℤ)
  (token : TokenState)

def Standing.sweepState (standing : Standing) : SweepState where
  authority := token.authority
  authorityState := standing.authority.map RecordedAuthority.decoded
  config := Config.of config
  now := now
  paymentAccount := token.account
  paymentAccountState := standing.account
  paymentToken := paymentToken
  subscription := standing.subscription.map RecordedSubscription.decoded
  userConfig := UserConfig.of userConfig

/-- What the engine asks of an account's balance. -/
def wanted (account : Option TokenAccountState) : Pull :=
  pull (UserConfig.of userConfig) paymentToken ((account.map TokenAccountState.amount).getD 0)
    (Config.of config).userWeeklyCap (Config.of config).marketCalendar now

end

def approvalChecks (state : SweepState) (wanted : Pull) : Except ClientError Pull :=
  if ¬isRunning state.subscription state.now
  then .error (.restoreRequired .subscription state.paymentAccount)
  else if state.authorityState.map SubscriptionAuthority.initId ≠
      state.subscription.map SubscriptionDelegation.initId
  then .error (.restoreRequired .authority state.paymentAccount)
  else if state.paymentAccountState.any TokenAccountState.frozen
  then .error (.restoreRequired .frozen state.paymentAccount)
  else
    let capped := cappedPull wanted (nativeRemaining state.subscription state.now)
    if pullTotal capped = 0 then .error nothingToSweep
    else if state.paymentAccountState.bind TokenAccountState.delegate ≠ some state.authority ∨
      state.paymentAccountState.any (·.delegatedAmount < pullTotal capped)
    then .error (.restoreRequired .delegate state.paymentAccount)
    else .ok capped

section

variable {config : Laterite.Config} {userConfig : Laterite.UserConfig} {paymentToken : ℕ} {now : ℤ}
  {token : TokenState} {standing after : Standing} {reason : RestoreReason} {stopped : Pubkey}

/-- A check that refuses with a program's number was passed by what asks for a restore. -/
theorem passed_of_restoreRequired {refused : Prop} [Decidable refused] {code : ℕ}
    {rest : Except ClientError Pull}
    (h : (if refused then .error (.lateriteCheck code) else rest) =
      .error (.restoreRequired reason stopped)) :
    ¬refused ∧ rest = .error (.restoreRequired reason stopped) := by
  by_cases hrefused : refused
  · rw [if_pos hrefused] at h
    cases h
  · rw [if_neg hrefused] at h
    exact ⟨hrefused, h⟩

theorem getSweepPull_of_restoreRequired
    (h : getSweepPull (standing.sweepState config userConfig paymentToken now token) =
      .error (.restoreRequired reason stopped))
    (hbalance : after.account.map TokenAccountState.amount =
      standing.account.map TokenAccountState.amount) :
    getSweepPull (after.sweepState config userConfig paymentToken now token) =
      approvalChecks (after.sweepState config userConfig paymentToken now token)
        (wanted config userConfig paymentToken now standing.account) := by
  have hsame : wanted config userConfig paymentToken now after.account =
      wanted config userConfig paymentToken now standing.account := by
    unfold wanted
    rw [hbalance]
  rw [← hsame]
  unfold getSweepPull at h ⊢
  rcases passed_of_restoreRequired h with ⟨hpaused, h⟩
  rcases passed_of_restoreRequired h with ⟨hlisted, h⟩
  rcases passed_of_restoreRequired h with ⟨hday, h⟩
  rcases passed_of_restoreRequired h with ⟨hopen, h⟩
  rcases passed_of_restoreRequired h with ⟨hwanted, h⟩
  rcases passed_of_restoreRequired h with ⟨henabled, -⟩
  have hwanted' : ¬pullTotal (wanted config userConfig paymentToken now after.account) = 0 := by
    rw [hsame]
    exact hwanted
  apply (if_neg hpaused).trans
  apply (if_neg hlisted).trans
  apply (if_neg hday).trans
  apply (if_neg hopen).trans
  apply (if_neg hwanted').trans
  apply (if_neg henabled).trans
  rfl

variable {account : TokenAccountState} {plan : PlanState} {subscription : RecordedSubscription}
  {payers : List Pubkey} {sponsor : Pubkey}

theorem cappedPull_le (wanted : Pull) (limit : ℤ) : pullTotal (cappedPull wanted limit) ≤ limit := by
  unfold pullTotal cappedPull min
  dsimp only
  split <;> split <;> omega

theorem nativeRemaining_le (now : ℤ) : nativeRemaining (some subscription.decoded) now ≤ u64Max := by
  have hamount : (subscription.delegation.amount.toNat : ℤ) < 2 ^ 64 := by
    exact_mod_cast subscription.delegation.amount.toNat_lt
  unfold nativeRemaining saturatingSub u64Max
  dsimp only [RecordedSubscription.decoded, SubscriptionDelegation.of]
  repeat' split
  all_goals omega

theorem Opened.nativeRemaining {authority : RecordedAuthority} {payer : Pubkey}
    (h : Opened plan authority payer subscription) :
    nativeRemaining (some subscription.decoded) now = plan.planState.amount.toNat := by
  unfold Client.nativeRemaining saturatingSub
  dsimp only [RecordedSubscription.decoded, SubscriptionDelegation.of]
  rw [h.amount, h.pulled, h.expiresAtTs]
  have hzero : ((0 : UInt64).toNat : ℤ) = 0 := rfl
  rw [hzero]
  repeat' split
  all_goals omega

/-- Clearing a pending expiry leaves what the subscription lets be pulled. -/
theorem nativeRemaining_expiring {held : RecordedSubscription} (hruns : held.Runs now) :
    nativeRemaining (some (held.expiring 0).decoded) now = nativeRemaining (some held.decoded) now := by
  have hopen : ¬(held.decoded.expiresAtTs ≠ 0 ∧ now ≥ held.decoded.expiresAtTs) :=
    mt not_runs.mpr (not_not.mpr hruns)
  unfold nativeRemaining
  dsimp only
  rw [if_neg hopen]
  rfl

/-- What a subscription lets be pulled once the token is restored: what the one that is kept does, or
the whole amount of the plan. -/
def limitAfter (now : ℤ) (plan : PlanState) (token : TokenState) : ℤ :=
  match plan.subscriptionState with
  | none => plan.planState.amount.toNat
  | some held =>
    if (held.delegation.expiresAtTs = 0 ∨ now < held.delegation.expiresAtTs) ∧
        token.authorityState.map RecordedAuthority.initId = some held.initId then
      nativeRemaining (some held.decoded) now
    else plan.planState.amount.toNat

theorem limitAfter_eq
    (h : (∃ held, Keeps now plan token held ∧ subscription = held.expiring 0) ∨
      (∀ held, ¬Keeps now plan token held) ∧ ∃ authority, Opened plan authority sponsor subscription) :
    nativeRemaining (some subscription.decoded) now = limitAfter now plan token := by
  unfold limitAfter
  rcases h with ⟨held, hkeeps, rfl⟩ | ⟨hnone, authority, hopened⟩
  · rw [hkeeps.1, nativeRemaining_expiring hkeeps.2.1]
    exact (if_pos hkeeps.2).symm
  · rw [hopened.nativeRemaining]
    cases hheld : plan.subscriptionState with
    | none => rfl
    | some held =>
      have hnot : ¬(held.Runs now ∧
          token.authorityState.map RecordedAuthority.initId = some held.initId) :=
        fun hkept => hnone held ⟨hheld, hkept⟩
      exact (if_neg hnot).symm

theorem renewed_frozen : (renewed token account).frozen = account.frozen := by
  unfold renewed
  split <;> rfl

theorem renewed_delegate : (renewed token account).delegate = some token.authority := by
  unfold renewed
  split
  · rename_i happroving
    exact happroving.2
  · rfl

theorem renewed_amount : (renewed token account).amount = account.amount := by
  unfold renewed
  split <;> rfl

theorem approvalChecks_restored (hrestored : Restored token account subscription after)
    (hthawed : account.frozen = false) (wanted : Pull) :
    approvalChecks (after.sweepState config userConfig paymentToken now token) wanted =
      let capped := cappedPull wanted (nativeRemaining (some subscription.decoded) now)
      if pullTotal capped = 0 then .error nothingToSweep
      else if (renewed token account).delegatedAmount < pullTotal capped then
        .error (.restoreRequired .delegate token.account)
      else .ok capped := by
  rcases after with ⟨held, authority, left, isNew⟩
  rcases hrestored with ⟨hheld, hexpiry, hbound, haccount⟩
  dsimp only at hheld hbound haccount
  subst hheld haccount
  have hruns : isRunning (some subscription.decoded) now = true := decide_eq_true (.inl hexpiry)
  have hsame : (authority.map RecordedAuthority.decoded).map SubscriptionAuthority.initId =
      (some subscription.decoded).map SubscriptionDelegation.initId := by
    rw [Option.map_map]
    exact hbound
  have hopen : ¬(some (renewed token account)).any TokenAccountState.frozen = true := by
    rw [Option.any_some, renewed_frozen, hthawed]
    exact Bool.false_ne_true
  apply (if_neg (not_not.mpr hruns)).trans
  apply (if_neg (not_not.mpr hsame)).trans
  apply (if_neg hopen).trans
  dsimp only
  by_cases hzero : pullTotal (cappedPull wanted (nativeRemaining (some subscription.decoded) now)) = 0
  · exact (if_pos hzero).trans (if_pos hzero).symm
  apply (if_neg hzero).trans
  rw [if_neg hzero]
  by_cases hshort : (renewed token account).delegatedAmount <
      pullTotal (cappedPull wanted (nativeRemaining (some subscription.decoded) now))
  · rw [if_pos hshort]
    exact if_pos (.inr (decide_eq_true hshort))
  · rw [if_neg hshort]
    apply if_neg
    rw [not_or, not_not]
    exact ⟨renewed_delegate, fun hany => hshort (of_decide_eq_true hany)⟩

theorem cancellationExpiry_eq {held : RecordedSubscription} {terms : PlanTerms} {time : ℤ}
    (h : cancellationExpiry held terms now = .ok time) :
    ∃ stop, PeriodEnd held.delegation.currentPeriodStartTs
        (held.delegation.periodHours.toNat * 3600) now stop ∧
      time = cutShort terms.endTs stop := by
  unfold cancellationExpiry at h
  dsimp only at h
  by_cases hbegun : now > held.delegation.currentPeriodStartTs
  · rw [if_pos hbegun] at h
    by_cases hzero : (held.delegation.periodHours.toNat * 3600 : ℤ) = 0
    · rw [if_pos hzero] at h
      cases h
    rw [if_neg hzero] at h
    have hpositive : (0 : ℤ) < held.delegation.periodHours.toNat * 3600 := by omega
    generalize (held.delegation.periodHours.toNat * 3600 : ℤ) = period at h hpositive ⊢
    generalize held.delegation.currentPeriodStartTs = start at h hbegun ⊢
    rw [Int.tdiv_eq_ediv_of_nonneg (by omega)] at h
    have hnonneg : 0 ≤ (now - start) / period := Int.ediv_nonneg (by omega) hpositive.le
    have hlow := Int.ediv_mul_le (now - start) hpositive.ne'
    have hhigh := Int.lt_ediv_add_one_mul_self (now - start) hpositive
    refine ⟨start + ((now - start) / period + 1) * period, ?_, (Except.ok.inj h).symm⟩
    unfold PeriodEnd
    rw [if_neg (not_le.mpr hbegun)]
    refine ⟨((now - start) / period + 1).toNat, ?_, ?_, ?_⟩
    · rw [Int.toNat_of_nonneg (by omega)]
    · rw [add_mul, one_mul]
      omega
    · omega
  · rw [if_neg hbegun] at h
    refine ⟨_, ?_, (Except.ok.inj h).symm⟩
    unfold PeriodEnd
    rw [if_pos (not_lt.mp hbegun), zero_add, one_mul]

theorem PeriodEnd.pos {start period stop : ℤ} (h : PeriodEnd start period now stop) (hnow : 0 < now)
    (hperiod : 0 ≤ period) : 0 < stop := by
  unfold PeriodEnd at h
  split at h
  · omega
  · rcases h with ⟨_, -, -, hlater⟩
    omega

theorem cutShort_ne_zero {endTs stop : ℤ} (h : 0 < stop) : cutShort endTs stop ≠ 0 := by
  unfold cutShort
  split
  · rename_i hcut
    exact hcut.1
  · omega

def UserState.holding (state : UserState) (paymentToken tier : ℕ) (standing : Standing) (later : ℤ) :
    UserState :=
  { state with
    now := later
    plans := state.plans.map fun plan =>
      if plan.paymentToken = paymentToken ∧ plan.tier = tier then
        { plan with subscriptionState := standing.subscription }
      else plan
    tokens := state.tokens.modify paymentToken fun token =>
      { token with authorityState := standing.authority, accountState := standing.account } }

/-- From `time` on, and no earlier, the subscription has run out and the same call restores the
token at once. -/
def RestorableFrom (d : Deployment) (unknownInitId : ℤ) (state : UserState) (paymentToken tier : ℕ)
    (payers : List Pubkey) (sponsor user : Pubkey) (after : Standing) (time : ℤ) : Prop :=
  ∀ later, state.now ≤ later →
    (isRunning (after.subscription.map RecordedSubscription.decoded) later = true ↔ later < time) ∧
    (later < time → getRestoreInstructions d unknownInitId (state.holding paymentToken tier after later)
      paymentToken payers sponsor user = .ok ⟨[], some time⟩) ∧
    (time ≤ later → ∃ instructions, getRestoreInstructions d unknownInitId
      (state.holding paymentToken tier after later) paymentToken payers sponsor user =
        .ok ⟨instructions, none⟩)

/-- What restore returns does what it says: its instructions run, and then the sweep asks for no
restore, or the time it gives is when the token can be restored. -/
def Heals (d : Deployment) (unknownInitId : ℤ) (config : Laterite.Config)
    (userConfig : Laterite.UserConfig) (state : UserState) (paymentToken : ℕ) (payers : List Pubkey)
    (sponsor user : Pubkey) (plan : PlanState) (token : TokenState) (run : Run) : Prop :=
  ∀ result, getRestoreInstructions d unknownInitId state paymentToken payers sponsor user = .ok result →
    ∃ after, runAll run result.instructions (Standing.of plan token) = some after ∧
      match result.restorableAt with
      | none => ∀ reason account,
          getSweepPull (after.sweepState config userConfig paymentToken state.now token) ≠
            .error (.restoreRequired reason account)
      | some time => RestorableFrom d unknownInitId state paymentToken userConfig.tier.toNat payers
          sponsor user after time

/-- The approval the account has, which restore keeps, is short of what the sweep would pull once
restored. -/
def ShortApproval (now : ℤ) (payers : List Pubkey) (plan : PlanState) (sponsor : Pubkey)
    (token : TokenState) (wanted : Pull) : Prop :=
  ∃ account, token.accountState = some account ∧ account.frozen = false ∧ Approving token account ∧
    (∀ held, ¬Stranded now payers plan sponsor token held) ∧
    pullTotal (cappedPull wanted (limitAfter now plan token)) ≠ 0 ∧
    account.delegatedAmount < pullTotal (cappedPull wanted (limitAfter now plan token))

variable {d : Deployment} {unknownInitId : ℤ} {state : UserState} {user : Pubkey} {run : Run}

structure Reads (state : UserState) (paymentToken : ℕ) (userConfig : Laterite.UserConfig)
    (plan : PlanState) (token : TokenState) : Prop where
  enrolled : state.userConfig = some userConfig
  stays : userConfig.status ≠ .exited
  enabled : userConfig.paymentTokens.toNat &&& (1 <<< paymentToken) ≠ 0
  found_plan : planState state paymentToken userConfig.tier.toNat = .ok plan
  found_token : tokenState state paymentToken = .ok token

theorem getRestoreInstructions_eq (hreads : Reads state paymentToken userConfig plan token) :
    getRestoreInstructions d unknownInitId state paymentToken payers sponsor user =
      match subscriptionInstructions d unknownInitId state.now payers plan sponsor token user with
      | .ok instructions => .ok ⟨instructions, none⟩
      | .error (.recordedPayerRequired _ _) => do
        let held ← found plan.subscriptionState (.noSubscription plan.subscription)
        if held.delegation.expiresAtTs ≠ 0 then .ok ⟨[], some held.delegation.expiresAtTs⟩
        else do
          let restorableAt ← cancellationExpiry held plan.planState state.now
          return ⟨[.cancelSubscription plan.plan user plan.subscription], some restorableAt⟩
      | .error error => .error error := by
  unfold getRestoreInstructions
  rw [hreads.enrolled]
  dsimp only [found, bind, Except.bind]
  rw [checks, if_pos hreads.stays, checks, if_pos hreads.enabled, hreads.found_plan,
    hreads.found_token]
  rfl

theorem getRestoreInstructions_ok {instructions : List Instruction}
    (hreads : Reads state paymentToken userConfig plan token)
    (h : subscriptionInstructions d unknownInitId state.now payers plan sponsor token user =
      .ok instructions) :
    getRestoreInstructions d unknownInitId state paymentToken payers sponsor user =
      .ok ⟨instructions, none⟩ := by
  rw [getRestoreInstructions_eq hreads, h]

theorem getRestoreInstructions_stranded {held : RecordedSubscription}
    (hreads : Reads state paymentToken userConfig plan token)
    (haccount : token.accountState = some account) (hthawed : account.frozen = false)
    (hstranded : Stranded state.now payers plan sponsor token held) :
    getRestoreInstructions d unknownInitId state paymentToken payers sponsor user =
      if held.delegation.expiresAtTs ≠ 0 then .ok ⟨[], some held.delegation.expiresAtTs⟩
      else (cancellationExpiry held plan.planState state.now).map fun restorableAt =>
        ⟨[.cancelSubscription plan.plan user plan.subscription], some restorableAt⟩ := by
  rw [getRestoreInstructions_eq hreads, subscriptionInstructions_stranded haccount hthawed hstranded]
  dsimp only
  rw [hstranded.1]
  rfl

theorem found_eq_ok {α : Type} {value : Option α} {error : BuildError} {a : α} :
    found value error = .ok a ↔ value = some a := by
  cases value <;> simp [found]

theorem Reads.holding (hreads : Reads state paymentToken userConfig plan token) (standing : Standing)
    (later : ℤ) :
    Reads (state.holding paymentToken userConfig.tier.toNat standing later) paymentToken userConfig
      { plan with subscriptionState := standing.subscription }
      { token with authorityState := standing.authority, accountState := standing.account } where
  enrolled := hreads.enrolled
  stays := hreads.stays
  enabled := hreads.enabled
  found_plan := by
    have hfind := found_eq_ok.mp hreads.found_plan
    have hplan := List.find?_some hfind
    rw [decide_eq_true_eq] at hplan
    apply found_eq_ok.mpr
    unfold UserState.holding
    dsimp only
    rw [List.find?_map]
    have hsame : ((fun plan : PlanState => decide (plan.paymentToken = paymentToken ∧
        plan.tier = userConfig.tier.toNat)) ∘ fun plan =>
          if plan.paymentToken = paymentToken ∧ plan.tier = userConfig.tier.toNat then
            { plan with subscriptionState := standing.subscription }
          else plan) = fun plan => decide (plan.paymentToken = paymentToken ∧
            plan.tier = userConfig.tier.toNat) := by
      funext plan
      dsimp only [Function.comp]
      split <;> rfl
    rw [hsame, hfind, Option.map_some, if_pos hplan]
  found_token := by
    have hget := found_eq_ok.mp hreads.found_token
    apply found_eq_ok.mpr
    unfold UserState.holding
    dsimp only
    rw [List.getElem?_modify_eq, hget]
    rfl

/-- A subscription that stays unbound is stranded until it runs out, and then restored at once. -/
theorem restorableFrom {held : RecordedSubscription} {time : ℤ}
    (hreads : Reads state paymentToken userConfig plan token)
    (haccount : after.account = some account) (hthawed : account.frozen = false)
    (hheld : after.subscription = some held) (hexpiry : held.delegation.expiresAtTs = time)
    (htime : time ≠ 0)
    (hunbound : after.authority.map RecordedAuthority.initId ≠ some held.initId)
    (hpayer : held.payer ∉ sponsor :: payers) :
    RestorableFrom d unknownInitId state paymentToken userConfig.tier.toNat payers sponsor user after
      time := by
  intro later hlater
  have hthere := hreads.holding after later
  have hruns : held.Runs later ↔ later < time := by
    unfold RecordedSubscription.Runs
    rw [hexpiry]
    exact or_iff_right htime
  refine ⟨?_, ?_, ?_⟩
  · rw [hheld, ← hruns]
    exact decide_eq_true_iff
  · intro hbefore
    have hstranded : Stranded later payers { plan with subscriptionState := after.subscription } sponsor
        { token with authorityState := after.authority, accountState := after.account } held :=
      ⟨hheld, hruns.mpr hbefore, hunbound, hpayer⟩
    rw [getRestoreInstructions_stranded hthere haccount hthawed hstranded,
      if_pos (by rw [hexpiry]; exact htime), hexpiry]
  · intro hpast
    have hfree (other : RecordedSubscription) : ¬Stranded later payers
        { plan with subscriptionState := after.subscription } sponsor
        { token with authorityState := after.authority, accountState := after.account } other := by
      rintro ⟨hother, hstill, -, -⟩
      obtain rfl := Option.some.inj (hheld.symm.trans hother)
      exact not_lt.mpr hpast (hruns.mp hstill)
    rcases subscriptionInstructions_ok d unknownInitId user haccount hthawed hfree with
      ⟨instructions, hbuilt⟩
    exact ⟨instructions, getRestoreInstructions_ok hthere hbuilt⟩

theorem heals_stranded {held : RecordedSubscription}
    (hdocumented : Documented d unknownInitId state.now (sponsor :: payers) plan token user run)
    (hnow : 0 < state.now) (hreads : Reads state paymentToken userConfig plan token)
    (haccount : token.accountState = some account) (hthawed : account.frozen = false)
    (hstranded : Stranded state.now payers plan sponsor token held) :
    Heals d unknownInitId config userConfig state paymentToken payers sponsor user plan token run := by
  intro result hresult
  rw [getRestoreInstructions_stranded hreads haccount hthawed hstranded] at hresult
  rcases hstranded with ⟨hheld, hruns, hunbound, hpayer⟩
  by_cases hexpiry : held.delegation.expiresAtTs = 0
  · rw [if_neg (not_not.mpr hexpiry)] at hresult
    cases htime : cancellationExpiry held plan.planState state.now with
    | error error =>
      rw [htime] at hresult
      cases hresult
    | ok time =>
      rw [htime] at hresult
      obtain rfl := Except.ok.inj hresult
      rcases cancellationExpiry_eq htime with ⟨stop, hstop, hcut⟩
      have hpositive := hstop.pos hnow (by omega)
      have hleft : (Standing.of plan token).subscription = some held := hheld
      have hrun := hdocumented.cancel hleft hexpiry hstop
      refine ⟨{ Standing.of plan token with
        subscription := some (held.expiring (cutShort plan.planState.endTs stop)) }, ?_, ?_⟩
      · rw [runAll, hrun]
        rfl
      · exact restorableFrom hreads haccount hthawed rfl hcut.symm
          (hcut ▸ cutShort_ne_zero hpositive) hunbound hpayer
  · rw [if_pos hexpiry] at hresult
    obtain rfl := Except.ok.inj hresult
    exact ⟨Standing.of plan token, rfl,
      restorableFrom hreads haccount hthawed hheld rfl hexpiry hunbound hpayer⟩

/-- Restore takes away what stops the sweep, unless that is an approval of the authority that is
short of what the sweep would pull: restore looks at whom the account is approved for, not at how
much. -/
theorem restore_heals {reason : RestoreReason} {stopped : Pubkey}
    (hdocumented : Documented d unknownInitId state.now (sponsor :: payers) plan token user run)
    (hnow : 0 < state.now) (hreads : Reads state paymentToken userConfig plan token)
    (hstopped : getSweepPull ((Standing.of plan token).sweepState config userConfig paymentToken
      state.now token) = .error (.restoreRequired reason stopped)) :
    Heals d unknownInitId config userConfig state paymentToken payers sponsor user plan token run ↔
      ¬ShortApproval state.now payers plan sponsor token
        (wanted config userConfig paymentToken state.now token.accountState) := by
  -- what is not built says nothing
  have hnothing {error : BuildError}
      (hbuilt : subscriptionInstructions d unknownInitId state.now payers plan sponsor token user =
        .error error) (hother : ∀ payer subscription, error ≠ .recordedPayerRequired payer subscription) :
      Heals d unknownInitId config userConfig state paymentToken payers sponsor user plan token run := by
    intro result hresult
    rw [getRestoreInstructions_eq hreads, hbuilt] at hresult
    cases error with
    | recordedPayerRequired payer subscription => exact absurd rfl (hother payer subscription)
    | _ => cases hresult
  cases haccount : token.accountState with
  | none =>
    apply iff_of_true (hnothing (subscriptionInstructions_noAccount haccount) (by simp))
    rintro ⟨account, hheld, -⟩
    rw [haccount] at hheld
    cases hheld
  | some account =>
  cases hthawed : account.frozen with
  | true =>
    apply iff_of_true (hnothing (subscriptionInstructions_frozen haccount hthawed) (by simp))
    rintro ⟨other, hheld, hopen, -⟩
    obtain rfl := Option.some.inj (haccount.symm.trans hheld)
    rw [hthawed] at hopen
    cases hopen
  | false =>
  by_cases hstranded : ∃ held, Stranded state.now payers plan sponsor token held
  · rcases hstranded with ⟨held, hheld⟩
    apply iff_of_true (heals_stranded hdocumented hnow hreads haccount hthawed hheld)
    rintro ⟨-, -, -, -, hfree, -⟩
    exact hfree held hheld
  rw [not_exists] at hstranded
  rcases subscriptionInstructions_ok d unknownInitId user haccount hthawed hstranded with
    ⟨instructions, hbuilt⟩
  have hrestore := getRestoreInstructions_ok hreads hbuilt
  rcases run_subscriptionInstructions hdocumented haccount hthawed hbuilt with
    ⟨after, subscription, hrun, hrestored, hmade⟩
  have hbalance : after.account.map TokenAccountState.amount =
      (Standing.of plan token).account.map TokenAccountState.amount := by
    change _ = token.accountState.map TokenAccountState.amount
    rw [hrestored.account, haccount, Option.map_some, Option.map_some, renewed_amount]
  have hsweep := getSweepPull_of_restoreRequired hstopped hbalance
  change _ = approvalChecks _ (wanted config userConfig paymentToken state.now token.accountState)
    at hsweep
  rw [approvalChecks_restored hrestored hthawed, limitAfter_eq hmade, haccount] at hsweep
  dsimp only at hsweep
  generalize hpull : pullTotal (cappedPull (wanted config userConfig paymentToken state.now
    (some account)) (limitAfter state.now plan token)) = total at hsweep
  constructor
  · rintro hheals ⟨other, hheld, -, happroving, -, hsome, hshort⟩
    obtain rfl := Option.some.inj (haccount.symm.trans hheld)
    rcases hheals _ hrestore with ⟨after', hrun', hhealed⟩
    obtain rfl := Option.some.inj (hrun.symm.trans hrun')
    rw [hpull] at hsome hshort
    have hkept : renewed token account = account := if_pos happroving
    rw [if_neg hsome, hkept, if_pos hshort] at hsweep
    exact hhealed _ _ hsweep
  · intro hcovered result hresult
    obtain rfl := Except.ok.inj (hrestore.symm.trans hresult)
    refine ⟨after, hrun, ?_⟩
    intro reason stopped hagain
    rw [hsweep] at hagain
    by_cases hsome : total = 0
    · rw [if_pos hsome] at hagain
      cases hagain
    rw [if_neg hsome] at hagain
    by_cases hshort : (renewed token account).delegatedAmount < total
    · by_cases happroving : Approving token account
      · apply hcovered
        have hkept : renewed token account = account := if_pos happroving
        rw [hkept] at hshort
        exact ⟨account, haccount, hthawed, happroving, hstranded, by rw [hpull]; exact hsome,
          by rw [hpull]; exact hshort⟩
      · have hmost : (renewed token account).delegatedAmount = u64Max :=
          congrArg TokenAccountState.delegatedAmount (if_neg happroving)
        have hlimit : total ≤ u64Max := by
          rw [← hpull, ← limitAfter_eq hmade]
          exact (cappedPull_le _ _).trans (nativeRemaining_le _)
        omega
    · rw [if_neg hshort] at hagain
      cases hagain

end

namespace RestoreRehearsal

open Rehearsal (address deployment)

def sponsor : Pubkey := address 12

def plan (held : Option RecordedSubscription) : PlanState where
  paymentToken := 0
  plan := deployment.plan 0 0
  planState := ⟨10000000, 0, 168, 0⟩
  subscription := address 51
  subscriptionState := held
  tier := 0

def token (authority : Option RecordedAuthority) (account : TokenAccountState) : TokenState where
  account := address 60
  accountState := some account
  authority := address 70
  authorityState := authority
  mint := address 22
  paymentToken := 0
  tokenProgram := address 204

def periodEnd (start period now : ℤ) : ℤ :=
  if now ≤ start then start + period else start + ((now - start) / period + 1) * period

def run (now : ℤ) (payers : List Pubkey) (plan : PlanState) (token : TokenState) : Run
  | .initSubscriptionAuthority _ payer _ _ _, standing => do
    let account ← standing.account
    if account.frozen ∨ payer ∉ payers then none
    else match standing.authority with
      | none => some { standing with
          authority := some ⟨9, payer⟩, account := some (approved token account), isNew := true }
      | some _ => some { standing with account := some (approved token account) }
  | .subscribe _ _ _ expected _ payer _ _ _, standing => do
    let authority ← standing.authority
    if standing.subscription.isSome ∨ payer ∉ payers ∨
        ¬(expected = authority.initId ∨ expected = -1 ∧ standing.isNew) then none
    else some { standing with
      subscription := some ⟨authority.initId, payer,
        ⟨255, plan.planState.amount, plan.planState.periodHours, 0, now, 0⟩⟩ }
  | .revokeSubscription _ _ _ _, standing => do
    let held ← standing.subscription
    if held.delegation.expiresAtTs ≠ 0 ∧ held.delegation.expiresAtTs ≤ now then
      some { standing with subscription := none }
    else none
  | .revokeAbandonedSubscription payer _ _ _, standing => do
    let held ← standing.subscription
    if standing.authority.map RecordedAuthority.initId ≠ some held.initId ∧ payer = held.payer ∧
        payer ∈ payers then
      some { standing with subscription := none }
    else none
  | .resumeSubscription expected _ _ _ _, standing => do
    let held ← standing.subscription
    if standing.authority.map RecordedAuthority.initId = some held.initId ∧ expected ≠ 0 ∧
        now < expected ∧ expected = held.delegation.expiresAtTs then
      some { standing with subscription := some (held.expiring 0) }
    else none
  | .cancelSubscription _ _ _, standing => do
    let held ← standing.subscription
    if held.delegation.expiresAtTs = 0 then
      some { standing with
        subscription := some (held.expiring (cutShort plan.planState.endTs
          (periodEnd held.delegation.currentPeriodStartTs (held.delegation.periodHours.toNat * 3600)
            now))) }
    else none
  | _, _ => none

theorem periodEnd_eq {start period now stop : ℤ} (h : PeriodEnd start period now stop) :
    periodEnd start period now = stop := by
  unfold PeriodEnd at h
  unfold periodEnd
  split at h
  · rename_i hbefore
    rw [if_pos hbefore, h]
  · rename_i hbegun
    rcases h with ⟨k, hstop, hlow, hhigh⟩
    rw [if_neg hbegun]
    have hpositive : 0 < period := by omega
    have hwhole : (now - start) / period = k - 1 := by
      have hparts : (now - start) / period = k - 1 ∧ (now - start) % period =
          now - start - period * (k - 1) := by
        rw [Int.ediv_emod_unique hpositive, mul_sub, mul_one, mul_comm period]
        omega
      exact hparts.1
    rw [hwhole, hstop, sub_add_cancel]

theorem documented {now : ℤ} {payers : List Pubkey} {held : Option RecordedSubscription}
    {authority : Option RecordedAuthority} {account : TokenAccountState} :
    Documented deployment (-1) now payers (plan held) (token authority account) (address 50)
      (run now payers (plan held) (token authority account)) where
  create := by
    intro standing left payer hleft hthawed hpayer hnone
    refine ⟨9, ?_⟩
    rw [run, hleft, hnone]
    exact if_neg (by simp [hthawed, hpayer])
  renew := by
    intro standing left authority payer hleft hthawed hpayer hauthority
    rw [run, hleft, hauthority]
    exact if_neg (by simp [hthawed, hpayer])
  subscribe := by
    intro standing authority payer expected hempty hauthority hpayer hinitId
    exists ⟨authority.initId, payer,
      ⟨255, (plan held).planState.amount, (plan held).planState.periodHours, 0, now, 0⟩⟩
    apply And.intro
    · exact ⟨rfl, rfl, rfl, rfl, rfl⟩
    · rw [run, hauthority]
      exact if_neg (by simp [hempty, hpayer, hinitId])
  closeExpired := by
    intro standing subscription hsubscription hexpiry hexpired
    rw [run, hsubscription]
    exact if_pos ⟨hexpiry, hexpired⟩
  closeAbandoned := by
    intro standing subscription hsubscription hunbound hpayer
    rw [run, hsubscription]
    exact if_pos ⟨hunbound, rfl, hpayer⟩
  resume := by
    intro standing subscription hsubscription hbound hexpiry hrunning
    rw [run, hsubscription]
    exact if_pos ⟨hbound, hexpiry, hrunning, rfl⟩
  cancel := by
    intro standing subscription stop hsubscription hexpiry hstop
    rw [run, hsubscription]
    apply (if_pos hexpiry).trans
    rw [periodEnd_eq hstop]

def state (plan : PlanState) (token : TokenState) : UserState where
  assets := []
  now := 1700000100
  plans := [plan]
  tokens := [token]
  userConfig := some SweepRehearsal.customer
  userConfigAddress := address 81

theorem reads {held : Option RecordedSubscription} {authority : Option RecordedAuthority}
    {account : TokenAccountState} :
    Client.Reads (state (plan held) (token authority account)) 0 SweepRehearsal.customer (plan held)
      (token authority account) where
  enrolled := rfl
  stays := by decide
  enabled := by decide
  found_plan := rfl
  found_token := rfl

/-- A hundred dollars nobody is approved for. -/
def revoked : TokenAccountState := ⟨100000000, none, 0, false⟩

/-- A hundred dollars of which the authority may move one. -/
def short : TokenAccountState := ⟨100000000, some (address 70), 1000000, false⟩

/-- A subscription through the authority there is. -/
def running : RecordedSubscription := ⟨9, sponsor, ⟨255, 10000000, 168, 0, 1700000000, 0⟩⟩

end RestoreRehearsal

open RestoreRehearsal in
/-- Everything was closed: restore creates it again. -/
theorem restore_heals_closed :
    Heals Rehearsal.deployment (-1) SweepRehearsal.config SweepRehearsal.customer
      (state (plan none) (token none revoked)) 0 [] sponsor (Rehearsal.address 50) (plan none)
      (token none revoked) (run 1700000100 [sponsor] (plan none) (token none revoked)) := by
  have hstopped : getSweepPull ((Standing.of (plan none) (token none revoked)).sweepState
      SweepRehearsal.config SweepRehearsal.customer 0 1700000100 (token none revoked)) =
      .error (.restoreRequired .subscription (Rehearsal.address 60)) := by
    decide +kernel
  apply (restore_heals documented (by decide) reads hstopped).mpr
  rintro ⟨account, -, -, happroving, -⟩
  exact Bool.false_ne_true happroving.1

open RestoreRehearsal in
/-- The authority may move less than the sweep would: restore does nothing about it. -/
theorem not_heals_short :
    getSweepPull ((Standing.of (plan (some running)) (token (some ⟨9, sponsor⟩) short)).sweepState
        SweepRehearsal.config SweepRehearsal.customer 0 1700000100 (token (some ⟨9, sponsor⟩) short)) =
        .error (.restoreRequired .delegate (Rehearsal.address 60)) ∧
      ¬Heals Rehearsal.deployment (-1) SweepRehearsal.config SweepRehearsal.customer
        (state (plan (some running)) (token (some ⟨9, sponsor⟩) short)) 0 [] sponsor
        (Rehearsal.address 50) (plan (some running)) (token (some ⟨9, sponsor⟩) short)
        (run 1700000100 [sponsor] (plan (some running)) (token (some ⟨9, sponsor⟩) short)) := by
  have hstopped : getSweepPull ((Standing.of (plan (some running))
      (token (some ⟨9, sponsor⟩) short)).sweepState SweepRehearsal.config SweepRehearsal.customer 0
        1700000100 (token (some ⟨9, sponsor⟩) short)) =
      .error (.restoreRequired .delegate (Rehearsal.address 60)) := by
    decide +kernel
  refine ⟨hstopped, ?_⟩
  intro hheals
  have hnothing : getRestoreInstructions Rehearsal.deployment (-1)
      (state (plan (some running)) (token (some ⟨9, sponsor⟩) short)) 0 [] sponsor
      (Rehearsal.address 50) = .ok ⟨[], none⟩ := by
    rfl
  rcases hheals _ hnothing with ⟨after, hrun, hhealed⟩
  obtain rfl := Option.some.inj hrun
  exact hhealed _ _ hstopped

end Laterite.Client
