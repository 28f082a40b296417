import Laterite.ReplayedRuns
import Laterite.UserWellFormed

/-!
# No call aborts

Every index, shift, subtraction and checked sum of every instruction stays in range: the
arguments are compared before they index, and where a settings field indexes unchecked, the
reachable accounts hold only fields that are in range. A clock within `clockBound` keeps an
attestation's expiry within a word.
-/

namespace Laterite

open CheckedComputation

/-- How far from the epoch the clock may stand. -/
def clockBound : ℤ := 2 ^ 62

variable {d : Deployment} {inv : Invocation} {chain : Chain}

theorem noPanic_adminOnly (admin : Pubkey) : NoPanic (adminOnly inv chain admin) :=
  NoPanic.bind (NoPanic.require _ _) fun _ _ => NoPanic.bind (NoPanic.okOr _ _) fun _ _ =>
    NoPanic.bind (NoPanic.require _ _) fun _ _ => NoPanic.pure _

theorem noPanic_userOnly (user : Pubkey) : NoPanic (userOnly inv chain user) :=
  NoPanic.bind (NoPanic.require _ _) fun _ _ => NoPanic.bind (NoPanic.okOr _ _) fun _ _ =>
    NoPanic.bind (NoPanic.require _ _) fun _ _ => NoPanic.pure _

theorem Settings.noPanic_validate (settings : Settings) : NoPanic settings.validate :=
  NoPanic.bind (NoPanic.require _ _) fun _ _ => NoPanic.bind (NoPanic.require _ _) fun _ _ =>
    NoPanic.require _ _

theorem ConfigParams.noPanic_validate (params : ConfigParams) (mints : List AccountInfo) :
    NoPanic (params.validate d mints) := by
  refine NoPanic.bind (Settings.noPanic_validate _) fun _ _ => ?_
  refine NoPanic.bind (NoPanic.require _ _) fun _ _ => ?_
  refine NoPanic.bind (NoPanic.require _ _) fun _ _ => ?_
  refine NoPanic.bind (NoPanic.require _ _) fun _ hmints => ?_
  rw [require_eq_ok] at hmints
  refine NoPanic.bind (NoPanic.forEach fun _ _ => NoPanic.require _ _) fun _ _ => ?_
  refine NoPanic.bind (NoPanic.sliceFrom (by omega)) fun _ _ => ?_
  exact NoPanic.forEach fun _ _ => NoPanic.require _ _

theorem EnrollParams.noPanic_validateRules (params : EnrollParams) :
    NoPanic params.validateRules := by
  refine NoPanic.bind (NoPanic.okOr _ _) fun _ _ => ?_
  refine NoPanic.bind (NoPanic.require _ _) fun _ _ => ?_
  refine NoPanic.bind (NoPanic.require _ _) fun _ _ => ?_
  exact NoPanic.bind (NoPanic.require _ _) fun _ _ => NoPanic.require _ _

theorem EnrollParams.noPanic_validate (params : EnrollParams) (config : Config) :
    NoPanic (params.validate config) :=
  NoPanic.bind (NoPanic.okOr _ _) fun _ _ => NoPanic.bind (NoPanic.require _ _) fun _ _ =>
    params.noPanic_validateRules

/-- A seat below the limit leaves room in the count. -/
theorem noPanic_takeSeat {userCount maxUsers : UInt32} (h : userCount < maxUsers) :
    NoPanic (userCount.checkedAdd 1 : Result UInt32) := by
  have hlt := UInt32.lt_iff_toNat_lt.mp h
  have hmax := maxUsers.toNat_lt
  refine UInt32.NoPanic.checkedAdd ?_
  rw [UInt32.toNat_one]
  omega

theorem noPanic_initializeConfig (authority : Pubkey) (params : ConfigParams) (mints : List Pubkey) :
    NoPanic (initializeConfig d inv chain authority params mints) := by
  refine NoPanic.bind (NoPanic.require _ _) fun _ _ => ?_
  refine NoPanic.bind (NoPanic.require _ _) fun _ _ => ?_
  refine NoPanic.bind (NoPanic.require _ _) fun _ _ => ?_
  refine NoPanic.bind (NoPanic.require _ _) fun _ _ => ?_
  exact NoPanic.bind (ConfigParams.noPanic_validate _ _) fun _ _ => NoPanic.pure _

theorem noPanic_updateConfig (admin : Pubkey) (settings : Settings) :
    NoPanic (updateConfig inv chain admin settings) :=
  NoPanic.bind (noPanic_adminOnly _) fun _ _ =>
    NoPanic.bind settings.noPanic_validate fun _ _ => NoPanic.pure _

theorem noPanic_setPaused (admin : Pubkey) (paused : Bool) :
    NoPanic (setPaused inv chain admin paused) :=
  NoPanic.bind (noPanic_adminOnly _) fun _ _ => NoPanic.pure _

theorem noPanic_setMarketCalendar (admin : Pubkey) (holidays earlyCloses : List UInt16)
    (validThrough : UInt16) :
    NoPanic (setMarketCalendar inv chain admin holidays earlyCloses validThrough) :=
  NoPanic.bind (noPanic_adminOnly _) fun _ _ =>
    NoPanic.bind (MarketCalendar.noPanic_new _ _ _ _) fun _ _ => NoPanic.pure _

theorem noPanic_proposeAdmin (admin newAdmin : Pubkey) :
    NoPanic (proposeAdmin inv chain admin newAdmin) :=
  NoPanic.bind (noPanic_adminOnly _) fun _ _ => NoPanic.pure _

theorem noPanic_acceptAdmin (pendingAdmin : Pubkey) :
    NoPanic (acceptAdmin inv chain pendingAdmin) :=
  NoPanic.bind (NoPanic.require _ _) fun _ _ => NoPanic.bind (NoPanic.okOr _ _) fun _ _ =>
    NoPanic.bind (NoPanic.require _ _) fun _ _ => NoPanic.pure _

theorem noPanic_createPlan (admin plan mint tokenProgram : Pubkey) (paymentToken tier : UInt8) :
    NoPanic (createPlan d inv chain admin plan mint tokenProgram paymentToken tier) := by
  refine NoPanic.bind (noPanic_adminOnly _) fun _ _ => ?_
  refine NoPanic.bind (NoPanic.okOr _ _) fun _ _ => ?_
  refine NoPanic.bind (NoPanic.okOr _ _) fun _ _ => ?_
  refine NoPanic.bind (NoPanic.require _ _) fun _ _ => ?_
  refine NoPanic.bind (NoPanic.require _ _) fun _ _ => ?_
  exact NoPanic.bind (noPanic_invoke _ _ _) fun _ _ => NoPanic.pure _

/-- An expiry past the present stays within a word while the clock is within its bound. -/
theorem noPanic_expiry {eventTime : Int64} {now : ℤ} (hpast : eventTime.toInt ≤ now)
    (hnow : now ≤ clockBound) :
    NoPanic (I64.checkedAdd eventTime.toInt attestationTtlSeconds : Result ℤ) := by
  have hlow := eventTime.le_toInt
  unfold clockBound at hnow
  refine I64.NoPanic.checkedAdd ?_ ?_
  · unfold I64.minValue attestationTtlSeconds daySeconds
    omega
  · unfold I64.maxValue attestationTtlSeconds daySeconds
    omega

theorem noPanic_attest (payer : Pubkey) (attestation : Attestation) (hnow : inv.now ≤ clockBound) :
    NoPanic (attest d inv chain payer attestation) := by
  unfold attest
  refine NoPanic.bind (NoPanic.require _ _) fun _ _ => ?_
  refine NoPanic.bind (NoPanic.okOr _ _) fun config _ => ?_
  refine NoPanic.bind (NoPanic.okOr _ _) fun userConfig _ => ?_
  refine NoPanic.bind (NoPanic.require _ _) fun _ _ => ?_
  refine NoPanic.bind (noPanic_verifySignature _ _ _ _) fun _ _ => ?_
  refine NoPanic.bind (NoPanic.require _ _) fun _ _ => ?_
  refine NoPanic.bind (NoPanic.require _ _) fun _ htime => ?_
  rw [require_eq_ok] at htime
  have hexpiry := noPanic_expiry htime.2.2 hnow
  refine NoPanic.bind hexpiry fun _ _ => ?_
  refine NoPanic.bind (NoPanic.require _ _) fun _ _ => ?_
  refine NoPanic.bind (NoPanic.of_eq_ok (enablesKnown_eq _ _)) fun _ _ => ?_
  refine NoPanic.bind (NoPanic.require _ _) fun _ _ => ?_
  obtain ⟨_, hinvested⟩ := userConfig.exists_invested attestation.kind attestation.amount
  refine NoPanic.bind (NoPanic.of_eq_ok hinvested) fun _ _ => ?_
  refine NoPanic.bind (NoPanic.require _ _) fun _ _ => ?_
  exact NoPanic.bind hexpiry fun _ _ => NoPanic.pure _

theorem noPanic_closeAttestation (record : TransferId) (payer : Pubkey) :
    NoPanic (closeAttestation inv chain record payer) := by
  refine NoPanic.bind (NoPanic.okOr _ _) fun _ _ => ?_
  refine NoPanic.bind (NoPanic.require _ _) fun _ _ => ?_
  refine NoPanic.bind (NoPanic.require _ _) fun _ _ => ?_
  exact NoPanic.bind (NoPanic.require _ _) fun _ _ => NoPanic.pure _

theorem noPanic_enroll (user payer : Pubkey) (params : EnrollParams) (subscriptions : List Pubkey) :
    NoPanic (enroll d inv chain user payer params subscriptions) := by
  refine NoPanic.bind (NoPanic.require _ _) fun _ _ => ?_
  refine NoPanic.bind (NoPanic.require _ _) fun _ _ => ?_
  refine NoPanic.bind (NoPanic.okOr _ _) fun config _ => ?_
  refine NoPanic.bind (NoPanic.require _ _) fun _ _ => ?_
  refine NoPanic.bind (NoPanic.require _ _) fun _ _ => ?_
  refine NoPanic.bind (NoPanic.require _ _) fun _ _ => ?_
  refine NoPanic.bind (NoPanic.require _ _) fun _ hroom => ?_
  refine NoPanic.bind (params.noPanic_validate config) fun _ hvalid => ?_
  have htier := (EnrollParams.valid_of_validate hvalid).tier
  refine NoPanic.bind (Deployment.noPanic_requireLive htier _ _) fun _ _ => ?_
  exact NoPanic.bind (noPanic_takeSeat (require_eq_ok.mp hroom)) fun _ _ => NoPanic.pure _

theorem noPanic_reactivate (user sponsor : Pubkey) (params : EnrollParams)
    (subscriptions : List Pubkey) :
    NoPanic (reactivate d inv chain user sponsor params subscriptions) := by
  refine NoPanic.bind (NoPanic.require _ _) fun _ _ => ?_
  refine NoPanic.bind (NoPanic.require _ _) fun _ _ => ?_
  refine NoPanic.bind (NoPanic.okOr _ _) fun config _ => ?_
  refine NoPanic.bind (NoPanic.require _ _) fun _ _ => ?_
  refine NoPanic.bind (NoPanic.okOr _ _) fun _ _ => ?_
  refine NoPanic.bind (NoPanic.require _ _) fun _ _ => ?_
  refine NoPanic.bind (NoPanic.require _ _) fun _ _ => ?_
  refine NoPanic.bind (NoPanic.require _ _) fun _ hroom => ?_
  refine NoPanic.bind (params.noPanic_validate config) fun _ hvalid => ?_
  have htier := (EnrollParams.valid_of_validate hvalid).tier
  refine NoPanic.bind (Deployment.noPanic_requireLive htier _ _) fun _ _ => ?_
  exact NoPanic.bind (noPanic_takeSeat (require_eq_ok.mp hroom)) fun _ _ => NoPanic.pure _

theorem noPanic_updateSettings (user : Pubkey) (params : EnrollParams) :
    NoPanic (updateSettings inv chain user params) :=
  NoPanic.bind (noPanic_userOnly _) fun _ _ => NoPanic.bind (NoPanic.require _ _) fun _ _ =>
    NoPanic.bind params.noPanic_validateRules fun _ _ => NoPanic.pure _

theorem noPanic_setUserPaused (user : Pubkey) (paused : Bool) :
    NoPanic (setUserPaused inv chain user paused) :=
  NoPanic.bind (noPanic_userOnly _) fun _ _ => NoPanic.ite
    (fun _ => NoPanic.bind (NoPanic.require _ _) fun _ _ => NoPanic.pure _)
    (fun _ => NoPanic.bind (NoPanic.require _ _) fun _ _ => NoPanic.pure _)

theorem noPanic_lowerPending (user : Pubkey) (pending : UInt64) :
    NoPanic (lowerPending inv chain user pending) :=
  NoPanic.bind (noPanic_userOnly _) fun _ _ =>
    NoPanic.bind (NoPanic.require _ _) fun _ _ => NoPanic.pure _

def Chain.UsersValid (self : Chain) : Prop :=
  ∀ user u, self.userConfigs user = some u → u.status ≠ .exited → u.settings.Valid

theorem noPanic_changeTierEach {user : Pubkey} {current tier : ℕ} (hcurrent : current < 2)
    (htier : tier < 2) {tokens : List ℕ} (htokens : ∀ token ∈ tokens, token < paymentTokenCount)
    (remainingAccounts : List Pubkey) (accounts : Accounts) :
    NoPanic (changeTierEach d inv user current tier tokens remainingAccounts accounts) := by
  fun_induction changeTierEach d inv user current tier tokens remainingAccounts accounts with
  | case1 => exact NoPanic.pure _
  | case2 token tokens plan old new rest accounts ih =>
    have htoken := htokens token (by simp)
    refine NoPanic.bind (Deployment.noPanic_planAt htoken hcurrent) fun _ _ => ?_
    refine NoPanic.bind (Deployment.noPanic_cancel _ _ _ _ _ _) fun _ _ => ?_
    refine NoPanic.bind (Deployment.noPanic_planAt htoken htier) fun _ _ => ?_
    refine NoPanic.bind (NoPanic.require _ _) fun _ _ => ?_
    exact ih _ fun t ht => htokens t (by simp [ht])
  | case3 => exact NoPanic.refusal _

theorem noPanic_exitEach {user : Pubkey} {tier : ℕ} (htier : tier < 2) {tokens : List ℕ}
    (htokens : ∀ token ∈ tokens, token < paymentTokenCount) (remainingAccounts : List Pubkey)
    (accounts : Accounts) : NoPanic (exitEach d inv user tier tokens remainingAccounts accounts) := by
  fun_induction exitEach d inv user tier tokens remainingAccounts accounts with
  | case1 => exact NoPanic.pure _
  | case2 token tokens planAccount subscription rest accounts ih =>
    refine NoPanic.bind (Deployment.noPanic_planAt (htokens token (by simp)) htier) fun _ _ => ?_
    refine NoPanic.bind (Deployment.noPanic_cancel _ _ _ _ _ _) fun _ _ => ?_
    exact ih _ fun t ht => htokens t (by simp [ht])
  | case3 => exact NoPanic.refusal _

theorem noPanic_changePaymentTokensEach {user : Pubkey} {tier : ℕ} (htier : tier < 2)
    {current new : UInt8} {tokens : List ℕ} (htokens : ∀ token ∈ tokens, token < paymentTokenCount)
    (remainingAccounts : List Pubkey) (accounts : Accounts) :
    NoPanic (changePaymentTokensEach d inv user tier current new tokens remainingAccounts
      accounts) := by
  induction tokens generalizing remainingAccounts accounts with
  | nil => exact NoPanic.pure _
  | cons token tokens ih =>
    have htoken := htokens token (by simp)
    have hbit : token < 8 := by
      unfold paymentTokenCount at htoken
      omega
    have hrest := ih fun t ht => htokens t (by simp [ht])
    refine NoPanic.bind (Deployment.noPanic_planAt htoken htier) fun _ _ => ?_
    refine NoPanic.bind (noPanic_enables hbit) fun _ _ => ?_
    refine NoPanic.bind (noPanic_enables hbit) fun _ _ => ?_
    refine NoPanic.ite (fun _ => ?_) fun _ => NoPanic.ite (fun _ => ?_) fun _ => hrest _ _
    · refine NoPanic.bind (NoPanic.okOr _ _) fun _ _ => ?_
      refine NoPanic.bind (NoPanic.okOr _ _) fun _ _ => ?_
      exact NoPanic.bind (Deployment.noPanic_cancel _ _ _ _ _ _) fun _ _ => hrest _ _
    · refine NoPanic.bind (NoPanic.okOr _ _) fun _ _ => ?_
      exact NoPanic.bind (NoPanic.require _ _) fun _ _ => hrest _ _

theorem enabledTokens_lt {mask : UInt8} {tokens : List ℕ} (h : enabledTokens mask = .ok tokens) :
    ∀ token ∈ tokens, token < paymentTokenCount := by
  rw [enabledTokens_eq, Except.ok.injEq] at h
  subst h
  exact fun token ht => List.mem_range.mp (List.mem_filter.mp ht).1

theorem Chain.UsersValid.tier_lt (hvalid : chain.UsersValid) {user : Pubkey} {u : UserConfig}
    (h : userOnly inv chain user = .ok u) : u.tier.toNat < 2 := by
  obtain ⟨-, hu, hexited⟩ := userOnly_eq_ok.mp h
  exact (hvalid user u hu hexited).tier

theorem noPanic_changeTier (hvalid : chain.UsersValid) (user : Pubkey) (tier : UInt8)
    (remainingAccounts : List Pubkey) :
    NoPanic (changeTier d inv chain user tier remainingAccounts) := by
  refine NoPanic.bind (NoPanic.okOr _ _) fun _ _ => ?_
  refine NoPanic.bind (noPanic_userOnly _) fun u hu => ?_
  refine NoPanic.bind (NoPanic.okOr _ _) fun _ hcap => ?_
  have htier := tier_lt (okOr_eq_ok.mp hcap)
  refine NoPanic.bind (NoPanic.require _ _) fun _ _ => ?_
  refine NoPanic.bind (NoPanic.require _ _) fun _ _ => ?_
  refine NoPanic.bind (NoPanic.require _ _) fun _ _ => ?_
  refine NoPanic.bind (NoPanic.of_eq_ok (enabledTokens_eq _)) fun tokens htokens => ?_
  refine NoPanic.bind (noPanic_changeTierEach (hvalid.tier_lt hu) htier (enabledTokens_lt htokens)
    _ _) fun _ _ => ?_
  exact NoPanic.pure _

theorem noPanic_changePaymentTokens (hvalid : chain.UsersValid) (user : Pubkey)
    (paymentTokens : UInt8) (remainingAccounts : List Pubkey) :
    NoPanic (changePaymentTokens d inv chain user paymentTokens remainingAccounts) := by
  refine NoPanic.bind (noPanic_userOnly _) fun u hu => ?_
  refine NoPanic.bind (NoPanic.require _ _) fun _ _ => ?_
  refine NoPanic.bind (NoPanic.require _ _) fun _ _ => ?_
  have htokens : ∀ token ∈ List.range paymentTokenCount, token < paymentTokenCount :=
    fun _ => List.mem_range.mp
  refine NoPanic.bind (noPanic_changePaymentTokensEach (hvalid.tier_lt hu) htokens _ _) fun _ _ => ?_
  exact NoPanic.pure _

theorem noPanic_exit (hvalid : chain.UsersValid) (user : Pubkey) (remainingAccounts : List Pubkey) :
    NoPanic (exit d inv chain user remainingAccounts) := by
  refine NoPanic.bind (NoPanic.okOr _ _) fun _ _ => ?_
  refine NoPanic.bind (noPanic_userOnly _) fun u hu => ?_
  refine NoPanic.bind (NoPanic.of_eq_ok (enabledTokens_eq _)) fun tokens htokens => ?_
  refine NoPanic.bind (noPanic_exitEach (hvalid.tier_lt hu) (enabledTokens_lt htokens) _ _)
    fun _ _ => ?_
  exact NoPanic.pure _

variable {ctx : SweepAccounts}

theorem noPanic_amount (account : AccountInfo) : NoPanic (amount account) :=
  NoPanic.bind (NoPanic.require _ _) fun _ _ => NoPanic.pure _

theorem noPanic_planSweep (hvalid : chain.UsersValid) (paymentToken : UInt8) :
    NoPanic (planSweep d inv chain ctx paymentToken) := by
  unfold planSweep
  refine NoPanic.bind (NoPanic.require _ _) fun _ _ => ?_
  refine NoPanic.bind (NoPanic.okOr _ _) fun config _ => ?_
  refine NoPanic.bind (NoPanic.okOr _ _) fun u hu => ?_
  refine NoPanic.bind (NoPanic.require _ _) fun _ _ => ?_
  refine NoPanic.bind (NoPanic.require _ _) fun _ _ => ?_
  refine NoPanic.bind (NoPanic.okOr _ _) fun token htoken => ?_
  have hindex : paymentToken.toNat < paymentTokenCount :=
    (Vector.getElem?_eq_some_iff.mp (okOr_eq_ok.mp htoken)).1
  have hbit : paymentToken.toNat < 8 := by
    unfold paymentTokenCount at hindex
    omega
  refine NoPanic.bind (NoPanic.orPanic (by simpa using hindex)) fun _ _ => ?_
  refine NoPanic.bind (NoPanic.require _ _) fun _ _ => ?_
  refine NoPanic.bind (NoPanic.require _ _) fun _ _ => ?_
  refine NoPanic.bind (noPanic_amount _) fun balance _ => ?_
  refine NoPanic.bind (UserConfig.noPanic_pull _ _ _ _ _ _) fun due hdue => ?_
  refine NoPanic.bind (Pull.noPanic_total (UserConfig.pull_fits hdue)) fun dueTotal htotal => ?_
  refine NoPanic.bind (NoPanic.require _ _) fun _ hpositive => ?_
  have hsome : 0 < due.engine.toNat + due.pending.toNat := by
    rw [← Pull.total_eq_ok.mp htotal]
    exact UInt64.lt_iff_toNat_lt.mp (require_eq_ok.mp hpositive)
  have hallows := UserConfig.pull_allows hdue hsome
  have htier : u.tier.toNat < 2 :=
    (hvalid _ u (Chain.loadUserConfig_eq_ok _ _ |>.mp hu) (by simp [hallows.active])).tier
  refine NoPanic.bind (noPanic_enables hbit) fun _ _ => ?_
  refine NoPanic.bind (NoPanic.require _ _) fun _ _ => ?_
  refine NoPanic.bind (NoPanic.require _ _) fun _ _ => ?_
  refine NoPanic.bind (NoPanic.require _ _) fun _ _ => ?_
  refine NoPanic.bind (Deployment.noPanic_planAt hindex htier) fun _ _ => ?_
  refine NoPanic.bind (NoPanic.require _ _) fun _ _ => ?_
  refine NoPanic.bind (Pull.noPanic_capped _ _) fun pull hpull => ?_
  refine NoPanic.bind (Pull.noPanic_total (hallows.capped hpull).fits) fun _ _ => ?_
  refine NoPanic.bind (NoPanic.require _ _) fun _ _ => ?_
  refine NoPanic.bind (NoPanic.okOr _ _) fun _ _ => ?_
  exact NoPanic.bind (NoPanic.require _ _) fun _ _ => NoPanic.pure _

theorem noPanic_priceSweep (accounts : Accounts) (plan : SweepPlan)
    (assetMessage paymentMessage : List UInt8) (ed25519Index : UInt16) :
    NoPanic (priceSweep inv accounts ctx plan assetMessage paymentMessage ed25519Index) := by
  refine NoPanic.bind (noPanic_quote _ _ _) fun _ _ => ?_
  refine NoPanic.bind (noPanic_quote _ _ _) fun _ _ => ?_
  refine NoPanic.bind (noPanic_minOut _ _ _ _ _) fun _ _ => ?_
  refine NoPanic.bind (NoPanic.require _ _) fun _ _ => ?_
  refine NoPanic.ite (fun _ => ?_) fun _ => NoPanic.pure _
  exact NoPanic.bind (NoPanic.require _ _) fun _ _ => NoPanic.pure _

theorem noPanic_swap (plan : SweepPlan) (minimum : UInt64) (route : List UInt8)
    (routeAccounts : List RouteAccount) (accounts : Accounts) :
    NoPanic (swap d inv ctx plan minimum route routeAccounts accounts) := by
  refine NoPanic.bind (noPanic_amount _) fun _ _ => ?_
  refine NoPanic.bind (noPanic_invoke _ _ _) fun _ _ => ?_
  refine NoPanic.bind (noPanic_invoke _ _ _) fun _ _ => ?_
  refine NoPanic.bind (NoPanic.require _ _) fun _ _ => ?_
  refine NoPanic.bind (NoPanic.require _ _) fun _ _ => ?_
  refine NoPanic.bind (noPanic_amount _) fun _ _ => ?_
  exact NoPanic.bind (NoPanic.require _ _) fun _ _ => NoPanic.pure _

theorem noPanic_sweep (hvalid : chain.UsersValid) (assetMessage paymentMessage : List UInt8)
    (ed25519Index : UInt16) (paymentToken : UInt8) (route : List UInt8)
    (routeAccounts : List RouteAccount) :
    NoPanic (sweep d inv chain ctx assetMessage paymentMessage ed25519Index paymentToken route
      routeAccounts) := by
  unfold sweep
  refine NoPanic.bind (noPanic_planSweep hvalid _) fun plan hplan => ?_
  obtain ⟨_, _, hdecided⟩ := planSweep_ok hplan
  refine NoPanic.bind (noPanic_priceSweep _ _ _ _ _) fun _ _ => ?_
  refine NoPanic.bind (noPanic_swap _ _ _ _ _) fun _ _ => ?_
  refine NoPanic.bind (UserConfig.noPanic_record hdecided.allows.fits) fun _ _ => ?_
  exact NoPanic.bind (NoPanic.setAt hdecided.paymentToken_lt) fun _ _ => NoPanic.pure _

theorem noPanic_execute (hvalid : chain.UsersValid) (hnow : inv.now ≤ clockBound) (call : Call) :
    NoPanic (execute d inv chain call) := by
  cases call <;> simp only [execute]
  case initializeConfig => exact noPanic_emitting (noPanic_initializeConfig _ _ _)
  case updateConfig => exact noPanic_emitting (noPanic_updateConfig _ _)
  case setPaused => exact noPanic_emitting (noPanic_setPaused _ _)
  case setMarketCalendar => exact noPanic_emitting (noPanic_setMarketCalendar _ _ _ _)
  case proposeAdmin => exact noPanic_emitting (noPanic_proposeAdmin _ _)
  case acceptAdmin => exact noPanic_emitting (noPanic_acceptAdmin _)
  case createPlan => exact noPanic_emitting (noPanic_createPlan _ _ _ _ _ _)
  case enroll => exact noPanic_emitting (noPanic_enroll _ _ _ _)
  case attest => exact noPanic_emitting (noPanic_attest _ _ hnow)
  case closeAttestation =>
    exact NoPanic.bind (noPanic_closeAttestation _ _) fun _ _ => NoPanic.pure _
  case sweep => exact noPanic_emitting (noPanic_sweep hvalid _ _ _ _ _ _)
  case updateSettings => exact noPanic_emitting (noPanic_updateSettings _ _)
  case setUserPaused => exact noPanic_emitting (noPanic_setUserPaused _ _)
  case lowerPending => exact noPanic_emitting (noPanic_lowerPending _ _)
  case changeTier => exact noPanic_emitting (noPanic_changeTier hvalid _ _ _)
  case changePaymentTokens => exact noPanic_emitting (noPanic_changePaymentTokens hvalid _ _ _)
  case exit => exact noPanic_emitting (noPanic_exit hvalid _ _)
  case reactivate => exact noPanic_emitting (noPanic_reactivate _ _ _ _)

section Reachable

open TimedRuns

variable {accounts : Accounts} {history : List (Transition Chain Happening)}

theorem ProgramRun.usersValid (run : ProgramRun d accounts history chain) : chain.UsersValid := by
  intro user u hu
  have life := run.userRun user
  rw [hu] at life
  exact life.wellFormed.valid

/-- The account of `user` names the same user, enrolled at the same time, as `u` does. -/
def Chain.Keeps (user : Pubkey) (u : UserConfig) (c : Chain) : Prop :=
  ∃ u', c.userConfigs user = some u' ∧ u'.user = u.user ∧ u'.enrolledAt = u.enrolledAt

theorem Step.keeps {t : Transition Chain Happening} (ht : Step d t) {user : Pubkey} {u : UserConfig}
    (h : Chain.Keeps user u t.before) : Chain.Keeps user u t.after := by
  obtain ⟨v, hv, huser, htime⟩ := h
  obtain ⟨-, hsame⟩ | ⟨action, -, hstep⟩ := ht.userStep user
  · exact ⟨v, hsame.trans hv, huser, htime⟩
  · obtain ⟨v', hv'⟩ := hstep.exists_after
    obtain ⟨huser', htime'⟩ := hstep.identity hv hv'
    exact ⟨v', hv', huser'.trans huser, htime'.trans htime⟩

/-- What an account named before any moment of a run, it names at the end. -/
theorem ProgramRun.keeps (run : ProgramRun d accounts history chain) {t : Transition Chain Happening}
    (ht : t ∈ history) {user : Pubkey} {u : UserConfig} (hu : t.before.userConfigs user = some u) :
    Chain.Keeps user u chain := by
  obtain ⟨newer, older, rfl⟩ := List.append_of_mem ht
  obtain ⟨_, past, since⟩ := Run.suffix run
  obtain ⟨-, -, hstep, rfl⟩ := past.last
  exact since.invariant (hstep.keeps ⟨u, hu, rfl, rfl⟩) fun _ hq => hq.keeps

/-- In every reachable state each user's account is well formed and its pulls fit a word, no
moment has changed the user an account names or the time of its enrollment, and no call
aborts. -/
theorem wellFormed_and_never_aborts (run : ProgramRun d accounts history chain) :
    (∀ user u, chain.userConfigs user = some u → u.WellFormed user ∧
      ∀ paymentToken balance betaCap calendar now p,
        u.pull paymentToken balance betaCap calendar now = .ok p →
          p.engine.toNat + p.pending.toNat < 2 ^ 64) ∧
      (∀ t ∈ history, ∀ user u, t.before.userConfigs user = some u → Chain.Keeps user u chain) ∧
      ∀ inv : Invocation, -clockBound ≤ inv.now ∧ inv.now ≤ clockBound →
        ∀ call, execute d inv chain call ≠ .error .panic := by
  refine ⟨?_, fun t ht user u hu => run.keeps ht hu, ?_⟩
  · intro user u hu
    have life := run.userRun user
    rw [hu] at life
    exact ⟨life.wellFormed, fun _ _ _ _ _ _ hp => UserConfig.pull_fits hp⟩
  · intro inv hnow call
    exact noPanic_execute run.usersValid hnow.2 call

end Reachable

/-- The rehearsed user's account is well formed. -/
theorem wellFormed_and_never_aborts_rehearsed :
    ∃ u, (Rehearsal.ledger Rehearsal.beginnings).userConfigs Rehearsal.user = some u ∧
      u.WellFormed Rehearsal.user := by
  have hsome : ((Rehearsal.ledger Rehearsal.beginnings).userConfigs Rehearsal.user).isSome = true := by
    decide +kernel
  obtain ⟨u, hu⟩ := Option.isSome_iff_exists.mp hsome
  have hrun := Rehearsal.ledger_run Rehearsal.beginnings (by decide)
  exact ⟨u, hu, ((wellFormed_and_never_aborts hrun).1 _ u hu).1⟩

end Laterite
