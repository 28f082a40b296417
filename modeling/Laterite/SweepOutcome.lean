import Laterite.InstructionEffects

/-!
# What a successful sweep establishes

The plan's checks, the two quotes, the swap's outcome and the bookkeeping, each a
structure of named facts, and one inversion that produces all of them.
-/

namespace Laterite

open CheckedComputation

variable (d : Deployment) (inv : Invocation)

/-- The plan followed from the ledger: what was read from where, and the checks it passed.
The user's account held `balance` and the rules gave `due` before the subscription's cap. -/
structure SweepPlan.Decided (chain : Chain) (ctx : SweepAccounts) (paymentToken : UInt8)
    (balance : UInt64) (due : Pull) (plan : SweepPlan) : Prop where
  config : chain.config = some plan.config
  userConfig : chain.userConfigs ctx.userConfig = some plan.userConfig
  router : ctx.router = plan.config.router
  notPaused : plan.config.paused = false
  token : plan.config.paymentTokens[paymentToken.toNat]? = some plan.token
  today : plan.today = UInt32.ofInt (inv.now / daySeconds)
  fresh : ∃ lastDay, plan.userConfig.lastSweepDay[paymentToken.toNat]? = some lastDay ∧
    lastDay < plan.today
  session : plan.userConfig.engine = .weekly →
    usMarketOpen inv.now plan.config.marketCalendar = true
  balance_eq : amount (chain.accounts.info ctx.userPaymentAccount) = .ok balance
  due_eq : plan.userConfig.pull paymentToken.toNat balance plan.config.userWeeklyCap
    plan.config.marketCalendar inv.now = .ok due
  enabled : enabled plan.userConfig.paymentTokens paymentToken.toNat = true
  mint : ctx.paymentMint = plan.token.mint
  tokenProgram : ctx.paymentTokenProgram = plan.token.tokenProgram
  atPlan : d.planAt paymentToken.toNat plan.userConfig.tier.toNat = .ok ctx.plan
  pull : due.capped (d.remaining (chain.accounts.info ctx.subscription) inv.now) = .ok plan.pull
  total : plan.total.toNat = plan.pull.engine.toNat + plan.pull.pending.toNat
  positive : 0 < plan.total.toNat
  asset : plan.config.assets[plan.userConfig.asset.toNat]? = some plan.asset
  userAccount : d.isTokenAccount (chain.accounts.info ctx.userAssetAccount) plan.asset.tokenProgram
    plan.asset.mint plan.userConfig.user = true
  swapAccount : d.isTokenAccount (chain.accounts.info ctx.swapPaymentAccount)
    plan.token.tokenProgram plan.token.mint d.swapAuthority = true

/-- The minimum followed from two quotes whose updates Pyth Pro accepted; an empty payment
update stands for a token counted at one dollar. -/
structure SweepPlan.Priced (accounts : Accounts) (ctx : SweepAccounts)
    (assetMessage paymentMessage : List UInt8) (ed25519Index : UInt16)
    (assetQuote paymentQuote : Quote) (minimum : UInt64) (plan : SweepPlan) : Prop where
  asset : quote assetMessage plan.asset.pythFeedId inv.now = .ok assetQuote
  payment : quote paymentMessage plan.token.usdFeedId inv.now = .ok paymentQuote
  minimum_eq : minOut plan.total paymentQuote usdDecimals assetQuote plan.asset.decimals = .ok minimum
  assetVerified : verifyPrice inv accounts ctx assetMessage ed25519Index 0 = .ok ()
  paymentVerified : paymentMessage ≠ [] →
    verifyPrice inv accounts ctx paymentMessage ed25519Index 1 = .ok ()

/-- The pull and the route ran, left the watched accounts' data as it was before the pull and
no writable swap-authority account unwatched, and brought the user at least the minimum. -/
structure SweepPlan.Swapped (ctx : SweepAccounts) (minimum : UInt64) (route : List UInt8)
    (routeAccounts : List RouteAccount) (accounts pulled swapped : Accounts) (received : UInt64)
    (plan : SweepPlan) : Prop where
  transferred : transferSubscription d inv ctx plan.token plan.userConfig.user plan.total accounts =
    .ok pulled
  routed : swapThroughRouter d inv ctx.router route routeAccounts pulled = .ok swapped
  kept : ∀ key ∈ ctx.swapPaymentAccount :: writableSwapAccounts d accounts routeAccounts,
    (swapped key).data = (accounts key).data
  watched : ∀ key ∈ writableSwapAccounts d swapped routeAccounts,
    key ∈ ctx.swapPaymentAccount :: writableSwapAccounts d accounts routeAccounts
  gained : ∃ before after, amount (accounts.info ctx.userAssetAccount) = .ok before ∧
    amount (swapped.info ctx.userAssetAccount) = .ok after ∧ received = after.saturatingSub before
  enough : minimum ≤ received

/-- The user's settings account after a sweep of `paymentToken` that pulled `p`, `total` in
all: the pull counted in the week of the clock, its pending part consumed, the engine's time
moved when it bought, and the day noted. -/
def UserConfig.swept (self : UserConfig) (paymentToken : ℕ) (p : Pull) (total : UInt64) (now : ℤ) :
    UserConfig :=
  { self with
    week := self.weekAt now
    weekSpent := (self.spentAt now).saturatingAdd total
    pending := self.pending.saturatingSub p.pending
    engineRanAt := if p.engine > 0 then now else self.engineRanAt
    lastSweepDay := self.lastSweepDay.setIfInBounds paymentToken (UInt32.ofInt (now / daySeconds)) }

variable {d inv} {chain after : Chain} {ctx : SweepAccounts} {paymentToken : UInt8}
  {plan : SweepPlan} {assetMessage paymentMessage route : List UInt8} {ed25519Index : UInt16}
  {routeAccounts : List RouteAccount} {accounts swapped : Accounts} {minimum received : UInt64}
  {assetQuote : Quote} {event : Event} {balance : UInt64} {due : Pull}

theorem planSweep_ok (h : planSweep d inv chain ctx paymentToken = .ok plan) :
    ∃ balance due, plan.Decided d inv chain ctx paymentToken balance due := by
  simp only [planSweep, bind_eq_ok, require_eq_ok, pure_eq_ok, okOr_eq_ok, orPanic_eq_ok,
    Chain.loadConfig_eq_ok, Chain.loadUserConfig_eq_ok, Pull.total_eq_ok,
    Invocation.requireSigner_eq_ok, exists_const, Bool.not_eq_true] at h
  obtain ⟨-, config, hconfig, userConfig, huser, hrouter, hpaused, token, htoken, lastDay, hlast,
    hfresh, hsession, balance, hbalance, due, hdue, _, -, -, isEnabled, henables, hisEnabled, hmint,
    hprogram, planKey, hplan, hctxPlan, pull, hpull, total, htotal, hpositive, asset, hasset,
    ⟨huserAccount, hswapAccount⟩, rfl⟩ := h
  have hindex : paymentToken.toNat < 8 := by
    have := (Vector.getElem?_eq_some_iff.mp htoken).1
    unfold paymentTokenCount at this
    omega
  rw [enables_of_lt hindex, Except.ok.injEq] at henables
  exact ⟨balance, due, {
    config := hconfig
    userConfig := huser
    router := hrouter
    notPaused := hpaused
    token := htoken
    today := rfl
    fresh := ⟨lastDay, hlast, hfresh⟩
    session := fun hweekly => hsession.resolve_left (not_not.mpr hweekly)
    balance_eq := hbalance
    due_eq := hdue
    enabled := henables.trans hisEnabled
    mint := hmint
    tokenProgram := hprogram
    atPlan := hctxPlan ▸ hplan
    pull := hpull
    total := htotal
    positive := UInt64.lt_iff_toNat_lt.mp hpositive
    asset := hasset
    userAccount := huserAccount
    swapAccount := hswapAccount }⟩

theorem priceSweep_ok
    (h : priceSweep inv accounts ctx plan assetMessage paymentMessage ed25519Index =
      .ok (assetQuote, minimum)) :
    ∃ paymentQuote, plan.Priced inv accounts ctx assetMessage paymentMessage ed25519Index assetQuote
      paymentQuote minimum := by
  simp only [priceSweep, bind_eq_ok] at h
  obtain ⟨_, hasset, paymentQuote, hpayment, _, hminimum, _, hverified, h⟩ := h
  split at h
  · simp only [bind_eq_ok, pure_eq_ok, Prod.mk.injEq] at h
    obtain ⟨_, hpaymentVerified, rfl, rfl⟩ := h
    exact ⟨paymentQuote, hasset, hpayment, hminimum, hverified, fun _ => hpaymentVerified⟩
  · rename_i hempty
    rw [pure_eq_ok, Prod.mk.injEq] at h
    obtain ⟨rfl, rfl⟩ := h
    exact ⟨paymentQuote, hasset, hpayment, hminimum, hverified, fun hne => absurd hne hempty⟩

theorem swap_ok
    (h : swap d inv ctx plan minimum route routeAccounts accounts = .ok (swapped, received)) :
    ∃ pulled, plan.Swapped d inv ctx minimum route routeAccounts accounts pulled swapped received := by
  simp only [swap, bind_eq_ok, require_eq_ok, pure_eq_ok, exists_const, Prod.mk.injEq] at h
  obtain ⟨before, hbefore, pulled, hpulled, _, hrouted, hkept, hwatched, after, hafter, henough,
    rfl, rfl⟩ := h
  exact ⟨pulled, hpulled, hrouted, hkept, hwatched, ⟨before, after, hbefore, hafter, rfl⟩, henough⟩

theorem sweep_ok
    (h : sweep d inv chain ctx assetMessage paymentMessage ed25519Index paymentToken route
      routeAccounts = .ok (event, after)) :
    ∃ plan balance due assetQuote paymentQuote minimum pulled swapped received,
      SweepPlan.Decided d inv chain ctx paymentToken balance due plan ∧
      plan.Priced inv chain.accounts ctx assetMessage paymentMessage ed25519Index assetQuote
        paymentQuote minimum ∧
      plan.Swapped d inv ctx minimum route routeAccounts chain.accounts pulled swapped received ∧
      event = .swept {
        user := plan.userConfig.user
        paymentToken := paymentToken
        asset := plan.userConfig.asset
        engine := plan.pull.engine
        pending := plan.pull.pending
        assetPrice := assetQuote.price
        assetExponent := assetQuote.exponent
        received := received
        minOut := minimum } ∧
      after = (chain.setAccounts swapped).setUserConfig ctx.userConfig
        (plan.userConfig.swept paymentToken.toNat plan.pull plan.total inv.now) := by
  simp only [sweep, bind_eq_ok, pure_eq_ok, setAt_eq_ok, Prod.mk.injEq] at h
  obtain ⟨plan, hplan, ⟨assetQuote, minimum⟩, hprice, ⟨swapped, received⟩, hswap, recorded,
    hrecorded, lastSweepDay, ⟨-, hdays⟩, hevent, hafter⟩ := h
  obtain ⟨balance, due, hdecided⟩ := planSweep_ok hplan
  obtain ⟨paymentQuote, hpriced⟩ := priceSweep_ok hprice
  obtain ⟨pulled, hswapped⟩ := swap_ok hswap
  obtain ⟨total, htotal, rfl⟩ := UserConfig.record_eq hrecorded
  have hsame : total = plan.total := UInt64.toNat_inj.mp (htotal.trans hdecided.total.symm)
  subst hsame hevent hafter
  refine ⟨plan, balance, due, assetQuote, paymentQuote, minimum, pulled, swapped, received, hdecided,
    hpriced, hswapped, rfl, ?_⟩
  rw [UserConfig.swept, ← hdecided.today, ← hdays]

/-- The pull keeps the engine's bounds. -/
theorem SweepPlan.Decided.allows (h : plan.Decided d inv chain ctx paymentToken balance due) :
    plan.userConfig.Allows paymentToken.toNat balance plan.config.userWeeklyCap
      plan.config.marketCalendar inv.now plan.pull := by
  refine UserConfig.Allows.capped (UserConfig.pull_allows h.due_eq ?_) h.pull
  have hcapped := Pull.capped_spec h.pull
  have htotal := h.total
  have hpositive := h.positive
  omega

/-- The pull stays within what the subscription's period still allows. -/
theorem SweepPlan.Decided.total_le_remaining
    (h : plan.Decided d inv chain ctx paymentToken balance due) :
    plan.total.toNat ≤ (d.remaining (chain.accounts.info ctx.subscription) inv.now).toNat := by
  have hcapped := Pull.capped_spec h.pull
  have htotal := h.total
  omega

theorem SweepPlan.Decided.paymentToken_lt
    (h : plan.Decided d inv chain ctx paymentToken balance due) :
    paymentToken.toNat < paymentTokenCount :=
  (Vector.getElem?_eq_some_iff.mp h.token).1

end Laterite
