import Laterite.AttestationInstructions

/-!
# Enrollment and the user's controls

A user enrolls and returns under the sponsor's signature and the beta limits; every other
control needs only the user's own. The settings account is never closed: leaving clears
the settings and keeps the counters.
-/

namespace Laterite

open CheckedComputation

variable (d : Deployment) (inv : Invocation) (chain : Chain)

def UserConfig.enrolled (user : Pubkey) (bump : UInt8) (params : EnrollParams) (now : ℤ) :
    UserConfig where
  user := user
  tier := params.tier
  paymentTokens := params.paymentTokens
  asset := params.asset
  engine := params.engine
  engineAmount := params.engineAmount
  incomeRule := params.incomeRule
  changeMultiplier := params.changeMultiplier
  cushions := params.cushions
  enrolledAt := now
  goalAmount := params.goalAmount
  goalLabel := params.goalLabel
  bump := bump
  week := 0
  weekSpent := 0
  engineRanAt := 0
  pending := 0
  status := .active
  attestableFrom := now
  lastSweepDay := Vector.replicate _ 0

def enroll (user payer : Pubkey) (params : EnrollParams) (subscriptions : List Pubkey) :
    Result (Event × Chain) := do
  inv.requireSigner user
  inv.requireSigner payer
  let config ← chain.loadConfig
  require (config.sponsor = payer) LateriteError.notSponsor
  require (chain.userConfigs user = none) AnchorError.accountAlreadyInUse
  require (¬config.paused) LateriteError.programPaused
  require (config.maxUsers > config.userCount) LateriteError.betaFull
  params.validate config
  d.requireLive (subscriptions.map chain.accounts.info) params.paymentTokens params.tier user
  let userConfig := UserConfig.enrolled user (d.userConfigBump user) params inv.now
  let userCount ← config.userCount.checkedAdd 1
  return (.enrolled user params.tier params.paymentTokens params.asset,
    (chain.setUserConfig user userConfig).setConfig { config with userCount := userCount })

def userOnly (user : Pubkey) : Result UserConfig := do
  inv.requireSigner user
  let userConfig ← chain.loadUserConfig user
  require (userConfig.status ≠ .exited) LateriteError.userNotActive
  return userConfig

/-- The new settings make some attestation count more than the current ones do. -/
def UserConfig.countsMore (self : UserConfig) (params : EnrollParams) : Bool :=
  (params.incomeRule && !self.incomeRule) || params.changeMultiplier > self.changeMultiplier

def updateSettings (user : Pubkey) (params : EnrollParams) : Result (Event × Chain) := do
  let userConfig ← userOnly inv chain user
  require (params.tier = userConfig.tier ∧ params.paymentTokens = userConfig.paymentTokens)
    LateriteError.planChangeRequired
  params.validateRules
  let raised := if userConfig.countsMore params then userConfig.raiseAttestableFrom inv.now
    else userConfig
  return (.userSettingsUpdated userConfig.user params,
    chain.setUserConfig user (raised.setSettings params))

def setUserPaused (user : Pubkey) (paused : Bool) : Result (Event × Chain) := do
  let userConfig ← userOnly inv chain user
  if paused then do
    require (userConfig.status = .active) LateriteError.userNotActive
    return (.userPaused userConfig.user paused,
      chain.setUserConfig user { userConfig with status := .paused })
  else do
    require (userConfig.status = .paused) LateriteError.userNotPaused
    let resumed := { userConfig with status := .active }
    return (.userPaused userConfig.user paused,
      chain.setUserConfig user (resumed.raiseAttestableFrom inv.now))

def lowerPending (user : Pubkey) (pending : UInt64) : Result (Event × Chain) := do
  let userConfig ← userOnly inv chain user
  require (userConfig.pending ≥ pending) LateriteError.pendingIncrease
  return (.pendingLowered userConfig.user pending,
    chain.setUserConfig user { userConfig with pending := pending })

/-- Per token: the current tier's plan and the user's subscription to it, which ends, then
the subscription to the new tier's plan, which must be live. -/
def changeTierEach (user : Pubkey) (current tier : ℕ) :
    List ℕ → List Pubkey → Accounts → Result Accounts
  | [], _, accounts => return accounts
  | token :: tokens, plan :: old :: new :: rest, accounts => do
    let currentPlan ← d.planAt token current
    let accounts ← d.cancel inv user currentPlan plan old accounts
    let newPlan ← d.planAt token tier
    require (d.isLive (accounts.info new) newPlan user) LateriteError.subscriptionMismatch
    changeTierEach user current tier tokens rest accounts
  | _ :: _, _, _ => .error (.error (.laterite .subscriptionMismatch))

def changeTier (user : Pubkey) (tier : UInt8) (remainingAccounts : List Pubkey) :
    Result (Event × Chain) := do
  let config ← chain.loadConfig
  let userConfig ← userOnly inv chain user
  let cap ← okOr tiers[tier.toNat]? LateriteError.invalidTier
  require (tier ≠ userConfig.tier) LateriteError.invalidTier
  require (config.userWeeklyCap ≥ cap) LateriteError.capAboveBetaLimit
  require (cap ≥ userConfig.engineAmount) LateriteError.invalidRules
  let tokens ← enabledTokens userConfig.paymentTokens
  let accounts ← changeTierEach d inv user userConfig.tier.toNat tier.toNat tokens
    remainingAccounts chain.accounts
  return (.tierChanged user tier,
    (chain.setAccounts accounts).setUserConfig user { userConfig with tier := tier })

/-- Per token whose bit changes: a dropped token's plan and subscription, which ends, or an
added token's subscription, which must be live. -/
def changePaymentTokensEach (user : Pubkey) (tier : ℕ) (current new : UInt8) :
    List ℕ → List Pubkey → Accounts → Result Accounts
  | [], _, accounts => return accounts
  | token :: tokens, remainingAccounts, accounts => do
    let plan ← d.planAt token tier
    let isEnabled ← enables current token
    let isWanted ← enables new token
    if isEnabled && !isWanted then do
      let planAccount ← okOr remainingAccounts[0]? LateriteError.subscriptionMismatch
      let subscription ← okOr remainingAccounts[1]? LateriteError.subscriptionMismatch
      let accounts ← d.cancel inv user plan planAccount subscription accounts
      changePaymentTokensEach user tier current new tokens (remainingAccounts.drop 2) accounts
    else if !isEnabled && isWanted then do
      let subscription ← okOr remainingAccounts[0]? LateriteError.subscriptionMismatch
      require (d.isLive (accounts.info subscription) plan user) LateriteError.subscriptionMismatch
      changePaymentTokensEach user tier current new tokens (remainingAccounts.drop 1) accounts
    else changePaymentTokensEach user tier current new tokens remainingAccounts accounts

def changePaymentTokens (user : Pubkey) (paymentTokens : UInt8) (remainingAccounts : List Pubkey) :
    Result (Event × Chain) := do
  let userConfig ← userOnly inv chain user
  require (paymentTokens ≠ 0) LateriteError.noPaymentToken
  require (paymentTokens >>> UInt8.ofNat paymentTokenCount = 0) LateriteError.unknownPaymentToken
  let accounts ← changePaymentTokensEach d inv user userConfig.tier.toNat userConfig.paymentTokens
    paymentTokens (List.range paymentTokenCount) remainingAccounts chain.accounts
  let raised := if paymentTokens &&& ~~~userConfig.paymentTokens ≠ 0 then
      userConfig.raiseAttestableFrom inv.now
    else userConfig
  return (.paymentTokensChanged user paymentTokens,
    (chain.setAccounts accounts).setUserConfig user { raised with paymentTokens := paymentTokens })

def exitEach (user : Pubkey) (tier : ℕ) : List ℕ → List Pubkey → Accounts → Result Accounts
  | [], _, accounts => return accounts
  | token :: tokens, planAccount :: subscription :: rest, accounts => do
    let plan ← d.planAt token tier
    let accounts ← d.cancel inv user plan planAccount subscription accounts
    exitEach user tier tokens rest accounts
  | _ :: _, _, _ => .error (.error (.laterite .subscriptionMismatch))

def exit (user : Pubkey) (remainingAccounts : List Pubkey) : Result (Event × Chain) := do
  let config ← chain.loadConfig
  let userConfig ← userOnly inv chain user
  let tokens ← enabledTokens userConfig.paymentTokens
  let accounts ← exitEach d inv user userConfig.tier.toNat tokens remainingAccounts chain.accounts
  let config := { config with userCount := config.userCount.saturatingSub 1 }
  let left := { userConfig.setSettings EnrollParams.default with pending := 0, status := .exited }
  return (.exited userConfig.user,
    ((chain.setAccounts accounts).setConfig config).setUserConfig user left)

def reactivate (user sponsor : Pubkey) (params : EnrollParams) (subscriptions : List Pubkey) :
    Result (Event × Chain) := do
  inv.requireSigner user
  inv.requireSigner sponsor
  let config ← chain.loadConfig
  require (config.sponsor = sponsor) LateriteError.notSponsor
  let userConfig ← chain.loadUserConfig user
  require (userConfig.status = .exited) LateriteError.userNotExited
  require (¬config.paused) LateriteError.programPaused
  require (config.maxUsers > config.userCount) LateriteError.betaFull
  params.validate config
  d.requireLive (subscriptions.map chain.accounts.info) params.paymentTokens params.tier user
  let returned := { userConfig.setSettings params with status := .active }
  let userCount ← config.userCount.checkedAdd 1
  return (.reactivated userConfig.user params.tier params.paymentTokens params.asset,
    (chain.setUserConfig user (returned.raiseAttestableFrom inv.now)).setConfig
      { config with userCount := userCount })

end Laterite
