import Laterite.UserStates

/-!
# The client's controls

The sponsored controls of an enrolled user. A change of tier or of payment tokens places a live
subscription to each plan it adds before Laterite's instruction, and closes after it what the
instruction ended.
-/

namespace Laterite.Client

/-- Every control but reactivation refuses a user who exited. -/
def assertNotExited (userConfig : Option Laterite.UserConfig) : Build Laterite.UserConfig := do
  let userConfig ← found userConfig (.check .userNotActive)
  checks (userConfig.status ≠ .exited) .userNotActive
  return userConfig

def getUpdateSettingsInstructions (config : Laterite.Config) (params : EnrollParams)
    (sponsor user : Pubkey) (state : UserState) : Build SponsoredInstructions := do
  let userConfig ← assertNotExited state.userConfig
  checks (params.tier = userConfig.tier ∧ params.paymentTokens = userConfig.paymentTokens)
    .planChangeRequired
  assertValidRules params
  let opening ← assetAccountInstructions params.asset.toNat config sponsor state user
  return ⟨opening ≠ [], opening ++ [.updateSettings params user]⟩

def getSetUserPausedInstructions (paused : Bool) (user : Pubkey) (userConfig : Laterite.UserConfig) :
    Build (List Instruction) := do
  let userConfig ← assertNotExited (some userConfig)
  checks (¬(paused = true ∧ userConfig.status ≠ .active)) .userNotActive
  checks (¬(paused = false ∧ userConfig.status ≠ .paused)) .userNotPaused
  return [.setUserPaused paused user]

/-- Lowers the amount waiting to be invested; it never raises it. -/
def getLowerPendingInstructions (pending : UInt64) (user : Pubkey) (userConfig : Laterite.UserConfig) :
    Build (List Instruction) := do
  let userConfig ← assertNotExited (some userConfig)
  checks (¬pending > userConfig.pending) .pendingIncrease
  return [.lowerPending pending user]

/-- A delegation of the user's to any merchant, with its address. -/
inductive Delegation where
  | fixed (address mint : Pubkey) (expiryTs : ℤ) (amount : UInt64)
  | recurring (address mint : Pubkey) (expiryTs : ℤ)
  | subscription (address plan : Pubkey) (held : RecordedSubscription)

def Delegation.address : Delegation → Pubkey
  | .fixed address _ _ _ => address
  | .recurring address _ _ => address
  | .subscription address _ _ => address

/-- The mints a delegation draws on at `now`; `planMint` is the mint of the plan at an address. -/
def Delegation.mints (planMint : Pubkey → Option Pubkey) (now : ℤ) : Delegation → List Pubkey
  | .fixed _ mint expiryTs amount =>
    if (expiryTs = 0 ∨ expiryTs > now) ∧ amount > 0 then [mint] else []
  | .recurring _ mint expiryTs => if expiryTs = 0 ∨ expiryTs > now then [mint] else []
  | .subscription _ plan held => if isRunning (some held.decoded) now then (planMint plan).toList else []

/-- The mints the user's authorities still serve, except for `ending`. -/
def mintsInUse (delegations : List Delegation) (planMint : Pubkey → Option Pubkey) (now : ℤ)
    (ending : List Pubkey) : List Pubkey :=
  (delegations.filter fun delegation => delegation.address ∉ ending).flatMap
    (Delegation.mints planMint now)

/-- The closes of the subscriptions that still exist. -/
def closeInstructions (user : Pubkey) (ended : List PlanState) : Build (List Instruction) :=
  (ended.filter fun plan => plan.subscriptionState.isSome).mapM (closeSubscriptionInstruction user)

section

variable (delegations : List Delegation) (planMint : Pubkey → Option Pubkey)

/-- Closes the subscriptions a control ends, and revokes an authority when the user's account is
still there and nothing else of theirs draws on its mint. -/
def endedSubscriptionInstructions (state : UserState) (user : Pubkey) (ended : List PlanState) :
    Build (List Instruction) := do
  let closes ← closeInstructions user ended
  let needed := mintsInUse delegations planMint state.now (ended.map PlanState.subscription)
  let tokens ← ended.mapM fun plan => tokenState state plan.paymentToken
  let revokes ← (tokens.filter fun token =>
      token.authorityState.isSome ∧ token.accountState.isSome ∧ token.mint ∉ needed).mapM
    (revokeAuthorityInstruction user)
  return closes ++ revokes

def getExitInstructions (user : Pubkey) (state : UserState) : Build (List Instruction) := do
  let userConfig ← assertNotExited state.userConfig
  let plans ← (enabledPaymentTokens userConfig.paymentTokens.toNat).mapM fun paymentToken =>
    planState state paymentToken userConfig.tier.toNat
  let ended ← endedSubscriptionInstructions delegations planMint state user plans
  return .exit user state.userConfigAddress
    (plans.flatMap fun plan => [readonly plan.plan, writable plan.subscription]) :: ended

end

variable (d : Deployment) (unknownInitId : ℤ)

/-- Per token: what leaves a live subscription to the new tier's plan, the accounts Laterite takes,
and the close of the current subscription. -/
def switchEach (state : UserState) (payers : List Pubkey) (sponsor user : Pubkey)
    (currentTier tier : ℕ) :
    List ℕ → Build (List Instruction × List RemainingAccount × List Instruction)
  | [] => return ([], [], [])
  | paymentToken :: tokens => do
    let current ← planState state paymentToken currentTier
    let next ← planState state paymentToken tier
    let token ← tokenState state paymentToken
    let instructions ← subscriptionInstructions d unknownInitId state.now payers next sponsor token user
    let closes ← closeInstructions user [current]
    let (rest, accounts, later) ← switchEach state payers sponsor user currentTier tier tokens
    return (instructions ++ rest,
      readonly current.plan :: writable current.subscription :: readonly next.subscription :: accounts,
      closes ++ later)

def getChangeTierInstructions (config : Laterite.Config) (payers : List Pubkey)
    (sponsor user : Pubkey) (state : UserState) (tier : UInt8) : Build (List Instruction) := do
  let userConfig ← assertNotExited state.userConfig
  let cap ← found tiers[tier.toNat]? (.check .invalidTier)
  checks (tier ≠ userConfig.tier) .invalidTier
  checks (¬config.userWeeklyCap.toNat < cap) .capAboveBetaLimit
  checks (¬userConfig.engineAmount.toNat > cap) .invalidRules
  let (instructions, accounts, closes) ← switchEach d unknownInitId state payers sponsor user
    userConfig.tier.toNat tier.toNat (enabledPaymentTokens userConfig.paymentTokens.toNat)
  return instructions ++ .changeTier tier user state.userConfigAddress accounts :: closes

/-- Per token whose bit changes: what leaves a live subscription to an added token's plan, the
accounts Laterite takes, and the plans of the dropped tokens. -/
def changeEach (state : UserState) (payers : List Pubkey) (sponsor user : Pubkey)
    (tier paymentTokens : ℕ) :
    List ℕ → Build (List Instruction × List RemainingAccount × List PlanState)
  | [] => return ([], [], [])
  | paymentToken :: tokens => do
    let plan ← planState state paymentToken tier
    if paymentTokens &&& (1 <<< paymentToken) ≠ 0 then do
      let token ← tokenState state paymentToken
      let instructions ← subscriptionInstructions d unknownInitId state.now payers plan sponsor token
        user
      let (rest, accounts, dropped) ← changeEach state payers sponsor user tier paymentTokens tokens
      return (instructions ++ rest, readonly plan.subscription :: accounts, dropped)
    else do
      let (rest, accounts, dropped) ← changeEach state payers sponsor user tier paymentTokens tokens
      return (rest, readonly plan.plan :: writable plan.subscription :: accounts, plan :: dropped)

def getChangePaymentTokensInstructions (delegations : List Delegation)
    (planMint : Pubkey → Option Pubkey) (payers : List Pubkey) (sponsor user : Pubkey)
    (state : UserState) (paymentTokens : UInt8) : Build (List Instruction) := do
  checks (paymentTokens.toNat ≠ 0) .noPaymentToken
  let userConfig ← assertNotExited state.userConfig
  let changed := enabledPaymentTokens (userConfig.paymentTokens.toNat ^^^ paymentTokens.toNat)
  let (instructions, accounts, dropped) ← changeEach d unknownInitId state payers sponsor user
    userConfig.tier.toNat paymentTokens.toNat changed
  let ended ← endedSubscriptionInstructions delegations planMint state user dropped
  return instructions ++
    .changePaymentTokens paymentTokens user state.userConfigAddress accounts :: ended

end Laterite.Client
