import Laterite.SweepCandidates

/-!
# What the client builds for a user

A user's sponsored transactions are built from one reading of their accounts: their account in each
asset, their account and their Subscriptions authority in each payment token, their subscription to
each plan. An instruction is kept as the builder's arguments.
-/

namespace Laterite.Client

open CheckedComputation

structure RecordedSubscription where
  initId : ℤ
  payer : Pubkey
  delegation : Laterite.SubscriptionDelegation

def RecordedSubscription.decoded (self : RecordedSubscription) : SubscriptionDelegation :=
  SubscriptionDelegation.of self.initId self.delegation

structure RecordedAuthority where
  initId : ℤ
  payer : Pubkey

def RecordedAuthority.decoded (self : RecordedAuthority) : SubscriptionAuthority := ⟨self.initId⟩

/-- A plan's live terms, and when it ends; 0 when it does not. -/
structure PlanTerms where
  amount : UInt64
  createdAt : ℤ
  periodHours : UInt64
  endTs : ℤ

structure TokenState where
  account : Pubkey
  accountState : Option TokenAccountState
  authority : Pubkey
  authorityState : Option RecordedAuthority
  mint : Pubkey
  paymentToken : ℕ
  tokenProgram : Pubkey

structure PlanState where
  paymentToken : ℕ
  plan : Pubkey
  planState : PlanTerms
  subscription : Pubkey
  subscriptionState : Option RecordedSubscription
  tier : ℕ

structure AssetState where
  account : Pubkey
  isOpen : Bool

structure UserState where
  assets : List AssetState
  now : ℤ
  plans : List PlanState
  tokens : List TokenState
  userConfig : Option Laterite.UserConfig
  userConfigAddress : Pubkey

structure RemainingAccount where
  address : Pubkey
  isWritable : Bool
  deriving DecidableEq

def readonly (address : Pubkey) : RemainingAccount := ⟨address, false⟩

def writable (address : Pubkey) : RemainingAccount := ⟨address, true⟩

/-- An instruction by the builder that makes it and what it is given. -/
inductive Instruction where
  | createAssociatedTokenIdempotent (mint owner payer tokenProgram : Pubkey)
  | initSubscriptionAuthority (owner payer tokenMint tokenProgram userAta : Pubkey)
  | subscribe (expectedAmount : UInt64) (expectedCreatedAt : ℤ) (expectedPeriodHours : UInt64)
    (expectedSubscriptionAuthorityInitId : ℤ) (merchant payer : Pubkey) (planId : ℕ)
    (subscriber tokenMint : Pubkey)
  | resumeSubscription (expectedExpiresAtTs : ℤ) (planPda subscriber subscriptionPda tokenMint : Pubkey)
  | revokeSubscription (authority planPda receiver subscriptionPda : Pubkey)
  | revokeAbandonedSubscription (payer planPda subscriptionAccount subscriptionAuthority : Pubkey)
  | revokeSubscriptionAuthority (receiver tokenMint tokenProgram user : Pubkey)
  | cancelSubscription (planPda subscriber subscriptionPda : Pubkey)
  | enroll (params : EnrollParams) (payer user : Pubkey) (remaining : List RemainingAccount)
  | reactivate (params : EnrollParams) (sponsor user : Pubkey) (remaining : List RemainingAccount)
  | updateSettings (params : EnrollParams) (user : Pubkey)
  | setUserPaused (paused : Bool) (user : Pubkey)
  | lowerPending (pending : UInt64) (user : Pubkey)
  | changeTier (tier : UInt8) (user userConfig : Pubkey) (remaining : List RemainingAccount)
  | changePaymentTokens (paymentTokens : UInt8) (user userConfig : Pubkey)
    (remaining : List RemainingAccount)
  | exit (user userConfig : Pubkey) (remaining : List RemainingAccount)

/-- Why nothing is built. -/
inductive BuildError where
  | client (error : ClientError)
  | recordedPayerRequired (payer subscription : Pubkey)
  | noPlan (paymentToken tier : ℕ)
  | noToken (paymentToken : ℕ)
  | noAsset (asset : ℕ)
  | noSubscription (subscription : Pubkey)
  | noAuthority (authority : Pubkey)
  | noAccount (user mint : Pubkey)
  | enrolledBefore (user : Pubkey)
  | divisionByZero
  deriving DecidableEq

abbrev Build := Except BuildError

def BuildError.check (error : LateriteError) : BuildError := .client (.lateriteCheck error.code)

/-- The check of a program error before anything is built. -/
def checks (condition : Prop) [Decidable condition] (error : LateriteError) : Build Unit :=
  if condition then .ok () else .error (.check error)

def found {α : Type} (value : Option α) (error : BuildError) : Build α :=
  match value with
  | some value => .ok value
  | none => .error error

def planState (state : UserState) (paymentToken tier : ℕ) : Build PlanState :=
  found (state.plans.find? fun plan => plan.paymentToken = paymentToken ∧ plan.tier = tier)
    (.noPlan paymentToken tier)

def tokenState (state : UserState) (paymentToken : ℕ) : Build TokenState :=
  found state.tokens[paymentToken]? (.noToken paymentToken)

/-- Closes a subscription that ended; its rent returns to the payer it recorded. -/
def closeSubscriptionInstruction (user : Pubkey) (plan : PlanState) : Build Instruction := do
  let subscription ← found plan.subscriptionState (.noSubscription plan.subscription)
  return .revokeSubscription user plan.plan subscription.payer plan.subscription

def revokeAuthorityInstruction (user : Pubkey) (token : TokenState) : Build Instruction := do
  let authority ← found token.authorityState (.noAuthority token.authority)
  return .revokeSubscriptionAuthority authority.payer token.mint token.tokenProgram user

variable (d : Deployment) (unknownInitId : ℤ)

/-- What a subscription is made with: the plan's terms and the authority it goes through. -/
def subscribeInstruction (plan : PlanState) (sponsor user : Pubkey) (token : TokenState) :
    Instruction :=
  .subscribe plan.planState.amount plan.planState.createdAt plan.planState.periodHours
    ((token.authorityState.map RecordedAuthority.initId).getD unknownInitId) d.vault sponsor
    (planId plan.paymentToken plan.tier) user token.mint

def approveInstructions (sponsor user : Pubkey) (token : TokenState) (account : TokenAccountState) :
    List Instruction :=
  if token.authorityState.isSome ∧ account.delegate = some token.authority then []
  else [.initSubscriptionAuthority user sponsor token.mint token.tokenProgram token.account]

/-- What leaves the user with a live subscription to the plan that the sweep can pull through. -/
def subscriptionInstructions (now : ℤ) (payers : List Pubkey) (plan : PlanState) (sponsor : Pubkey)
    (token : TokenState) (user : Pubkey) : Build (List Instruction) := do
  let account ← found token.accountState (.noAccount user token.mint)
  if account.frozen then .error (.client (.restoreRequired .frozen token.account))
  else
    let approve := approveInstructions sponsor user token account
    let subscribe := subscribeInstruction d unknownInitId plan sponsor user token
    match plan.subscriptionState with
    | none => return approve ++ [subscribe]
    | some subscription =>
      let expiry := subscription.delegation.expiresAtTs
      if expiry ≠ 0 ∧ expiry ≤ now then do
        let close ← closeSubscriptionInstruction user plan
        return close :: (approve ++ [subscribe])
      else if token.authorityState.map RecordedAuthority.initId ≠ some subscription.initId then do
        let payer ← found ((sponsor :: payers).find? fun payer => payer = subscription.payer)
          (.recordedPayerRequired subscription.payer plan.subscription)
        let close := .revokeAbandonedSubscription payer plan.plan plan.subscription token.authority
        return close :: (approve ++ [subscribe])
      else if expiry = 0 then return approve
      else
        return approve ++
          [.resumeSubscription expiry plan.plan user plan.subscription token.mint]

def cancellationExpiry (subscription : RecordedSubscription) (plan : PlanTerms) (now : ℤ) : Build ℤ := do
  let period : ℤ := subscription.delegation.periodHours.toNat * 3600
  let start := subscription.delegation.currentPeriodStartTs
  let elapsed ← if now > start then
      if period = 0 then .error .divisionByZero else .ok ((now - start).tdiv period)
    else .ok 0
  let stop := start + (elapsed + 1) * period
  return if plan.endTs ≠ 0 ∧ plan.endTs < stop then plan.endTs else stop

structure RestoreInstructions where
  instructions : List Instruction
  restorableAt : Option ℤ

/-- Restores an enabled payment token that was ended outside Laterite. -/
def getRestoreInstructions (state : UserState) (paymentToken : ℕ) (payers : List Pubkey)
    (sponsor user : Pubkey) : Build RestoreInstructions := do
  let userConfig ← found state.userConfig (.check .userNotActive)
  checks (userConfig.status ≠ .exited) .userNotActive
  checks (userConfig.paymentTokens.toNat &&& (1 <<< paymentToken) ≠ 0) .unknownPaymentToken
  let plan ← planState state paymentToken userConfig.tier.toNat
  let token ← tokenState state paymentToken
  match subscriptionInstructions d unknownInitId state.now payers plan sponsor token user with
  | .ok instructions => return ⟨instructions, none⟩
  | .error (.recordedPayerRequired _ _) => do
    let subscription ← found plan.subscriptionState (.noSubscription plan.subscription)
    let expiry := subscription.delegation.expiresAtTs
    if expiry ≠ 0 then return ⟨[], some expiry⟩
    else do
      let restorableAt ← cancellationExpiry subscription plan.planState state.now
      return ⟨[.cancelSubscription plan.plan user plan.subscription], some restorableAt⟩
  | .error error => .error error

/-- The rules of the settings a user chose. -/
def assertValidRules (params : EnrollParams) : Build Unit := do
  let cap ← found tiers[params.tier.toNat]? (.check .invalidTier)
  checks (params.asset.toNat < 2) .unknownAsset
  checks (params.paymentTokens.toNat ≠ 0) .noPaymentToken
  checks (params.paymentTokens.toNat >>> paymentTokenCount = 0) .unknownPaymentToken
  let engineAmount : ℤ := params.engineAmount.toNat
  let invests := engineAmount > 0 ∨ params.incomeRule ∨ params.changeMultiplier.toNat > 0
  checks (invests ∧ params.changeMultiplier.toNat ≤ 3 ∧ engineAmount ≤ cap) .invalidRules

/-- What `enroll` and `reactivate` check before they take a seat. -/
def assertCanJoin (config : Laterite.Config) (sponsor : Pubkey) (params : EnrollParams) :
    Build Unit := do
  checks (¬config.paused) .programPaused
  checks (sponsor = config.sponsor) .notSponsor
  checks (config.userCount.toNat < config.maxUsers.toNat) .betaFull
  let cap ← found tiers[params.tier.toNat]? (.check .invalidTier)
  checks (cap ≤ config.userWeeklyCap.toNat) .capAboveBetaLimit
  assertValidRules params

structure SponsoredInstructions where
  createsAssetAccount : Bool
  instructions : List Instruction

/-- The user's account in `asset` when it does not exist yet, paid by the sponsor. -/
def assetAccountInstructions (asset : ℕ) (config : Laterite.Config) (sponsor : Pubkey)
    (state : UserState) (user : Pubkey) : Build (List Instruction) := do
  let entry ← found state.assets[asset]? (.noAsset asset)
  if entry.isOpen then return []
  else do
    let asset ← found config.assets[asset]? (.noAsset asset)
    return [.createAssociatedTokenIdempotent asset.mint user sponsor asset.tokenProgram]

def subscribeEach (state : UserState) (payers : List Pubkey) (sponsor user : Pubkey) (tier : ℕ) :
    List ℕ → Build (List Instruction × List Pubkey)
  | [] => return ([], [])
  | paymentToken :: tokens => do
    let plan ← planState state paymentToken tier
    let token ← tokenState state paymentToken
    let instructions ← subscriptionInstructions d unknownInitId state.now payers plan sponsor token user
    let (rest, subscriptions) ← subscribeEach state payers sponsor user tier tokens
    return (instructions ++ rest, plan.subscription :: subscriptions)

/-- What comes before `enroll` or `reactivate`: the asset's account when missing, then a live
subscription per enabled token. -/
def joinInstructions (config : Laterite.Config) (params : EnrollParams) (payers : List Pubkey)
    (sponsor user : Pubkey) (state : UserState) :
    Build (SponsoredInstructions × List RemainingAccount) := do
  let opening ← assetAccountInstructions params.asset.toNat config sponsor state user
  let (instructions, subscriptions) ← subscribeEach d unknownInitId state payers sponsor user
    params.tier.toNat (enabledPaymentTokens params.paymentTokens.toNat)
  return (⟨opening ≠ [], opening ++ instructions⟩, subscriptions.map readonly)

def getOnboardingInstructions (config : Laterite.Config) (params : EnrollParams)
    (payers : List Pubkey) (sponsor user : Pubkey) (state : UserState) :
    Build SponsoredInstructions := do
  assertCanJoin config sponsor params
  if state.userConfig.isSome then .error (.enrolledBefore user)
  else do
    let (joined, remaining) ← joinInstructions d unknownInitId config params payers sponsor user state
    return { joined with instructions := joined.instructions ++ [.enroll params sponsor user remaining] }

def getReactivationInstructions (config : Laterite.Config) (params : EnrollParams)
    (payers : List Pubkey) (sponsor user : Pubkey) (state : UserState) :
    Build SponsoredInstructions := do
  assertCanJoin config sponsor params
  checks (state.userConfig.map Laterite.UserConfig.status = some .exited) .userNotExited
  let (joined, remaining) ← joinInstructions d unknownInitId config params payers sponsor user state
  return { joined with
    instructions := joined.instructions ++ [.reactivate params sponsor user remaining] }

end Laterite.Client
