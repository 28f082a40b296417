import Laterite.AttestationInstructions
import Laterite.PythPrices

/-!
# The sweep

Invests what is due for one user and payment token: prices the swap, pulls through the
user's subscription into the swap authority's account, and hands the caller's route to the
router. Only the route's outcome is trusted: every swap-authority token account it can
write must end as it started, and the user's asset account must have gained the minimum.
-/

namespace Laterite

open CheckedComputation

/-- The accounts a sweep names, less those whose address the build fixes. `userConfig` is the
user whose settings account is passed. -/
structure SweepAccounts where
  crank : Pubkey
  userConfig : Pubkey
  subscription : Pubkey
  plan : Pubkey
  subscriptionAuthority : Pubkey
  userPaymentAccount : Pubkey
  swapPaymentAccount : Pubkey
  userAssetAccount : Pubkey
  paymentMint : Pubkey
  paymentTokenProgram : Pubkey
  router : Pubkey
  pythStorage : Pubkey
  pythTreasury : Pubkey
  deriving DecidableEq

structure RouteAccount where
  key : Pubkey
  isWritable : Bool
  deriving DecidableEq

namespace Deployment

variable (d : Deployment)

def isSwapTokenAccount (account : AccountInfo) : Bool :=
  (account.owner = d.tokenId ∨ account.owner = d.token2022Id) ∧
    d.unpackAccountOwner account.data = some d.swapAuthority

def isTokenAccount (account : AccountInfo) (tokenProgram mint owner : Pubkey) : Bool :=
  account.owner = tokenProgram ∧ d.unpackAccountMint account.data = some mint ∧
    d.unpackAccountOwner account.data = some owner

end Deployment

def amount (account : AccountInfo) : Result UInt64 := do
  require (72 ≤ account.data.length) LateriteError.invalidTokenAccount
  return UInt64.ofNat (LittleEndian.toNat ((account.data.take 72).drop 64))

variable (d : Deployment) (inv : Invocation)

def verifyPrice (accounts : Accounts) (ctx : SweepAccounts) (message : List UInt8)
    (ed25519Index : UInt16) (signatureIndex : UInt8) : Result Unit :=
  let call : VerifyMessage := {
    payer := ctx.crank
    storage := ctx.pythStorage
    treasury := ctx.pythTreasury
    messageData := message
    ed25519InstructionIndex := ed25519Index
    signatureIndex := signatureIndex }
  require (inv.programs.verifyMessage call accounts) ProgramError.invocation

def writableSwapAccounts (accounts : Accounts) (routeAccounts : List RouteAccount) : List Pubkey :=
  (routeAccounts.filter fun account =>
    account.isWritable && d.isSwapTokenAccount (accounts.info account.key)).map RouteAccount.key

def transferSubscription (ctx : SweepAccounts) (token : PaymentToken) (user : Pubkey)
    (total : UInt64) (accounts : Accounts) : Result Accounts :=
  let call : TransferSubscription := {
    subscriptionPda := ctx.subscription
    planPda := ctx.plan
    subscriptionAuthority := ctx.subscriptionAuthority
    delegatorAta := ctx.userPaymentAccount
    receiverAta := ctx.swapPaymentAccount
    caller := d.vault
    tokenMint := ctx.paymentMint
    tokenProgram := ctx.paymentTokenProgram
    amount := total
    delegator := user
    mint := token.mint }
  invoke [ctx.subscription, ctx.plan, ctx.subscriptionAuthority, ctx.userPaymentAccount,
    ctx.swapPaymentAccount, d.vault, ctx.paymentMint] (inv.programs.transferSubscription call) accounts

def swapThroughRouter (router : Pubkey) (route : List UInt8) (routeAccounts : List RouteAccount)
    (accounts : Accounts) : Result Accounts :=
  let call : RouterInstruction := {
    programId := router
    accounts := routeAccounts.map fun account =>
      ⟨account.key, account.key = d.swapAuthority, account.isWritable⟩
    data := route }
  invoke (routeAccounts.map RouteAccount.key) (inv.programs.router call) accounts

structure SweepPlan where
  config : Config
  userConfig : UserConfig
  token : PaymentToken
  asset : Asset
  today : UInt32
  pull : Pull
  total : UInt64

/-- Everything due, within the week's room, the cushion and the subscription's period. -/
def planSweep (chain : Chain) (ctx : SweepAccounts) (paymentToken : UInt8) : Result SweepPlan := do
  inv.requireSigner ctx.crank
  let config ← chain.loadConfig
  let userConfig ← chain.loadUserConfig ctx.userConfig
  require (ctx.router = config.router) LateriteError.invalidRouter
  require (¬config.paused) LateriteError.programPaused
  let index := paymentToken.toNat
  let token ← okOr config.paymentTokens[index]? LateriteError.unknownPaymentToken
  let today := UInt32.ofInt (inv.now / daySeconds)
  let lastDay ← orPanic userConfig.lastSweepDay[index]?
  require (today > lastDay) LateriteError.alreadySwept
  require (userConfig.engine ≠ .weekly ∨ usMarketOpen inv.now config.marketCalendar)
    LateriteError.nothingToSweep
  let balance ← amount (chain.accounts.info ctx.userPaymentAccount)
  let due ← userConfig.pull index balance config.userWeeklyCap config.marketCalendar inv.now
  let dueTotal ← due.total
  require (dueTotal > 0) LateriteError.nothingToSweep
  let isEnabled ← enables userConfig.paymentTokens index
  require isEnabled LateriteError.unknownPaymentToken
  require (ctx.paymentMint = token.mint) LateriteError.unknownPaymentToken
  require (ctx.paymentTokenProgram = token.tokenProgram) LateriteError.unknownPaymentToken
  let plan ← d.planAt index userConfig.tier.toNat
  require (ctx.plan = plan) LateriteError.subscriptionMismatch
  let pull ← due.capped (d.remaining (chain.accounts.info ctx.subscription) inv.now)
  let total ← pull.total
  require (total > 0) LateriteError.nothingToSweep
  let asset ← okOr config.assets[userConfig.asset.toNat]? LateriteError.unknownAsset
  require (d.isTokenAccount (chain.accounts.info ctx.userAssetAccount) asset.tokenProgram asset.mint
        userConfig.user ∧
      d.isTokenAccount (chain.accounts.info ctx.swapPaymentAccount) token.tokenProgram token.mint
        d.swapAuthority)
    LateriteError.invalidTokenAccount
  return ⟨config, userConfig, token, asset, today, pull, total⟩

def priceSweep (accounts : Accounts) (ctx : SweepAccounts) (plan : SweepPlan)
    (assetMessage paymentMessage : List UInt8) (ed25519Index : UInt16) :
    Result (Quote × UInt64) := do
  let assetQuote ← quote assetMessage plan.asset.pythFeedId inv.now
  let paymentQuote ← quote paymentMessage plan.token.usdFeedId inv.now
  let minimum ← minOut plan.total paymentQuote usdDecimals assetQuote plan.asset.decimals
  verifyPrice inv accounts ctx assetMessage ed25519Index 0
  if paymentMessage ≠ [] then do
    verifyPrice inv accounts ctx paymentMessage ed25519Index 1
    return (assetQuote, minimum)
  else return (assetQuote, minimum)

def swap (ctx : SweepAccounts) (plan : SweepPlan) (minimum : UInt64) (route : List UInt8)
    (routeAccounts : List RouteAccount) (accounts : Accounts) : Result (Accounts × UInt64) := do
  let swapAccounts := ctx.swapPaymentAccount :: writableSwapAccounts d accounts routeAccounts
  let assetBefore ← amount (accounts.info ctx.userAssetAccount)
  let pulled ← transferSubscription d inv ctx plan.token plan.userConfig.user plan.total accounts
  let swapped ← swapThroughRouter d inv ctx.router route routeAccounts pulled
  require (∀ key ∈ swapAccounts, (swapped key).data = (accounts key).data)
    LateriteError.swapAccountChanged
  require (∀ key ∈ writableSwapAccounts d swapped routeAccounts, key ∈ swapAccounts)
    LateriteError.swapAccountChanged
  let assetAfter ← amount (swapped.info ctx.userAssetAccount)
  let received := assetAfter.saturatingSub assetBefore
  require (received ≥ minimum) LateriteError.slippageExceeded
  return (swapped, received)

def sweep (chain : Chain) (ctx : SweepAccounts) (assetMessage paymentMessage : List UInt8)
    (ed25519Index : UInt16) (paymentToken : UInt8) (route : List UInt8)
    (routeAccounts : List RouteAccount) : Result (Event × Chain) := do
  let plan ← planSweep d inv chain ctx paymentToken
  let (assetQuote, minimum) ← priceSweep inv chain.accounts ctx plan assetMessage paymentMessage
    ed25519Index
  let (accounts, received) ← swap d inv ctx plan minimum route routeAccounts chain.accounts
  let recorded ← plan.userConfig.record plan.pull inv.now
  let lastSweepDay ← setAt recorded.lastSweepDay paymentToken.toNat plan.today
  let userConfig := { recorded with lastSweepDay := lastSweepDay }
  let event : Swept := {
    user := plan.userConfig.user
    paymentToken := paymentToken
    asset := userConfig.asset
    engine := plan.pull.engine
    pending := plan.pull.pending
    assetPrice := assetQuote.price
    assetExponent := assetQuote.exponent
    received := received
    minOut := minimum }
  return (.swept event, (chain.setAccounts accounts).setUserConfig ctx.userConfig userConfig)

end Laterite
