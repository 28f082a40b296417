import Laterite.ProgramConstants
import Laterite.ProgramErrors

/-!
# The program's accounts and the checks on what fills them

The config, the users' settings and counters, the attestation records, and the parameters
that initialize and change them.
-/

namespace Laterite

open CheckedComputation

structure Asset where
  mint : Pubkey
  tokenProgram : Pubkey
  decimals : UInt8
  pythFeedId : UInt32
  deriving DecidableEq, Repr

/-- A stablecoin users are pulled in; feed 0 prices it at one dollar. -/
structure PaymentToken where
  mint : Pubkey
  tokenProgram : Pubkey
  decimals : UInt8
  usdFeedId : UInt32
  deriving DecidableEq, Repr

/-- The NYSE closures, one bit per day: bit `i` stands for day `firstDay + i`. -/
structure MarketCalendar where
  firstDay : UInt16
  validThrough : UInt16
  holidays : Vector UInt8 (calendarDays / 8)
  earlyCloses : Vector UInt8 (calendarDays / 8)
  deriving DecidableEq, Repr

def MarketCalendar.default : MarketCalendar :=
  ⟨0, 0, Vector.replicate _ 0, Vector.replicate _ 0⟩

/-- Global settings. -/
structure Config where
  admin : Pubkey
  /-- The default key when no handover is pending. -/
  pendingAdmin : Pubkey
  paused : Bool
  router : Pubkey
  attestor : Pubkey
  sponsor : Pubkey
  userWeeklyCap : UInt64
  maxUsers : UInt32
  userCount : UInt32
  assets : Vector Asset assetCount
  paymentTokens : Vector PaymentToken paymentTokenCount
  marketCalendar : MarketCalendar
  genesisHash : Vector UInt8 32
  deriving DecidableEq, Repr

/-- What the admin can change after initialization. -/
structure Settings where
  attestor : Pubkey
  sponsor : Pubkey
  userWeeklyCap : UInt64
  maxUsers : UInt32
  deriving DecidableEq, Repr

/-- Everything `initialize` sets. -/
structure ConfigParams where
  settings : Settings
  assets : Vector Asset assetCount
  paymentTokens : Vector PaymentToken paymentTokenCount
  genesisHash : Vector UInt8 32
  router : Pubkey
  deriving DecidableEq, Repr

structure AccountInfo where
  key : Pubkey
  owner : Pubkey
  data : List UInt8
  deriving DecidableEq, Repr

def Settings.validate (self : Settings) : Result Unit := do
  require (self.attestor ≠ Pubkey.default) LateriteError.invalidAttestor
  require (self.sponsor ≠ Pubkey.default) LateriteError.invalidSponsor
  require (self.userWeeklyCap > 0 ∧ self.maxUsers > 0) LateriteError.invalidCap

def mintMatches (d : Deployment) (account : AccountInfo) (mint tokenProgram : Pubkey)
    (decimals : UInt8) : Bool :=
  let isTokenProgram := tokenProgram = d.tokenId ∨ tokenProgram = d.token2022Id
  if account.key ≠ mint ∨ account.owner ≠ tokenProgram ∨ ¬isTokenProgram then false
  else d.mintDecimals account.data = some decimals

def ConfigParams.validate (d : Deployment) (self : ConfigParams) (mints : List AccountInfo) :
    Result Unit := do
  self.settings.validate
  require (self.router ≠ Pubkey.default) LateriteError.invalidRouter
  require (self.genesisHash ≠ Vector.replicate 32 0) LateriteError.invalidGenesisHash
  require (mints.length ≥ assetCount + paymentTokenCount) AnchorError.accountNotEnoughKeys
  forEach (fun (asset, mint) =>
      require (asset.pythFeedId ≠ 0 ∧ mintMatches d mint asset.mint asset.tokenProgram asset.decimals)
        LateriteError.invalidAsset)
    (self.assets.toList.zip mints)
  let rest ← sliceFrom mints assetCount
  forEach (fun (token, mint) =>
      require (token.decimals = usdDecimals ∧
          mintMatches d mint token.mint token.tokenProgram token.decimals)
        LateriteError.invalidPaymentToken)
    (self.paymentTokens.toList.zip rest)

/-- Applies the settings; the rest of the config is left untouched. -/
def Config.apply (self : Config) (settings : Settings) : Config :=
  { self with
    attestor := settings.attestor
    sponsor := settings.sponsor
    userWeeklyCap := settings.userWeeklyCap
    maxUsers := settings.maxUsers }

inductive UserStatus where
  | active
  | paused
  | exited
  deriving DecidableEq, Repr

inductive Engine where
  | daily
  | weekly
  deriving DecidableEq, Repr

/-- Which rule an attested transfer feeds. -/
inductive EventKind where
  | income
  | payment
  deriving DecidableEq, Repr

structure UserConfig where
  user : Pubkey
  tier : UInt8
  /-- Bit `i` set when payment token `i` is enabled. -/
  paymentTokens : UInt8
  asset : UInt8
  engine : Engine
  engineAmount : UInt64
  incomeRule : Bool
  changeMultiplier : UInt8
  cushions : Vector UInt64 paymentTokenCount
  enrolledAt : ℤ
  goalAmount : UInt64
  goalLabel : Vector UInt8 32
  bump : UInt8
  /-- The week `weekSpent` counts, from enrollment. -/
  week : UInt32
  weekSpent : UInt64
  /-- When the engine last bought; before `enrolledAt` when it never has. -/
  engineRanAt : ℤ
  pending : UInt64
  status : UserStatus
  /-- Block time of the earliest transfer that can be attested. -/
  attestableFrom : ℤ
  /-- Per payment token, the UTC day of its last sweep. -/
  lastSweepDay : Vector UInt32 paymentTokenCount
  deriving DecidableEq, Repr

structure Attestation where
  kind : EventKind
  user : Pubkey
  paymentToken : UInt8
  amount : UInt64
  eventTime : Int64
  signature : Vector UInt8 64
  transferIndex : UInt16
  deriving DecidableEq, Repr

structure AttestationRecord where
  payer : Pubkey
  expiresAt : ℤ
  deriving DecidableEq, Repr

structure EnrollParams where
  tier : UInt8
  paymentTokens : UInt8
  asset : UInt8
  engine : Engine
  engineAmount : UInt64
  incomeRule : Bool
  changeMultiplier : UInt8
  cushions : Vector UInt64 paymentTokenCount
  goalAmount : UInt64
  goalLabel : Vector UInt8 32
  deriving DecidableEq, Repr

/-- The cleared settings of a user who exited. -/
def EnrollParams.default : EnrollParams :=
  ⟨0, 0, 0, .daily, 0, false, 0, Vector.replicate _ 0, 0, Vector.replicate _ 0⟩

def EnrollParams.validateRules (self : EnrollParams) : Result Unit := do
  let cap ← okOr tiers[self.tier.toNat]? LateriteError.invalidTier
  require (self.asset.toNat < assetCount) LateriteError.unknownAsset
  require (self.paymentTokens ≠ 0) LateriteError.noPaymentToken
  require (self.paymentTokens >>> UInt8.ofNat paymentTokenCount = 0) LateriteError.unknownPaymentToken
  let invests := self.engineAmount > 0 ∨ self.incomeRule ∨ self.changeMultiplier > 0
  require (invests ∧ self.changeMultiplier ≤ 3 ∧ self.engineAmount ≤ cap) LateriteError.invalidRules

def EnrollParams.validate (self : EnrollParams) (config : Config) : Result Unit := do
  let cap ← okOr tiers[self.tier.toNat]? LateriteError.invalidTier
  require (config.userWeeklyCap ≥ cap) LateriteError.capAboveBetaLimit
  self.validateRules

/-- Writes the settings the user chose, field by field; the counters are left as they are. -/
def UserConfig.setSettings (self : UserConfig) (params : EnrollParams) : UserConfig :=
  { self with
    tier := params.tier
    paymentTokens := params.paymentTokens
    asset := params.asset
    engine := params.engine
    engineAmount := params.engineAmount
    incomeRule := params.incomeRule
    changeMultiplier := params.changeMultiplier
    cushions := params.cushions
    goalAmount := params.goalAmount
    goalLabel := params.goalLabel }

/-- Credits only transfers from `now` on; `attestableFrom` is never lowered. -/
def UserConfig.raiseAttestableFrom (self : UserConfig) (now : ℤ) : UserConfig :=
  { self with attestableFrom := max self.attestableFrom now }

end Laterite
