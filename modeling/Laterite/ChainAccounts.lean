import Laterite.ProgramState
import Mathlib.Logic.Function.Basic

/-!
# The ledger an instruction runs on

The program's own accounts are kept by what derives their addresses: the config alone, a
user's settings by the user, an attestation record by the transfer it marks. Every other
account is an owner with data. The runtime lets a program write only the accounts passed
to it, and only the program itself writes the accounts it owns, so an invoked program can
change nothing but the passed accounts of others.
-/

namespace Laterite

open CheckedComputation

structure Account where
  owner : Pubkey
  data : List UInt8
  deriving DecidableEq, Repr

abbrev Accounts := Pubkey → Account

def Accounts.info (self : Accounts) (key : Pubkey) : AccountInfo :=
  ⟨key, (self key).owner, (self key).data⟩

structure TransferId where
  user : Pubkey
  signature : Vector UInt8 64
  transferIndex : UInt16
  deriving DecidableEq, Repr

def Attestation.transferId (self : Attestation) : TransferId :=
  ⟨self.user, self.signature, self.transferIndex⟩

structure Chain where
  config : Option Config
  userConfigs : Pubkey → Option UserConfig
  records : TransferId → Option AttestationRecord
  accounts : Accounts

/-- The ledger before `initialize`, whatever the other programs hold. -/
def Chain.genesis (accounts : Accounts) : Chain :=
  ⟨none, fun _ => none, fun _ => none, accounts⟩

namespace Chain

def setConfig (self : Chain) (config : Config) : Chain := { self with config := some config }

def setUserConfig (self : Chain) (user : Pubkey) (userConfig : UserConfig) : Chain :=
  { self with userConfigs := Function.update self.userConfigs user (some userConfig) }

def setRecord (self : Chain) (id : TransferId) (record : Option AttestationRecord) : Chain :=
  { self with records := Function.update self.records id record }

def setAccounts (self : Chain) (accounts : Accounts) : Chain := { self with accounts := accounts }

def loadConfig (self : Chain) : Result Config := okOr self.config AnchorError.accountNotInitialized

def loadUserConfig (self : Chain) (user : Pubkey) : Result UserConfig :=
  okOr (self.userConfigs user) AnchorError.accountNotInitialized

variable (self : Chain) (config : Config) (user : Pubkey) (userConfig : UserConfig)
  (id : TransferId) (record : Option AttestationRecord) (accounts : Accounts)

@[simp] theorem setConfig_config : (self.setConfig config).config = some config := rfl

@[simp] theorem setConfig_userConfigs : (self.setConfig config).userConfigs = self.userConfigs := rfl

@[simp] theorem setConfig_records : (self.setConfig config).records = self.records := rfl

@[simp] theorem setConfig_accounts : (self.setConfig config).accounts = self.accounts := rfl

@[simp] theorem setUserConfig_config : (self.setUserConfig user userConfig).config = self.config := rfl

@[simp] theorem setUserConfig_userConfigs : (self.setUserConfig user userConfig).userConfigs =
    Function.update self.userConfigs user (some userConfig) := rfl

@[simp] theorem setUserConfig_records : (self.setUserConfig user userConfig).records = self.records := rfl

@[simp] theorem setUserConfig_accounts :
    (self.setUserConfig user userConfig).accounts = self.accounts := rfl

@[simp] theorem setRecord_config : (self.setRecord id record).config = self.config := rfl

@[simp] theorem setRecord_userConfigs : (self.setRecord id record).userConfigs = self.userConfigs := rfl

@[simp] theorem setRecord_records :
    (self.setRecord id record).records = Function.update self.records id record := rfl

@[simp] theorem setRecord_accounts : (self.setRecord id record).accounts = self.accounts := rfl

@[simp] theorem setAccounts_config : (self.setAccounts accounts).config = self.config := rfl

@[simp] theorem setAccounts_userConfigs :
    (self.setAccounts accounts).userConfigs = self.userConfigs := rfl

@[simp] theorem setAccounts_records : (self.setAccounts accounts).records = self.records := rfl

@[simp] theorem setAccounts_accounts : (self.setAccounts accounts).accounts = accounts := rfl

@[simp] theorem loadConfig_eq_ok {c : Config} : self.loadConfig = .ok c ↔ self.config = some c :=
  okOr_eq_ok

@[simp] theorem loadUserConfig_eq_ok {u : UserConfig} :
    self.loadUserConfig user = .ok u ↔ self.userConfigs user = some u :=
  okOr_eq_ok

end Chain

/-- Pyth Pro's check of an update's signature entry in an ed25519 instruction. -/
structure VerifyMessage where
  payer : Pubkey
  storage : Pubkey
  treasury : Pubkey
  messageData : List UInt8
  ed25519InstructionIndex : UInt16
  signatureIndex : UInt8
  deriving DecidableEq

/-- Subscriptions' pull of a subscriber's tokens by the plan's owner. -/
structure TransferSubscription where
  subscriptionPda : Pubkey
  planPda : Pubkey
  subscriptionAuthority : Pubkey
  delegatorAta : Pubkey
  receiverAta : Pubkey
  caller : Pubkey
  tokenMint : Pubkey
  tokenProgram : Pubkey
  amount : UInt64
  delegator : Pubkey
  mint : Pubkey
  deriving DecidableEq

/-- Subscriptions' immediate end of a subscription by its user and its plan's owner. -/
structure CancelSubscriptionNow where
  subscriber : Pubkey
  merchant : Pubkey
  planPda : Pubkey
  subscriptionPda : Pubkey
  expectedCurrentPeriodStartTs : ℤ
  deriving DecidableEq

/-- Subscriptions' publication of a plan. -/
structure PublishPlan where
  merchant : Pubkey
  planPda : Pubkey
  tokenMint : Pubkey
  tokenProgram : Pubkey
  payer : Pubkey
  planId : ℕ
  amount : UInt64
  periodHours : UInt64
  destinations : List Pubkey
  deriving DecidableEq

structure AccountMeta where
  pubkey : Pubkey
  isSigner : Bool
  isWritable : Bool
  deriving DecidableEq

/-- The caller's route, as the sweep hands it to the router. -/
structure RouterInstruction where
  programId : Pubkey
  accounts : List AccountMeta
  data : List UInt8
  deriving DecidableEq

/-- How the other programs behave at one moment: each accepts with new accounts or fails. -/
structure Programs where
  verifyMessage : VerifyMessage → Accounts → Bool
  transferSubscription : TransferSubscription → Accounts → Option Accounts
  cancelSubscriptionNow : CancelSubscriptionNow → Accounts → Option Accounts
  createPlan : PublishPlan → Accounts → Option Accounts
  router : RouterInstruction → Accounts → Option Accounts

/-- Invoke a program: it may change only the accounts passed to it. -/
def invoke (passed : List Pubkey) (program : Accounts → Option Accounts) (accounts : Accounts) :
    Result Accounts :=
  match program accounts with
  | some after => .ok fun key => if key ∈ passed then after key else accounts key
  | none => .error (.error .invocation)

theorem invoke_eq_ok {passed : List Pubkey} {program : Accounts → Option Accounts}
    {accounts accounts' : Accounts} :
    invoke passed program accounts = .ok accounts' ↔
      ∃ after, program accounts = some after ∧
        (fun key => if key ∈ passed then after key else accounts key) = accounts' := by
  unfold invoke
  cases program accounts <;> simp

theorem noPanic_invoke (passed : List Pubkey) (program : Accounts → Option Accounts)
    (accounts : Accounts) : NoPanic (invoke passed program accounts) := by
  unfold invoke
  split
  · exact NoPanic.ok _
  · exact NoPanic.refusal _

/-- The keys whose signatures the runtime verified. The default key is the system program's
address: it signs nothing. -/
structure Signers where
  keys : List Pubkey
  default_notMem : Pubkey.default ∉ keys

structure InstructionData where
  programId : Pubkey
  data : List UInt8
  deriving DecidableEq

/-- The clock, the signers, the instruction just before, and the other programs. The clock's
time is a signed 64-bit word. -/
structure Invocation where
  now : ℤ
  now_bounds : I64.minValue ≤ now ∧ now ≤ I64.maxValue
  signers : Signers
  previousInstruction : Option InstructionData
  programs : Programs

def Invocation.requireSigner (self : Invocation) (key : Pubkey) : Result Unit :=
  require (key ∈ self.signers.keys) AnchorError.accountNotSigner

/-- What a sweep reports. -/
structure Swept where
  user : Pubkey
  paymentToken : UInt8
  asset : UInt8
  engine : UInt64
  pending : UInt64
  assetPrice : UInt64
  assetExponent : Int16
  received : UInt64
  minOut : UInt64
  deriving DecidableEq, Repr

inductive Event where
  | configInitialized (params : ConfigParams)
  | settingsUpdated (settings : Settings)
  | pausedSet (paused : Bool)
  | marketCalendarSet (holidays earlyCloses : List UInt16) (validThrough : UInt16)
  | adminProposed (pendingAdmin : Pubkey)
  | adminAccepted (admin : Pubkey)
  | planCreated (paymentToken tier : UInt8) (plan : Pubkey)
  | enrolled (user : Pubkey) (tier paymentTokens asset : UInt8)
  | attested (attestation : Attestation) (invested pending : UInt64)
  | swept (event : Swept)
  | userSettingsUpdated (user : Pubkey) (params : EnrollParams)
  | userPaused (user : Pubkey) (paused : Bool)
  | pendingLowered (user : Pubkey) (pending : UInt64)
  | tierChanged (user : Pubkey) (tier : UInt8)
  | paymentTokensChanged (user : Pubkey) (paymentTokens : UInt8)
  | exited (user : Pubkey)
  | reactivated (user : Pubkey) (tier paymentTokens asset : UInt8)
  deriving DecidableEq

end Laterite
