import Laterite.EventEncodings
import Laterite.Sponsorships

/-!
# The messages the sponsor signs

Before it signs, the sponsor reads a message back into instructions and looks at each: the compute
budget first, then the parts of an onboarding or of a reactivation. The answer is the first problem
it finds; a package that throws where nothing catches it leaves none.
-/

namespace Laterite.Sponsor

open CheckedComputation Client

inductive AccountRole where
  | readonly
  | writable
  | readonlySigner
  | writableSigner
  deriving DecidableEq

def AccountRole.signs : AccountRole → Bool
  | .readonlySigner | .writableSigner => true
  | .readonly | .writable => false

structure AccountMeta where
  address : Pubkey
  role : AccountRole
  deriving DecidableEq

structure Instruction where
  accounts : List AccountMeta
  data : List UInt8
  programAddress : Pubkey
  deriving DecidableEq

structure MessageHeader where
  numReadonlyNonSignerAccounts : ℕ
  numReadonlySignerAccounts : ℕ
  numSignerAccounts : ℕ
  deriving DecidableEq

structure CompiledInstruction where
  accountIndices : List ℕ
  data : List UInt8
  programAddressIndex : ℕ
  deriving DecidableEq

/-- The accounts a message takes from a lookup table, by their places in it. -/
structure AddressTableLookup where
  lookupTableAddress : Pubkey
  readonlyIndexes : List ℕ
  writableIndexes : List ℕ
  deriving DecidableEq

structure CompiledMessage where
  addressTableLookups : List AddressTableLookup
  header : MessageHeader
  instructions : List CompiledInstruction
  lifetimeToken : Vector UInt8 32
  staticAccounts : List Pubkey
  /-- None for a legacy message. -/
  version : Option ℕ
  deriving DecidableEq

/-- The addresses of each lookup table that is known. -/
abbrev LookupTables := Pubkey → Option (List Pubkey)

structure Transaction where
  messageBytes : List UInt8
  signatures : List Pubkey
  nodup : signatures.Nodup

inductive AssociatedTokenInstruction where
  | createAssociatedTokenIdempotent
  | other
  deriving DecidableEq

inductive SubscriptionsInstruction where
  | initSubscriptionAuthority
  | subscribe
  | resumeSubscription
  | revokeDelegation
  | revokeAbandonedSubscription
  | other
  deriving DecidableEq

structure CreateAssociatedTokenIdempotent where
  payer : Pubkey
  owner : Pubkey
  mint : Pubkey
  deriving DecidableEq

structure InitSubscriptionAuthority where
  owner : Pubkey
  deriving DecidableEq

structure Subscribe where
  subscriber : Pubkey
  merchant : Pubkey
  planPda : Pubkey
  deriving DecidableEq

structure ResumeSubscription where
  subscriber : Pubkey
  planPda : Pubkey
  deriving DecidableEq

structure RevokeDelegation where
  authority : Pubkey
  delegationAccount : Pubkey
  deriving DecidableEq

structure RevokeAbandonedSubscription where
  payer : Pubkey
  planPda : Pubkey
  subscriptionAccount : Pubkey
  deriving DecidableEq

structure Enroll where
  user : Pubkey
  payer : Pubkey
  deriving DecidableEq

structure Reactivate where
  user : Pubkey
  sponsor : Pubkey
  deriving DecidableEq

/-- What the gate uses of its packages. A function that throws gives nothing. -/
structure Kit where
  computeBudget : Pubkey
  associatedTokenProgram : Pubkey
  decodeMessage : List UInt8 → Option CompiledMessage
  decompileMessage : CompiledMessage → LookupTables → Option (List Instruction)
  /-- The limit the message sets, if it sets one. -/
  computeUnitLimit : List Instruction → Option (Option ℕ)
  computeUnitPrice : List Instruction → Option (Option ℕ)
  identifyAssociatedToken : List UInt8 → Option AssociatedTokenInstruction
  identifySubscriptions : List UInt8 → Option SubscriptionsInstruction
  parseCreateAssociatedTokenIdempotent : Instruction → Option CreateAssociatedTokenIdempotent
  parseInitSubscriptionAuthority : Instruction → Option InitSubscriptionAuthority
  parseSubscribe : Instruction → Option Subscribe
  parseResumeSubscription : Instruction → Option ResumeSubscription
  parseRevokeDelegation : Instruction → Option RevokeDelegation
  parseRevokeAbandonedSubscription : Instruction → Option RevokeAbandonedSubscription

def parseEnrollInstruction (instruction : Instruction) : Option Enroll :=
  match instruction.accounts with
  | user :: payer :: _config :: _userConfig :: _systemProgram :: _ =>
    (enrollParamsCodec.read (instruction.data.drop 8)).map fun _ => ⟨user.address, payer.address⟩
  | _ => none

def parseReactivateInstruction (instruction : Instruction) : Option Reactivate :=
  match instruction.accounts with
  | user :: sponsor :: _config :: _userConfig :: _ =>
    (enrollParamsCodec.read (instruction.data.drop 8)).map fun _ => ⟨user.address, sponsor.address⟩
  | _ => none

/-- The compute-unit price the sponsor pays, in micro-lamports, at most. -/
def priorityFeeCeiling : ℕ := 100000

def sponsorMaxUnits : ℕ := 150000

/-- What a sponsored message may contain, and whom it must name. -/
structure ShapeContext where
  config : Laterite.Config
  kind : Kind
  lookupTable : LookupTables
  sponsor : Pubkey
  user : Pubkey

/-- What an instruction of the message is checked against. -/
structure Shape where
  assets : List Pubkey
  index : ℕ
  kind : Kind
  last : ℕ
  plans : List Pubkey
  sponsor : Pubkey
  sponsorSigns : ℕ
  user : Pubkey
  vault : Pubkey

/-- The instruction is the payer's: the sponsor, whose signature it carries once. -/
def Shape.paid (self : Shape) (payer : Pubkey) : Checked String Unit :=
  require (payer = self.sponsor ∧ self.sponsorSigns = 1) "the sponsor signs it but not as its payer"

def Shape.unpaid (self : Shape) : Checked String Unit :=
  require (self.sponsorSigns = 0) "the sponsor signs it"

def foreign : Kind → Checked String Unit
  | .enroll => .error (.error "it is not part of onboarding")
  | .reactivate => .error (.error "it is not part of a reactivation")

def caught (text : String) : Checked String Unit → Checked String Unit
  | .error .panic => .error (.error text)
  | answer => answer

variable (d : Deployment) (kit : Kit)

def associatedTokenProblem (instruction : Instruction) (shape : Shape) : Checked String Unit := do
  let name ← orPanic (kit.identifyAssociatedToken instruction.data)
  match name with
  | .createAssociatedTokenIdempotent => do
    let accounts ← orPanic (kit.parseCreateAssociatedTokenIdempotent instruction)
    require (accounts.owner = shape.user) "the account is not the user's"
    require (accounts.mint ∈ shape.assets) "the mint is not an asset"
    shape.paid accounts.payer
  | .other => foreign shape.kind

def subscriptionsProblem (instruction : Instruction) (shape : Shape) : Checked String Unit := do
  let name ← orPanic (kit.identifySubscriptions instruction.data)
  match name with
  | .initSubscriptionAuthority => do
    let accounts ← orPanic (kit.parseInitSubscriptionAuthority instruction)
    require (accounts.owner = shape.user) "the authority is not the user's"
    let payer ← orPanic instruction.accounts.getLast?
    shape.paid payer.address
  | .subscribe => do
    let accounts ← orPanic (kit.parseSubscribe instruction)
    require (accounts.subscriber = shape.user) "the subscriber is not the user"
    require (accounts.merchant = shape.vault) "the plan is not Laterite's"
    require (accounts.planPda ∈ shape.plans) "the plan is not Laterite's"
    let payer ← orPanic instruction.accounts.getLast?
    shape.paid payer.address
  | .resumeSubscription => do
    let accounts ← orPanic (kit.parseResumeSubscription instruction)
    require (accounts.subscriber = shape.user) "the subscriber is not the user"
    require (accounts.planPda ∈ shape.plans) "the plan is not Laterite's"
    shape.unpaid
  | .revokeDelegation => do
    let accounts ← orPanic (kit.parseRevokeDelegation instruction)
    require (accounts.authority = shape.user) "the user does not close it"
    shape.unpaid
  | .revokeAbandonedSubscription => do
    let accounts ← orPanic (kit.parseRevokeAbandonedSubscription instruction)
    require (accounts.planPda ∈ shape.plans) "the plan is not Laterite's"
    shape.paid accounts.payer
  | .other => foreign shape.kind

def lateriteProblem (instruction : Instruction) (shape : Shape) : Checked String Unit := do
  let type ← orPanic (identifyLateriteInstruction instruction.data)
  match shape.kind, type with
  | .enroll, .enroll => do
    let accounts ← orPanic (parseEnrollInstruction instruction)
    require (accounts.user = shape.user) "the user does not enroll"
    shape.paid accounts.payer
  | .reactivate, .reactivate => do
    let accounts ← orPanic (parseReactivateInstruction instruction)
    require (accounts.user = shape.user) "the user does not return"
    shape.paid accounts.sponsor
  | kind, _ => foreign kind

def instructionProblem (instruction : Instruction) (shape : Shape) : Checked String Unit :=
  caught "it does not parse" <|
    if instruction.programAddress = kit.associatedTokenProgram then
      if shape.index = shape.last then foreign shape.kind
      else associatedTokenProblem kit instruction shape
    else if instruction.programAddress = d.subscriptionsId then
      if shape.index = shape.last then foreign shape.kind
      else subscriptionsProblem kit instruction shape
    else if instruction.programAddress = d.id then
      if shape.index ≠ shape.last then foreign shape.kind
      else lateriteProblem instruction shape
    else foreign shape.kind

/-- A compute-budget instruction; the first byte of its data names it. -/
def Kit.budget (instruction : Instruction) (kind : UInt8) : Prop :=
  instruction.programAddress = kit.computeBudget ∧ instruction.data.head? = some kind

instance (instruction : Instruction) (kind : UInt8) : Decidable (kit.budget instruction kind) :=
  inferInstanceAs (Decidable (_ ∧ _))

def sponsorSigns (sponsor : Pubkey) (instruction : Instruction) : ℕ :=
  (instruction.accounts.filter fun account => account.address = sponsor ∧ account.role.signs).length

def numbered (index : ℕ) : Checked String Unit → Checked String Unit
  | .error (.error problem) => .error (.error s!"instruction {index + 2}: {problem}")
  | answer => answer

def ShapeContext.plans : List Pubkey :=
  [0, 1].flatMap fun token => [0, 1].map fun tier => d.plan token tier

def ShapeContext.shape (self : ShapeContext) (body : List Instruction) (instruction : Instruction)
    (index : ℕ) : Shape where
  assets := self.config.assets.toList.map Asset.mint
  index := index
  kind := self.kind
  last := body.length - 1
  plans := plans d
  sponsor := self.sponsor
  sponsorSigns := sponsorSigns self.sponsor instruction
  user := self.user
  vault := d.vault

def messageProblem (message : List Instruction) (context : ShapeContext) : Checked String Unit := do
  let body := message.drop 2
  require (∃ limit ∈ message[0]?, kit.budget limit 2) "the compute-unit limit is not first"
  require (∃ price ∈ message[1]?, kit.budget price 3) "the compute-unit price is not second"
  require (∀ instruction ∈ body, instruction.programAddress ≠ kit.computeBudget)
    "the compute budget is set twice"
  let limit ← orPanic (kit.computeUnitLimit message)
  require (∃ units ∈ limit, units ≤ sponsorMaxUnits) "the compute-unit limit is too high"
  let price ← orPanic (kit.computeUnitPrice message)
  require (price.getD 0 ≤ priorityFeeCeiling) "the compute-unit price is too high"
  forEach (fun (instruction, index) => numbered index
    (instructionProblem d kit instruction (context.shape d body instruction index))) body.zipIdx
  require (body ≠ []) "the message has no instruction to sponsor"

def shapeProblem (transaction : Transaction) (context : ShapeContext) : Checked String Unit := do
  let compiled ← okOr (kit.decodeMessage transaction.messageBytes) "the message does not decode"
  require (compiled.version = some 0) "the message is not version 0"
  require (∀ lookup ∈ compiled.addressTableLookups,
      (context.lookupTable lookup.lookupTableAddress).isSome)
    "the message uses another lookup table"
  require (compiled.header.numSignerAccounts = 2) "the message needs other signers"
  require (compiled.staticAccounts[0]? = some context.sponsor) "the sponsor is not the fee payer"
  require (compiled.staticAccounts[1]? = some context.user) "the user is not the second signer"
  require (transaction.signatures.length = 2 ∧ context.sponsor ∈ transaction.signatures ∧
      context.user ∈ transaction.signatures)
    "the transaction names other signers"
  let message ← okOr (kit.decompileMessage compiled context.lookupTable)
    "the message does not decompile against the lookup table"
  messageProblem d kit message context

end Laterite.Sponsor
