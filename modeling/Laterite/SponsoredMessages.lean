import Laterite.SponsoredGate
import Laterite.UserStates
import Mathlib.Data.List.Dedup

/-!
# The messages the client builds for the sponsor

What the client builds is rendered by its packages and by its own generated builders, put after the
compute budget and compiled with the sponsor paying the fee. Compiling gives an account one role over
the whole message: it signs in every instruction that names it once it signs in one, and so does the
fee payer.
-/

namespace Laterite.Sponsor

open CheckedComputation Client ByteCodecs

def configSeed : List UInt8 := ascii "config"

section

variable (d : Deployment)

def configAddress : Pubkey := (d.deriveProgramAddress [configSeed] d.id).1

def userConfigAddress (user : Pubkey) : Pubkey :=
  (d.deriveProgramAddress [userConfigSeed, user.toList] d.id).1

def getEnrollInstructionAsync (params : EnrollParams) (payer user : Pubkey) : Instruction where
  accounts := [⟨user, .readonlySigner⟩, ⟨payer, .writableSigner⟩, ⟨configAddress d, .writable⟩,
    ⟨userConfigAddress d user, .writable⟩, ⟨Pubkey.default, .readonly⟩]
  data := instructionDiscriminator .enroll ++ enrollParamsCodec.encode params
  programAddress := d.id

def getReactivateInstructionAsync (params : EnrollParams) (sponsor user : Pubkey) : Instruction where
  accounts := [⟨user, .readonlySigner⟩, ⟨sponsor, .readonlySigner⟩, ⟨configAddress d, .writable⟩,
    ⟨userConfigAddress d user, .writable⟩]
  data := instructionDiscriminator .reactivate ++ enrollParamsCodec.encode params
  programAddress := d.id

def RemainingAccount.toMeta (account : RemainingAccount) : AccountMeta :=
  ⟨account.address, if account.isWritable then .writable else .readonly⟩

def withRemainingAccounts (instruction : Instruction) (accounts : List RemainingAccount) :
    Instruction :=
  { instruction with accounts := instruction.accounts ++ accounts.map RemainingAccount.toMeta }

/-- The packages' builders, and the addresses an instruction of theirs lists that are not a wallet it
was given: programs, mints and what is derived. -/
structure Builders where
  build : Client.Instruction → Instruction
  others : Client.Instruction → List Pubkey

variable (builders : Builders)

def instructionOf : Client.Instruction → Instruction
  | .enroll params payer user remaining =>
    withRemainingAccounts (getEnrollInstructionAsync d params payer user) remaining
  | .reactivate params sponsor user remaining =>
    withRemainingAccounts (getReactivateInstructionAsync d params sponsor user) remaining
  | built => builders.build built

/-- The accounts an instruction names besides the wallets it is given. -/
def others : Client.Instruction → List Pubkey
  | .enroll _ _ user remaining =>
    configAddress d :: userConfigAddress d user :: Pubkey.default :: remaining.map RemainingAccount.address
  | .reactivate _ _ user remaining =>
    configAddress d :: userConfigAddress d user :: remaining.map RemainingAccount.address
  | built => builders.others built

def wallets : Client.Instruction → List Pubkey
  | .createAssociatedTokenIdempotent _ owner payer _ => [payer, owner]
  | .initSubscriptionAuthority owner payer _ _ _ => [owner, payer]
  | .subscribe _ _ _ _ _ payer _ subscriber _ => [subscriber, payer]
  | .resumeSubscription _ _ subscriber _ _ => [subscriber]
  | .revokeSubscription authority _ receiver _ => [authority, receiver]
  | .revokeAbandonedSubscription payer _ _ _ => [payer]
  | .enroll _ payer user _ => [user, payer]
  | .reactivate _ sponsor user _ => [user, sponsor]
  | _ => []

/-- The wallets among them that sign. -/
def signers : Client.Instruction → List Pubkey
  | .createAssociatedTokenIdempotent _ _ payer _ => [payer]
  | .revokeSubscription authority _ _ _ => [authority]
  | built => wallets built

def partOf : Client.Instruction → Option Part
  | .createAssociatedTokenIdempotent mint owner payer _ =>
    some (.createAssociatedTokenIdempotent ⟨payer, owner, mint⟩)
  | .initSubscriptionAuthority owner _ _ _ _ => some (.initSubscriptionAuthority ⟨owner⟩)
  | .subscribe _ _ _ _ merchant _ planId subscriber _ =>
    some (.subscribe ⟨subscriber, merchant, (d.deriveProgramAddress
      [d.planPrefix, merchant.toList, LittleEndian.bytes 8 planId] d.subscriptionsId).1⟩)
  | .resumeSubscription _ planPda subscriber _ _ => some (.resumeSubscription ⟨subscriber, planPda⟩)
  | .revokeSubscription authority _ _ subscriptionPda =>
    some (.revokeDelegation ⟨authority, subscriptionPda⟩)
  | .revokeAbandonedSubscription payer planPda subscriptionAccount _ =>
    some (.revokeAbandonedSubscription ⟨payer, planPda, subscriptionAccount⟩)
  | .enroll _ payer user _ => some (.enroll ⟨user, payer⟩)
  | .reactivate _ sponsor user _ => some (.reactivate ⟨user, sponsor⟩)
  | _ => none

end

def Instruction.addresses (self : Instruction) : List Pubkey := self.accounts.map AccountMeta.address

structure Carries (built instruction : Instruction) : Prop where
  programAddress : instruction.programAddress = built.programAddress
  data : instruction.data = built.data
  addresses : instruction.addresses = built.addresses

/-- A package's instruction that comes before Laterite's own. -/
def Earlier (d : Deployment) (built : Client.Instruction) (part : Part) : Prop :=
  partOf d built = some part ∧ part.joins = none

/-- What the packages are documented to do: an instruction is read back as the part it was built as,
lists each wallet it is given once, takes only a signer's signature, and has its payer last where the
program takes one there. -/
structure Builders.Documented (d : Deployment) (kit : Kit) (builders : Builders) : Prop where
  reads {built : Client.Instruction} {part : Part} {instruction : Instruction}
    (hpart : Earlier d built part) (hcarries : Carries (builders.build built) instruction) :
    kit.part d instruction = some part
  lists {built : Client.Instruction} {part : Part} {key : Pubkey} (hpart : Earlier d built part)
    (hkey : key ∉ builders.others built) :
    key ∈ (builders.build built).addresses ↔ key ∈ wallets built
  once {built : Client.Instruction} {part : Part} {key : Pubkey} (hpart : Earlier d built part)
    (hwallets : (wallets built).Nodup) (hkey : key ∉ builders.others built) :
    (builders.build built).addresses.count key ≤ 1
  signs {built : Client.Instruction} {part : Part} {account : AccountMeta}
    (hpart : Earlier d built part) (haccount : account ∈ (builders.build built).accounts)
    (hsigns : account.role.signs) : account.address ∈ signers built
  initPayer {owner payer : Pubkey} (hpayer : payer ≠ owner) (tokenMint tokenProgram userAta : Pubkey) :
    (builders.build (.initSubscriptionAuthority owner payer tokenMint tokenProgram
      userAta)).addresses.getLast? = some payer
  subscribePayer {payer subscriber : Pubkey} (hpayer : payer ≠ subscriber) (amount : UInt64)
    (createdAt : ℤ) (periodHours : UInt64) (initId : ℤ) (merchant : Pubkey) (planId : ℕ)
    (tokenMint : Pubkey) :
    (builders.build (.subscribe amount createdAt periodHours initId merchant payer planId subscriber
      tokenMint)).addresses.getLast? = some payer

def createSponsoredTransactionMessage (computeBudget : Pubkey) (computeUnitLimit computeUnitPrice : ℕ)
    (instructions : List Instruction) : List Instruction :=
  ⟨[], 2 :: LittleEndian.bytes 4 computeUnitLimit, computeBudget⟩ ::
    ⟨[], 3 :: LittleEndian.bytes 8 computeUnitPrice, computeBudget⟩ :: instructions

def AccountRole.writes : AccountRole → Bool
  | .writable | .writableSigner => true
  | .readonly | .readonlySigner => false

def AccountRole.of : (signs writes : Bool) → AccountRole
  | true, true => .writableSigner
  | true, false => .readonlySigner
  | false, true => .writable
  | false, false => .readonly

section

variable (feePayer : Pubkey) (message : List Instruction)

def addressesWith (role : AccountRole → Bool) : List Pubkey :=
  (feePayer :: ((message.flatMap Instruction.accounts).filter fun account =>
    role account.role).map AccountMeta.address).dedup

def Instruction.merge (self : Instruction) : Instruction :=
  { self with
    accounts := self.accounts.map fun account =>
      ⟨account.address, AccountRole.of
        (account.address ∈ addressesWith feePayer message AccountRole.signs)
        (account.address ∈ addressesWith feePayer message AccountRole.writes)⟩ }

def merged : List Instruction := message.map (Instruction.merge feePayer message)

@[simp] theorem addresses_merge (instruction : Instruction) :
    (instruction.merge feePayer message).addresses = instruction.addresses := by
  simp [Instruction.merge, Instruction.addresses, Function.comp_def]

theorem carries_merge (instruction : Instruction) :
    Carries instruction (instruction.merge feePayer message) :=
  ⟨rfl, rfl, addresses_merge feePayer message instruction⟩

@[simp] theorem signs_of (signs writes : Bool) : (AccountRole.of signs writes).signs = signs := by
  cases signs <;> cases writes <;> rfl

theorem sponsorSigns_merge (instruction : Instruction) :
    sponsorSigns feePayer (instruction.merge feePayer message) =
      instruction.addresses.count feePayer := by
  have hsigns : feePayer ∈ addressesWith feePayer message AccountRole.signs :=
    List.mem_dedup.mpr List.mem_cons_self
  unfold sponsorSigns Instruction.merge Instruction.addresses
  rw [← List.countP_eq_length_filter, List.countP_map, List.count, List.countP_map]
  apply List.countP_congr
  intro account _
  simp only [Function.comp_apply, signs_of, decide_eq_true_eq, beq_iff_eq]
  constructor
  · exact And.left
  · rintro rfl
    exact ⟨rfl, hsigns⟩

end

/-- The transaction holds the message as it is documented to be compiled: version 0, against the known
lookup tables, the fee payer first and then the other signers, each with a place for its signature,
and read back with merged roles. -/
structure Compiles (kit : Kit) (tables : LookupTables) (feePayer : Pubkey) (message : List Instruction)
    (transaction : Transaction) (compiled : CompiledMessage) : Prop where
  decodes : kit.decodeMessage transaction.messageBytes = some compiled
  version : compiled.version = some 0
  lookups : ∀ lookup ∈ compiled.addressTableLookups, (tables lookup.lookupTableAddress).isSome
  payer : compiled.staticAccounts[0]? = some feePayer
  header : compiled.header.numSignerAccounts =
    (addressesWith feePayer message AccountRole.signs).length
  static : (compiled.staticAccounts.take compiled.header.numSignerAccounts).Perm
    (addressesWith feePayer message AccountRole.signs)
  signatures : transaction.signatures.Perm (addressesWith feePayer message AccountRole.signs)
  decompiles : kit.decompileMessage compiled tables = some (merged feePayer message)

end Laterite.Sponsor
