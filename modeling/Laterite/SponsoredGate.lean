import Laterite.SponsoredShape
import Laterite.SweepForetelling

/-!
# What the sponsor's signature is good for

Each instruction the gate lets through is a part of an onboarding or of a reactivation, names this
user and is paid by the sponsor or not signed by it at all. Whose records the parts write follows
from whom they name, but for the closing of a delegation, whose account names no wallet; and who pays
is read from the last account where a program takes its payer from a place of its own.
-/

namespace Laterite.Sponsor

open CheckedComputation Client ByteCodecs

/-- What an instruction does, with the accounts its program reads. -/
inductive Part where
  | createAssociatedTokenIdempotent (accounts : CreateAssociatedTokenIdempotent)
  | initSubscriptionAuthority (accounts : InitSubscriptionAuthority)
  | subscribe (accounts : Subscribe)
  | resumeSubscription (accounts : ResumeSubscription)
  | revokeDelegation (accounts : RevokeDelegation)
  | revokeAbandonedSubscription (accounts : RevokeAbandonedSubscription)
  | enroll (accounts : Enroll)
  | reactivate (accounts : Reactivate)
  deriving DecidableEq

section

variable (d : Deployment) (kit : Kit)

def Kit.associatedTokenPart (instruction : Instruction) : Option Part :=
  match kit.identifyAssociatedToken instruction.data with
  | some .createAssociatedTokenIdempotent =>
    (kit.parseCreateAssociatedTokenIdempotent instruction).map .createAssociatedTokenIdempotent
  | _ => none

def Kit.subscriptionsPart (instruction : Instruction) : Option Part :=
  match kit.identifySubscriptions instruction.data with
  | some .initSubscriptionAuthority =>
    (kit.parseInitSubscriptionAuthority instruction).map .initSubscriptionAuthority
  | some .subscribe => (kit.parseSubscribe instruction).map .subscribe
  | some .resumeSubscription => (kit.parseResumeSubscription instruction).map .resumeSubscription
  | some .revokeDelegation => (kit.parseRevokeDelegation instruction).map .revokeDelegation
  | some .revokeAbandonedSubscription =>
    (kit.parseRevokeAbandonedSubscription instruction).map .revokeAbandonedSubscription
  | _ => none

def lateritePart (instruction : Instruction) : Option Part :=
  match identifyLateriteInstruction instruction.data with
  | some .enroll => (parseEnrollInstruction instruction).map .enroll
  | some .reactivate => (parseReactivateInstruction instruction).map .reactivate
  | _ => none

def Kit.part (instruction : Instruction) : Option Part :=
  if instruction.programAddress = kit.associatedTokenProgram then kit.associatedTokenPart instruction
  else if instruction.programAddress = d.subscriptionsId then kit.subscriptionsPart instruction
  else if instruction.programAddress = d.id then lateritePart instruction
  else none

namespace Part

/-- The part names `user`, an asset of the table and Laterite's plans, where it names such. -/
def Names (assets plans : List Pubkey) (vault user : Pubkey) : Part → Prop
  | createAssociatedTokenIdempotent accounts => accounts.owner = user ∧ accounts.mint ∈ assets
  | initSubscriptionAuthority accounts => accounts.owner = user
  | subscribe accounts =>
    accounts.subscriber = user ∧ accounts.merchant = vault ∧ accounts.planPda ∈ plans
  | resumeSubscription accounts => accounts.subscriber = user ∧ accounts.planPda ∈ plans
  | revokeDelegation accounts => accounts.authority = user
  | revokeAbandonedSubscription accounts => accounts.planPda ∈ plans
  | enroll accounts => accounts.user = user
  | reactivate accounts => accounts.user = user

/-- Whom the gate takes for the payer: the last account where the payer is one of those an
instruction may leave out. -/
def readPayer (instruction : Instruction) : Part → Option Pubkey
  | createAssociatedTokenIdempotent accounts => some accounts.payer
  | initSubscriptionAuthority _ | subscribe _ =>
    instruction.accounts.getLast?.map AccountMeta.address
  | resumeSubscription _ | revokeDelegation _ => none
  | revokeAbandonedSubscription accounts => some accounts.payer
  | enroll accounts => some accounts.payer
  | reactivate accounts => some accounts.sponsor

/-- Who pays for the part. Subscriptions takes the payer of an authority from the seventh account and
that of a subscription from the ninth; left out, the owner and the subscriber pay. -/
def payer (instruction : Instruction) : Part → Option Pubkey
  | initSubscriptionAuthority accounts =>
    some ((instruction.accounts[6]?.map AccountMeta.address).getD accounts.owner)
  | subscribe accounts =>
    some ((instruction.accounts[8]?.map AccountMeta.address).getD accounts.subscriber)
  | self => self.readPayer instruction

/-- What the part takes a seat for. -/
def joins : Part → Option Kind
  | enroll _ => some .enroll
  | reactivate _ => some .reactivate
  | _ => none

/-- The sponsor signs the part once, as its payer, or not at all where nobody pays for it. -/
def Charged (sponsor : Pubkey) (signs : ℕ) (instruction : Instruction) : Part → Prop
  | resumeSubscription _ | revokeDelegation _ => signs = 0
  | self => self.readPayer instruction = some sponsor ∧ signs = 1

/-- The part is the last of an `enroll` or a `reactivate`, or one that comes before. -/
def Placed (kind : Kind) (last : Prop) (self : Part) : Prop :=
  self.joins = some kind ∧ last ∨ self.joins = none ∧ ¬last

/-- What the gate asks of a part. -/
structure Passes (shape : Shape) (instruction : Instruction) (part : Part) : Prop where
  names : part.Names shape.assets shape.plans shape.vault shape.user
  placed : part.Placed shape.kind (shape.index = shape.last)
  charged : part.Charged shape.sponsor shape.sponsorSigns instruction

end Part

variable {d kit} {instruction : Instruction} {shape : Shape}

theorem caught_eq_ok {text : String} {answer : Checked String Unit} :
    caught text answer = .ok () ↔ answer = .ok () := by
  unfold caught
  split <;> simp

theorem numbered_eq_ok {index : ℕ} {answer : Checked String Unit} :
    numbered index answer = .ok () ↔ answer = .ok () := by
  unfold numbered
  split <;> simp

theorem not_foreign {kind : Kind} : foreign kind ≠ .ok () := by
  cases kind <;> simp [foreign]

theorem associatedTokenProblem_eq_ok :
    associatedTokenProblem kit instruction shape = .ok () ↔
      ∃ part, kit.associatedTokenPart instruction = some part ∧
        part.Names shape.assets shape.plans shape.vault shape.user ∧
        part.Charged shape.sponsor shape.sponsorSigns instruction := by
  unfold associatedTokenProblem Kit.associatedTokenPart
  cases kit.identifyAssociatedToken instruction.data with
  | none => simp
  | some name =>
    cases name with
    | other => simp [not_foreign]
    | createAssociatedTokenIdempotent =>
      cases kit.parseCreateAssociatedTokenIdempotent instruction with
      | none => simp
      | some accounts =>
        simp [Shape.paid, Part.Names, Part.Charged, Part.readPayer, and_assoc]

theorem subscriptionsProblem_eq_ok :
    subscriptionsProblem kit instruction shape = .ok () ↔
      ∃ part, kit.subscriptionsPart instruction = some part ∧
        part.Names shape.assets shape.plans shape.vault shape.user ∧
        part.Charged shape.sponsor shape.sponsorSigns instruction := by
  unfold subscriptionsProblem Kit.subscriptionsPart
  cases kit.identifySubscriptions instruction.data with
  | none => simp
  | some name =>
    cases name with
    | other => simp [not_foreign]
    | initSubscriptionAuthority =>
      cases kit.parseInitSubscriptionAuthority instruction with
      | none => simp
      | some accounts =>
        simp [Shape.paid, Part.Names, Part.Charged, Part.readPayer, ← and_assoc]
    | subscribe =>
      cases kit.parseSubscribe instruction with
      | none => simp
      | some accounts =>
        simp only [bind_eq_ok, orPanic_eq_ok, require_eq_ok, Shape.paid, exists_const, Option.map_some,
          Option.some.injEq, exists_eq_left', Part.Names, Part.Charged, Part.readPayer, and_assoc,
          Option.map_eq_some_iff]
        simp only [← and_assoc, exists_and_right]
    | resumeSubscription =>
      cases kit.parseResumeSubscription instruction with
      | none => simp
      | some accounts => simp [Shape.unpaid, Part.Names, Part.Charged, and_assoc]
    | revokeDelegation =>
      cases kit.parseRevokeDelegation instruction with
      | none => simp
      | some accounts => simp [Shape.unpaid, Part.Names, Part.Charged]
    | revokeAbandonedSubscription =>
      cases kit.parseRevokeAbandonedSubscription instruction with
      | none => simp
      | some accounts => simp [Shape.paid, Part.Names, Part.Charged, Part.readPayer]

theorem lateriteProblem_eq_ok :
    lateriteProblem instruction shape = .ok () ↔
      ∃ part, lateritePart instruction = some part ∧ part.joins = some shape.kind ∧
        part.Names shape.assets shape.plans shape.vault shape.user ∧
        part.Charged shape.sponsor shape.sponsorSigns instruction := by
  unfold lateriteProblem lateritePart
  cases identifyLateriteInstruction instruction.data with
  | none => simp
  | some type =>
    cases hkind : shape.kind with
    | enroll =>
      cases type with
      | enroll =>
        cases parseEnrollInstruction instruction with
        | none => simp
        | some accounts =>
          simp [Shape.paid, Part.Names, Part.Charged, Part.readPayer, Part.joins]
      | reactivate => simp [not_foreign, Part.joins]
      | _ => simp [not_foreign]
    | reactivate =>
      cases type with
      | enroll => simp [not_foreign, Part.joins]
      | reactivate =>
        cases parseReactivateInstruction instruction with
        | none => simp
        | some accounts =>
          simp [Shape.paid, Part.Names, Part.Charged, Part.readPayer, Part.joins]
      | _ => simp [not_foreign]

theorem associatedTokenPart_joins {part : Part} (h : kit.associatedTokenPart instruction = some part) :
    part.joins = none := by
  unfold Kit.associatedTokenPart at h
  split at h
  · rcases Option.map_eq_some_iff.mp h with ⟨_, _, rfl⟩
    rfl
  · cases h

theorem subscriptionsPart_joins {part : Part} (h : kit.subscriptionsPart instruction = some part) :
    part.joins = none := by
  unfold Kit.subscriptionsPart at h
  split at h <;> first
    | cases h
    | (rcases Option.map_eq_some_iff.mp h with ⟨_, _, rfl⟩; rfl)

theorem lateritePart_joins {part : Part} (h : lateritePart instruction = some part) :
    part.joins ≠ none := by
  unfold lateritePart at h
  split at h <;> first
    | cases h
    | (rcases Option.map_eq_some_iff.mp h with ⟨_, _, rfl⟩; exact Option.some_ne_none _)

theorem earlier_eq_ok {answer : Checked String Unit} {found : Option Part}
    (hanswer : answer = .ok () ↔ ∃ part, found = some part ∧
      part.Names shape.assets shape.plans shape.vault shape.user ∧
      part.Charged shape.sponsor shape.sponsorSigns instruction)
    (hjoins : ∀ part, found = some part → part.joins = none) :
    (if shape.index = shape.last then foreign shape.kind else answer) = .ok () ↔
      ∃ part, found = some part ∧ part.Passes shape instruction := by
  by_cases hlast : shape.index = shape.last
  · rw [if_pos hlast]
    apply iff_of_false not_foreign
    rintro ⟨part, hpart, hpasses⟩
    rcases hpasses.placed with ⟨hjoin, -⟩ | ⟨-, hearlier⟩
    · rw [hjoins part hpart] at hjoin
      cases hjoin
    · exact hearlier hlast
  · rw [if_neg hlast, hanswer]
    constructor
    · rintro ⟨part, hpart, hnames, hcharged⟩
      exact ⟨part, hpart, hnames, .inr ⟨hjoins part hpart, hlast⟩, hcharged⟩
    · rintro ⟨part, hpart, hpasses⟩
      exact ⟨part, hpart, hpasses.names, hpasses.charged⟩

theorem instructionProblem_eq_ok :
    instructionProblem d kit instruction shape = .ok () ↔
      ∃ part, kit.part d instruction = some part ∧ part.Passes shape instruction := by
  unfold instructionProblem Kit.part
  rw [caught_eq_ok]
  by_cases htoken : instruction.programAddress = kit.associatedTokenProgram
  · rw [if_pos htoken, if_pos htoken]
    exact earlier_eq_ok associatedTokenProblem_eq_ok fun _ => associatedTokenPart_joins
  rw [if_neg htoken, if_neg htoken]
  by_cases hsubscriptions : instruction.programAddress = d.subscriptionsId
  · rw [if_pos hsubscriptions, if_pos hsubscriptions]
    exact earlier_eq_ok subscriptionsProblem_eq_ok fun _ => subscriptionsPart_joins
  rw [if_neg hsubscriptions, if_neg hsubscriptions]
  by_cases hlaterite : instruction.programAddress = d.id
  swap
  · rw [if_neg hlaterite, if_neg hlaterite]
    exact iff_of_false not_foreign (by simp)
  rw [if_pos hlaterite, if_pos hlaterite]
  by_cases hlast : shape.index = shape.last
  · rw [if_neg (not_not.mpr hlast), lateriteProblem_eq_ok]
    constructor
    · rintro ⟨part, hpart, hjoins, hnames, hcharged⟩
      exact ⟨part, hpart, hnames, .inl ⟨hjoins, hlast⟩, hcharged⟩
    · rintro ⟨part, hpart, hpasses⟩
      rcases hpasses.placed with ⟨hjoins, -⟩ | ⟨-, hearlier⟩
      · exact ⟨part, hpart, hjoins, hpasses.names, hpasses.charged⟩
      · exact absurd hlast hearlier
  · rw [if_pos hlast]
    apply iff_of_false not_foreign
    rintro ⟨part, hpart, hpasses⟩
    rcases hpasses.placed with ⟨-, hend⟩ | ⟨hjoins, -⟩
    · exact hlast hend
    · exact lateritePart_joins hpart hjoins

/-- The number a compute-budget instruction of a kind sets, in the bytes after the one that names
it. -/
def budgetNumber (size : ℕ) (instruction : Instruction) : Option ℕ :=
  ((Codec.number size).read (instruction.data.drop 1)).map Fin.val

/-- What the packages are documented to do: the compute budget is a program of its own, read from
the first instruction that sets it, and an account of an instruction signs where its place is a
signer's. -/
structure Kit.Documented (d : Deployment) (kit : Kit) : Prop where
  separate : kit.computeBudget ∉ [kit.associatedTokenProgram, d.subscriptionsId, d.id]
  computeUnitLimit {message : List Instruction} {limit : Instruction}
    (h : message.find? (fun i => kit.budget i 2) = some limit) :
    kit.computeUnitLimit message = (budgetNumber 4 limit).map some
  computeUnitPrice {message : List Instruction} {price : Instruction}
    (h : message.find? (fun i => kit.budget i 3) = some price) :
    kit.computeUnitPrice message = (budgetNumber 8 price).map some
  decompileMessage {compiled : CompiledMessage} {tables : LookupTables} {message : List Instruction}
    (h : kit.decompileMessage compiled tables = some message) :
    ∀ instruction ∈ message, ∀ account ∈ instruction.accounts, account.role.signs →
      account.address ∈ compiled.staticAccounts.take compiled.header.numSignerAccounts

/-- The compute budget is set once, first and within the sponsor's bounds. -/
structure Budgeted (kit : Kit) (message : List Instruction) : Prop where
  limit : ∃ limit ∈ message[0]?, kit.budget limit 2 ∧
    ∃ units ∈ budgetNumber 4 limit, units ≤ sponsorMaxUnits
  price : ∃ price ∈ message[1]?, kit.budget price 3 ∧
    ∃ microLamports ∈ budgetNumber 8 price, microLamports ≤ priorityFeeCeiling
  once : ∀ instruction ∈ message.drop 2, instruction.programAddress ≠ kit.computeBudget

variable {message : List Instruction} {context : ShapeContext}

theorem find_limit {limit : Instruction} (hfirst : message[0]? = some limit)
    (hlimit : kit.budget limit 2) : message.find? (fun i => kit.budget i 2) = some limit := by
  cases message with
  | nil => cases hfirst
  | cons first rest =>
    obtain rfl := Option.some.inj hfirst
    exact List.find?_cons_of_pos (decide_eq_true hlimit)

theorem find_price {limit price : Instruction} (hfirst : message[0]? = some limit)
    (hlimit : kit.budget limit 2) (hsecond : message[1]? = some price) (hprice : kit.budget price 3) :
    message.find? (fun i => kit.budget i 3) = some price := by
  match message, hfirst, hsecond with
  | first :: second :: rest, hfirst, hsecond =>
    obtain rfl := Option.some.inj hfirst
    obtain rfl := Option.some.inj hsecond
    have hother : ¬kit.budget first 3 := by
      rintro ⟨-, hthree⟩
      have htwo := hlimit.2
      rw [hthree] at htwo
      cases htwo
    rw [List.find?_cons_of_neg (by simpa using hother)]
    exact List.find?_cons_of_pos (decide_eq_true hprice)

theorem messageProblem_eq_ok (hkit : kit.Documented d) :
    messageProblem d kit message context = .ok () ↔
      Budgeted kit message ∧ message.drop 2 ≠ [] ∧
        ∀ index instruction, (message.drop 2)[index]? = some instruction →
          ∃ part, kit.part d instruction = some part ∧
            part.Passes (context.shape d (message.drop 2) instruction index) instruction := by
  unfold messageProblem
  simp only [bind_eq_ok, require_eq_ok, orPanic_eq_ok, exists_const, forEach_eq_ok, numbered_eq_ok,
    instructionProblem_eq_ok]
  constructor
  · rintro ⟨⟨limit, hfirst, hlimit⟩, ⟨price, hsecond, hprice⟩, honce, units, hunits, hbound, cost,
      hcost, hceiling, hparts, hbody⟩
    rw [hkit.computeUnitLimit (find_limit hfirst hlimit)] at hunits
    rw [hkit.computeUnitPrice (find_price hfirst hlimit hsecond hprice)] at hcost
    rcases Option.map_eq_some_iff.mp hunits with ⟨number, hnumber, rfl⟩
    rcases Option.map_eq_some_iff.mp hcost with ⟨microLamports, hmicroLamports, rfl⟩
    rcases hbound with ⟨_, ⟨rfl⟩, hbound⟩
    refine ⟨⟨⟨limit, hfirst, hlimit, number, hnumber, hbound⟩,
      ⟨price, hsecond, hprice, microLamports, hmicroLamports, hceiling⟩, honce⟩, hbody, ?_⟩
    intro index instruction hget
    exact hparts (instruction, index) (List.mk_mem_zipIdx_iff_getElem?.mpr hget)
  · rintro ⟨⟨⟨limit, hfirst, hlimit, number, hnumber, hbound⟩,
      ⟨price, hsecond, hprice, microLamports, hmicroLamports, hceiling⟩, honce⟩, hbody, hparts⟩
    refine ⟨⟨limit, hfirst, hlimit⟩, ⟨price, hsecond, hprice⟩, honce, some number, ?_,
      ⟨number, rfl, hbound⟩, some microLamports, ?_, hceiling, ?_, hbody⟩
    · rw [hkit.computeUnitLimit (find_limit hfirst hlimit), hnumber]
      rfl
    · rw [hkit.computeUnitPrice (find_price hfirst hlimit hsecond hprice), hmicroLamports]
      rfl
    · intro entry hentry
      exact hparts entry.2 entry.1 (List.mk_mem_zipIdx_iff_getElem?.mp hentry)

theorem shapeProblem_eq_ok {transaction : Transaction} :
    shapeProblem d kit transaction context = .ok () ↔
      ∃ compiled, kit.decodeMessage transaction.messageBytes = some compiled ∧
        compiled.version = some 0 ∧
        (∀ lookup ∈ compiled.addressTableLookups,
          (context.lookupTable lookup.lookupTableAddress).isSome) ∧
        compiled.header.numSignerAccounts = 2 ∧
        compiled.staticAccounts[0]? = some context.sponsor ∧
        compiled.staticAccounts[1]? = some context.user ∧
        (transaction.signatures.length = 2 ∧ context.sponsor ∈ transaction.signatures ∧
          context.user ∈ transaction.signatures) ∧
        ∃ message, kit.decompileMessage compiled context.lookupTable = some message ∧
          messageProblem d kit message context = .ok () := by
  unfold shapeProblem
  simp only [bind_eq_ok, okOr_eq_ok, require_eq_ok, exists_const]

/-- How the programs behave: whose accounts, authorities and delegations an instruction that
succeeds creates, changes or closes, and whose delegation the account at an address is. -/
structure Effects where
  touches : Instruction → Pubkey → Prop
  delegator : Pubkey → Pubkey

variable (d kit) in
/-- What the invoked programs are documented to do: each finds the record it writes from the wallet
its instruction names, but for the closing of a delegation, which finds its own: the wallet that
closes one may be the delegator or the payer it records. -/
structure Effects.Documented (effects : Effects) : Prop where
  createAssociatedTokenIdempotent {i : Instruction} {accounts : CreateAssociatedTokenIdempotent}
    (h : kit.part d i = some (.createAssociatedTokenIdempotent accounts)) {wallet : Pubkey}
    (hwrites : effects.touches i wallet) : wallet = accounts.owner
  initSubscriptionAuthority {i : Instruction} {accounts : InitSubscriptionAuthority}
    (h : kit.part d i = some (.initSubscriptionAuthority accounts)) {wallet : Pubkey}
    (hwrites : effects.touches i wallet) : wallet = accounts.owner
  subscribe {i : Instruction} {accounts : Subscribe}
    (h : kit.part d i = some (.subscribe accounts)) {wallet : Pubkey}
    (hwrites : effects.touches i wallet) : wallet = accounts.subscriber
  resumeSubscription {i : Instruction} {accounts : ResumeSubscription}
    (h : kit.part d i = some (.resumeSubscription accounts)) {wallet : Pubkey}
    (hwrites : effects.touches i wallet) : wallet = accounts.subscriber
  revokeDelegation {i : Instruction} {accounts : RevokeDelegation}
    (h : kit.part d i = some (.revokeDelegation accounts)) (wallet : Pubkey) :
    effects.touches i wallet ↔ wallet = effects.delegator accounts.delegationAccount
  revokeAbandonedSubscription {i : Instruction} {accounts : RevokeAbandonedSubscription}
    (h : kit.part d i = some (.revokeAbandonedSubscription accounts)) (wallet : Pubkey) :
    effects.touches i wallet ↔ wallet = effects.delegator accounts.subscriptionAccount

variable (d kit) in
/-- Whose records an instruction writes: Laterite's own write the settings of the user they name. -/
def Effects.Touches (effects : Effects) (instruction : Instruction) (wallet : Pubkey) : Prop :=
  match kit.part d instruction with
  | some (.enroll accounts) => wallet = accounts.user
  | some (.reactivate accounts) => wallet = accounts.user
  | _ => effects.touches instruction wallet

variable (d kit) in
/-- The message is an onboarding or a reactivation of this user, signed by the user and by the
sponsor, whose signature each instruction carries as its payer's or not at all. -/
structure ForUserOnly (effects : Effects) (transaction : Transaction) (context : ShapeContext)
    (compiled : CompiledMessage) (message : List Instruction) : Prop where
  signers : compiled.staticAccounts.take compiled.header.numSignerAccounts =
    [context.sponsor, context.user]
  signing : ∀ i ∈ message, ∀ account ∈ i.accounts, account.role.signs →
    account.address = context.sponsor ∨ account.address = context.user
  signatures : context.sponsor ≠ context.user →
    ∀ key ∈ transaction.signatures, key = context.sponsor ∨ key = context.user
  budgeted : Budgeted kit message
  nonempty : message.drop 2 ≠ []
  parts : ∀ index i, (message.drop 2)[index]? = some i → ∃ part, kit.part d i = some part ∧
    part.Names (context.config.assets.toList.map Asset.mint) (ShapeContext.plans d) d.vault
      context.user ∧
    part.Placed context.kind (index + 1 = (message.drop 2).length)
  touched : ∀ i ∈ message.drop 2, ∀ wallet, effects.Touches d kit i wallet → wallet = context.user
  payer : ∀ i ∈ message, 0 < sponsorSigns context.sponsor i →
    sponsorSigns context.sponsor i = 1 ∧
      ∃ part, kit.part d i = some part ∧ part.payer i = some context.sponsor

variable (d kit) in
/-- What the transaction's bytes hold is for this user only. -/
def Sponsorable (effects : Effects) (transaction : Transaction) (context : ShapeContext) : Prop :=
  ∃ compiled message, kit.decodeMessage transaction.messageBytes = some compiled ∧
    kit.decompileMessage compiled context.lookupTable = some message ∧
    ForUserOnly d kit effects transaction context compiled message

namespace Part

/-- The account of the delegation the part closes. -/
def closed : Part → Option Pubkey
  | revokeDelegation accounts => some accounts.delegationAccount
  | revokeAbandonedSubscription accounts => some accounts.subscriptionAccount
  | _ => none

end Part

variable (d kit) in
/-- What the gate reads of the message is what the programs do: every delegation it closes is the
user's, whom the gate takes for a payer pays, and neither of the two instructions that set the compute
budget carries the sponsor's signature. -/
structure RunsAsRead (effects : Effects) (context : ShapeContext) (message : List Instruction) :
    Prop where
  closes : ∀ i ∈ message.drop 2, ∀ part, kit.part d i = some part → ∀ account ∈ part.closed,
    effects.delegator account = context.user
  pays : ∀ i ∈ message.drop 2, ∀ part, kit.part d i = some part → part.payer i = part.readPayer i
  unsigned : ∀ i ∈ message.take 2, sponsorSigns context.sponsor i = 0

variable (d kit) in
/-- What the transaction's bytes hold runs as the gate reads it. -/
def ReadTrue (effects : Effects) (transaction : Transaction) (context : ShapeContext) : Prop :=
  ∀ compiled message, kit.decodeMessage transaction.messageBytes = some compiled →
    kit.decompileMessage compiled context.lookupTable = some message →
      RunsAsRead d kit effects context message

variable {effects : Effects} {transaction : Transaction}

theorem take_signers {accounts : List Pubkey} {sponsor user : Pubkey}
    (hfirst : accounts[0]? = some sponsor) (hsecond : accounts[1]? = some user) :
    accounts.take 2 = [sponsor, user] := by
  match accounts, hfirst, hsecond with
  | first :: second :: rest, hfirst, hsecond =>
    obtain rfl := Option.some.inj hfirst
    obtain rfl := Option.some.inj hsecond
    rfl

theorem keys_of_two {keys : List Pubkey} {sponsor user : Pubkey} (hnodup : keys.Nodup)
    (hlength : keys.length = 2) (hsponsor : sponsor ∈ keys) (huser : user ∈ keys)
    (hne : sponsor ≠ user) : ∀ key ∈ keys, key = sponsor ∨ key = user := by
  match keys, hlength with
  | [first, second], _ =>
    simp only [List.mem_cons, List.not_mem_nil, or_false] at hsponsor huser ⊢
    rcases hsponsor with rfl | rfl <;> rcases huser with rfl | rfl
    · exact absurd rfl hne
    · exact fun key hkey => hkey
    · exact fun key hkey => hkey.symm
    · exact absurd rfl hne

theorem Part.Charged.readPayer {part : Part} {sponsor : Pubkey} {signs : ℕ}
    (h : part.Charged sponsor signs instruction) (hsigns : 0 < signs) :
    signs = 1 ∧ part.readPayer instruction = some sponsor := by
  cases part with
  | resumeSubscription | revokeDelegation =>
    change signs = 0 at h
    omega
  | _ => exact ⟨h.2, h.1⟩

theorem Part.Charged.payer_eq {part : Part} {sponsor : Pubkey} {signs : ℕ}
    (h : part.Charged sponsor signs instruction)
    (hpays : 0 < signs → part.payer instruction = some sponsor) :
    part.payer instruction = part.readPayer instruction := by
  cases part with
  | initSubscriptionAuthority | subscribe =>
    rw [hpays (by rw [h.2]; exact Nat.one_pos), h.1]
  | _ => rfl

/-- A part that names this user writes this user's records, if the delegation it closes is theirs. -/
theorem Effects.Documented.touches_user (heffects : effects.Documented d kit) {part : Part}
    {assets plans : List Pubkey} {vault user wallet : Pubkey}
    (hpart : kit.part d instruction = some part) (hnames : part.Names assets plans vault user)
    (hown : ∀ account ∈ part.closed, effects.delegator account = user)
    (htouches : effects.Touches d kit instruction wallet) : wallet = user := by
  unfold Effects.Touches at htouches
  rw [hpart] at htouches
  cases part with
  | createAssociatedTokenIdempotent accounts =>
    exact (heffects.createAssociatedTokenIdempotent hpart htouches).trans hnames.1
  | initSubscriptionAuthority accounts =>
    exact (heffects.initSubscriptionAuthority hpart htouches).trans hnames
  | subscribe accounts => exact (heffects.subscribe hpart htouches).trans hnames.1
  | resumeSubscription accounts =>
    exact (heffects.resumeSubscription hpart htouches).trans hnames.1
  | revokeDelegation accounts =>
    exact ((heffects.revokeDelegation hpart wallet).mp htouches).trans (hown _ rfl)
  | revokeAbandonedSubscription accounts =>
    exact ((heffects.revokeAbandonedSubscription hpart wallet).mp htouches).trans (hown _ rfl)
  | enroll accounts => exact htouches.trans hnames
  | reactivate accounts => exact htouches.trans hnames

theorem Effects.Documented.touches_closed (heffects : effects.Documented d kit) {part : Part}
    {account : Pubkey} (hpart : kit.part d instruction = some part) (hclosed : part.closed = some account) :
    effects.Touches d kit instruction (effects.delegator account) := by
  unfold Effects.Touches
  rw [hpart]
  cases part with
  | revokeDelegation accounts =>
    obtain rfl := Option.some.inj hclosed
    exact (heffects.revokeDelegation hpart _).mpr rfl
  | revokeAbandonedSubscription accounts =>
    obtain rfl := Option.some.inj hclosed
    exact (heffects.revokeAbandonedSubscription hpart _).mpr rfl
  | _ => cases hclosed

theorem Kit.Documented.part_budget (hkit : kit.Documented d) {kind : UInt8}
    (h : kit.budget instruction kind) : kit.part d instruction = none := by
  have hseparate := hkit.separate
  simp only [List.mem_cons, List.not_mem_nil, or_false, not_or] at hseparate
  unfold Kit.part
  rw [h.1, if_neg hseparate.1, if_neg hseparate.2.1, if_neg hseparate.2.2]

theorem mem_take_two {i : Instruction} (h : i ∈ message.take 2) :
    message[0]? = some i ∨ message[1]? = some i := by
  match message, h with
  | [first], h =>
    obtain rfl := List.mem_singleton.mp h
    exact .inl rfl
  | first :: second :: rest, h =>
    have hcases : i = first ∨ i = second := by simpa using h
    rcases hcases with rfl | rfl
    · exact .inl rfl
    · exact .inr rfl

theorem Budgeted.part_eq_none (hkit : kit.Documented d) (hbudget : Budgeted kit message)
    {i : Instruction} (hi : i ∈ message.take 2) : kit.part d i = none := by
  rcases hbudget.limit with ⟨limit, hfirst, hlimit, -⟩
  rcases hbudget.price with ⟨price, hsecond, hprice, -⟩
  rcases mem_take_two hi with hget | hget
  · obtain rfl := Option.some.inj (hget.symm.trans hfirst)
    exact hkit.part_budget hlimit
  · obtain rfl := Option.some.inj (hget.symm.trans hsecond)
    exact hkit.part_budget hprice

end

namespace Rehearsal

open Laterite.Rehearsal (address deployment sponsor user settings)

/-- A message's bytes, of lists shorter than 128. -/
def wire (message : CompiledMessage) : List UInt8 :=
  let byte : ℕ → UInt8 := UInt8.ofNat
  let places (indices : List ℕ) := byte indices.length :: indices.map byte
  [0x80, byte message.header.numSignerAccounts, byte message.header.numReadonlySignerAccounts,
    byte message.header.numReadonlyNonSignerAccounts] ++
    byte message.staticAccounts.length :: message.staticAccounts.flatMap Vector.toList ++
    message.lifetimeToken.toList ++
    byte message.instructions.length :: (message.instructions.flatMap fun instruction =>
      byte instruction.programAddressIndex :: places instruction.accountIndices ++
        byte instruction.data.length :: instruction.data) ++
    byte message.addressTableLookups.length :: message.addressTableLookups.flatMap fun lookup =>
      lookup.lookupTableAddress.toList ++ places lookup.writableIndexes ++
        places lookup.readonlyIndexes

/-- What the place among the static accounts says of one. -/
def staticRole (message : CompiledMessage) (index : ℕ) : AccountRole :=
  let header := message.header
  if index < header.numSignerAccounts then
    if index < header.numSignerAccounts - header.numReadonlySignerAccounts then .writableSigner
    else .readonlySigner
  else if index < message.staticAccounts.length - header.numReadonlyNonSignerAccounts then .writable
  else .readonly

def lookedUp (tables : LookupTables) (places : AddressTableLookup → List ℕ) (role : AccountRole)
    (lookups : List AddressTableLookup) : Option (List AccountMeta) :=
  (lookups.mapM fun (lookup : AddressTableLookup) => do
    let addresses ← tables lookup.lookupTableAddress
    (places lookup).mapM fun place => addresses[place]?.map (AccountMeta.mk · role)).map List.flatten

def metas (message : CompiledMessage) (tables : LookupTables) : Option (List AccountMeta) := do
  let writable ← lookedUp tables AddressTableLookup.writableIndexes .writable
    message.addressTableLookups
  let others ← lookedUp tables AddressTableLookup.readonlyIndexes .readonly
    message.addressTableLookups
  let static := message.staticAccounts.zipIdx.map fun (key, index) => ⟨key, staticRole message index⟩
  return static ++ writable ++ others

def decompile (message : CompiledMessage) (tables : LookupTables) : Option (List Instruction) := do
  let accounts ← metas message tables
  message.instructions.mapM fun instruction => do
    let program ← accounts[instruction.programAddressIndex]?
    let named ← instruction.accountIndices.mapM fun index => accounts[index]?
    return ⟨named, instruction.data, program.address⟩

def second : Pubkey := (deployment.findPda (deployment.plan 1 0) user).1

/-- The compute budget, the closing of a subscription paid for by the sponsor and of the user's to the
second token's plan, their approval and subscription there, and `enroll`. -/
def closing (subscription : Pubkey) : CompiledMessage where
  addressTableLookups := []
  header := ⟨11, 1, 2⟩
  instructions := [
    ⟨[], 2 :: LittleEndian.bytes 4 100000, 11⟩,
    ⟨[], 3 :: LittleEndian.bytes 8 1000, 11⟩,
    ⟨[0, 9, 2, 10], [7], 12⟩,
    ⟨[1, 5, 13, 8], [3], 12⟩,
    ⟨[1, 6, 14, 7, 15, 16, 0], [0], 12⟩,
    ⟨[1, 17, 13, 5, 6, 15, 18, 12, 0], [11], 12⟩,
    ⟨[1, 0, 3, 4, 15], instructionDiscriminator .enroll ++ EnrollParams.serialize settings, 19⟩]
  lifetimeToken := Vector.replicate 32 3
  staticAccounts := [sponsor, user, subscription, address 80, address 81, second, address 73, address 64,
    address 10, deployment.plan 0 0, address 70, address 91, deployment.subscriptionsId,
    deployment.plan 1 0, address 23, address 92, address 204, deployment.vault, address 94,
    deployment.id]
  version := some 0

def transaction (subscription : Pubkey) : Transaction where
  messageBytes := wire (closing subscription)
  signatures := [sponsor, user]
  nodup := by decide

/-- Another wallet's subscription to the plan. -/
def strangers : Pubkey := (deployment.findPda (deployment.plan 0 0) (address 40)).1

def own : Pubkey := (deployment.findPda (deployment.plan 0 0) user).1

def kit : Kit where
  computeBudget := address 91
  associatedTokenProgram := address 93
  decodeMessage := fun bytes =>
    [closing own, closing strangers].find? fun message => wire message = bytes
  decompileMessage := decompile
  computeUnitLimit := fun message =>
    match message.find? fun i => i.programAddress = address 91 ∧ i.data.head? = some 2 with
    | some limit => (budgetNumber 4 limit).map some
    | none => some none
  computeUnitPrice := fun message =>
    match message.find? fun i => i.programAddress = address 91 ∧ i.data.head? = some 3 with
    | some price => (budgetNumber 8 price).map some
    | none => some none
  identifyAssociatedToken := fun data =>
    if data = [1] then some .createAssociatedTokenIdempotent else some .other
  identifySubscriptions := fun data =>
    match data.head? with
    | some 0 => some .initSubscriptionAuthority
    | some 3 => some .revokeDelegation
    | some 7 => some .revokeAbandonedSubscription
    | some 11 => some .subscribe
    | some 13 => some .resumeSubscription
    | some _ => some .other
    | none => none
  parseCreateAssociatedTokenIdempotent := fun i =>
    match i.accounts with
    | payer :: _ata :: owner :: mint :: _ => some ⟨payer.address, owner.address, mint.address⟩
    | _ => none
  parseInitSubscriptionAuthority := fun i => i.accounts.head?.map fun owner => ⟨owner.address⟩
  parseSubscribe := fun i =>
    match i.accounts with
    | subscriber :: merchant :: plan :: _ =>
      some ⟨subscriber.address, merchant.address, plan.address⟩
    | _ => none
  parseResumeSubscription := fun i =>
    match i.accounts with
    | subscriber :: plan :: _ => some ⟨subscriber.address, plan.address⟩
    | _ => none
  parseRevokeDelegation := fun i =>
    match i.accounts with
    | authority :: delegation :: _ => some ⟨authority.address, delegation.address⟩
    | _ => none
  parseRevokeAbandonedSubscription := fun i =>
    match i.accounts with
    | payer :: plan :: subscription :: _ =>
      some ⟨payer.address, plan.address, subscription.address⟩
    | _ => none

/-- But for the user's second, subscriptions are to the first plan, each at the address its wallet
derives. -/
def delegator (account : Pubkey) : Pubkey :=
  if account = second then user else Vector.zipWith (· - ·) account (deployment.plan 0 0)

def effects : Effects where
  touches := fun instruction wallet =>
    ∃ part, kit.part deployment instruction = some part ∧
      match part with
      | .createAssociatedTokenIdempotent accounts => wallet = accounts.owner
      | .initSubscriptionAuthority accounts => wallet = accounts.owner
      | .subscribe accounts => wallet = accounts.subscriber
      | .resumeSubscription accounts => wallet = accounts.subscriber
      | .revokeDelegation accounts => wallet = delegator accounts.delegationAccount
      | .revokeAbandonedSubscription accounts => wallet = delegator accounts.subscriptionAccount
      | .enroll _ | .reactivate _ => False
  delegator := delegator

def context : ShapeContext where
  config := Client.SweepRehearsal.config
  kind := .enroll
  lookupTable := fun _ => none
  sponsor := sponsor
  user := user

theorem staticRole_signs {message : CompiledMessage} {index : ℕ}
    (h : (staticRole message index).signs) : index < message.header.numSignerAccounts := by
  by_contra hlater
  unfold staticRole at h
  dsimp only at h
  rw [if_neg hlater] at h
  split at h <;> cases h

theorem mem_of_mapM {α β : Type} {f : α → Option β} {as : List α} {bs : List β}
    (h : as.mapM f = some bs) : ∀ b ∈ bs, ∃ a ∈ as, f a = some b := by
  induction as generalizing bs with
  | nil =>
    obtain rfl := Option.some.inj h
    intro b hb
    cases hb
  | cons a as ih =>
    rw [List.mapM_cons] at h
    simp only [Option.bind_eq_bind, Option.bind_eq_some_iff, Option.pure_def, Option.some.injEq] at h
    rcases h with ⟨first, hfirst, rest, hrest, rfl⟩
    intro b hb
    rcases List.mem_cons.mp hb with rfl | hb
    · exact ⟨a, by simp, hfirst⟩
    · rcases ih hrest b hb with ⟨a', ha', hf⟩
      exact ⟨a', by simp [ha'], hf⟩

theorem lookedUp_role {tables : LookupTables} {places : AddressTableLookup → List ℕ}
    {role : AccountRole} {lookups : List AddressTableLookup} {accounts : List AccountMeta}
    (h : lookedUp tables places role lookups = some accounts) :
    ∀ account ∈ accounts, account.role = role := by
  rcases Option.map_eq_some_iff.mp h with ⟨groups, hgroups, rfl⟩
  intro account haccount
  rcases List.mem_flatten.mp haccount with ⟨group, hgroup, hmem⟩
  rcases mem_of_mapM hgroups group hgroup with ⟨lookup, -, hread⟩
  rcases Option.bind_eq_some_iff.mp hread with ⟨addresses, -, hplaces⟩
  rcases mem_of_mapM hplaces account hmem with ⟨place, -, hplace⟩
  rcases Option.map_eq_some_iff.mp hplace with ⟨key, -, rfl⟩
  rfl

theorem decompile_signs {message : CompiledMessage} {tables : LookupTables}
    {instructions : List Instruction} (h : decompile message tables = some instructions) :
    ∀ instruction ∈ instructions, ∀ account ∈ instruction.accounts, account.role.signs →
      account.address ∈ message.staticAccounts.take message.header.numSignerAccounts := by
  rcases Option.bind_eq_some_iff.mp h with ⟨accounts, haccounts, hinstructions⟩
  rcases Option.bind_eq_some_iff.mp haccounts with ⟨writable, hwritable, hrest⟩
  rcases Option.bind_eq_some_iff.mp hrest with ⟨others, hothers, hall⟩
  obtain rfl := Option.some.inj hall
  intro instruction hinstruction account haccount hsigns
  rcases mem_of_mapM hinstructions instruction hinstruction with ⟨compiled, -, hread⟩
  rcases Option.bind_eq_some_iff.mp hread with ⟨program, -, hlisted⟩
  rcases Option.bind_eq_some_iff.mp hlisted with ⟨named, hnamed, hbuilt⟩
  obtain rfl := Option.some.inj hbuilt
  rcases mem_of_mapM hnamed account haccount with ⟨index, -, hindex⟩
  have hmem := List.mem_of_getElem? hindex
  rw [List.mem_append, List.mem_append] at hmem
  rcases hmem with (hstatic | hmem) | hmem
  · rcases List.mem_map.mp hstatic with ⟨⟨key, place⟩, hplace, rfl⟩
    have hkey := List.mk_mem_zipIdx_iff_getElem?.mp hplace
    apply List.mem_of_getElem? (i := place)
    rw [List.getElem?_take_of_lt (staticRole_signs hsigns)]
    exact hkey
  · rw [lookedUp_role hwritable account hmem] at hsigns
    cases hsigns
  · rw [lookedUp_role hothers account hmem] at hsigns
    cases hsigns

theorem kit_documented : kit.Documented deployment where
  separate := by decide
  computeUnitLimit := by
    intro message limit h
    change (match message.find? fun i => kit.budget i 2 with
      | some limit => (budgetNumber 4 limit).map some
      | none => some none) = _
    rw [h]
  computeUnitPrice := by
    intro message price h
    change (match message.find? fun i => kit.budget i 3 with
      | some price => (budgetNumber 8 price).map some
      | none => some none) = _
    rw [h]
  decompileMessage := decompile_signs

theorem effects_documented : effects.Documented deployment kit := by
  have hpart {i : Instruction} {part : Part} (h : kit.part deployment i = some part)
      {touched : Part → Prop} : (∃ p, kit.part deployment i = some p ∧ touched p) ↔ touched part := by
    rw [h]
    simp
  constructor
  all_goals intro i accounts h wallet
  · exact (hpart h).mp
  · exact (hpart h).mp
  · exact (hpart h).mp
  · exact (hpart h).mp
  · exact hpart h
  · exact hpart h

/-- Whether the part the instruction is, if it is one, is paid for by whom the gate takes for it. -/
def paidAsRead (instruction : Instruction) : Bool :=
  (kit.part deployment instruction).all fun part =>
    part.payer instruction = part.readPayer instruction

/-- What a message that closes a subscription closes, who pays in it, and the signatures on its
compute budget. -/
def summary (subscription : Pubkey) : Option (List (Option Pubkey) × Bool × List ℕ) :=
  (decompile (closing subscription) context.lookupTable).map fun message =>
    ((message.drop 2).map fun i => (kit.part deployment i).bind Part.closed,
      (message.drop 2).all paidAsRead, (message.take 2).map (sponsorSigns sponsor))

theorem readTrue_closing {subscription : Pubkey} (hdelegator : delegator subscription = user)
    (hdecodes : kit.decodeMessage (wire (closing subscription)) = some (closing subscription))
    (hsummary : summary subscription =
      some ([some subscription, some second, none, none, none], true, [0, 0])) :
    ReadTrue deployment kit effects (transaction subscription) context := by
  rcases Option.map_eq_some_iff.mp hsummary with ⟨message, hmessage, hparts⟩
  rw [Prod.mk.injEq, Prod.mk.injEq] at hparts
  rcases hparts with ⟨hclosed, hpaid, hunsigned⟩
  intro compiled message' hcompiled hmessage'
  obtain rfl := Option.some.inj (hdecodes.symm.trans hcompiled)
  obtain rfl := Option.some.inj (hmessage.symm.trans hmessage')
  constructor
  · intro i hi part hpart account haccount
    have hcloses : (kit.part deployment i).bind Part.closed = some account := by
      rw [hpart]
      exact haccount
    have hmem := List.mem_map_of_mem (f := fun i => (kit.part deployment i).bind Part.closed) hi
    rw [hclosed, hcloses] at hmem
    simp only [List.mem_cons, Option.some.injEq, reduceCtorEq, List.not_mem_nil, or_false] at hmem
    rcases hmem with rfl | rfl
    · exact hdelegator
    · exact if_pos rfl
  · intro i hi part hpart
    have hpays := List.all_eq_true.mp hpaid i hi
    rw [paidAsRead, hpart] at hpays
    exact of_decide_eq_true hpays
  · intro i hi
    have hmem := List.mem_map_of_mem (f := sponsorSigns sponsor) hi
    rw [hunsigned] at hmem
    have hzero : sponsorSigns sponsor i = 0 := by simpa using hmem
    exact hzero

theorem touches_closing {subscription : Pubkey} {message : List Instruction}
    (hmessage : decompile (closing subscription) context.lookupTable = some message)
    (hsummary : summary subscription =
      some ([some subscription, some second, none, none, none], true, [0, 0])) :
    ∃ i ∈ message.drop 2, effects.Touches deployment kit i (delegator subscription) := by
  rw [summary, hmessage, Option.map_some, Option.some.injEq, Prod.mk.injEq] at hsummary
  have hfirst : some subscription ∈
      (message.drop 2).map fun i => (kit.part deployment i).bind Part.closed := by
    rw [hsummary.1]
    exact List.mem_cons_self
  rcases List.mem_map.mp hfirst with ⟨i, hi, hcloses⟩
  rcases Option.bind_eq_some_iff.mp hcloses with ⟨part, hpart, haccount⟩
  exact ⟨i, hi, effects_documented.touches_closed hpart haccount⟩

end Rehearsal

end Laterite.Sponsor
