import Laterite.ClientAttestations
import Laterite.EventEncodings
import Laterite.FetchedTransactions
import Laterite.WatcherScan

/-!
# The transfers of a transaction

The watcher reads a finalized transaction's transfers of payment tokens to and from a user. Whose an
account is and of which mint, it takes from the token balances the node lists before and after the
transaction, not from the transfers themselves.
-/

namespace Laterite.Operator

open CallTraces Logs Client ByteCodecs
open Watcher (WatchedAccount)
open Indexer (Signature)

structure PaymentTransfer where
  amount : UInt64
  destination : Option Pubkey
  destinationOwner : Option Pubkey
  index : ℕ
  paymentToken : ℕ
  source : Option Pubkey
  sourceOwner : Option Pubkey
  deriving DecidableEq

structure TokenTransfer where
  amount : UInt64
  destination : Option Pubkey
  mint : Option Pubkey
  source : Option Pubkey
  deriving DecidableEq

section Reading

variable (transaction : FetchedTransaction)

def tokenBalances (balances : TransactionMeta → Option (List TokenBalance)) : List TokenBalance :=
  (transaction.transactionMeta.bind balances).getD []

/-- The mint and the owner an account is listed with, before the transaction, else after it. -/
def tokenAccount (address : Option Pubkey) : Option TokenBalance :=
  (tokenBalances transaction TransactionMeta.postTokenBalances ++
    tokenBalances transaction TransactionMeta.preTokenBalances).reverse.find? fun balance =>
      transaction.keys[balance.accountIndex]? = address

def mintOf (address : Option Pubkey) : Option Pubkey := (tokenAccount transaction address).map TokenBalance.mint

def ownerOf (address : Option Pubkey) : Option Pubkey :=
  (tokenAccount transaction address).bind TokenBalance.owner

/-- The transfer an instruction makes, if it is a `Transfer` or `TransferChecked`; nothing when it is
one that cannot be read. -/
def tokenTransfer (instruction : Executed) : Option (Option TokenTransfer) :=
  match instruction.data with
  | 3 :: fields =>
    match instruction.accounts with
    | source :: destination :: _authority :: _ => do
      let amount ← Codec.uint64.read fields
      match (mintOf transaction source).or (mintOf transaction destination) with
      | some mint => return some ⟨amount, destination, some mint, source⟩
      | none => return none
    | _ => none
  | 12 :: fields =>
    match instruction.accounts with
    | source :: mint :: destination :: _authority :: _ => do
      let (amount, _decimals) ← (Codec.uint64.pair Codec.uint8).read fields
      return some ⟨amount, destination, mint, source⟩
    | _ => none
  | _ => some none

variable (user : Pubkey) (paymentTokens : List PaymentToken)

def addTransfer (transfers : List PaymentTransfer) (instruction : Executed) :
    Option (List PaymentTransfer) :=
  if paymentTokens.any fun token => some token.tokenProgram = instruction.programAddress then do
    match ← tokenTransfer transaction instruction with
    | none => return transfers
    | some transfer =>
      match paymentTokens.findIdx? fun token =>
        some token.mint = transfer.mint ∧ some token.tokenProgram = instruction.programAddress with
      | none => return transfers
      | some paymentToken =>
        let sourceOwner := ownerOf transaction transfer.source
        let destinationOwner := ownerOf transaction transfer.destination
        if sourceOwner ≠ some user ∧ destinationOwner ≠ some user then return transfers
        else return transfers ++ [⟨transfer.amount, transfer.destination, destinationOwner,
          transfers.length, paymentToken, transfer.source, sourceOwner⟩]
  else some transfers

def getPaymentTransfers : Option (List PaymentTransfer) :=
  (executedInstructions transaction).foldlM (addTransfer transaction user paymentTokens) []

variable (signature : Signature) (blockTime : ℤ) (account : WatchedAccount) (swapAuthority : Pubkey)

def transferAttestation (transfer : PaymentTransfer) : Option AttestationArgs :=
  let excluded (owner : Option Pubkey) := owner = some account.user ∨ owner = some swapAuthority
  let kind :=
    if transfer.destination = some account.address ∧ ¬excluded transfer.sourceOwner then
      some EventKind.income
    else if transfer.source = some account.address ∧ ¬excluded transfer.destinationOwner then
      some EventKind.payment
    else none
  match kind with
  | none => none
  | some kind =>
    if transfer.amount = 0 ∨ transfer.paymentToken ≠ account.paymentToken.toNat then none
    else some {
      kind
      user := account.user
      paymentToken := transfer.paymentToken
      amount := transfer.amount.toNat
      eventTime := blockTime
      signature
      transferIndex := transfer.index }

def getAttestations : Option (List AttestationArgs) :=
  match transaction.transactionMeta, transaction.blockTime with
  | some transactionMeta, some blockTime =>
    if transactionMeta.err then some []
    else do
      let transfers ← getPaymentTransfers transaction account.user paymentTokens
      return transfers.filterMap (transferAttestation signature blockTime account swapAuthority)
  | _, _ => some []

end Reading

structure TokenAccount where
  mint : Pubkey
  owner : Pubkey
  deriving DecidableEq

abbrev TokenLedger := Pubkey → Option TokenAccount

/-- A transfer with its accounts' mint and owners as they are when it runs; it may name the mint. -/
structure Move where
  source : Pubkey
  destination : Pubkey
  amount : UInt64
  mint : Pubkey
  sourceOwner : Pubkey
  destinationOwner : Pubkey
  namesMint : Bool
  deriving DecidableEq

/-- A call of no token program, or neither a `Transfer` nor a `TransferChecked`. -/
def MovesNothing (programOf : Pubkey → Pubkey) (call : ProgramCall) : Prop :=
  (∀ mint, call.program ≠ programOf mint) ∨ call.data.head? ≠ some 3 ∧ call.data.head? ≠ some 12

/-- What one call does to the token accounts, those of a mint being its token program's. -/
inductive TokenStep (programOf : Pubkey → Pubkey) :
    TokenLedger → ProgramCall → Option Move → TokenLedger → Prop
  | other {ledger : TokenLedger} {call : ProgramCall} (h : MovesNothing programOf call) :
    TokenStep programOf ledger call none ledger
  | create {ledger : TokenLedger} {call : ProgramCall} {address : Pubkey} (account : TokenAccount)
    (h : MovesNothing programOf call) (hnew : ledger address = none) :
    TokenStep programOf ledger call none (Function.update ledger address (some account))
  | setOwner {ledger : TokenLedger} {call : ProgramCall} {address : Pubkey} {account : TokenAccount}
    (owner : Pubkey) (h : MovesNothing programOf call) (hthere : ledger address = some account) :
    TokenStep programOf ledger call none
      (Function.update ledger address (some { account with owner := owner }))
  | close {ledger : TokenLedger} {call : ProgramCall} {address : Pubkey}
    (h : MovesNothing programOf call) (hthere : (ledger address).isSome = true) :
    TokenStep programOf ledger call none (Function.update ledger address none)
  | transfer {ledger : TokenLedger} {call : ProgramCall} {source destination authority : Pubkey}
    {sourceOwner destinationOwner mint : Pubkey} {signers : List Pubkey} {amount : UInt64}
    {others : List UInt8}
    (hsource : ledger source = some ⟨mint, sourceOwner⟩)
    (hdestination : ledger destination = some ⟨mint, destinationOwner⟩)
    (hprogram : call.program = programOf mint)
    (haccounts : call.accounts = source :: destination :: authority :: signers)
    (hdata : call.data = 3 :: (LittleEndian.bytes 8 amount.toNat ++ others)) :
    TokenStep programOf ledger call
      (some ⟨source, destination, amount, mint, sourceOwner, destinationOwner, false⟩) ledger
  | transferChecked {ledger : TokenLedger} {call : ProgramCall}
    {source destination authority : Pubkey} {sourceOwner destinationOwner mint : Pubkey}
    {signers : List Pubkey} {amount : UInt64} {decimals : UInt8} {others : List UInt8}
    (hsource : ledger source = some ⟨mint, sourceOwner⟩)
    (hdestination : ledger destination = some ⟨mint, destinationOwner⟩)
    (hprogram : call.program = programOf mint)
    (haccounts : call.accounts = source :: mint :: destination :: authority :: signers)
    (hdata : call.data = 12 :: (LittleEndian.bytes 8 amount.toNat ++ decimals :: others)) :
    TokenStep programOf ledger call
      (some ⟨source, destination, amount, mint, sourceOwner, destinationOwner, true⟩) ledger

/-- What the calls of a transaction do, one after the other, and the transfer each of them makes, if
it makes one. -/
inductive TokenRun (programOf : Pubkey → Pubkey) :
    TokenLedger → List ProgramCall → List (Option Move) → TokenLedger → Prop
  | done (ledger : TokenLedger) : TokenRun programOf ledger [] [] ledger
  | step {before between after : TokenLedger} {call : ProgramCall} {calls : List ProgramCall}
    {move : Option Move} {moves : List (Option Move)} (h : TokenStep programOf before call move between)
    (hrest : TokenRun programOf between calls moves after) :
    TokenRun programOf before (call :: calls) (move :: moves) after

/-- The balances list just the token accounts among the keys, with their mints and owners. -/
def ListsAccounts (keys : List Pubkey) (balances : List TokenBalance) (ledger : TokenLedger) : Prop :=
  (∀ balance ∈ balances, ∃ address account, keys[balance.accountIndex]? = some address ∧
    ledger address = some account ∧ balance.mint = account.mint ∧ balance.owner = some account.owner) ∧
  ∀ address ∈ keys, (ledger address).isSome = true →
    ∃ balance ∈ balances, keys[balance.accountIndex]? = some address

def listed (before after : TokenLedger) (address : Pubkey) : Option TokenAccount :=
  (before address).or (after address)

def tokenIndex (paymentTokens : List PaymentToken) (mint : Pubkey) : Option ℕ :=
  paymentTokens.findIdx? fun token => token.mint = mint

/-- A transaction that succeeded, what ran in it and what it did to the token accounts; the payment
tokens with the programs of their mints; and a user's associated accounts that are watched, each in
its own payment token. -/
structure Scanned (programOf : Pubkey → Pubkey) (paymentTokens : List PaymentToken)
    (transaction : FetchedTransaction) (transactionMeta : TransactionMeta) (blockTime : ℤ)
    (steps : List TopLevel) (moves : List (Option Move)) (before after : TokenLedger) (user : Pubkey)
    (watched : List WatchedAccount) : Prop where
  hasMeta : transaction.transactionMeta = some transactionMeta
  succeeded : transactionMeta.err = false
  timed : transaction.blockTime = some blockTime
  lists : Lists transaction steps
  run : TokenRun programOf before (ranCalls steps) moves after
  pre : ListsAccounts transaction.keys (transactionMeta.preTokenBalances.getD []) before
  post : ListsAccounts transaction.keys (transactionMeta.postTokenBalances.getD []) after
  tokens : ∀ token ∈ paymentTokens, token.tokenProgram = programOf token.mint
  users : ∀ account ∈ watched, account.user = user
  distinct : (watched.map WatchedAccount.paymentToken).Nodup
  associated : ∀ account ∈ watched, ∀ move, some move ∈ moves →
    move.source = account.address ∨ move.destination = account.address →
      tokenIndex paymentTokens move.mint = some account.paymentToken.toNat

section Expected

variable (user swapAuthority : Pubkey)

/-- A transfer to an account of the user from one that is neither theirs nor the swap authority's. -/
def Move.IncomeTo (self : Move) (address : Pubkey) : Prop :=
  self.destination = address ∧ self.destinationOwner = user ∧ self.sourceOwner ≠ user ∧
    self.sourceOwner ≠ swapAuthority

/-- A transfer from an account of the user to one that is neither theirs nor the swap authority's. -/
def Move.PaymentFrom (self : Move) (address : Pubkey) : Prop :=
  self.source = address ∧ self.sourceOwner = user ∧ self.destinationOwner ≠ user ∧
    self.destinationOwner ≠ swapAuthority

/-- Whether the transfer is one with an outsider, of the kind, through the account. -/
def Move.Counts (self : Move) (address : Pubkey) : EventKind → Prop
  | .income => self.IncomeTo user swapAuthority address
  | .payment => self.PaymentFrom user swapAuthority address

/-- A transfer of nothing, between two accounts of the user, or of the user with the swap authority. -/
def Move.Excepted (self : Move) : Prop :=
  self.amount = 0 ∨ (self.sourceOwner = user ∧ self.destinationOwner = user) ∨
    (self.sourceOwner = swapAuthority ∧ self.destinationOwner = user) ∨
    (self.sourceOwner = user ∧ self.destinationOwner = swapAuthority)

instance (self : Move) (address : Pubkey) (kind : EventKind) :
    Decidable (self.Counts user swapAuthority address kind) := by
  cases kind <;> unfold Move.Counts Move.IncomeTo Move.PaymentFrom <;> infer_instance

instance (self : Move) : Decidable (self.Excepted user swapAuthority) := by
  unfold Move.Excepted
  infer_instance

section Places

variable (transaction : FetchedTransaction) (paymentTokens : List PaymentToken)

def transfersBefore (place : ℕ) : Option (List PaymentTransfer) :=
  ((executedInstructions transaction).take place).foldlM (addTransfer transaction user paymentTokens) []

def readAt (place : ℕ) : Option PaymentTransfer := do
  let before ← transfersBefore user transaction paymentTokens place
  let after ← transfersBefore user transaction paymentTokens (place + 1)
  after[before.length]?

def attestedAt (signature : Signature) (blockTime : ℤ) (account : WatchedAccount) (place : ℕ) :
    Option AttestationArgs :=
  (readAt account.user transaction paymentTokens place).bind
    (transferAttestation signature blockTime account swapAuthority)

end Places

/-- The watched accounts' attestations are the transaction's transfers, each once: what is attested is
attested of an instruction; a transfer with an outsider, of a positive amount, yields one attestation
over all watched accounts; one between two accounts of the user, with the swap authority or of zero
yields none; and the number of a transfer is the same for every account and no other's. -/
structure Partitions (paymentTokens : List PaymentToken) (signature : Signature) (blockTime : ℤ)
    (transaction : FetchedTransaction) (moves : List (Option Move)) (watched : List WatchedAccount) :
    Prop where
  each : ∀ account ∈ watched,
    getAttestations transaction paymentTokens signature account swapAuthority =
      some ((List.range moves.length).filterMap
        (attestedAt swapAuthority transaction paymentTokens signature blockTime account))
  once : ∀ (place : ℕ) (move : Move), moves[place]? = some (some move) → move.amount ≠ 0 →
    ∀ token, tokenIndex paymentTokens move.mint = some token → ∀ account ∈ watched,
      ∀ kind, move.Counts user swapAuthority account.address kind →
        ∃ index : ℕ, (watched.filterMap fun other =>
            attestedAt swapAuthority transaction paymentTokens signature blockTime other place) =
          [⟨kind, user, token, move.amount.toNat, blockTime, signature, index⟩]
  excepted : ∀ (place : ℕ) (move : Move), moves[place]? = some (some move) →
    move.Excepted user swapAuthority → (watched.filterMap fun account =>
      attestedAt swapAuthority transaction paymentTokens signature blockTime account place) = []
  numbers : ∃ number : ℕ → ℕ,
    (∀ account ∈ watched, ∀ place transfer,
      readAt account.user transaction paymentTokens place = some transfer →
        transfer.index = number place) ∧
    ∀ account ∈ watched, ∀ place other,
      (readAt account.user transaction paymentTokens place).isSome = true →
      (readAt account.user transaction paymentTokens other).isSome = true →
        number place = number other → place = other

end Expected

section Told

variable {keys : List Pubkey} {balances : List TokenBalance} {ledger before after : TokenLedger}

theorem find_listed (h : ListsAccounts keys balances ledger) {address : Pubkey} (hkey : address ∈ keys) :
    ((balances.reverse.find? fun balance => keys[balance.accountIndex]? = some address).map
        fun balance => (balance.mint, balance.owner)) =
      (ledger address).map fun account => (account.mint, some account.owner) := by
  cases hfound : balances.reverse.find? fun balance => keys[balance.accountIndex]? = some address with
  | some balance =>
    have hat := List.find?_some hfound
    rw [decide_eq_true_eq] at hat
    rcases h.1 balance (List.mem_reverse.mp (List.mem_of_find?_eq_some hfound)) with
      ⟨address', account, hat', haccount, hmint, howner⟩
    cases hat.symm.trans hat'
    rw [haccount, Option.map_some, Option.map_some, hmint, howner]
  | none =>
    cases hthere : ledger address with
    | none => rfl
    | some account =>
      rcases h.2 address hkey (Option.isSome_iff_exists.mpr ⟨account, hthere⟩) with ⟨balance, hmem, hat⟩
      have hnone := List.find?_eq_none.mp hfound balance (List.mem_reverse.mpr hmem)
      exact absurd (decide_eq_true hat) hnone

end Told

section Scanning

variable {programOf : Pubkey → Pubkey} {paymentTokens : List PaymentToken}
  {transaction : FetchedTransaction} {transactionMeta : TransactionMeta} {blockTime : ℤ}
  {steps : List TopLevel} {moves : List (Option Move)} {before after : TokenLedger} {user : Pubkey}
  {watched : List WatchedAccount}

section Listing

variable (before after)

/-- The mint a transfer is read with: the one it names, else the one its source is listed with, else
its destination. -/
def Move.listedMint (self : Move) : Option Pubkey :=
  if self.namesMint then some self.mint
  else ((listed before after self.source).or (listed before after self.destination)).map TokenAccount.mint

def listedOwner (address : Pubkey) : Option Pubkey := (listed before after address).map TokenAccount.owner

/-- By the balances the transfer is of its mint, `address` is the user's account and `other` an
outsider's. -/
structure Move.ListsOutsider (user swapAuthority : Pubkey) (move : Move) (address other : Pubkey) :
    Prop where
  mint : move.listedMint before after = some move.mint
  owner : listedOwner before after address = some user
  notUser : listedOwner before after other ≠ some user
  notSwapAuthority : listedOwner before after other ≠ some swapAuthority

/-- By the balances the transfer is one with an outsider, of the kind, through the account. -/
def Move.Listed (user swapAuthority : Pubkey) (self : Move) (address : Pubkey) : EventKind → Prop
  | .income => self.destination = address ∧
    ListsOutsider before after user swapAuthority self self.destination self.source
  | .payment => self.source = address ∧
    ListsOutsider before after user swapAuthority self self.source self.destination

/-- The balances tell of a transfer and a watched account what is asked of them: one with an outsider
is listed as one, of its kind, and one that is excepted is not. -/
structure Told (user swapAuthority : Pubkey) (move : Move) (address : Pubkey) : Prop where
  counts : ∀ kind, move.Counts user swapAuthority address kind →
    move.Listed before after user swapAuthority address kind
  excepted : move.Excepted user swapAuthority →
    ∀ kind, ¬move.Listed before after user swapAuthority address kind

variable (programOf paymentTokens user)

def readMove (index : ℕ) (move : Move) : Option PaymentTransfer := do
  let mint ← move.listedMint before after
  let paymentToken ← paymentTokens.findIdx? fun token =>
    token.mint = mint ∧ token.tokenProgram = programOf move.mint
  if listedOwner before after move.source ≠ some user ∧
      listedOwner before after move.destination ≠ some user then none
  else some ⟨move.amount, some move.destination, listedOwner before after move.destination, index,
    paymentToken, some move.source, listedOwner before after move.source⟩

end Listing

/-- Accounts that are listed with the mint and the owner they have tell of the transfer. -/
theorem Told.of_listed {swapAuthority address : Pubkey} {move : Move} (hamount : move.amount ≠ 0)
    (hsource : listed before after move.source = some ⟨move.mint, move.sourceOwner⟩)
    (hdestination : listed before after move.destination = some ⟨move.mint, move.destinationOwner⟩) :
    Told before after user swapAuthority move address := by
  have hmint : move.listedMint before after = some move.mint := by
    unfold Move.listedMint
    rw [hsource]
    split <;> rfl
  have hsourceOwner : listedOwner before after move.source = some move.sourceOwner := by
    rw [listedOwner, hsource]
    rfl
  have hdestinationOwner : listedOwner before after move.destination = some move.destinationOwner := by
    rw [listedOwner, hdestination]
    rfl
  constructor
  · intro kind hcounts
    cases kind with
    | income =>
      rcases hcounts with ⟨hto, hours, hnotUser, hnotSwap⟩
      exact ⟨hto, hmint, hdestinationOwner.trans (congrArg some hours),
        fun hsame => hnotUser (Option.some.inj (hsourceOwner.symm.trans hsame)),
        fun hsame => hnotSwap (Option.some.inj (hsourceOwner.symm.trans hsame))⟩
    | payment =>
      rcases hcounts with ⟨hfrom, hours, hnotUser, hnotSwap⟩
      exact ⟨hfrom, hmint, hsourceOwner.trans (congrArg some hours),
        fun hsame => hnotUser (Option.some.inj (hdestinationOwner.symm.trans hsame)),
        fun hsame => hnotSwap (Option.some.inj (hdestinationOwner.symm.trans hsame))⟩
  · intro hexcepted kind hlisted
    cases kind with
    | income =>
      rcases hlisted with ⟨-, hlists⟩
      rcases hexcepted with hzero | hown | hswap | hswap
      · exact hamount hzero
      · exact hlists.notUser (hsourceOwner.trans (congrArg some hown.1))
      · exact hlists.notSwapAuthority (hsourceOwner.trans (congrArg some hswap.1))
      · exact hlists.notUser (hsourceOwner.trans (congrArg some hswap.1))
    | payment =>
      rcases hlisted with ⟨-, hlists⟩
      rcases hexcepted with hzero | hown | hswap | hswap
      · exact hamount hzero
      · exact hlists.notUser (hdestinationOwner.trans (congrArg some hown.2))
      · exact hlists.notUser (hdestinationOwner.trans (congrArg some hswap.2))
      · exact hlists.notSwapAuthority (hdestinationOwner.trans (congrArg some hswap.2))

theorem tokenAccount_eq (h : Scanned programOf paymentTokens transaction transactionMeta blockTime steps
    moves before after user watched) {address : Pubkey} (hkey : address ∈ transaction.keys) :
    mintOf transaction (some address) = (listed before after address).map TokenAccount.mint ∧
      ownerOf transaction (some address) = (listed before after address).map TokenAccount.owner := by
  have hpre := find_listed h.pre hkey
  have hpost := find_listed h.post hkey
  unfold mintOf ownerOf tokenAccount tokenBalances listed
  rw [h.hasMeta, Option.bind_some, Option.bind_some, List.reverse_append, List.find?_append]
  cases hfound : (transactionMeta.preTokenBalances.getD []).reverse.find? fun balance =>
      transaction.keys[balance.accountIndex]? = some address with
  | some balance =>
    rw [hfound] at hpre
    rcases Option.map_eq_some_iff.mp hpre.symm with ⟨account, haccount, hpair⟩
    rw [haccount]
    rcases Prod.mk.inj hpair with ⟨hmint, howner⟩
    exact ⟨congrArg some hmint.symm, howner.symm⟩
  | none =>
    rw [hfound] at hpre
    rw [Option.map_eq_none_iff.mp hpre.symm]
    cases hfound' : (transactionMeta.postTokenBalances.getD []).reverse.find? fun balance =>
        transaction.keys[balance.accountIndex]? = some address with
    | some balance =>
      rw [hfound'] at hpost
      rcases Option.map_eq_some_iff.mp hpost.symm with ⟨account, haccount, hpair⟩
      rw [haccount]
      rcases Prod.mk.inj hpair with ⟨hmint, howner⟩
      exact ⟨congrArg some hmint.symm, howner.symm⟩
    | none =>
      rw [hfound'] at hpost
      rw [Option.map_eq_none_iff.mp hpost.symm]
      exact ⟨rfl, rfl⟩

theorem mem_keys_of_lists (h : Lists transaction steps) {call : ProgramCall} (hcall : call ∈ ranCalls steps)
    {address : Pubkey} (haddress : address ∈ call.accounts) : address ∈ transaction.keys := by
  have hexecuted : executedOf call ∈ executedInstructions transaction := by
    rw [executedInstructions_eq h]
    exact List.mem_map_of_mem hcall
  have hresolved : ∃ instruction, resolve transaction.keys instruction = executedOf call := by
    rcases List.mem_flatMap.mp hexecuted with ⟨entry, -, hentry⟩
    rcases List.mem_cons.mp hentry with hentry | hentry
    · exact ⟨entry.1, hentry.symm⟩
    · rcases List.mem_map.mp hentry with ⟨instruction, -, hinstruction⟩
      exact ⟨instruction, hinstruction⟩
  rcases hresolved with ⟨instruction, hinstruction⟩
  have haccounts : instruction.accounts.map (transaction.keys[·]?) = call.accounts.map some :=
    congrArg Executed.accounts hinstruction
  have hmem : some address ∈ instruction.accounts.map (transaction.keys[·]?) := by
    rw [haccounts]
    exact List.mem_map_of_mem haddress
  rcases List.mem_map.mp hmem with ⟨place, -, hplace⟩
  exact List.mem_of_getElem? hplace

theorem addTransfer_quiet (htokens : ∀ token ∈ paymentTokens, token.tokenProgram = programOf token.mint)
    {call : ProgramCall} (h : MovesNothing programOf call) (transfers : List PaymentTransfer) :
    addTransfer transaction user paymentTokens transfers (executedOf call) = some transfers := by
  unfold addTransfer
  split
  case isFalse => rfl
  case isTrue hany =>
    rcases h with hprogram | ⟨hthree, htwelve⟩
    · rcases List.any_eq_true.mp hany with ⟨token, htoken, hsame⟩
      have hsome := of_decide_eq_true hsame
      rw [htokens token htoken] at hsome
      exact absurd (Option.some.inj hsome).symm (hprogram token.mint)
    · have hnone : tokenTransfer transaction (executedOf call) = some none := by
        unfold tokenTransfer executedOf
        split
        case h_1 fields hdata =>
          rw [show call.data = _ from hdata] at hthree
          exact absurd rfl hthree
        case h_2 fields hdata =>
          rw [show call.data = _ from hdata] at htwelve
          exact absurd rfl htwelve
        case h_3 => rfl
      rw [hnone]
      rfl

theorem findIdx?_congr {α : Type} {p q : α → Bool} {l : List α} (h : ∀ a ∈ l, p a = q a) :
    l.findIdx? p = l.findIdx? q := by
  induction l with
  | nil => rfl
  | cons a l ih =>
    rw [List.findIdx?_cons, List.findIdx?_cons, h a List.mem_cons_self,
      ih fun b hb => h b (List.mem_cons_of_mem _ hb)]

theorem addTransfer_move (h : Scanned programOf paymentTokens transaction transactionMeta blockTime steps
      moves before after user watched) {call : ProgramCall} {move : Move}
    (hprogram : call.program = programOf move.mint)
    (hread : tokenTransfer transaction (executedOf call) = some ((move.listedMint before after).map
      fun mint => ⟨move.amount, some move.destination, some mint, some move.source⟩))
    (hsource : move.source ∈ transaction.keys) (hdestination : move.destination ∈ transaction.keys)
    (transfers : List PaymentTransfer) :
    addTransfer transaction user paymentTokens transfers (executedOf call) = some (transfers ++
      (readMove programOf paymentTokens before after user transfers.length move).toList) := by
  have hindex (mint : Pubkey) : (paymentTokens.findIdx? fun token =>
      some token.mint = some mint ∧ some token.tokenProgram = (executedOf call).programAddress) =
        paymentTokens.findIdx? fun token =>
          token.mint = mint ∧ token.tokenProgram = programOf move.mint := by
    have hcalled : (executedOf call).programAddress = some (programOf move.mint) := congrArg some hprogram
    simp only [hcalled, Option.some.injEq]
  have hsourceOwner : ownerOf transaction (some move.source) = listedOwner before after move.source :=
    (tokenAccount_eq h hsource).2
  have hdestinationOwner : ownerOf transaction (some move.destination) =
      listedOwner before after move.destination := (tokenAccount_eq h hdestination).2
  unfold addTransfer readMove
  split
  case isFalse hnone =>
    have hunknown (mint : Pubkey) : (paymentTokens.findIdx? fun token =>
        token.mint = mint ∧ token.tokenProgram = programOf move.mint) = none := by
      apply List.findIdx?_eq_none_iff.mpr
      intro token htoken
      apply decide_eq_false
      intro hboth
      apply hnone
      exact List.any_eq_true.mpr
        ⟨token, htoken, decide_eq_true (congrArg some (hboth.2.trans hprogram.symm))⟩
    cases move.listedMint before after with
    | none => exact congrArg some (List.append_nil _).symm
    | some mint =>
      simp only [Option.bind_eq_bind, Option.bind_some, hunknown]
      exact congrArg some (List.append_nil _).symm
  case isTrue =>
    rw [hread]
    cases move.listedMint before after with
    | none => exact congrArg some (List.append_nil _).symm
    | some mint =>
      simp only [Option.bind_eq_bind, Option.bind_some, Option.map_some, hindex, hsourceOwner,
        hdestinationOwner]
      cases paymentTokens.findIdx? fun token =>
          token.mint = mint ∧ token.tokenProgram = programOf move.mint with
      | none => exact congrArg some (List.append_nil _).symm
      | some paymentToken =>
        dsimp only [Option.bind_some]
        split
        · exact congrArg some (List.append_nil _).symm
        · rfl

theorem addTransfer_step (h : Scanned programOf paymentTokens transaction transactionMeta blockTime steps
      moves before after user watched) {ledger between : TokenLedger} {call : ProgramCall}
    {move : Option Move} (hstep : TokenStep programOf ledger call move between)
    (hkeys : ∀ address ∈ call.accounts, address ∈ transaction.keys) (transfers : List PaymentTransfer) :
    addTransfer transaction user paymentTokens transfers (executedOf call) = some (transfers ++
      (move.bind (readMove programOf paymentTokens before after user transfers.length)).toList) := by
  have hquiet (hnothing : MovesNothing programOf call) :
      addTransfer transaction user paymentTokens transfers (executedOf call) =
        some (transfers ++ []) := by
    rw [addTransfer_quiet h.tokens hnothing, List.append_nil]
  cases hstep with
  | other hnothing => exact hquiet hnothing
  | create account hnothing hnew => exact hquiet hnothing
  | setOwner owner hnothing hthere => exact hquiet hnothing
  | close hnothing hthere => exact hquiet hnothing
  | @transfer source destination authority sourceOwner destinationOwner mint signers amount others
      hsource hdestination hprogram haccounts hdata =>
    have hsourceKey := hkeys source (by rw [haccounts]; simp)
    have hdestinationKey := hkeys destination (by rw [haccounts]; simp)
    have hamount : Codec.uint64.read (LittleEndian.bytes 8 amount.toNat ++ others) = some amount :=
      Codec.uint64.read_encode_append amount others
    have hmint : (mintOf transaction (some source)).or (mintOf transaction (some destination)) =
        ((listed before after source).or (listed before after destination)).map TokenAccount.mint := by
      rw [(tokenAccount_eq h hsourceKey).1, (tokenAccount_eq h hdestinationKey).1]
      cases listed before after source <;> rfl
    apply addTransfer_move h hprogram _ hsourceKey hdestinationKey
    unfold tokenTransfer executedOf Move.listedMint
    rw [hdata, haccounts]
    simp only [List.map_cons, hamount, hmint, Option.bind_eq_bind, Option.bind_some, Bool.false_eq_true,
      if_false]
    cases ((listed before after source).or (listed before after destination)).map TokenAccount.mint <;>
      rfl
  | @transferChecked source destination authority sourceOwner destinationOwner mint signers amount
      decimals others hsource hdestination hprogram haccounts hdata =>
    have hsourceKey := hkeys source (by rw [haccounts]; simp)
    have hdestinationKey := hkeys destination (by rw [haccounts]; simp)
    have hfields : (Codec.uint64.pair Codec.uint8).read
        (LittleEndian.bytes 8 amount.toNat ++ decimals :: others) = some (amount, decimals) := by
      have hencoded := (Codec.uint64.pair Codec.uint8).read_encode_append (amount, decimals) others
      have hbytes : (Codec.uint64.pair Codec.uint8).encode (amount, decimals) =
          LittleEndian.bytes 8 amount.toNat ++ [decimals] := by
        rw [← encode_uint8 decimals]
        rfl
      rwa [hbytes, List.append_assoc, List.singleton_append] at hencoded
    apply addTransfer_move h hprogram _ hsourceKey hdestinationKey
    unfold tokenTransfer executedOf
    rw [hdata, haccounts]
    simp only [List.map_cons, hfields, Option.bind_eq_bind, Option.bind_some]
    rfl

theorem TokenRun.length_eq {ledger final : TokenLedger} {calls : List ProgramCall}
    (hrun : TokenRun programOf ledger calls moves final) : calls.length = moves.length := by
  induction hrun with
  | done => rfl
  | step _ _ ih => rw [List.length_cons, List.length_cons, ih]

theorem TokenRun.step_at {ledger final : TokenLedger} {calls : List ProgramCall}
    (hrun : TokenRun programOf ledger calls moves final) {place : ℕ} {move : Option Move}
    (hmove : moves[place]? = some move) : ∃ call, calls[place]? = some call ∧
      ∃ ledger between, TokenStep programOf ledger call move between := by
  induction hrun generalizing place with
  | done => cases hmove
  | @step ledger between final call calls first moves hstep hrest ih =>
    cases place with
    | zero =>
      obtain rfl := Option.some.inj hmove
      exact ⟨call, rfl, ledger, between, hstep⟩
    | succ place => exact ih hmove

section Places

variable (h : Scanned programOf paymentTokens transaction transactionMeta blockTime steps moves before
  after user watched)
include h

theorem transfersBefore_succ {place : ℕ} {move : Option Move} (hmove : moves[place]? = some move)
    {transfers : List PaymentTransfer}
    (htransfers : transfersBefore user transaction paymentTokens place = some transfers) :
    transfersBefore user transaction paymentTokens (place + 1) = some (transfers ++
      (move.bind (readMove programOf paymentTokens before after user transfers.length)).toList) := by
  rcases h.run.step_at hmove with ⟨call, hcall, ledger, between, hstep⟩
  have hexecuted : (executedInstructions transaction)[place]? = some (executedOf call) := by
    rw [executedInstructions_eq h.lists, List.getElem?_map, hcall]
    rfl
  have hkeys : ∀ address ∈ call.accounts, address ∈ transaction.keys :=
    fun address haddress => mem_keys_of_lists h.lists (List.mem_of_getElem? hcall) haddress
  unfold transfersBefore at htransfers ⊢
  rw [List.take_add_one, hexecuted, List.foldlM_append, htransfers]
  exact (bind_pure _).trans (addTransfer_step h hstep hkeys transfers)

/-- The instruction at a place is read as its call's transfer, numbered by those before it. -/
theorem readAt_eq {place : ℕ} {move : Option Move} (hmove : moves[place]? = some move)
    {transfers : List PaymentTransfer}
    (htransfers : transfersBefore user transaction paymentTokens place = some transfers) :
    readAt user transaction paymentTokens place =
      move.bind (readMove programOf paymentTokens before after user transfers.length) := by
  unfold readAt
  rw [htransfers, transfersBefore_succ h hmove htransfers]
  simp only [Option.bind_eq_bind, Option.bind_some, List.getElem?_append_right (Nat.le_refl _),
    Nat.sub_self]
  cases move.bind (readMove programOf paymentTokens before after user transfers.length) <;> rfl

theorem transfersBefore_eq {place : ℕ} (hplace : place ≤ moves.length) :
    transfersBefore user transaction paymentTokens place =
      some ((List.range place).filterMap (readAt user transaction paymentTokens)) := by
  induction place with
  | zero => rfl
  | succ place ih =>
    have hbefore := ih (Nat.le_of_succ_le hplace)
    have hmove := List.getElem?_eq_getElem hplace
    rw [transfersBefore_succ h hmove hbefore, ← readAt_eq h hmove hbefore, List.range_succ,
      List.filterMap_append]
    cases hread : readAt user transaction paymentTokens place with
    | none =>
      rw [List.filterMap_cons_none hread]
      rfl
    | some transfer =>
      rw [List.filterMap_cons_some hread]
      rfl

theorem getPaymentTransfers_eq : getPaymentTransfers transaction user paymentTokens =
    some ((List.range moves.length).filterMap (readAt user transaction paymentTokens)) := by
  rw [← transfersBefore_eq h (Nat.le_refl _)]
  have hlength : (executedInstructions transaction).length = moves.length := by
    rw [executedInstructions_eq h.lists, List.length_map, h.run.length_eq]
  unfold getPaymentTransfers transfersBefore
  rw [← hlength, List.take_length]

/-- The number of what a place is read as: how many transfers come before it. -/
theorem index_eq {place : ℕ} {transfer : PaymentTransfer}
    (hread : readAt user transaction paymentTokens place = some transfer) :
    place < moves.length ∧
      transfer.index = ((List.range place).filterMap (readAt user transaction paymentTokens)).length := by
  have hplace : place < moves.length := by
    by_contra hlast
    have hsame : (executedInstructions transaction).take place =
        (executedInstructions transaction).take (place + 1) := by
      have hlength : (executedInstructions transaction).length = moves.length := by
        rw [executedInstructions_eq h.lists, List.length_map, h.run.length_eq]
      rw [List.take_of_length_le (by omega), List.take_of_length_le (by omega)]
    unfold readAt transfersBefore at hread
    rw [hsame] at hread
    rcases Option.bind_eq_some_iff.mp hread with ⟨transfers, htransfers, hread⟩
    rw [htransfers] at hread
    simp at hread
  refine ⟨hplace, ?_⟩
  have hbefore := transfersBefore_eq h hplace.le
  rw [readAt_eq h (List.getElem?_eq_getElem hplace) hbefore] at hread
  rcases Option.bind_eq_some_iff.mp hread with ⟨move, -, hread⟩
  unfold readMove at hread
  simp only [Option.bind_eq_bind, Option.bind_eq_some_iff] at hread
  rcases hread with ⟨mint, -, paymentToken, -, hread⟩
  split at hread
  · cases hread
  · obtain rfl := Option.some.inj hread
    rfl

omit h in
/-- A later transfer has a higher number. -/
theorem length_lt_of_read {place other : ℕ} (hlt : place < other)
    (hread : (readAt user transaction paymentTokens place).isSome = true) :
    ((List.range place).filterMap (readAt user transaction paymentTokens)).length <
      ((List.range other).filterMap (readAt user transaction paymentTokens)).length := by
  rcases Option.isSome_iff_exists.mp hread with ⟨transfer, htransfer⟩
  have hsucc : (List.range (place + 1)).filterMap (readAt user transaction paymentTokens) =
      (List.range place).filterMap (readAt user transaction paymentTokens) ++ [transfer] := by
    rw [List.range_succ, List.filterMap_append, List.filterMap_cons_some htransfer]
    rfl
  have hearlier : (List.range (place + 1)).Sublist (List.range other) :=
    List.range_sublist.mpr hlt
  have hle := (hearlier.filterMap (readAt user transaction paymentTokens)).length_le
  rw [hsucc, List.length_append, List.length_singleton] at hle
  omega

end Places

variable {swapAuthority : Pubkey} {signature : Signature}

/-- What is listed of a kind is a transfer to or from the account. -/
theorem Move.Listed.touches {move : Move} {address : Pubkey} {kind : EventKind}
    (h : move.Listed before after user swapAuthority address kind) :
    move.source = address ∨ move.destination = address := by
  cases kind with
  | income => exact .inr h.1
  | payment => exact .inl h.1

theorem Move.Counts.touches {move : Move} {address : Pubkey} {kind : EventKind}
    (h : move.Counts user swapAuthority address kind) :
    move.source = address ∨ move.destination = address := by
  cases kind with
  | income => exact .inr h.1
  | payment => exact .inl h.1

theorem eq_of_findIdx? {mint other : Pubkey} {place : ℕ} {p : PaymentToken → Bool}
    (hmint : ∀ token, p token = true → token.mint = mint)
    (hfound : paymentTokens.findIdx? p = some place)
    (hother : tokenIndex paymentTokens other = some place) : mint = other := by
  rcases List.findIdx?_eq_some_iff_getElem.mp hfound with ⟨_, hplace, -⟩
  rcases List.findIdx?_eq_some_iff_getElem.mp hother with ⟨_, hsame, -⟩
  exact (hmint _ hplace).symm.trans (of_decide_eq_true hsame)

/-- By its owners a transfer is one with an outsider, of the kind, through the account. -/
def PaymentTransfer.Through (account : WatchedAccount) (swapAuthority : Pubkey)
    (self : PaymentTransfer) : EventKind → Prop
  | .income => self.destination = some account.address ∧
    ¬(self.sourceOwner = some account.user ∨ self.sourceOwner = some swapAuthority)
  | .payment => ¬(self.destination = some account.address ∧
      ¬(self.sourceOwner = some account.user ∨ self.sourceOwner = some swapAuthority)) ∧
    self.source = some account.address ∧
      ¬(self.destinationOwner = some account.user ∨ self.destinationOwner = some swapAuthority)

theorem transferAttestation_eq_some {account : WatchedAccount} {transfer : PaymentTransfer}
    {attestation : AttestationArgs} :
    transferAttestation signature blockTime account swapAuthority transfer = some attestation ↔
      transfer.amount ≠ 0 ∧ transfer.paymentToken = account.paymentToken.toNat ∧
      ∃ kind, transfer.Through account swapAuthority kind ∧ attestation = ⟨kind, account.user,
        transfer.paymentToken, transfer.amount.toNat, blockTime, signature, transfer.index⟩ := by
  rw [transferAttestation]
  constructor
  · intro h
    dsimp only at h
    split at h
    · cases h
    rename_i kind hkind
    split at h
    · cases h
    rename_i hcounted
    rcases not_or.mp hcounted with ⟨hamount, hplace⟩
    refine ⟨hamount, not_not.mp hplace, kind, ?_, (Option.some.inj h).symm⟩
    split at hkind
    · rename_i hincome
      obtain rfl := Option.some.inj hkind
      exact hincome
    rename_i hincome
    split at hkind
    · rename_i hpayment
      obtain rfl := Option.some.inj hkind
      exact ⟨hincome, hpayment⟩
    · cases hkind
  · rintro ⟨hamount, hplace, kind, hthrough, rfl⟩
    have hcounted : ¬(transfer.amount = 0 ∨ transfer.paymentToken ≠ account.paymentToken.toNat) :=
      not_or.mpr ⟨hamount, not_not.mpr hplace⟩
    cases kind with
    | income =>
      rw [PaymentTransfer.Through] at hthrough
      dsimp only
      rw [if_pos hthrough]
      exact if_neg hcounted
    | payment =>
      rw [PaymentTransfer.Through] at hthrough
      dsimp only
      rw [if_neg hthrough.1, if_pos hthrough.2]
      exact if_neg hcounted

theorem readMove_eq_some {move : Move} {index : ℕ} {transfer : PaymentTransfer} :
    readMove programOf paymentTokens before after user index move = some transfer ↔
      ∃ mint paymentToken, move.listedMint before after = some mint ∧
        (paymentTokens.findIdx? fun token =>
          token.mint = mint ∧ token.tokenProgram = programOf move.mint) = some paymentToken ∧
        (listedOwner before after move.source = some user ∨
          listedOwner before after move.destination = some user) ∧
        transfer = ⟨move.amount, some move.destination, listedOwner before after move.destination,
          index, paymentToken, some move.source, listedOwner before after move.source⟩ := by
  simp only [readMove, Option.bind_eq_bind, Option.bind_eq_some_iff]
  constructor
  · rintro ⟨mint, hmint, paymentToken, hindex, h⟩
    split at h
    · cases h
    rename_i howners
    exact ⟨mint, paymentToken, hmint, hindex, by tauto, (Option.some.inj h).symm⟩
  · rintro ⟨mint, paymentToken, hmint, hindex, howners, rfl⟩
    exact ⟨mint, hmint, paymentToken, hindex, if_neg (by tauto)⟩

theorem transferAttestation_readMove (htokens : ∀ token ∈ paymentTokens,
      token.tokenProgram = programOf token.mint) {account : WatchedAccount} (huser : account.user = user)
    {move : Move} (hassociated : move.source = account.address ∨ move.destination = account.address →
      tokenIndex paymentTokens move.mint = some account.paymentToken.toNat) {index : ℕ}
    {attestation : AttestationArgs} :
    (readMove programOf paymentTokens before after user index move).bind
        (transferAttestation signature blockTime account swapAuthority) = some attestation ↔
      move.amount ≠ 0 ∧ ∃ kind, move.Listed before after user swapAuthority account.address kind ∧
        attestation = ⟨kind, user, account.paymentToken.toNat, move.amount.toNat, blockTime, signature,
          index⟩ := by
  subst huser
  rw [Option.bind_eq_some_iff]
  constructor
  · rintro ⟨transfer, hread, hattested⟩
    rcases readMove_eq_some.mp hread with ⟨mint, paymentToken, hmint, hindex, howners, rfl⟩
    rcases transferAttestation_eq_some.mp hattested with ⟨hamount, hplace, kind, hthrough, rfl⟩
    dsimp only at hplace
    subst hplace
    have hlists (hto : move.source = account.address ∨ move.destination = account.address) :
        move.listedMint before after = some move.mint := by
      rw [hmint, eq_of_findIdx? (fun token htoken => (of_decide_eq_true htoken).1) hindex
        (hassociated hto)]
    refine ⟨hamount, kind, ?_, rfl⟩
    cases kind with
    | income =>
      rcases hthrough with ⟨hto, houtsider⟩
      rcases not_or.mp houtsider with ⟨hnotUser, hnotSwap⟩
      have hto := Option.some.inj hto
      exact ⟨hto, hlists (.inr hto), howners.resolve_left hnotUser, hnotUser, hnotSwap⟩
    | payment =>
      rcases hthrough with ⟨-, hfrom, houtsider⟩
      rcases not_or.mp houtsider with ⟨hnotUser, hnotSwap⟩
      have hfrom := Option.some.inj hfrom
      exact ⟨hfrom, hlists (.inl hfrom), howners.resolve_right hnotUser, hnotUser, hnotSwap⟩
  · rintro ⟨hamount, kind, hlisted, rfl⟩
    have hindex : (paymentTokens.findIdx? fun token =>
        token.mint = move.mint ∧ token.tokenProgram = programOf move.mint) =
          some account.paymentToken.toNat := by
      rw [← hassociated hlisted.touches]
      apply findIdx?_congr
      intro token htoken
      apply decide_eq_decide.mpr
      constructor
      · exact And.left
      · intro hmint
        exact ⟨hmint, (htokens token htoken).trans (congrArg programOf hmint)⟩
    cases kind with
    | income =>
      rcases hlisted with ⟨hto, hlists⟩
      refine ⟨_, readMove_eq_some.mpr ⟨_, _, hlists.mint, hindex, .inr hlists.owner, rfl⟩,
        transferAttestation_eq_some.mpr ⟨hamount, rfl, .income, ?_, rfl⟩⟩
      exact ⟨congrArg some hto, not_or.mpr ⟨hlists.notUser, hlists.notSwapAuthority⟩⟩
    | payment =>
      rcases hlisted with ⟨hfrom, hlists⟩
      refine ⟨_, readMove_eq_some.mpr ⟨_, _, hlists.mint, hindex, .inl hlists.owner, rfl⟩,
        transferAttestation_eq_some.mpr ⟨hamount, rfl, .payment, ?_, rfl⟩⟩
      exact ⟨fun hincome => hincome.2 (.inl hlists.owner), congrArg some hfrom,
        not_or.mpr ⟨hlists.notUser, hlists.notSwapAuthority⟩⟩

theorem filterMap_eq_singleton {α β γ : Type} {l : List α} {key : α → γ} {g : α → Option β} {a : α}
    {b : β} (hnodup : (l.map key).Nodup) (ha : a ∈ l) (hb : g a = some b)
    (honly : ∀ a' ∈ l, (g a').isSome = true → key a' = key a) : l.filterMap g = [b] := by
  induction l with
  | nil => cases ha
  | cons first l ih =>
    rw [List.map_cons, List.nodup_cons] at hnodup
    rcases List.mem_cons.mp ha with rfl | ha
    · rw [List.filterMap_cons_some hb]
      congr 1
      apply List.filterMap_eq_nil_iff.mpr
      intro other hother
      by_contra hsome
      have hsame := honly other (List.mem_cons_of_mem _ hother) (Option.isSome_iff_ne_none.mpr hsome)
      apply hnodup.1
      rw [← hsame]
      exact List.mem_map_of_mem hother
    · have hnone : g first = none := by
        by_contra hsome
        have hsame := honly first List.mem_cons_self (Option.isSome_iff_ne_none.mpr hsome)
        apply hnodup.1
        rw [hsame]
        exact List.mem_map_of_mem ha
      rw [List.filterMap_cons_none hnone]
      exact ih hnodup.2 ha fun other hother => honly other (List.mem_cons_of_mem _ hother)

section Accounts

variable (h : Scanned programOf paymentTokens transaction transactionMeta blockTime steps moves before
  after user watched)
include h

theorem attestedAt_iff {account : WatchedAccount} (haccount : account ∈ watched) {place : ℕ} {move : Move}
    (hmove : moves[place]? = some (some move)) {attestation : AttestationArgs} :
    attestedAt swapAuthority transaction paymentTokens signature blockTime account place =
        some attestation ↔
      move.amount ≠ 0 ∧ ∃ kind, move.Listed before after user swapAuthority account.address kind ∧
        attestation = ⟨kind, user, account.paymentToken.toNat, move.amount.toNat, blockTime, signature,
          ((List.range place).filterMap (readAt user transaction paymentTokens)).length⟩ := by
  have hplace := (List.getElem?_eq_some_iff.mp hmove).1
  have hbefore := transfersBefore_eq h hplace.le
  rw [attestedAt, h.users account haccount, readAt_eq h hmove hbefore, Option.bind_some]
  exact transferAttestation_readMove h.tokens (h.users account haccount)
    (h.associated account haccount move (List.mem_of_getElem? hmove))

/-- Two watched accounts that a transfer goes through are one. -/
theorem eq_of_touches {account other : WatchedAccount} (haccount : account ∈ watched)
    (hother : other ∈ watched) {move : Move} (hmove : some move ∈ moves)
    (htouches : move.source = account.address ∨ move.destination = account.address)
    (htouches' : move.source = other.address ∨ move.destination = other.address) : other = account := by
  have hsame := (h.associated other hother move hmove htouches').symm.trans
    (h.associated account haccount move hmove htouches)
  exact List.inj_on_of_nodup_map h.distinct hother haccount
    (UInt8.toNat_inj.mp (Option.some.inj hsame))

theorem getAttestations_eq {account : WatchedAccount} (haccount : account ∈ watched) :
    getAttestations transaction paymentTokens signature account swapAuthority =
      some ((List.range moves.length).filterMap
        (attestedAt swapAuthority transaction paymentTokens signature blockTime account)) := by
  unfold getAttestations
  rw [h.hasMeta, h.timed, h.users account haccount]
  dsimp only
  rw [h.succeeded, if_neg Bool.false_ne_true, getPaymentTransfers_eq h, Option.bind_eq_bind,
    Option.bind_some]
  apply congrArg some
  rw [List.filterMap_filterMap]
  apply List.filterMap_congr
  intro place _
  rw [attestedAt, h.users account haccount]

theorem attestedAt_once {account : WatchedAccount} (haccount : account ∈ watched) {place : ℕ}
    {move : Move} (hmove : moves[place]? = some (some move)) (hamount : move.amount ≠ 0)
    {kind : EventKind} (hlisted : move.Listed before after user swapAuthority account.address kind) :
    (watched.filterMap fun other =>
        attestedAt swapAuthority transaction paymentTokens signature blockTime other place) =
      [⟨kind, user, account.paymentToken.toNat, move.amount.toNat, blockTime, signature,
        ((List.range place).filterMap (readAt user transaction paymentTokens)).length⟩] := by
  apply filterMap_eq_singleton h.distinct haccount
    ((attestedAt_iff h haccount hmove).mpr ⟨hamount, kind, hlisted, rfl⟩)
  intro other hother hsome
  rcases Option.isSome_iff_exists.mp hsome with ⟨attestation, hattested⟩
  rcases ((attestedAt_iff h hother hmove).mp hattested).2 with ⟨kind', hlisted', -⟩
  rw [eq_of_touches h haccount hother (List.mem_of_getElem? hmove) hlisted.touches hlisted'.touches]

theorem told_of_partitions (hpartitions : Partitions user swapAuthority paymentTokens signature blockTime
      transaction moves watched) {move : Move} (hmem : some move ∈ moves) (hamount : move.amount ≠ 0)
    {account : WatchedAccount} (haccount : account ∈ watched) :
    Told before after user swapAuthority move account.address := by
  rcases List.mem_iff_getElem?.mp hmem with ⟨place, hmove⟩
  constructor
  · intro kind hcounts
    rcases hpartitions.once place move hmove hamount _
      (h.associated account haccount move hmem hcounts.touches) account haccount kind hcounts with
      ⟨index, honce⟩
    have hattested : (⟨kind, user, account.paymentToken.toNat, move.amount.toNat, blockTime, signature,
        index⟩ : AttestationArgs) ∈ watched.filterMap fun other =>
          attestedAt swapAuthority transaction paymentTokens signature blockTime other place := by
      rw [honce]
      exact List.mem_singleton_self _
    rcases List.mem_filterMap.mp hattested with ⟨other, hother, hread⟩
    rcases ((attestedAt_iff h hother hmove).mp hread).2 with ⟨kind', hlisted, hsame⟩
    obtain rfl : kind = kind' := congrArg AttestationArgs.kind hsame
    rwa [eq_of_touches h haccount hother hmem hcounts.touches hlisted.touches] at hlisted
  · intro hexcepted kind hlisted
    have hnone := List.filterMap_eq_nil_iff.mp (hpartitions.excepted place move hmove hexcepted) account
      haccount
    cases hnone.symm.trans ((attestedAt_iff h haccount hmove).mpr ⟨hamount, kind, hlisted, rfl⟩)

end Accounts

end Scanning

namespace Passing

def key (n : UInt8) : Pubkey := Vector.replicate 32 n

def token : PaymentToken := ⟨key 2, key 1, 6, 7⟩

def programOf : Pubkey → Pubkey := fun _ => key 1

/-- The user's associated account and another of theirs, a friend's and the swap authority's. -/
def ledger : TokenLedger := fun address =>
  if address = key 30 then some ⟨key 2, key 10⟩
  else if address = key 21 then some ⟨key 2, key 11⟩
  else if address = key 22 then some ⟨key 2, key 10⟩
  else if address = key 23 then some ⟨key 2, key 40⟩
  else none

def watchedAccount : WatchedAccount := ⟨key 30, 0, key 10, by decide⟩

def tokenCall (accounts : List Pubkey) (data : List UInt8) : ProgramCall :=
  ⟨key 1, accounts, data, .success, none⟩

def payment (source destination authority : Pubkey) : ProgramCall :=
  tokenCall [source, destination, authority] (3 :: LittleEndian.bytes 8 5)

def checkedPayment (source destination authority : Pubkey) : ProgramCall :=
  tokenCall [source, key 2, destination, authority] (12 :: (LittleEndian.bytes 8 3 ++ [6]))

def balances : List TokenBalance := [⟨4, key 2, some (key 10)⟩, ⟨5, key 2, some (key 11)⟩,
  ⟨6, key 2, some (key 10)⟩, ⟨7, key 2, some (key 40)⟩]

def details : TransactionMeta := ⟨false, none, none, none, some balances, some balances⟩

def keys : List Pubkey :=
  [key 1, key 10, key 11, key 20, key 30, key 21, key 22, key 23, key 2]

def transactionOf (instructions : List CompiledInstruction) : FetchedTransaction :=
  ⟨some 1700000000, some details, 7, ⟨keys, instructions⟩⟩

/-- The user opens an account, is paid into it, passes the tokens on and closes it. -/
def steps : List TopLevel :=
  [.program (tokenCall [key 20] [18]) .nothing, .program (payment (key 21) (key 20) (key 11)) .nothing,
    .program (payment (key 20) (key 30) (key 10)) .nothing, .program (tokenCall [key 20] [9]) .nothing]

def transaction : FetchedTransaction := transactionOf
  [⟨[3], [18], 0⟩, ⟨[5, 3, 2], 3 :: LittleEndian.bytes 8 5, 0⟩, ⟨[3, 4, 1], 3 :: LittleEndian.bytes 8 5, 0⟩,
    ⟨[3], [9], 0⟩]

def moves : List (Option Move) :=
  [none, some ⟨key 21, key 20, 5, key 2, key 11, key 10, false⟩,
    some ⟨key 20, key 30, 5, key 2, key 10, key 10, false⟩, none]

/-- The friend pays the user, who moves some to another account of theirs, pays the friend back and is
pulled from. -/
def several : FetchedTransaction := transactionOf
  [⟨[5, 4, 2], 3 :: LittleEndian.bytes 8 5, 0⟩, ⟨[4, 6, 1], 3 :: LittleEndian.bytes 8 5, 0⟩,
    ⟨[4, 8, 5, 1], 12 :: (LittleEndian.bytes 8 3 ++ [6]), 0⟩, ⟨[4, 7, 1], 3 :: LittleEndian.bytes 8 5, 0⟩]

def severalSteps : List TopLevel :=
  [.program (payment (key 21) (key 30) (key 11)) .nothing,
    .program (payment (key 30) (key 22) (key 10)) .nothing,
    .program (checkedPayment (key 30) (key 21) (key 10)) .nothing,
    .program (payment (key 30) (key 23) (key 10)) .nothing]

def severalMoves : List (Option Move) :=
  [some ⟨key 21, key 30, 5, key 2, key 11, key 10, false⟩,
    some ⟨key 30, key 22, 5, key 2, key 10, key 10, false⟩,
    some ⟨key 30, key 21, 3, key 2, key 10, key 11, true⟩,
    some ⟨key 30, key 23, 5, key 2, key 10, key 40, false⟩]

theorem listsAccounts : ListsAccounts keys balances ledger := by
  constructor
  · have hall : ∀ balance ∈ balances, ∃ address ∈ keys[balance.accountIndex]?, ∃ account ∈ ledger address,
        balance.mint = account.mint ∧ balance.owner = some account.owner := by
      decide
    intro balance hbalance
    rcases hall balance hbalance with ⟨address, hat, account, haccount, hmint, howner⟩
    exact ⟨address, account, hat, haccount, hmint, howner⟩
  · have hall : ∀ address ∈ keys, (ledger address).isSome = true →
        (balances.any fun balance => keys[balance.accountIndex]? = some address) = true := by
      decide
    intro address haddress hthere
    rcases List.any_eq_true.mp (hall address haddress hthere) with ⟨balance, hbalance, hat⟩
    exact ⟨balance, hbalance, of_decide_eq_true hat⟩

/-- The ledger while the user's passing account is there. -/
def opened : TokenLedger := Function.update ledger (key 20) (some ⟨key 2, key 10⟩)

theorem close_opened : Function.update opened (key 20) none = ledger := by
  unfold opened
  rw [Function.update_idem]
  exact Function.update_eq_self (key 20) ledger

theorem moves_run : TokenRun programOf ledger (ranCalls steps) moves ledger := by
  have hopen : TokenStep programOf ledger (tokenCall [key 20] [18]) none opened :=
    .create ⟨key 2, key 10⟩ (.inr (by decide)) (by decide)
  have hpaid : TokenStep programOf opened (payment (key 21) (key 20) (key 11))
      (some ⟨key 21, key 20, 5, key 2, key 11, key 10, false⟩) opened :=
    .transfer (by decide) (by decide) rfl rfl (List.append_nil _).symm
  have hpassed : TokenStep programOf opened (payment (key 20) (key 30) (key 10))
      (some ⟨key 20, key 30, 5, key 2, key 10, key 10, false⟩) opened :=
    .transfer (by decide) (by decide) rfl rfl (List.append_nil _).symm
  have hclosed : TokenStep programOf opened (tokenCall [key 20] [9]) none ledger := by
    rw [← close_opened]
    exact .close (.inr (by decide)) (by decide)
  exact .step hopen (.step hpaid (.step hpassed (.step hclosed (.done ledger))))

theorem severalRun : TokenRun programOf ledger (ranCalls severalSteps) severalMoves ledger := by
  have hincome : TokenStep programOf ledger (payment (key 21) (key 30) (key 11))
      (some ⟨key 21, key 30, 5, key 2, key 11, key 10, false⟩) ledger :=
    .transfer (by decide) (by decide) rfl rfl (List.append_nil _).symm
  have hown : TokenStep programOf ledger (payment (key 30) (key 22) (key 10))
      (some ⟨key 30, key 22, 5, key 2, key 10, key 10, false⟩) ledger :=
    .transfer (by decide) (by decide) rfl rfl (List.append_nil _).symm
  have hpaid : TokenStep programOf ledger (checkedPayment (key 30) (key 21) (key 10))
      (some ⟨key 30, key 21, 3, key 2, key 10, key 11, true⟩) ledger :=
    .transferChecked (by decide) (by decide) rfl rfl rfl
  have hpulled : TokenStep programOf ledger (payment (key 30) (key 23) (key 10))
      (some ⟨key 30, key 23, 5, key 2, key 10, key 40, false⟩) ledger :=
    .transfer (by decide) (by decide) rfl rfl (List.append_nil _).symm
  exact .step hincome (.step hown (.step hpaid (.step hpulled (.done ledger))))

theorem scanned {instructions : List CompiledInstruction} {steps : List TopLevel}
    {moves : List (Option Move)} (hlists : Lists (transactionOf instructions) steps)
    (hrun : TokenRun programOf ledger (ranCalls steps) moves ledger)
    (hmint : ∀ move, some move ∈ moves → move.mint = key 2) :
    Scanned programOf [token] (transactionOf instructions) details 1700000000 steps moves ledger ledger
      (key 10) [watchedAccount] := by
  constructor
  case hasMeta => rfl
  case succeeded => rfl
  case timed => rfl
  case lists => exact hlists
  case run => exact hrun
  case pre => exact listsAccounts
  case post => exact listsAccounts
  case tokens => exact fun _ h => List.mem_singleton.mp h ▸ rfl
  case users => exact fun _ h => List.mem_singleton.mp h ▸ rfl
  case distinct => exact List.nodup_singleton _
  case associated =>
    intro account haccount move hmove _
    rw [hmint move hmove, List.mem_singleton.mp haccount]
    decide

theorem lists_of_names {instructions : List CompiledInstruction} {steps : List TopLevel}
    (hnames : List.Forall₂ (Names keys) instructions (steps.map TopLevel.call))
    (halone : ∀ step ∈ steps, step.invoked = []) : Lists (transactionOf instructions) steps where
  topLevel := hnames
  inner := by
    intro index step hstep
    rw [halone step (List.mem_of_getElem? hstep)]
    exact .nil

theorem lists : Lists transaction steps := by
  apply lists_of_names
  · exact .cons ⟨rfl, rfl, rfl⟩ (.cons ⟨rfl, rfl, rfl⟩ (.cons ⟨rfl, rfl, rfl⟩
      (.cons ⟨rfl, rfl, rfl⟩ .nil)))
  · simp [steps, TopLevel.invoked, CallTraces.Trace.entered]

theorem severalLists : Lists several severalSteps := by
  apply lists_of_names
  · exact .cons ⟨rfl, rfl, rfl⟩ (.cons ⟨rfl, rfl, rfl⟩ (.cons ⟨rfl, rfl, rfl⟩
      (.cons ⟨rfl, rfl, rfl⟩ .nil)))
  · simp [severalSteps, TopLevel.invoked, CallTraces.Trace.entered]

end Passing

end Laterite.Operator
