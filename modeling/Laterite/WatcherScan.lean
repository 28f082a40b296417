import Laterite.IndexedHistory
import Laterite.PagedListings
import Laterite.TransferRefusals

/-!
# The watcher's scan of one account

A scan lists the account's finalized transactions after its cursor, goes through them oldest first
and attests each one's transfers, judged by the clock read at the tick's start; what it handled
becomes the cursor when it ends or throws. Calls of anyone, new transactions, reads of the user's
state and restarts fall anywhere in between.
-/

namespace Laterite.Watcher

open CheckedComputation TimedRuns PagedListings
open Indexer (Signature)

/-- The token account a watched user is credited through, in a payment token of the table. -/
structure WatchedAccount where
  address : Pubkey
  paymentToken : UInt8
  user : Pubkey
  known : paymentToken.toNat < paymentTokenCount

structure PaymentTransfer where
  amount : UInt64
  destination : Pubkey
  destinationOwner : Option Pubkey
  index : UInt16
  paymentToken : UInt8
  source : Pubkey
  sourceOwner : Option Pubkey

structure AccountTransaction where
  signature : Signature
  blockTime : Int64
  failed : Bool
  transfers : List PaymentTransfer

def attestationKind (account : WatchedAccount) (swapAuthority : Pubkey) (transfer : PaymentTransfer) :
    Option EventKind :=
  let excluded (owner : Option Pubkey) := owner = some account.user ∨ owner = some swapAuthority
  if transfer.destination = account.address ∧ ¬excluded transfer.sourceOwner then some .income
  else if transfer.source = account.address ∧ ¬excluded transfer.destinationOwner then some .payment
  else none

def getAttestations (transaction : AccountTransaction) (account : WatchedAccount)
    (swapAuthority : Pubkey) : List Attestation :=
  if transaction.failed then []
  else transaction.transfers.filterMap fun transfer =>
    match attestationKind account swapAuthority transfer with
    | none => none
    | some kind =>
      if transfer.amount = 0 ∨ transfer.paymentToken ≠ account.paymentToken then none
      else some {
        kind
        user := account.user
        paymentToken := transfer.paymentToken
        amount := transfer.amount
        eventTime := transaction.blockTime
        signature := transaction.signature
        transferIndex := transfer.index }

theorem mem_getAttestations {transaction : AccountTransaction} {account : WatchedAccount}
    {swapAuthority : Pubkey} {attestation : Attestation}
    (h : attestation ∈ getAttestations transaction account swapAuthority) :
    attestation.user = account.user ∧ attestation.paymentToken = account.paymentToken ∧
      attestation.eventTime = transaction.blockTime := by
  unfold getAttestations at h
  split at h
  · cases h
  · rcases List.mem_filterMap.mp h with ⟨transfer, -, htransfer⟩
    split at htransfer
    · cases htransfer
    · split at htransfer
      · cases htransfer
      · rename_i hkept
        cases htransfer
        exact ⟨rfl, not_not.mp (not_or.mp hkept).2, rfl⟩

/-- A transaction as a node lists it; the block time may be missing. -/
structure Listed where
  signature : Signature
  blockTime : Option ℤ
  err : Bool

def AccountTransaction.listed (known : AccountTransaction → Bool) (self : AccountTransaction) :
    Listed where
  signature := self.signature
  blockTime := if known self then some self.blockTime.toInt else none
  err := self.failed

/-- Older than the floor, by a block time that is there. -/
def Listed.below (floor : ℤ) (self : Listed) : Bool := self.blockTime.any (· < floor)

/-- The first time an attestation may carry by the user's state and the clock. -/
def scanFloor (user : Client.UserConfig) (now : ℤ) : ℤ :=
  let windowStart := now - attestationTtlSeconds
  if user.attestableFrom > windowStart then user.attestableFrom else windowStart

def signaturesSince (listing : ℕ → List Listed) (cursor : Option Signature) (floor : ℤ) :
    List Listed :=
  (collect Listed.signature listing cursor 1000 (Listed.below floor) ((listing 0).length + 1) 0
    none).reverse

/-- What is left of the transaction in hand: the transfers still to attest, and whether the first of
them was judged and its attest is being sent. -/
structure Current where
  transfers : List Attestation
  sending : Bool

structure Scan where
  now : ℤ
  floor : ℤ
  listed : Option (List Listed)
  handled : Option Signature
  current : Option Current

/-- The cluster, the account's finalized transactions, oldest first, the watcher's memory of the
user, its stored cursor, the clock its tick read and its scan. -/
structure World where
  chain : Chain
  transactions : List AccountTransaction
  users : Option Client.UserConfig
  cursor : Option Signature
  tick : Option ℤ
  scan : Option Scan

def World.genesis (accounts : Accounts) : World :=
  ⟨Chain.genesis accounts, [], none, none, none, none⟩

def World.stopped (self : World) (handled : Option Signature) : World :=
  { self with cursor := handled.or self.cursor, scan := none }

def Scan.next (self : Scan) (transfers : List Attestation) : Scan :=
  { self with current := some ⟨transfers, false⟩ }

/-- What the watcher makes of a transfer by the state it reads: done with, or to be sent. -/
def Scan.examine (self : Scan) (user : UserConfig) (record : Option AttestationRecord)
    (attestation : Attestation) (transfers : List Attestation) : Scan :=
  if (attestRefusal (Client.UserConfig.of user) attestation self.now).isSome ∨ record.isSome then
    self.next transfers
  else { self with current := some ⟨attestation :: transfers, true⟩ }

def World.sent (self : World) (scan : Scan) (transfers : List Attestation) :
    Result (Option Event) → World
  | .ok _ => { self with scan := some (scan.next transfers) }
  | .error fault =>
    match attestFailure fault with
    | some .counted | some (.refused _) => { self with scan := some (scan.next transfers) }
    | some .signature | none => self.stopped scan.handled

inductive WatcherEvent where
  | chain (happening : Happening)
  | finalize
  | refresh
  | tick (clock : ℤ)
  | start
  | list
  | skip
  | fetch (found taken : List Attestation)
  | examine (attestation : Attestation) (clock : ℤ)
  | send (inv : Invocation) (payer : Pubkey) (attestation : Attestation) (clock : ℤ)
  | complete
  | stop
  | abandon
  | crash

/-- One moment of the cluster or of the watcher of an account. No attestation is taken from a reply
without the transaction's `meta`. -/
inductive WatcherStep (d : Deployment) (account : WatchedAccount) :
    Transition World WatcherEvent → Prop
  | chain {now : ℤ} {world : World} {happening : Happening} {after : Chain}
    (h : Step d ⟨now, happening, world.chain, after⟩) :
    WatcherStep d account ⟨now, .chain happening, world, { world with chain := after }⟩
  | finalize {now : ℤ} {world : World} {transaction : AccountTransaction}
    (hnew : ∀ earlier ∈ world.transactions, earlier.signature ≠ transaction.signature ∧
      earlier.blockTime.toInt ≤ transaction.blockTime.toInt)
    (hpast : transaction.blockTime.toInt ≤ now) :
    WatcherStep d account ⟨now, .finalize, world,
      { world with transactions := world.transactions ++ [transaction] }⟩
  | refresh {now : ℤ} {world : World} :
    WatcherStep d account ⟨now, .refresh, world,
      { world with users := (world.chain.userConfigs account.user).map Client.UserConfig.of }⟩
  | tick {now clock : ℤ} {world : World} (hclock : clock ≤ now) :
    WatcherStep d account ⟨now, .tick clock, world, { world with tick := some clock }⟩
  | start {now clock : ℤ} {world : World} {user : Client.UserConfig} (huser : world.users = some user)
    (htick : world.tick = some clock) (hidle : world.scan = none) :
    WatcherStep d account ⟨now, .start, world,
      { world with scan := some ⟨clock, scanFloor user clock, none, none, none⟩ }⟩
  | list {now : ℤ} {world : World} {scan : Scan} (hscan : world.scan = some scan)
    (hlisted : scan.listed = none) (known : AccountTransaction → Bool) (listing : ℕ → List Listed)
    (hfirst : listing 0 = (world.transactions.map (AccountTransaction.listed known)).reverse)
    (hgrows : ∀ n, ∃ newer, listing (n + 1) = newer ++ listing n)
    (hdistinct : ∀ n, ((listing n).map Listed.signature).Nodup) :
    WatcherStep d account ⟨now, .list, world, { world with
      scan := some { scan with
        listed := some (signaturesSince listing world.cursor scan.floor) } }⟩
  | skip {now : ℤ} {world : World} {scan : Scan} {entry : Listed} {rest : List Listed}
    (hscan : world.scan = some scan) (hlisted : scan.listed = some (entry :: rest))
    (hcurrent : scan.current = none) (hskip : entry.err = true ∨ entry.below scan.floor = true) :
    WatcherStep d account ⟨now, .skip, world, { world with
      scan := some { scan with listed := some rest, handled := some entry.signature } }⟩
  | fetch {now : ℤ} {world : World} {scan : Scan} {entry : Listed} {rest : List Listed}
    {transaction : AccountTransaction} {taken : List Attestation} (hscan : world.scan = some scan)
    (hlisted : scan.listed = some (entry :: rest)) (hcurrent : scan.current = none)
    (hkept : ¬(entry.err = true ∨ entry.below scan.floor = true))
    (hfinalized : transaction ∈ world.transactions)
    (hsignature : transaction.signature = entry.signature)
    (htaken : taken = getAttestations transaction account d.swapAuthority ∨ taken = []) :
    WatcherStep d account ⟨now, .fetch (getAttestations transaction account d.swapAuthority) taken,
      world, { world with scan := some (scan.next taken) }⟩
  | examine {now : ℤ} {world : World} {scan : Scan} {attestation : Attestation}
    {transfers : List Attestation} {user : UserConfig} (hscan : world.scan = some scan)
    (hcurrent : scan.current = some ⟨attestation :: transfers, false⟩)
    (huser : world.chain.userConfigs attestation.user = some user) :
    WatcherStep d account ⟨now, .examine attestation scan.now, world, { world with
      users := some (Client.UserConfig.of user)
      scan := some (scan.examine user (world.chain.records attestation.transferId) attestation
        transfers) }⟩
  | send {world : World} {scan : Scan} {attestation : Attestation} {transfers : List Attestation}
    {inv : Invocation} {payer : Pubkey} (hscan : world.scan = some scan)
    (hcurrent : scan.current = some ⟨attestation :: transfers, true⟩) :
    WatcherStep d account ⟨inv.now, .send inv payer attestation scan.now, world,
      ({ world with chain := (submit d inv world.chain (.attest payer attestation)).2 } : World).sent
        scan transfers (submit d inv world.chain (.attest payer attestation)).1⟩
  | complete {now : ℤ} {world : World} {scan : Scan} {entry : Listed} {rest : List Listed}
    (hscan : world.scan = some scan) (hlisted : scan.listed = some (entry :: rest))
    (hcurrent : scan.current = some ⟨[], false⟩) :
    WatcherStep d account ⟨now, .complete, world, { world with
      scan := some { scan with
        listed := some rest, handled := some entry.signature, current := none } }⟩
  | stop {now : ℤ} {world : World} {scan : Scan} (hscan : world.scan = some scan) :
    WatcherStep d account ⟨now, .stop, world, world.stopped scan.handled⟩
  | abandon {now : ℤ} {world : World} :
    WatcherStep d account ⟨now, .abandon, world, { world with scan := none }⟩
  | crash {now : ℤ} {world : World} :
    WatcherStep d account ⟨now, .crash, world,
      { world with users := none, tick := none, scan := none }⟩

abbrev WatcherRun (d : Deployment) (accounts : Accounts) (account : WatchedAccount)
    (history : List (Transition World WatcherEvent)) (world : World) : Prop :=
  Run (WatcherStep d account) (World.genesis accounts) history world

def programHappening (d : Deployment) (t : Transition World WatcherEvent) : Option Happening :=
  match t.event with
  | .chain happening => some happening
  | .send inv payer attestation _ => some (.called inv (.attest payer attestation)
      (submit d inv t.before.chain (.attest payer attestation)).1)
  | _ => none

/-- The moment credited the transfer. -/
def Credits (d : Deployment) (id : TransferId) (t : Transition World WatcherEvent) : Prop :=
  ∃ inv payer attestation event, attestation.transferId = id ∧
    programHappening d t = some (.called inv (.attest payer attestation) (.ok event))

/-- The program refuses the transfer at every clock after the history, whatever happens until
then. -/
def NeverCounts (d : Deployment) (history : List (Transition World WatcherEvent)) (chain : Chain)
    (attestation : Attestation) : Prop :=
  ∀ later after, Run (Step d) chain later after →
    (∀ p ∈ history, ∀ q ∈ later, p.now ≤ q.now) → ∀ inv payer executed,
    (∀ p ∈ history, p.now ≤ inv.now) → (∀ q ∈ later, q.now ≤ inv.now) →
    attest d inv after payer attestation ≠ .ok executed

/-- The cursor has moved to the transaction or past it. -/
def World.MovedPast (self : World) (transaction : AccountTransaction) : Prop :=
  ∃ earlier last later, self.transactions = earlier ++ last :: later ∧
    self.cursor = some last.signature ∧ transaction ∈ earlier ++ [last]

/-- The moment takes the transfer's refusal for final: the one judged by the state read, or the one
a sent attest met. -/
def Refuses (d : Deployment) (attestation : Attestation) (t : Transition World WatcherEvent) : Prop :=
  match t.event with
  | .examine examined clock => examined = attestation ∧
      ∃ user, t.before.chain.userConfigs attestation.user = some user ∧
        (attestRefusal (Client.UserConfig.of user) attestation clock).isSome
  | .send inv payer sent _ => sent = attestation ∧
      ∃ fault reason, attest d inv t.before.chain payer attestation = .error fault ∧
        attestFailure fault = some (.refused reason)
  | _ => False

/-- Whenever the watcher judges a transfer, by the state it reads or by an attest it sends, no later
control could better the judgement, and it takes all the attestations of a transaction it fetches. -/
def Timely (t : Transition World WatcherEvent) : Prop :=
  match t.event with
  | .examine attestation clock | .send _ _ attestation clock =>
    ∀ user, t.before.chain.userConfigs attestation.user = some user →
      Judged user attestation clock t.now
  | .fetch found taken => taken = found
  | _ => True

end Laterite.Watcher
