import Laterite.KeyedTables
import Laterite.PagedListings
import Laterite.ProgramExecution

/-!
# The indexer

The indexer stores finalized transactions in batches, oldest first, each batch in one database
transaction with the cursor it moves. A batch inserts the rows of all its transactions before it
closes the attestations whose records they closed.
-/

namespace Laterite.Indexer

open KeyedTables PagedListings

abbrev Signature := Vector UInt8 64

structure AttestationRow where
  signature : Signature
  eventIndex : ℕ
  slot : ℕ
  blockTime : ℤ
  user : Pubkey
  kind : EventKind
  paymentToken : UInt8
  amount : UInt64
  eventTime : ℤ
  sourceSignature : Signature
  transferIndex : UInt16
  invested : UInt64
  pendingAfter : UInt64
  record : TransferId
  payer : Pubkey
  expiresAt : ℤ
  closedSignature : Option Signature
  closedAt : Option ℤ
  deriving DecidableEq

inductive UserEventKind where
  | enrolled
  | settingsUpdated
  | paused
  | resumed
  | pendingLowered
  | tierChanged
  | paymentTokensChanged
  | exited
  | reactivated
  deriving DecidableEq

inductive UserEventData where
  | terms (asset paymentTokens tier : UInt8)
  | params (params : EnrollParams)
  | pending (pending : UInt64)
  | paymentTokens (paymentTokens : UInt8)
  | tier (tier : UInt8)
  | empty
  deriving DecidableEq

structure UserEventRow where
  signature : Signature
  eventIndex : ℕ
  slot : ℕ
  blockTime : ℤ
  user : Pubkey
  kind : UserEventKind
  data : UserEventData
  deriving DecidableEq

structure Close where
  closedAt : ℤ
  closedSignature : Signature
  record : TransferId
  deriving DecidableEq

/-- What one transaction adds to the history, its sweeps apart. -/
structure Decoded where
  attestations : List AttestationRow
  closes : List Close
  userEvents : List UserEventRow
  deriving DecidableEq

def Decoded.empty : Decoded := ⟨[], [], []⟩

structure TransactionMeta where
  err : Bool
  logEvents : List Event

/-- A transaction as the node returns it, with the Laterite instructions it ran in order. -/
structure FetchedTransaction where
  blockTime : Option ℤ
  transactionMeta : Option TransactionMeta
  slot : ℕ
  executed : List Call

def closedRecord : Call → Option TransferId
  | .closeAttestation record _ => some record
  | _ => none

def attestAccounts : Call → Option (Pubkey × TransferId)
  | .attest payer attestation => some (payer, attestation.transferId)
  | _ => none

def userControl : Event → Option (Pubkey × UserEventKind × UserEventData)
  | .enrolled user tier paymentTokens asset => some (user, .enrolled, .terms asset paymentTokens tier)
  | .reactivated user tier paymentTokens asset =>
    some (user, .reactivated, .terms asset paymentTokens tier)
  | .userSettingsUpdated user params => some (user, .settingsUpdated, .params params)
  | .userPaused user paused => some (user, if paused then .paused else .resumed, .empty)
  | .pendingLowered user pending => some (user, .pendingLowered, .pending pending)
  | .tierChanged user tier => some (user, .tierChanged, .tier tier)
  | .paymentTokensChanged user paymentTokens =>
    some (user, .paymentTokensChanged, .paymentTokens paymentTokens)
  | .exited user => some (user, .exited, .empty)
  | _ => none

section Decode

variable (signature : Signature) (slot : ℕ) (blockTime : ℤ)

def attestationRow (eventIndex : ℕ) (payer : Pubkey) (record : TransferId)
    (attestation : Attestation) (invested pending : UInt64) : AttestationRow where
  signature := signature
  eventIndex := eventIndex
  slot := slot
  blockTime := blockTime
  user := attestation.user
  kind := attestation.kind
  paymentToken := attestation.paymentToken
  amount := attestation.amount
  eventTime := attestation.eventTime.toInt
  sourceSignature := attestation.signature
  transferIndex := attestation.transferIndex
  invested := invested
  pendingAfter := pending
  record := record
  payer := payer
  expiresAt := attestation.eventTime.toInt + attestationTtlSeconds
  closedSignature := none
  closedAt := none

def userEventRow (eventIndex : ℕ) (control : Pubkey × UserEventKind × UserEventData) :
    UserEventRow where
  signature := signature
  eventIndex := eventIndex
  slot := slot
  blockTime := blockTime
  user := control.1
  kind := control.2.1
  data := control.2.2

/-- One logged event; nothing when no `attest` is left for an attestation. -/
def decodeEvent (attests : List (Pubkey × TransferId)) (decoded : Decoded) (event : Event) :
    Option Decoded :=
  match event with
  | .attested attestation invested pending => do
    let (payer, record) ← attests[decoded.attestations.length]?
    return { decoded with
      attestations := decoded.attestations ++ [attestationRow signature slot blockTime
        decoded.attestations.length payer record attestation invested pending] }
  | event =>
    match userControl event with
    | some control => some { decoded with
        userEvents := decoded.userEvents ++
          [userEventRow signature slot blockTime decoded.userEvents.length control] }
    | none => some decoded

/-- The history rows of one successful transaction; nothing when it cannot be decoded. -/
def decodeTransaction (transaction : FetchedTransaction) : Option Decoded :=
  match transaction.transactionMeta, transaction.blockTime with
  | some transactionMeta, some blockTime =>
    if transactionMeta.err then some .empty
    else
      let closes := (transaction.executed.filterMap closedRecord).map fun record =>
        ⟨blockTime, signature, record⟩
      let attests := transaction.executed.filterMap attestAccounts
      transactionMeta.logEvents.foldlM (decodeEvent signature transaction.slot blockTime attests)
        { Decoded.empty with closes := closes }
  | _, _ => some .empty

end Decode

structure ListedSignature where
  signature : Signature
  slot : ℕ
  deriving DecidableEq

structure Tables where
  attestations : List AttestationRow
  userEvents : List UserEventRow
  indexerState : Option ListedSignature
  deriving DecidableEq

def Tables.empty : Tables := ⟨[], [], none⟩

def AttestationRow.key (row : AttestationRow) : Signature × ℕ := (row.signature, row.eventIndex)

def UserEventRow.key (row : UserEventRow) : Signature × ℕ := (row.signature, row.eventIndex)

def closeRow (close : Close) (row : AttestationRow) : AttestationRow :=
  if row.record = close.record ∧ row.closedSignature = none then
    { row with closedAt := some close.closedAt, closedSignature := some close.closedSignature }
  else row

/-- Transactions fetched and stored together. -/
def batchSize : ℕ := 100

/-- The signatures after `endAt`, oldest first; `listing n` is newest first, as the `n`-th request
finds it. -/
def signaturesSince (listing : ℕ → List ListedSignature) (endAt : Option Signature) :
    List ListedSignature :=
  (collect ListedSignature.signature listing endAt 1000 (fun _ => false)
    ((listing 0).length + 1) 0 none).reverse

/-- Stores a batch; nothing when a transaction is not available or cannot be decoded. -/
def store (fetch : Signature → Option FetchedTransaction) (tables : Tables)
    (batch : List ListedSignature) : Option Tables := do
  let decoded ← batch.mapM fun listed => do
    let transaction ← fetch listed.signature
    decodeTransaction listed.signature transaction
  let last ← batch.getLast?
  let attestations := insertMissing AttestationRow.key (decoded.flatMap Decoded.attestations)
    tables.attestations
  return {
    attestations := (decoded.flatMap Decoded.closes).foldl (fun rows close => rows.map (closeRow close))
      attestations
    userEvents := insertMissing UserEventRow.key (decoded.flatMap Decoded.userEvents) tables.userEvents
    indexerState := some last }

end Laterite.Indexer
