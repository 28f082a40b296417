import Laterite.EventEncodings
import Laterite.FetchedTransactions
import Laterite.FinalizedTransactions
import Laterite.ReplayedRuns

/-!
# What the indexer reads in a transaction

The instructions a transaction ran are listed in the order they were invoked, the events Laterite
logged in the order it logged them. The indexer counts the events of attestations off against the
`attest` instructions. Each attest logs one event and nothing of Laterite runs inside it, so the two
orders are one.
-/

namespace Laterite.Operator

open CallTraces Logs Client CheckedComputation
open Indexer (Signature UserEventRow userControl userEventRow NotAttested)

structure SweepRow where
  signature : Signature
  eventIndex : ℕ
  slot : ℕ
  blockTime : ℤ
  event : Swept
  feePayer : Option Pubkey
  deriving DecidableEq

/-- A landed attestation; an address is missing where the instruction's is. -/
structure AttestationRow where
  signature : Signature
  eventIndex : ℕ
  slot : ℕ
  blockTime : ℤ
  user : Pubkey
  kind : EventKind
  paymentToken : UInt8
  amount : UInt64
  eventTime : ℤ
  sourceSignature : Signature
  transferIndex : UInt16
  invested : UInt64
  pendingAfter : UInt64
  record : Option Pubkey
  payer : Option Pubkey
  expiresAt : ℤ
  deriving DecidableEq

structure Close where
  closedAt : ℤ
  closedSignature : Signature
  record : Option Pubkey
  deriving DecidableEq

/-- What one transaction adds to the history. -/
structure Decoded where
  attestations : List AttestationRow
  closes : List Close
  sweeps : List SweepRow
  userEvents : List UserEventRow
  deriving DecidableEq

def Decoded.empty : Decoded := ⟨[], [], [], []⟩

section Decode

variable (laterite : Pubkey)

def isLaterite (kind : LateriteInstruction) (instruction : Executed) : Bool :=
  instruction.programAddress = some laterite ∧ identifyLateriteInstruction instruction.data = some kind

def getLateriteEventData (instruction : Executed) : Option (List UInt8) :=
  if instruction.programAddress ≠ some laterite then none
  else if eventIxTagLe.isPrefixOf instruction.data then
    some (instruction.data.drop eventIxTagLe.length)
  else none

def parseAttestInstruction (instruction : Executed) : Option (Option Pubkey × Option Pubkey) :=
  match instruction.accounts with
  | payer :: _config :: _userConfig :: record :: _instructions :: _systemProgram :: _ =>
    (attestationCodec.read (instruction.data.drop 8)).map fun _ => (payer, record)
  | _ => none

def parseCloseAttestationInstruction (instruction : Executed) : Option (Option Pubkey) :=
  match instruction.accounts with
  | record :: _payer :: _ => some record
  | _ => none

variable (signature : Signature) (slot : ℕ) (blockTime : ℤ)

/-- The sweep an instruction tells of, after those of the instructions before it. -/
def decodeSweep (feePayer : Option Pubkey) (sweeps : List SweepRow) (instruction : Executed) :
    Option (List SweepRow) :=
  match getLateriteEventData laterite instruction with
  | none => some sweeps
  | some data =>
    if sweptEventDiscriminator.isPrefixOf data then do
      let event ← sweptCodec.read (data.drop 8)
      return sweeps ++ [⟨signature, sweeps.length, slot, blockTime, event, feePayer⟩]
    else some sweeps

def attestationRow (eventIndex : ℕ) (payer record : Option Pubkey) (attestation : Attestation)
    (invested pending : UInt64) : AttestationRow where
  signature := signature
  eventIndex := eventIndex
  slot := slot
  blockTime := blockTime
  user := attestation.user
  kind := attestation.kind
  paymentToken := attestation.paymentToken
  amount := attestation.amount
  eventTime := attestation.eventTime.toInt
  sourceSignature := attestation.signature
  transferIndex := attestation.transferIndex
  invested := invested
  pendingAfter := pending
  record := record
  payer := payer
  expiresAt := attestation.eventTime.toInt + attestationTtlSeconds

/-- One event, once its fields are read; nothing when no `attest` is left for an attestation. -/
def addEvent (attests : List Executed) (decoded : Decoded) : Event → Option Decoded
  | .attested attestation invested pending => do
    let attest ← attests[decoded.attestations.length]?
    let (payer, record) ← parseAttestInstruction attest
    return { decoded with
      attestations := decoded.attestations ++ [attestationRow signature slot blockTime
        decoded.attestations.length payer record attestation invested pending] }
  | event =>
    match userControl event with
    | some control => some { decoded with
        userEvents := decoded.userEvents ++
          [userEventRow signature slot blockTime decoded.userEvents.length control] }
    | none => some decoded

/-- The data of one logged event; of a kind nobody reads, nothing is added. -/
def decodeEvent (attests : List Executed) (decoded : Decoded) (data : List UInt8) : Option Decoded :=
  match (identifyLateriteEvent data).bind parser with
  | none => some decoded
  | some parse => do
    let event ← parse (data.drop 8)
    addEvent signature slot blockTime attests decoded event

end Decode

/-- The history rows of one successful transaction; nothing when it cannot be decoded. -/
def decodeTransaction (laterite : Pubkey) (signature : Signature) (transaction : FetchedTransaction) :
    Option Decoded :=
  match transaction.transactionMeta, transaction.blockTime with
  | some transactionMeta, some blockTime =>
    if transactionMeta.err then some .empty
    else do
      let executed := executedInstructions transaction
      let feePayer := transaction.keys[0]?
      let sweeps ← executed.foldlM
        (decodeSweep laterite signature transaction.slot blockTime feePayer) []
      let closes ← (executed.filter (isLaterite laterite .closeAttestation)).mapM fun instruction => do
        let record ← parseCloseAttestationInstruction instruction
        return (⟨blockTime, signature, record⟩ : Close)
      let attests := executed.filter (isLaterite laterite .attest)
      let events ← getLateriteLogEvents (addressText laterite) (transactionMeta.logMessages.getD [])
      events.foldlM (decodeEvent signature transaction.slot blockTime attests)
        ⟨[], closes, sweeps, []⟩
  | _, _ => some .empty

def instructionKind : Call → LateriteInstruction
  | .initializeConfig .. => .initializeConfig
  | .updateConfig .. => .updateConfig
  | .setPaused .. => .setPaused
  | .setMarketCalendar .. => .setMarketCalendar
  | .proposeAdmin .. => .proposeAdmin
  | .acceptAdmin .. => .acceptAdmin
  | .createPlan .. => .createPlan
  | .enroll .. => .enroll
  | .attest .. => .attest
  | .closeAttestation .. => .closeAttestation
  | .sweep .. => .sweep
  | .updateSettings .. => .updateSettings
  | .setUserPaused .. => .setUserPaused
  | .lowerPending .. => .lowerPending
  | .changeTier .. => .changeTier
  | .changePaymentTokens .. => .changePaymentTokens
  | .exit .. => .exit
  | .reactivate .. => .reactivate

/-- The accounts and the arguments an instruction is invoked with, as far as the indexer reads them. -/
def Arguments : Call → List Pubkey → List UInt8 → Prop
  | .attest payer attestation, accounts, arguments =>
    (∃ config userConfig record instructions systemProgram others,
      accounts = payer :: config :: userConfig :: record :: instructions :: systemProgram :: others) ∧
      ∃ others, arguments = attestation.serialize ++ others
  | .closeAttestation _ payer, accounts, _ => ∃ record others, accounts = record :: payer :: others
  | _, _, _ => True

def Invokes (instruction : Call) (call : ProgramCall) : Prop :=
  ∃ arguments, call.data = instructionDiscriminator (instructionKind instruction) ++ arguments ∧
    Arguments instruction call.accounts arguments

/-- The data a program logs itself. -/
def ownData (body : Execution) : List (List (List UInt8)) :=
  body.own.filterMap fun entry =>
    match entry with
    | .data fields => some fields
    | _ => none

/-- An event is logged as one field, unless it is emitted by a self-CPI. -/
def Emitted (event : Option Event) (body : Execution) : Prop :=
  match event.filter Indexer.logged with
  | none => ownData body = []
  | some event => ∃ data, EventData event data ∧ ownData body = [[data]]

/-- An invocation of Laterite that succeeded: an instruction, with the event it logs, under an attest
nothing of Laterite; or a sweep's event, which the program calls itself with. -/
inductive Performs (d : Deployment) (call : ProgramCall) (body : Execution) : Prop
  | instruction {inv : Invocation} {before after : Chain} {instruction : Call} {event : Option Event}
    (h : execute d inv before instruction = .ok (event, after)) (hinvokes : Invokes instruction call)
    (hemitted : Emitted event body) (hnested : (Indexer.attestAccounts instruction).isSome = true →
      ∀ inner ∈ body.entered, inner.program ≠ d.id)
  | event (event : Swept)
    (hdata : call.data = eventIxTagLe ++ (sweptEventDiscriminator ++ Swept.serialize event))
    (hown : ownData body = [])

/-- A transaction that succeeded, as the node returns it with its whole log, and what ran in it. -/
structure Landed (d : Deployment) (transaction : FetchedTransaction) (steps : List TopLevel)
    (transactionMeta : TransactionMeta) (blockTime : ℤ) : Prop where
  hasMeta : transaction.transactionMeta = some transactionMeta
  succeeded : transactionMeta.err = false
  timed : transaction.blockTime = some blockTime
  lists : Lists transaction steps
  logs : transactionMeta.logMessages = some (logLines (execution steps))
  performs : (execution steps).Each fun call body => call.program = d.id → Performs d call body
  precompiles : ∀ call, TopLevel.precompile call ∈ steps → call.program ≠ d.id

theorem mem_ownData {body : Execution} {fields : List (List UInt8)} (h : Entry.data fields ∈ body.own) :
    fields ∈ ownData body := List.mem_filterMap.mpr ⟨_, h, rfl⟩

section Logging

variable {d : Deployment} {call : ProgramCall} {body : Execution}

/-- What an invocation of Laterite logs: nothing, or one event as one field. -/
theorem Performs.ownData (h : Performs d call body) : ownData body = [] ∨
    ∃ event data, EventData event data ∧ Operator.ownData body = [[data]] := by
  cases h with
  | event event hdata hown => exact .inl hown
  | @instruction inv before after instruction event h hinvokes hemitted hnested =>
    unfold Emitted at hemitted
    split at hemitted
    case h_1 => exact .inl hemitted
    case h_2 event' _ =>
      rcases hemitted with ⟨data, hdata, hown⟩
      exact .inr ⟨event', data, hdata, hown⟩

theorem Performs.logsEvents (h : call.program = d.id → Performs d call body) :
    LogsEvents d.id call body := by
  intro hprogram fields hfields
  have hmem := mem_ownData hfields
  rcases (h hprogram).ownData with hown | ⟨event, data, -, hown⟩
  · rw [hown] at hmem
    cases hmem
  · rw [hown, List.mem_singleton] at hmem
    rw [hmem]
    rfl

def isAttested (data : List UInt8) : Bool := identifyLateriteEvent data = some .attested

def attestedData (laterite : Pubkey) (call : ProgramCall) (entry : Entry) : Option (List UInt8) :=
  (eventData laterite call entry).filter isAttested

theorem attestedData_of_ne {laterite : Pubkey} {call : ProgramCall} (h : call.program ≠ laterite)
    (entry : Entry) : attestedData laterite call entry = none := by
  unfold attestedData
  rw [eventData_of_ne h]
  rfl

theorem filterMap_attestedData (hprogram : call.program = d.id) :
    body.own.filterMap (attestedData d.id call) =
      ((ownData body).map List.flatten).filter isAttested := by
  unfold ownData
  induction body.own with
  | nil => rfl
  | cons entry entries ih =>
    cases entry with
    | data fields =>
      have hdata : attestedData d.id call (.data fields) =
          if isAttested fields.flatten then some fields.flatten else none := by
        have hlogged : eventData d.id call (.data fields) = some fields.flatten := if_pos hprogram
        unfold attestedData
        rw [hlogged]
        rfl
      have hown : (Entry.data fields :: entries).filterMap (fun entry =>
          match entry with
          | .data fields => some fields
          | _ => none) = fields :: entries.filterMap fun entry =>
            match entry with
            | .data fields => some fields
            | _ => none := rfl
      rw [hown, List.map_cons, List.filter_cons, List.filterMap_cons, hdata]
      by_cases hattested : isAttested fields.flatten = true
      · rw [if_pos hattested, if_pos hattested, ← ih]
      · rw [if_neg hattested, if_neg hattested, ← ih]
    | log message => exact ih
    | returned bytes => exact ih
    | consumption remaining => exact ih

theorem isAttested_eventData {event : Event} {data : List UInt8} (h : EventData event data) :
    isAttested data = decide (kindOf event = .attested) := by
  rcases h with ⟨fields, -, rfl⟩
  unfold isAttested
  rw [identifyLateriteEvent_append]
  simp

theorem kindOf_ne_attested {event : Event} (h : NotAttested event) : kindOf event ≠ .attested := by
  cases event with
  | attested attestation invested pending => exact absurd rfl (h _ _ _)
  | _ => exact fun hkind => nomatch hkind

def isAttest (laterite : Pubkey) (call : ProgramCall) : Bool :=
  isLaterite laterite .attest (executedOf call)

theorem isAttest_of_ne {laterite : Pubkey} (h : call.program ≠ laterite) :
    isAttest laterite call = false := by
  apply decide_eq_false
  intro hattest
  exact h (Option.some.inj hattest.1)

theorem isAttest_of_invokes {instruction : Call} (hprogram : call.program = d.id)
    (h : Invokes instruction call) :
    isAttest d.id call = (Indexer.attestAccounts instruction).isSome := by
  rcases h with ⟨arguments, hdata, -⟩
  have hkind : identifyLateriteInstruction call.data = some (instructionKind instruction) := by
    rw [hdata]
    exact identifyLateriteInstruction_append _ _
  unfold isAttest isLaterite executedOf
  rw [hkind, hprogram]
  cases instruction <;> simp [instructionKind, Indexer.attestAccounts]

/-- An attest logs the event of one attestation and runs nothing of Laterite; nothing else logs one. -/
theorem Performs.marksOnce (h : call.program = d.id → Performs d call body) :
    Trace.MarksOnce (attestedData d.id) (isAttest d.id) call body := by
  unfold Trace.MarksOnce
  by_cases hprogram : call.program = d.id
  · have hnone (hall : ∀ data ∈ (Operator.ownData body).map List.flatten, isAttested data = false) :
        ∀ entry ∈ body.own, attestedData d.id call entry = none := by
      apply List.filterMap_eq_nil_iff.mp
      rw [filterMap_attestedData hprogram]
      apply List.filter_eq_nil_iff.mpr
      intro data hdata
      rw [hall data hdata]
      exact Bool.false_ne_true
    cases h hprogram with
    | event event hdata hown =>
      have hattest : isAttest d.id call = false := by
        apply decide_eq_false
        intro hattest
        have hkind := hattest.2
        rw [executedOf, hdata, identifyLateriteInstruction_eventIxTagLe] at hkind
        cases hkind
      rw [hattest, if_neg Bool.false_ne_true]
      apply hnone
      rw [hown]
      exact fun _ hdata => nomatch hdata
    | @instruction inv before after instruction event hexecute hinvokes hemitted hnested =>
      rw [isAttest_of_invokes hprogram hinvokes]
      cases hattests : Indexer.attestAccounts instruction with
      | none =>
        rw [Option.isSome_none, if_neg Bool.false_ne_true]
        apply hnone
        unfold Emitted at hemitted
        split at hemitted
        case h_1 =>
          rw [hemitted]
          exact fun _ hdata => nomatch hdata
        case h_2 event' hfilter =>
          rcases hemitted with ⟨data, hdata, hown⟩
          rcases Option.eq_some_of_filter_eq_some hfilter with rfl
          have hnot := kindOf_ne_attested (Indexer.execute_event hexecute hattests)
          rw [hown]
          intro data' hdata'
          rw [List.map_singleton, List.mem_singleton, List.flatten_singleton] at hdata'
          rw [hdata', isAttested_eventData hdata]
          exact decide_eq_false hnot
      | some accounts =>
        rw [Option.isSome_some, if_pos rfl]
        rw [hattests] at hnested
        cases instruction with
        | attest payer attestation =>
          rw [execute, emitting_eq_ok] at hexecute
          rcases hexecute with ⟨_, rfl, hattest⟩
          rcases attest_ok hattest with ⟨_, _, invested, pending, -, -, -, -, -, -, -, -, -, -, -, -, -,
            rfl, -⟩
          rcases hemitted with ⟨data, hdata, hown⟩
          constructor
          · rw [filterMap_attestedData hprogram, hown, List.map_singleton, List.flatten_singleton,
              List.filter_cons_of_pos (by rw [isAttested_eventData hdata]; rfl)]
            rfl
          · intro inner hinner
            have hother := hnested rfl inner hinner
            exact ⟨isAttest_of_ne hother, attestedData_of_ne hother⟩
        | _ => cases hattests
  · rw [isAttest_of_ne hprogram, if_neg Bool.false_ne_true]
    exact fun entry _ => attestedData_of_ne hprogram entry

end Logging

/-- The events Laterite emitted in its log, each by the call that was running. -/
def Emissions (laterite : Pubkey) (execution : Execution) (emissions : List (ProgramCall × Event)) :
    Prop :=
  List.Forall₂ (fun emission marked => emission.1 = marked.1 ∧ EventData emission.2 marked.2) emissions
    (execution.marks (eventData laterite) none)

/-- An attestation was emitted by the `attest` that submitted it. -/
def ByAttest (emission : ProgramCall × Event) : Prop :=
  ∀ attestation invested pending, emission.2 = .attested attestation invested pending →
    ∃ payer, Invokes (.attest payer attestation) emission.1

section Decoding

variable (signature : Signature) (slot : ℕ) (blockTime : ℤ)

/-- The rows of the emitted attestations, each with the payer and the record of its `attest`. -/
def attestationRows (eventIndex : ℕ) : List (ProgramCall × Event) → List AttestationRow
  | [] => []
  | (call, .attested attestation invested pending) :: emissions =>
    attestationRow signature slot blockTime eventIndex call.accounts[0]? call.accounts[3]? attestation
      invested pending :: attestationRows (eventIndex + 1) emissions
  | _ :: emissions => attestationRows eventIndex emissions

def userEventRows (eventIndex : ℕ) : List (ProgramCall × Event) → List UserEventRow
  | [] => []
  | (_, event) :: emissions =>
    match userControl event with
    | some control =>
      userEventRow signature slot blockTime eventIndex control :: userEventRows (eventIndex + 1) emissions
    | none => userEventRows eventIndex emissions

variable {signature : Signature} {slot : ℕ} {blockTime : ℤ}

theorem decodeEvent_eventData {attests : List Executed} {decoded : Decoded} {event : Event}
    {data : List UInt8} (h : EventData event data) :
    decodeEvent signature slot blockTime attests decoded data =
      addEvent signature slot blockTime attests decoded event := by
  rcases h with ⟨fields, hfields, rfl⟩
  have hdrop : (eventDiscriminator (kindOf event) ++ fields).drop 8 = fields := by
    apply List.drop_left'
    cases kindOf event <;> rfl
  unfold decodeEvent
  rw [identifyLateriteEvent_append, Option.bind_some, hdrop]
  cases hparser : parser (kindOf event) with
  | none =>
    cases event with
    | attested | enrolled | reactivated | userSettingsUpdated | userPaused | pendingLowered
    | tierChanged | paymentTokensChanged | exited => cases hparser
    | _ => rfl
  | some parse =>
    dsimp only
    rw [parse_fields hparser hfields]
    rfl

theorem attestationRows_of_ne {eventIndex : ℕ} {call : ProgramCall} {event : Event}
    {emissions : List (ProgramCall × Event)} (h : NotAttested event) :
    attestationRows signature slot blockTime eventIndex ((call, event) :: emissions) =
      attestationRows signature slot blockTime eventIndex emissions := by
  cases event with
  | attested => exact absurd rfl (h _ _ _)
  | _ => rfl

theorem addEvent_of_ne {attests : List Executed} {decoded : Decoded} {event : Event}
    (h : NotAttested event) : addEvent signature slot blockTime attests decoded event =
      match userControl event with
      | some control => some { decoded with
          userEvents := decoded.userEvents ++
            [userEventRow signature slot blockTime decoded.userEvents.length control] }
      | none => some decoded := by
  cases event with
  | attested => exact absurd rfl (h _ _ _)
  | _ => rfl

theorem parseAttestInstruction_invokes {call : ProgramCall} {payer : Pubkey} {attestation : Attestation}
    (h : Invokes (.attest payer attestation) call) :
    parseAttestInstruction (executedOf call) = some (call.accounts[0]?, call.accounts[3]?) := by
  rcases h with ⟨arguments, hdata, ⟨config, userConfig, record, instructions, systemProgram, others,
    haccounts⟩, rest, harguments⟩
  have hdrop : call.data.drop 8 = attestationCodec.encode attestation ++ rest := by
    rw [hdata, harguments, encode_attestation]
    exact List.drop_left' rfl
  unfold parseAttestInstruction executedOf
  rw [haccounts]
  dsimp only [List.map_cons]
  rw [hdrop, attestationCodec.read_encode_append]
  rfl

/-- Decoding what was logged adds the emitted attestations and the users' controls, when the attests
left are those that emitted them. -/
theorem decodeEvents_eq {emissions : List (ProgramCall × Event)}
    {marked : List (ProgramCall × List UInt8)}
    (h : List.Forall₂ (fun emission marked => emission.1 = marked.1 ∧ EventData emission.2 marked.2)
      emissions marked) (hattest : ∀ emission ∈ emissions, ByAttest emission)
    {done : List Executed} {decoded : Decoded} (hdone : done.length = decoded.attestations.length) :
    (marked.map Prod.snd).foldlM (decodeEvent signature slot blockTime
        (done ++ ((marked.filter fun m => isAttested m.2).map Prod.fst).map executedOf)) decoded =
      some { decoded with
        attestations := decoded.attestations ++
          attestationRows signature slot blockTime decoded.attestations.length emissions
        userEvents := decoded.userEvents ++
          userEventRows signature slot blockTime decoded.userEvents.length emissions } := by
  induction h generalizing done decoded with
  | nil =>
    simp only [attestationRows, userEventRows, List.append_nil, List.map_nil, List.foldlM_nil]
    rfl
  | @cons emission mark emissions marked hemission hrest ih =>
    rcases emission with ⟨call, event⟩
    rcases mark with ⟨call', data⟩
    rcases hemission with ⟨rfl, hdata⟩
    have hlater := fun other hother => hattest other (List.mem_cons_of_mem (call, event) hother)
    rw [List.map_cons, List.foldlM_cons, decodeEvent_eventData hdata, List.filter_cons,
      isAttested_eventData hdata]
    by_cases hkind : kindOf event = .attested
    · cases event with
      | attested attestation invested pending =>
        rcases hattest _ List.mem_cons_self attestation invested pending rfl with ⟨payer, hinvokes⟩
        have hnext := @ih hlater (done ++ [executedOf call]) { decoded with
          attestations := decoded.attestations ++ [attestationRow signature slot blockTime
            decoded.attestations.length call.accounts[0]? call.accounts[3]? attestation invested
            pending] } (by simp only [List.length_append, List.length_singleton, hdone])
        have hfound : (done ++ executedOf call ::
            ((marked.filter fun m => isAttested m.2).map Prod.fst).map
              executedOf)[decoded.attestations.length]? = some (executedOf call) := by
          rw [← hdone, List.getElem?_append_right (Nat.le_refl _), Nat.sub_self]
          rfl
        rw [decide_eq_true hkind, if_pos rfl, List.map_cons, List.map_cons, addEvent, hfound]
        simp only [Option.bind_eq_bind, Option.bind_some, parseAttestInstruction_invokes hinvokes]
        rw [List.append_assoc, List.singleton_append] at hnext
        refine hnext.trans ?_
        rw [attestationRows, List.length_append, List.length_singleton, List.append_assoc,
          List.singleton_append]
        rfl
      | _ => cases hkind
    · have hnot : NotAttested event := by
        intro attestation invested pending heq
        rw [heq] at hkind
        exact hkind rfl
      rw [decide_eq_false hkind, if_neg Bool.false_ne_true, attestationRows_of_ne hnot,
        addEvent_of_ne hnot, userEventRows]
      cases userControl event with
      | none => exact ih hlater hdone
      | some control =>
        have hnext := @ih hlater done { decoded with
          userEvents := decoded.userEvents ++
            [userEventRow signature slot blockTime decoded.userEvents.length control] } hdone
        refine hnext.trans ?_
        dsimp only
        rw [List.length_append, List.length_singleton, List.append_assoc, List.singleton_append]

end Decoding

section Landing

variable {d : Deployment} {call : ProgramCall} {body : Execution}

/-- What Laterite logs is an event, that of an attestation by the `attest` that submitted it. -/
theorem Performs.emission (h : Performs d call body) {fields : List (List UInt8)}
    (hmem : fields ∈ Operator.ownData body) :
    ∃ event, EventData event fields.flatten ∧ ByAttest (call, event) := by
  cases h with
  | event event hdata hown =>
    rw [hown] at hmem
    cases hmem
  | @instruction inv before after instruction event hexecute hinvokes hemitted hnested =>
    unfold Emitted at hemitted
    split at hemitted
    case h_1 =>
      rw [hemitted] at hmem
      cases hmem
    case h_2 event' hfilter =>
      rcases hemitted with ⟨data, hdata, hown⟩
      rcases Option.eq_some_of_filter_eq_some hfilter with rfl
      rw [hown, List.mem_singleton] at hmem
      rw [hmem, List.flatten_singleton]
      refine ⟨event', hdata, ?_⟩
      intro attestation invested pending hevent
      cases hattests : Indexer.attestAccounts instruction with
      | none => exact absurd hevent (Indexer.execute_event hexecute hattests _ _ _)
      | some accounts =>
        cases instruction with
        | attest payer attestation' =>
          rw [execute, emitting_eq_ok] at hexecute
          rcases hexecute with ⟨_, hsome, hattest⟩
          rcases attest_ok hattest with ⟨_, _, _, _, -, -, -, -, -, -, -, -, -, -, -, -, -, rfl, -⟩
          cases (Option.some.inj hsome).symm.trans hevent
          exact ⟨payer, hinvokes⟩
        | _ => cases hattests

theorem exists_forall₂ {α β : Type} {R : α → β → Prop} {P : α → Prop} {bs : List β}
    (h : ∀ b ∈ bs, ∃ a, R a b ∧ P a) : ∃ as, List.Forall₂ R as bs ∧ ∀ a ∈ as, P a := by
  induction bs with
  | nil => exact ⟨[], .nil, fun _ hmem => nomatch hmem⟩
  | cons b bs ih =>
    rcases ih fun other hother => h other (List.mem_cons_of_mem _ hother) with ⟨as, has, hall⟩
    rcases h b List.mem_cons_self with ⟨a, ha, hP⟩
    exact ⟨a :: as, .cons ha has, List.forall_mem_cons.mpr ⟨hP, hall⟩⟩

theorem exists_emissions {execution : Execution}
    (h : execution.Each fun call body => call.program = d.id → Performs d call body) :
    ∃ emissions, Emissions d.id execution emissions ∧ ∀ emission ∈ emissions, ByAttest emission := by
  apply exists_forall₂
  intro marked hmarked
  rcases Trace.mem_marks h hmarked with ⟨body, hperforms, entry, hentry, hdata⟩ | ⟨hnone, -⟩
  · cases entry with
    | data fields =>
      by_cases hprogram : marked.1.program = d.id
      · have hlogged : eventData d.id marked.1 (.data fields) = some fields.flatten := if_pos hprogram
        rcases (hperforms hprogram).emission (mem_ownData hentry) with ⟨event, hevent, hattest⟩
        rw [hlogged] at hdata
        rw [Option.some.inj hdata] at hevent
        exact ⟨(marked.1, event), ⟨rfl, hevent⟩, hattest⟩
      · rw [eventData_of_ne hprogram] at hdata
        cases hdata
    | log message => cases hdata
    | returned bytes => cases hdata
    | consumption remaining => cases hdata
  · cases hnone

theorem Performs.decodeSweep (h : call.program = d.id → Performs d call body) (signature : Signature)
    (slot : ℕ) (blockTime : ℤ) (feePayer : Option Pubkey) (sweeps : List SweepRow) :
    ∃ sweeps', decodeSweep d.id signature slot blockTime feePayer sweeps (executedOf call) =
      some sweeps' := by
  have hskip (hdata : getLateriteEventData d.id (executedOf call) = none) :
      ∃ sweeps', Operator.decodeSweep d.id signature slot blockTime feePayer sweeps (executedOf call) =
        some sweeps' := by
    unfold Operator.decodeSweep
    rw [hdata]
    exact ⟨sweeps, rfl⟩
  by_cases hprogram : call.program = d.id
  · have hlaterite : ¬(executedOf call).programAddress ≠ some d.id := not_not.mpr (congrArg some hprogram)
    cases h hprogram with
    | event event hdata hown =>
      have htag : eventIxTagLe.isPrefixOf (executedOf call).data = true := by
        rw [executedOf, hdata, List.isPrefixOf_iff_prefix]
        exact List.prefix_append _ _
      have hevent : getLateriteEventData d.id (executedOf call) =
          some (sweptEventDiscriminator ++ Swept.serialize event) := by
        unfold getLateriteEventData
        rw [if_neg hlaterite, if_pos htag, executedOf, hdata, List.drop_left' rfl]
      have hread : sweptCodec.read (Swept.serialize event) = some event := by
        have hend := sweptCodec.read_encode_append event []
        rwa [List.append_nil, encode_swept] at hend
      have hfields : (sweptEventDiscriminator ++ Swept.serialize event).drop 8 = Swept.serialize event :=
        List.drop_left' rfl
      unfold Operator.decodeSweep
      rw [hevent]
      dsimp only
      rw [if_pos (List.isPrefixOf_iff_prefix.mpr (List.prefix_append _ _)), hfields, hread]
      exact ⟨_, rfl⟩
    | @instruction inv before after instruction event hexecute hinvokes hemitted hnested =>
      rcases hinvokes with ⟨arguments, hdata, -⟩
      apply hskip
      unfold getLateriteEventData
      rw [if_neg hlaterite, executedOf, hdata, eventIxTagLe_ne]
      rfl
  · apply hskip
    exact if_pos fun hsame => hprogram (Option.some.inj hsame)

theorem Performs.parseClose (h : call.program = d.id → Performs d call body)
    (hclose : isLaterite d.id .closeAttestation (executedOf call) = true) :
    ∃ record, parseCloseAttestationInstruction (executedOf call) = some record := by
  have hkinds := of_decide_eq_true hclose
  have hkind : identifyLateriteInstruction call.data = some .closeAttestation := hkinds.2
  cases h (Option.some.inj hkinds.1) with
  | event event hdata hown =>
    rw [hdata, identifyLateriteInstruction_eventIxTagLe] at hkind
    cases hkind
  | @instruction inv before after instruction event hexecute hinvokes hemitted hnested =>
    rcases hinvokes with ⟨arguments, hdata, harguments⟩
    rw [hdata, identifyLateriteInstruction_append] at hkind
    cases instruction with
    | closeAttestation record payer =>
      rcases harguments with ⟨address, others, haccounts⟩
      unfold parseCloseAttestationInstruction executedOf
      rw [haccounts]
      exact ⟨some address, rfl⟩
    | _ => cases hkind

theorem foldlM_isSome {α β : Type} {f : β → α → Option β} {as : List α}
    (h : ∀ a ∈ as, ∀ b, ∃ b', f b a = some b') (b : β) : ∃ b', as.foldlM f b = some b' := by
  induction as generalizing b with
  | nil => exact ⟨b, rfl⟩
  | cons a as ih =>
    rcases h a List.mem_cons_self b with ⟨b', hb'⟩
    rcases ih (fun other hother => h other (List.mem_cons_of_mem _ hother)) b' with ⟨b'', hb''⟩
    rw [List.foldlM_cons, hb']
    exact ⟨b'', hb''⟩

theorem mapM_isSome {α β : Type} {f : α → Option β} {as : List α}
    (h : ∀ a ∈ as, ∃ b, f a = some b) : ∃ bs, as.mapM f = some bs := by
  induction as with
  | nil => exact ⟨[], rfl⟩
  | cons a as ih =>
    rcases h a List.mem_cons_self with ⟨b, hb⟩
    rcases ih fun other hother => h other (List.mem_cons_of_mem _ hother) with ⟨bs, hbs⟩
    rw [List.mapM_cons, hb, Option.bind_eq_bind, Option.bind_some, hbs]
    exact ⟨b :: bs, rfl⟩

variable {transaction : FetchedTransaction} {steps : List TopLevel} {transactionMeta : TransactionMeta}
  {blockTime : ℤ}

theorem Landed.of_mem (h : Landed d transaction steps transactionMeta blockTime)
    (hmem : call ∈ ranCalls steps) : ∃ body, call.program = d.id → Performs d call body := by
  rcases List.mem_flatMap.mp hmem with ⟨step, hstep, hcall⟩
  cases step with
  | precompile other =>
    rcases List.mem_cons.mp hcall with rfl | hcall
    · exact ⟨.nothing, fun hprogram => absurd hprogram (h.precompiles _ hstep)⟩
    · cases hcall
  | program other body =>
    apply h.performs.of_mem_entered
    rw [entered_execution, List.mem_flatMap]
    exact ⟨_, hstep, hcall⟩

theorem Landed.attests (h : Landed d transaction steps transactionMeta blockTime) :
    (executedInstructions transaction).filter (isLaterite d.id .attest) =
      ((((execution steps).marks (eventData d.id) none).filter fun m => isAttested m.2).map
        Prod.fst).map executedOf := by
  have hprecompiles := h.precompiles
  have hentered : (ranCalls steps).filter (isAttest d.id) =
      (execution steps).entered.filter (isAttest d.id) := by
    rw [entered_execution, ranCalls, List.filter_flatMap, List.filter_flatMap]
    apply List.flatMap_congr
    intro step hstep
    cases step with
    | precompile other =>
      exact List.filter_cons_of_neg (by
        rw [show (TopLevel.precompile other).call = other from rfl,
          isAttest_of_ne (hprecompiles other hstep)]
        exact Bool.false_ne_true)
    | program other body => rfl
  have horder := @Trace.marks_in_order _ _ _ (attestedData d.id) (isAttest d.id) none _
    (fun _ hnone => nomatch hnone) (h.performs.mono fun _ _ => Performs.marksOnce)
  have hmarks : (execution steps).marks (attestedData d.id) none =
      ((execution steps).marks (eventData d.id) none).filter fun m => isAttested m.2 :=
    Trace.marks_filter isAttested
  rw [executedInstructions_eq h.lists, List.filter_map, ← hmarks, horder, ← hentered]
  rfl

/-- A transaction that landed is decoded: one row for each attestation emitted, in order, with the
payer and the record of the `attest` that emitted it, and one for each control of a user. -/
theorem Landed.decodeTransaction (h : Landed d transaction steps transactionMeta blockTime)
    (signature : Signature) : ∃ emissions decoded, Emissions d.id (execution steps) emissions ∧
      (∀ emission ∈ emissions, ByAttest emission) ∧
      Operator.decodeTransaction d.id signature transaction = some decoded ∧
      decoded.attestations = attestationRows signature transaction.slot blockTime 0 emissions ∧
      decoded.userEvents = userEventRows signature transaction.slot blockTime 0 emissions := by
  rcases exists_emissions h.performs with ⟨emissions, hemissions, hattest⟩
  have hsweeps : ∃ sweeps, (executedInstructions transaction).foldlM
      (decodeSweep d.id signature transaction.slot blockTime transaction.keys[0]?) [] = some sweeps := by
    apply foldlM_isSome
    rw [executedInstructions_eq h.lists]
    intro instruction hinstruction sweeps
    rcases List.mem_map.mp hinstruction with ⟨call, hcall, rfl⟩
    rcases h.of_mem hcall with ⟨body, hperforms⟩
    exact Performs.decodeSweep hperforms signature transaction.slot blockTime transaction.keys[0]? sweeps
  have hcloses : ∃ closes, ((executedInstructions transaction).filter
      (isLaterite d.id .closeAttestation)).mapM (fun instruction => do
        let record ← parseCloseAttestationInstruction instruction
        return (⟨blockTime, signature, record⟩ : Close)) = some closes := by
    apply mapM_isSome
    rw [executedInstructions_eq h.lists]
    intro instruction hinstruction
    rcases List.mem_filter.mp hinstruction with ⟨hinstruction, hclose⟩
    rcases List.mem_map.mp hinstruction with ⟨call, hcall, rfl⟩
    rcases h.of_mem hcall with ⟨body, hperforms⟩
    rcases Performs.parseClose hperforms hclose with ⟨record, hrecord⟩
    rw [hrecord]
    exact ⟨_, rfl⟩
  rcases hsweeps with ⟨sweeps, hsweeps⟩
  rcases hcloses with ⟨closes, hcloses⟩
  have hlog : getLateriteLogEvents (addressText d.id) (transactionMeta.logMessages.getD []) =
      some (lateriteData d.id (execution steps)) := by
    rw [h.logs]
    exact getLateriteLogEvents_eq (h.performs.mono fun _ _ => Performs.logsEvents)
  have hdecoded := @decodeEvents_eq signature transaction.slot blockTime emissions _ hemissions hattest
    [] ⟨[], closes, sweeps, []⟩ rfl
  rw [List.nil_append, ← h.attests] at hdecoded
  refine ⟨emissions, ⟨attestationRows signature transaction.slot blockTime 0 emissions, closes, sweeps,
    userEventRows signature transaction.slot blockTime 0 emissions⟩, hemissions, hattest, ?_, rfl, rfl⟩
  unfold Operator.decodeTransaction
  rw [h.hasMeta, h.timed]
  dsimp only
  rw [h.succeeded, if_neg Bool.false_ne_true, hsweeps, Option.bind_eq_bind, Option.bind_some, hcloses,
    Option.bind_eq_bind, Option.bind_some, hlog]
  exact hdecoded

end Landing

/-- Logs and events are read faithfully. From the lines of any execution just the data Laterite
logged is read, in order, and from a log cut anywhere the first of them; the failing invocation is
the first call to fail after the calls it was made in; and a transaction that landed yields one row
for each attestation emitted, with the payer and the record of the `attest` that emitted it. -/
theorem logs_read_faithfully (d : Deployment) :
    (∀ execution : Execution, execution.Each (LogsEvents d.id) →
      getLateriteLogEvents (addressText d.id) (logLines execution) =
        some (lateriteData d.id execution) ∧
      ∀ lines, Cut (logLines execution) lines →
        ∃ read, getLateriteLogEvents (addressText d.id) lines = some read ∧
          read <+: lateriteData d.id execution) ∧
    (∀ execution : Execution,
      failingInvocation (logLines execution) = programs ((failing execution).getD [])) ∧
    (∀ (signature : Signature) (transaction : FetchedTransaction) (steps : List TopLevel)
      (transactionMeta : TransactionMeta) (blockTime : ℤ),
      Landed d transaction steps transactionMeta blockTime →
      ∃ emissions decoded, Emissions d.id (execution steps) emissions ∧
        (∀ emission ∈ emissions, ByAttest emission) ∧
        decodeTransaction d.id signature transaction = some decoded ∧
        decoded.attestations = attestationRows signature transaction.slot blockTime 0 emissions ∧
        decoded.userEvents = userEventRows signature transaction.slot blockTime 0 emissions) := by
  refine ⟨?_, failingInvocation_eq, ?_⟩
  · intro execution hevents
    exact ⟨getLateriteLogEvents_eq hevents, fun _ hcut => getLateriteLogEvents_cut hevents hcut⟩
  · intro signature transaction steps transactionMeta blockTime hlanded
    exact hlanded.decodeTransaction signature

namespace Rehearsed

open Rehearsal

def eventBytes : List UInt8 :=
  eventDiscriminator .attested ++ (attestation.serialize ++ LittleEndian.bytes 8 1400000 ++
    LittleEndian.bytes 8 1400000)

def signatureCall : ProgramCall := ⟨address 206, [], signatureCheck.data, .success, none⟩

/-- A program that logs what looks like the end of Laterite, then has it attest. -/
def relay : ProgramCall := ⟨address 90, [founder, deployment.id], [1], .success, some (9000, 200000)⟩

def attestCall : ProgramCall where
  program := deployment.id
  accounts := [founder, address 80, address 81, address 82, address 83, address 84]
  data := instructionDiscriminator .attest ++ attestation.serialize
  outcome := .success
  consumed := some (5000, 190000)

def attestBody : Execution :=
  .logs (.log "Instruction: Attest".toList)
    (.calls ⟨address 84, [founder, address 82], [0], .success, none⟩ .nothing
      (.logs (.data [eventBytes]) .nothing))

def relayed : List TopLevel :=
  [.precompile signatureCall, .program relay
    (.logs (.log (endLine deployment.id .success)) (.calls attestCall attestBody
      (.logs (.data [[1], [2, 3]]) .nothing)))]

def transaction : FetchedTransaction where
  blockTime := some 1700000200
  transactionMeta := some {
    err := false
    innerInstructions := some [⟨1, [⟨[0, 4, 5, 6, 7, 8], attestCall.data, 2⟩, ⟨[0, 6], [0], 8⟩]⟩]
    loadedAddresses := none
    logMessages := some (logLines (execution relayed))
    postTokenBalances := none
    preTokenBalances := none }
  slot := 7
  transaction := {
    staticAccounts := [founder, address 206, deployment.id, address 90, address 80, address 81,
      address 82, address 83, address 84]
    instructions := [⟨[], signatureCheck.data, 1⟩, ⟨[0, 2], [1], 3⟩] }

theorem attested : ∃ after, execute deployment attesting.1 (ledger (enrolling :: handover)) attesting.2 =
    .ok (some (.attested attestation 1400000 1400000), after) := by
  have hevent : (execute deployment attesting.1 (ledger (enrolling :: handover)) attesting.2).toOption.map
      Prod.fst = some (some (.attested attestation 1400000 1400000)) := by
    decide +kernel
  cases hexecute : execute deployment attesting.1 (ledger (enrolling :: handover)) attesting.2 with
  | error fault =>
    rw [hexecute] at hevent
    cases hevent
  | ok done =>
    rw [hexecute] at hevent
    have hfirst : done.1 = some (.attested attestation 1400000 1400000) := Option.some.inj hevent
    exact ⟨done.2, congrArg Except.ok (Prod.ext hfirst rfl)⟩

theorem performs : Performs deployment attestCall attestBody := by
  rcases attested with ⟨after, hattested⟩
  apply Performs.instruction hattested
  · exact ⟨attestation.serialize, rfl, ⟨_, _, _, _, _, _, rfl⟩, [], (List.append_nil _).symm⟩
  · exact ⟨eventBytes, ⟨_, (List.append_assoc ..).symm, rfl⟩, rfl⟩
  · intro _ inner hinner
    rcases List.mem_singleton.mp hinner with rfl
    decide

theorem landed : Landed deployment transaction relayed ⟨false,
    some [⟨1, [⟨[0, 4, 5, 6, 7, 8], attestCall.data, 2⟩, ⟨[0, 6], [0], 8⟩]⟩], none,
    some (logLines (execution relayed)), none, none⟩ 1700000200 := by
  constructor
  case hasMeta => rfl
  case succeeded => rfl
  case timed => rfl
  case logs => rfl
  case lists =>
    constructor
    · exact .cons ⟨rfl, rfl, rfl⟩ (.cons ⟨rfl, rfl, rfl⟩ .nil)
    · intro index step hstep
      rcases index with _ | _ | index
      · cases hstep
        exact .nil
      · cases hstep
        exact .cons ⟨rfl, rfl, rfl⟩ (.cons ⟨rfl, rfl, rfl⟩ .nil)
      · cases hstep
  case performs =>
    have hother {n : UInt8} (h : address n ≠ deployment.id) {call : ProgramCall} {body : Execution}
        (hcall : call.program = address n) : call.program = deployment.id →
          Performs deployment call body := fun hprogram => absurd (hcall.symm.trans hprogram) h
    exact ⟨hother (by decide) rfl, ⟨fun _ => performs, ⟨hother (by decide) rfl, trivial, trivial⟩,
      trivial⟩, trivial⟩
  case precompiles =>
    intro call hcall
    rcases List.mem_cons.mp hcall with hcall | hcall
    · cases hcall
      decide
    · rcases List.mem_singleton.mp hcall with ⟨⟩

end Rehearsed

/-- The relayed attest is decoded, with its payer and record, and nothing the relay logged. -/
theorem logs_read_faithfully_relayed :
    getLateriteLogEvents (addressText Rehearsal.deployment.id) (logLines (execution Rehearsed.relayed)) =
      some [Rehearsed.eventBytes] ∧ ∃ emissions decoded,
    Emissions Rehearsal.deployment.id (execution Rehearsed.relayed) emissions ∧
      (∀ emission ∈ emissions, ByAttest emission) ∧
      decodeTransaction Rehearsal.deployment.id (Vector.replicate 64 3) Rehearsed.transaction =
        some decoded ∧
      decoded.attestations = attestationRows (Vector.replicate 64 3) 7 1700000200 0 emissions ∧
      decoded.userEvents = userEventRows (Vector.replicate 64 3) 7 1700000200 0 emissions :=
  ⟨((logs_read_faithfully Rehearsal.deployment).1 _
      (Rehearsed.landed.performs.mono fun _ _ => Performs.logsEvents)).1,
    (logs_read_faithfully Rehearsal.deployment).2.2 _ _ _ _ _ Rehearsed.landed⟩

end Laterite.Operator
