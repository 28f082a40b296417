import Laterite.AttestationRecords
import Laterite.IndexedHistory

/-!
# The transactions the program finalizes

A transaction runs its instructions in order at one clock, or fails and changes nothing. What the
indexer decodes from it is what its attests and closes did, in the order they ran.
-/

namespace Laterite.Indexer

open CheckedComputation KeyedTables

/-- An instruction that ran, with the event it emitted. -/
abbrev Ran := Call × Option Event

inductive Outcome where
  | landed (steps : List Ran)
  | failed (executed : List Call) (logEvents : List Event)

structure FinalizedTransaction where
  signature : Signature
  slot : ℕ
  blockTime : ℤ
  outcome : Outcome

def logged : Event → Bool
  | .swept _ => false
  | _ => true

namespace FinalizedTransaction

variable (self : FinalizedTransaction)

def listed : ListedSignature := ⟨self.signature, self.slot⟩

/-- The transaction as a node returns it whole: its logs are not truncated. -/
def fetched : FetchedTransaction :=
  match self.outcome with
  | .landed steps => {
      blockTime := some self.blockTime
      transactionMeta := some ⟨false, (steps.filterMap Prod.snd).filter logged⟩
      slot := self.slot
      executed := steps.map Prod.fst }
  | .failed executed logEvents => {
      blockTime := some self.blockTime
      transactionMeta := some ⟨true, logEvents⟩
      slot := self.slot
      executed := executed }

/-- The attests and closes of some steps in the order they ran, the first attestation's event
index being `eventIndex`. -/
def changesFrom (eventIndex : ℕ) : List Ran → List (Change AttestationRow Close)
  | [] => []
  | (.attest payer attestation, some (.attested _ invested pending)) :: steps =>
    .enter (attestationRow self.signature self.slot self.blockTime eventIndex payer
      attestation.transferId attestation invested pending) :: changesFrom (eventIndex + 1) steps
  | (.closeAttestation record _, _) :: steps =>
    .mark ⟨self.blockTime, self.signature, record⟩ :: changesFrom eventIndex steps
  | _ :: steps => changesFrom eventIndex steps

def controlsFrom (eventIndex : ℕ) : List Ran → List UserEventRow
  | [] => []
  | (_, event) :: steps =>
    match event.bind userControl with
    | some control =>
      userEventRow self.signature self.slot self.blockTime eventIndex control ::
        controlsFrom (eventIndex + 1) steps
    | none => controlsFrom eventIndex steps

def changes : List (Change AttestationRow Close) :=
  match self.outcome with
  | .landed steps => self.changesFrom 0 steps
  | .failed _ _ => []

def userEventRows : List UserEventRow :=
  match self.outcome with
  | .landed steps => self.controlsFrom 0 steps
  | .failed _ _ => []

end FinalizedTransaction

/-- What a node may return for the transaction: all of it, or it lacks the block time or the
metadata. -/
inductive FinalizedTransaction.Returned (t : FinalizedTransaction) : FetchedTransaction → Prop
  | whole : Returned t t.fetched
  | lacking {x : FetchedTransaction} (h : x.blockTime = none ∨ x.transactionMeta = none) : Returned t x

inductive Executes (d : Deployment) (now : ℤ) : Chain → List Ran → Chain → Prop
  | done (chain : Chain) : Executes d now chain [] chain
  | step {chain between after : Chain} {inv : Invocation} {call : Call} {event : Option Event}
    {steps : List Ran} (hnow : inv.now = now)
    (h : execute d inv chain call = .ok (event, between))
    (hrest : Executes d now between steps after) : Executes d now chain ((call, event) :: steps) after

inductive FinalizedTransaction.Moves (d : Deployment) (t : FinalizedTransaction) :
    Chain → Chain → Prop
  | landed {before after : Chain} {steps : List Ran} (houtcome : t.outcome = .landed steps)
    (h : Executes d t.blockTime before steps after) : Moves d t before after
  | failed {chain : Chain} {executed : List Call} {logEvents : List Event}
    (houtcome : t.outcome = .failed executed logEvents) : Moves d t chain chain

/-- The finalized transactions from before `initialize`, oldest first, and the ledger they leave;
other programs change their own accounts in between. -/
inductive Ledger (d : Deployment) (accounts : Accounts) : List FinalizedTransaction → Chain → Prop
  | genesis : Ledger d accounts [] (Chain.genesis accounts)
  | outside {ts : List FinalizedTransaction} {chain : Chain} (h : Ledger d accounts ts chain)
    (changed : Accounts) : Ledger d accounts ts (chain.setAccounts changed)
  | finalize {ts : List FinalizedTransaction} {chain after : Chain} {t : FinalizedTransaction}
    (h : Ledger d accounts ts chain) (hnew : ∀ earlier ∈ ts, earlier.signature ≠ t.signature)
    (hmoves : t.Moves d chain after) : Ledger d accounts (ts ++ [t]) after

/-- Whenever the instruction succeeds its event satisfies `P`. -/
def Emits (P : Event → Prop) (result : Result (Event × Chain)) : Prop :=
  ∀ event after, result = .ok (event, after) → P event

theorem Emits.bind {α : Type} {P : Event → Prop} {x : Result α} {f : α → Result (Event × Chain)}
    (h : ∀ a, Emits P (f a)) : Emits P (x >>= f) := by
  intro event after hresult
  obtain ⟨a, -, ha⟩ := bind_eq_ok.mp hresult
  exact h a event after ha

theorem Emits.pure {P : Event → Prop} {event : Event} {chain : Chain} (h : P event) :
    Emits P (Pure.pure (event, chain)) := by
  intro event' after hresult
  cases hresult
  exact h

def NotAttested (event : Event) : Prop :=
  ∀ attestation invested pending, event ≠ .attested attestation invested pending

variable {d : Deployment} {inv : Invocation} {before after : Chain}

theorem execute_event {call : Call} {event : Event}
    (h : execute d inv before call = .ok (some event, after)) (hcall : attestAccounts call = none) :
    NotAttested event := by
  have hemits {result : Result (Event × Chain)} (hresult : Emits NotAttested result)
      (hok : emitting result = .ok (some event, after)) : NotAttested event := by
    obtain ⟨e, he, hresult'⟩ := emitting_eq_ok.mp hok
    cases he
    exact hresult _ _ hresult'
  cases call with
  | attest => cases hcall
  | closeAttestation =>
    simp only [execute, bind_eq_ok, pure_eq_ok, Prod.mk.injEq] at h
    obtain ⟨_, -, hnone, -⟩ := h
    cases hnone
  | setUserPaused =>
    apply hemits ?_ h
    unfold setUserPaused
    apply Emits.bind
    intro _
    split
    · repeat' first | exact Emits.pure fun _ _ _ h => by cases h | (apply Emits.bind; intro _)
    · repeat' first | exact Emits.pure fun _ _ _ h => by cases h | (apply Emits.bind; intro _)
  | initializeConfig | updateConfig | setPaused | setMarketCalendar | proposeAdmin | acceptAdmin
  | createPlan | enroll | sweep | updateSettings | lowerPending | changeTier | changePaymentTokens
  | exit | reactivate =>
    apply hemits ?_ h
    repeat' first | exact Emits.pure fun _ _ _ h => by cases h | (apply Emits.bind; intro _)
/-- What a step that ran did: it attested a transfer whose record was free, closed a record that
was there, or left the records alone. -/
inductive Effect (before : Chain) : Ran → Chain → Prop
  | attested {payer : Pubkey} {attestation : Attestation} {invested pending : UInt64} {after : Chain}
    (hfree : (before.records attestation.transferId).isSome = false)
    (hafter : ∀ id, (after.records id).isSome =
      (decide (id = attestation.transferId) || (before.records id).isSome)) :
    Effect before (.attest payer attestation, some (.attested attestation invested pending)) after
  | closed {record : TransferId} {payer : Pubkey} {after : Chain}
    (hopen : (before.records record).isSome = true)
    (hafter : ∀ id, (after.records id).isSome =
      (!decide (id = record) && (before.records id).isSome)) :
    Effect before (.closeAttestation record payer, none) after
  | other {call : Call} {event : Option Event} {after : Chain} (hattest : attestAccounts call = none)
    (hclose : closedRecord call = none) (hevent : ∀ e ∈ event, NotAttested e)
    (hafter : after.records = before.records) : Effect before (call, event) after

theorem isSome_update {records : TransferId → Option AttestationRecord} (record id : TransferId)
    (state : Option AttestationRecord) :
    (Function.update records record state id).isSome =
      if id = record then state.isSome else (records id).isSome := by
  by_cases hid : id = record
  · rw [hid, Function.update_self, if_pos rfl]
  · rw [Function.update_of_ne hid, if_neg hid]

theorem execute_effect {call : Call} {event : Option Event}
    (h : execute d inv before call = .ok (event, after)) : Effect before (call, event) after := by
  cases hattests : attestAccounts call with
  | some accounts =>
    cases call with
    | attest payer attestation =>
      rw [execute, emitting_eq_ok] at h
      obtain ⟨_, rfl, h⟩ := h
      obtain ⟨_, _, invested, pending, -, -, hfree, -, -, -, -, -, -, -, -, -, -, rfl, rfl⟩ := attest_ok h
      apply Effect.attested (Option.isSome_eq_false_iff.mpr (Option.isNone_iff_eq_none.mpr hfree))
      intro id
      rw [Chain.setRecord_records, Chain.setUserConfig_records, isSome_update]
      by_cases hid : id = attestation.transferId
      · rw [if_pos hid, decide_eq_true hid]
        rfl
      · rw [if_neg hid, decide_eq_false hid]
        rfl
    | _ => cases hattests
  | none =>
    have hevent : ∀ e ∈ event, NotAttested e := by
      intro e he
      rw [Option.mem_def.mp he] at h
      exact execute_event h hattests
    cases hcloses : closedRecord call with
    | some record =>
      cases call with
      | closeAttestation record payer =>
        simp only [execute, bind_eq_ok, pure_eq_ok, Prod.mk.injEq] at h
        obtain ⟨_, h, rfl, rfl⟩ := h
        obtain ⟨state, hstate, -, -, rfl⟩ := closeAttestation_ok h
        apply Effect.closed (Option.isSome_iff_exists.mpr ⟨state, hstate⟩)
        intro id
        rw [Chain.setRecord_records, isSome_update]
        by_cases hid : id = record
        · rw [if_pos hid, decide_eq_true hid]
          rfl
        · rw [if_neg hid, decide_eq_false hid]
          rfl
      | _ => cases hcloses
    | none =>
      apply Effect.other hattests hcloses hevent
      rcases execute_records ⟨Pubkey.default, Vector.replicate 64 0, 0⟩ h with
        ⟨-, hsame⟩ | ⟨payer, attestation, rfl⟩ | ⟨record, payer, rfl⟩
      · exact hsame
      · cases hattests
      · cases hcloses

theorem Executes.effect {now : ℤ} {steps : List Ran} (h : Executes d now before steps after) :
    ∀ ran ∈ steps, ∃ before after, Effect before ran after := by
  induction h with
  | done => exact fun _ h => nomatch h
  | step _ h _ ih =>
    intro ran hran
    rcases List.mem_cons.mp hran with rfl | hran
    · exact ⟨_, _, execute_effect h⟩
    · exact ih ran hran

namespace FinalizedTransaction

variable {self : FinalizedTransaction} {steps : List Ran}

theorem changesFrom_other {eventIndex : ℕ} {call : Call} {event : Option Event}
    (hattest : attestAccounts call = none) (hclose : closedRecord call = none) :
    self.changesFrom eventIndex ((call, event) :: steps) = self.changesFrom eventIndex steps := by
  cases call with
  | attest => cases hattest
  | closeAttestation => cases hclose
  | _ => rfl

theorem marked_changesFrom (h : ∀ ran ∈ steps, ∃ before after, Effect before ran after)
    (eventIndex : ℕ) : (self.changesFrom eventIndex steps).filterMap Change.marked =
      ((steps.map Prod.fst).filterMap closedRecord).map fun record =>
        ⟨self.blockTime, self.signature, record⟩ := by
  induction steps generalizing eventIndex with
  | nil => rfl
  | cons ran steps ih =>
    have hrest := fun k => ih (fun other hother => h other (List.mem_cons_of_mem _ hother)) k
    obtain ⟨before, after, heffect⟩ := h ran List.mem_cons_self
    cases heffect with
    | attested => exact hrest (eventIndex + 1)
    | closed => exact congrArg (List.cons _) (hrest eventIndex)
    | other hattest hclose =>
      rw [changesFrom_other hattest hclose, hrest, List.map_cons, List.filterMap_cons_none hclose]

theorem logged_of_control {event : Event} {control : Pubkey × UserEventKind × UserEventData}
    (h : userControl event = some control) : logged event = true := by
  cases event with
  | swept => cases h
  | _ => rfl

theorem decodeEvent_control {signature : Signature} {slot : ℕ} {blockTime : ℤ}
    {attests : List (Pubkey × TransferId)} {decoded : Decoded} {event : Event}
    {control : Pubkey × UserEventKind × UserEventData} (h : userControl event = some control) :
    decodeEvent signature slot blockTime attests decoded event =
      some { decoded with userEvents := decoded.userEvents ++
        [userEventRow signature slot blockTime decoded.userEvents.length control] } := by
  cases event with
  | enrolled | reactivated | userSettingsUpdated | userPaused | pendingLowered | tierChanged
  | paymentTokensChanged | exited =>
    cases h
    rfl
  | _ => cases h

theorem decodeEvent_none {signature : Signature} {slot : ℕ} {blockTime : ℤ}
    {attests : List (Pubkey × TransferId)} {decoded : Decoded} {event : Event}
    (h : userControl event = none) (hnot : NotAttested event) :
    decodeEvent signature slot blockTime attests decoded event = some decoded := by
  cases event with
  | attested => exact absurd rfl (hnot _ _ _)
  | enrolled | reactivated | userSettingsUpdated | userPaused | pendingLowered | tierChanged
  | paymentTokensChanged | exited => cases h
  | _ => rfl

theorem decodeEvents_eq (h : ∀ ran ∈ steps, ∃ before after, Effect before ran after)
    {attests : List (Pubkey × TransferId)} {decoded : Decoded}
    (hlength : attests.length = decoded.attestations.length) :
    ((steps.filterMap Prod.snd).filter logged).foldlM
        (decodeEvent self.signature self.slot self.blockTime
          (attests ++ (steps.map Prod.fst).filterMap attestAccounts)) decoded =
      some {
        attestations := decoded.attestations ++
          (self.changesFrom decoded.attestations.length steps).filterMap Change.entered
        closes := decoded.closes
        userEvents := decoded.userEvents ++
          self.controlsFrom decoded.userEvents.length steps } := by
  induction steps generalizing attests decoded with
  | nil =>
    change some decoded = some ⟨decoded.attestations ++ [], decoded.closes, decoded.userEvents ++ []⟩
    rw [List.append_nil, List.append_nil]
  | cons ran steps ih =>
    have hrest := fun other hother => h other (List.mem_cons_of_mem ran hother)
    obtain ⟨before, after, heffect⟩ := h ran List.mem_cons_self
    cases heffect with
    | @attested payer attestation invested pending =>
      have hfound : (attests ++ (payer, attestation.transferId) ::
          (steps.map Prod.fst).filterMap attestAccounts)[decoded.attestations.length]? =
            some (payer, attestation.transferId) := by
        rw [← hlength, List.getElem?_append_right (Nat.le_refl _), Nat.sub_self]
        rfl
      have hsplit : attests ++ (payer, attestation.transferId) ::
          (steps.map Prod.fst).filterMap attestAccounts =
            (attests ++ [(payer, attestation.transferId)]) ++
              (steps.map Prod.fst).filterMap attestAccounts := by
        rw [List.append_assoc, List.singleton_append]
      have hdecoded : decodeEvent self.signature self.slot self.blockTime
          (attests ++ (payer, attestation.transferId) ::
            (steps.map Prod.fst).filterMap attestAccounts) decoded
          (.attested attestation invested pending) = some { decoded with
            attestations := decoded.attestations ++ [attestationRow self.signature self.slot
              self.blockTime decoded.attestations.length payer attestation.transferId attestation
              invested pending] } := by
        rw [decodeEvent, hfound]
        rfl
      have hnext := @ih hrest (attests ++ [(payer, attestation.transferId)]) { decoded with
          attestations := decoded.attestations ++ [attestationRow self.signature self.slot
            self.blockTime decoded.attestations.length payer attestation.transferId attestation
            invested pending] } (by simp only [List.length_append, List.length_singleton, hlength])
      change (decodeEvent _ _ _ (attests ++ (payer, attestation.transferId) ::
        (steps.map Prod.fst).filterMap attestAccounts) decoded _ >>= fun next => List.foldlM
          (decodeEvent self.signature self.slot self.blockTime (attests ++
            (payer, attestation.transferId) :: (steps.map Prod.fst).filterMap attestAccounts)) next
          ((steps.filterMap Prod.snd).filter logged)) = _
      rw [hdecoded, hsplit]
      refine hnext.trans ?_
      dsimp only
      rw [List.length_append, List.length_singleton, List.append_assoc, List.singleton_append]
      rfl
    | closed => exact ih hrest hlength
    | @other call event _ hattest hclose hevent =>
      have hattests : ((call :: steps.map Prod.fst).filterMap attestAccounts) =
          (steps.map Prod.fst).filterMap attestAccounts := List.filterMap_cons_none hattest
      rw [List.map_cons, hattests, changesFrom_other hattest hclose]
      cases event with
      | none => exact ih hrest hlength
      | some e =>
        have hevents : ((call, some e) :: steps).filterMap Prod.snd = e :: steps.filterMap Prod.snd :=
          rfl
        rw [hevents, controlsFrom, Option.bind_some]
        cases hcontrol : userControl e with
        | none =>
          rw [List.filter_cons]
          split
          · rw [List.foldlM_cons, decodeEvent_none hcontrol (hevent e rfl)]
            exact ih hrest hlength
          · exact ih hrest hlength
        | some control =>
          have hnext := @ih hrest attests { decoded with userEvents := decoded.userEvents ++
            [userEventRow self.signature self.slot self.blockTime decoded.userEvents.length control] }
            hlength
          rw [List.filter_cons_of_pos (logged_of_control hcontrol), List.foldlM_cons,
            decodeEvent_control hcontrol]
          refine hnext.trans ?_
          dsimp only
          rw [List.length_append, List.length_singleton, List.append_assoc, List.singleton_append]

theorem decodeTransaction_eq {t : FinalizedTransaction} (h : t.Moves d before after) :
    decodeTransaction t.signature t.fetched =
      some ⟨t.changes.filterMap Change.entered, t.changes.filterMap Change.marked, t.userEventRows⟩ := by
  cases h with
  | @landed _ steps houtcome hexecutes =>
    have heffect := hexecutes.effect
    unfold fetched changes userEventRows
    rw [houtcome, t.marked_changesFrom heffect]
    exact @decodeEvents_eq t steps heffect [] _ rfl
  | failed houtcome =>
    unfold fetched changes userEventRows
    rw [houtcome]
    rfl

theorem fetched_complete (t : FinalizedTransaction) :
    t.fetched.blockTime.isSome = true ∧ t.fetched.transactionMeta.isSome = true := by
  unfold fetched
  split
  · exact ⟨rfl, rfl⟩
  · exact ⟨rfl, rfl⟩

theorem decodeTransaction_lacking {signature : Signature} {x : FetchedTransaction}
    (h : x.blockTime = none ∨ x.transactionMeta = none) :
    decodeTransaction signature x = some .empty := by
  unfold decodeTransaction
  split
  · rename_i hmeta hblock
    rcases h with h | h
    · rw [h] at hblock
      cases hblock
    · rw [h] at hmeta
      cases hmeta
  · rfl

end FinalizedTransaction

def openRecords (rows : List AttestationRow) : List TransferId :=
  (rows.filter fun row => row.closedSignature.isNone).map AttestationRow.record

theorem openRecords_append {rows : List AttestationRow} {row : AttestationRow}
    (h : row.closedSignature = none) : openRecords (rows ++ [row]) = openRecords rows ++ [row.record] := by
  have hopen : [row].filter (fun row => row.closedSignature.isNone) = [row] :=
    List.filter_cons_of_pos (Option.isNone_iff_eq_none.mpr h)
  rw [openRecords, List.filter_append, List.map_append, hopen]
  rfl

theorem openRecords_close {rows : List AttestationRow} (close : Close) :
    openRecords (rows.map (closeRow close)) = (openRecords rows).filter (· ≠ close.record) := by
  induction rows with
  | nil => rfl
  | cons row rows ih =>
    unfold openRecords at ih ⊢
    rw [List.map_cons, List.filter_cons, List.filter_cons, closeRow]
    by_cases hopen : row.closedSignature = none
    · by_cases hrecord : row.record = close.record
      · simp [hopen, hrecord, ih]
      · simp [hopen, hrecord, ih]
    · simp [hopen, ih]

def OpenOn (rows : List AttestationRow) (chain : Chain) : Prop :=
  (openRecords rows).Nodup ∧ ∀ id, id ∈ openRecords rows ↔ (chain.records id).isSome = true

theorem OpenOn.congr {rows : List AttestationRow} (h : OpenOn rows before)
    (hsame : after.records = before.records) : OpenOn rows after := by
  unfold OpenOn
  rw [hsame]
  exact h

theorem OpenOn.enter {rows : List AttestationRow} {row : AttestationRow} (h : OpenOn rows before)
    (hopen : row.closedSignature = none) (hfree : (before.records row.record).isSome = false)
    (hafter : ∀ id, (after.records id).isSome =
      (decide (id = row.record) || (before.records id).isSome)) : OpenOn (rows ++ [row]) after := by
  unfold OpenOn
  rw [openRecords_append hopen]
  constructor
  · rw [List.nodup_append]
    refine ⟨h.1, List.nodup_singleton _, ?_⟩
    intro id hid other hother heq
    rw [List.mem_singleton] at hother
    have hpresent := (h.2 id).mp hid
    rw [heq, hother, hfree] at hpresent
    cases hpresent
  · intro id
    rw [List.mem_append, h.2, List.mem_singleton, hafter, Bool.or_eq_true, decide_eq_true_eq, or_comm]

theorem OpenOn.close {rows : List AttestationRow} {close : Close} (h : OpenOn rows before)
    (hafter : ∀ id, (after.records id).isSome =
      (!decide (id = close.record) && (before.records id).isSome)) :
    OpenOn (rows.map (closeRow close)) after := by
  unfold OpenOn
  rw [openRecords_close]
  constructor
  · exact h.1.filter _
  · intro id
    rw [List.mem_filter, h.2, hafter, Bool.and_eq_true, Bool.not_eq_true', decide_eq_true_eq,
      decide_eq_false_iff_not, and_comm]

theorem Executes.openOn {now : ℤ} {steps : List Ran} (h : Executes d now before steps after)
    (t : FinalizedTransaction) {eventIndex : ℕ} {rows : List AttestationRow}
    (hopen : OpenOn rows before) :
    OpenOn (Change.replay closeRow (t.changesFrom eventIndex steps) rows) after := by
  induction h generalizing eventIndex rows with
  | done => exact hopen
  | step _ h _ ih =>
    cases execute_effect h with
    | attested hfree hafter => exact ih (hopen.enter rfl hfree hafter)
    | closed _ hafter => exact ih (hopen.close hafter)
    | other hattest hclose _ hafter =>
      rw [FinalizedTransaction.changesFrom_other hattest hclose]
      exact ih (hopen.congr hafter)

/-- The rows of a history, its changes applied in order, follow the records of its ledger. -/
theorem Ledger.openOn {accounts : Accounts} {ts : List FinalizedTransaction} {chain : Chain}
    (h : Ledger d accounts ts chain) :
    OpenOn (Change.replay closeRow (ts.flatMap FinalizedTransaction.changes) []) chain := by
  induction h with
  | genesis => exact ⟨List.nodup_nil, fun id => iff_of_false (nomatch ·) Bool.false_ne_true⟩
  | outside _ changed ih => exact ih.congr rfl
  | @finalize ts chain after t _ _ hmoves ih =>
    rw [List.flatMap_append, List.flatMap_singleton, Change.replay_append]
    cases hmoves with
    | landed houtcome hexecutes =>
      unfold FinalizedTransaction.changes
      rw [houtcome]
      exact hexecutes.openOn t ih
    | failed houtcome =>
      unfold FinalizedTransaction.changes
      rw [houtcome]
      exact ih

end Laterite.Indexer
