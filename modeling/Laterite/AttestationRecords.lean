import Laterite.ExpiringMarks
import Laterite.ReplayedRuns
import Laterite.SweepOutcome

/-!
# A transfer counts once

An attestation record is a mark that expires with its transfer: `attest` places it no later
than the expiry and `closeAttestation` clears it only after. Seen from one record's address,
every run of the program is a run of such a mark.
-/

namespace Laterite

open CheckedComputation TimedRuns ExpiringMarks

def Call.markAction (id : TransferId) : Call → Option MarkAction
  | .attest _ attestation =>
    if attestation.transferId = id then
      some (.place (attestation.eventTime.toInt + attestationTtlSeconds))
    else none
  | .closeAttestation record _ => if record = id then some .clear else none
  | _ => none

def markAction (id : TransferId) (t : Transition Chain Happening) : Option MarkAction :=
  match t.event with
  | .called _ call (.ok _) => call.markAction id
  | _ => none

def Chain.markOf (self : Chain) (id : TransferId) : Option ℤ :=
  (self.records id).map AttestationRecord.expiresAt

variable {d : Deployment} {inv : Invocation} {before after : Chain}

private theorem markOf_of_records_eq {id : TransferId} (h : after.records = before.records) :
    after.markOf id = before.markOf id := by
  rw [Chain.markOf, Chain.markOf, h]

theorem execute_records {call : Call} {event : Option Event} (id : TransferId)
    (h : execute d inv before call = .ok (event, after)) :
    (call.markAction id = none ∧ after.records = before.records) ∨
      (∃ payer attestation, call = .attest payer attestation) ∨
      ∃ record payer, call = .closeAttestation record payer := by
  cases call <;> simp only [execute, emitting_eq_ok] at h
  case attest => exact .inr (.inl ⟨_, _, rfl⟩)
  case closeAttestation => exact .inr (.inr ⟨_, _, rfl⟩)
  case initializeConfig =>
    obtain ⟨_, rfl, h⟩ := h
    obtain ⟨-, -, -, -, rfl⟩ := initializeConfig_ok h
    exact .inl ⟨rfl, rfl⟩
  case updateConfig =>
    obtain ⟨_, rfl, h⟩ := h
    obtain ⟨_, -, -, rfl⟩ := updateConfig_ok h
    exact .inl ⟨rfl, rfl⟩
  case setPaused =>
    obtain ⟨_, rfl, h⟩ := h
    obtain ⟨_, -, rfl⟩ := setPaused_ok h
    exact .inl ⟨rfl, rfl⟩
  case setMarketCalendar =>
    obtain ⟨_, rfl, h⟩ := h
    obtain ⟨_, _, -, -, rfl⟩ := setMarketCalendar_ok h
    exact .inl ⟨rfl, rfl⟩
  case proposeAdmin =>
    obtain ⟨_, rfl, h⟩ := h
    obtain ⟨_, -, rfl⟩ := proposeAdmin_ok h
    exact .inl ⟨rfl, rfl⟩
  case acceptAdmin =>
    obtain ⟨_, rfl, h⟩ := h
    obtain ⟨_, -, -, -, rfl⟩ := acceptAdmin_ok h
    exact .inl ⟨rfl, rfl⟩
  case createPlan =>
    obtain ⟨_, rfl, h⟩ := h
    obtain ⟨_, _, -, rfl⟩ := createPlan_ok h
    exact .inl ⟨rfl, rfl⟩
  case enroll =>
    obtain ⟨_, rfl, h⟩ := h
    obtain ⟨_, _, -, -, -, -, -, -, -, -, -, -, rfl⟩ := enroll_ok h
    exact .inl ⟨rfl, rfl⟩
  case sweep =>
    obtain ⟨_, rfl, h⟩ := h
    obtain ⟨_, _, _, _, _, _, _, _, _, -, -, -, -, rfl⟩ := sweep_ok h
    exact .inl ⟨rfl, rfl⟩
  case updateSettings =>
    obtain ⟨_, rfl, h⟩ := h
    obtain ⟨_, -, -, -, -, rfl⟩ := updateSettings_ok h
    exact .inl ⟨rfl, rfl⟩
  case setUserPaused =>
    obtain ⟨_, rfl, h⟩ := h
    obtain ⟨_, -, ⟨-, -, rfl⟩ | ⟨-, -, rfl⟩⟩ := setUserPaused_ok h
    · exact .inl ⟨rfl, rfl⟩
    · exact .inl ⟨rfl, rfl⟩
  case lowerPending =>
    obtain ⟨_, rfl, h⟩ := h
    obtain ⟨_, -, -, rfl⟩ := lowerPending_ok h
    exact .inl ⟨rfl, rfl⟩
  case changeTier =>
    obtain ⟨_, rfl, h⟩ := h
    obtain ⟨_, _, _, _, -, -, -, -, -, -, -, rfl⟩ := changeTier_ok h
    exact .inl ⟨rfl, rfl⟩
  case changePaymentTokens =>
    obtain ⟨_, rfl, h⟩ := h
    obtain ⟨_, _, -, -, -, -, rfl⟩ := changePaymentTokens_ok h
    exact .inl ⟨rfl, rfl⟩
  case exit =>
    obtain ⟨_, rfl, h⟩ := h
    obtain ⟨_, _, _, -, -, -, rfl⟩ := exit_ok h
    exact .inl ⟨rfl, rfl⟩
  case reactivate =>
    obtain ⟨_, rfl, h⟩ := h
    obtain ⟨_, _, _, -, -, -, -, -, -, -, -, -, -, -, rfl⟩ := reactivate_ok h
    exact .inl ⟨rfl, rfl⟩

/-- One moment of the deployment leaves a transfer's record alone or is a step of its mark. -/
theorem Step.markStep {t : Transition Chain Happening} (h : Step d t) (id : TransferId) :
    (markAction id t = none ∧ t.after.markOf id = t.before.markOf id) ∨
      ∃ action, markAction id t = some action ∧
        MarkStep ⟨t.now, action, t.before.markOf id, t.after.markOf id⟩ := by
  obtain ⟨inv, call, event, hcalled, hnow, hok⟩ | ⟨inv, call, fault, hcalled, hafter, -⟩ |
    ⟨houtside, accounts, hafter⟩ := h.cases_on_outcome
  · obtain ⟨hnone, hsame⟩ | ⟨payer, attestation, rfl⟩ | ⟨record, payer, rfl⟩ :=
      execute_records id hok
    · exact .inl ⟨by simpa [markAction, hcalled] using hnone, markOf_of_records_eq hsame⟩
    · rw [execute, emitting_eq_ok] at hok
      obtain ⟨_, rfl, hok⟩ := hok
      obtain ⟨_, _, _, _, -, -, hnone, -, -, -, -, hfresh, -, -, -, -, -, -, hafter⟩ := attest_ok hok
      by_cases hid : attestation.transferId = id
      · subst hid
        refine .inr ⟨.place (attestation.eventTime.toInt + attestationTtlSeconds),
          by simp [markAction, hcalled, Call.markAction], ?_⟩
        rw [hafter, Chain.markOf, Chain.markOf, hnone, Chain.setRecord_records,
          Function.update_self, hnow]
        exact .place hfresh
      · refine .inl ⟨by simp [markAction, hcalled, Call.markAction, hid], ?_⟩
        rw [hafter, Chain.markOf, Chain.markOf, Chain.setRecord_records,
          Function.update_of_ne (Ne.symm hid), Chain.setUserConfig_records]
    · simp only [execute, bind_eq_ok, pure_eq_ok, Prod.mk.injEq] at hok
      obtain ⟨_, hok, -, rfl⟩ := hok
      obtain ⟨state, hstate, -, hexpired, hafter⟩ := closeAttestation_ok hok
      by_cases hid : record = id
      · subst hid
        refine .inr ⟨.clear, by simp [markAction, hcalled, Call.markAction], ?_⟩
        rw [hafter, Chain.markOf, Chain.markOf, hstate, Chain.setRecord_records,
          Function.update_self, hnow]
        exact .clear hexpired
      · refine .inl ⟨by simp [markAction, hcalled, Call.markAction, hid], ?_⟩
        rw [hafter, Chain.markOf, Chain.markOf, Chain.setRecord_records,
          Function.update_of_ne (Ne.symm hid)]
  · exact .inl ⟨by simp [markAction, hcalled], by rw [hafter]⟩
  · exact .inl ⟨by simp [markAction, houtside], by rw [hafter]; exact markOf_of_records_eq rfl⟩

/-- The part of a history that wrote a transfer's record. -/
def markHistory (id : TransferId) (history : List (Transition Chain Happening)) :
    List (Transition (Option ℤ) MarkAction) :=
  history.filterMap fun t => (markAction id t).map fun action =>
    ⟨t.now, action, t.before.markOf id, t.after.markOf id⟩

variable {accounts : Accounts} {history : List (Transition Chain Happening)} {chain : Chain}

theorem ProgramRun.markRun (run : ProgramRun d accounts history chain) (id : TransferId) :
    Run MarkStep none (markHistory id history) (chain.markOf id) := by
  refine Run.project (fun c : Chain => c.markOf id) (markAction id) ?_ ?_ run
  · intro t ht hnone
    obtain ⟨-, hsame⟩ | ⟨action, hsome, -⟩ := ht.markStep id
    · exact hsame
    · simp [hnone] at hsome
  · intro t action ht haction
    obtain ⟨hnone, -⟩ | ⟨action', hsome, hstep⟩ := ht.markStep id
    · simp [hnone] at haction
    · obtain rfl := Option.some.inj (haction.symm.trans hsome)
      exact hstep

def Attests (id : TransferId) (eventTime : ℤ) (t : Transition Chain Happening) : Bool :=
  match t.event with
  | .called _ (.attest _ attestation) (.ok _) =>
    attestation.transferId = id ∧ attestation.eventTime.toInt = eventTime
  | _ => false

theorem countP_attests (id : TransferId) (eventTime : ℤ)
    (history : List (Transition Chain Happening)) :
    history.countP (Attests id eventTime) = (markHistory id history).countP fun p =>
      p.event = .place (eventTime + attestationTtlSeconds) := by
  rw [markHistory, List.countP_filterMap]
  congr 1
  funext t
  unfold Attests markAction Call.markAction
  split
  · rename_i attestation event hevent
    by_cases hid : attestation.transferId = id <;> simp [hevent, hid]
  · rename_i hother
    split
    · rename_i call event hevent
      split
      · exact absurd hevent (hother _ _ _ _)
      · rename_i record payer
        by_cases hid : record = id <;> simp [hid]
      · rfl
    · rfl

theorem exists_attests_of_markAction {id : TransferId} {expiry : ℤ} {t : Transition Chain Happening}
    (h : markAction id t = some (.place expiry)) :
    ∃ eventTime, Attests id eventTime t ∧ expiry = eventTime + attestationTtlSeconds := by
  unfold markAction at h
  split at h
  · rename_i call event hevent
    unfold Call.markAction at h
    split at h
    · rename_i attestation
      split at h
      · rename_i hid
        cases h
        exact ⟨attestation.eventTime.toInt, by simp [Attests, hevent, hid], rfl⟩
      · cases h
    · split at h <;> cases h
    · cases h
  · cases h

/-- Every transfer with a given time is attested at most once in a run, although anyone may
close its record and its address be used again: when a record is closed it had been created by
an attest of its transfer, and no later attest carrying that attest's time succeeds. -/
theorem transfer_counts_once (run : ProgramRun d accounts history chain) :
    (∀ id eventTime, history.countP (Attests id eventTime) ≤ 1) ∧
      ∀ newer t older inv record payer event, history = newer ++ t :: older →
        t.event = .called inv (.closeAttestation record payer) (.ok event) →
        ∃ eventTime, (∃ p ∈ older, Attests record eventTime p) ∧
          ∀ q ∈ newer, ∀ inv' payer' attestation outcome,
            q.event = .called inv' (.attest payer' attestation) outcome →
            attestation.eventTime.toInt = eventTime → ∀ event', outcome ≠ .ok event' := by
  refine ⟨fun id eventTime => ?_, ?_⟩
  · rw [countP_attests]
    exact place_once (run.markRun id) _
  · rintro newer t older inv record payer event rfl hclosed
    obtain ⟨past, -, taken, -, hlater⟩ := Run.split run
    obtain ⟨hnow, hok⟩ := taken.execute_of_ok hclosed
    simp only [execute, bind_eq_ok, pure_eq_ok, Prod.mk.injEq] at hok
    obtain ⟨_, hok, -, -⟩ := hok
    obtain ⟨state, hstate, -, hexpired, -⟩ := closeAttestation_ok hok
    have hmark := ProgramRun.markRun past record
    rw [Chain.markOf, hstate, Option.map_some] at hmark
    obtain ⟨_, hplaced, hplace⟩ := exists_place hmark
    obtain ⟨p, hp, hpaction⟩ := List.mem_filterMap.mp hplaced
    obtain ⟨action, haction, rfl⟩ := Option.map_eq_some_iff.mp hpaction
    dsimp only at hplace
    subst hplace
    obtain ⟨eventTime, hattests, hexpiry⟩ := exists_attests_of_markAction haction
    refine ⟨eventTime, ⟨p, hp, hattests⟩, ?_⟩
    rintro q hq inv' payer' attestation _ hcalled rfl event' rfl
    obtain ⟨-, -, -, qtaken, -⟩ := Run.at_mem (t := q) run (by simp [hq])
    obtain ⟨hqnow, hqok⟩ := qtaken.execute_of_ok hcalled
    rw [execute, emitting_eq_ok] at hqok
    obtain ⟨_, -, hqok⟩ := hqok
    obtain ⟨_, _, _, _, -, -, -, -, -, -, -, hfresh, -⟩ := attest_ok hqok
    have hle := hlater q hq
    omega

/-- The rehearsed payment is attested once, though its record is closed. -/
theorem transfer_counts_once_rehearsed :
    0 < (Rehearsal.history Rehearsal.life).countP
        (Attests Rehearsal.attestation.transferId 1700000100) ∧
      (Rehearsal.history Rehearsal.life).countP
        (Attests Rehearsal.attestation.transferId 1700000100) ≤ 1 :=
  ⟨by decide +kernel, (transfer_counts_once (Rehearsal.ledger_run Rehearsal.life (by decide))).1 _ _⟩

end Laterite
