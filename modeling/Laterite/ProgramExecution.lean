import Laterite.AdminInstructions
import Laterite.SweepInstruction
import Laterite.TimedRuns
import Laterite.UserInstructions

/-!
# Runs of the program

A call names an instruction with its accounts and arguments. A call that fails leaves the
ledger as it was. Between calls the other programs may change their accounts in any way,
so a run interleaves the calls of any callers with arbitrary changes of the outside.
-/

namespace Laterite

open CheckedComputation TimedRuns

inductive Call where
  | initializeConfig (authority : Pubkey) (params : ConfigParams) (mints : List Pubkey)
  | updateConfig (admin : Pubkey) (settings : Settings)
  | setPaused (admin : Pubkey) (paused : Bool)
  | setMarketCalendar (admin : Pubkey) (holidays earlyCloses : List UInt16) (validThrough : UInt16)
  | proposeAdmin (admin newAdmin : Pubkey)
  | acceptAdmin (pendingAdmin : Pubkey)
  | createPlan (admin plan mint tokenProgram : Pubkey) (paymentToken tier : UInt8)
  | enroll (user payer : Pubkey) (params : EnrollParams) (subscriptions : List Pubkey)
  | attest (payer : Pubkey) (attestation : Attestation)
  | closeAttestation (record : TransferId) (payer : Pubkey)
  | sweep (ctx : SweepAccounts) (assetMessage paymentMessage : List UInt8) (ed25519Index : UInt16)
      (paymentToken : UInt8) (route : List UInt8) (routeAccounts : List RouteAccount)
  | updateSettings (user : Pubkey) (params : EnrollParams)
  | setUserPaused (user : Pubkey) (paused : Bool)
  | lowerPending (user : Pubkey) (pending : UInt64)
  | changeTier (user : Pubkey) (tier : UInt8) (remainingAccounts : List Pubkey)
  | changePaymentTokens (user : Pubkey) (paymentTokens : UInt8) (remainingAccounts : List Pubkey)
  | exit (user : Pubkey) (remainingAccounts : List Pubkey)
  | reactivate (user sponsor : Pubkey) (params : EnrollParams) (subscriptions : List Pubkey)

/-- An instruction's event, when it emits one, with the ledger it leaves. -/
abbrev Executed := Option Event × Chain

/-- An instruction that always emits its event. -/
def emitting (result : Result (Event × Chain)) : Result Executed := do
  let (event, chain) ← result
  return (some event, chain)

variable (d : Deployment)

def execute (inv : Invocation) (chain : Chain) : Call → Result Executed
  | .initializeConfig authority params mints =>
    emitting (initializeConfig d inv chain authority params mints)
  | .updateConfig admin settings => emitting (updateConfig inv chain admin settings)
  | .setPaused admin paused => emitting (setPaused inv chain admin paused)
  | .setMarketCalendar admin holidays earlyCloses validThrough =>
    emitting (setMarketCalendar inv chain admin holidays earlyCloses validThrough)
  | .proposeAdmin admin newAdmin => emitting (proposeAdmin inv chain admin newAdmin)
  | .acceptAdmin pendingAdmin => emitting (acceptAdmin inv chain pendingAdmin)
  | .createPlan admin plan mint tokenProgram paymentToken tier =>
    emitting (createPlan d inv chain admin plan mint tokenProgram paymentToken tier)
  | .enroll user payer params subscriptions =>
    emitting (enroll d inv chain user payer params subscriptions)
  | .attest payer attestation => emitting (attest d inv chain payer attestation)
  | .closeAttestation record payer => do
    let chain ← closeAttestation inv chain record payer
    return (none, chain)
  | .sweep ctx assetMessage paymentMessage ed25519Index paymentToken route routeAccounts =>
    emitting (sweep d inv chain ctx assetMessage paymentMessage ed25519Index paymentToken route
      routeAccounts)
  | .updateSettings user params => emitting (updateSettings inv chain user params)
  | .setUserPaused user paused => emitting (setUserPaused inv chain user paused)
  | .lowerPending user pending => emitting (lowerPending inv chain user pending)
  | .changeTier user tier remainingAccounts =>
    emitting (changeTier d inv chain user tier remainingAccounts)
  | .changePaymentTokens user paymentTokens remainingAccounts =>
    emitting (changePaymentTokens d inv chain user paymentTokens remainingAccounts)
  | .exit user remainingAccounts => emitting (exit d inv chain user remainingAccounts)
  | .reactivate user sponsor params subscriptions =>
    emitting (reactivate d inv chain user sponsor params subscriptions)

/-- What happened at one moment: a call with its outcome, or a change of the outside. -/
inductive Happening where
  | called (inv : Invocation) (call : Call) (outcome : Result (Option Event))
  | outside

/-- The outcome of a call and the ledger after it: a call that fails changes nothing. -/
def submit (inv : Invocation) (chain : Chain) (call : Call) : Result (Option Event) × Chain :=
  match execute d inv chain call with
  | .ok (event, after) => (.ok event, after)
  | .error fault => (.error fault, chain)

theorem submit_of_ok {inv : Invocation} {chain after : Chain} {call : Call} {event : Option Event}
    (h : execute d inv chain call = .ok (event, after)) : submit d inv chain call = (.ok event, after) := by
  rw [submit, h]

/-- One moment of the deployment. -/
inductive Step : Transition Chain Happening → Prop
  | called (inv : Invocation) (call : Call) (chain : Chain) :
      Step ⟨inv.now, .called inv call (submit d inv chain call).1, chain, (submit d inv chain call).2⟩
  | outside (now : ℤ) (chain : Chain) (accounts : Accounts) :
      Step ⟨now, .outside, chain, chain.setAccounts accounts⟩

/-- A run from before `initialize`, whatever the other programs hold at its start. -/
def ProgramRun (accounts : Accounts) (history : List (Transition Chain Happening)) (chain : Chain) :
    Prop := Run (Step d) (Chain.genesis accounts) history chain

/-- What one moment can be: a call that succeeded, a call that failed and changed nothing, or
a change of the outside. -/
theorem Step.cases_on_outcome {d : Deployment} {t : Transition Chain Happening} (h : Step d t) :
    (∃ inv call event, t.event = .called inv call (.ok event) ∧ t.now = inv.now ∧
      execute d inv t.before call = .ok (event, t.after)) ∨
    (∃ inv call fault, t.event = .called inv call (.error fault) ∧ t.after = t.before ∧
      execute d inv t.before call = .error fault) ∨
    (t.event = .outside ∧ ∃ accounts, t.after = t.before.setAccounts accounts) := by
  cases h with
  | called inv call chain =>
    cases hx : execute d inv chain call with
    | ok done =>
      obtain ⟨event, after⟩ := done
      exact .inl ⟨inv, call, event, by simp [submit, hx], rfl, by simp [submit, hx]⟩
    | error fault =>
      exact .inr (.inl ⟨inv, call, fault, by simp [submit, hx], by simp [submit, hx], hx⟩)
  | outside now chain accounts => exact .inr (.inr ⟨rfl, accounts, rfl⟩)

theorem Step.of_execute {d : Deployment} {inv : Invocation} {call : Call} {event : Option Event}
    {chain after : Chain} (h : execute d inv chain call = .ok (event, after)) :
    Step d ⟨inv.now, .called inv call (.ok event), chain, after⟩ := by
  have hstep := Step.called (d := d) inv call chain
  simpa only [submit, h] using hstep

/-- A call recorded as successful was executed on the ledger before it. -/
theorem Step.execute_of_ok {d : Deployment} {t : Transition Chain Happening} {inv : Invocation}
    {call : Call} {event : Option Event} (h : Step d t)
    (hcalled : t.event = .called inv call (.ok event)) :
    t.now = inv.now ∧ execute d inv t.before call = .ok (event, t.after) := by
  obtain ⟨inv', call', event', hcalled', hnow, hok⟩ | ⟨inv', call', fault, hcalled', -, -⟩ |
    ⟨houtside, -⟩ := h.cases_on_outcome
  · cases hcalled.symm.trans hcalled'
    exact ⟨hnow, hok⟩
  · cases hcalled.symm.trans hcalled'
  · cases hcalled.symm.trans houtside

theorem emitting_eq_ok {result : Result (Event × Chain)} {event : Option Event} {chain : Chain} :
    emitting result = .ok (event, chain) ↔ ∃ e, event = some e ∧ result = .ok (e, chain) := by
  cases result with
  | error fault => simp [emitting]
  | ok done =>
    obtain ⟨e, after⟩ := done
    simp [emitting, eq_comm]

theorem noPanic_emitting {result : Result (Event × Chain)} (h : NoPanic result) :
    NoPanic (emitting result) := NoPanic.bind h fun _ _ => NoPanic.pure _

end Laterite
