import Laterite.ChainAccounts

/-!
# Users' subscriptions to the vault's plans

Whether one is live, what its current period still allows, and ending one at once. The
three instructions that end subscriptions walk the enabled or changed payment tokens in
order, each consuming the accounts its layout gives a token.
-/

namespace Laterite

open CheckedComputation

def enabled (mask : UInt8) (paymentToken : ℕ) : Bool := mask &&& (1 <<< UInt8.ofNat paymentToken) ≠ 0

/-- The test of a payment token's bit, whose shift aborts past the mask's width. -/
def enables (mask : UInt8) (paymentToken : ℕ) : Result Bool :=
  if paymentToken < 8 then .ok (enabled mask paymentToken) else .error .panic

def enabledAmong (mask : UInt8) : List ℕ → Result (List ℕ)
  | [] => return []
  | token :: tokens => do
    let isEnabled ← enables mask token
    let rest ← enabledAmong mask tokens
    return if isEnabled then token :: rest else rest

def enabledTokens (mask : UInt8) : Result (List ℕ) := enabledAmong mask (List.range paymentTokenCount)

namespace Deployment

variable (d : Deployment)

/-- The plan of a payment token's tier; an index past the table aborts. -/
def planAt (paymentToken tier : ℕ) : Result Pubkey := do
  let byTier ← orPanic d.plans[paymentToken]?
  orPanic byTier[tier]?

def readSubscription (account : AccountInfo) : Option SubscriptionDelegation :=
  if account.owner ≠ d.subscriptionsId then none else d.subscriptionFromBytes account.data

/-- The account is `user`'s live subscription to `plan`: at the address its stored bump
derives, and not cancelled. -/
def isLive (account : AccountInfo) (plan user : Pubkey) : Bool :=
  match d.readSubscription account with
  | some subscription =>
    subscription.expiresAtTs = 0 ∧ d.createPda plan user subscription.bump = some account.key
  | none => false

def requireLiveEach (user : Pubkey) (tier : UInt8) : List ℕ → List AccountInfo → Result Unit
  | [], _ => return ()
  | token :: tokens, subscriptions => do
    let account ← okOr subscriptions.head? LateriteError.subscriptionMismatch
    let plan ← d.planAt token tier.toNat
    require (d.isLive account plan user) LateriteError.subscriptionMismatch
    requireLiveEach user tier tokens subscriptions.tail

def requireLive (subscriptions : List AccountInfo) (paymentTokens tier : UInt8) (user : Pubkey) :
    Result Unit := do
  let tokens ← enabledTokens paymentTokens
  d.requireLiveEach user tier tokens subscriptions

/-- What the subscription account still lets its plan's owner pull in the current period at
`now`: 0 once it has expired, or when the account is not a subscription. -/
def remaining (account : AccountInfo) (now : ℤ) : UInt64 :=
  match d.readSubscription account with
  | none => 0
  | some subscription =>
    let expired := subscription.expiresAtTs ≠ 0 ∧ now ≥ subscription.expiresAtTs
    let period := subscription.periodHours.saturatingMul 3600
    let elapsed := I64.saturatingSub now subscription.currentPeriodStartTs
    if expired then 0
    else if 0 ≤ elapsed ∧ elapsed.toNat ≥ period.toNat then subscription.amount
    else subscription.amount.saturatingSub subscription.amountPulledInPeriod

/-- Ends the user's subscription to `plan` now. `planAccount` and `subscription` must be that
plan and the subscription's derived address; one already closed or expired is left alone. -/
def cancel (inv : Invocation) (user plan planAccount subscription : Pubkey) (accounts : Accounts) :
    Result Accounts := do
  require (planAccount = plan) LateriteError.subscriptionMismatch
  match d.readSubscription (accounts.info subscription) with
  | none => do
    require ((d.findPda plan user).1 = subscription) LateriteError.subscriptionMismatch
    return accounts
  | some state => do
    require (d.createPda plan user state.bump = some subscription) LateriteError.subscriptionMismatch
    if state.expiresAtTs ≠ 0 ∧ state.expiresAtTs ≤ inv.now then return accounts
    else
      let call : CancelSubscriptionNow := {
        subscriber := user
        merchant := d.vault
        planPda := planAccount
        subscriptionPda := subscription
        expectedCurrentPeriodStartTs := state.currentPeriodStartTs }
      invoke [user, d.vault, planAccount, subscription] (inv.programs.cancelSubscriptionNow call) accounts

end Deployment

theorem enables_of_lt {mask : UInt8} {token : ℕ} (h : token < 8) :
    enables mask token = .ok (enabled mask token) := if_pos h

theorem enabledAmong_eq {mask : UInt8} {tokens : List ℕ} (h : ∀ token ∈ tokens, token < 8) :
    enabledAmong mask tokens = .ok (tokens.filter (enabled mask)) := by
  induction tokens with
  | nil => rfl
  | cons token tokens ih =>
    rw [enabledAmong, enables_of_lt (h token (by simp)), ih fun t ht => h t (by simp [ht])]
    cases hmask : enabled mask token <;> simp [hmask]

theorem enabledTokens_eq (mask : UInt8) :
    enabledTokens mask = .ok ((List.range paymentTokenCount).filter (enabled mask)) :=
  enabledAmong_eq fun token h => by
    have := List.mem_range.mp h
    unfold paymentTokenCount at this
    omega

namespace Deployment

variable {d : Deployment}

theorem noPanic_planAt {paymentToken tier : ℕ} (htoken : paymentToken < paymentTokenCount)
    (htier : tier < 2) : NoPanic (d.planAt paymentToken tier) := by
  refine NoPanic.bind (NoPanic.orPanic ?_) fun byTier _ => NoPanic.orPanic ?_
  · simpa [paymentTokenCount] using htoken
  · simpa using htier

theorem noPanic_requireLiveEach {user : Pubkey} {tier : UInt8} (htier : tier.toNat < 2)
    {tokens : List ℕ} (htokens : ∀ token ∈ tokens, token < paymentTokenCount)
    (subscriptions : List AccountInfo) : NoPanic (d.requireLiveEach user tier tokens subscriptions) := by
  induction tokens generalizing subscriptions with
  | nil => exact NoPanic.pure _
  | cons token tokens ih =>
    refine NoPanic.bind (NoPanic.okOr _ _) fun _ _ => ?_
    refine NoPanic.bind (noPanic_planAt (htokens token (by simp)) htier) fun _ _ => ?_
    refine NoPanic.bind (NoPanic.require _ _) fun _ _ => ?_
    exact ih (fun t ht => htokens t (by simp [ht])) _

theorem noPanic_requireLive {user : Pubkey} {tier : UInt8} (htier : tier.toNat < 2)
    (subscriptions : List AccountInfo) (paymentTokens : UInt8) :
    NoPanic (d.requireLive subscriptions paymentTokens tier user) := by
  rw [requireLive, enabledTokens_eq]
  exact noPanic_requireLiveEach htier (fun token h => List.mem_range.mp (List.mem_filter.mp h).1) _

theorem noPanic_cancel (inv : Invocation) (user plan planAccount subscription : Pubkey)
    (accounts : Accounts) : NoPanic (d.cancel inv user plan planAccount subscription accounts) := by
  refine NoPanic.bind (NoPanic.require _ _) fun _ _ => ?_
  split
  · exact NoPanic.bind (NoPanic.require _ _) fun _ _ => NoPanic.pure _
  · refine NoPanic.bind (NoPanic.require _ _) fun _ _ => ?_
    exact NoPanic.ite (fun _ => NoPanic.pure _) fun _ => noPanic_invoke _ _ _

end Deployment

end Laterite
