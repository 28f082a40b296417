import Laterite.UserStates

/-!
# What the built instructions do to a token

Over one payment token of a user, an instruction changes the subscription to a plan, the authority
and the approval of the user's account. What Subscriptions is documented to do is assumed of it
here, and what the client's lists of instructions come to is put together from that.
-/

namespace Laterite.Client

/-- What a user holds for a payment token: the subscription at a plan's address, the authority, the
account; and whether the authority was created in the transaction under way. -/
structure Standing where
  subscription : Option RecordedSubscription
  authority : Option RecordedAuthority
  account : Option TokenAccountState
  isNew : Bool

def Standing.of (plan : PlanState) (token : TokenState) : Standing :=
  ⟨plan.subscriptionState, token.authorityState, token.accountState, false⟩

/-- What an instruction leaves, when it succeeds. -/
abbrev Run := Instruction → Standing → Option Standing

def runAll (run : Run) : List Instruction → Standing → Option Standing
  | [], standing => some standing
  | instruction :: rest, standing => (run instruction standing).bind (runAll run rest)

theorem runAll_append (run : Run) (first rest : List Instruction) (standing : Standing) :
    runAll run (first ++ rest) standing = (runAll run first standing).bind (runAll run rest) := by
  induction first generalizing standing with
  | nil => rfl
  | cons instruction first ih =>
    rw [List.cons_append, runAll, runAll, Option.bind_assoc]
    exact congrArg _ (funext ih)

def approved (token : TokenState) (account : TokenAccountState) : TokenAccountState :=
  { account with delegate := some token.authority, delegatedAmount := u64Max }

def PeriodEnd (start period now stop : ℤ) : Prop :=
  if now ≤ start then stop = start + period
  else ∃ k : ℕ, stop = start + k * period ∧ stop - period ≤ now ∧ now < stop

def cutShort (endTs stop : ℤ) : ℤ := if endTs ≠ 0 ∧ endTs < stop then endTs else stop

def RecordedSubscription.expiring (self : RecordedSubscription) (expiresAtTs : ℤ) :
    RecordedSubscription :=
  { self with delegation := { self.delegation with expiresAtTs := expiresAtTs } }

structure Opened (plan : PlanState) (authority : RecordedAuthority) (payer : Pubkey)
    (subscription : RecordedSubscription) : Prop where
  initId : subscription.initId = authority.initId
  payer : subscription.payer = payer
  amount : subscription.delegation.amount = plan.planState.amount
  pulled : subscription.delegation.amountPulledInPeriod = 0
  expiresAtTs : subscription.delegation.expiresAtTs = 0

/-- What the builders document of Subscriptions and of the token program, over a token of `user`,
its subscription to `plan` and a transaction that `payers` sign beside the user. -/
structure Documented (d : Deployment) (unknownInitId now : ℤ) (payers : List Pubkey)
    (plan : PlanState) (token : TokenState) (user : Pubkey) (run : Run) : Prop where
  /-- `init_subscription_authority` creates an authority and approves it. -/
  create {standing : Standing} {account : TokenAccountState} {payer : Pubkey}
    (haccount : standing.account = some account) (hthawed : account.frozen = false)
    (hpayer : payer ∈ payers) (hnone : standing.authority = none) :
    ∃ initId, run (.initSubscriptionAuthority user payer token.mint token.tokenProgram token.account)
      standing = some { standing with
        authority := some ⟨initId, payer⟩, account := some (approved token account), isNew := true }
  /-- Over an authority that exists it only approves it again. -/
  renew {standing : Standing} {account : TokenAccountState} {authority : RecordedAuthority}
    {payer : Pubkey} (haccount : standing.account = some account) (hthawed : account.frozen = false)
    (hpayer : payer ∈ payers) (hauthority : standing.authority = some authority) :
    run (.initSubscriptionAuthority user payer token.mint token.tokenProgram token.account) standing =
      some { standing with account := some (approved token account) }
  /-- `subscribe` needs an empty address and the authority's `init_id`, or the sentinel for one just
  created. -/
  subscribe {standing : Standing} {authority : RecordedAuthority} {payer : Pubkey} {expected : ℤ}
    (hempty : standing.subscription = none) (hauthority : standing.authority = some authority)
    (hpayer : payer ∈ payers)
    (hinitId : expected = authority.initId ∨ expected = unknownInitId ∧ standing.isNew = true) :
    ∃ subscription, Opened plan authority payer subscription ∧
      run (.subscribe plan.planState.amount plan.planState.createdAt plan.planState.periodHours
        expected d.vault payer (planId plan.paymentToken plan.tier) user token.mint) standing =
        some { standing with subscription := some subscription }
  /-- `revoke_delegation` closes an expired subscription, its rent to the recorded payer. -/
  closeExpired {standing : Standing} {subscription : RecordedSubscription}
    (hsubscription : standing.subscription = some subscription)
    (hexpiry : subscription.delegation.expiresAtTs ≠ 0)
    (hexpired : subscription.delegation.expiresAtTs ≤ now) :
    run (.revokeSubscription user plan.plan subscription.payer plan.subscription) standing =
      some { standing with subscription := none }
  /-- `revoke_abandoned_subscription` closes one whose authority is gone or re-created, when its
  recorded payer signs. -/
  closeAbandoned {standing : Standing} {subscription : RecordedSubscription}
    (hsubscription : standing.subscription = some subscription)
    (hunbound : standing.authority.map RecordedAuthority.initId ≠ some subscription.initId)
    (hpayer : subscription.payer ∈ payers) :
    run (.revokeAbandonedSubscription subscription.payer plan.plan plan.subscription token.authority)
      standing = some { standing with subscription := none }
  /-- `resume_subscription` clears a pending expiry. -/
  resume {standing : Standing} {subscription : RecordedSubscription}
    (hsubscription : standing.subscription = some subscription)
    (hbound : standing.authority.map RecordedAuthority.initId = some subscription.initId)
    (hexpiry : subscription.delegation.expiresAtTs ≠ 0)
    (hrunning : now < subscription.delegation.expiresAtTs) :
    run (.resumeSubscription subscription.delegation.expiresAtTs plan.plan user plan.subscription
      token.mint) standing = some { standing with subscription := some (subscription.expiring 0) }
  /-- `cancel_subscription` sets the expiry to the end of the period, never past the plan's. -/
  cancel {standing : Standing} {subscription : RecordedSubscription} {stop : ℤ}
    (hsubscription : standing.subscription = some subscription)
    (hexpiry : subscription.delegation.expiresAtTs = 0)
    (hstop : PeriodEnd subscription.delegation.currentPeriodStartTs
      (subscription.delegation.periodHours.toNat * 3600) now stop) :
    run (.cancelSubscription plan.plan user plan.subscription) standing =
      some { standing with
        subscription := some (subscription.expiring (cutShort plan.planState.endTs stop)) }

variable {d : Deployment} {unknownInitId now : ℤ} {payers : List Pubkey} {plan : PlanState}
  {token : TokenState} {user sponsor : Pubkey} {run : Run} {standing : Standing}
  {account : TokenAccountState}

def Approving (token : TokenState) (account : TokenAccountState) : Prop :=
  token.authorityState.isSome ∧ account.delegate = some token.authority

instance (token : TokenState) (account : TokenAccountState) : Decidable (Approving token account) :=
  inferInstanceAs (Decidable (_ ∧ _))

/-- The account as the built instructions leave it. -/
def renewed (token : TokenState) (account : TokenAccountState) : TokenAccountState :=
  if Approving token account then account else approved token account

structure Approved (token : TokenState) (account : TokenAccountState) (before after : Standing) :
    Prop where
  subscription : after.subscription = before.subscription
  account : after.account = some (renewed token account)
  authority : ∃ authority, after.authority = some authority ∧
    (∀ held, token.authorityState = some held → held = authority) ∧
    (token.authorityState = none → after.isNew = true)

theorem run_approve (standing : Standing)
    (hdocumented : Documented d unknownInitId now payers plan token user run)
    (hsponsor : sponsor ∈ payers) (haccount : standing.account = some account)
    (hthawed : account.frozen = false) (hauthority : standing.authority = token.authorityState) :
    ∃ after, runAll run (approveInstructions sponsor user token account) standing = some after ∧
      Approved token account standing after := by
  by_cases happroving : Approving token account
  · have hlist : approveInstructions sponsor user token account = [] := if_pos happroving
    rw [hlist]
    refine ⟨standing, rfl, rfl, ?_, ?_⟩
    · rw [haccount, renewed, if_pos happroving]
    · rcases Option.isSome_iff_exists.mp happroving.1 with ⟨authority, hheld⟩
      refine ⟨authority, hauthority.trans hheld, ?_, ?_⟩
      · intro held hsame
        exact Option.some.inj (hsame.symm.trans hheld)
      · intro hnone
        rw [hheld] at hnone
        cases hnone
  · have hlist : approveInstructions sponsor user token account =
        [.initSubscriptionAuthority user sponsor token.mint token.tokenProgram token.account] :=
      if_neg happroving
    rw [hlist]
    have hrenewed : renewed token account = approved token account := if_neg happroving
    cases hheld : token.authorityState with
    | none =>
      rcases hdocumented.create haccount hthawed hsponsor (hauthority.trans hheld) with ⟨initId, hrun⟩
      refine ⟨{ standing with
          authority := some ⟨initId, sponsor⟩, account := some (approved token account), isNew := true },
        ?_, rfl, congrArg some hrenewed.symm, ⟨initId, sponsor⟩, rfl, ?_, fun _ => rfl⟩
      · rw [runAll, hrun]
        rfl
      · intro held hsame
        rw [hheld] at hsame
        cases hsame
    | some authority =>
      have hrun := hdocumented.renew haccount hthawed hsponsor (hauthority.trans hheld)
      refine ⟨{ standing with account := some (approved token account) }, ?_, rfl,
        congrArg some hrenewed.symm, authority, hauthority.trans hheld, ?_, ?_⟩
      · rw [runAll, hrun]
        rfl
      · intro held hsame
        exact Option.some.inj (hsame.symm.trans hheld)
      · intro hnone
        rw [hheld] at hnone
        cases hnone

/-- The token as restored: a subscription that is not cancelled, through the authority there is,
which the account is approved for. -/
structure Restored (token : TokenState) (account : TokenAccountState)
    (subscription : RecordedSubscription) (after : Standing) : Prop where
  held : after.subscription = some subscription
  expiresAtTs : subscription.delegation.expiresAtTs = 0
  bound : after.authority.map RecordedAuthority.initId = some subscription.initId
  account : after.account = some (renewed token account)

theorem run_subscribe (standing : Standing)
    (hdocumented : Documented d unknownInitId now payers plan token user run)
    (hsponsor : sponsor ∈ payers) (haccount : standing.account = some account)
    (hthawed : account.frozen = false) (hauthority : standing.authority = token.authorityState)
    (hempty : standing.subscription = none) :
    ∃ after subscription, runAll run (approveInstructions sponsor user token account ++
        [subscribeInstruction d unknownInitId plan sponsor user token]) standing = some after ∧
      Restored token account subscription after ∧
      (∃ authority, Opened plan authority sponsor subscription) := by
  rcases run_approve standing hdocumented hsponsor haccount hthawed hauthority with ⟨mid, hmid, happroved⟩
  rcases happroved.authority with ⟨authority, hheld, hkept, hnew⟩
  have hinitId : (token.authorityState.map RecordedAuthority.initId).getD unknownInitId =
      authority.initId ∨ (token.authorityState.map RecordedAuthority.initId).getD unknownInitId =
        unknownInitId ∧ mid.isNew = true := by
    cases hbefore : token.authorityState with
    | none => exact .inr ⟨rfl, hnew hbefore⟩
    | some held => exact .inl (congrArg RecordedAuthority.initId (hkept held hbefore))
  rcases hdocumented.subscribe (happroved.subscription.trans hempty) hheld hsponsor hinitId with
    ⟨subscription, hopened, hrun⟩
  refine ⟨{ mid with subscription := some subscription }, subscription, ?_,
    ⟨rfl, hopened.expiresAtTs, ?_, happroved.account⟩, authority, hopened⟩
  · rw [runAll_append, hmid, Option.bind_some, subscribeInstruction, runAll, hrun]
    rfl
  · change mid.authority.map RecordedAuthority.initId = some subscription.initId
    rw [hheld, hopened.initId]
    rfl

end Laterite.Client
