import Laterite.ControlRefusals

/-!
# The client's controls and the program

A control is built from a reading of the user's accounts and executes on them once the instructions
placed before it have. The builder and the program are two statements of one set of checks: what is
built is accepted, and where a check stops the builder the program refuses.
-/

namespace Laterite.Client

open CheckedComputation TimedRuns Deployment

def Instruction.call : Instruction → Option Call
  | .enroll params payer user remaining =>
    some (.enroll user payer params (remaining.map RemainingAccount.address))
  | .reactivate params sponsor user remaining =>
    some (.reactivate user sponsor params (remaining.map RemainingAccount.address))
  | .updateSettings params user => some (.updateSettings user params)
  | .setUserPaused paused user => some (.setUserPaused user paused)
  | .lowerPending pending user => some (.lowerPending user pending)
  | .changeTier tier user _ remaining =>
    some (.changeTier user tier (remaining.map RemainingAccount.address))
  | .changePaymentTokens paymentTokens user _ remaining =>
    some (.changePaymentTokens user paymentTokens (remaining.map RemainingAccount.address))
  | .exit user _ remaining => some (.exit user (remaining.map RemainingAccount.address))
  | _ => none

/-- What the other programs do with an instruction. -/
abbrev Execution := Instruction → Accounts → Option Accounts

def Execution.all (run : Execution) : List Instruction → Accounts → Option Accounts
  | [], accounts => some accounts
  | instruction :: rest, accounts => (run instruction accounts).bind (run.all rest)

/-- A user's control with its arguments. Pausing and lowering are given the user's record. -/
inductive Control where
  | onboarding (params : EnrollParams)
  | reactivation (params : EnrollParams)
  | updateSettings (params : EnrollParams)
  | setUserPaused (paused : Bool) (userConfig : Laterite.UserConfig)
  | lowerPending (pending : UInt64) (userConfig : Laterite.UserConfig)
  | changeTier (tier : UInt8)
  | changePaymentTokens (paymentTokens : UInt8)
  | exit

namespace Control

def Given (chain : Chain) (user : Pubkey) : Control → Prop
  | .setUserPaused _ userConfig => chain.userConfigs user = some userConfig
  | .lowerPending _ userConfig => chain.userConfigs user = some userConfig
  | _ => True

def call (sponsor user : Pubkey) (remaining : List Pubkey) : Control → Call
  | .onboarding params => .enroll user sponsor params remaining
  | .reactivation params => .reactivate user sponsor params remaining
  | .updateSettings params => .updateSettings user params
  | .setUserPaused paused _ => .setUserPaused user paused
  | .lowerPending pending _ => .lowerPending user pending
  | .changeTier tier => .changeTier user tier remaining
  | .changePaymentTokens paymentTokens => .changePaymentTokens user paymentTokens remaining
  | .exit => .exit user remaining

end Control

section

variable (d : Deployment) (unknownInitId : ℤ) (config : Laterite.Config) (payers : List Pubkey)
  (sponsor user : Pubkey) (state : UserState) (delegations : List Delegation)
  (planMint : Pubkey → Option Pubkey)

def Control.instructions : Control → Build (List Instruction)
  | .onboarding params =>
    (getOnboardingInstructions d unknownInitId config params payers sponsor user state).map
      SponsoredInstructions.instructions
  | .reactivation params =>
    (getReactivationInstructions d unknownInitId config params payers sponsor user state).map
      SponsoredInstructions.instructions
  | .updateSettings params =>
    (getUpdateSettingsInstructions config params sponsor user state).map
      SponsoredInstructions.instructions
  | .setUserPaused paused userConfig => getSetUserPausedInstructions paused user userConfig
  | .lowerPending pending userConfig => getLowerPendingInstructions pending user userConfig
  | .changeTier tier =>
    getChangeTierInstructions d unknownInitId config payers sponsor user state tier
  | .changePaymentTokens paymentTokens =>
    getChangePaymentTokensInstructions d unknownInitId delegations planMint payers sponsor user state
      paymentTokens
  | .exit => getExitInstructions delegations planMint user state

/-- The state is a reading of the ledger: each plan at its address with the user's subscription at
its canonical one. -/
structure Mirrors (chain : Chain) : Prop where
  config : chain.config = some config
  userConfig : state.userConfig = chain.userConfigs user
  plans {plan : PlanState} (hplan : plan ∈ state.plans) : plan.paymentToken < paymentTokenCount ∧
    plan.tier < 2 ∧ plan.plan = d.plan plan.paymentToken plan.tier ∧
    plan.subscription = d.subscriptionOf plan.plan user ∧
    plan.subscriptionState.map RecordedSubscription.delegation =
      d.readSubscription (chain.accounts.info plan.subscription)
  listed {paymentToken tier : ℕ} (htoken : paymentToken < paymentTokenCount) (htier : tier < 2) :
    ∃ plan, planState state paymentToken tier = .ok plan
  tokens {paymentToken : ℕ} (htoken : paymentToken < paymentTokenCount) :
    ∃ token, tokenState state paymentToken = .ok token

/-- The instructions placed before Laterite's do what they are documented to: they execute, keep
every subscription at its canonical address, and leave a live one to each plan they were built for. -/
def Prepares (run : Execution) (accounts : Accounts) : Prop :=
  ∀ opening instructions tier tokens subscriptions,
    (opening = [] ∨ ∃ asset, assetAccountInstructions asset config sponsor state user = .ok opening) →
    tokens.Nodup →
    subscribeEach d unknownInitId state payers sponsor user tier tokens =
      .ok (instructions, subscriptions) →
    ∃ after, run.all (opening ++ instructions) accounts = some after ∧ d.Canonical after ∧
      ∀ paymentToken ∈ tokens, d.isLive (after.info (d.subscriptionOf (d.plan paymentToken tier) user))
        (d.plan paymentToken tier) user = true

/-- The builder and the program agree on a control: what is built has one instruction of Laterite's,
which succeeds after those before it, and where a check stops the builder the program refuses the
call, with whatever accounts and whoever signs. -/
structure Control.Agrees (inv : Invocation) (chain : Chain) (run : Execution) (control : Control) :
    Prop where
  succeeds {instructions : List Instruction}
    (hbuilt : control.instructions d unknownInitId config payers sponsor user state delegations planMint =
      .ok instructions) :
    ∃ before instruction rest remaining accounts event after,
      instructions = before ++ instruction :: rest ∧
      instruction.call = some (control.call sponsor user remaining) ∧
      (∀ other ∈ before ++ rest, other.call = none) ∧
      run.all before chain.accounts = some accounts ∧
      execute d inv (chain.setAccounts accounts) (control.call sponsor user remaining) =
        .ok (event, after)
  refuses {code : ℕ}
    (hstopped : control.instructions d unknownInitId config payers sponsor user state delegations
      planMint = .error (.client (.lateriteCheck code))) :
    ∀ (inv : Invocation) (accounts : Accounts) (remaining : List Pubkey), ∃ error,
      execute d inv (chain.setAccounts accounts) (control.call sponsor user remaining) =
        .error (.error error)

/-- The token can be subscribed to: its account is there and not frozen, and what the plan holds is
not left to run out. -/
def Subscribable (now : ℤ) (payers : List Pubkey) (plan : PlanState) (sponsor : Pubkey)
    (token : TokenState) : Prop :=
  ∃ account, token.accountState = some account ∧ account.frozen = false ∧
    ∀ held, ¬Stranded now payers plan sponsor token held

/-- The mask has bits past the table, of a user who has not exited and can subscribe to each token
of the table it adds. -/
def Control.Strays : Control → Prop
  | .changePaymentTokens paymentTokens =>
    4 ≤ paymentTokens.toNat ∧ ∃ userConfig, state.userConfig = some userConfig ∧
      userConfig.status ≠ .exited ∧
      ∀ paymentToken ∈ enabledPaymentTokens paymentTokens.toNat,
        paymentToken ∉ enabledPaymentTokens userConfig.paymentTokens.toNat →
        ∀ plan token, planState state paymentToken userConfig.tier.toNat = .ok plan →
          tokenState state paymentToken = .ok token →
          Subscribable state.now payers plan sponsor token
  | _ => False

end

variable {d : Deployment} {unknownInitId : ℤ} {config : Laterite.Config} {params : EnrollParams}
  {payers : List Pubkey} {sponsor user : Pubkey} {state : UserState} {delegations : List Delegation}
  {planMint : Pubkey → Option Pubkey} {inv : Invocation} {chain : Chain} {run : Execution}
  {accounts : Accounts} {tier : ℕ} {tokens : List ℕ} {instructions : List Instruction}

theorem unchecked_of_accepted {control : Control} (hmirrors : Mirrors d config user state chain)
    (hgiven : control.Given chain user) {remaining : List Pubkey} {event : Option Event} {after : Chain}
    (h : execute d inv (chain.setAccounts accounts) (control.call sponsor user remaining) =
      .ok (event, after)) :
    Unchecked (control.instructions d unknownInitId config payers sponsor user state delegations
      planMint) := by
  cases control with
  | onboarding params =>
    rcases emitting_eq_ok.mp h with ⟨e, -, haccepted⟩
    rcases enroll_ok haccepted with ⟨held, userCount, -, -, hconfig, hsponsor, hnone, hpaused, hroom,
      hvalid, -⟩
    obtain rfl := Option.some.inj (hmirrors.config.symm.trans hconfig)
    apply Unchecked.map
    apply Unchecked.after (assertCanJoin_eq_ok.mpr ⟨hpaused, hsponsor, hroom, hvalid⟩)
    split
    · intro code hcode
      cases hcode
    · apply Unchecked.bind unchecked_joinInstructions
      intro joined _
      exact .ok _
  | reactivation params =>
    rcases emitting_eq_ok.mp h with ⟨e, -, haccepted⟩
    rcases reactivate_ok haccepted with ⟨held, u, userCount, -, -, hconfig, hsponsor, hu, hexited,
      hpaused, hroom, hvalid, -⟩
    obtain rfl := Option.some.inj (hmirrors.config.symm.trans hconfig)
    have hleft : state.userConfig.map Laterite.UserConfig.status = some .exited := by
      rw [hmirrors.userConfig]
      exact Option.map_eq_some_iff.mpr ⟨u, hu, hexited⟩
    apply Unchecked.map
    apply Unchecked.after (assertCanJoin_eq_ok.mpr ⟨hpaused, hsponsor, hroom, hvalid⟩)
    apply Unchecked.checked hleft
    apply Unchecked.bind unchecked_joinInstructions
    intro joined _
    exact .ok _
  | updateSettings params =>
    rcases emitting_eq_ok.mp h with ⟨e, -, haccepted⟩
    rcases updateSettings_ok haccepted with ⟨u, huser, htier, htokens, hrules, -⟩
    rcases userOnly_eq_ok.mp huser with ⟨-, hu, hstays⟩
    apply Unchecked.map
    apply Unchecked.after (assertNotExited_eq_ok.mpr ⟨hmirrors.userConfig.trans hu, hstays⟩)
    apply Unchecked.checked ⟨htier, htokens⟩
    apply Unchecked.after (assertValidRules_eq_ok.mpr (EnrollParams.validateRules_eq_ok.mp hrules))
    apply Unchecked.bind (unchecked_assetAccountInstructions _)
    intro opening _
    exact .ok _
  | setUserPaused paused userConfig =>
    rcases emitting_eq_ok.mp h with ⟨e, -, haccepted⟩
    rcases setUserPaused_ok haccepted with ⟨u, huser, hpauses⟩
    rcases userOnly_eq_ok.mp huser with ⟨-, hu, hstays⟩
    obtain rfl := Option.some.inj (hu.symm.trans hgiven)
    apply Unchecked.after (assertNotExited_eq_ok.mpr ⟨rfl, hstays⟩)
    rcases hpauses with ⟨rfl, hactive, -⟩ | ⟨rfl, hpaused, -⟩
    · apply Unchecked.checked (by simp [hactive])
      apply Unchecked.checked (by simp)
      exact .ok _
    · apply Unchecked.checked (by simp)
      apply Unchecked.checked (by simp [hpaused])
      exact .ok _
  | lowerPending pending userConfig =>
    rcases emitting_eq_ok.mp h with ⟨e, -, haccepted⟩
    rcases lowerPending_ok haccepted with ⟨u, huser, hlower, -⟩
    rcases userOnly_eq_ok.mp huser with ⟨-, hu, hstays⟩
    obtain rfl := Option.some.inj (hu.symm.trans hgiven)
    apply Unchecked.after (assertNotExited_eq_ok.mpr ⟨rfl, hstays⟩)
    apply Unchecked.checked (UInt64.not_lt.mpr hlower)
    exact .ok _
  | changeTier tier =>
    rcases emitting_eq_ok.mp h with ⟨e, -, haccepted⟩
    rcases changeTier_ok haccepted with ⟨held, u, cap, after, hconfig, huser, hknown, hother, hbeta,
      hengine, -⟩
    rcases userOnly_eq_ok.mp huser with ⟨-, hu, hstays⟩
    obtain rfl := Option.some.inj (hmirrors.config.symm.trans hconfig)
    apply Unchecked.after (assertNotExited_eq_ok.mpr ⟨hmirrors.userConfig.trans hu, hstays⟩)
    apply Unchecked.after (found_tier_eq_ok.mpr ⟨cap, hknown, rfl⟩)
    apply Unchecked.checked hother
    apply Unchecked.checked (not_lt.mpr (Int.ofNat_le.mpr (UInt64.le_iff_toNat_le.mp hbeta)))
    apply Unchecked.checked (not_lt.mpr (Int.ofNat_le.mpr (UInt64.le_iff_toNat_le.mp hengine)))
    apply Unchecked.bind (unchecked_switchEach _ _ _)
    intro built _
    exact .ok _
  | changePaymentTokens paymentTokens =>
    rcases emitting_eq_ok.mp h with ⟨e, -, haccepted⟩
    rcases changePaymentTokens_ok haccepted with ⟨u, after, huser, hsome, -⟩
    rcases userOnly_eq_ok.mp huser with ⟨-, hu, hstays⟩
    apply Unchecked.checked (mt (UInt8.toNat_inj (b := 0)).mp hsome)
    apply Unchecked.after (assertNotExited_eq_ok.mpr ⟨hmirrors.userConfig.trans hu, hstays⟩)
    apply Unchecked.bind (unchecked_changeEach _ _ _)
    intro built _
    apply Unchecked.bind (unchecked_endedSubscriptionInstructions _ _ _)
    intro ended _
    exact .ok _
  | exit =>
    rcases emitting_eq_ok.mp h with ⟨e, -, haccepted⟩
    rcases exit_ok haccepted with ⟨held, u, after, -, huser, -⟩
    rcases userOnly_eq_ok.mp huser with ⟨-, hu, hstays⟩
    apply Unchecked.after (assertNotExited_eq_ok.mpr ⟨hmirrors.userConfig.trans hu, hstays⟩)
    apply Unchecked.bind (Unchecked.mapM fun _ _ => unchecked_planState _ _)
    intro plans _
    apply Unchecked.bind (unchecked_endedSubscriptionInstructions _ _ _)
    intro ended _
    exact .ok _

theorem noPanic_call (hvalid : chain.UsersValid) (accounts : Accounts) (sponsor user : Pubkey)
    (control : Control) (remaining : List Pubkey) :
    NoPanic (execute d inv (chain.setAccounts accounts) (control.call sponsor user remaining)) := by
  have hsame : (chain.setAccounts accounts).UsersValid := hvalid
  cases control with
  | onboarding params => exact noPanic_emitting (noPanic_enroll _ _ _ _)
  | reactivation params => exact noPanic_emitting (noPanic_reactivate _ _ _ _)
  | updateSettings params => exact noPanic_emitting (noPanic_updateSettings _ _)
  | setUserPaused paused userConfig => exact noPanic_emitting (noPanic_setUserPaused _ _)
  | lowerPending pending userConfig => exact noPanic_emitting (noPanic_lowerPending _ _)
  | changeTier tier => exact noPanic_emitting (noPanic_changeTier hsame _ _ _)
  | changePaymentTokens paymentTokens =>
    exact noPanic_emitting (noPanic_changePaymentTokens hsame _ _ _)
  | exit => exact noPanic_emitting (noPanic_exit hsame _ _)

/-- Where a check stops the builder the program refuses. -/
theorem refuses_of_stopped {control : Control} (hvalid : chain.UsersValid)
    (hmirrors : Mirrors d config user state chain) (hgiven : control.Given chain user) {code : ℕ}
    (hstopped : control.instructions d unknownInitId config payers sponsor user state delegations
      planMint = .error (.client (.lateriteCheck code))) (inv : Invocation) (accounts : Accounts)
    (remaining : List Pubkey) : ∃ error,
      execute d inv (chain.setAccounts accounts) (control.call sponsor user remaining) =
        .error (.error error) := by
  cases hresult : execute d inv (chain.setAccounts accounts) (control.call sponsor user remaining) with
  | ok done => exact absurd hstopped (unchecked_of_accepted hmirrors hgiven hresult code)
  | error fault =>
    cases fault with
    | error error => exact ⟨error, rfl⟩
    | panic => exact absurd hresult (noPanic_call hvalid accounts sponsor user control remaining)

end Laterite.Client
