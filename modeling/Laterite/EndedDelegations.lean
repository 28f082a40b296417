import Laterite.AgreedControls

/-!
# What leaving closes

A user's authority over a mint serves every merchant they delegated to in it. A control that ends
subscriptions closes those, and revokes the authority only when nothing else of the user draws on
its mint. Over what the user holds of Subscriptions, each instruction placed around Laterite's is
given the effect it is documented to have, and a pull the accounts it is documented to need.
-/

namespace Laterite.Client

open CheckedComputation TimedRuns Deployment

/-- Whether Subscriptions still pulls the mint through the delegation at `now`: a fixed or a recurring
one through the very second it expires at, a subscription only before it. -/
def Delegation.InForce (planMint : Pubkey → Option Pubkey) (now : ℤ) (mint : Pubkey) :
    Delegation → Prop
  | .fixed _ own expiryTs amount => own = mint ∧ (expiryTs = 0 ∨ now ≤ expiryTs) ∧ 0 < amount
  | .recurring _ own expiryTs => own = mint ∧ (expiryTs = 0 ∨ now ≤ expiryTs)
  | .subscription _ plan held => planMint plan = some mint ∧
      (held.delegation.expiresAtTs = 0 ∨ now < held.delegation.expiresAtTs)

/-- A fixed delegation with an amount left, or a recurring one, that expires at `now`. -/
def Delegation.ExpiresAt (now : ℤ) (mint : Pubkey) : Delegation → Prop
  | .fixed _ own expiryTs amount => own = mint ∧ expiryTs = now ∧ 0 < amount
  | .recurring _ own expiryTs => own = mint ∧ expiryTs = now
  | .subscription _ _ _ => False

section

variable {planMint : Pubkey → Option Pubkey} {now : ℤ} {mint : Pubkey} {delegation : Delegation}

theorem Delegation.InForce.earlier {later : ℤ} (hnow : now ≤ later)
    (h : delegation.InForce planMint later mint) : delegation.InForce planMint now mint := by
  cases delegation with
  | fixed => exact ⟨h.1, h.2.1.imp_right hnow.trans, h.2.2⟩
  | recurring => exact ⟨h.1, h.2.imp_right hnow.trans⟩
  | subscription => exact ⟨h.1, h.2.imp_right (lt_of_le_of_lt hnow)⟩

theorem Delegation.InForce.expiring {address plan : Pubkey} {held : RecordedSubscription}
    (h : (Delegation.subscription address plan held).InForce planMint now mint) :
    (Delegation.subscription address plan (held.expiring 0)).InForce planMint now mint :=
  ⟨h.1, .inl rfl⟩

/-- The client counts what is in force but for what expires at the second it reads. -/
theorem Delegation.inForce_iff : delegation.InForce planMint now mint ↔
    mint ∈ delegation.mints planMint now ∨ delegation.ExpiresAt now mint := by
  have hexpiry (expiryTs : ℤ) : (expiryTs = 0 ∨ now ≤ expiryTs) ↔
      (expiryTs = 0 ∨ expiryTs > now) ∨ expiryTs = now := by
    omega
  cases delegation with
  | fixed address own expiryTs amount =>
    have hlisted : mint ∈ (Delegation.fixed address own expiryTs amount).mints planMint now ↔
        ((expiryTs = 0 ∨ expiryTs > now) ∧ amount > 0) ∧ own = mint := by
      rw [Delegation.mints]
      split <;> simp_all [eq_comm]
    rw [hlisted, InForce, ExpiresAt, hexpiry]
    tauto
  | recurring address own expiryTs =>
    have hlisted : mint ∈ (Delegation.recurring address own expiryTs).mints planMint now ↔
        (expiryTs = 0 ∨ expiryTs > now) ∧ own = mint := by
      rw [Delegation.mints]
      split <;> simp_all [eq_comm]
    rw [hlisted, InForce, ExpiresAt, hexpiry]
    tauto
  | subscription address plan held =>
    have hruns : isRunning (some held.decoded) now = true ↔
        held.delegation.expiresAtTs = 0 ∨ now < held.delegation.expiresAtTs := by
      rw [isRunning, decide_eq_true_eq]
      rfl
    rw [InForce, ExpiresAt, or_false, ← hruns, Delegation.mints]
    split
    · rename_i h
      rw [Option.mem_toList, and_iff_left h]
    · rename_i h
      exact iff_of_false (fun hforce => h hforce.2) List.not_mem_nil

end

/-- A delegation of the user's, through the authority created with `initId`. -/
structure Held where
  initId : ℤ
  delegation : Delegation

/-- The user's delegations by address; by mint, their authority and their account; and the mint of
the plan at an address. -/
structure Holdings where
  held : Pubkey → Option Held
  authority : Pubkey → Option RecordedAuthority
  account : Pubkey → Option TokenAccountState
  planMint : Pubkey → Option Pubkey

namespace Holdings

variable (holdings : Holdings)

def setHeld (key : Pubkey) (held : Option Held) : Holdings :=
  { holdings with held := Function.update holdings.held key held }

def setAuthority (mint : Pubkey) (authority : Option RecordedAuthority) : Holdings :=
  { holdings with authority := Function.update holdings.authority mint authority }

def setAccount (mint : Pubkey) (account : TokenAccountState) : Holdings :=
  { holdings with account := Function.update holdings.account mint (some account) }

/-- Other than through the addresses `ending`, a delegation of the user's is in force on the mint. -/
def Needed (now : ℤ) (ending : List Pubkey) (mint : Pubkey) : Prop :=
  ∃ key held, key ∉ ending ∧ holdings.held key = some held ∧
    held.delegation.InForce holdings.planMint now mint

variable {holdings} {key other mint : Pubkey} {granted : Option Held}
  {through : Option RecordedAuthority} {source : TokenAccountState}

@[simp] theorem setHeld_self : (holdings.setHeld key granted).held key = granted := by
  simp [setHeld]

theorem setHeld_of_ne (hne : other ≠ key) :
    (holdings.setHeld key granted).held other = holdings.held other := by
  simp [setHeld, hne]

@[simp] theorem setAuthority_self : (holdings.setAuthority mint through).authority mint = through := by
  simp [setAuthority]

theorem setAuthority_of_ne (hne : other ≠ mint) :
    (holdings.setAuthority mint through).authority other = holdings.authority other := by
  simp [setAuthority, hne]

@[simp] theorem setAccount_self : (holdings.setAccount mint source).account mint = some source := by
  simp [setAccount]

theorem setAccount_of_ne (hne : other ≠ mint) :
    (holdings.setAccount mint source).account other = holdings.account other := by
  simp [setAccount, hne]

@[simp] theorem setHeld_planMint : (holdings.setHeld key granted).planMint = holdings.planMint := rfl

@[simp] theorem setHeld_authority : (holdings.setHeld key granted).authority = holdings.authority := rfl

@[simp] theorem setHeld_account : (holdings.setHeld key granted).account = holdings.account := rfl

@[simp] theorem setAuthority_held : (holdings.setAuthority mint through).held = holdings.held := rfl

@[simp] theorem setAuthority_account : (holdings.setAuthority mint through).account = holdings.account := rfl

@[simp] theorem setAuthority_planMint : (holdings.setAuthority mint through).planMint = holdings.planMint := rfl

@[simp] theorem setAccount_held : (holdings.setAccount mint source).held = holdings.held := rfl

@[simp] theorem setAccount_authority : (holdings.setAccount mint source).authority = holdings.authority := rfl

@[simp] theorem setAccount_planMint : (holdings.setAccount mint source).planMint = holdings.planMint := rfl

end Holdings

/-- An account that was closed, and who its rent went to. -/
structure Refund where
  closed : Pubkey
  receiver : Pubkey
  deriving DecidableEq

/-- What the other programs do with an instruction, and the rents they return. -/
abbrev Settlement := Instruction → Accounts → Option (Accounts × List Refund)

structure Ledger where
  chain : Chain
  refunds : List Refund

section

variable (d : Deployment) (inv : Invocation) (run : Settlement)

/-- Laterite's instructions are its own; the others are the other programs'. -/
def perform (instruction : Instruction) (ledger : Ledger) : Option Ledger :=
  match instruction.call with
  | some call =>
    match execute d inv ledger.chain call with
    | .ok (_, after) => some { ledger with chain := after }
    | .error _ => none
  | none => (run instruction ledger.chain.accounts).map fun (accounts, refunds) =>
    ⟨ledger.chain.setAccounts accounts, ledger.refunds ++ refunds⟩

/-- A transaction's instructions in order; it fails as a whole. -/
def transact : List Instruction → Ledger → Option Ledger
  | [], ledger => some ledger
  | instruction :: rest, ledger => (perform d inv run instruction ledger).bind (transact rest)

end

/-- When Subscriptions pulls a mint of the user's through the delegation at an address. -/
abbrev PullRule := Holdings → ℤ → Pubkey → Pubkey → Prop

/-- What the rule is documented to depend on. -/
structure PullRule.Documented (authorityOf : Pubkey → Pubkey) (pulls : PullRule) : Prop where
  /-- The delegation is in force, and goes through the user's present authority over the mint. -/
  needs {holdings : Holdings} {now : ℤ} {key mint : Pubkey} (h : pulls holdings now key mint) :
    ∃ granted through, holdings.held key = some granted ∧
      granted.delegation.InForce holdings.planMint now mint ∧
      holdings.authority mint = some through ∧ through.initId = granted.initId
  /-- It reads the delegation, the authority, the plan's mint and the user's account; an expiry that
  is cleared and an approval that is renewed take nothing away. -/
  keeps {before after : Holdings} {now : ℤ} {key mint : Pubkey} (h : pulls before now key mint)
    (hheld : after.held key = before.held key ∨ ∃ initId address plan held,
      before.held key = some ⟨initId, .subscription address plan held⟩ ∧
      after.held key = some ⟨initId, .subscription address plan (held.expiring 0)⟩)
    (hauthority : after.authority mint = before.authority mint)
    (haccount : after.account mint = before.account mint ∨ ∃ account,
      before.account mint = some account ∧ after.account mint = some { account with
        delegate := some (authorityOf mint), delegatedAmount := u64Max })
    (hplanMint : after.planMint = before.planMint) : pulls after now key mint

/-- The user's holdings are read from the accounts: a delegation from its own account, the rest from
accounts that are not the user's subscriptions to plans of the vault. -/
structure ReadsHoldings (d : Deployment) (user : Pubkey) (view : Accounts → Holdings) : Prop where
  held {accounts after : Accounts} {key : Pubkey} (hsame : after key = accounts key) :
    (view after).held key = (view accounts).held key
  others {accounts after : Accounts}
    (hsame : ∀ key, (∀ plan, d.VaultPlan plan → d.subscriptionOf plan user ≠ key) →
      after key = accounts key) :
    (view after).authority = (view accounts).authority ∧
      (view after).account = (view accounts).account ∧
      (view after).planMint = (view accounts).planMint

/-- The effect each instruction is documented to have when it succeeds. -/
structure Documents (d : Deployment) (authorityOf : Pubkey → Pubkey) (user : Pubkey)
    (view : Accounts → Holdings) (run : Settlement) : Prop where
  /-- Every subscription is kept at its canonical address. -/
  canonical {instruction : Instruction} {accounts after : Accounts} {refunds : List Refund}
    (hrun : run instruction accounts = some (after, refunds)) (hcanonical : d.Canonical accounts) :
    d.Canonical after
  /-- `init_subscription_authority` keeps an authority that exists and approves it. -/
  approve {payer mint tokenProgram userAta : Pubkey} {accounts after : Accounts}
    {refunds : List Refund}
    (hrun : run (.initSubscriptionAuthority user payer mint tokenProgram userAta) accounts =
      some (after, refunds)) :
    refunds = [] ∧ ∃ account initId, (view accounts).account mint = some account ∧
      view after = ((view accounts).setAuthority mint
        (some (((view accounts).authority mint).getD ⟨initId, payer⟩))).setAccount mint
        { account with delegate := some (authorityOf mint), delegatedAmount := u64Max }
  /-- `subscribe` needs an address that holds nothing. -/
  subscribe {amount : UInt64} {createdAt initId : ℤ} {periodHours : UInt64} {merchant payer : Pubkey}
    {planId : ℕ} {mint : Pubkey} {accounts after : Accounts} {refunds : List Refund}
    (hrun : run (.subscribe amount createdAt periodHours initId merchant payer planId user mint)
      accounts = some (after, refunds)) :
    refunds = [] ∧ ∃ key held, (view accounts).held key = none ∧
      view after = (view accounts).setHeld key (some held)
  /-- `resume_subscription` clears a pending expiry. -/
  resume {expiresAtTs : ℤ} {plan subscription mint : Pubkey} {accounts after : Accounts}
    {refunds : List Refund}
    (hrun : run (.resumeSubscription expiresAtTs plan user subscription mint) accounts =
      some (after, refunds)) :
    refunds = [] ∧ ∃ initId held,
      (view accounts).held subscription = some ⟨initId, .subscription subscription plan held⟩ ∧
      view after = (view accounts).setHeld subscription
        (some ⟨initId, .subscription subscription plan (held.expiring 0)⟩)
  /-- `revoke_delegation` closes a delegation, its rent to the receiver. -/
  revoke {plan receiver subscription : Pubkey} {accounts after : Accounts} {refunds : List Refund}
    (hrun : run (.revokeSubscription user plan receiver subscription) accounts =
      some (after, refunds)) :
    refunds = [⟨subscription, receiver⟩] ∧ view after = (view accounts).setHeld subscription none
  /-- `revoke_abandoned_subscription` closes one, its rent to the payer who signs. -/
  revokeAbandoned {payer plan subscription authority : Pubkey} {accounts after : Accounts}
    {refunds : List Refund}
    (hrun : run (.revokeAbandonedSubscription payer plan subscription authority) accounts =
      some (after, refunds)) :
    refunds = [⟨subscription, payer⟩] ∧ view after = (view accounts).setHeld subscription none
  /-- `revoke_subscription_authority` closes an authority and takes its approval back, its rent to
  the receiver. -/
  revokeAuthority {receiver mint tokenProgram : Pubkey} {accounts after : Accounts}
    {refunds : List Refund}
    (hrun : run (.revokeSubscriptionAuthority receiver mint tokenProgram user) accounts =
      some (after, refunds)) :
    refunds = [⟨authorityOf mint, receiver⟩] ∧ ∃ account,
      (view accounts).account mint = some account ∧
      view after = ((view accounts).setAuthority mint none).setAccount mint
        { account with delegate := none, delegatedAmount := 0 }

namespace Instruction

def Placed (user : Pubkey) : Instruction → Prop
  | .initSubscriptionAuthority owner _ _ _ _ => owner = user
  | .subscribe _ _ _ _ _ _ _ subscriber _ => subscriber = user
  | .resumeSubscription _ _ subscriber _ _ => subscriber = user
  | .revokeSubscription authority _ _ _ => authority = user
  | .revokeAbandonedSubscription _ _ _ _ => True
  | .revokeSubscriptionAuthority _ _ _ owner => owner = user
  | _ => False

def closes : Instruction → Option Pubkey
  | .revokeSubscription _ _ _ subscription => some subscription
  | .revokeAbandonedSubscription _ _ subscription _ => some subscription
  | _ => none

def revokes : Instruction → Option Pubkey
  | .revokeSubscriptionAuthority _ mint _ _ => some mint
  | _ => none

end Instruction

section

variable {d : Deployment} {authorityOf : Pubkey → Pubkey} {user : Pubkey} {view : Accounts → Holdings}
  {run : Settlement} {now : ℤ} {key mint : Pubkey} {instruction : Instruction}
  {accounts after : Accounts} {refunds : List Refund}

variable (hdocuments : Documents d authorityOf user view run) (hplaced : instruction.Placed user)
  (hrun : run instruction accounts = some (after, refunds))
include hdocuments hplaced hrun

theorem authority_of_run (hrevokes : instruction.revokes ≠ some mint)
    {authority : RecordedAuthority} (h : (view accounts).authority mint = some authority) :
    (view after).authority mint = some authority := by
  cases instruction with
  | initSubscriptionAuthority owner payer own tokenProgram userAta =>
    obtain rfl : owner = user := hplaced
    rcases hdocuments.approve hrun with ⟨-, account, initId, -, hview⟩
    rw [hview, Holdings.setAccount_authority]
    by_cases hsame : mint = own
    · rw [← hsame, Holdings.setAuthority_self, h]
      rfl
    · rw [Holdings.setAuthority_of_ne hsame, h]
  | subscribe _ _ _ _ _ _ _ subscriber _ =>
    obtain rfl : subscriber = user := hplaced
    rcases hdocuments.subscribe hrun with ⟨-, key, held, -, hview⟩
    rw [hview, Holdings.setHeld_authority, h]
  | resumeSubscription _ plan subscriber subscription _ =>
    obtain rfl : subscriber = user := hplaced
    rcases hdocuments.resume hrun with ⟨-, initId, held, -, hview⟩
    rw [hview, Holdings.setHeld_authority, h]
  | revokeSubscription own plan receiver subscription =>
    obtain rfl : own = user := hplaced
    rw [(hdocuments.revoke hrun).2, Holdings.setHeld_authority, h]
  | revokeAbandonedSubscription payer plan subscription _ =>
    rw [(hdocuments.revokeAbandoned hrun).2, Holdings.setHeld_authority, h]
  | revokeSubscriptionAuthority receiver own tokenProgram owner =>
    obtain rfl : owner = user := hplaced
    rcases hdocuments.revokeAuthority hrun with ⟨-, account, -, hview⟩
    have hother : mint ≠ own := fun hsame => hrevokes (congrArg some hsame.symm)
    rw [hview, Holdings.setAccount_authority, Holdings.setAuthority_of_ne hother, h]
  | _ => exact absurd hplaced id

theorem pulls_of_run {pulls : PullRule} (hrule : pulls.Documented authorityOf)
    (hcloses : instruction.closes ≠ some key) (hrevokes : instruction.revokes ≠ some mint)
    (h : pulls (view accounts) now key mint) : pulls (view after) now key mint := by
  rcases hrule.needs h with ⟨granted, through, hheld, -, hthrough, -⟩
  have hauthority : (view after).authority mint = (view accounts).authority mint :=
    (authority_of_run hdocuments hplaced hrun hrevokes hthrough).trans hthrough.symm
  cases instruction with
  | initSubscriptionAuthority owner payer own tokenProgram userAta =>
    obtain rfl : owner = user := hplaced
    rcases hdocuments.approve hrun with ⟨-, account, initId, haccount, hview⟩
    rw [hview] at hauthority ⊢
    refine hrule.keeps h (.inl rfl) hauthority ?_ rfl
    by_cases hsame : mint = own
    · subst hsame
      exact .inr ⟨account, haccount, Holdings.setAccount_self⟩
    · exact .inl (Holdings.setAccount_of_ne hsame)
  | subscribe _ _ _ _ _ _ _ subscriber _ =>
    obtain rfl : subscriber = user := hplaced
    rcases hdocuments.subscribe hrun with ⟨-, empty, held, hempty, hview⟩
    have hother : key ≠ empty := by
      rintro rfl
      cases hempty.symm.trans hheld
    rw [hview] at hauthority ⊢
    exact hrule.keeps h (.inl (Holdings.setHeld_of_ne hother)) hauthority (.inl rfl) rfl
  | resumeSubscription _ plan subscriber subscription _ =>
    obtain rfl : subscriber = user := hplaced
    rcases hdocuments.resume hrun with ⟨-, initId, held, hsubscription, hview⟩
    rw [hview] at hauthority ⊢
    refine hrule.keeps h ?_ hauthority (.inl rfl) rfl
    by_cases hsame : key = subscription
    · subst hsame
      exact .inr ⟨initId, key, plan, held, hsubscription, Holdings.setHeld_self⟩
    · exact .inl (Holdings.setHeld_of_ne hsame)
  | revokeSubscription own plan receiver subscription =>
    obtain rfl : own = user := hplaced
    have hother : key ≠ subscription := fun hsame => hcloses (congrArg some hsame.symm)
    rw [(hdocuments.revoke hrun).2] at hauthority ⊢
    exact hrule.keeps h (.inl (Holdings.setHeld_of_ne hother)) hauthority (.inl rfl) rfl
  | revokeAbandonedSubscription payer plan subscription _ =>
    have hother : key ≠ subscription := fun hsame => hcloses (congrArg some hsame.symm)
    rw [(hdocuments.revokeAbandoned hrun).2] at hauthority ⊢
    exact hrule.keeps h (.inl (Holdings.setHeld_of_ne hother)) hauthority (.inl rfl) rfl
  | revokeSubscriptionAuthority receiver own tokenProgram owner =>
    obtain rfl : owner = user := hplaced
    rcases hdocuments.revokeAuthority hrun with ⟨-, account, -, hview⟩
    have hother : mint ≠ own := fun hsame => hrevokes (congrArg some hsame.symm)
    rw [hview] at hauthority ⊢
    exact hrule.keeps h (.inl rfl) hauthority (.inl (Holdings.setAccount_of_ne hother)) rfl
  | _ => exact absurd hplaced id

end

section

variable {d : Deployment} {inv : Invocation} {run : Settlement} {authorityOf : Pubkey → Pubkey}
  {user : Pubkey} {view : Accounts → Holdings} {instructions : List Instruction}
  {ledger after : Ledger} {now : ℤ} {key mint : Pubkey}

theorem transact_append (first rest : List Instruction) (ledger : Ledger) :
    transact d inv run (first ++ rest) ledger =
      (transact d inv run first ledger).bind (transact d inv run rest) := by
  induction first generalizing ledger with
  | nil => rfl
  | cons instruction first ih =>
    rw [List.cons_append, transact, transact, Option.bind_assoc]
    exact congrArg _ (funext ih)

theorem transact_keeps {P : Ledger → Prop} (h : transact d inv run instructions ledger = some after)
    (hstart : P ledger)
    (hstep : ∀ instruction ∈ instructions, ∀ mid next,
      perform d inv run instruction mid = some next → P mid → P next) : P after := by
  induction instructions generalizing ledger with
  | nil =>
    obtain rfl := Option.some.inj h
    exact hstart
  | cons instruction rest ih =>
    rcases Option.bind_eq_some_iff.mp h with ⟨mid, hmid, hrest⟩
    apply ih hrest (hstep instruction List.mem_cons_self _ _ hmid hstart)
    intro other hother
    exact hstep other (List.mem_cons_of_mem _ hother)

/-- Once an instruction of the transaction has brought something about that the rest keep, it holds. -/
theorem transact_brings {P : Ledger → Prop} {instruction : Instruction}
    (h : transact d inv run instructions ledger = some after) (hmem : instruction ∈ instructions)
    (hbrings : ∀ mid next, perform d inv run instruction mid = some next → P next)
    (hstep : ∀ instruction ∈ instructions, ∀ mid next,
      perform d inv run instruction mid = some next → P mid → P next) : P after := by
  rcases List.append_of_mem hmem with ⟨before, rest, rfl⟩
  rw [transact_append] at h
  rcases Option.bind_eq_some_iff.mp h with ⟨mid, -, hlast⟩
  rcases Option.bind_eq_some_iff.mp hlast with ⟨next, hnext, hrest⟩
  apply transact_keeps hrest (hbrings mid next hnext)
  intro other hother
  exact hstep other (List.mem_append_right _ (List.mem_cons_of_mem _ hother))

/-- What is placed around Laterite's instruction changes the other programs' accounts. -/
theorem perform_placed {instruction : Instruction} (hplaced : instruction.Placed user)
    (h : perform d inv run instruction ledger = some after) : ∃ accounts refunds,
      run instruction ledger.chain.accounts = some (accounts, refunds) ∧
      after = ⟨ledger.chain.setAccounts accounts, ledger.refunds ++ refunds⟩ := by
  have hcall : instruction.call = none := by
    cases instruction <;> first | rfl | exact absurd hplaced id
  rw [perform, hcall] at h
  rcases Option.map_eq_some_iff.mp h with ⟨⟨accounts, refunds⟩, hrun, hafter⟩
  exact ⟨accounts, refunds, hrun, hafter.symm⟩

section

variable (hdocuments : Documents d authorityOf user view run)
  (hplaced : ∀ instruction ∈ instructions, instruction.Placed user)
  (h : transact d inv run instructions ledger = some after)
include hdocuments hplaced h

theorem transact_placed (hcanonical : d.Canonical ledger.chain.accounts) :
    d.Canonical after.chain.accounts ∧ after.chain.userConfigs = ledger.chain.userConfigs ∧
      after.chain.config = ledger.chain.config := by
  apply transact_keeps (P := fun reached => d.Canonical reached.chain.accounts ∧
    reached.chain.userConfigs = ledger.chain.userConfigs ∧
      reached.chain.config = ledger.chain.config) h ⟨hcanonical, rfl, rfl⟩
  intro instruction hmem mid next hnext hmid
  rcases perform_placed (hplaced instruction hmem) hnext with ⟨accounts, refunds, hrun, rfl⟩
  exact ⟨hdocuments.canonical hrun hmid.1, hmid.2⟩

theorem transact_authority
    (hrevokes : ∀ instruction ∈ instructions, instruction.revokes ≠ some mint)
    {authority : RecordedAuthority}
    (hauthority : (view ledger.chain.accounts).authority mint = some authority) :
    (view after.chain.accounts).authority mint = some authority := by
  apply transact_keeps (P := fun reached =>
    (view reached.chain.accounts).authority mint = some authority) h hauthority
  intro instruction hmem mid next hnext hmid
  rcases perform_placed (hplaced instruction hmem) hnext with ⟨accounts, refunds, hrun, rfl⟩
  exact authority_of_run hdocuments (hplaced instruction hmem) hrun (hrevokes instruction hmem) hmid

theorem transact_pulls {pulls : PullRule} (hrule : pulls.Documented authorityOf)
    (hcloses : ∀ instruction ∈ instructions, instruction.closes ≠ some key)
    (hrevokes : ∀ instruction ∈ instructions, instruction.revokes ≠ some mint)
    (hpulls : pulls (view ledger.chain.accounts) now key mint) :
    pulls (view after.chain.accounts) now key mint := by
  apply transact_keeps (P := fun reached => pulls (view reached.chain.accounts) now key mint) h hpulls
  intro instruction hmem mid next hnext hmid
  rcases perform_placed (hplaced instruction hmem) hnext with ⟨accounts, refunds, hrun, rfl⟩
  exact pulls_of_run hdocuments (hplaced instruction hmem) hrun hrule (hcloses instruction hmem)
    (hrevokes instruction hmem) hmid

end

end

end Laterite.Client
