import Laterite.EndedDelegations

/-!
# Leaving closes what it ended

Leaving, or dropping a payment token, ends the subscriptions to the plans that are left. What the
client places behind Laterite's instruction closes those, and takes from the user's other
delegations nothing they are pulled through.
-/

namespace Laterite.Client

open CheckedComputation TimedRuns Deployment

section

variable {d : Deployment} {inv : Invocation} {run : Settlement} {authorityOf : Pubkey → Pubkey}
  {user : Pubkey} {view : Accounts → Holdings} {instructions : List Instruction}
  {ledger after : Ledger} {key mint : Pubkey}

def Instruction.Behind (user : Pubkey) : Instruction → Prop
  | .revokeSubscription authority _ _ _ => authority = user
  | .revokeSubscriptionAuthority _ _ _ owner => owner = user
  | _ => False

theorem Instruction.Behind.placed {instruction : Instruction} (h : instruction.Behind user) :
    instruction.Placed user := by
  cases instruction <;> first | exact h | exact absurd h id

variable (hdocuments : Documents d authorityOf user view run)
  (hbehind : ∀ instruction ∈ instructions, instruction.Behind user)
  (h : transact d inv run instructions ledger = some after)
include hdocuments hbehind h

/-- What one of them closes stays closed, and the rent stays returned. -/
theorem transact_closes {plan receiver : Pubkey}
    (hmem : .revokeSubscription user plan receiver key ∈ instructions) :
    (view after.chain.accounts).held key = none ∧ ⟨key, receiver⟩ ∈ after.refunds := by
  apply transact_brings (P := fun reached => (view reached.chain.accounts).held key = none ∧
    ⟨key, receiver⟩ ∈ reached.refunds) h hmem
  · intro mid next hnext
    rcases perform_placed (hbehind _ hmem).placed hnext with ⟨accounts, refunds, hrun, rfl⟩
    rcases hdocuments.revoke hrun with ⟨hrefunds, hview⟩
    constructor
    · change (view accounts).held key = none
      rw [hview, Holdings.setHeld_self]
    · rw [hrefunds]
      exact List.mem_append_right _ (List.mem_singleton_self _)
  · intro instruction hother mid next hnext hmid
    rcases perform_placed (hbehind _ hother).placed hnext with ⟨accounts, refunds, hrun, rfl⟩
    refine ⟨?_, List.mem_append_left _ hmid.2⟩
    change (view accounts).held key = none
    have hkind := hbehind _ hother
    cases instruction with
    | revokeSubscription own plan receiver subscription =>
      obtain rfl : own = user := hkind
      rw [(hdocuments.revoke hrun).2]
      by_cases hsame : key = subscription
      · rw [hsame, Holdings.setHeld_self]
      · rw [Holdings.setHeld_of_ne hsame]
        exact hmid.1
    | revokeSubscriptionAuthority receiver own tokenProgram owner =>
      obtain rfl : owner = user := hkind
      rcases hdocuments.revokeAuthority hrun with ⟨-, account, -, hview⟩
      rw [hview]
      exact hmid.1
    | _ => exact absurd hkind id

/-- What one of them revokes stays revoked, and the rent stays returned. -/
theorem transact_revokes {receiver tokenProgram : Pubkey}
    (hmem : .revokeSubscriptionAuthority receiver mint tokenProgram user ∈ instructions) :
    (view after.chain.accounts).authority mint = none ∧
      ⟨authorityOf mint, receiver⟩ ∈ after.refunds := by
  apply transact_brings (P := fun reached => (view reached.chain.accounts).authority mint = none ∧
    ⟨authorityOf mint, receiver⟩ ∈ reached.refunds) h hmem
  · intro mid next hnext
    rcases perform_placed (hbehind _ hmem).placed hnext with ⟨accounts, refunds, hrun, rfl⟩
    rcases hdocuments.revokeAuthority hrun with ⟨hrefunds, account, -, hview⟩
    constructor
    · change (view accounts).authority mint = none
      rw [hview, Holdings.setAccount_authority, Holdings.setAuthority_self]
    · rw [hrefunds]
      exact List.mem_append_right _ (List.mem_singleton_self _)
  · intro instruction hother mid next hnext hmid
    rcases perform_placed (hbehind _ hother).placed hnext with ⟨accounts, refunds, hrun, rfl⟩
    refine ⟨?_, List.mem_append_left _ hmid.2⟩
    change (view accounts).authority mint = none
    have hkind := hbehind _ hother
    cases instruction with
    | revokeSubscription own plan receiver subscription =>
      obtain rfl : own = user := hkind
      rw [(hdocuments.revoke hrun).2]
      exact hmid.1
    | revokeSubscriptionAuthority receiver own tokenProgram owner =>
      obtain rfl : owner = user := hkind
      rcases hdocuments.revokeAuthority hrun with ⟨-, account, -, hview⟩
      rw [hview, Holdings.setAccount_authority]
      by_cases hsame : mint = own
      · rw [hsame, Holdings.setAuthority_self]
      · rw [Holdings.setAuthority_of_ne hsame]
        exact hmid.1
    | _ => exact absurd hkind id

end

section

variable {d : Deployment} {inv : Invocation} {chain after : Chain} {user : Pubkey}
  {u : Laterite.UserConfig} {config : Laterite.Config} {change : PlanChange} {listed : List Pubkey}
  {event : Option Event} {view : Accounts → Holdings} {authorityOf : Pubkey → Pubkey}

theorem settled_of_execute (hseparate : d.SeparateSubscriptions) (hends : d.EndsAtOnce inv)
    (hsigned : user ∈ inv.signers.keys) (hcanonical : d.Canonical chain.accounts)
    (hconfig : chain.config = some config) (hvalid : u.settings.Valid)
    (hu : chain.userConfigs user = some u) (hstays : u.status ≠ .exited)
    (h : execute d inv chain (change.call user listed) = .ok (event, after)) :
    Settled d inv.now user (change.demands d u) chain.accounts after.accounts := by
  have hpermitted := PlanChange.permitted_of_ok h hconfig hu
  have huser : userOnly inv chain user = .ok u := userOnly_eq_ok.mpr ⟨hsigned, hu, hstays⟩
  rcases change.execute_eq listed hends hcanonical hconfig huser hvalid hpermitted with
    ⟨finish, hfinish, hexecute⟩
  rw [hexecute] at h
  rcases settle_outcome listed hends hseparate hsigned hcanonical fun _ => change.vaultPlan hvalid with
    hrefused | ⟨-, settled, hok, hsettled⟩
  · rw [hrefused] at h
    cases h
  · rw [hok, ok_bind, Except.ok.injEq] at h
    have hafter : after.accounts = settled := by
      rw [← hfinish settled, h]
    rw [hafter]
    exact hsettled

section

variable {now later : ℤ} {key mint : Pubkey} {accounts settled : Accounts} {demands : List Demand}
  (hreads : ReadsHoldings d user view) (hsettled : Settled d now user demands accounts settled)
  (hplans : ∀ plan, .ended plan ∈ demands → d.VaultPlan plan)
include hreads hsettled hplans

/-- Settling changes nothing but subscriptions to plans of the vault. -/
theorem others_of_settled : (view settled).authority = (view accounts).authority ∧
    (view settled).account = (view accounts).account ∧
    (view settled).planMint = (view accounts).planMint := by
  apply hreads.others
  intro key hkey
  apply hsettled.frame
  intro plan hplan
  exact hkey plan (hplans plan hplan)

theorem pulls_of_settled {pulls : PullRule} (hrule : pulls.Documented authorityOf)
    (hkey : ∀ plan, .ended plan ∈ demands → d.subscriptionOf plan user ≠ key)
    (h : pulls (view accounts) later key mint) : pulls (view settled) later key mint := by
  rcases others_of_settled hreads hsettled hplans with ⟨hauthority, haccount, hplanMint⟩
  exact hrule.keeps h (.inl (hreads.held (hsettled.frame key hkey))) (congrFun hauthority mint)
    (.inl (congrFun haccount mint)) hplanMint

end

end

/-- What the client read is what the user holds: each plan's subscription with its payer, each
token's authority and account, all the user's delegations and the mints of their plans. -/
structure Views (d : Deployment) (config : Laterite.Config) (user : Pubkey) (state : UserState)
    (delegations : List Delegation) (planMint : Pubkey → Option Pubkey) (chain : Chain)
    (holdings : Holdings) : Prop where
  mirrors : Mirrors d config user state chain
  plans {plan : PlanState} (hplan : plan ∈ state.plans) :
    holdings.held plan.subscription = plan.subscriptionState.map fun held =>
      ⟨held.initId, .subscription plan.subscription plan.plan held⟩
  mints {plan : PlanState} (hplan : plan ∈ state.plans) {token : TokenState}
    (htoken : tokenState state plan.paymentToken = .ok token) :
    holdings.planMint plan.plan = some token.mint
  tokens {paymentToken : ℕ} {token : TokenState} (htoken : tokenState state paymentToken = .ok token) :
    holdings.authority token.mint = token.authorityState ∧
      holdings.account token.mint = token.accountState
  delegations (delegation : Delegation) : delegation ∈ delegations ↔
    ∃ initId, holdings.held delegation.address = some ⟨initId, delegation⟩
  address {key : Pubkey} {held : Held} (hheld : holdings.held key = some held) :
    held.delegation.address = key
  planMint : planMint = holdings.planMint

/-- The tokens whose subscriptions a control ends for good. -/
def Control.endedTokens (u : Laterite.UserConfig) : Control → List ℕ
  | .exit => (List.range paymentTokenCount).filter (enabled u.paymentTokens)
  | .changePaymentTokens mask => (List.range paymentTokenCount).filter fun token =>
      enabled u.paymentTokens token && !enabled mask token
  | _ => []

structure EndsPlans (state : UserState) (tier : ℕ) (tokens : List ℕ) (plans : List PlanState) :
    Prop where
  only {plan : PlanState} (hplan : plan ∈ plans) :
    ∃ token ∈ tokens, planState state token tier = .ok plan
  all {token : ℕ} (htoken : token ∈ tokens) : ∃ plan ∈ plans, planState state token tier = .ok plan

section

variable {d : Deployment} {unknownInitId : ℤ} {config : Laterite.Config} {payers : List Pubkey}
  {sponsor user : Pubkey} {state : UserState} {delegations : List Delegation}
  {planMint : Pubkey → Option Pubkey} {chain : Chain} {holdings : Holdings} {tier : ℕ}
  {tokens : List ℕ} {plans ended : List PlanState} {instructions : List Instruction}
  {authorityOf : Pubkey → Pubkey} {now : ℤ} {key mint : Pubkey}

theorem planState_mem {paymentToken : ℕ} {plan : PlanState}
    (h : planState state paymentToken tier = .ok plan) : plan ∈ state.plans :=
  List.mem_of_find?_eq_some (found_eq_ok.mp h)

theorem EndsPlans.of_mapM (h : tokens.mapM (fun token => planState state token tier) = .ok plans) :
    EndsPlans state tier tokens plans := by
  induction tokens generalizing plans with
  | nil =>
    obtain rfl := Except.ok.inj h
    constructor
    · intro plan hplan
      cases hplan
    · intro token htoken
      cases htoken
  | cons first tokens ih =>
    rw [List.mapM_cons] at h
    rcases build_bind_eq_ok.mp h with ⟨plan, hplan, h⟩
    rcases build_bind_eq_ok.mp h with ⟨rest, hrest, h⟩
    obtain rfl := Except.ok.inj h
    have hends := ih hrest
    constructor
    · intro other hother
      rcases List.mem_cons.mp hother with rfl | hother
      · exact ⟨first, List.mem_cons_self, hplan⟩
      · rcases hends.only hother with ⟨token, htoken, hread⟩
        exact ⟨token, List.mem_cons_of_mem _ htoken, hread⟩
    · intro token htoken
      rcases List.mem_cons.mp htoken with rfl | htoken
      · exact ⟨plan, List.mem_cons_self, hplan⟩
      · rcases hends.all htoken with ⟨other, hother, hread⟩
        exact ⟨other, List.mem_cons_of_mem _ hother, hread⟩

/-- The plans a change drops are those of the changed tokens the new mask does not have. -/
theorem EndsPlans.of_changeEach {mask : ℕ} {listed : List RemainingAccount}
    (h : changeEach d unknownInitId state payers sponsor user tier mask tokens =
      .ok (instructions, listed, plans)) :
    EndsPlans state tier (tokens.filter fun token => mask &&& (1 <<< token) = 0) plans := by
  induction tokens generalizing instructions listed plans with
  | nil =>
    obtain ⟨-, hrest⟩ := Prod.mk.inj (Except.ok.inj h)
    obtain ⟨-, rfl⟩ := Prod.mk.inj hrest
    constructor
    · intro plan hplan
      cases hplan
    · intro token htoken
      cases htoken
  | cons first tokens ih =>
    rw [changeEach] at h
    rcases build_bind_eq_ok.mp h with ⟨plan, hplan, h⟩
    by_cases hadded : mask &&& (1 <<< first) ≠ 0
    · rw [if_pos hadded] at h
      simp only [build_bind_eq_ok] at h
      rcases h with ⟨token, -, built, -, ⟨rest, accounts, later⟩, hrest, hsame⟩
      obtain ⟨-, hlists⟩ := Prod.mk.inj (Except.ok.inj hsame)
      obtain ⟨-, rfl⟩ := Prod.mk.inj hlists
      rw [List.filter_cons_of_neg (by simpa using hadded)]
      exact ih hrest
    · rw [if_neg hadded] at h
      rcases build_bind_eq_ok.mp h with ⟨⟨rest, accounts, later⟩, hrest, hsame⟩
      obtain ⟨-, hlists⟩ := Prod.mk.inj (Except.ok.inj hsame)
      obtain ⟨-, rfl⟩ := Prod.mk.inj hlists
      have hends := ih hrest
      rw [List.filter_cons_of_pos (by simpa using hadded)]
      constructor
      · intro other hother
        rcases List.mem_cons.mp hother with rfl | hother
        · exact ⟨first, List.mem_cons_self, hplan⟩
        · rcases hends.only hother with ⟨token, htoken, hread⟩
          exact ⟨token, List.mem_cons_of_mem _ htoken, hread⟩
      · intro token htoken
        rcases List.mem_cons.mp htoken with rfl | htoken
        · exact ⟨plan, List.mem_cons_self, hplan⟩
        · rcases hends.all htoken with ⟨other, hother, hread⟩
          exact ⟨other, List.mem_cons_of_mem _ hother, hread⟩

/-- The tokens a change drops are the enabled ones that the new mask does not have. -/
theorem mem_dropped {current mask : UInt8} {token : ℕ} :
    token ∈ (enabledPaymentTokens (current.toNat ^^^ mask.toNat)).filter
      (fun token => mask.toNat &&& (1 <<< token) = 0) ↔
    token ∈ (List.range paymentTokenCount).filter fun token =>
      enabled current token && !enabled mask token := by
  rw [← UInt8.toNat_xor, enabledPaymentTokens_eq, List.filter_filter, List.mem_filter, List.mem_filter]
  apply and_congr_right
  intro htoken
  have hlt : token < 2 := List.mem_range.mp htoken
  rw [enabled_xor hlt]
  have hbit : decide (mask.toNat &&& (1 <<< token) = 0) = !enabled mask token := by
    rw [Bool.eq_iff_iff, decide_eq_true_eq, enabled_eq hlt, Bool.not_eq_true', Bool.not_eq_true]
  rw [hbit]
  cases enabled current token <;> cases enabled mask token <;> decide

theorem EndsPlans.congr {others : List ℕ} (h : EndsPlans state tier tokens plans)
    (hsame : ∀ token, token ∈ tokens ↔ token ∈ others) : EndsPlans state tier others plans := by
  constructor
  · intro plan hplan
    rcases h.only hplan with ⟨token, htoken, hread⟩
    exact ⟨token, (hsame token).mp htoken, hread⟩
  · intro token htoken
    exact h.all ((hsame token).mpr htoken)

/-- Other than through the addresses `ending`, a delegation of the user's draws on the mint after
`now`. -/
def Holdings.InUse (holdings : Holdings) (now : ℤ) (ending : List Pubkey) (mint : Pubkey) : Prop :=
  ∃ key held, key ∉ ending ∧ holdings.held key = some held ∧
    mint ∈ held.delegation.mints holdings.planMint now

/-- Other than through the addresses `ending`, a delegation of the user's on the mint expires at
`now`. -/
def Holdings.Expiring (holdings : Holdings) (now : ℤ) (ending : List Pubkey) (mint : Pubkey) : Prop :=
  ∃ key held, key ∉ ending ∧ holdings.held key = some held ∧ held.delegation.ExpiresAt now mint

theorem Holdings.needed_iff {ending : List Pubkey} : holdings.Needed now ending mint ↔
    holdings.InUse now ending mint ∨ holdings.Expiring now ending mint := by
  unfold Needed InUse Expiring
  simp only [Delegation.inForce_iff, and_or_left, exists_or]

/-- The client's mints in use are those something that is not ending draws on later. -/
theorem mem_mintsInUse (hviews : Views d config user state delegations planMint chain holdings)
    {ending : List Pubkey} :
    mint ∈ mintsInUse delegations planMint now ending ↔ holdings.InUse now ending mint := by
  unfold mintsInUse
  rw [List.mem_flatMap]
  constructor
  · intro h
    rcases h with ⟨delegation, hmem, hmint⟩
    rcases List.mem_filter.mp hmem with ⟨hlisted, hother⟩
    rcases (hviews.delegations delegation).mp hlisted with ⟨initId, hheld⟩
    refine ⟨delegation.address, _, of_decide_eq_true hother, hheld, ?_⟩
    rw [← hviews.planMint]
    exact hmint
  · intro h
    rcases h with ⟨key, held, hother, hheld, hmint⟩
    obtain rfl := hviews.address hheld
    refine ⟨held.delegation, List.mem_filter.mpr ⟨?_, decide_eq_true hother⟩, ?_⟩
    · exact (hviews.delegations _).mpr ⟨held.initId, hheld⟩
    · rw [hviews.planMint]
      exact hmint

def Spent (state : UserState) (key : Pubkey) : Prop :=
  ∃ plan token held, plan ∈ state.plans ∧ tokenState state plan.paymentToken = .ok token ∧
    plan.subscription = key ∧ plan.subscriptionState = some held ∧
    ((held.delegation.expiresAtTs ≠ 0 ∧ held.delegation.expiresAtTs ≤ state.now) ∨
      token.authorityState.map RecordedAuthority.initId ≠ some held.initId)

structure Instruction.Before (state : UserState) (user : Pubkey) (instruction : Instruction) : Prop where
  placed : instruction.Placed user
  revokes : instruction.revokes = none
  closes {key : Pubkey} (hcloses : instruction.closes = some key) : Spent state key

theorem before_approveInstructions {token : TokenState} {account : TokenAccountState} :
    ∀ instruction ∈ approveInstructions sponsor user token account, instruction.Before state user := by
  intro instruction hmem
  unfold approveInstructions at hmem
  split at hmem
  · cases hmem
  · obtain rfl := List.mem_singleton.mp hmem
    exact ⟨rfl, rfl, fun hcloses => nomatch hcloses⟩

theorem before_subscriptionInstructions {plan : PlanState} {token : TokenState}
    (hplan : plan ∈ state.plans) (htoken : tokenState state plan.paymentToken = .ok token)
    (h : subscriptionInstructions d unknownInitId state.now payers plan sponsor token user =
      .ok instructions) : ∀ instruction ∈ instructions, instruction.Before state user := by
  rcases build_bind_eq_ok.mp h with ⟨account, -, h⟩
  have happroves : ∀ instruction ∈ approveInstructions sponsor user token account,
      instruction.Before state user := before_approveInstructions
  have hsubscribes : ∀ instruction ∈ approveInstructions sponsor user token account ++
      [subscribeInstruction d unknownInitId plan sponsor user token],
      instruction.Before state user := by
    intro instruction hmem
    rcases List.mem_append.mp hmem with hmem | hmem
    · exact happroves instruction hmem
    · obtain rfl := List.mem_singleton.mp hmem
      exact ⟨rfl, rfl, fun hcloses => nomatch hcloses⟩
  dsimp only at h
  split at h
  · cases h
  split at h
  · obtain rfl := Except.ok.inj h
    exact hsubscribes
  rename_i held hheld
  split at h
  · rename_i hexpired
    rcases build_bind_eq_ok.mp h with ⟨close, hclose, h⟩
    obtain rfl := Except.ok.inj h
    rcases build_bind_eq_ok.mp hclose with ⟨subscription, -, hclose⟩
    obtain rfl := Except.ok.inj hclose
    intro instruction hmem
    rcases List.mem_cons.mp hmem with rfl | hmem
    · refine ⟨rfl, rfl, fun hcloses => ?_⟩
      obtain rfl := Option.some.inj hcloses
      exact ⟨plan, token, held, hplan, htoken, rfl, hheld, .inl hexpired⟩
    · exact hsubscribes instruction hmem
  split at h
  · rename_i hunbound
    rcases build_bind_eq_ok.mp h with ⟨payer, -, h⟩
    obtain rfl := Except.ok.inj h
    intro instruction hmem
    rcases List.mem_cons.mp hmem with rfl | hmem
    · refine ⟨trivial, rfl, fun hcloses => ?_⟩
      obtain rfl := Option.some.inj hcloses
      exact ⟨plan, token, held, hplan, htoken, rfl, hheld, .inr hunbound⟩
    · exact hsubscribes instruction hmem
  split at h
  · obtain rfl := Except.ok.inj h
    exact happroves
  · obtain rfl := Except.ok.inj h
    intro instruction hmem
    rcases List.mem_append.mp hmem with hmem | hmem
    · exact happroves instruction hmem
    · obtain rfl := List.mem_singleton.mp hmem
      exact ⟨rfl, rfl, fun hcloses => nomatch hcloses⟩

theorem before_changeEach {mask : ℕ} {listed : List RemainingAccount}
    (h : changeEach d unknownInitId state payers sponsor user tier mask tokens =
      .ok (instructions, listed, plans)) :
    ∀ instruction ∈ instructions, instruction.Before state user := by
  induction tokens generalizing instructions listed plans with
  | nil =>
    obtain ⟨rfl, -⟩ := Prod.mk.inj (Except.ok.inj h)
    intro instruction hmem
    cases hmem
  | cons first tokens ih =>
    rw [changeEach] at h
    rcases build_bind_eq_ok.mp h with ⟨plan, hplan, h⟩
    have hsame : plan.paymentToken = first := by
      have hfound := List.find?_some (found_eq_ok.mp hplan)
      rw [decide_eq_true_eq] at hfound
      exact hfound.1
    by_cases hadded : mask &&& (1 <<< first) ≠ 0
    · rw [if_pos hadded] at h
      simp only [build_bind_eq_ok] at h
      rcases h with ⟨token, htoken, built, hbuilt, ⟨rest, accounts, later⟩, hrest, hdone⟩
      obtain ⟨rfl, -⟩ := Prod.mk.inj (Except.ok.inj hdone)
      have hread : tokenState state plan.paymentToken = .ok token := hsame ▸ htoken
      intro instruction hmem
      rcases List.mem_append.mp hmem with hmem | hmem
      · exact before_subscriptionInstructions (planState_mem hplan) hread hbuilt instruction hmem
      · exact ih hrest instruction hmem
    · rw [if_neg hadded] at h
      rcases build_bind_eq_ok.mp h with ⟨⟨rest, accounts, later⟩, hrest, hdone⟩
      obtain ⟨rfl, -⟩ := Prod.mk.inj (Except.ok.inj hdone)
      exact ih hrest

theorem Spent.not_pulled {pulls : PullRule} (hrule : pulls.Documented authorityOf)
    (hviews : Views d config user state delegations planMint chain holdings)
    (h : Spent state key) (hnow : state.now ≤ now) : ¬pulls holdings now key mint := by
  intro hpulls
  rcases hrule.needs hpulls with ⟨granted, through, hheld, hforce, hthrough, hbound⟩
  rcases h with ⟨plan, token, held, hplan, htoken, rfl, hstate, hspent⟩
  have hgranted := hviews.plans hplan
  rw [hstate, hheld] at hgranted
  obtain rfl := Option.some.inj hgranted
  have hmint := hforce.1
  rw [hviews.mints hplan htoken] at hmint
  obtain rfl := Option.some.inj hmint
  rcases hspent with ⟨hexpires, hexpired⟩ | hunbound
  · rcases hforce.2 with hnever | hlater
    · exact hexpires hnever
    · exact absurd (hexpired.trans hnow) (not_le.mpr hlater)
  · rw [← (hviews.tokens htoken).1, hthrough] at hunbound
    exact hunbound (congrArg some hbound)

theorem mem_mapM_of_mem {α β : Type} {f : α → Build β} {as : List α} {bs : List β} {a : α} {b : β}
    (h : as.mapM f = .ok bs) (hmem : a ∈ as) (ha : f a = .ok b) : b ∈ bs := by
  induction as generalizing bs with
  | nil => cases hmem
  | cons first as ih =>
    rw [List.mapM_cons] at h
    rcases build_bind_eq_ok.mp h with ⟨value, hvalue, h⟩
    rcases build_bind_eq_ok.mp h with ⟨rest, hrest, h⟩
    obtain rfl := Except.ok.inj h
    rcases List.mem_cons.mp hmem with rfl | hmem
    · obtain rfl := Except.ok.inj (hvalue.symm.trans ha)
      exact List.mem_cons_self
    · exact List.mem_cons_of_mem _ (ih hrest hmem)

structure Follows (state : UserState) (user : Pubkey) (ended : List PlanState) (needed : List Pubkey)
    (instructions : List Instruction) : Prop where
  behind {instruction : Instruction} (hmem : instruction ∈ instructions) : instruction.Behind user
  closes {instruction : Instruction} {key : Pubkey} (hmem : instruction ∈ instructions)
    (hcloses : instruction.closes = some key) : ∃ plan ∈ ended, plan.subscription = key
  revokes {instruction : Instruction} {mint : Pubkey} (hmem : instruction ∈ instructions)
    (hrevokes : instruction.revokes = some mint) : mint ∉ needed ∧ ∃ plan ∈ ended, ∃ token,
      tokenState state plan.paymentToken = .ok token ∧ token.mint = mint ∧
        token.authorityState.isSome = true ∧ token.accountState.isSome = true
  closed {plan : PlanState} {held : RecordedSubscription} (hplan : plan ∈ ended)
    (hheld : plan.subscriptionState = some held) :
    .revokeSubscription user plan.plan held.payer plan.subscription ∈ instructions
  revoked {plan : PlanState} {token : TokenState} {authority : RecordedAuthority}
    {account : TokenAccountState} (hplan : plan ∈ ended)
    (htoken : tokenState state plan.paymentToken = .ok token)
    (hauthority : token.authorityState = some authority) (haccount : token.accountState = some account)
    (hneeded : token.mint ∉ needed) :
    .revokeSubscriptionAuthority authority.payer token.mint token.tokenProgram user ∈ instructions

theorem endedSubscriptionInstructions_follows
    (h : endedSubscriptionInstructions delegations planMint state user ended = .ok instructions) :
    Follows state user ended (mintsInUse delegations planMint state.now (ended.map PlanState.subscription))
      instructions := by
  rcases build_bind_eq_ok.mp h with ⟨closes, hcloses, h⟩
  rcases build_bind_eq_ok.mp h with ⟨tokens, htokens, h⟩
  rcases build_bind_eq_ok.mp h with ⟨revokes, hrevokes, h⟩
  obtain rfl := Except.ok.inj h
  have hclose (instruction : Instruction) (hmem : instruction ∈ closes) : ∃ plan ∈ ended, ∃ held,
      instruction = .revokeSubscription user plan.plan held plan.subscription := by
    rcases mem_of_mapM_eq_ok hcloses hmem with ⟨plan, hplan, hclose⟩
    rcases build_bind_eq_ok.mp hclose with ⟨held, -, hclose⟩
    exact ⟨plan, (List.mem_filter.mp hplan).1, held.payer, (Except.ok.inj hclose).symm⟩
  have hrevoke (instruction : Instruction) (hmem : instruction ∈ revokes) :
      ∃ (token : TokenState) (payer : Pubkey), token.mint ∉ mintsInUse delegations planMint state.now
        (ended.map PlanState.subscription) ∧
      (∃ plan ∈ ended, tokenState state plan.paymentToken = .ok token) ∧
      (token.authorityState.isSome = true ∧ token.accountState.isSome = true) ∧
      instruction = .revokeSubscriptionAuthority payer token.mint token.tokenProgram user := by
    rcases mem_of_mapM_eq_ok hrevokes hmem with ⟨token, htoken, hrevoke⟩
    rcases build_bind_eq_ok.mp hrevoke with ⟨authority, -, hrevoke⟩
    rcases List.mem_filter.mp htoken with ⟨hlisted, hthere⟩
    have hthere := of_decide_eq_true hthere
    exact ⟨token, authority.payer, hthere.2.2, mem_of_mapM_eq_ok htokens hlisted,
      ⟨hthere.1, hthere.2.1⟩, (Except.ok.inj hrevoke).symm⟩
  constructor
  · intro instruction hmem
    rcases List.mem_append.mp hmem with hmem | hmem
    · rcases hclose instruction hmem with ⟨plan, -, payer, rfl⟩
      rfl
    · rcases hrevoke instruction hmem with ⟨token, payer, -, -, -, rfl⟩
      rfl
  · intro instruction key hmem hkey
    rcases List.mem_append.mp hmem with hmem | hmem
    · rcases hclose instruction hmem with ⟨plan, hplan, payer, rfl⟩
      exact ⟨plan, hplan, Option.some.inj hkey⟩
    · rcases hrevoke instruction hmem with ⟨token, payer, -, -, -, rfl⟩
      cases hkey
  · intro instruction mint hmem hmint
    rcases List.mem_append.mp hmem with hmem | hmem
    · rcases hclose instruction hmem with ⟨plan, -, payer, rfl⟩
      cases hmint
    · rcases hrevoke instruction hmem with ⟨token, payer, hneeded, ⟨plan, hplan, htoken⟩, hthere, rfl⟩
      obtain rfl := Option.some.inj hmint
      exact ⟨hneeded, plan, hplan, token, htoken, rfl, hthere⟩
  · intro plan held hplan hheld
    apply List.mem_append_left
    apply mem_mapM_of_mem hcloses (List.mem_filter.mpr ⟨hplan, by rw [hheld]; rfl⟩)
    rw [closeSubscriptionInstruction, hheld]
    rfl
  · intro plan token authority account hplan htoken hauthority haccount hneeded
    apply List.mem_append_right
    have hthere : token.authorityState.isSome ∧ token.accountState.isSome ∧
        token.mint ∉ mintsInUse delegations planMint state.now (ended.map PlanState.subscription) := by
      rw [hauthority, haccount]
      exact ⟨rfl, rfl, hneeded⟩
    have hlisted : token ∈ tokens := mem_mapM_of_mem htokens hplan htoken
    apply mem_mapM_of_mem hrevokes (List.mem_filter.mpr ⟨hlisted, decide_eq_true hthere⟩)
    rw [revokeAuthorityInstruction, hauthority]
    rfl

end

def endedSubscriptions (d : Deployment) (user : Pubkey) (tier : ℕ) (ended : List ℕ) :
    List Pubkey :=
  ended.map fun token => d.subscriptionOf (d.plan token tier) user

/-- Every subscription to the plans of `ended` is closed, its rent at the payer it recorded; what
else of the user's could be pulled, then or later, still can be; and the authority over a mint of
`ended` is revoked exactly when nothing else is in force on it, its rent at the payer it recorded. -/
structure ClosesEnded (d : Deployment) (authorityOf : Pubkey → Pubkey) (pulls : PullRule)
    (user : Pubkey) (state : UserState) (tier : ℕ) (ended : List ℕ) (now : ℤ)
    (before after : Holdings) (refunds : List Refund) : Prop where
  closed {token : ℕ} (htoken : token ∈ ended) {initId : ℤ} {held : RecordedSubscription}
    (hheld : before.held (d.subscriptionOf (d.plan token tier) user) = some ⟨initId,
      .subscription (d.subscriptionOf (d.plan token tier) user) (d.plan token tier) held⟩) :
    after.held (d.subscriptionOf (d.plan token tier) user) = none ∧
      ⟨d.subscriptionOf (d.plan token tier) user, held.payer⟩ ∈ refunds
  stands {key mint : Pubkey} {later : ℤ} (hkey : key ∉ endedSubscriptions d user tier ended)
    (hlater : now ≤ later) (hpulls : pulls before later key mint) : pulls after later key mint
  revoked {token : ℕ} {read : TokenState} {authority : RecordedAuthority}
    {account : TokenAccountState} (htoken : token ∈ ended) (hread : tokenState state token = .ok read)
    (hauthority : before.authority read.mint = some authority)
    (haccount : before.account read.mint = some account) :
    (after.authority read.mint = none ↔
      ¬before.Needed now (endedSubscriptions d user tier ended) read.mint) ∧
    (after.authority read.mint = none → ⟨authorityOf read.mint, authority.payer⟩ ∈ refunds)

/-- On the mint of an ended token whose authority and account exist, nothing else of the user's
expires at `now`, unless something else outlasts it. -/
def NoneExpiring (d : Deployment) (user : Pubkey) (state : UserState) (tier : ℕ) (ended : List ℕ)
    (now : ℤ) (before : Holdings) : Prop :=
  ∀ token ∈ ended, ∀ read, tokenState state token = .ok read →
    (before.authority read.mint).isSome = true → (before.account read.mint).isSome = true →
      before.Expiring now (endedSubscriptions d user tier ended) read.mint →
        before.InUse now (endedSubscriptions d user tier ended) read.mint

section

variable {d : Deployment} {inv : Invocation} {unknownInitId : ℤ} {config : Laterite.Config}
  {payers : List Pubkey} {sponsor user : Pubkey} {state : UserState} {delegations : List Delegation}
  {planMint : Pubkey → Option Pubkey} {chain : Chain} {run : Settlement} {view : Accounts → Holdings}
  {authorityOf : Pubkey → Pubkey} {pulls : PullRule} {u : Laterite.UserConfig} {tokens : List ℕ}
  {plans : List PlanState} {instructions built closes : List Instruction} {ledger after : Ledger}
  {change : PlanChange} {listed : List Pubkey} {laterite : Instruction}

theorem mem_ended (hmirrors : Mirrors d config user state chain) {tier : ℕ} {key : Pubkey}
    (hplans : EndsPlans state tier tokens plans) :
    key ∈ plans.map PlanState.subscription ↔ key ∈ endedSubscriptions d user tier tokens := by
  rw [endedSubscriptions, List.mem_map, List.mem_map]
  constructor
  · intro h
    rcases h with ⟨plan, hplan, rfl⟩
    rcases hplans.only hplan with ⟨token, htoken, hread⟩
    rcases hmirrors.planState hread with ⟨-, -, -, -, hsubscription⟩
    exact ⟨token, htoken, hsubscription.symm⟩
  · intro h
    rcases h with ⟨token, htoken, rfl⟩
    rcases hplans.all htoken with ⟨plan, hplan, hread⟩
    rcases hmirrors.planState hread with ⟨-, -, -, -, hsubscription⟩
    exact ⟨plan, hplan, hsubscription⟩

theorem Holdings.InUse.congr {holdings : Holdings} {now : ℤ} {ending others : List Pubkey}
    {mint : Pubkey} (hsame : ∀ key, key ∈ ending ↔ key ∈ others) :
    holdings.InUse now ending mint ↔ holdings.InUse now others mint := by
  unfold Holdings.InUse
  apply exists_congr
  intro key
  apply exists_congr
  intro held
  rw [hsame key]

section

variable (hreads : ReadsHoldings d user view) (hdocuments : Documents d authorityOf user view run)
  (hviews : Views d config user state delegations planMint chain (view chain.accounts))
  (hnow : inv.now = state.now) (hseparate : d.SeparateSubscriptions) (hends : d.EndsAtOnce inv)
  (hcanonical : d.Canonical chain.accounts) (hsigned : user ∈ inv.signers.keys)
  (hvalid : u.settings.Valid) (hu : chain.userConfigs user = some u) (hstays : u.status ≠ .exited)
  (hbefore : ∀ instruction ∈ built, instruction.Before state user)
  (hcall : laterite.call = some (change.call user listed))
  (hdemands : ∀ plan, .ended plan ∈ change.demands d u →
    ∃ token ∈ tokens, plan = d.plan token u.tier.toNat)
  (hplans : EndsPlans state u.tier.toNat tokens plans)
  (hfollows : Follows state user plans
    (mintsInUse delegations planMint state.now (plans.map PlanState.subscription)) closes)
  (hlands : transact d inv run (built ++ laterite :: closes) ⟨chain, []⟩ = some after)

include hdocuments hviews hseparate hends hcanonical hsigned hvalid hu hstays hbefore hcall hlands in
/-- The three phases of a transaction that leaves plans: what makes others live, Laterite's
instruction, and what is closed behind it. -/
theorem transact_phases : ∃ mid next, transact d inv run built ⟨chain, []⟩ = some mid ∧
    Settled d inv.now user (change.demands d u) mid.chain.accounts next.chain.accounts ∧
    transact d inv run closes next = some after := by
  rw [transact_append] at hlands
  rcases Option.bind_eq_some_iff.mp hlands with ⟨mid, hmid, hlands⟩
  rcases Option.bind_eq_some_iff.mp hlands with ⟨next, hnext, hlast⟩
  refine ⟨mid, next, hmid, ?_, hlast⟩
  rcases transact_placed hdocuments (fun i hi => (hbefore i hi).placed) hmid hcanonical with
    ⟨hmidCanonical, hmidUsers, hmidConfig⟩
  rw [perform, hcall] at hnext
  dsimp only at hnext
  split at hnext
  · rename_i event settled hexecute
    obtain rfl := Option.some.inj hnext
    exact settled_of_execute hseparate hends hsigned hmidCanonical
      (hmidConfig.trans hviews.mirrors.config) hvalid (by rw [hmidUsers]; exact hu) hstays hexecute
  · cases hnext

include hviews hnow hplans in
/-- The mints the client finds in use are those used by what the change does not end. -/
theorem mem_mintsInUse_ended {mint : Pubkey} :
    mint ∈ mintsInUse delegations planMint state.now (plans.map PlanState.subscription) ↔
      (view chain.accounts).InUse inv.now (endedSubscriptions d user u.tier.toNat tokens) mint := by
  rw [mem_mintsInUse hviews, hnow]
  exact Holdings.InUse.congr fun key => mem_ended hviews.mirrors hplans

include hreads hdocuments hviews hnow hseparate hends hcanonical hsigned hvalid hu hstays hbefore
  hcall hdemands hplans hfollows hlands

theorem leaving_pulls (hrule : pulls.Documented authorityOf) {key mint : Pubkey} {later : ℤ}
    (hkey : key ∉ endedSubscriptions d user u.tier.toNat tokens) (hlater : inv.now ≤ later)
    (hrevokes : ∀ instruction ∈ closes, instruction.revokes ≠ some mint)
    (hpulls : pulls (view chain.accounts) later key mint) :
    pulls (view after.chain.accounts) later key mint := by
  rcases transact_phases hdocuments hviews hseparate hends hcanonical hsigned hvalid hu hstays hbefore
    hcall hlands with ⟨mid, next, hmid, hsettled, hlast⟩
  have hmidPulls := transact_pulls hdocuments (fun i hi => (hbefore i hi).placed) hmid hrule
    (fun i hi hcloses =>
      ((hbefore i hi).closes hcloses).not_pulled hrule hviews (hnow ▸ hlater) hpulls)
    (fun i hi hrevokes => by
      rw [(hbefore i hi).revokes] at hrevokes
      cases hrevokes) hpulls
  have hnextPulls := pulls_of_settled hreads hsettled (fun plan => change.vaultPlan hvalid) hrule
    (fun plan hplan hsame => by
      rcases hdemands plan hplan with ⟨token, htoken, rfl⟩
      exact hkey (List.mem_map.mpr ⟨token, htoken, hsame⟩)) hmidPulls
  apply transact_pulls hdocuments (fun i hi => (hfollows.behind hi).placed) hlast hrule _ hrevokes
    hnextPulls
  intro i hi hcloses
  rcases hfollows.closes hi hcloses with ⟨plan, hplan, hsame⟩
  exact hkey ((mem_ended hviews.mirrors hplans).mp (List.mem_map.mpr ⟨plan, hplan, hsame⟩))

omit hnow hreads hdemands in
theorem leaving_closes {token : ℕ} (htoken : token ∈ tokens) {initId : ℤ}
    {held : RecordedSubscription}
    (hheld : (view chain.accounts).held (d.subscriptionOf (d.plan token u.tier.toNat) user) =
      some ⟨initId, .subscription (d.subscriptionOf (d.plan token u.tier.toNat) user)
        (d.plan token u.tier.toNat) held⟩) :
    (view after.chain.accounts).held (d.subscriptionOf (d.plan token u.tier.toNat) user) = none ∧
      ⟨d.subscriptionOf (d.plan token u.tier.toNat) user, held.payer⟩ ∈ after.refunds := by
  rcases transact_phases hdocuments hviews hseparate hends hcanonical hsigned hvalid hu hstays hbefore
    hcall hlands with ⟨mid, next, -, -, hlast⟩
  rcases hplans.all htoken with ⟨plan, hplan, hread⟩
  rcases hviews.mirrors.planState hread with ⟨-, -, -, -, hsubscription⟩
  have hview := hviews.plans (planState_mem hread)
  rw [hsubscription, hheld] at hview
  rcases Option.map_eq_some_iff.mp hview.symm with ⟨recorded, hstate, hsame⟩
  have hpayer : recorded = held := by
    injection hsame with _ hsame
    injection hsame
  have hclosed := transact_closes hdocuments (fun i hi => hfollows.behind hi) hlast
    (hfollows.closed hplan hstate)
  rw [hsubscription, hpayer] at hclosed
  exact hclosed

omit hdemands in
/-- The authority over an ended token's mint is revoked exactly when nothing else draws on it
later, its rent at the payer it recorded. -/
theorem leaving_revokes {token : ℕ} {read : TokenState} {authority : RecordedAuthority}
    {account : TokenAccountState} (htoken : token ∈ tokens) (hread : tokenState state token = .ok read)
    (hauthority : (view chain.accounts).authority read.mint = some authority)
    (haccount : (view chain.accounts).account read.mint = some account) :
    ((view after.chain.accounts).authority read.mint = none ↔ ¬(view chain.accounts).InUse inv.now
      (endedSubscriptions d user u.tier.toNat tokens) read.mint) ∧
    ((view after.chain.accounts).authority read.mint = none →
      ⟨authorityOf read.mint, authority.payer⟩ ∈ after.refunds) := by
  rcases transact_phases hdocuments hviews hseparate hends hcanonical hsigned hvalid hu hstays hbefore
    hcall hlands with ⟨mid, next, hmid, hsettled, hlast⟩
  rcases hplans.all htoken with ⟨plan, hplan, hplanRead⟩
  rcases hviews.mirrors.planState hplanRead with ⟨-, -, rfl, -, -⟩
  have hstate := hviews.tokens hread
  rw [hauthority, haccount] at hstate
  have hmem {mint : Pubkey} := @mem_mintsInUse_ended _ _ _ _ _ _ _ _ _ _ _ _ hviews hnow hplans mint
  have hrevoked (hnot : ¬(view chain.accounts).InUse inv.now
      (endedSubscriptions d user u.tier.toNat tokens) read.mint) :=
    transact_revokes hdocuments (fun i hi => hfollows.behind hi) hlast
      (hfollows.revoked hplan hread hstate.1.symm hstate.2.symm fun h => hnot (hmem.mp h))
  have hkept (huse : (view chain.accounts).InUse inv.now
      (endedSubscriptions d user u.tier.toNat tokens) read.mint) :
      (view after.chain.accounts).authority read.mint = some authority := by
    have hmidHeld := transact_authority hdocuments (fun i hi => (hbefore i hi).placed) hmid
      (fun i hi hrevokes => by
        rw [(hbefore i hi).revokes] at hrevokes
        cases hrevokes) hauthority
    have hnextHeld : (view next.chain.accounts).authority read.mint = some authority := by
      rw [(others_of_settled hreads hsettled fun plan => change.vaultPlan hvalid).1]
      exact hmidHeld
    exact transact_authority hdocuments (fun i hi => (hfollows.behind hi).placed) hlast
      (fun i hi hrevokes => (hfollows.revokes hi hrevokes).1 (hmem.mpr huse)) hnextHeld
  have hiff : (view after.chain.accounts).authority read.mint = none ↔
      ¬(view chain.accounts).InUse inv.now (endedSubscriptions d user u.tier.toNat tokens)
        read.mint := by
    constructor
    · intro hnone huse
      cases hnone.symm.trans (hkept huse)
    · intro hnot
      exact (hrevoked hnot).1
  exact ⟨hiff, fun hnone => (hrevoked (hiff.mp hnone)).2⟩

/-- A transaction that leaves plans closes what it ended and nothing else exactly when nothing else
expires at its very second. -/
theorem closesEnded_iff (hrule : pulls.Documented authorityOf) :
    ClosesEnded d authorityOf pulls user state u.tier.toNat tokens inv.now (view chain.accounts)
      (view after.chain.accounts) after.refunds ↔
    NoneExpiring d user state u.tier.toNat tokens inv.now (view chain.accounts) := by
  constructor
  · intro h token htoken read hread hauthority haccount hexpiring
    rcases Option.isSome_iff_exists.mp hauthority with ⟨authority, hauthority⟩
    rcases Option.isSome_iff_exists.mp haccount with ⟨account, haccount⟩
    have hrevoked := leaving_revokes hreads hdocuments hviews hnow hseparate hends hcanonical hsigned
      hvalid hu hstays hbefore hcall hplans hfollows hlands htoken hread hauthority haccount
    by_contra hunused
    exact (h.revoked htoken hread hauthority haccount).1.mp (hrevoked.1.mpr hunused)
      (Holdings.needed_iff.mpr (.inr hexpiring))
  · intro hnone
    constructor
    · intro token htoken initId held hheld
      exact leaving_closes hdocuments hviews hseparate hends hcanonical hsigned hvalid hu hstays
        hbefore hcall hplans hfollows hlands htoken hheld
    · intro key mint later hkey hlater hpulls
      apply leaving_pulls hreads hdocuments hviews hnow hseparate hends hcanonical hsigned hvalid hu
        hstays hbefore hcall hdemands hplans hfollows hlands hrule hkey hlater _ hpulls
      -- a revoked authority is that of an ended token, and whatever needs it is in use later
      intro instruction hmem hrevokes
      rcases hfollows.revokes hmem hrevokes with
        ⟨hunused, plan, hplan, read, hread, rfl, hauthority, haccount⟩
      rcases hplans.only hplan with ⟨token, htoken, hplanRead⟩
      rcases hviews.mirrors.planState hplanRead with ⟨-, -, hsame, -, -⟩
      rw [hsame] at hread
      rcases hviews.tokens hread with ⟨hheldAuthority, hheldAccount⟩
      rcases hrule.needs hpulls with ⟨granted, through, hheld, hforce, -, -⟩
      rw [mem_mintsInUse_ended hviews hnow hplans] at hunused
      rcases Holdings.needed_iff.mp ⟨key, granted, hkey, hheld, hforce.earlier hlater⟩ with huse | hexpiring
      · exact hunused huse
      · apply hunused
        exact hnone token htoken read hread (hheldAuthority ▸ hauthority) (hheldAccount ▸ haccount)
          hexpiring
    · intro token read authority account htoken hread hauthority haccount
      rcases leaving_revokes hreads hdocuments hviews hnow hseparate hends hcanonical hsigned hvalid
        hu hstays hbefore hcall hplans hfollows hlands htoken hread hauthority haccount with
        ⟨hiff, hrefund⟩
      refine ⟨hiff.trans (not_congr ?_), hrefund⟩
      rw [Holdings.needed_iff]
      constructor
      · exact .inl
      · intro hneeds
        rcases hneeds with huse | hexpiring
        · exact huse
        · exact hnone token htoken read hread (hauthority ▸ rfl) (haccount ▸ rfl) hexpiring

end

section

variable {initial : Accounts} {history : List (Transition Chain Happening)}

end

end

namespace LeavingRehearsal

open Rehearsal (address deployment user sponsor)
open ControlRehearsal (ledger config state held invocation)

/-- The user's subscription to the first plan. -/
def subscription : Pubkey := address 51

/-- What the user granted another party in the same mint. -/
def granted (expiryTs : ℤ) : Delegation := .fixed (address 90) (address 22) expiryTs 5

def authorityOf (mint : Pubkey) : Pubkey := if mint = address 22 then address 70 else address 73

/-- The authority's account is marked once it is revoked. -/
def isRevoked (accounts : Accounts) : Prop := (accounts (address 70)).data = [1]

instance (accounts : Accounts) : Decidable (isRevoked accounts) := inferInstanceAs (Decidable (_ = _))

def view (expiryTs : ℤ) (accounts : Accounts) : Holdings where
  held key :=
    if key = subscription then (deployment.readSubscription (accounts.info key)).map fun read =>
      ⟨9, .subscription key (address 1) ⟨9, sponsor, read⟩⟩
    else if key = address 90 then some ⟨9, granted expiryTs⟩
    else none
  authority mint := if mint = address 22 then
      if isRevoked accounts then none else some ⟨9, sponsor⟩
    else none
  account mint := if mint = address 22 then some
      (if isRevoked accounts then ⟨100000000, none, 0, false⟩
      else ⟨100000000, some (address 70), 18446744073709551615, false⟩)
    else none
  planMint plan :=
    if plan = deployment.plan 0 0 ∨ plan = deployment.plan 0 1 then some (address 22)
    else some (address 23)

def run : Settlement
  | .revokeSubscription _ _ receiver closed, accounts =>
    if closed = subscription then
      some (Function.update accounts subscription ⟨Pubkey.default, []⟩, [⟨closed, receiver⟩])
    else none
  | .revokeSubscriptionAuthority receiver mint _ _, accounts =>
    if mint = address 22 then
      some (Function.update accounts (address 70) ⟨deployment.subscriptionsId, [1]⟩,
        [⟨authorityOf mint, receiver⟩])
    else none
  | _, _ => none

variable {expiryTs : ℤ}

theorem readsHoldings : ReadsHoldings deployment user (view expiryTs) where
  held := by
    intro accounts after key hsame
    have hinfo : after.info key = accounts.info key := by
      unfold Accounts.info
      rw [hsame]
    change (if key = subscription then (deployment.readSubscription (after.info key)).map _ else _) =
      _
    rw [hinfo]
    rfl
  others := by
    intro accounts after hsame
    have hother : ∀ paymentToken : Fin 2, ∀ tier : Fin 2,
        deployment.subscriptionOf (deployment.plan paymentToken tier) user ≠ address 70 := by
      decide +kernel
    have hkept : after (address 70) = accounts (address 70) := by
      apply hsame
      intro plan hplan
      rcases hplan with ⟨paymentToken, htoken, tier, htier, rfl⟩
      exact hother ⟨paymentToken, htoken⟩ ⟨tier, htier⟩
    have hmark : isRevoked after = isRevoked accounts := by
      unfold isRevoked
      rw [hkept]
    refine ⟨?_, ?_, rfl⟩
    · funext mint
      simp only [view, hmark]
    · funext mint
      simp only [view, hmark]

theorem run_documented : Documents deployment authorityOf user (view expiryTs) run where
  canonical _ _ := Rehearsal.canonical _
  approve hrun := nomatch hrun
  subscribe hrun := nomatch hrun
  resume hrun := nomatch hrun
  revokeAbandoned hrun := nomatch hrun
  revoke := by
    intro plan receiver closed accounts after refunds hrun
    change (if closed = subscription then _ else none) = _ at hrun
    split at hrun
    · rename_i hclosed
      obtain ⟨rfl, rfl⟩ := Prod.mk.inj (Option.some.inj hrun)
      obtain rfl := hclosed
      have hkept : isRevoked (Function.update accounts subscription ⟨Pubkey.default, []⟩) =
          isRevoked accounts := by
        unfold isRevoked
        rw [Function.update_of_ne (by decide +kernel : address 70 ≠ subscription)]
      refine ⟨rfl, ?_⟩
      simp only [view, Holdings.setHeld, hkept, Holdings.mk.injEq, and_self, and_true]
      funext key
      by_cases hkey : key = subscription
      · obtain rfl := hkey
        rw [if_pos rfl, Function.update_self, Accounts.info, Function.update_self]
        rfl
      · rw [if_neg hkey, Function.update_of_ne hkey, if_neg hkey]
    · cases hrun
  revokeAuthority := by
    intro receiver mint tokenProgram accounts after refunds hrun
    change (if mint = address 22 then _ else none) = _ at hrun
    split at hrun
    · rename_i hmint
      obtain ⟨rfl, rfl⟩ := Prod.mk.inj (Option.some.inj hrun)
      obtain rfl := hmint
      have hmarked : isRevoked (Function.update accounts (address 70) ⟨deployment.subscriptionsId, [1]⟩) := by
        unfold isRevoked
        rw [Function.update_self]
      have hinfo (key : Pubkey) (hkey : key = subscription) :
          Accounts.info (Function.update accounts (address 70) ⟨deployment.subscriptionsId, [1]⟩) key =
            accounts.info key := by
        rw [hkey, Accounts.info, Function.update_of_ne (by decide +kernel : subscription ≠ address 70)]
        rfl
      have haccount : (view expiryTs accounts).account (address 22) = some (if isRevoked accounts then
          ⟨100000000, none, 0, false⟩
          else ⟨100000000, some (address 70), 18446744073709551615, false⟩) := by
        simp only [view, if_true]
      refine ⟨rfl, _, haccount, ?_⟩
      simp only [view, Holdings.setAuthority, Holdings.setAccount, hmarked, if_true, Holdings.mk.injEq]
      refine ⟨?_, ?_, ?_, trivial⟩
      · funext key
        by_cases hkey : key = subscription
        · rw [if_pos hkey, if_pos hkey, hinfo key hkey]
        · rw [if_neg hkey, if_neg hkey]
      · funext mint
        by_cases hmint : mint = address 22
        · rw [if_pos hmint, hmint, Function.update_self]
        · rw [if_neg hmint, Function.update_of_ne hmint, if_neg hmint]
      · funext mint
        by_cases hmint : mint = address 22
        · rw [if_pos hmint, hmint, Function.update_self]
          split <;> rfl
        · rw [if_neg hmint, Function.update_of_ne hmint, if_neg hmint]
    · cases hrun

theorem held_subscription : (view expiryTs ledger.accounts).held subscription =
    some ⟨9, .subscription subscription (address 1) held⟩ := by
  have hread : (deployment.readSubscription (ledger.accounts.info subscription)) =
      some held.delegation := by decide +kernel
  simp only [view, if_true, hread]
  rfl

theorem held_granted : (view expiryTs ledger.accounts).held (address 90) =
    some ⟨9, granted expiryTs⟩ := by
  have hne : address 90 ≠ subscription := by decide +kernel
  simp only [view, if_neg hne, if_true]

/-- The user holds nothing else. -/
theorem eq_of_held {key : Pubkey} {holding : Held}
    (h : (view expiryTs ledger.accounts).held key = some holding) :
    key = subscription ∧ holding = ⟨9, .subscription subscription (address 1) held⟩ ∨
      key = address 90 ∧ holding = ⟨9, granted expiryTs⟩ := by
  by_cases hkey : key = subscription
  · rw [hkey, held_subscription] at h
    exact .inl ⟨hkey, (Option.some.inj h).symm⟩
  · by_cases hother : key = address 90
    · rw [hother, held_granted] at h
      exact .inr ⟨hother, (Option.some.inj h).symm⟩
    · simp only [view, if_neg hkey, if_neg hother] at h
      cases h

theorem state_views : Views deployment config user state
    [.subscription subscription (address 1) held, granted expiryTs]
    (view expiryTs ledger.accounts).planMint ledger (view expiryTs ledger.accounts) where
  mirrors := ControlRehearsal.mirrors
  plans := by
    intro plan hplan
    rcases ControlRehearsal.mirrors.plans hplan with ⟨-, -, -, -, hread⟩
    have hplaces : ∀ plan ∈ state.plans, (plan.subscription = subscription ∧ plan.plan = address 1) ∨
        (plan.subscription ≠ subscription ∧ plan.subscription ≠ address 90 ∧
          plan.subscriptionState.isNone = true) := by decide +kernel
    have hpaid : ∀ plan ∈ state.plans, ∀ held ∈ plan.subscriptionState, held.initId = 9 ∧
        held.payer = sponsor := by decide +kernel
    rcases hplaces plan hplan with ⟨hsubscription, haddress⟩ | ⟨hother, hgranted, hnone⟩
    · change (if plan.subscription = subscription then (deployment.readSubscription
        (ledger.accounts.info plan.subscription)).map _ else _) = _
      rw [if_pos hsubscription, ← hread, Option.map_map, haddress]
      cases hheld : plan.subscriptionState with
      | none => rfl
      | some held =>
        rcases hpaid plan hplan held hheld with ⟨hinitId, hpayer⟩
        cases held
        obtain rfl := hinitId
        obtain rfl := hpayer
        rfl
    · change (if plan.subscription = subscription then _ else if plan.subscription = address 90 then _
        else none) = _
      rw [if_neg hother, if_neg hgranted, Option.isNone_iff_eq_none.mp hnone]
      rfl
  mints := by
    intro plan hplan token htoken
    have hall : ∀ plan ∈ state.plans, ∀ token ∈ state.tokens[plan.paymentToken]?,
        (view 0 ledger.accounts).planMint plan.plan = some token.mint := by decide +kernel
    exact hall plan hplan token (found_eq_ok.mp htoken)
  tokens := by
    intro paymentToken token htoken
    have hmem : token ∈ state.tokens := List.mem_of_getElem? (found_eq_ok.mp htoken)
    rcases List.mem_cons.mp hmem with rfl | hmem
    · have hkept : ¬isRevoked ledger.accounts := by decide +kernel
      constructor
      · simp only [view, hkept, if_false, if_true]
      · simp only [view, hkept, if_false, if_true]
    · obtain rfl := List.mem_singleton.mp hmem
      exact ⟨rfl, rfl⟩
  delegations := by
    intro delegation
    constructor
    · intro hmem
      rcases List.mem_cons.mp hmem with rfl | hmem
      · exact ⟨9, held_subscription⟩
      · obtain rfl := List.mem_singleton.mp hmem
        exact ⟨9, held_granted⟩
    · intro h
      rcases h with ⟨initId, hheld⟩
      rcases eq_of_held hheld with ⟨-, hsame⟩ | ⟨-, hsame⟩
      · injection hsame with _ hsame
        exact hsame ▸ List.mem_cons_self
      · injection hsame with _ hsame
        exact hsame ▸ List.mem_cons_of_mem _ List.mem_cons_self
  address := by
    intro key holding hheld
    rcases eq_of_held hheld with ⟨rfl, rfl⟩ | ⟨rfl, rfl⟩
    · rfl
    · rfl
  planMint := rfl

/-- A pull goes through a delegation in force and the user's authority, which their account, not
frozen, is approved for. -/
structure Draws (holdings : Holdings) (now : ℤ) (key mint : Pubkey) (granted : Held)
    (through : RecordedAuthority) (source : TokenAccountState) : Prop where
  held : holdings.held key = some granted
  force : granted.delegation.InForce holdings.planMint now mint
  authority : holdings.authority mint = some through
  bound : through.initId = granted.initId
  account : holdings.account mint = some source
  thawed : source.frozen = false
  delegate : source.delegate = some (authorityOf mint)
  approved : 0 < source.delegatedAmount

def pullThrough : PullRule := fun holdings now key mint =>
  ∃ granted through source, Draws holdings now key mint granted through source

theorem pullThrough_documented : pullThrough.Documented authorityOf where
  needs := by
    intro holdings now key mint h
    rcases h with ⟨granted, through, source, h⟩
    exact ⟨granted, through, h.held, h.force, h.authority, h.bound⟩
  keeps := by
    intro before after now key mint h hheld hauthority haccount hplanMint
    rcases h with ⟨granted, through, source, h⟩
    have hholds : ∃ kept, after.held key = some kept ∧ kept.initId = granted.initId ∧
        kept.delegation.InForce after.planMint now mint := by
      rw [hplanMint]
      rcases hheld with hsame | ⟨initId, address, plan, held, hbefore, hafter⟩
      · exact ⟨granted, hsame.trans h.held, rfl, h.force⟩
      · obtain rfl := Option.some.inj (h.held.symm.trans hbefore)
        exact ⟨_, hafter, rfl, h.force.expiring⟩
    have hsource : ∃ kept, after.account mint = some kept ∧ kept.frozen = false ∧
        kept.delegate = some (authorityOf mint) ∧ 0 < kept.delegatedAmount := by
      rcases haccount with hsame | ⟨account, hbefore, hafter⟩
      · exact ⟨source, hsame.trans h.account, h.thawed, h.delegate, h.approved⟩
      · obtain rfl := Option.some.inj (h.account.symm.trans hbefore)
        exact ⟨_, hafter, h.thawed, rfl, (by decide : 0 < u64Max)⟩
    rcases hholds with ⟨kept, hkept, hbound, hforce⟩
    rcases hsource with ⟨account, haccount, hthawed, hdelegate, happroved⟩
    exact ⟨kept, through, account, hkept, hforce, hauthority.trans h.authority,
      h.bound.trans hbound.symm, haccount, hthawed, hdelegate, happroved⟩

theorem pullThrough_granted {now : ℤ} (h : expiryTs = 0 ∨ now ≤ expiryTs) :
    pullThrough (view expiryTs ledger.accounts) now (address 90) (address 22) := by
  have hkept : ¬isRevoked ledger.accounts := by decide +kernel
  refine ⟨⟨9, granted expiryTs⟩, ⟨9, sponsor⟩,
    ⟨100000000, some (address 70), 18446744073709551615, false⟩, held_granted,
    ⟨rfl, h, by decide⟩, ?_, rfl, ?_, rfl, ?_, by decide⟩
  · simp only [view, hkept, if_false, if_true]
  · simp only [view, hkept, if_false, if_true]
  · simp only [authorityOf, if_true]

def built (expiryTs : ℤ) : Build (List Instruction) :=
  Control.exit.instructions deployment (-1) config [] sponsor user state
    [.subscription subscription (address 1) held, granted expiryTs] (view expiryTs ledger.accounts).planMint

def left (expiryTs : ℤ) : Option Ledger :=
  (built expiryTs).toOption.bind fun instructions =>
    transact deployment invocation run instructions ⟨ledger, []⟩

theorem exit_lands {after : Ledger} (h : left expiryTs = some after) : ∃ instructions,
    built expiryTs = .ok instructions ∧
      transact deployment invocation run instructions ⟨ledger, []⟩ = some after := by
  rcases Option.bind_eq_some_iff.mp h with ⟨instructions, hbuilt, hlands⟩
  refine ⟨instructions, ?_, hlands⟩
  cases hresult : built expiryTs with
  | ok value =>
    rw [hresult] at hbuilt
    exact congrArg Except.ok (Option.some.inj hbuilt)
  | error error =>
    rw [hresult] at hbuilt
    cases hbuilt

end LeavingRehearsal

end Laterite.Client
