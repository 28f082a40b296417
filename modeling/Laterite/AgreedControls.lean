import Laterite.AcceptedControls

/-!
# The controls that agree

What a builder returns is accepted once the instructions before it have left a live subscription to
each plan they were built for. One control does not check all the program checks: a mask of payment
tokens may have bits past the table.
-/

namespace Laterite.Client

open CheckedComputation TimedRuns Deployment

section

variable {d : Deployment} {unknownInitId : ℤ} {config : Laterite.Config} {params : EnrollParams}
  {payers : List Pubkey} {sponsor user : Pubkey} {state : UserState} {delegations : List Delegation}
  {planMint : Pubkey → Option Pubkey} {inv : Invocation} {chain : Chain} {run : Execution}
  {u : Laterite.UserConfig} {instructions : List Instruction}

variable (hmirrors : Mirrors d config user state chain)
  (hprepares : Prepares d unknownInitId config payers sponsor user state run chain.accounts)
include hmirrors hprepares

theorem join_prepares {joined : SponsoredInstructions} {listed : List RemainingAccount}
    (h : joinInstructions d unknownInitId config params payers sponsor user state =
      .ok (joined, listed)) :
    Foreign joined.instructions ∧
    (listed.map RemainingAccount.address =
      ((List.range paymentTokenCount).filter (enabled params.paymentTokens)).map fun token =>
        d.subscriptionOf (d.plan token params.tier.toNat) user) ∧
    ∃ accounts, run.all joined.instructions chain.accounts = some accounts ∧
      ∀ token ∈ (List.range paymentTokenCount).filter (enabled params.paymentTokens),
        d.isLive (accounts.info (d.subscriptionOf (d.plan token params.tier.toNat) user))
          (d.plan token params.tier.toNat) user = true := by
  simp only [joinInstructions, build_bind_eq_ok] at h
  rcases h with ⟨opening, hopening, ⟨built, subscriptions⟩, hbuilt, hsame⟩
  obtain ⟨rfl, rfl⟩ := Prod.mk.inj (Except.ok.inj hsame)
  rcases hprepares opening built _ _ subscriptions (.inr ⟨_, hopening⟩) (nodup_enabledPaymentTokens _)
    hbuilt with ⟨after, hafter, -, hlive⟩
  rw [enabledPaymentTokens_eq] at hlive hbuilt
  refine ⟨(foreign_assetAccountInstructions hopening).append (foreign_subscribeEach hbuilt), ?_,
    after, hafter, hlive⟩
  rw [← subscribeEach_subscriptions hmirrors hbuilt, List.map_map]
  exact List.map_id _

variable (hseparate : d.SeparateSubscriptions) (hplans : d.SeparatePlans) (hends : d.EndsAtOnce inv)
  (hcanonical : d.Canonical chain.accounts) (hsigned : user ∈ inv.signers.keys)
  (hpaid : sponsor ∈ inv.signers.keys) (hvalid : chain.UsersValid)
include hseparate hplans hends hsigned hvalid

omit hprepares in
theorem change_accepted {change : PlanChange} {accounts : Accounts} {listed : List Pubkey}
    (hafter : d.Canonical accounts) (hu : state.userConfig = some u) (hstays : u.status ≠ .exited)
    (hpermitted : change.Permitted config u) (hlisted : listed = change.accounts d user u)
    (hlive : ∀ plan, .live plan ∈ change.demands d u →
      d.isLive (accounts.info (d.subscriptionOf plan user)) plan user = true) :
    ∃ event after, execute d inv (chain.setAccounts accounts) (change.call user listed) =
      .ok (event, after) := by
  have hheld : chain.userConfigs user = some u := hmirrors.userConfig.symm.trans hu
  rw [hlisted]
  exact PlanChange.succeeds hseparate hplans hends hafter hmirrors.config
    (userOnly_eq_ok.mpr ⟨hsigned, hheld, hstays⟩) (hvalid user u hheld hstays) hpermitted hlive

theorem changeTier_accepted {tier : UInt8}
    (h : getChangeTierInstructions d unknownInitId config payers sponsor user state tier =
      .ok instructions) :
    ∃ before remaining closes accounts event after,
      instructions = before ++
        .changeTier tier user state.userConfigAddress remaining :: closes ∧
      Foreign before ∧ Foreign closes ∧ run.all before chain.accounts = some accounts ∧
      execute d inv (chain.setAccounts accounts)
        (.changeTier user tier (remaining.map RemainingAccount.address)) = .ok (event, after) := by
  simp only [getChangeTierInstructions, build_bind_eq_ok, assertNotExited_eq_ok, found_tier_eq_ok,
    checks_eq_ok, exists_const] at h
  rcases h with ⟨u, ⟨hu, hstays⟩, _, ⟨cap, hknown, rfl⟩, hother, hbeta, hengine,
    ⟨built, listed, closes⟩, hbuilt, hsame⟩
  obtain rfl := Except.ok.inj hsame
  rcases switchEach_eq hmirrors hbuilt with ⟨⟨subscriptions, hsubscribed⟩, hlisted, hcloses⟩
  rcases hprepares [] built _ _ subscriptions (.inl rfl) (nodup_enabledPaymentTokens _) hsubscribed with
    ⟨accounts, haccounts, hafter, hlive⟩
  rw [enabledPaymentTokens_eq] at hlive hlisted
  have hpermitted : (PlanChange.changeTier tier).Permitted config u :=
    ⟨cap, hknown, hother, UInt64.le_iff_toNat_le.mpr (Int.ofNat_le.mp (not_lt.mp hbeta)),
      UInt64.le_iff_toNat_le.mpr (Int.ofNat_le.mp (not_lt.mp hengine))⟩
  have hneeds (plan : Pubkey) (hplan : .live plan ∈ (PlanChange.changeTier tier).demands d u) :
      d.isLive (accounts.info (d.subscriptionOf plan user)) plan user = true := by
    rcases List.mem_flatMap.mp hplan with ⟨token, htoken, hadded⟩
    simp only [List.mem_cons, Demand.live.injEq, reduceCtorEq, List.not_mem_nil, or_false,
      false_or] at hadded
    rw [hadded]
    exact hlive token htoken
  rcases change_accepted hmirrors hseparate hplans hends hsigned hvalid hafter hu hstays
    hpermitted hlisted hneeds with ⟨event, after, haccepted⟩
  exact ⟨built, listed, closes, accounts, event, after, rfl, foreign_subscribeEach hsubscribed, hcloses,
    haccounts, haccepted⟩

theorem changePaymentTokens_accepted {mask : UInt8} (hmask : mask.toNat < 4)
    (h : getChangePaymentTokensInstructions d unknownInitId delegations planMint payers sponsor user
      state mask = .ok instructions) :
    ∃ before remaining closes accounts event after,
      instructions = before ++
        .changePaymentTokens mask user state.userConfigAddress remaining :: closes ∧
      Foreign before ∧ Foreign closes ∧ run.all before chain.accounts = some accounts ∧
      execute d inv (chain.setAccounts accounts)
        (.changePaymentTokens user mask (remaining.map RemainingAccount.address)) =
          .ok (event, after) := by
  simp only [getChangePaymentTokensInstructions, build_bind_eq_ok, assertNotExited_eq_ok, checks_eq_ok,
    exists_const] at h
  rcases h with ⟨hsome, u, ⟨hu, hstays⟩, ⟨built, listed, dropped⟩, hbuilt, closes, hcloses, hsame⟩
  obtain rfl := Except.ok.inj hsame
  rcases changeEach_eq hmirrors hbuilt with ⟨⟨subscriptions, hsubscribed⟩, hlisted⟩
  rcases hprepares [] built _ _ subscriptions (.inl rfl) ((nodup_enabledPaymentTokens _).filter _)
    hsubscribed with ⟨accounts, haccounts, hafter, hlive⟩
  rw [changed_demands] at hlisted
  have hpermitted : (PlanChange.changePaymentTokens mask).Permitted config u :=
    ⟨fun hzero => hsome (congrArg UInt8.toNat hzero), hmask⟩
  have hneeds (plan : Pubkey)
      (hplan : .live plan ∈ (PlanChange.changePaymentTokens mask).demands d u) :
      d.isLive (accounts.info (d.subscriptionOf plan user)) plan user = true := by
    rw [← changed_demands] at hplan
    rcases List.mem_flatMap.mp hplan with ⟨token, htoken, hadded⟩
    split at hadded
    · rename_i hbit
      obtain rfl := Demand.live.inj (List.mem_singleton.mp hadded)
      exact hlive token (List.mem_filter.mpr ⟨htoken, by simpa using hbit⟩)
    · cases List.mem_singleton.mp hadded
  rcases change_accepted hmirrors hseparate hplans hends hsigned hvalid hafter hu hstays
    hpermitted hlisted hneeds with ⟨event, after, haccepted⟩
  exact ⟨built, listed, closes, accounts, event, after, rfl, foreign_subscribeEach hsubscribed,
    foreign_endedSubscriptionInstructions hcloses, haccounts, haccepted⟩

include hcanonical

omit hprepares in
theorem exit_accepted
    (h : getExitInstructions delegations planMint user state = .ok instructions) :
    ∃ remaining closes event after,
      instructions = .exit user state.userConfigAddress remaining :: closes ∧ Foreign closes ∧
      execute d inv (chain.setAccounts chain.accounts)
        (.exit user (remaining.map RemainingAccount.address)) = .ok (event, after) := by
  simp only [getExitInstructions, build_bind_eq_ok, assertNotExited_eq_ok] at h
  rcases h with ⟨u, ⟨hu, hstays⟩, plans, hlists, closes, hcloses, hsame⟩
  obtain rfl := Except.ok.inj hsame
  have hlisted (tokens : List ℕ) (plans : List PlanState)
      (hread : tokens.mapM (fun paymentToken => planState state paymentToken u.tier.toNat) = .ok plans) :
      (plans.flatMap fun plan => [readonly plan.plan, writable plan.subscription]).map
        RemainingAccount.address =
        (tokens.map fun token => Demand.ended (d.plan token u.tier.toNat)).flatMap (d.answer user) := by
    induction tokens generalizing plans with
    | nil =>
      obtain rfl := Except.ok.inj hread
      rfl
    | cons token tokens ih =>
      rw [List.mapM_cons] at hread
      rcases build_bind_eq_ok.mp hread with ⟨plan, hplan, hread⟩
      rcases build_bind_eq_ok.mp hread with ⟨rest, hrest, hread⟩
      obtain rfl := Except.ok.inj hread
      rcases hmirrors.planState hplan with ⟨-, -, -, haddress, hsubscription⟩
      have hrests := ih rest hrest
      rw [List.flatMap_cons, List.map_append, hrests, haddress, hsubscription]
      rfl
  have haccounts := hlisted _ plans hlists
  rw [enabledPaymentTokens_eq] at haccounts
  have hneeds (plan : Pubkey) (hplan : .live plan ∈ PlanChange.exit.demands d u) :
      d.isLive (chain.accounts.info (d.subscriptionOf plan user)) plan user = true := by
    rcases List.mem_map.mp hplan with ⟨token, -, hended⟩
    cases hended
  have hpermitted : PlanChange.exit.Permitted config u := trivial
  rcases change_accepted hmirrors hseparate hplans hends hsigned hvalid hcanonical hu hstays
    hpermitted haccounts hneeds with ⟨event, after, haccepted⟩
  exact ⟨_, closes, event, after, rfl, foreign_endedSubscriptionInstructions hcloses, haccepted⟩

end

section

variable {d : Deployment} {unknownInitId : ℤ} {config : Laterite.Config} {payers : List Pubkey}
  {sponsor user : Pubkey} {state : UserState} {delegations : List Delegation}
  {planMint : Pubkey → Option Pubkey} {inv : Invocation} {chain : Chain} {run : Execution}
  {tier mask : ℕ} {tokens : List ℕ}

/-- What a change drops or adds of the table is built when each added token can be subscribed to. -/
theorem exists_changeEach (hmirrors : Mirrors d config user state chain) (htier : tier < 2)
    (htokens : ∀ token ∈ tokens, token < paymentTokenCount)
    (hadds : ∀ paymentToken ∈ tokens, mask &&& (1 <<< paymentToken) ≠ 0 →
      ∀ plan token, planState state paymentToken tier = .ok plan →
        tokenState state paymentToken = .ok token →
        Subscribable state.now payers plan sponsor token) :
    ∃ instructions listed dropped,
      changeEach d unknownInitId state payers sponsor user tier mask tokens =
        .ok (instructions, listed, dropped) ∧
      ∀ plan ∈ dropped, plan.paymentToken < paymentTokenCount := by
  induction tokens with
  | nil =>
    refine ⟨[], [], [], rfl, ?_⟩
    intro plan hplan
    cases hplan
  | cons paymentToken tokens ih =>
    have htoken := htokens paymentToken List.mem_cons_self
    rcases hmirrors.listed htoken htier with ⟨plan, hplan⟩
    rcases hmirrors.tokens htoken with ⟨token, hread⟩
    rcases ih (fun t ht => htokens t (List.mem_cons_of_mem _ ht))
      (fun t ht => hadds t (List.mem_cons_of_mem _ ht)) with ⟨rest, listed, dropped, hrest, hdropped⟩
    by_cases hbit : mask &&& (1 <<< paymentToken) ≠ 0
    · have hcan := hadds paymentToken List.mem_cons_self hbit plan token hplan hread
      rcases subscribable_iff.mpr hcan with ⟨built, hbuilt⟩
      refine ⟨built ++ rest, readonly plan.subscription :: listed, dropped, ?_, hdropped⟩
      rw [changeEach, hplan]
      apply build_bind_eq_ok.mpr
      refine ⟨plan, rfl, ?_⟩
      rw [if_pos hbit, hread]
      simp only [build_bind_eq_ok]
      exact ⟨token, rfl, built, hbuilt, _, hrest, rfl⟩
    · rcases hmirrors.planState hplan with ⟨-, -, hsame, -, -⟩
      refine ⟨rest, readonly plan.plan :: writable plan.subscription :: listed, plan :: dropped, ?_, ?_⟩
      · rw [changeEach, hplan]
        apply build_bind_eq_ok.mpr
        refine ⟨plan, rfl, ?_⟩
        rw [if_neg hbit, hrest]
        rfl
      · intro other hother
        rcases List.mem_cons.mp hother with rfl | hother
        · exact hsame ▸ htoken
        · exact hdropped other hother

/-- What is closed behind a control is built. -/
theorem exists_endedSubscriptionInstructions (hmirrors : Mirrors d config user state chain)
    {ended : List PlanState} (hended : ∀ plan ∈ ended, plan.paymentToken < paymentTokenCount) :
    ∃ instructions, endedSubscriptionInstructions delegations planMint state user ended =
      .ok instructions := by
  have hcloses : ∃ closes, closeInstructions user ended = .ok closes := by
    apply exists_mapM_eq_ok
    intro plan hplan
    rcases Option.isSome_iff_exists.mp (List.mem_filter.mp hplan).2 with ⟨held, hheld⟩
    refine ⟨.revokeSubscription user plan.plan held.payer plan.subscription, ?_⟩
    rw [closeSubscriptionInstruction, hheld]
    rfl
  have htokens : ∃ tokens, (ended.mapM fun plan => tokenState state plan.paymentToken) = .ok tokens :=
    exists_mapM_eq_ok fun plan hplan => hmirrors.tokens (hended plan hplan)
  rcases hcloses with ⟨closes, hcloses⟩
  rcases htokens with ⟨tokens, htokens⟩
  have hrevokes : ∃ revokes, (tokens.filter fun token => token.authorityState.isSome ∧
      token.accountState.isSome ∧ token.mint ∉ mintsInUse delegations planMint state.now
        (ended.map PlanState.subscription)).mapM (revokeAuthorityInstruction user) = .ok revokes := by
    apply exists_mapM_eq_ok
    intro token htoken
    have hthere := (List.mem_filter.mp htoken).2
    rw [decide_eq_true_eq] at hthere
    rcases Option.isSome_iff_exists.mp hthere.1 with ⟨held, hheld⟩
    refine ⟨.revokeSubscriptionAuthority held.payer token.mint token.tokenProgram user, ?_⟩
    rw [revokeAuthorityInstruction, hheld]
    rfl
  rcases hrevokes with ⟨revokes, hrevokes⟩
  refine ⟨closes ++ revokes, ?_⟩
  rw [endedSubscriptionInstructions]
  simp only [build_bind_eq_ok]
  exact ⟨closes, hcloses, tokens, htokens, revokes, hrevokes, rfl⟩

theorem built_of_strays {paymentTokens : UInt8} (hmirrors : Mirrors d config user state chain)
    (hvalid : chain.UsersValid)
    (hstrays : (Control.changePaymentTokens paymentTokens).Strays payers sponsor state) :
    ∃ instructions, getChangePaymentTokensInstructions d unknownInitId delegations planMint payers
      sponsor user state paymentTokens = .ok instructions := by
  rcases hstrays with ⟨hpast, u, hu, hstays, hadds⟩
  have htier := (hvalid user u (hmirrors.userConfig.symm.trans hu) hstays).tier
  have htable : ∀ token ∈ enabledPaymentTokens (u.paymentTokens.toNat ^^^ paymentTokens.toNat),
      token < paymentTokenCount := by
    rw [← UInt8.toNat_xor, enabledPaymentTokens_eq]
    exact enabled_lt
  have hadded : ∀ paymentToken ∈ enabledPaymentTokens (u.paymentTokens.toNat ^^^ paymentTokens.toNat),
      paymentTokens.toNat &&& (1 <<< paymentToken) ≠ 0 → ∀ plan token,
        planState state paymentToken u.tier.toNat = .ok plan → tokenState state paymentToken = .ok token →
        Subscribable state.now payers plan sponsor token := by
    intro paymentToken hchanged hbit
    rcases mem_changed.mp ⟨hchanged, hbit⟩ with ⟨hnew, hold⟩
    exact hadds paymentToken hnew hold
  rcases exists_changeEach hmirrors htier htable hadded with
    ⟨built, listed, dropped, hbuilt, hdropped⟩
  rcases exists_endedSubscriptionInstructions hmirrors hdropped with ⟨closes, hcloses⟩
  refine ⟨built ++ .changePaymentTokens paymentTokens user state.userConfigAddress listed :: closes, ?_⟩
  rw [getChangePaymentTokensInstructions]
  simp only [build_bind_eq_ok, assertNotExited_eq_ok, checks_eq_ok, exists_const]
  exact ⟨by omega, u, ⟨hu, hstays⟩, _, hbuilt, closes, hcloses, rfl⟩

/-- What is built of a mask within the table or past it could be subscribed to. -/
theorem strays_of_built {paymentTokens : UInt8} {instructions : List Instruction}
    (hpast : 4 ≤ paymentTokens.toNat)
    (h : getChangePaymentTokensInstructions d unknownInitId delegations planMint payers sponsor user
      state paymentTokens = .ok instructions) :
    (Control.changePaymentTokens paymentTokens).Strays payers sponsor state := by
  simp only [getChangePaymentTokensInstructions, build_bind_eq_ok, assertNotExited_eq_ok, checks_eq_ok,
    exists_const] at h
  rcases h with ⟨-, u, ⟨hu, hstays⟩, built, hbuilt, -⟩
  refine ⟨hpast, u, hu, hstays, ?_⟩
  intro paymentToken hnew hold plan token hplan htoken
  rcases mem_changed.mpr ⟨hnew, hold⟩ with ⟨hchanged, hbit⟩
  generalize enabledPaymentTokens (u.paymentTokens.toNat ^^^ paymentTokens.toNat) = tokens at hbuilt hchanged
  clear hnew hold
  induction tokens generalizing built with
  | nil => cases hchanged
  | cons first tokens ih =>
    rw [changeEach] at hbuilt
    rcases build_bind_eq_ok.mp hbuilt with ⟨read, hread, hbuilt⟩
    rcases List.mem_cons.mp hchanged with rfl | hchanged
    · obtain rfl := Except.ok.inj (hread.symm.trans hplan)
      rw [if_pos hbit, htoken] at hbuilt
      simp only [build_bind_eq_ok] at hbuilt
      rcases hbuilt with ⟨held, hheld, instructions, hinstructions, -⟩
      obtain rfl := Except.ok.inj hheld
      exact subscribable_iff.mp ⟨instructions, hinstructions⟩
    · split at hbuilt
      · simp only [build_bind_eq_ok] at hbuilt
        rcases hbuilt with ⟨-, -, -, -, rest, hrest, -⟩
        exact ih rest hrest hchanged
      · rcases build_bind_eq_ok.mp hbuilt with ⟨rest, hrest, -⟩
        exact ih rest hrest hchanged

end

section

variable {d : Deployment} {unknownInitId : ℤ} {config : Laterite.Config} {payers : List Pubkey}
  {sponsor user : Pubkey} {state : UserState} {delegations : List Delegation}
  {planMint : Pubkey → Option Pubkey} {inv : Invocation} {chain : Chain} {run : Execution}
  {initial : Accounts} {history : List (Transition Chain Happening)}

/-- One of the instructions is the control's call of the program, and the program accepts it after
those before it. -/
def Control.Succeeds (control : Control) (d : Deployment) (sponsor user : Pubkey) (inv : Invocation)
    (chain : Chain) (run : Execution) (instructions : List Instruction) : Prop :=
  ∃ before instruction rest remaining accounts event after,
    instructions = before ++ instruction :: rest ∧
    instruction.call = some (control.call sponsor user remaining) ∧
    (∀ other ∈ before ++ rest, other.call = none) ∧
    run.all before chain.accounts = some accounts ∧
    execute d inv (chain.setAccounts accounts) (control.call sponsor user remaining) =
      .ok (event, after)

theorem Control.succeeds_alone {control : Control} {instruction : Instruction}
    (hcall : instruction.call = some (control.call sponsor user []))
    (haccepted : ∃ event after, execute d inv (chain.setAccounts chain.accounts)
      (control.call sponsor user []) = .ok (event, after)) :
    control.Succeeds d sponsor user inv chain run [instruction] := by
  rcases haccepted with ⟨event, after, haccepted⟩
  exact ⟨[], instruction, [], [], chain.accounts, event, after, rfl, hcall, Foreign.nil, rfl, haccepted⟩

theorem onboarding_succeeds (hsigned : user ∈ inv.signers.keys) (hpaid : sponsor ∈ inv.signers.keys)
    (hmirrors : Mirrors d config user state chain)
    (hprepares : Prepares d unknownInitId config payers sponsor user state run chain.accounts)
    {params : EnrollParams} {instructions : List Instruction}
    (hbuilt : (Control.onboarding params).instructions d unknownInitId config payers sponsor user state
      delegations planMint = .ok instructions) :
    (Control.onboarding params).Succeeds d sponsor user inv chain run instructions := by
  rcases map_eq_ok.mp hbuilt with ⟨sponsored, hsponsored, rfl⟩
  rcases build_bind_eq_ok.mp hsponsored with ⟨_, hcan, hsponsored⟩
  cases hnew : state.userConfig.isSome with
  | true =>
    rw [if_pos hnew] at hsponsored
    cases hsponsored
  | false =>
    rw [if_neg (Bool.eq_false_iff.mp hnew)] at hsponsored
    rcases build_bind_eq_ok.mp hsponsored with ⟨⟨joined, listed⟩, hjoined, hsame⟩
    obtain rfl := Except.ok.inj hsame
    have hnone : chain.userConfigs user = none := by
      rw [← hmirrors.userConfig]
      simpa using hnew
    rcases join_prepares hmirrors hprepares hjoined with ⟨hforeign, hlisted, accounts, haccounts, hlive⟩
    rcases enroll_accepted hsigned hpaid hmirrors.config hcan hlive hnone with ⟨event, after, haccepted⟩
    rw [← hlisted] at haccepted
    exact ⟨joined.instructions, _, [], _, accounts, event, after, rfl, rfl, hforeign.append .nil,
      haccounts, haccepted⟩

theorem reactivation_succeeds (hsigned : user ∈ inv.signers.keys) (hpaid : sponsor ∈ inv.signers.keys)
    (hmirrors : Mirrors d config user state chain)
    (hprepares : Prepares d unknownInitId config payers sponsor user state run chain.accounts)
    {params : EnrollParams} {instructions : List Instruction}
    (hbuilt : (Control.reactivation params).instructions d unknownInitId config payers sponsor user
      state delegations planMint = .ok instructions) :
    (Control.reactivation params).Succeeds d sponsor user inv chain run instructions := by
  rcases map_eq_ok.mp hbuilt with ⟨sponsored, hsponsored, rfl⟩
  simp only [getReactivationInstructions, build_bind_eq_ok, checks_eq_ok, exists_const] at hsponsored
  rcases hsponsored with ⟨_, hcan, hleft, ⟨joined, listed⟩, hjoined, hsame⟩
  obtain rfl := Except.ok.inj hsame
  rw [hmirrors.userConfig] at hleft
  rcases Option.map_eq_some_iff.mp hleft with ⟨u, hu, hexited⟩
  rcases join_prepares hmirrors hprepares hjoined with ⟨hforeign, hlisted, accounts, haccounts, hlive⟩
  rcases reactivate_accepted hsigned hpaid hmirrors.config hcan hlive hu hexited with
    ⟨event, after, haccepted⟩
  rw [← hlisted] at haccepted
  exact ⟨joined.instructions, _, [], _, accounts, event, after, rfl, rfl, hforeign.append .nil,
    haccounts, haccepted⟩

theorem updateSettings_succeeds (hsigned : user ∈ inv.signers.keys)
    (hmirrors : Mirrors d config user state chain)
    (hprepares : Prepares d unknownInitId config payers sponsor user state run chain.accounts)
    {params : EnrollParams} {instructions : List Instruction}
    (hbuilt : (Control.updateSettings params).instructions d unknownInitId config payers sponsor user
      state delegations planMint = .ok instructions) :
    (Control.updateSettings params).Succeeds d sponsor user inv chain run instructions := by
  rcases map_eq_ok.mp hbuilt with ⟨sponsored, hsponsored, rfl⟩
  simp only [getUpdateSettingsInstructions, build_bind_eq_ok, assertNotExited_eq_ok, checks_eq_ok,
    exists_const] at hsponsored
  rcases hsponsored with ⟨u, ⟨hu, hactive⟩, hsame, _, hrules, opening, hopening, hresult⟩
  obtain rfl := Except.ok.inj hresult
  rcases hprepares opening [] 0 [] [] (.inr ⟨_, hopening⟩) List.nodup_nil rfl with
    ⟨accounts, haccounts, -⟩
  rw [List.append_nil] at haccounts
  have huser : userOnly inv (chain.setAccounts accounts) user = .ok u :=
    userOnly_eq_ok.mpr ⟨hsigned, hmirrors.userConfig.symm.trans hu, hactive⟩
  have haccepted : ∃ event after, execute d inv (chain.setAccounts accounts)
      (.updateSettings user params) = .ok (event, after) := by
    apply Exists.intro
    apply Exists.intro
    rw [execute, updateSettings, huser, ok_bind, require_of hsame, ok_bind,
      (EnrollParams.validateRules_eq_ok (u := ())).mpr (assertValidRules_eq_ok.mp hrules), ok_bind]
    rfl
  rcases haccepted with ⟨event, after, haccepted⟩
  exact ⟨opening, _, [], [], accounts, event, after, rfl, rfl,
    (foreign_assetAccountInstructions hopening).append .nil, haccounts, haccepted⟩

theorem setUserPaused_succeeds (hsigned : user ∈ inv.signers.keys) {paused : Bool}
    {u : Laterite.UserConfig} (hgiven : (Control.setUserPaused paused u).Given chain user)
    {instructions : List Instruction}
    (hbuilt : (Control.setUserPaused paused u).instructions d unknownInitId config payers sponsor user
      state delegations planMint = .ok instructions) :
    (Control.setUserPaused paused u).Succeeds d sponsor user inv chain run instructions := by
  simp only [Control.instructions, getSetUserPausedInstructions, build_bind_eq_ok,
    assertNotExited_eq_ok, checks_eq_ok, exists_const] at hbuilt
  rcases hbuilt with ⟨held, ⟨hu, hactive⟩, hpauses, hresumes, hresult⟩
  obtain rfl := Option.some.inj hu
  obtain rfl := Except.ok.inj hresult
  have huser : userOnly inv (chain.setAccounts chain.accounts) user = .ok u :=
    userOnly_eq_ok.mpr ⟨hsigned, hgiven, hactive⟩
  apply Control.succeeds_alone rfl
  cases paused with
  | true =>
    have hstatus : u.status = .active := by simpa using hpauses
    apply Exists.intro
    apply Exists.intro
    rw [Control.call, execute, setUserPaused, huser, ok_bind, if_pos rfl, require_of hstatus]
    rfl
  | false =>
    have hstatus : u.status = .paused := by simpa using hresumes
    apply Exists.intro
    apply Exists.intro
    rw [Control.call, execute, setUserPaused, huser, ok_bind, if_neg Bool.false_ne_true,
      require_of hstatus]
    rfl

theorem lowerPending_succeeds (hsigned : user ∈ inv.signers.keys) {pending : UInt64}
    {u : Laterite.UserConfig} (hgiven : (Control.lowerPending pending u).Given chain user)
    {instructions : List Instruction}
    (hbuilt : (Control.lowerPending pending u).instructions d unknownInitId config payers sponsor user
      state delegations planMint = .ok instructions) :
    (Control.lowerPending pending u).Succeeds d sponsor user inv chain run instructions := by
  simp only [Control.instructions, getLowerPendingInstructions, build_bind_eq_ok,
    assertNotExited_eq_ok, checks_eq_ok, exists_const] at hbuilt
  rcases hbuilt with ⟨held, ⟨hu, hactive⟩, hlower, hresult⟩
  obtain rfl := Option.some.inj hu
  obtain rfl := Except.ok.inj hresult
  have huser : userOnly inv (chain.setAccounts chain.accounts) user = .ok u :=
    userOnly_eq_ok.mpr ⟨hsigned, hgiven, hactive⟩
  apply Control.succeeds_alone rfl
  apply Exists.intro
  apply Exists.intro
  rw [Control.call, execute, lowerPending, huser, ok_bind, require_of (UInt64.not_lt.mp hlower)]
  rfl

theorem succeeds_of_built (hvalid : chain.UsersValid) (hseparate : d.SeparateSubscriptions)
    (hplans : d.SeparatePlans) (hends : d.EndsAtOnce inv) (hcanonical : d.Canonical chain.accounts)
    (hsigned : user ∈ inv.signers.keys) (hpaid : sponsor ∈ inv.signers.keys)
    (hmirrors : Mirrors d config user state chain)
    (hprepares : Prepares d unknownInitId config payers sponsor user state run chain.accounts)
    {control : Control} (hgiven : control.Given chain user)
    (hstays : ¬control.Strays payers sponsor state) {instructions : List Instruction}
    (hbuilt : control.instructions d unknownInitId config payers sponsor user state delegations planMint =
      .ok instructions) :
    control.Succeeds d sponsor user inv chain run instructions := by
  cases control with
  | onboarding params => exact onboarding_succeeds hsigned hpaid hmirrors hprepares hbuilt
  | reactivation params => exact reactivation_succeeds hsigned hpaid hmirrors hprepares hbuilt
  | updateSettings params => exact updateSettings_succeeds hsigned hmirrors hprepares hbuilt
  | setUserPaused paused u => exact setUserPaused_succeeds hsigned hgiven hbuilt
  | lowerPending pending u => exact lowerPending_succeeds hsigned hgiven hbuilt
  | changeTier tier =>
    rcases changeTier_accepted hmirrors hprepares hseparate hplans hends hsigned hvalid hbuilt with
      ⟨before, listed, closes, accounts, event, after, rfl, hbefore, hcloses, haccounts, haccepted⟩
    exact ⟨before, _, closes, _, accounts, event, after, rfl, rfl, hbefore.append hcloses, haccounts,
      haccepted⟩
  | changePaymentTokens mask =>
    have hmask : mask.toNat < 4 := by
      by_contra hpast
      exact hstays (strays_of_built (not_lt.mp hpast) hbuilt)
    rcases changePaymentTokens_accepted hmirrors hprepares hseparate hplans hends hsigned hvalid hmask
      hbuilt with
      ⟨before, listed, closes, accounts, event, after, rfl, hbefore, hcloses, haccounts, haccepted⟩
    exact ⟨before, _, closes, _, accounts, event, after, rfl, rfl, hbefore.append hcloses, haccounts,
      haccepted⟩
  | exit =>
    rcases exit_accepted hmirrors hseparate hplans hends hcanonical hsigned hvalid hbuilt with
      ⟨listed, closes, event, after, rfl, hcloses, haccepted⟩
    exact ⟨[], _, closes, _, chain.accounts, event, after, rfl, rfl, hcloses, rfl, haccepted⟩

/-- On every ledger the program reaches, a builder and the program agree on every control with every
argument, but on a change of payment tokens whose mask has bits past the table: it is built, and the
program refuses it. -/
theorem control_agrees (hreached : ProgramRun d initial history chain)
    (hseparate : d.SeparateSubscriptions) (hplans : d.SeparatePlans) (hends : d.EndsAtOnce inv)
    (hcanonical : d.Canonical chain.accounts) (hsigned : user ∈ inv.signers.keys)
    (hpaid : sponsor ∈ inv.signers.keys) (hmirrors : Mirrors d config user state chain)
    (hprepares : Prepares d unknownInitId config payers sponsor user state run chain.accounts)
    (control : Control) (hgiven : control.Given chain user) :
    control.Agrees d unknownInitId config payers sponsor user state delegations planMint inv chain run ↔
      ¬control.Strays payers sponsor state := by
  have hvalid : chain.UsersValid := hreached.usersValid
  constructor
  · intro hagrees hstrays
    cases control with
    | changePaymentTokens mask =>
      rcases built_of_strays (d := d) hmirrors hvalid hstrays with ⟨instructions, hbuilt⟩
      rcases hagrees.succeeds hbuilt with ⟨-, -, -, remaining, accounts, event, after, -, -, -, -, haccepted⟩
      rcases emitting_eq_ok.mp haccepted with ⟨e, -, haccepted⟩
      rcases changePaymentTokens_ok haccepted with ⟨u, settled, -, -, hknown, -⟩
      exact absurd (knownTokens_iff.mp hknown) (not_lt.mpr hstrays.1)
    | _ => exact hstrays
  · intro hstays
    exact ⟨succeeds_of_built hvalid hseparate hplans hends hcanonical hsigned hpaid hmirrors hprepares
      hgiven hstays, refuses_of_stopped hvalid hmirrors hgiven⟩

end

namespace ControlRehearsal

open Rehearsal (address deployment user sponsor)

def ledger : Chain := Rehearsal.ledger (Rehearsal.enrolling :: Rehearsal.handover)

def config : Laterite.Config := { Rehearsal.params.toConfig Rehearsal.admin with userCount := 1 }

def enrolled : Laterite.UserConfig := .enrolled user 255 Rehearsal.settings 1700000010

def planOf (paymentToken tier : ℕ) (held : Option RecordedSubscription) : PlanState where
  paymentToken := paymentToken
  plan := deployment.plan paymentToken tier
  planState := ⟨10000000, 0, 168, 0⟩
  subscription := deployment.subscriptionOf (deployment.plan paymentToken tier) user
  subscriptionState := held
  tier := tier

def held : RecordedSubscription := ⟨9, sponsor, ⟨255, 10000000, 168, 0, 0, 0⟩⟩

/-- One account, approved for the authority that the user's one subscription goes through. -/
def state : UserState where
  assets := [⟨address 61, true⟩, ⟨address 63, true⟩]
  now := 1700000100
  plans := [planOf 0 0 (some held), planOf 0 1 none, planOf 1 0 none, planOf 1 1 none]
  tokens := [⟨address 60, some ⟨100000000, some (address 70), 18446744073709551615, false⟩, address 70,
      some ⟨9, sponsor⟩, address 22, 0, address 204⟩,
    ⟨address 64, none, address 73, none, address 23, 1, address 204⟩]
  userConfig := some enrolled
  userConfigAddress := address 81

/-- Subscriptions writes a live subscription where it is asked for one. -/
def execution : Execution
  | .subscribe _ _ _ _ _ _ planId subscriber _, accounts =>
    some (Function.update accounts (deployment.subscriptionOf (address (UInt8.ofNat planId)) subscriber)
      ⟨deployment.subscriptionsId, [10, 0, 0]⟩)
  | _, accounts => some accounts

def invocation : Invocation :=
  Rehearsal.surroundings 1700000100 ⟨[user, sponsor], Rehearsal.user_signs⟩ none (by decide)

theorem mirrors : Mirrors deployment config user state ledger where
  config := by decide +kernel
  userConfig := by decide +kernel
  plans := by
    intro plan hplan
    have hread : ∀ plan ∈ state.plans, plan.subscriptionState.map RecordedSubscription.delegation =
        deployment.readSubscription (ledger.accounts.info plan.subscription) := by decide +kernel
    have hplaces : ∀ plan ∈ state.plans, plan.paymentToken < paymentTokenCount ∧ plan.tier < 2 ∧
        plan.plan = deployment.plan plan.paymentToken plan.tier ∧
        plan.subscription = deployment.subscriptionOf plan.plan user := by decide +kernel
    rcases hplaces plan hplan with ⟨htoken, htier, haddress, hsubscription⟩
    exact ⟨htoken, htier, haddress, hsubscription, hread plan hplan⟩
  listed := by
    intro paymentToken tier htoken htier
    unfold paymentTokenCount at htoken
    interval_cases paymentToken <;> interval_cases tier
    · exact ⟨planOf 0 0 (some held), rfl⟩
    · exact ⟨planOf 0 1 none, rfl⟩
    · exact ⟨planOf 1 0 none, rfl⟩
    · exact ⟨planOf 1 1 none, rfl⟩
  tokens := by
    intro paymentToken htoken
    unfold paymentTokenCount at htoken
    interval_cases paymentToken <;> exact ⟨_, rfl⟩

theorem head_eq_zero {tier token : ℕ} {tokens : List ℕ} {instructions : List Instruction}
    {subscriptions : List Pubkey}
    (h : subscribeEach deployment (-1) state [] sponsor user tier (token :: tokens) =
      .ok (instructions, subscriptions)) : token = 0 ∧ tier < 2 := by
  simp only [subscribeEach, build_bind_eq_ok] at h
  rcases h with ⟨plan, hplan, read, hread, built, hbuilt, -⟩
  rcases mirrors.planState hplan with ⟨htoken, htier, -⟩
  refine ⟨?_, htier⟩
  unfold paymentTokenCount at htoken
  interval_cases token
  · rfl
  · obtain rfl := Except.ok.inj hread
    rw [subscriptionInstructions_noAccount rfl] at hbuilt
    cases hbuilt

theorem prepares :
    Prepares deployment (-1) config [] sponsor user state execution ledger.accounts := by
  intro opening instructions tier tokens subscriptions hopening hdistinct hbuilt
  have hnothing : opening = [] := by
    rcases hopening with rfl | ⟨asset, hasset⟩
    · rfl
    · rcases build_bind_eq_ok.mp hasset with ⟨entry, hentry, hasset⟩
      have hopen : entry.isOpen = true := by
        have hall : ∀ entry ∈ state.assets, entry.isOpen = true := by decide
        exact hall entry (List.mem_of_getElem? (found_eq_ok.mp hentry))
      rw [if_pos hopen] at hasset
      exact (Except.ok.inj hasset).symm
  rw [hnothing, List.nil_append]
  match tokens with
  | [] =>
    obtain ⟨rfl, -⟩ := Prod.mk.inj (Except.ok.inj hbuilt)
    refine ⟨ledger.accounts, rfl, Rehearsal.canonical _, ?_⟩
    intro token htoken
    cases htoken
  | token :: other :: rest =>
    obtain ⟨rfl, -⟩ := head_eq_zero hbuilt
    simp only [subscribeEach, build_bind_eq_ok] at hbuilt
    rcases hbuilt with ⟨-, -, -, -, -, -, ⟨built, listed⟩,
      ⟨plan, hplan, read, hread, made, hmade, tail, htail, -⟩, -⟩
    have hsecond : subscribeEach deployment (-1) state [] sponsor user tier (other :: rest) =
        .ok (made ++ tail.1, plan.subscription :: tail.2) := by
      simp only [subscribeEach, build_bind_eq_ok]
      exact ⟨plan, hplan, read, hread, made, hmade, tail, htail, rfl⟩
    obtain ⟨rfl, -⟩ := head_eq_zero hsecond
    exact absurd List.mem_cons_self (List.nodup_cons.mp hdistinct).1
  | [token] =>
    obtain ⟨rfl, htier⟩ := head_eq_zero hbuilt
    interval_cases tier
    · obtain ⟨rfl, -⟩ := Prod.mk.inj (Except.ok.inj hbuilt)
      refine ⟨ledger.accounts, rfl, Rehearsal.canonical _, ?_⟩
      intro token htoken
      obtain rfl := List.mem_singleton.mp htoken
      decide +kernel
    · obtain ⟨rfl, -⟩ := Prod.mk.inj (Except.ok.inj hbuilt)
      refine ⟨_, rfl, Rehearsal.canonical _, ?_⟩
      intro token htoken
      obtain rfl := List.mem_singleton.mp htoken
      decide +kernel

end ControlRehearsal

open ControlRehearsal in
/-- The user moves to the next tier: a subscription is made first. -/
theorem control_agrees_changeTier :
    (Control.changeTier 1).Agrees Rehearsal.deployment (-1) config [] Rehearsal.sponsor Rehearsal.user
      state [] (fun _ => none) invocation ledger execution := by
  apply (control_agrees (Rehearsal.ledger_run (Rehearsal.enrolling :: Rehearsal.handover) (by decide))
    Rehearsal.separateSubscriptions Rehearsal.separatePlans
    (Rehearsal.endsAtOnce invocation rfl (by decide)) (Rehearsal.canonical _) (by decide) (by decide)
    mirrors prepares (.changeTier 1) trivial).mpr
  exact not_false

open ControlRehearsal in
/-- A bit past the table: the change is built, and the program refuses it. -/
theorem not_agrees_past :
    ¬(Control.changePaymentTokens 5).Agrees Rehearsal.deployment (-1) config [] Rehearsal.sponsor
      Rehearsal.user state [] (fun _ => none) invocation ledger execution := by
  intro hagrees
  have hbuilt : (Control.changePaymentTokens 5).instructions Rehearsal.deployment (-1) config []
      Rehearsal.sponsor Rehearsal.user state [] (fun _ => none) =
      .ok [.changePaymentTokens 5 Rehearsal.user (Rehearsal.address 81) []] := rfl
  rcases hagrees.succeeds hbuilt with ⟨-, -, -, remaining, accounts, event, after, -, -, -, -, haccepted⟩
  rcases emitting_eq_ok.mp haccepted with ⟨e, -, haccepted⟩
  rcases changePaymentTokens_ok haccepted with ⟨u, settled, -, -, hknown, -⟩
  exact absurd hknown (by decide)

end Laterite.Client
