import Laterite.BuiltControls

/-!
# What the program accepts of the built controls

The accounts a built control lists are those its walk asks for, and every check of the program is one
the builder made, but for a mask of payment tokens with bits past the table.
-/

namespace Laterite

open CheckedComputation Deployment

variable {d : Deployment} {inv : Invocation} {user : Pubkey} {u : Laterite.UserConfig} {chain : Chain}
  {accounts : Accounts} {demands : List Demand}

/-- Every demand is met when its accounts are listed in order, every plan to end is the vault's, and
every subscription that must be live is and is not ended. -/
theorem exists_settled (hseparate : d.SeparateSubscriptions) (hends : d.EndsAtOnce inv)
    (hsigned : user ∈ inv.signers.keys) (hcanonical : d.Canonical accounts)
    (hplans : ∀ plan, .ended plan ∈ demands → d.VaultPlan plan)
    (hlive : ∀ plan, .live plan ∈ demands → .ended plan ∉ demands ∧
      d.isLive (accounts.info (d.subscriptionOf plan user)) plan user = true) :
    ∃ after, d.settle inv user demands (demands.flatMap (d.answer user)) accounts = .ok after := by
  induction demands generalizing accounts with
  | nil => exact ⟨accounts, rfl⟩
  | cons demand demands ih =>
    have hplans' : ∀ plan, .ended plan ∈ demands → d.VaultPlan plan :=
      fun plan hplan => hplans plan (List.mem_cons_of_mem _ hplan)
    cases demand with
    | ended plan =>
      rcases exists_cancelled hcanonical hends (hplans plan List.mem_cons_self) hsigned with
        ⟨mid, hcancel, hfirst⟩
      have hkept (other : Pubkey) (hother : .live other ∈ demands) : .ended other ∉ demands ∧
          d.isLive (mid.info (d.subscriptionOf other user)) other user = true := by
        rcases hlive other (List.mem_cons_of_mem _ hother) with ⟨hnot, hruns⟩
        rw [List.mem_cons, not_or] at hnot
        refine ⟨hnot.2, ?_⟩
        rw [isLive_congr (hfirst.frame _ ?_)]
        · exact hruns
        · intro hsame
          exact hnot.1 (congrArg Demand.ended (hseparate other plan user hsame))
      rcases ih hfirst.canonical hplans' hkept with ⟨after, hrest⟩
      refine ⟨after, ?_⟩
      change (d.cancel inv user plan plan (d.subscriptionOf plan user) accounts >>= _) = _
      rw [hcancel]
      exact hrest
    | live plan =>
      rcases hlive plan List.mem_cons_self with ⟨-, hruns⟩
      have hkept (other : Pubkey) (hother : .live other ∈ demands) : .ended other ∉ demands ∧
          d.isLive (accounts.info (d.subscriptionOf other user)) other user = true := by
        rcases hlive other (List.mem_cons_of_mem _ hother) with ⟨hnot, hother⟩
        exact ⟨fun hended => hnot (List.mem_cons_of_mem _ hended), hother⟩
      rcases ih hcanonical hplans' hkept with ⟨after, hrest⟩
      refine ⟨after, ?_⟩
      change ((require (d.isLive (accounts.info (d.subscriptionOf plan user)) plan user)
        (.laterite .subscriptionMismatch) : Result Unit) >>= fun _ => _) = _
      rw [require_of hruns]
      exact hrest

theorem PlanChange.succeeds {change : PlanChange} {config : Config}
    (hseparate : d.SeparateSubscriptions) (hplans : d.SeparatePlans) (hends : d.EndsAtOnce inv)
    (hcanonical : d.Canonical accounts) (hconfig : chain.config = some config)
    (huser : userOnly inv chain user = .ok u) (hvalid : u.settings.Valid)
    (hpermitted : change.Permitted config u)
    (hlive : ∀ plan, .live plan ∈ change.demands d u →
      d.isLive (accounts.info (d.subscriptionOf plan user)) plan user = true) :
    ∃ event after, execute d inv (chain.setAccounts accounts)
      (change.call user (change.accounts d user u)) = .ok (event, after) := by
  rcases userOnly_eq_ok.mp huser with ⟨hsigned, -, -⟩
  have hsame : userOnly inv (chain.setAccounts accounts) user = .ok u := huser
  have hcanon : d.Canonical (chain.setAccounts accounts).accounts := hcanonical
  have hheld : (chain.setAccounts accounts).config = some config := hconfig
  rcases change.execute_eq (change.accounts d user u) hends hcanon hheld hsame hvalid hpermitted with
    ⟨finish, -, hexecute⟩
  have hsettled := exists_settled hseparate hends hsigned hcanonical
    (fun plan => change.vaultPlan hvalid)
    fun plan hplan => ⟨PlanChange.ended_notMem hplans hvalid hpermitted hplan, hlive plan hplan⟩
  rcases hsettled with ⟨after, hafter⟩
  change _ = (d.settle inv user (change.demands d u) (change.accounts d user u) accounts >>= _) at hexecute
  rw [PlanChange.accounts, hafter, ok_bind] at hexecute
  exact ⟨_, _, hexecute⟩

theorem requireLiveEach_ok {tier : UInt8} {tokens : List ℕ} (htier : tier.toNat < 2)
    (htokens : ∀ token ∈ tokens, token < paymentTokenCount)
    (hlive : ∀ token ∈ tokens, d.isLive (accounts.info (d.subscriptionOf (d.plan token tier.toNat) user))
      (d.plan token tier.toNat) user = true) :
    d.requireLiveEach user tier tokens
      ((tokens.map fun token => d.subscriptionOf (d.plan token tier.toNat) user).map accounts.info) =
        .ok () := by
  induction tokens with
  | nil => rfl
  | cons token tokens ih =>
    rw [List.map_cons, List.map_cons, requireLiveEach, List.head?_cons, okOr, ok_bind,
      planAt_eq (htokens token List.mem_cons_self) htier, ok_bind,
      require_of (hlive token List.mem_cons_self), ok_bind, List.tail_cons]
    exact ih (fun t ht => htokens t (List.mem_cons_of_mem _ ht))
      fun t ht => hlive t (List.mem_cons_of_mem _ ht)

theorem requireLive_ok {tier mask : UInt8} (htier : tier.toNat < 2)
    (hlive : ∀ token ∈ (List.range paymentTokenCount).filter (enabled mask),
      d.isLive (accounts.info (d.subscriptionOf (d.plan token tier.toNat) user))
        (d.plan token tier.toNat) user = true) :
    d.requireLive ((((List.range paymentTokenCount).filter (enabled mask)).map fun token =>
      d.subscriptionOf (d.plan token tier.toNat) user).map accounts.info) mask tier user = .ok () := by
  rw [requireLive, enabledTokens_eq, ok_bind]
  exact requireLiveEach_ok htier enabled_lt hlive

theorem exists_takeSeat {userCount maxUsers : UInt32} (h : userCount < maxUsers) :
    ∃ taken : UInt32, (userCount.checkedAdd 1 : Result UInt32) = .ok taken := by
  have hseat := noPanic_takeSeat h
  unfold UInt32.checkedAdd at hseat ⊢
  split at hseat
  · exact ⟨_, if_pos ‹_›⟩
  · exact absurd rfl hseat

namespace Client

variable {unknownInitId : ℤ} {config : Laterite.Config} {params : EnrollParams}
  {payers : List Pubkey} {sponsor : Pubkey} {state : UserState} {delegations : List Delegation}
  {planMint : Pubkey → Option Pubkey} {run : Execution} {tier : ℕ} {tokens : List ℕ}
  {instructions : List Instruction}

theorem enabled_eq_testBit {mask : UInt8} {token : ℕ} (h : token < 2) :
    enabled mask token = mask.toNat.testBit token := by
  have hzero : mask.toNat &&& (1 <<< token) = 0 ↔ ¬enabled mask token = true := enabled_eq h
  rw [Nat.one_shiftLeft, Nat.and_two_pow] at hzero
  cases hbit : mask.toNat.testBit token with
  | true =>
    rw [hbit] at hzero
    by_contra hnot
    have hnone := hzero.mpr hnot
    simp at hnone
  | false =>
    rw [hbit] at hzero
    exact Bool.eq_false_iff.mpr (hzero.mp (by simp))

theorem enabled_xor {current new : UInt8} {token : ℕ} (h : token < 2) :
    enabled (current ^^^ new) token = (enabled current token ^^ enabled new token) := by
  rw [enabled_eq_testBit h, enabled_eq_testBit h, enabled_eq_testBit h, UInt8.toNat_xor,
    Nat.testBit_xor]

/-- The tokens whose bit changes, each with what the change asks of it, are the program's walk. -/
theorem changed_demands {mask : UInt8} :
    ((enabledPaymentTokens (u.paymentTokens.toNat ^^^ mask.toNat)).flatMap fun token =>
      if mask.toNat &&& (1 <<< token) ≠ 0 then [Demand.live (d.plan token u.tier.toNat)]
      else [.ended (d.plan token u.tier.toNat)]) =
      (PlanChange.changePaymentTokens mask).demands d u := by
  have hbit (token : ℕ) (htoken : token < 2) : (mask.toNat &&& (1 <<< token) ≠ 0) ↔
      enabled mask token = true := by
    rw [Ne, enabled_eq htoken, not_not]
  have hite (token : ℕ) (htoken : token < 2) (added dropped : List Demand) :
      (if mask.toNat &&& (1 <<< token) ≠ 0 then added else dropped) =
        if enabled mask token = true then added else dropped := if_congr (hbit token htoken) rfl rfl
  have hrange : List.range paymentTokenCount = [0, 1] := rfl
  rw [← UInt8.toNat_xor, enabledPaymentTokens_eq, PlanChange.demands, hrange]
  simp only [List.filter_cons, List.filter_nil, enabled_xor two_pos, enabled_xor one_lt_two,
    List.flatMap_cons, List.flatMap_nil]
  cases h0 : enabled u.paymentTokens 0 <;> cases h0' : enabled mask 0 <;>
    cases h1 : enabled u.paymentTokens 1 <;> cases h1' : enabled mask 1 <;>
      simp only [Bool.not_true, Bool.not_false, if_true, if_false, Bool.false_eq_true,
        List.flatMap_cons, List.flatMap_nil, hite 0 two_pos, hite 1 one_lt_two, h0', h1',
        Bool.and_true, Bool.and_false, List.append_nil, List.nil_append, Bool.xor_self,
        Bool.xor_false, Bool.xor_true]

theorem mem_changed {current new token : ℕ} :
    token ∈ enabledPaymentTokens (current ^^^ new) ∧ new &&& (1 <<< token) ≠ 0 ↔
      token ∈ enabledPaymentTokens new ∧ token ∉ enabledPaymentTokens current := by
  have hbit (mask : ℕ) : mask &&& (1 <<< token) ≠ 0 ↔ mask.testBit token = true := by
    rw [Nat.one_shiftLeft, Nat.and_two_pow]
    cases mask.testBit token <;> simp
  unfold enabledPaymentTokens
  rw [List.mem_filter, List.mem_filter, List.mem_filter, decide_eq_true_eq, decide_eq_true_eq,
    decide_eq_true_eq, hbit, hbit, hbit, Nat.testBit_xor]
  generalize (token ∈ [0, 1]) = listed
  cases current.testBit token <;> cases new.testBit token <;> simp

variable (hsigned : user ∈ inv.signers.keys) (hpaid : sponsor ∈ inv.signers.keys)
  (hconfig : chain.config = some config) (hcan : assertCanJoin config sponsor params = .ok ())
  (hlive : ∀ token ∈ (List.range paymentTokenCount).filter (enabled params.paymentTokens),
    d.isLive (accounts.info (d.subscriptionOf (d.plan token params.tier.toNat) user))
      (d.plan token params.tier.toNat) user = true)
include hsigned hpaid hconfig hcan hlive

theorem enroll_accepted (hnone : chain.userConfigs user = none) : ∃ event after,
    execute d inv (chain.setAccounts accounts) (.enroll user sponsor params
      (((List.range paymentTokenCount).filter (enabled params.paymentTokens)).map fun token =>
        d.subscriptionOf (d.plan token params.tier.toNat) user)) = .ok (event, after) := by
  rcases assertCanJoin_eq_ok.mp hcan with ⟨hpaused, hsponsor, hroom, hvalidates⟩
  rcases validate_eq_ok.mp hvalidates with ⟨-, hvalid⟩
  rcases exists_takeSeat hroom with ⟨taken, htaken⟩
  have hload : (chain.setAccounts accounts).loadConfig = .ok config :=
    (Chain.loadConfig_eq_ok _).mpr hconfig
  have hfresh : (chain.setAccounts accounts).userConfigs user = none := hnone
  apply Exists.intro
  apply Exists.intro
  rw [execute, emitting, enroll, Invocation.requireSigner, require_of hsigned, ok_bind,
    Invocation.requireSigner, require_of hpaid, ok_bind, hload, ok_bind, require_of hsponsor, ok_bind,
    require_of hfresh, ok_bind, require_of (by simp [hpaused]), ok_bind, require_of hroom, ok_bind,
    hvalidates, ok_bind, Chain.setAccounts, requireLive_ok hvalid.tier hlive, ok_bind]
  dsimp only
  rw [htaken]
  rfl

theorem reactivate_accepted (hu : chain.userConfigs user = some u) (hexited : u.status = .exited) :
    ∃ event after, execute d inv (chain.setAccounts accounts) (.reactivate user sponsor params
      (((List.range paymentTokenCount).filter (enabled params.paymentTokens)).map fun token =>
        d.subscriptionOf (d.plan token params.tier.toNat) user)) = .ok (event, after) := by
  rcases assertCanJoin_eq_ok.mp hcan with ⟨hpaused, hsponsor, hroom, hvalidates⟩
  rcases validate_eq_ok.mp hvalidates with ⟨-, hvalid⟩
  rcases exists_takeSeat hroom with ⟨taken, htaken⟩
  have hload : (chain.setAccounts accounts).loadConfig = .ok config :=
    (Chain.loadConfig_eq_ok _).mpr hconfig
  have hloads : (chain.setAccounts accounts).loadUserConfig user = .ok u :=
    (Chain.loadUserConfig_eq_ok _ _).mpr hu
  apply Exists.intro
  apply Exists.intro
  rw [execute, emitting, reactivate, Invocation.requireSigner, require_of hsigned, ok_bind,
    Invocation.requireSigner, require_of hpaid, ok_bind, hload, ok_bind, require_of hsponsor, ok_bind,
    hloads, ok_bind, require_of hexited, ok_bind, require_of (by simp [hpaused]), ok_bind,
    require_of hroom, ok_bind, hvalidates, ok_bind, Chain.setAccounts,
    requireLive_ok hvalid.tier hlive, ok_bind]
  dsimp only
  rw [htaken]
  rfl

omit hsigned hpaid hconfig hcan hlive

theorem subscribable_iff {now : ℤ} {plan : PlanState} {token : TokenState} :
    (∃ instructions, subscriptionInstructions d unknownInitId now payers plan sponsor token user =
      .ok instructions) ↔ Subscribable now payers plan sponsor token := by
  constructor
  · rintro ⟨instructions, hbuilt⟩
    cases haccount : token.accountState with
    | none =>
      rw [subscriptionInstructions_noAccount haccount] at hbuilt
      cases hbuilt
    | some account =>
      cases hthawed : account.frozen with
      | true =>
        rw [subscriptionInstructions_frozen haccount hthawed] at hbuilt
        cases hbuilt
      | false =>
        refine ⟨account, haccount, hthawed, ?_⟩
        intro held hstranded
        rw [subscriptionInstructions_stranded haccount hthawed hstranded] at hbuilt
        cases hbuilt
  · rintro ⟨account, haccount, hthawed, hfree⟩
    exact subscriptionInstructions_ok d unknownInitId user haccount hthawed hfree

end Client

end Laterite
