import Laterite.ReplayedRuns
import Laterite.SeatCount
import Laterite.SubscriptionDemands

/-!
# Leaving and changing plans

Exit, a change of tier and a change of tokens end the user's subscriptions to the plans they
drop and require live ones to the plans they add. Each of the three loops is the walk over
its demands; leaving asks only for ends, so it never fails.
-/

namespace Laterite

open CheckedComputation TimedRuns Deployment

inductive PlanChange where
  | exit
  | changeTier (tier : UInt8)
  | changePaymentTokens (paymentTokens : UInt8)

namespace PlanChange

def call (user : Pubkey) (remainingAccounts : List Pubkey) : PlanChange → Call
  | .exit => .exit user remainingAccounts
  | .changeTier tier => .changeTier user tier remainingAccounts
  | .changePaymentTokens paymentTokens => .changePaymentTokens user paymentTokens remainingAccounts

/-- What the change checks besides the accounts listed. -/
def Permitted (config : Config) (u : UserConfig) : PlanChange → Prop
  | .exit => True
  | .changeTier tier => ∃ cap, tiers[tier.toNat]? = some cap ∧ tier ≠ u.tier ∧
      cap ≤ config.userWeeklyCap ∧ u.engineAmount ≤ cap
  | .changePaymentTokens paymentTokens => paymentTokens ≠ 0 ∧ paymentTokens.toNat < 4

/-- What the change asks: per enabled token, that the current tier's subscription end, for a
change of tier that the new tier's be live; per token whose bit changes, that a dropped
token's subscription end and an added token's be live. -/
def demands (d : Deployment) (u : UserConfig) : PlanChange → List Demand
  | .exit => ((List.range paymentTokenCount).filter (enabled u.paymentTokens)).map fun token =>
      .ended (d.plan token u.tier.toNat)
  | .changeTier tier =>
    ((List.range paymentTokenCount).filter (enabled u.paymentTokens)).flatMap fun token =>
      [.ended (d.plan token u.tier.toNat), .live (d.plan token tier.toNat)]
  | .changePaymentTokens paymentTokens => (List.range paymentTokenCount).flatMap fun token =>
      if enabled u.paymentTokens token && !enabled paymentTokens token then
        [.ended (d.plan token u.tier.toNat)]
      else if !enabled u.paymentTokens token && enabled paymentTokens token then
        [.live (d.plan token u.tier.toNat)]
      else []

def accounts (d : Deployment) (user : Pubkey) (u : UserConfig) (change : PlanChange) :
    List Pubkey := (change.demands d u).flatMap (d.answer user)

end PlanChange

/-- The vault's plans have different addresses. -/
def Deployment.SeparatePlans (d : Deployment) : Prop :=
  ∀ token tier token' tier', token < paymentTokenCount → tier < 2 → token' < paymentTokenCount →
    tier' < 2 → d.plan token tier = d.plan token' tier' → token = token' ∧ tier = tier'

variable {d : Deployment} {inv : Invocation} {user : Pubkey} {u : UserConfig} {chain after : Chain}
  {tokens : List ℕ} {tier current : ℕ} {accounts : Accounts} {listed : List Pubkey}

theorem planAt_eq {token : ℕ} (htoken : token < paymentTokenCount) (htier : tier < 2) :
    d.planAt token tier = .ok (d.plan token tier) := by
  match token, htoken, tier, htier with
  | 0, _, 0, _ | 0, _, 1, _ | 1, _, 0, _ | 1, _, 1, _ => rfl

theorem exitEach_eq (htier : tier < 2) (htokens : ∀ token ∈ tokens, token < paymentTokenCount) :
    exitEach d inv user tier tokens listed accounts =
      d.settle inv user (tokens.map fun token => .ended (d.plan token tier)) listed accounts := by
  induction tokens generalizing listed accounts with
  | nil => rfl
  | cons token tokens ih =>
    match listed with
    | [] | [_] => rfl
    | planAccount :: subscription :: rest =>
      rw [exitEach, planAt_eq (htokens token (by simp)) htier, ok_bind]
      simp only [ih fun t ht => htokens t (by simp [ht])]
      rfl

theorem changePaymentTokensEach_eq {mask new : UInt8} (htier : tier < 2)
    (htokens : ∀ token ∈ tokens, token < paymentTokenCount) :
    changePaymentTokensEach d inv user tier mask new tokens listed accounts =
      d.settle inv user
        (tokens.flatMap fun token =>
          if enabled mask token && !enabled new token then [.ended (d.plan token tier)]
          else if !enabled mask token && enabled new token then [.live (d.plan token tier)]
          else [])
        listed accounts := by
  induction tokens generalizing listed accounts with
  | nil => rfl
  | cons token tokens ih =>
    have htoken := htokens token (by simp)
    have hbit : token < 8 := by
      unfold paymentTokenCount at htoken
      omega
    rw [changePaymentTokensEach, planAt_eq htoken htier, ok_bind, enables_of_lt hbit, ok_bind,
      enables_of_lt hbit, ok_bind, List.flatMap_cons]
    simp only [ih fun t ht => htokens t (by simp [ht])]
    cases enabled mask token <;> cases enabled new token <;> rfl

/-- A change of tier refuses a short list before its last end, the walk after it. -/
theorem changeTierEach_eq (hends : d.EndsAtOnce inv) (hsigned : user ∈ inv.signers.keys)
    (hcanonical : d.Canonical accounts) (hcurrent : current < 2) (htier : tier < 2)
    (htokens : ∀ token ∈ tokens, token < paymentTokenCount) :
    changeTierEach d inv user current tier tokens listed accounts =
      d.settle inv user
        (tokens.flatMap fun token => [.ended (d.plan token current), .live (d.plan token tier)])
        listed accounts := by
  induction tokens generalizing listed accounts with
  | nil => rfl
  | cons token tokens ih =>
    have htoken := htokens token (by simp)
    match listed with
    | [] | [_] => rfl
    | plan :: old :: rest =>
      have hunfold : d.settle inv user ((token :: tokens).flatMap fun token =>
          [.ended (d.plan token current), .live (d.plan token tier)]) (plan :: old :: rest) accounts =
            (d.cancel inv user (d.plan token current) plan old accounts >>= fun mid =>
              d.settle inv user (.live (d.plan token tier) :: tokens.flatMap fun token =>
                [.ended (d.plan token current), .live (d.plan token tier)]) rest mid) := rfl
      rw [hunfold]
      obtain hrefused | ⟨-, mid, hcancel, hfirst⟩ := cancel_outcome plan old hcanonical hends
        ⟨token, htoken, current, hcurrent, rfl⟩ hsigned
      · rw [hrefused]
        match rest with
        | [] => rfl
        | new :: rest =>
          rw [changeTierEach, planAt_eq htoken hcurrent, ok_bind, hrefused]
          rfl
      · rw [hcancel, ok_bind]
        match rest with
        | [] => rfl
        | new :: rest =>
          rw [changeTierEach, planAt_eq htoken hcurrent, ok_bind, hcancel, ok_bind,
            planAt_eq htoken htier, ok_bind]
          simp only [ih hfirst.canonical fun t ht => htokens t (by simp [ht])]
          rfl

theorem enabled_lt {mask : UInt8} :
    ∀ token ∈ (List.range paymentTokenCount).filter (enabled mask), token < paymentTokenCount :=
  fun _ h => List.mem_range.mp (List.mem_filter.mp h).1

theorem PlanChange.Permitted.tier_lt {config : Config} {newTier : UInt8}
    (h : (PlanChange.changeTier newTier).Permitted config u) : newTier.toNat < 2 := by
  obtain ⟨cap, hcap, -⟩ := h
  exact Laterite.tier_lt hcap

/-- A permitted change of an enrolled user is its walk, then a write that keeps the walk's
accounts. -/
theorem PlanChange.execute_eq (change : PlanChange) (listed : List Pubkey) {config : Config}
    (hends : d.EndsAtOnce inv) (hcanonical : d.Canonical chain.accounts) (hconfig : chain.config = some config)
    (huser : userOnly inv chain user = .ok u) (hvalid : u.settings.Valid)
    (hpermitted : change.Permitted config u) :
    ∃ finish : Accounts → Executed, (∀ a, (finish a).2.accounts = a) ∧
      execute d inv chain (change.call user listed) =
        (d.settle inv user (change.demands d u) listed chain.accounts >>= fun a => .ok (finish a)) := by
  have hload : chain.loadConfig = .ok config := (Chain.loadConfig_eq_ok _).mpr hconfig
  have hsigned := (userOnly_eq_ok.mp huser).1
  have hcurrent : u.tier.toNat < 2 := hvalid.tier
  cases change with
  | exit =>
    refine ⟨fun a => (some (.exited u.user), ((chain.setAccounts a).setConfig
      { config with userCount := config.userCount.saturatingSub 1 }).setUserConfig user
        { u.setSettings EnrollParams.default with pending := 0, status := .exited }), fun _ => rfl, ?_⟩
    rw [PlanChange.call, execute, Laterite.exit, hload, ok_bind, huser, ok_bind, enabledTokens_eq,
      ok_bind, exitEach_eq hcurrent enabled_lt, PlanChange.demands]
    cases d.settle inv user _ listed chain.accounts <;> rfl
  | changeTier newTier =>
    have htier := hpermitted.tier_lt
    obtain ⟨cap, hcap, hne, hbeta, hengine⟩ := hpermitted
    refine ⟨fun a => (some (.tierChanged user newTier),
      (chain.setAccounts a).setUserConfig user { u with tier := newTier }), fun _ => rfl, ?_⟩
    rw [PlanChange.call, execute, Laterite.changeTier, hload, ok_bind, huser, ok_bind, hcap]
    simp only [okOr, ok_bind, require_of hne, require_of hbeta, require_of hengine, enabledTokens_eq]
    rw [changeTierEach_eq hends hsigned hcanonical hcurrent htier enabled_lt, PlanChange.demands]
    cases d.settle inv user _ listed chain.accounts <;> rfl
  | changePaymentTokens mask =>
    obtain ⟨hne, hknown⟩ := hpermitted
    refine ⟨fun a => (some (.paymentTokensChanged user mask),
      (chain.setAccounts a).setUserConfig user
        { (if mask &&& ~~~u.paymentTokens ≠ 0 then u.raiseAttestableFrom inv.now else u) with
          paymentTokens := mask }), fun _ => rfl, ?_⟩
    rw [PlanChange.call, execute, Laterite.changePaymentTokens, huser, ok_bind, require_of hne,
      ok_bind, require_of (knownTokens_iff.mpr hknown), ok_bind,
      changePaymentTokensEach_eq hcurrent fun _ => List.mem_range.mp, PlanChange.demands]
    cases d.settle inv user _ listed chain.accounts <;> rfl

theorem PlanChange.permitted_of_ok {change : PlanChange} {config : Config} {event : Option Event}
    (h : execute d inv chain (change.call user listed) = .ok (event, after))
    (hconfig : chain.config = some config) (hu : chain.userConfigs user = some u) :
    change.Permitted config u := by
  cases change <;> simp only [PlanChange.call, execute, emitting_eq_ok] at h
  case exit => exact trivial
  case changeTier =>
    obtain ⟨_, -, h⟩ := h
    obtain ⟨c, v, cap, _, hc, huser, hcap, hne, hbeta, hengine, -⟩ := changeTier_ok h
    obtain rfl := Option.some.inj (hconfig.symm.trans hc)
    obtain rfl := Option.some.inj (hu.symm.trans (userOnly_eq_ok.mp huser).2.1)
    exact ⟨cap, hcap, hne, hbeta, hengine⟩
  case changePaymentTokens =>
    obtain ⟨_, -, h⟩ := h
    obtain ⟨_, _, -, hne, hknown, -⟩ := changePaymentTokens_ok h
    exact ⟨hne, knownTokens_iff.mp hknown⟩

theorem PlanChange.vaultPlan (change : PlanChange) (hvalid : u.settings.Valid) {plan : Pubkey}
    (h : .ended plan ∈ change.demands d u) : d.VaultPlan plan := by
  have hcurrent : u.tier.toNat < 2 := hvalid.tier
  cases change with
  | exit =>
    obtain ⟨token, htoken, heq⟩ := List.mem_map.mp h
    exact ⟨token, enabled_lt token htoken, _, hcurrent, Demand.ended.inj heq⟩
  | changeTier =>
    obtain ⟨token, htoken, heq⟩ := List.mem_flatMap.mp h
    simp only [List.mem_cons, Demand.ended.injEq, reduceCtorEq, List.not_mem_nil, or_false] at heq
    exact ⟨token, enabled_lt token htoken, _, hcurrent, heq.symm⟩
  | changePaymentTokens =>
    obtain ⟨token, htoken, heq⟩ := List.mem_flatMap.mp h
    split at heq
    · exact ⟨token, List.mem_range.mp htoken, _, hcurrent, (Demand.ended.inj (List.mem_singleton.mp heq)).symm⟩
    · split at heq <;> simp at heq

theorem PlanChange.exit_demands (hvalid : u.settings.Valid) :
    ∀ demand ∈ PlanChange.exit.demands d u, ∃ plan, demand = .ended plan ∧ d.VaultPlan plan := by
  intro demand h
  obtain ⟨token, -, rfl⟩ := List.mem_map.mp h
  exact ⟨_, rfl, PlanChange.exit.vaultPlan hvalid h⟩

theorem PlanChange.ended_notMem {change : PlanChange} {config : Config} (hplans : d.SeparatePlans)
    (hvalid : u.settings.Valid) (hpermitted : change.Permitted config u) {plan : Pubkey}
    (hlive : .live plan ∈ change.demands d u) : .ended plan ∉ change.demands d u := by
  have hcurrent : u.tier.toNat < 2 := hvalid.tier
  intro hended
  cases change with
  | exit =>
    obtain ⟨_, -, heq⟩ := List.mem_map.mp hlive
    cases heq
  | changeTier newTier =>
    have htier := hpermitted.tier_lt
    obtain ⟨-, -, hne, -⟩ := hpermitted
    obtain ⟨t, ht, hadded⟩ := List.mem_flatMap.mp hlive
    obtain ⟨t', ht', hdropped⟩ := List.mem_flatMap.mp hended
    simp only [List.mem_cons, Demand.ended.injEq, Demand.live.injEq, reduceCtorEq, List.not_mem_nil,
      or_false, false_or] at hadded hdropped
    have hsame := hplans t _ t' _ (enabled_lt t ht) htier (enabled_lt t' ht') hcurrent
      (hadded.symm.trans hdropped)
    exact hne (UInt8.toNat_inj.mp hsame.2)
  | changePaymentTokens mask =>
    obtain ⟨t, ht, hadded⟩ := List.mem_flatMap.mp hlive
    obtain ⟨t', ht', hdropped⟩ := List.mem_flatMap.mp hended
    split at hadded
    · simp at hadded
    · split at hadded
      · rename_i hnew
        split at hdropped
        · rename_i hold
          simp only [List.mem_singleton, Demand.live.injEq, Demand.ended.injEq] at hadded hdropped
          obtain ⟨rfl, -⟩ := hplans t _ t' _ (List.mem_range.mp ht) hcurrent (List.mem_range.mp ht')
            hcurrent (hadded.symm.trans hdropped)
          simp only [Bool.and_eq_true, Bool.not_eq_true'] at hnew hold
          exact Bool.false_ne_true (hnew.1.symm.trans hold.1)
        · split at hdropped <;> simp at hdropped
      · simp at hadded

namespace Rehearsal

theorem bump_of_read {accounts : Accounts} {key : Pubkey} {state : SubscriptionDelegation}
    (h : deployment.readSubscription (accounts.info key) = some state) : state.bump = 255 := by
  unfold Deployment.readSubscription at h
  split at h
  · cases h
  · change readSubscriptionData _ = _ at h
    unfold readSubscriptionData at h
    split at h
    · cases h
      rfl
    · cases h

theorem canonical (accounts : Accounts) : deployment.Canonical accounts := by
  intro plan user key state h
  have hbump := bump_of_read h
  change (if state.bump = 255 then some _ else none) = some key ↔ _
  rw [if_pos hbump, Option.some.injEq]
  rfl

theorem separateSubscriptions : deployment.SeparateSubscriptions := by
  intro plan plan' user h
  change Vector.zipWith (· + ·) plan user = Vector.zipWith (· + ·) plan' user at h
  refine Vector.ext fun i hi => ?_
  have hi' := congrArg (fun v : Pubkey => v[i]) h
  simpa using hi'

theorem separatePlans : deployment.SeparatePlans := by
  have h : ∀ token tier token' tier' : Fin 2,
      deployment.plan token tier = deployment.plan token' tier' → token = token' ∧ tier = tier' := by
    decide +kernel
  intro token tier token' tier' ht htier ht' htier' heq
  obtain ⟨htoken, htiers⟩ := h ⟨token, ht⟩ ⟨tier, htier⟩ ⟨token', ht'⟩ ⟨tier', htier'⟩ heq
  exact ⟨congrArg Fin.val htoken, congrArg Fin.val htiers⟩

theorem endsAtOnce (inv : Invocation) (hprograms : inv.programs = programs) (hnow : 1 ≤ inv.now) :
    deployment.EndsAtOnce inv := by
  intro plan user state accounts _ _ hread _
  unfold Deployment.readSubscription at hread
  split at hread
  · cases hread
  · rename_i howner
    change readSubscriptionData (accounts (deployment.subscriptionOf plan user)).data = _ at hread
    generalize hkey : deployment.subscriptionOf plan user = key at hread howner ⊢
    unfold readSubscriptionData at hread
    split at hread
    · rename_i dollars pulled expiry hdata
      obtain rfl := Option.some.inj hread
      refine ⟨Function.update accounts key { accounts key with data := [dollars, pulled, 1] },
        (readSubscriptionData [dollars, pulled, 1]).get rfl, ?_, ?_, rfl, ?_, ?_, ?_⟩
      · rw [hprograms]
        change cancel _ accounts = _
        simp [cancel, hdata]
      · rw [Accounts.info, Function.update_self]
        exact if_neg howner
      · exact one_ne_zero
      · exact hnow
      · exact fun other hother => Function.update_of_ne hother _ _
    · cases hread

end Rehearsal

section Reachable

variable {initial : Accounts} {history : List (Transition Chain Happening)}

/-- There is a config as soon as there is a user who has not exited. -/
theorem ProgramRun.exists_config (user : Pubkey) (run : ProgramRun d initial history chain)
    (hseated : Seated (chain.userConfigs user)) : ∃ config, chain.config = some config := by
  have hcount := CountedKeys.one_le_of_mem run.countsSeats hseated
  cases hc : chain.config with
  | some config => exact ⟨config, rfl⟩
  | none => simp [Chain.userCount, hc] at hcount

/-- For a user who has not exited, whatever the state of their subscriptions: leaving with the
canonical accounts succeeds. A change that succeeds leaves nothing to pull, then or later, from
the user's subscriptions to the plans it drops, and a live subscription of the user's own to
each plan it adds. A permitted change whose list does not start with its accounts in order is
refused with `SubscriptionMismatch` and changes nothing. -/
theorem ending_subscriptions (run : ProgramRun d initial history chain)
    (hseparate : d.SeparateSubscriptions) (hplans : d.SeparatePlans)
    (hcanonical : d.Canonical chain.accounts) (hends : d.EndsAtOnce inv)
    (hsigned : user ∈ inv.signers.keys) (hu : chain.userConfigs user = some u)
    (hnotExited : u.status ≠ .exited) :
    (∀ extra, ∃ event after,
      execute d inv chain (.exit user (PlanChange.exit.accounts d user u ++ extra)) =
        .ok (event, after)) ∧
    (∀ (change : PlanChange) listed event after,
      execute d inv chain (change.call user listed) = .ok (event, after) →
        (∀ plan, .ended plan ∈ change.demands d u → ∀ key,
          key = d.subscriptionOf plan user ∨ d.HoldsSubscription after.accounts plan user key →
            ∀ now, inv.now ≤ now → d.remaining (after.accounts.info key) now = 0) ∧
        (∀ plan, .live plan ∈ change.demands d u →
          d.isLive (after.accounts.info (d.subscriptionOf plan user)) plan user = true)) ∧
    (∀ (change : PlanChange) listed config, chain.config = some config →
      change.Permitted config u → ¬change.accounts d user u <+: listed →
        submit d inv chain (change.call user listed) =
          (.error (.error (.laterite .subscriptionMismatch)), chain)) := by
  have hvalid := run.usersValid user u hu hnotExited
  have huser : userOnly inv chain user = .ok u := userOnly_eq_ok.mpr ⟨hsigned, hu, hnotExited⟩
  obtain ⟨config, hconfig⟩ := run.exists_config user (hu ▸ seated_some.mpr hnotExited)
  have houtcome := fun (change : PlanChange) (listed : List Pubkey) =>
    settle_outcome listed hends hseparate hsigned hcanonical fun _ => change.vaultPlan hvalid
  refine ⟨fun extra => ?_, fun change listed event after h => ?_,
    fun change listed c hc hpermitted hlisted => ?_⟩
  · obtain ⟨finish, -, hexecute⟩ :=
      PlanChange.exit.execute_eq (PlanChange.exit.accounts d user u ++ extra) hends hcanonical hconfig
        huser hvalid trivial
    obtain ⟨settled, hsettled⟩ := exists_settle hends hsigned hcanonical
      (PlanChange.exit_demands hvalid) extra
    rw [PlanChange.accounts, hsettled, ok_bind] at hexecute
    exact ⟨_, _, hexecute⟩
  · have hpermitted := PlanChange.permitted_of_ok h hconfig hu
    obtain ⟨finish, hfinish, hexecute⟩ :=
      change.execute_eq listed hends hcanonical hconfig huser hvalid hpermitted
    rw [hexecute] at h
    obtain hrefused | ⟨-, settled, hok, hsettled⟩ := houtcome change listed
    · simp [hrefused] at h
    · rw [hok, ok_bind, Except.ok.injEq] at h
      have hafter : after.accounts = settled := by
        rw [← hfinish settled, h]
      rw [hafter]
      constructor
      · rintro plan hplan key hkey now hnow
        obtain rfl : d.subscriptionOf plan user = key := by
          obtain rfl | hholds := hkey
          · rfl
          · exact hsettled.canonical.of_holds hholds
        exact (hsettled.ended plan hplan).remaining hnow
      · exact fun plan hplan =>
          hsettled.live plan hplan (PlanChange.ended_notMem hplans hvalid hpermitted hplan)
  · obtain ⟨finish, -, hexecute⟩ :=
      change.execute_eq listed hends hcanonical hc huser hvalid hpermitted
    obtain hrefused | ⟨hstarts, -⟩ := houtcome change listed
    · rw [submit, hexecute, hrefused, error_bind]
    · exact absurd hstarts hlisted

theorem ending_subscriptions_rehearsed :
    ∃ u event after, (Rehearsal.ledger Rehearsal.beginnings).userConfigs Rehearsal.user = some u ∧
      execute Rehearsal.deployment Rehearsal.leaving.1 (Rehearsal.ledger Rehearsal.beginnings)
        (.exit Rehearsal.user (PlanChange.exit.accounts Rehearsal.deployment Rehearsal.user u ++ [])) =
          .ok (event, after) := by
  have hactive : ((Rehearsal.ledger Rehearsal.beginnings).userConfigs Rehearsal.user).any
      (fun u => u.status = .active) = true := by
    decide +kernel
  obtain ⟨u, hu, hstatus⟩ := (Option.any_eq_true _ _).mp hactive
  have hnotExited : u.status ≠ .exited := by
    rw [of_decide_eq_true hstatus]
    decide
  obtain ⟨hleaves, -⟩ := ending_subscriptions (Rehearsal.ledger_run Rehearsal.beginnings (by decide))
    Rehearsal.separateSubscriptions Rehearsal.separatePlans (Rehearsal.canonical _)
    (Rehearsal.endsAtOnce Rehearsal.leaving.1 rfl (by decide)) (List.mem_singleton_self _) hu hnotExited
  obtain ⟨event, after, hok⟩ := hleaves []
  exact ⟨u, event, after, hu, hok⟩

end Reachable

end Laterite
