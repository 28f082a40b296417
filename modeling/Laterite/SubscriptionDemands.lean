import Laterite.AbortFreedom

/-!
# Ending and requiring subscriptions

Leaving, changing tier and changing tokens each ask for a list of things: subscriptions that
end and subscriptions that must be live. One walk over the demands says what the three loops
of the program do with the accounts they are given, whatever the state of each subscription,
as long as Subscriptions keeps every subscription at its own canonical address and ends one
when its user and its plan's owner ask.
-/

namespace Laterite

open CheckedComputation

/-- What a control asks of one of the user's subscriptions. -/
inductive Demand where
  | ended (plan : Pubkey)
  | live (plan : Pubkey)
  deriving DecidableEq

namespace Deployment

variable (d : Deployment)

def subscriptionOf (plan user : Pubkey) : Pubkey := (d.findPda plan user).1

def answer (user : Pubkey) : Demand → List Pubkey
  | .ended plan => [plan, d.subscriptionOf plan user]
  | .live plan => [d.subscriptionOf plan user]

/-- The account holds `user`'s subscription to `plan`, at the address its stored bump derives. -/
def HoldsSubscription (accounts : Accounts) (plan user key : Pubkey) : Prop :=
  ∃ state, d.readSubscription (accounts.info key) = some state ∧
    d.createPda plan user state.bump = some key

/-- Every subscription is at its canonical address: what its stored bump derives is what the
search finds. -/
def Canonical (accounts : Accounts) : Prop :=
  ∀ plan user key state, d.readSubscription (accounts.info key) = some state →
    (d.createPda plan user state.bump = some key ↔ d.subscriptionOf plan user = key)

/-- One of the plans the vault publishes: a payment token's at a tier. -/
def VaultPlan (plan : Pubkey) : Prop :=
  ∃ token < paymentTokenCount, ∃ tier < 2, d.plan token tier = plan

def Ended (accounts : Accounts) (now : ℤ) (key : Pubkey) : Prop :=
  ∀ state, d.readSubscription (accounts.info key) = some state →
    state.expiresAtTs ≠ 0 ∧ state.expiresAtTs ≤ now

/-- Different subscriptions of a user have different addresses. -/
def SeparateSubscriptions : Prop :=
  ∀ plan plan' user, d.subscriptionOf plan user = d.subscriptionOf plan' user → plan = plan'

/-- Subscriptions ends a subscription to a plan of the vault at once when its user and the
vault sign for it with the period start the account holds: the account then holds it expired,
at the same bump, and no other account changes. -/
def EndsAtOnce (inv : Invocation) : Prop :=
  ∀ plan user state accounts, d.VaultPlan plan → user ∈ inv.signers.keys →
    d.readSubscription (accounts.info (d.subscriptionOf plan user)) = some state →
    (state.expiresAtTs ≠ 0 → inv.now < state.expiresAtTs) →
    ∃ after ended, inv.programs.cancelSubscriptionNow
        ⟨user, d.vault, plan, d.subscriptionOf plan user, state.currentPeriodStartTs⟩ accounts =
          some after ∧
      d.readSubscription (after.info (d.subscriptionOf plan user)) = some ended ∧
      ended.bump = state.bump ∧ ended.expiresAtTs ≠ 0 ∧ ended.expiresAtTs ≤ inv.now ∧
      ∀ key, key ≠ d.subscriptionOf plan user → after key = accounts key

def settle (inv : Invocation) (user : Pubkey) : List Demand → List Pubkey → Accounts → Result Accounts
  | [], _, accounts => return accounts
  | .ended plan :: demands, listed, accounts => do
    let planAccount ← okOr listed[0]? LateriteError.subscriptionMismatch
    let subscription ← okOr listed[1]? LateriteError.subscriptionMismatch
    let accounts ← d.cancel inv user plan planAccount subscription accounts
    settle inv user demands (listed.drop 2) accounts
  | .live plan :: demands, listed, accounts => do
    let subscription ← okOr listed[0]? LateriteError.subscriptionMismatch
    require (d.isLive (accounts.info subscription) plan user) LateriteError.subscriptionMismatch
    settle inv user demands (listed.drop 1) accounts

variable {d} {inv : Invocation} {user plan planAccount subscription key : Pubkey}
  {accounts after : Accounts} {now now' : ℤ} {demands : List Demand} {listed : List Pubkey}

/-- What has ended allows nothing more, then and ever after. -/
theorem Ended.remaining (h : d.Ended accounts now key) (hnow : now ≤ now') :
    d.remaining (accounts.info key) now' = 0 := by
  unfold Deployment.remaining
  split
  · rfl
  · rename_i state hread
    obtain ⟨hne, hle⟩ := h state hread
    exact if_pos ⟨hne, hle.trans hnow⟩

theorem Ended.congr (h : d.Ended accounts now key) (hsame : after key = accounts key) :
    d.Ended after now key := by
  unfold Ended Accounts.info
  rw [hsame]
  exact h

theorem isLive_congr (hsame : after key = accounts key) :
    d.isLive (after.info key) plan user = d.isLive (accounts.info key) plan user := by
  unfold Accounts.info
  rw [hsame]

theorem isLive_iff {account : AccountInfo} :
    d.isLive account plan user = true ↔ ∃ state, d.readSubscription account = some state ∧
      state.expiresAtTs = 0 ∧ d.createPda plan user state.bump = some account.key := by
  unfold isLive
  cases d.readSubscription account <;> simp

theorem Canonical.of_isLive (hcanonical : d.Canonical accounts)
    (h : d.isLive (accounts.info key) plan user = true) : d.subscriptionOf plan user = key := by
  obtain ⟨state, hread, -, hcreated⟩ := isLive_iff.mp h
  exact (hcanonical plan user key state hread).mp hcreated

theorem Canonical.of_holds (hcanonical : d.Canonical accounts)
    (h : d.HoldsSubscription accounts plan user key) : d.subscriptionOf plan user = key := by
  obtain ⟨state, hread, hcreated⟩ := h
  exact (hcanonical plan user key state hread).mp hcreated

theorem Canonical.update {state ended : SubscriptionDelegation} (hcanonical : d.Canonical accounts)
    (hread : d.readSubscription (accounts.info key) = some state)
    (hended : d.readSubscription (after.info key) = some ended) (hbump : ended.bump = state.bump)
    (hframe : ∀ other, other ≠ key → after other = accounts other) : d.Canonical after := by
  intro plan user other found hfound
  by_cases hother : other = key
  · subst hother
    obtain rfl := Option.some.inj (hended.symm.trans hfound)
    rw [hbump]
    exact hcanonical plan user other state hread
  · refine hcanonical plan user other found ?_
    unfold Accounts.info at hfound ⊢
    rwa [hframe other hother] at hfound

/-- What ending a subscription leaves: it has ended, and nothing else changed. -/
structure Cancelled (d : Deployment) (now : ℤ) (accounts : Accounts) (key : Pubkey)
    (after : Accounts) : Prop where
  canonical : d.Canonical after
  ended : d.Ended after now key
  frame : ∀ other, other ≠ key → after other = accounts other

theorem exists_cancelled (hcanonical : d.Canonical accounts) (hends : d.EndsAtOnce inv)
    (hplan : d.VaultPlan plan) (hsigned : user ∈ inv.signers.keys) :
    ∃ after, d.cancel inv user plan plan (d.subscriptionOf plan user) accounts = .ok after ∧
      Cancelled d inv.now accounts (d.subscriptionOf plan user) after := by
  cases hread : d.readSubscription (accounts.info (d.subscriptionOf plan user)) with
  | none =>
    refine ⟨accounts, ?_, hcanonical, by simp [Ended, hread], fun _ _ => rfl⟩
    rw [cancel, require_of rfl, ok_bind, hread]
    dsimp only
    rw [require_of (show (d.findPda plan user).1 = d.subscriptionOf plan user from rfl)]
    rfl
  | some state =>
    have hcreated := (hcanonical plan user _ state hread).mpr rfl
    by_cases hexpired : state.expiresAtTs ≠ 0 ∧ state.expiresAtTs ≤ inv.now
    · refine ⟨accounts, ?_, hcanonical, ?_, fun _ _ => rfl⟩
      · simp [cancel, hread, require_of, hcreated, hexpired, pure, Except.pure]
      · rintro found hfound
        obtain rfl := Option.some.inj (hread.symm.trans hfound)
        exact hexpired
    · obtain ⟨after, ended, hcall, hended, hbump, hne, hle, hframe⟩ :=
        hends plan user state accounts hplan hsigned hread fun hne => not_le.mp fun hle =>
          hexpired ⟨hne, hle⟩
      have hsame : (fun key => if key ∈ [user, d.vault, plan, d.subscriptionOf plan user] then
          after key else accounts key) = after := by
        funext key
        by_cases hkey : key = d.subscriptionOf plan user
        · simp [hkey]
        · simp [hframe key hkey]
      refine ⟨after, ?_, hcanonical.update hread hended hbump hframe, ?_, hframe⟩
      · rw [cancel, require_of rfl, ok_bind, hread]
        simp only [hcreated, require_of, ok_bind, hexpired, if_false]
        exact invoke_eq_ok.mpr ⟨after, hcall, hsame⟩
      · rintro found hfound
        obtain rfl := Option.some.inj (hended.symm.trans hfound)
        exact ⟨hne, hle⟩

theorem cancel_refused (hcanonical : d.Canonical accounts)
    (hother : ¬(planAccount = plan ∧ subscription = d.subscriptionOf plan user)) :
    d.cancel inv user plan planAccount subscription accounts =
      .error (.error (.laterite .subscriptionMismatch)) := by
  unfold cancel
  by_cases hplan : planAccount = plan
  · have hne : ¬d.subscriptionOf plan user = subscription := fun h => hother ⟨hplan, h.symm⟩
    rw [require_of hplan, ok_bind]
    cases hread : d.readSubscription (accounts.info subscription) with
    | none =>
      dsimp only
      rw [require_of_not (show ¬(d.findPda plan user).1 = subscription from hne)]
      rfl
    | some state =>
      have hcreated : ¬d.createPda plan user state.bump = some subscription := fun h =>
        hne ((hcanonical plan user subscription state hread).mp h)
      dsimp only
      rw [require_of_not hcreated]
      rfl
  · rw [require_of_not hplan]
    rfl

theorem cancel_outcome (planAccount subscription : Pubkey) (hcanonical : d.Canonical accounts)
    (hends : d.EndsAtOnce inv) (hplan : d.VaultPlan plan) (hsigned : user ∈ inv.signers.keys) :
    d.cancel inv user plan planAccount subscription accounts =
        .error (.error (.laterite .subscriptionMismatch)) ∨
      (planAccount = plan ∧ subscription = d.subscriptionOf plan user) ∧
        ∃ after, d.cancel inv user plan planAccount subscription accounts = .ok after ∧
          Cancelled d inv.now accounts (d.subscriptionOf plan user) after := by
  by_cases hnamed : planAccount = plan ∧ subscription = d.subscriptionOf plan user
  · obtain ⟨rfl, rfl⟩ := hnamed
    exact .inr ⟨⟨rfl, rfl⟩, exists_cancelled hcanonical hends hplan hsigned⟩
  · exact .inl (cancel_refused hcanonical hnamed)

/-- What meeting the demands leaves: every plan to end has no running subscription of the
user, every other plan asked for has a live one, and only subscriptions to end changed. -/
structure Settled (d : Deployment) (now : ℤ) (user : Pubkey) (demands : List Demand)
    (accounts after : Accounts) : Prop where
  canonical : d.Canonical after
  ended : ∀ plan, .ended plan ∈ demands → d.Ended after now (d.subscriptionOf plan user)
  live : ∀ plan, .live plan ∈ demands → .ended plan ∉ demands →
    d.isLive (after.info (d.subscriptionOf plan user)) plan user = true
  frame : ∀ key, (∀ plan, .ended plan ∈ demands → d.subscriptionOf plan user ≠ key) →
    after key = accounts key

variable {mid : Accounts}

theorem Settled.nil (hcanonical : d.Canonical accounts) :
    Settled d now user [] accounts accounts :=
  ⟨hcanonical, by simp, by simp, fun _ _ => rfl⟩

theorem Settled.cons_ended (hfirst : Cancelled d now accounts (d.subscriptionOf plan user) mid)
    (hrest : Settled d now user demands mid after) :
    Settled d now user (.ended plan :: demands) accounts after where
  canonical := hrest.canonical
  ended := by
    intro other hother
    by_cases hlater : ∃ p, .ended p ∈ demands ∧ d.subscriptionOf p user = d.subscriptionOf other user
    · obtain ⟨p, hp, hsame⟩ := hlater
      exact hsame ▸ hrest.ended p hp
    · have hkept := hrest.frame (d.subscriptionOf other user) fun p hp hsame => hlater ⟨p, hp, hsame⟩
      rcases List.mem_cons.mp hother with heq | hother
      · obtain rfl := Demand.ended.inj heq
        exact hfirst.ended.congr hkept
      · exact absurd ⟨other, hother, rfl⟩ hlater
  live := by
    intro other hlive hnot
    rw [List.mem_cons, not_or] at hnot
    exact hrest.live other (by simpa using hlive) hnot.2
  frame := by
    intro key hkey
    rw [hrest.frame key fun p hp => hkey p (by simp [hp])]
    exact hfirst.frame key fun heq => hkey plan (by simp) heq.symm

/-- Finding a live subscription first: nothing the rest ends is that one. -/
theorem Settled.cons_live (hseparate : d.SeparateSubscriptions)
    (hfirst : d.isLive (accounts.info (d.subscriptionOf plan user)) plan user = true)
    (hrest : Settled d now user demands accounts after) :
    Settled d now user (.live plan :: demands) accounts after where
  canonical := hrest.canonical
  ended := fun other hother => hrest.ended other (by simpa using hother)
  live := by
    intro other hlive hnot
    have hnot' : Demand.ended other ∉ demands := fun h => hnot (by simp [h])
    rcases List.mem_cons.mp hlive with heq | hlive
    · obtain rfl := Demand.live.inj heq
      rw [isLive_congr (hrest.frame _ fun p hp hsame => hnot' (hseparate p other user hsame ▸ hp))]
      exact hfirst
    · exact hrest.live other hlive hnot'
  frame := fun key hkey => hrest.frame key fun p hp => hkey p (by simp [hp])

/-- The walk either refuses with `SubscriptionMismatch`, or was listed the demands' accounts
in order and settled them all. -/
theorem settle_outcome (listed : List Pubkey) (hends : d.EndsAtOnce inv)
    (hseparate : d.SeparateSubscriptions) (hsigned : user ∈ inv.signers.keys)
    (hcanonical : d.Canonical accounts) (hplans : ∀ plan, .ended plan ∈ demands → d.VaultPlan plan) :
    d.settle inv user demands listed accounts =
        .error (.error (.laterite .subscriptionMismatch)) ∨
      demands.flatMap (d.answer user) <+: listed ∧
        ∃ after, d.settle inv user demands listed accounts = .ok after ∧
          Settled d inv.now user demands accounts after := by
  induction demands generalizing listed accounts with
  | nil => exact .inr ⟨List.nil_prefix, accounts, rfl, .nil hcanonical⟩
  | cons demand demands ih =>
    have hplans' : ∀ plan, .ended plan ∈ demands → d.VaultPlan plan :=
      fun plan hp => hplans plan (by simp [hp])
    cases demand with
    | ended plan =>
      match listed with
      | [] | [_] => exact .inl rfl
      | planAccount :: subscription :: rest =>
        have hunfold : d.settle inv user (.ended plan :: demands)
            (planAccount :: subscription :: rest) accounts =
              (d.cancel inv user plan planAccount subscription accounts >>= fun mid =>
                d.settle inv user demands rest mid) := rfl
        rw [hunfold]
        obtain hrefused | ⟨⟨rfl, rfl⟩, mid, hcancel, hfirst⟩ := cancel_outcome planAccount
          subscription hcanonical hends (hplans plan (by simp)) hsigned
        · exact .inl (by rw [hrefused]; rfl)
        · rw [hcancel, ok_bind]
          obtain hrefused | ⟨hlisted, after, hok, hrest⟩ := ih rest hfirst.canonical hplans'
          · exact .inl hrefused
          · refine .inr ⟨?_, after, hok, .cons_ended hfirst hrest⟩
            obtain ⟨extra, rfl⟩ := hlisted
            exact ⟨extra, rfl⟩
    | live plan =>
      match listed with
      | [] => exact .inl rfl
      | subscription :: rest =>
        have hunfold : d.settle inv user (.live plan :: demands) (subscription :: rest) accounts =
            ((require (d.isLive (accounts.info subscription) plan user)
              (.laterite .subscriptionMismatch) : Result Unit) >>= fun _ =>
                d.settle inv user demands rest accounts) := rfl
        rw [hunfold]
        by_cases hlive : d.isLive (accounts.info subscription) plan user = true
        · have hnamed := hcanonical.of_isLive hlive
          subst hnamed
          rw [require_of hlive, ok_bind]
          obtain hrefused | ⟨hlisted, after, hok, hrest⟩ := ih rest hcanonical hplans'
          · exact .inl hrefused
          · refine .inr ⟨?_, after, hok, .cons_live hseparate hlive hrest⟩
            obtain ⟨extra, rfl⟩ := hlisted
            exact ⟨extra, rfl⟩
        · exact .inl (by rw [require_of_not hlive]; rfl)

theorem exists_settle (hends : d.EndsAtOnce inv) (hsigned : user ∈ inv.signers.keys)
    (hcanonical : d.Canonical accounts)
    (honly : ∀ demand ∈ demands, ∃ plan, demand = .ended plan ∧ d.VaultPlan plan)
    (extra : List Pubkey) :
    ∃ after, d.settle inv user demands (demands.flatMap (d.answer user) ++ extra) accounts =
      .ok after := by
  induction demands generalizing accounts with
  | nil => exact ⟨accounts, rfl⟩
  | cons demand demands ih =>
    obtain ⟨plan, rfl, hplan⟩ := honly demand (by simp)
    obtain ⟨mid, hcancel, hfirst⟩ := exists_cancelled hcanonical hends hplan hsigned
    obtain ⟨after, hok⟩ := ih hfirst.canonical fun p hp => honly p (by simp [hp])
    refine ⟨after, ?_⟩
    change (d.cancel inv user plan plan (d.subscriptionOf plan user) accounts >>= _) = _
    rw [hcancel]
    exact hok

end Deployment

end Laterite
