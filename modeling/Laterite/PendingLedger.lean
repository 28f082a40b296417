import Laterite.ReplayedRuns
import Laterite.SweepBookkeeping

/-!
# The pending ledger

Attested transfers credit a user's pending amount; sweeps, `lowerPending` and leaving take
from it. Over every run the two sides agree, up to what the saturating credit clips.
-/

namespace Laterite

open CheckedComputation TimedRuns

/-- The pending amount of a settings account, none before enrollment. -/
def pendingOf (s : Option UserConfig) : ℕ := s.elim 0 fun u => u.pending.toNat

variable (t : Transition (Option UserConfig) UserAction)

def credited : ℕ :=
  match t.event with
  | .attest _ invested => invested.toNat
  | _ => 0

def pulledPending : ℕ :=
  match t.event with
  | .sweep _ event => event.pending.toNat
  | _ => 0

def lowered : ℕ :=
  match t.event with
  | .lowerPending pending => pendingOf t.before - pending.toNat
  | _ => 0

def discarded : ℕ :=
  match t.event with
  | .exit => pendingOf t.before
  | _ => 0

/-- The credit did not fit the pending amount's word. -/
def Clips : Prop := 2 ^ 64 ≤ pendingOf t.before + credited t

variable {t} {user : Pubkey} {u : UserConfig}
  {h : List (Transition (Option UserConfig) UserAction)} {s : Option UserConfig}

@[simp] theorem pendingOf_some (u : UserConfig) : pendingOf (some u) = u.pending.toNat := rfl

@[simp] theorem pendingOf_none : pendingOf none = 0 := rfl

theorem UserConfig.Sweepable.pending_swept {now : ℤ} {config : Config} {event : Swept}
    {balance total : UInt64} (hs : u.Sweepable now config event balance total) :
    (u.swept event.paymentToken.toNat event.pull total now).pending.toNat + event.pending.toNat =
      u.pending.toNat := by
  have hle := hs.allows.pending
  have heq : (u.swept event.paymentToken.toNat event.pull total now).pending.toNat =
      u.pending.toNat - event.pending.toNat := UInt64.toNat_saturatingSub _ _
  unfold Swept.pull at hle
  dsimp only at hle
  omega

theorem UserStep.pending_balance (ht : UserStep user t) :
    pendingOf t.after + (pulledPending t + lowered t + discarded t) =
      min (pendingOf t.before + credited t) (2 ^ 64 - 1) := by
  cases ht with
  | enroll => simp [pulledPending, lowered, discarded, credited, UserConfig.enrolled]
  | @attest now u attestation invested pending _ _ _ _ _ _ _ credited_eq =>
    have hsum := UInt64.toNat_saturatingAdd u.pending invested
    simp [pulledPending, lowered, discarded, credited, credited_eq, hsum]
  | @sweep now u config event balance total sweepable =>
    have hsum := sweepable.pending_swept
    have hlt := u.pending.toNat_lt
    simp only [pulledPending, lowered, discarded, credited, pendingOf_some]
    omega
  | @lowerPending now u pending notExited lower =>
    have hlt := u.pending.toNat_lt
    have hle := UInt64.le_iff_toNat_le.mp lower
    simp only [pulledPending, lowered, discarded, credited, pendingOf_some]
    omega
  | @exit now u =>
    have hlt := u.pending.toNat_lt
    simp only [pulledPending, lowered, discarded, credited, pendingOf_some, UInt64.toNat_zero]
    omega
  | @updateSettings now u | @pause now u | @resume now u | @changeTier now u
  | @changePaymentTokens now u | @reactivate now u =>
    have hlt := u.pending.toNat_lt
    simp only [pulledPending, lowered, discarded, credited, pendingOf_some, UserConfig.raisedIf,
      UserConfig.raiseAttestableFrom, UserConfig.setSettings]
    omega

theorem UserStep.attest_of_pending_lt (ht : UserStep user t)
    (hlt : pendingOf t.before < pendingOf t.after) :
    ∃ attestation invested, t.event = .attest attestation invested := by
  have hbalance := ht.pending_balance
  cases hevent : t.event with
  | attest attestation invested => exact ⟨attestation, invested, rfl⟩
  | _ =>
    simp only [credited, hevent] at hbalance
    omega

theorem UserRun.pending_exited (run : UserRun user h (some u)) :
    u.status = .exited → u.pending = 0 := by
  refine run.induct (J := fun _ u => u.status = .exited → u.pending = 0) ?_ ?_
  · intros
    rfl
  · intro h t u u' _ _ taken _ ha _ hexited
    obtain ⟨v, -, -, -, rfl⟩ := taken.eq_of_exited ha hexited
    rfl

/-- What a run's sweeps, lowerings and departures took, with what is still pending, never
exceeds what attestations credited. -/
theorem UserRun.pending_le (run : UserRun user h s) :
    pendingOf s + total pulledPending h + total lowered h + total discarded h ≤
      total credited h := by
  have hle := Run.total_le pendingOf credited
    (fun t => pulledPending t + lowered t + discarded t) run fun t ht => by
      rw [ht.pending_balance]
      exact Nat.min_le_left _ _
  simp only [total_add, pendingOf_none] at hle
  omega

/-- The two sides agree when no credit was clipped. -/
theorem UserRun.pending_eq (run : UserRun user h s) (hfits : ∀ t ∈ h, ¬Clips t) :
    pendingOf s + total pulledPending h + total lowered h + total discarded h =
      total credited h := by
  have heq := Run.total_eq pendingOf credited
    (fun t => pulledPending t + lowered t + discarded t) run fun t htmem ht => by
      have hfit := hfits t htmem
      unfold Clips at hfit
      rw [ht.pending_balance]
      omega
  simp only [total_add, pendingOf_none] at heq
  omega

variable {d : Deployment} {accounts : Accounts} {history : List (Transition Chain Happening)}
  {chain : Chain}

/-- The pending ledger of every run and user: sweeps, current pending, lowerings and departures
account for the credits, exactly unless a credit was clipped; only attestations raise the
pending amount; a user who left has none; and a sweep asks Subscriptions for exactly the
pending it consumes together with the engine's part. -/
theorem pending_ledger (run : ProgramRun d accounts history chain) (user : Pubkey) :
    pendingOf (chain.userConfigs user) + total pulledPending (userHistory user history) +
          total lowered (userHistory user history) + total discarded (userHistory user history) ≤
        total credited (userHistory user history) ∧
      ((∀ t ∈ userHistory user history, ¬Clips t) →
        pendingOf (chain.userConfigs user) + total pulledPending (userHistory user history) +
            total lowered (userHistory user history) + total discarded (userHistory user history) =
          total credited (userHistory user history)) ∧
      (∀ t ∈ history, pendingOf (t.before.userConfigs user) < pendingOf (t.after.userConfigs user) →
        ∃ attestation invested, userAction user t = some (.attest attestation invested)) ∧
      (∀ u, chain.userConfigs user = some u → u.status = .exited → u.pending = 0) ∧
      ∀ t ∈ history, ∀ config event, userAction user t = some (.sweep config event) →
        pendingOf (t.before.userConfigs user) =
            pendingOf (t.after.userConfigs user) + event.pending.toNat ∧
          ∃ inv ctx assetMessage paymentMessage ed25519Index paymentToken route routeAccounts,
            t.event = .called inv (.sweep ctx assetMessage paymentMessage ed25519Index paymentToken
              route routeAccounts) (.ok (some (.swept event))) ∧
            ∃ token : PaymentToken, ∃ total : UInt64, ∃ pulled,
              total.toNat = event.engine.toNat + event.pending.toNat ∧
              transferSubscription d inv ctx token user total t.before.accounts = .ok pulled := by
  have hlife := run.userRun user
  refine ⟨hlife.pending_le, hlife.pending_eq, ?_, ?_, ?_⟩
  · intro t ht hlt
    obtain ⟨_, -, -, taken, -⟩ := Run.at_mem run ht
    obtain ⟨-, hsame⟩ | ⟨action, haction, hstep⟩ := taken.userStep user
    · rw [hsame] at hlt
      omega
    · obtain ⟨attestation, invested, hevent⟩ := hstep.attest_of_pending_lt hlt
      exact ⟨attestation, invested, hevent ▸ haction⟩
  · intro u hu
    rw [hu] at hlife
    exact hlife.pending_exited
  · intro t ht config event ha
    obtain ⟨older, -, past, taken, -⟩ := Run.at_mem run ht
    obtain ⟨inv, ctx, assetMessage, paymentMessage, ed25519Index, paymentToken, route, routeAccounts,
      hcalled, hnow, rfl, hconfig, hsweep⟩ := taken.sweep_call ha
    obtain ⟨plan, _, _, _, _, _, pulled, _, _, hdecided, -, hswapped, hevent, hafter⟩ :=
      sweep_ok hsweep
    cases hevent
    have hbefore := ProgramRun.userRun past ctx.userConfig
    rw [hdecided.userConfig] at hbefore
    have hname := hbefore.enrolledIn.user
    have hpending := hdecided.allows.pending
    refine ⟨?_, inv, ctx, assetMessage, paymentMessage, ed25519Index, paymentToken, route,
      routeAccounts, hcalled, plan.token, plan.total, pulled, hdecided.total, ?_⟩
    · have heq : (plan.userConfig.swept paymentToken.toNat plan.pull plan.total
          inv.now).pending.toNat = plan.userConfig.pending.toNat - plan.pull.pending.toNat :=
        UInt64.toNat_saturatingSub _ _
      rw [hafter, hdecided.userConfig, Chain.setUserConfig_userConfigs, Function.update_self,
        pendingOf_some, pendingOf_some, heq]
      dsimp only
      omega
    · rw [← hname]
      exact hswapped.transferred

/-- After the rehearsed attestation and sweep. -/
theorem pending_ledger_rehearsed :
    let calls := Rehearsal.sweeping :: Rehearsal.beginnings
    let h := userHistory Rehearsal.user (Rehearsal.history calls)
    0 < total credited h ∧
      pendingOf ((Rehearsal.ledger calls).userConfigs Rehearsal.user) + total pulledPending h +
          total lowered h + total discarded h ≤ total credited h := by
  intro calls h
  exact ⟨by decide +kernel, (pending_ledger (Rehearsal.ledger_run calls (by decide)) Rehearsal.user).1⟩

end Laterite
