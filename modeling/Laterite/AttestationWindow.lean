import Laterite.PendingLedger
import Laterite.ReplayedRuns

/-!
# No backfill

A user's account keeps one time below which no transfer counts. Every step that could make an
attestation count more lifts it to the clock, and no step lowers it; so whatever an accepted
transfer's second is, since then the account was never less generous than at the attest.
-/

namespace Laterite

open CheckedComputation TimedRuns

/-- What decides whether and how much an attestation counts: being active, the enabled
tokens, the income rule and the multiplier. Greater in every part is more generous. -/
def generosity : Option UserConfig → Bool × (ℕ → Bool) × Bool × ℕ
  | none => (false, fun _ => false, false, 0)
  | some u =>
    (u.status = .active, enabled u.paymentTokens, u.incomeRule, u.changeMultiplier.toNat)

/-- The account's time, below every time before enrollment. -/
def attestableMark (s : Option UserConfig) : WithBot ℤ := s.elim ⊥ fun u => (u.attestableFrom : ℤ)

theorem enabled_le_of_and_not_eq_zero {old new : UInt8} (h : new &&& ~~~old = 0) :
    enabled new ≤ enabled old := by
  have hsub : new = new &&& old := by
    rw [← UInt8.toBitVec_inj] at h ⊢
    ext i hi
    have hbit := congrArg (fun bits : BitVec 8 => bits[i]) h
    simp at hbit
    by_cases hnew : new.toBitVec[i] <;> simp_all
  intro token
  unfold enabled
  by_cases hold : old &&& (1 <<< UInt8.ofNat token) = 0
  · have hnew : new &&& (1 <<< UInt8.ofNat token) = 0 := by
      rw [hsub, UInt8.and_assoc, hold, UInt8.and_zero]
    simp [hold, hnew]
  · simp [hold]

theorem generosity_le {u u' : UserConfig} (hactive : u.status = .active → u'.status = .active)
    (htokens : enabled u.paymentTokens ≤ enabled u'.paymentTokens)
    (hincome : u.incomeRule ≤ u'.incomeRule) (hchange : u.changeMultiplier ≤ u'.changeMultiplier) :
    generosity (some u) ≤ generosity (some u') := by
  refine ⟨?_, htokens, hincome, UInt8.le_iff_toNat_le.mp hchange⟩
  intro h
  exact decide_eq_true (hactive (of_decide_eq_true h))

theorem not_enabled_zero (token : ℕ) : enabled 0 token = false := by
  simp [enabled]

variable {user : Pubkey} {t : Transition (Option UserConfig) UserAction}

/-- No step lowers the account's time; one that makes the account more generous lifts it to
the clock. -/
theorem UserStep.attestableMark (ht : UserStep user t) :
    attestableMark t.before ≤ attestableMark t.after ∧
      (generosity t.after ≤ generosity t.before ∨ (t.now : WithBot ℤ) ≤ attestableMark t.after) := by
  have hraise : ∀ a b : ℤ, ((b : ℤ) : WithBot ℤ) ≤ ((max a b : ℤ) : WithBot ℤ) :=
    fun a b => WithBot.coe_le_coe.mpr (le_max_right a b)
  have hkeep : ∀ a b : ℤ, ((a : ℤ) : WithBot ℤ) ≤ ((max a b : ℤ) : WithBot ℤ) :=
    fun a b => WithBot.coe_le_coe.mpr (le_max_left a b)
  cases ht with
  | enroll => exact ⟨bot_le, .inr (le_refl _)⟩
  | attest | sweep | lowerPending | changeTier => exact ⟨le_refl _, .inl (le_refl _)⟩
  | @updateSettings now u params notExited tier paymentTokens =>
    cases hmore : u.countsMore params with
    | true =>
      rw [UserConfig.raisedIf_true]
      exact ⟨hkeep _ _, .inr (hraise _ _)⟩
    | false =>
      rw [UserConfig.raisedIf_false]
      simp only [UserConfig.countsMore, Bool.or_eq_false_iff, decide_eq_false_iff_not] at hmore
      refine ⟨le_refl _, .inl (generosity_le (fun h => h) ?_ ?_ ?_)⟩
      · exact le_of_eq (congrArg enabled paymentTokens)
      · intro hnew
        by_contra hold
        simp [UserConfig.setSettings] at hnew
        simp [hnew, hold] at hmore
      · exact UInt8.not_lt.mp hmore.2
  | pause active =>
    refine ⟨le_refl _, .inl (generosity_le ?_ (le_refl _) (le_refl _) (UInt8.le_refl _))⟩
    intro h
    cases h
  | resume => exact ⟨hkeep _ _, .inr (hraise _ _)⟩
  | @changePaymentTokens now u paymentTokens =>
    by_cases hadded : paymentTokens &&& ~~~u.paymentTokens = 0
    · rw [decide_eq_false (not_not.mpr hadded), UserConfig.raisedIf_false]
      exact ⟨le_refl _, .inl (generosity_le (fun h => h) (enabled_le_of_and_not_eq_zero hadded)
        (le_refl _) (UInt8.le_refl _))⟩
    · rw [decide_eq_true hadded, UserConfig.raisedIf_true]
      exact ⟨hkeep _ _, .inr (hraise _ _)⟩
  | exit =>
    refine ⟨le_refl _, .inl (generosity_le ?_ ?_ (Bool.false_le _) UInt8.zero_le)⟩
    · intro h
      cases h
    · intro token
      exact (not_enabled_zero token).le.trans (Bool.false_le _)
  | reactivate => exact ⟨hkeep _ _, .inr (hraise _ _)⟩

/-- A more generous account derives no less from the same transfer. -/
theorem UserConfig.invested_le {u u' : UserConfig} (kind : EventKind) (amount : UInt64)
    {v : UInt64} (hv : u.invested kind amount = .ok v)
    (hincome : u.incomeRule ≤ u'.incomeRule) (hchange : u.changeMultiplier ≤ u'.changeMultiplier) :
    ∃ v', u'.invested kind amount = .ok v' ∧ v ≤ v' := by
  cases kind with
  | income =>
    refine ⟨_, rfl, ?_⟩
    rw [UserConfig.invested, pure_eq_ok] at hv
    subst hv
    unfold UserConfig.incomeShare
    cases hrule : u.incomeRule with
    | false => simp
    | true =>
      rw [hrule] at hincome
      rw [Bool.eq_true_of_true_le hincome]
      exact UInt64.le_refl _
  | payment =>
    obtain ⟨w, hw, hvalue⟩ := u.exists_change amount
    obtain ⟨v', hv', hvalue'⟩ := u'.exists_change amount
    obtain rfl := Except.ok.inj (hv.symm.trans hw)
    refine ⟨v', hv', ?_⟩
    rw [UInt64.le_iff_toNat_le, hvalue, hvalue']
    exact Nat.mul_le_mul_left _ (UInt8.le_iff_toNat_le.mp hchange)

/-- An income that derives anything found the income rule on. -/
theorem UserConfig.incomeRule_of_invested {u : UserConfig} {amount v : UInt64}
    (h : u.invested .income amount = .ok v) (hpositive : 0 < v) : u.incomeRule = true := by
  rw [UserConfig.invested, pure_eq_ok] at h
  cases hrule : u.incomeRule with
  | true => rfl
  | false => simp [← h, UserConfig.incomeShare, hrule] at hpositive

variable {d : Deployment} {accounts : Accounts} {older : List (Transition Chain Happening)}
  {t : Transition Chain Happening} {chain : Chain} {attestation : Attestation} {invested : UInt64}

/-- A step of the program neither lowers the user's mark nor raises the user's generosity
without lifting the mark to the clock. -/
theorem Step.attestableMark {p : Transition Chain Happening} (hp : Step d p) (user : Pubkey) :
    Laterite.attestableMark (p.before.userConfigs user) ≤
        Laterite.attestableMark (p.after.userConfigs user) ∧
      (generosity (p.after.userConfigs user) ≤ generosity (p.before.userConfigs user) ∨
        (p.now : WithBot ℤ) ≤ Laterite.attestableMark (p.after.userConfigs user)) := by
  obtain ⟨-, hsame⟩ | ⟨_, -, hstep⟩ := hp.userStep user
  · rw [hsame]
    exact ⟨le_refl _, .inl (le_refl _)⟩
  · exact hstep.attestableMark

/-- When a transfer is attested, in every state from the end of its second on the user was
active, its token enabled, and its rule at least as generous as now; so what the attest adds
to the pending amount is at most what the rules of any of those states derive from it. -/
theorem attested_since (run : ProgramRun d accounts (t :: older) chain)
    (ha : userAction user t = some (.attest attestation invested)) :
    ∃ u, t.before.userConfigs user = some u ∧
      ∀ s ∈ statesSince attestation.eventTime.toInt older t.before, ∃ u',
        s.userConfigs user = some u' ∧ u'.status = .active ∧
        enabled u'.paymentTokens attestation.paymentToken.toNat = true ∧
        (attestation.kind = .income → u'.incomeRule = true) ∧
        (attestation.kind = .payment → u.changeMultiplier ≤ u'.changeMultiplier) ∧
        ∃ derived, u'.invested attestation.kind attestation.amount = .ok derived ∧
          pendingOf (t.after.userConfigs user) - pendingOf (t.before.userConfigs user) ≤
            derived.toNat := by
  obtain ⟨past, -, taken, -⟩ := Run.last run
  obtain ⟨hnone, -⟩ | ⟨action, haction, hstep⟩ := taken.userStep user
  · simp [ha] at hnone
  obtain rfl := Option.some.inj (ha.symm.trans haction)
  have hsince : ∀ e : ℤ, Laterite.attestableMark (t.before.userConfigs user) ≤ e →
      ∀ s ∈ statesSince e older t.before,
        generosity (t.before.userConfigs user) ≤ generosity (s.userConfigs user) := fun e he =>
    Run.level_le_since (fun s => Laterite.attestableMark (s.userConfigs user))
      (fun s => generosity (s.userConfigs user)) past (fun p hp => (hp.attestableMark user).1)
      (fun p hp => (hp.attestableMark user).2) he
  generalize t.before.userConfigs user = before at hstep hsince
  generalize t.after.userConfigs user = after at hstep
  cases hstep with
  | @attest now u attestation invested pending active attestable _ known henabled derived positive
      credited_eq =>
    refine ⟨u, rfl, fun s hs => ?_⟩
    have hlevel := hsince _ (WithBot.coe_le_coe.mpr attestable) s hs
    cases hu' : s.userConfigs user with
    | none =>
      rw [hu'] at hlevel
      exact absurd (hlevel.1 (decide_eq_true active)) (by simp [generosity])
    | some u' =>
      rw [hu'] at hlevel
      obtain ⟨hactive, htokens, hincome, hchange⟩ := hlevel
      have hchange' : u.changeMultiplier ≤ u'.changeMultiplier := UInt8.le_iff_toNat_le.mpr hchange
      refine ⟨u', rfl, of_decide_eq_true (hactive (decide_eq_true active)), htokens _ henabled, ?_,
        fun _ => hchange', ?_⟩
      · intro hkind
        rw [hkind] at derived
        exact hincome (UserConfig.incomeRule_of_invested derived positive)
      · obtain ⟨v', hv', hle⟩ := UserConfig.invested_le attestation.kind attestation.amount derived
          hincome hchange'
        have hsum := UInt64.toNat_saturatingAdd u.pending invested
        refine ⟨v', hv', ?_⟩
        rw [UInt64.le_iff_toNat_le] at hle
        rw [pendingOf_some, pendingOf_some, credited_eq]
        dsimp only
        omega

/-- The rehearsed payment adds no more than the rules before it derive. -/
theorem attested_since_rehearsed :
    ∃ u derived, Rehearsal.atAttest.before.userConfigs Rehearsal.user = some u ∧
      u.invested .payment Rehearsal.attestation.amount = .ok derived ∧
      pendingOf (Rehearsal.atAttest.after.userConfigs Rehearsal.user) -
          pendingOf (Rehearsal.atAttest.before.userConfigs Rehearsal.user) ≤ derived.toNat := by
  obtain ⟨_, -, hsince⟩ := attested_since Rehearsal.run_atAttest Rehearsal.userAction_atAttest
  obtain ⟨u, hu, -, -, -, -, derived, hderived, hle⟩ := hsince _ (mem_statesSince_self _ _ _)
  exact ⟨u, derived, hu, hderived, hle⟩

end Laterite
