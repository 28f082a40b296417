import Laterite.SweepBookkeeping

/-!
# Every user's settings stay well formed

Five instructions write a user's settings, each checking only what it writes. Together they
keep what enrollment requires of a user who has not exited; leaving clears the settings, and
no sweep spends more in a week than the largest tier.
-/

namespace Laterite

open CheckedComputation TimedRuns

/-- The settings the account holds, as the user would send them. -/
def UserConfig.settings (self : UserConfig) : EnrollParams where
  tier := self.tier
  paymentTokens := self.paymentTokens
  asset := self.asset
  engine := self.engine
  engineAmount := self.engineAmount
  incomeRule := self.incomeRule
  changeMultiplier := self.changeMultiplier
  cushions := self.cushions
  goalAmount := self.goalAmount
  goalLabel := self.goalLabel

/-- Settings the rules accept. -/
structure EnrollParams.Valid (params : EnrollParams) : Prop where
  tier : params.tier.toNat < 2
  asset : params.asset.toNat < 2
  someToken : params.paymentTokens ≠ 0
  knownTokens : params.paymentTokens.toNat < 4
  multiplier : params.changeMultiplier ≤ 3
  engine : ∃ cap, tiers[params.tier.toNat]? = some cap ∧ params.engineAmount ≤ cap
  invests : params.engineAmount > 0 ∨ params.incomeRule = true ∨ params.changeMultiplier > 0

/-- No bit past the table is set exactly when the mask is below 4. -/
theorem knownTokens_iff {paymentTokens : UInt8} :
    paymentTokens >>> UInt8.ofNat paymentTokenCount = 0 ↔ paymentTokens.toNat < 4 := by
  rw [← UInt8.toNat_inj, UInt8.toNat_shiftRight]
  have hshift : (UInt8.ofNat paymentTokenCount).toNat % 8 = 2 := rfl
  rw [hshift, Nat.shiftRight_eq_div_pow, UInt8.toNat_zero]
  omega

theorem tier_lt {tier : ℕ} {cap : UInt64} (h : tiers[tier]? = some cap) : tier < 2 :=
  (Vector.getElem?_eq_some_iff.mp h).1

theorem EnrollParams.validateRules_eq_ok {params : EnrollParams} {u : Unit} :
    params.validateRules = .ok u ↔ params.Valid := by
  simp only [EnrollParams.validateRules, bind_eq_ok, okOr_eq_ok, require_eq_ok, exists_const,
    knownTokens_iff]
  constructor
  · rintro ⟨cap, hcap, hasset, hsome, hknown, hinvests, hmultiplier, hengine⟩
    exact ⟨tier_lt hcap, hasset, hsome, hknown, hmultiplier, ⟨cap, hcap, hengine⟩, hinvests⟩
  · rintro ⟨-, hasset, hsome, hknown, hmultiplier, ⟨cap, hcap, hengine⟩, hinvests⟩
    exact ⟨cap, hcap, hasset, hsome, hknown, hinvests, hmultiplier, hengine⟩

theorem EnrollParams.valid_of_validate {params : EnrollParams} {config : Config}
    (h : params.validate config = .ok ()) : params.Valid := by
  simp only [EnrollParams.validate, bind_eq_ok] at h
  obtain ⟨_, -, _, -, hrules⟩ := h
  exact EnrollParams.validateRules_eq_ok.mp hrules

def largestCap : UInt64 := tiers[1]

theorem UserConfig.weeklyCap_le (self : UserConfig) (betaCap : UInt64) (now : ℤ) :
    (self.weeklyCap betaCap now).toNat ≤ largestCap.toNat := by
  unfold UserConfig.weeklyCap
  rw [UInt64.toNat_min]
  refine (Nat.min_le_left _ _).trans ?_
  split
  · decide
  · match self.tier.toNat with
    | 0 | 1 => decide
    | n + 2 => simp [tiers]

structure UserConfig.WellFormed (user : Pubkey) (u : UserConfig) : Prop where
  user : u.user = user
  valid : u.status ≠ .exited → u.settings.Valid
  cleared : u.status = .exited → u.settings = EnrollParams.default ∧ u.pending = 0
  spent : u.weekSpent ≤ largestCap

variable {user : Pubkey} {t : Transition (Option UserConfig) UserAction}
  {h : List (Transition (Option UserConfig) UserAction)} {u u' : UserConfig}

/-- A sweep leaves the week's spending within the cap it was checked against. -/
theorem UserConfig.Sweepable.weekSpent_swept {now : ℤ} {config : Config} {event : Swept}
    {balance total : UInt64} (hs : u.Sweepable now config event balance total) :
    (u.swept event.paymentToken.toNat event.pull total now).weekSpent ≤ largestCap := by
  have hcap := u.weeklyCap_le config.userWeeklyCap now
  have hroom := hs.allows.room
  have hpositive := hs.positive
  have htotal := hs.total_eq
  rw [UInt64.le_iff_toNat_le]
  change ((u.spentAt now).saturatingAdd total).toNat ≤ _
  rw [UInt64.toNat_saturatingAdd]
  unfold Swept.pull at hroom
  dsimp only at hroom
  omega

theorem UserStep.valid (ht : UserStep user t) (hb : t.before = some u) (ha : t.after = some u')
    (ih : u.status ≠ .exited → u.settings.Valid) (hexited : u'.status ≠ .exited) :
    u'.settings.Valid := by
  cases ht with
  | enroll => cases hb
  | sweep sweepable =>
    cases hb
    cases ha
    exact ih hexited
  | updateSettings _ _ _ valid =>
    cases ha
    exact EnrollParams.validateRules_eq_ok.mp valid
  | reactivate _ valid =>
    cases ha
    exact EnrollParams.valid_of_validate valid
  | pause active =>
    cases hb
    cases ha
    exact ih (by simp [active])
  | resume paused =>
    cases hb
    cases ha
    exact ih (by simp [paused])
  | @changeTier now u tier cap _ known engine =>
    cases hb
    cases ha
    have hu := ih hexited
    exact { hu with tier := tier_lt known, engine := ⟨cap, known, engine⟩ }
  | changePaymentTokens _ nonzero known =>
    cases hb
    cases ha
    have hu := ih hexited
    exact { hu with someToken := nonzero, knownTokens := knownTokens_iff.mp known }
  | exit =>
    cases ha
    exact absurd rfl hexited
  | attest | lowerPending =>
    cases hb
    cases ha
    exact ih hexited

theorem UserRun.wellFormed (run : UserRun user h (some u)) : u.WellFormed user := by
  refine run.induct (J := fun _ u => u.WellFormed user) ?_ ?_
  · intro now bump params config _ valid
    exact ⟨rfl, fun _ => EnrollParams.valid_of_validate valid, by simp [UserConfig.enrolled],
      by simp [UserConfig.enrolled]⟩
  · intro _ t u u' _ _ taken hb ha ih
    refine ⟨(taken.identity hb ha).1.trans ih.user, taken.valid hb ha ih.valid, ?_, ?_⟩
    · intro hexited
      obtain ⟨u, -, -, -, rfl⟩ := taken.eq_of_exited ha hexited
      exact ⟨rfl, rfl⟩
    · obtain ⟨_, _, _, _, -, sweepable, rfl⟩ | ⟨-, hbooks⟩ := taken.books hb ha
      · exact sweepable.weekSpent_swept
      · rw [hbooks.weekSpent]
        exact ih.spent

end Laterite
