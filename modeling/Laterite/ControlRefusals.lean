import Laterite.PlanChanges
import Laterite.RestoredTokens
import Laterite.UserControls

/-!
# What the client's checks stand for

The client throws the number of a program error before it builds anything. What it checks there is
what the program checks, so where the program accepts a call the client's checks let it through;
nothing else that a control does throws such a number.
-/

namespace Laterite.Client

open CheckedComputation

/-- The computation is not stopped by the check of a program error, whatever else stops it. -/
def Unchecked {α : Type} (x : Build α) : Prop := ∀ code, x ≠ .error (.client (.lateriteCheck code))

section

variable {α β : Type} {x : Build α} {f : α → Build β}

theorem build_bind_eq_ok {b : β} : (x >>= f) = .ok b ↔ ∃ a, x = .ok a ∧ f a = .ok b := by
  cases x with
  | error error =>
    apply iff_of_false
    · intro h
      cases h
    · rintro ⟨a, h, -⟩
      cases h
  | ok a =>
    constructor
    · intro h
      exact ⟨a, rfl, h⟩
    · rintro ⟨a', h, hf⟩
      obtain rfl := Except.ok.inj h
      exact hf

theorem map_eq_ok {g : α → β} {b : β} : x.map g = .ok b ↔ ∃ a, x = .ok a ∧ g a = b := by
  cases x with
  | error error => simp [Except.map]
  | ok a => simp [Except.map]

theorem checks_eq_ok {condition : Prop} [Decidable condition] {error : LateriteError} {u : Unit} :
    checks condition error = .ok u ↔ condition := by
  unfold checks
  split <;> simp [*]

theorem Unchecked.ok (a : α) : Unchecked (.ok a : Build α) := by
  intro code h
  cases h

theorem Unchecked.bind (hx : Unchecked x) (hf : ∀ a, x = .ok a → Unchecked (f a)) :
    Unchecked (x >>= f) := by
  cases x with
  | error error =>
    intro code h
    exact hx code (congrArg Except.error (Except.error.inj h))
  | ok a => exact hf a rfl

/-- What passed its check goes on. -/
theorem Unchecked.after {a : α} (hx : x = .ok a) (hf : Unchecked (f a)) : Unchecked (x >>= f) := by
  rw [hx]
  exact hf

theorem Unchecked.checked {condition : Prop} [Decidable condition] {error : LateriteError}
    {f : Unit → Build β} (h : condition) (hf : Unchecked (f ())) :
    Unchecked (checks condition error >>= f) := Unchecked.after (checks_eq_ok.mpr h) hf

theorem Unchecked.map {g : α → β} (hx : Unchecked x) : Unchecked (x.map g) := by
  cases x with
  | error error =>
    intro code h
    exact hx code (congrArg Except.error (Except.error.inj h))
  | ok a => exact .ok _

theorem Unchecked.found {value : Option α} {error : BuildError}
    (h : ∀ code, error ≠ .client (.lateriteCheck code)) : Unchecked (Client.found value error) := by
  cases value with
  | none =>
    intro code herror
    exact h code (Except.error.inj herror)
  | some a => exact .ok a

theorem Unchecked.mapM {as : List α} (hf : ∀ a ∈ as, Unchecked (f a)) : Unchecked (as.mapM f) := by
  induction as with
  | nil => exact .ok _
  | cons a as ih =>
    rw [List.mapM_cons]
    apply Unchecked.bind (hf a List.mem_cons_self)
    intro b _
    apply Unchecked.bind (ih fun a' ha' => hf a' (List.mem_cons_of_mem _ ha'))
    intro bs _
    exact .ok _

end

variable {d : Deployment} {unknownInitId : ℤ} {config : Laterite.Config} {params : EnrollParams}
  {payers : List Pubkey} {sponsor user : Pubkey} {state : UserState}

theorem unchecked_planState (paymentToken tier : ℕ) : Unchecked (planState state paymentToken tier) :=
  Unchecked.found (by simp)

theorem unchecked_tokenState (paymentToken : ℕ) : Unchecked (tokenState state paymentToken) :=
  Unchecked.found (by simp)

theorem unchecked_closeSubscriptionInstruction (plan : PlanState) :
    Unchecked (closeSubscriptionInstruction user plan) := by
  apply Unchecked.bind (Unchecked.found (by simp))
  intro subscription _
  exact .ok _

theorem unchecked_revokeAuthorityInstruction (token : TokenState) :
    Unchecked (revokeAuthorityInstruction user token) := by
  apply Unchecked.bind (Unchecked.found (by simp))
  intro authority _
  exact .ok _

theorem unchecked_subscriptionInstructions (now : ℤ) (plan : PlanState) (token : TokenState) :
    Unchecked (subscriptionInstructions d unknownInitId now payers plan sponsor token user) := by
  apply Unchecked.bind (Unchecked.found (by simp))
  intro account _
  dsimp only
  split
  · intro code h
    cases h
  split
  · exact .ok _
  split
  · apply Unchecked.bind (unchecked_closeSubscriptionInstruction _)
    intro close _
    exact .ok _
  split
  · apply Unchecked.bind (Unchecked.found (by simp))
    intro payer _
    exact .ok _
  split
  · exact .ok _
  · exact .ok _

theorem unchecked_subscribeEach (tier : ℕ) (tokens : List ℕ) :
    Unchecked (subscribeEach d unknownInitId state payers sponsor user tier tokens) := by
  induction tokens with
  | nil => exact .ok _
  | cons paymentToken tokens ih =>
    apply Unchecked.bind (unchecked_planState _ _)
    intro plan _
    apply Unchecked.bind (unchecked_tokenState _)
    intro token _
    apply Unchecked.bind (unchecked_subscriptionInstructions _ _ _)
    intro instructions _
    apply Unchecked.bind ih
    intro rest _
    exact .ok _

theorem unchecked_assetAccountInstructions (asset : ℕ) :
    Unchecked (assetAccountInstructions asset config sponsor state user) := by
  apply Unchecked.bind (Unchecked.found (by simp))
  intro entry _
  split
  · exact .ok _
  · apply Unchecked.bind (Unchecked.found (by simp))
    intro listed _
    exact .ok _

theorem unchecked_joinInstructions :
    Unchecked (joinInstructions d unknownInitId config params payers sponsor user state) := by
  apply Unchecked.bind (unchecked_assetAccountInstructions _)
  intro opening _
  apply Unchecked.bind (unchecked_subscribeEach _ _)
  intro joined _
  exact .ok _

theorem unchecked_closeInstructions (ended : List PlanState) : Unchecked (closeInstructions user ended) :=
  Unchecked.mapM fun plan _ => unchecked_closeSubscriptionInstruction plan

theorem unchecked_endedSubscriptionInstructions (delegations : List Delegation)
    (planMint : Pubkey → Option Pubkey) (ended : List PlanState) :
    Unchecked (endedSubscriptionInstructions delegations planMint state user ended) := by
  apply Unchecked.bind (unchecked_closeInstructions _)
  intro closes _
  apply Unchecked.bind (Unchecked.mapM fun plan _ => unchecked_tokenState _)
  intro tokens _
  apply Unchecked.bind (Unchecked.mapM fun token _ => unchecked_revokeAuthorityInstruction _)
  intro revokes _
  exact .ok _

theorem unchecked_switchEach (currentTier tier : ℕ) (tokens : List ℕ) :
    Unchecked (switchEach d unknownInitId state payers sponsor user currentTier tier tokens) := by
  induction tokens with
  | nil => exact .ok _
  | cons paymentToken tokens ih =>
    apply Unchecked.bind (unchecked_planState _ _)
    intro current _
    apply Unchecked.bind (unchecked_planState _ _)
    intro next _
    apply Unchecked.bind (unchecked_tokenState _)
    intro token _
    apply Unchecked.bind (unchecked_subscriptionInstructions _ _ _)
    intro instructions _
    apply Unchecked.bind (unchecked_closeInstructions _)
    intro closes _
    apply Unchecked.bind ih
    intro rest _
    exact .ok _

theorem unchecked_changeEach (tier paymentTokens : ℕ) (tokens : List ℕ) :
    Unchecked (changeEach d unknownInitId state payers sponsor user tier paymentTokens tokens) := by
  induction tokens with
  | nil => exact .ok _
  | cons paymentToken tokens ih =>
    apply Unchecked.bind (unchecked_planState _ _)
    intro plan _
    split
    · apply Unchecked.bind (unchecked_tokenState _)
      intro token _
      apply Unchecked.bind (unchecked_subscriptionInstructions _ _ _)
      intro instructions _
      apply Unchecked.bind ih
      intro rest _
      exact .ok _
    · apply Unchecked.bind ih
      intro rest _
      exact .ok _

theorem tiers_eq (tier : ℕ) :
    tiers[tier]? = (Laterite.tiers[tier]?).map fun cap => (cap.toNat : ℤ) := by
  match tier with
  | 0 | 1 => rfl
  | tier + 2 => simp [tiers, Laterite.tiers]

theorem found_tier_eq_ok {tier : ℕ} {error : BuildError} {cap : ℤ} :
    found tiers[tier]? error = .ok cap ↔
      ∃ known, Laterite.tiers[tier]? = some known ∧ cap = known.toNat := by
  rw [found_eq_ok, tiers_eq, Option.map_eq_some_iff]
  constructor
  · rintro ⟨known, hknown, rfl⟩
    exact ⟨known, hknown, rfl⟩
  · rintro ⟨known, hknown, rfl⟩
    exact ⟨known, hknown, rfl⟩

theorem assertValidRules_eq_ok : assertValidRules params = .ok () ↔ params.Valid := by
  simp only [assertValidRules, build_bind_eq_ok, found_tier_eq_ok, checks_eq_ok, exists_const]
  have hmask : params.paymentTokens.toNat >>> paymentTokenCount = 0 ↔ params.paymentTokens.toNat < 4 := by
    rw [Nat.shiftRight_eq_div_pow, paymentTokenCount]
    omega
  have hnone : params.paymentTokens.toNat ≠ 0 ↔ params.paymentTokens ≠ 0 :=
    not_congr (UInt8.toNat_inj (b := 0))
  have hmultiplier : params.changeMultiplier.toNat ≤ 3 ↔ params.changeMultiplier ≤ 3 :=
    (UInt8.le_iff_toNat_le (b := 3)).symm
  have hchange : params.changeMultiplier.toNat > 0 ↔ params.changeMultiplier > 0 :=
    (UInt8.lt_iff_toNat_lt (a := 0)).symm
  have hengine : (params.engineAmount.toNat : ℤ) > 0 ↔ params.engineAmount > 0 := by
    rw [gt_iff_lt, gt_iff_lt, UInt64.lt_iff_toNat_lt, UInt64.toNat_zero]
    omega
  have hcap (cap : UInt64) : (params.engineAmount.toNat : ℤ) ≤ cap.toNat ↔ params.engineAmount ≤ cap := by
    rw [UInt64.le_iff_toNat_le, Int.ofNat_le]
  rw [hmask, hnone, hmultiplier, hchange, hengine]
  constructor
  · rintro ⟨_, ⟨cap, hknown, rfl⟩, hasset, hsome, htokens, hinvests, hsteps, hpulls⟩
    exact ⟨tier_lt hknown, hasset, hsome, htokens, hsteps, ⟨cap, hknown, (hcap cap).mp hpulls⟩, hinvests⟩
  · rintro ⟨-, hasset, hsome, htokens, hsteps, ⟨cap, hknown, hpulls⟩, hinvests⟩
    exact ⟨_, ⟨cap, hknown, rfl⟩, hasset, hsome, htokens, hinvests, hsteps, (hcap cap).mpr hpulls⟩

theorem validate_eq_ok : params.validate config = .ok () ↔
    (∃ cap, Laterite.tiers[params.tier.toNat]? = some cap ∧ cap ≤ config.userWeeklyCap) ∧
      params.Valid := by
  simp only [EnrollParams.validate, bind_eq_ok, okOr_eq_ok, require_eq_ok, exists_const,
    EnrollParams.validateRules_eq_ok]
  constructor
  · rintro ⟨cap, hknown, hbeta, hvalid⟩
    exact ⟨⟨cap, hknown, hbeta⟩, hvalid⟩
  · rintro ⟨⟨cap, hknown, hbeta⟩, hvalid⟩
    exact ⟨cap, hknown, hbeta, hvalid⟩

theorem assertCanJoin_eq_ok : assertCanJoin config sponsor params = .ok () ↔
    config.paused = false ∧ config.sponsor = sponsor ∧ config.userCount < config.maxUsers ∧
      params.validate config = .ok () := by
  simp only [assertCanJoin, build_bind_eq_ok, found_tier_eq_ok, checks_eq_ok, exists_const,
    assertValidRules_eq_ok, validate_eq_ok, Bool.not_eq_true]
  rw [UInt32.lt_iff_toNat_lt, eq_comm (a := sponsor)]
  constructor
  · rintro ⟨hpaused, hsponsor, hroom, _, ⟨cap, hknown, rfl⟩, hbeta, hvalid⟩
    exact ⟨hpaused, hsponsor, hroom, ⟨cap, hknown, UInt64.le_iff_toNat_le.mpr (Int.ofNat_le.mp hbeta)⟩,
      hvalid⟩
  · rintro ⟨hpaused, hsponsor, hroom, ⟨cap, hknown, hbeta⟩, hvalid⟩
    exact ⟨hpaused, hsponsor, hroom, _, ⟨cap, hknown, rfl⟩,
      Int.ofNat_le.mpr (UInt64.le_iff_toNat_le.mp hbeta), hvalid⟩

theorem assertNotExited_eq_ok {userConfig : Option Laterite.UserConfig} {u : Laterite.UserConfig} :
    assertNotExited userConfig = .ok u ↔ userConfig = some u ∧ u.status ≠ .exited := by
  simp only [assertNotExited, build_bind_eq_ok, found_eq_ok, checks_eq_ok, exists_const]
  constructor
  · rintro ⟨held, hheld, hstays, hsame⟩
    obtain rfl := Except.ok.inj hsame
    exact ⟨hheld, hstays⟩
  · rintro ⟨hheld, hstays⟩
    exact ⟨u, hheld, hstays, rfl⟩

end Laterite.Client
