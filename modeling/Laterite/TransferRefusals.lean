import Laterite.AttestationWindow
import Laterite.ClientAmounts

/-!
# What the watcher takes for a final refusal

The watcher judges a transfer by the user's state it reads and the clock of its tick, then by the
error of the attest it sent. A refusal is final when no later control of the user can make the
transfer count: the transfer is empty, too small for its rule, expired, older than the account's
time, or made in an earlier second than the one its user's settings refuse it in.
-/

namespace Laterite.Watcher

open CheckedComputation TimedRuns

/-- The error `attest` would fail with at `now`, in the program's order. -/
def attestRefusal (user : Client.UserConfig) (attestation : Attestation) (now : ℤ) :
    Option LateriteError :=
  let eventTime := attestation.eventTime.toInt
  let amount : ℤ := attestation.amount.toNat
  if user.status ≠ .active then some .userNotActive
  else if amount = 0 ∨ eventTime < user.attestableFrom ∨ eventTime > now then
    some .invalidAttestation
  else if eventTime + attestationTtlSeconds < now then some .attestationExpired
  else if user.paymentTokens &&& (1 <<< (attestation.paymentToken.toNat % 32)) = 0 then
    some .unknownPaymentToken
  else
    let invested := match attestation.kind with
      | .income => Client.incomeShare user amount
      | .payment => Client.change user amount
    if invested = 0 then some .nothingToInvest else none

/-- The refusals that stay refusals, by the program's names for them. -/
def final : List (LateriteError × String) :=
  [(.attestationExpired, "AttestationExpired"), (.invalidAttestation, "InvalidAttestation"),
    (.nothingToInvest, "NothingToInvest"), (.unknownPaymentToken, "UnknownPaymentToken"),
    (.userNotActive, "UserNotActive")]

inductive AttestFailure where
  | counted
  | refused (reason : LateriteError)
  | signature
  deriving DecidableEq

/-- Reads the fault of the `attest` instruction; `none` is worth retrying. -/
def attestFailure : Fault ProgramError → Option AttestFailure
  | .error (.laterite e) =>
    if e = .invalidAttestationSignature then some .signature
    else if e ∈ final.map Prod.fst then some (.refused e)
    else none
  | .error (.anchor .accountAlreadyInUse) => some .counted
  | _ => none

def Counts (user : UserConfig) (attestation : Attestation) : Prop :=
  user.status = .active ∧ enabled user.paymentTokens attestation.paymentToken.toNat = true ∧
    ∃ invested, user.invested attestation.kind attestation.amount = .ok invested ∧ 0 < invested

/-- Some rules derive something from the transfer. -/
def Investable (attestation : Attestation) : Prop :=
  attestation.kind = .income → incomeMin ≤ attestation.amount

/-- The transfer is judged by settings no later control can better: they count it and it is not
after the tick's clock, or they do not and it was made before the second they are read in. -/
def Judged (user : UserConfig) (attestation : Attestation) (clock now : ℤ) : Prop :=
  0 < attestation.amount → Investable attestation →
    user.attestableFrom ≤ attestation.eventTime.toInt →
    (Counts user attestation → attestation.eventTime.toInt ≤ clock) ∧
      (¬Counts user attestation → attestation.eventTime.toInt < now)

/-- The transfer cannot count at `now` or later. -/
def Uncountable (chain : Chain) (now : ℤ) (attestation : Attestation) : Prop :=
  attestation.amount = 0 ∨ ¬Investable attestation ∨
    attestation.eventTime.toInt + attestationTtlSeconds < now ∨
    ∃ user, chain.userConfigs attestation.user = some user ∧
      (attestation.eventTime.toInt < user.attestableFrom ∨
        (¬Counts user attestation ∧ attestation.eventTime.toInt < now))

variable {d : Deployment} {chain : Chain} {attestation : Attestation} {now later : ℤ}
  {user : UserConfig}

theorem Uncountable.mono (h : Uncountable chain now attestation) (hlater : now ≤ later) :
    Uncountable chain later attestation := by
  rcases h with hzero | hsmall | hexpired | ⟨user, huser, hfrom | ⟨hcounts, hpast⟩⟩
  · exact Or.inl hzero
  · exact Or.inr (Or.inl hsmall)
  · exact Or.inr (Or.inr (Or.inl (by omega)))
  · exact Or.inr (Or.inr (Or.inr ⟨user, huser, Or.inl hfrom⟩))
  · exact Or.inr (Or.inr (Or.inr ⟨user, huser, Or.inr ⟨hcounts, by omega⟩⟩))

theorem investable_of_invested {invested : UInt64}
    (h : user.invested attestation.kind attestation.amount = .ok invested) (hpositive : 0 < invested) :
    Investable attestation := by
  intro hincome
  rw [hincome, UserConfig.invested, pure_eq_ok] at h
  by_contra hsmall
  rw [← h, UserConfig.incomeShare, if_pos (Or.inr (UInt64.not_le.mp hsmall))] at hpositive
  exact absurd hpositive (UInt64.lt_irrefl 0)

/-- Settings at least as generous count what the others do. -/
theorem Counts.of_generosity {user' : UserConfig} (h : Counts user attestation)
    (hle : generosity (some user) ≤ generosity (some user')) : Counts user' attestation := by
  rcases h with ⟨hactive, henabled, invested, hinvested, hpositive⟩
  rcases hle with ⟨hstatus, htokens, hincome, hchange⟩
  rcases UserConfig.invested_le attestation.kind attestation.amount hinvested hincome
    (UInt8.le_iff_toNat_le.mpr hchange) with ⟨invested', hinvested', hmore⟩
  have hactive' := hstatus (decide_eq_true hactive)
  exact ⟨of_decide_eq_true hactive', htokens _ henabled, invested', hinvested',
    UInt64.lt_of_lt_of_le hpositive hmore⟩

theorem Uncountable.step {t : Transition Chain Happening} (ht : Step d t)
    (h : Uncountable t.before now attestation) (hnow : now ≤ t.now) :
    Uncountable t.after now attestation := by
  rcases h with hzero | hsmall | hexpired | ⟨user, huser, hrefused⟩
  · exact Or.inl hzero
  · exact Or.inr (Or.inl hsmall)
  · exact Or.inr (Or.inr (Or.inl hexpired))
  rcases ht.attestableMark attestation.user with ⟨hmark, hgenerous⟩
  rw [huser] at hmark hgenerous
  cases hafter : t.after.userConfigs attestation.user with
  | none =>
    rw [hafter] at hmark
    exact absurd hmark (not_le_of_gt (WithBot.bot_lt_coe _))
  | some user' =>
    rw [hafter] at hmark hgenerous
    have hfrom : user.attestableFrom ≤ user'.attestableFrom := WithBot.coe_le_coe.mp hmark
    refine Or.inr (Or.inr (Or.inr ⟨user', hafter, ?_⟩))
    rcases hrefused with hbefore | ⟨hcounts, hpast⟩
    · exact Or.inl (by omega)
    · rcases hgenerous with hless | hraised
      · exact Or.inr ⟨fun hmore => hcounts (hmore.of_generosity hless), hpast⟩
      · have hraised' : t.now ≤ user'.attestableFrom := WithBot.coe_le_coe.mp hraised
        exact Or.inl (by omega)

/-- The program refuses an uncountable transfer. -/
theorem Uncountable.attest_ne {inv : Invocation} {payer : Pubkey} {executed : Event × Chain}
    (h : Uncountable chain now attestation) (hnow : now ≤ inv.now) :
    attest d inv chain payer attestation ≠ .ok executed := by
  intro hok
  rcases attest_ok hok with ⟨config, user, invested, pending, -, huser, -, hactive, hamount, hfrom,
    -, hfresh, -, henabled, hinvested, hpositive, -⟩
  rcases h with hzero | hsmall | hexpired | ⟨user', huser', hrefused⟩
  · rw [hzero] at hamount
    exact absurd hamount (UInt64.lt_irrefl 0)
  · exact hsmall (investable_of_invested hinvested hpositive)
  · omega
  · rw [huser] at huser'
    cases huser'
    rcases hrefused with hbefore | ⟨hcounts, -⟩
    · omega
    · exact hcounts ⟨hactive, henabled, invested, hinvested, hpositive⟩

theorem paymentToken_bit {mask : UInt8} {token : ℕ} (hknown : token < paymentTokenCount)
    (henabled : enabled mask token = true) : mask.toNat &&& (1 <<< (token % 32)) ≠ 0 := by
  intro hzero
  have hbit : mask &&& (1 <<< UInt8.ofNat token) = 0 := by
    apply UInt8.toNat_inj.mp
    rw [UInt8.toNat_and]
    have hshift : ((1 : UInt8) <<< UInt8.ofNat token).toNat = 1 <<< (token % 32) := by
      unfold paymentTokenCount at hknown
      interval_cases token <;> rfl
    rw [hshift]
    exact hzero
  exact absurd hbit (of_decide_eq_true henabled)

theorem attestRefusal_eq_none {clock : ℤ}
    (hknown : attestation.paymentToken.toNat < paymentTokenCount) (hcounts : Counts user attestation)
    (hamount : attestation.amount ≠ 0) (hfrom : user.attestableFrom ≤ attestation.eventTime.toInt)
    (hpast : attestation.eventTime.toInt ≤ clock)
    (hfresh : clock ≤ attestation.eventTime.toInt + attestationTtlSeconds) :
    attestRefusal (Client.UserConfig.of user) attestation clock = none := by
  rcases hcounts with ⟨hactive, henabled, invested, hinvested, hpositive⟩
  have hpositive' : (invested.toNat : ℤ) ≠ 0 := by
    have hlt := UInt64.lt_iff_toNat_lt.mp hpositive
    rw [UInt64.toNat_zero] at hlt
    omega
  have hamount' : (attestation.amount.toNat : ℤ) ≠ 0 := by
    intro hzero
    exact hamount (UInt64.toNat_inj.mp (Int.natCast_eq_zero.mp hzero))
  have hstatus : ¬(Client.UserConfig.of user).status ≠ .active := not_not.mpr hactive
  have hvalid : ¬((attestation.amount.toNat : ℤ) = 0 ∨
      attestation.eventTime.toInt < (Client.UserConfig.of user).attestableFrom ∨
      attestation.eventTime.toInt > clock) := by
    rintro (hzero | hbefore | hahead)
    · exact hamount' hzero
    · exact absurd hbefore (not_lt_of_ge hfrom)
    · omega
  have hunexpired : ¬attestation.eventTime.toInt + attestationTtlSeconds < clock := by omega
  unfold attestRefusal
  dsimp only
  rw [if_neg hstatus, if_neg hvalid, if_neg hunexpired,
    if_neg (show ¬(Client.UserConfig.of user).paymentTokens &&& _ = 0 from
      paymentToken_bit hknown henabled)]
  cases hkind : attestation.kind with
  | income =>
    rw [hkind, UserConfig.invested, pure_eq_ok] at hinvested
    dsimp only
    rw [Client.incomeShare_eq, hinvested, if_neg hpositive']
  | payment =>
    rw [hkind] at hinvested
    rcases Client.change_eq user attestation.amount with ⟨added, hadded, hvalue⟩
    have hsame : added = invested := Except.ok.inj (hadded.symm.trans hinvested)
    dsimp only
    rw [hvalue, hsame, if_neg hpositive']

theorem uncountable_of_attestRefusal {clock : ℤ} {reason : LateriteError}
    (huser : chain.userConfigs attestation.user = some user)
    (hknown : attestation.paymentToken.toNat < paymentTokenCount) (hclock : clock ≤ now)
    (hjudged : Judged user attestation clock now)
    (hrefusal : attestRefusal (Client.UserConfig.of user) attestation clock = some reason) :
    Uncountable chain now attestation := by
  by_cases hamount : attestation.amount = 0
  · exact Or.inl hamount
  by_cases hinvestable : Investable attestation
  case neg => exact Or.inr (Or.inl hinvestable)
  by_cases hfrom : user.attestableFrom ≤ attestation.eventTime.toInt
  case neg => exact Or.inr (Or.inr (Or.inr ⟨user, huser, Or.inl (not_le.mp hfrom)⟩))
  have hpositive : 0 < attestation.amount := UInt64.pos_iff_ne_zero.mpr hamount
  rcases hjudged hpositive hinvestable hfrom with ⟨hpast, hbefore⟩
  by_cases hcounts : Counts user attestation
  · by_cases hfresh : clock ≤ attestation.eventTime.toInt + attestationTtlSeconds
    · rw [attestRefusal_eq_none hknown hcounts hamount hfrom (hpast hcounts) hfresh] at hrefusal
      cases hrefusal
    · exact Or.inr (Or.inr (Or.inl (by omega)))
  · exact Or.inr (Or.inr (Or.inr ⟨user, huser, Or.inr ⟨hcounts, hbefore hcounts⟩⟩))

/-- What the program refuses a transfer with that counts at its clock: an account check or the
attestor's signature. -/
def Unrelated (e : ProgramError) : Prop :=
  ∀ reason, e = .laterite reason → reason = .invalidAttestationSignature

theorem unrelated_anchor (e : AnchorError) : Unrelated (.anchor e) := fun _ h => nomatch h

theorem attest_refuses {inv : Invocation} {payer : Pubkey}
    (huser : chain.userConfigs attestation.user = some user)
    (hknown : attestation.paymentToken.toNat < paymentTokenCount) (hcounts : Counts user attestation)
    (hamount : 0 < attestation.amount) (hfrom : user.attestableFrom ≤ attestation.eventTime.toInt)
    (hpast : attestation.eventTime.toInt ≤ inv.now)
    (hfresh : inv.now ≤ attestation.eventTime.toInt + attestationTtlSeconds) :
    RefusesOnly Unrelated (attest d inv chain payer attestation) := by
  rcases hcounts with ⟨hactive, henabled, invested, hinvested, hpositive⟩
  have hunrelated : Unrelated LateriteError.invalidAttestationSignature := by
    intro reason h
    cases h
    rfl
  refine RefusesOnly.bind (RefusesOnly.require fun _ => unrelated_anchor _) fun _ _ => ?_
  refine RefusesOnly.bind (RefusesOnly.okOr (unrelated_anchor _)) fun config _ => ?_
  refine RefusesOnly.bind (RefusesOnly.okOr (unrelated_anchor _)) fun found hfound => ?_
  rw [Chain.loadUserConfig_eq_ok, huser] at hfound
  cases hfound
  refine RefusesOnly.bind (RefusesOnly.require fun _ => unrelated_anchor _) fun _ _ => ?_
  refine RefusesOnly.bind (verifySignature_refuses d _ _ _ hunrelated) fun _ _ => ?_
  refine RefusesOnly.bind (RefusesOnly.of_eq_ok (require_of hactive _)) fun _ _ => ?_
  refine RefusesOnly.bind (RefusesOnly.of_eq_ok (require_of ⟨hamount, hfrom, hpast⟩ _)) fun _ _ => ?_
  refine RefusesOnly.bind RefusesOnly.ite_panic fun expiry hexpiry => ?_
  have hexpiry' := (I64.checkedAdd_eq_ok.mp hexpiry).2
  refine RefusesOnly.bind (RefusesOnly.of_eq_ok (require_of (by omega) _)) fun _ _ => ?_
  have htoken : enablesKnown user.paymentTokens attestation.paymentToken.toNat = .ok true := by
    rw [enablesKnown_eq, henabled, decide_eq_true hknown]
    rfl
  rw [htoken, ok_bind]
  refine RefusesOnly.bind (RefusesOnly.of_eq_ok (require_of rfl _)) fun _ _ => ?_
  rw [hinvested, ok_bind]
  refine RefusesOnly.bind (RefusesOnly.of_eq_ok (require_of hpositive _)) fun _ _ => ?_
  refine RefusesOnly.bind RefusesOnly.ite_panic fun _ _ => ?_
  exact RefusesOnly.of_eq_ok rfl

theorem attestFailure_refused {fault : Fault ProgramError} {reason : LateriteError}
    (h : attestFailure fault = some (.refused reason)) :
    fault = .error (.laterite reason) ∧ reason ≠ .invalidAttestationSignature := by
  unfold attestFailure at h
  split at h
  · split at h
    · cases h
    · rename_i hsignature
      split at h
      · cases h
        exact ⟨rfl, hsignature⟩
      · cases h
  · cases h
  · cases h

theorem attestFailure_counted {fault : Fault ProgramError}
    (h : attestFailure fault = some .counted) : fault = .error (.anchor .accountAlreadyInUse) := by
  unfold attestFailure at h
  split at h
  · split at h
    · cases h
    · split at h <;> cases h
  · rfl
  · cases h

theorem uncountable_of_refused {inv : Invocation} {payer : Pubkey} {fault : Fault ProgramError}
    {clock : ℤ} {reason : LateriteError} (huser : chain.userConfigs attestation.user = some user)
    (hknown : attestation.paymentToken.toNat < paymentTokenCount)
    (hpast : attestation.eventTime.toInt ≤ inv.now)
    (hjudged : Judged user attestation clock inv.now)
    (hattest : attest d inv chain payer attestation = .error fault)
    (hrefused : attestFailure fault = some (.refused reason)) :
    Uncountable chain inv.now attestation := by
  rcases attestFailure_refused hrefused with ⟨rfl, hreason⟩
  by_cases hamount : attestation.amount = 0
  · exact Or.inl hamount
  by_cases hinvestable : Investable attestation
  case neg => exact Or.inr (Or.inl hinvestable)
  by_cases hfrom : user.attestableFrom ≤ attestation.eventTime.toInt
  case neg => exact Or.inr (Or.inr (Or.inr ⟨user, huser, Or.inl (not_le.mp hfrom)⟩))
  have hpositive : 0 < attestation.amount := UInt64.pos_iff_ne_zero.mpr hamount
  by_cases hcounts : Counts user attestation
  · by_cases hfresh : inv.now ≤ attestation.eventTime.toInt + attestationTtlSeconds
    · have honly := @attest_refuses d chain attestation user inv payer huser hknown hcounts hpositive
        hfrom hpast hfresh
      exact absurd (honly _ hattest reason rfl) hreason
    · exact Or.inr (Or.inr (Or.inl (by omega)))
  · have hbefore := (hjudged hpositive hinvestable hfrom).2 hcounts
    exact Or.inr (Or.inr (Or.inr ⟨user, huser, Or.inr ⟨hcounts, hbefore⟩⟩))

theorem record_of_counted {inv : Invocation} {payer : Pubkey}
    (hattest : attest d inv chain payer attestation =
      .error (.error (.anchor .accountAlreadyInUse))) :
    chain.records attestation.transferId ≠ none := by
  intro hnone
  have honly : RefusesOnly (fun e => e ≠ .anchor .accountAlreadyInUse)
      (attest d inv chain payer attestation) := by
    refine RefusesOnly.bind (RefusesOnly.require fun _ => by decide) fun _ _ => ?_
    refine RefusesOnly.bind (RefusesOnly.okOr (by decide)) fun _ _ => ?_
    refine RefusesOnly.bind (RefusesOnly.okOr (by decide)) fun user _ => ?_
    refine RefusesOnly.bind (RefusesOnly.of_eq_ok (require_of hnone _)) fun _ _ => ?_
    refine RefusesOnly.bind (verifySignature_refuses d _ _ _ (by decide)) fun _ _ => ?_
    refine RefusesOnly.bind (RefusesOnly.require fun _ => by decide) fun _ _ => ?_
    refine RefusesOnly.bind (RefusesOnly.require fun _ => by decide) fun _ _ => ?_
    refine RefusesOnly.bind RefusesOnly.ite_panic fun _ _ => ?_
    refine RefusesOnly.bind (RefusesOnly.require fun _ => by decide) fun _ _ => ?_
    refine RefusesOnly.bind (RefusesOnly.of_eq_ok (enablesKnown_eq _ _)) fun _ _ => ?_
    refine RefusesOnly.bind (RefusesOnly.require fun _ => by decide) fun _ _ => ?_
    rcases user.exists_invested attestation.kind attestation.amount with ⟨invested, hinvested⟩
    rw [hinvested, ok_bind]
    refine RefusesOnly.bind (RefusesOnly.require fun _ => by decide) fun _ _ => ?_
    refine RefusesOnly.bind RefusesOnly.ite_panic fun _ _ => ?_
    exact RefusesOnly.of_eq_ok rfl
  exact honly _ hattest rfl

end Laterite.Watcher
