import Laterite.ClientSweep
import Laterite.TransferRefusals

/-!
# The attest the watcher judges

The watcher asks its own copy of the program's checks before it sends an attest. On a sound
transaction the copy answers with the program's outcome, and the passing of time alone never turns
a refused transfer into one that counts.
-/

namespace Laterite.Watcher

open CheckedComputation

/-- An attest whose transaction is sound: its payer signs, its record is absent, its user is on the
chain and the attestor's signature check runs right before it. -/
structure Presented (d : Deployment) (inv : Invocation) (chain : Chain) (payer : Pubkey)
    (attestation : Attestation) (user : UserConfig) : Prop where
  signed : inv.requireSigner payer = .ok ()
  user : chain.userConfigs attestation.user = some user
  absent : chain.records attestation.transferId = none
  verified : ∃ config, chain.loadConfig = .ok config ∧
    verifySignature d inv.previousInstruction config.attestor
      (attestationMessage d config.genesisHash attestation) = .ok ()

/-- What a judgement of the attest says of its outcome. -/
def Judges (refusal : Option LateriteError) (outcome : Result (Event × Chain)) : Prop :=
  match refusal with
  | none => ∃ executed, outcome = .ok executed
  | some reason => outcome = .error (.error (.laterite reason))

variable {d : Deployment} {chain : Chain} {attestation : Attestation} {now later : ℤ}
  {user : UserConfig}

theorem Judges.none_iff {refusal : Option LateriteError} {outcome : Result (Event × Chain)}
    (h : Judges refusal outcome) : refusal = none ↔ ∃ executed, outcome = .ok executed := by
  cases refusal with
  | none => exact ⟨fun _ => h, fun _ => rfl⟩
  | some reason =>
    have hrefused : outcome = .error (.error (.laterite reason)) := h
    rw [hrefused]
    constructor
    · intro hnone
      cases hnone
    · rintro ⟨executed, hexecuted⟩
      cases hexecuted

/-- A check both sides make leaves them to agree on the rest. -/
theorem Judges.require {p q : Prop} [Decidable p] [Decidable q] {reason : LateriteError}
    {refusal : Option LateriteError} {rest : Unit → Result (Event × Chain)} (hpq : q ↔ ¬p)
    (h : p → Judges refusal (rest ())) :
    Judges (if q then some reason else refusal)
      (CheckedComputation.require p (ProgramError.laterite reason) >>= rest) := by
  by_cases hp : p
  · rw [require_of hp, ok_bind, if_neg (fun hq => hpq.mp hq hp)]
    exact h hp
  · rw [require_of_not hp, error_bind, if_pos (hpq.mpr hp)]
    rfl

theorem enabled_iff_bit {mask : UInt8} {token : ℕ} (hknown : token < paymentTokenCount) :
    mask.toNat &&& (1 <<< (token % 32)) = 0 ↔ ¬enabled mask token = true := by
  rw [Nat.mod_eq_of_lt (Nat.lt_trans hknown (by decide))]
  exact Client.enabled_eq hknown

theorem exists_invested_eq (user : UserConfig) (attestation : Attestation) :
    ∃ invested, user.invested attestation.kind attestation.amount = .ok invested ∧
      (attestation.kind = .income →
        Client.incomeShare (Client.UserConfig.of user) attestation.amount.toNat = invested.toNat) ∧
      (attestation.kind = .payment →
        Client.change (Client.UserConfig.of user) attestation.amount.toNat = invested.toNat) := by
  cases attestation.kind with
  | income =>
    have hshare := Client.incomeShare_eq user attestation.amount
    exact ⟨_, rfl, fun _ => hshare, fun h => nomatch h⟩
  | payment =>
    rcases Client.change_eq user attestation.amount with ⟨invested, hinvested, hvalue⟩
    exact ⟨invested, hinvested, fun h => (nomatch h), fun _ => hvalue⟩

theorem attestRefusal_foretells {inv : Invocation} {payer : Pubkey}
    (hpresented : Presented d inv chain payer attestation user)
    (hknown : attestation.paymentToken.toNat < paymentTokenCount)
    (htime : Client.Within attestation.eventTime.toInt) :
    Judges (attestRefusal (Client.UserConfig.of user) attestation inv.now)
      (attest d inv chain payer attestation) := by
  rcases hpresented.verified with ⟨config, hconfig, hverified⟩
  have huser := (chain.loadUserConfig_eq_ok attestation.user).mpr hpresented.user
  have hexpiry : (I64.checkedAdd attestation.eventTime.toInt attestationTtlSeconds : Result ℤ) =
      .ok (attestation.eventTime.toInt + attestationTtlSeconds) := by
    apply I64.checkedAdd_eq_ok.mpr
    unfold Client.Within at htime
    unfold I64.minValue I64.maxValue attestationTtlSeconds daySeconds
    omega
  rcases exists_invested_eq user attestation with ⟨invested, hinvested, hshare, hchange⟩
  have hamount : (attestation.amount.toNat : ℤ) = 0 ↔ ¬attestation.amount > 0 := by
    rw [gt_iff_lt, UInt64.lt_iff_toNat_lt, UInt64.toNat_zero]
    omega
  have hpositive : (invested.toNat : ℤ) = 0 ↔ ¬invested > 0 := by
    rw [gt_iff_lt, UInt64.lt_iff_toNat_lt, UInt64.toNat_zero]
    omega
  unfold attestRefusal attest
  rw [hpresented.signed, ok_bind, hconfig, ok_bind, huser, ok_bind,
    require_of hpresented.absent, ok_bind, hverified, ok_bind]
  apply Judges.require Iff.rfl
  intro _
  apply Judges.require
  · change _ ∨ attestation.eventTime.toInt < user.attestableFrom ∨ _ ↔ _
    rw [hamount, not_and_or, not_and_or, not_le, not_le]
  intro _
  rw [hexpiry, ok_bind]
  apply Judges.require (not_le.symm)
  intro _
  rw [enablesKnown_eq, decide_eq_true hknown, Bool.true_and, ok_bind]
  apply Judges.require (enabled_iff_bit hknown)
  intro _
  rw [hinvested, ok_bind]
  cases hkind : attestation.kind with
  | income =>
    dsimp only
    rw [hshare hkind]
    apply Judges.require hpositive
    intro _
    exact ⟨_, rfl⟩
  | payment =>
    dsimp only
    rw [hchange hkind]
    apply Judges.require hpositive
    intro _
    exact ⟨_, rfl⟩

/-- A transfer its user's settings refuse stays refused: as time passes it can only expire. -/
theorem attestRefusal_stable {user : Client.UserConfig} {reason : LateriteError}
    (hpast : attestation.eventTime.toInt ≤ now) (hlater : now ≤ later)
    (hrefused : attestRefusal user attestation now = some reason) :
    ∃ reason', attestRefusal user attestation later = some reason' := by
  apply Option.ne_none_iff_exists'.mp
  intro hnone
  unfold attestRefusal at hrefused hnone
  dsimp only at hrefused hnone
  split at hnone
  · cases hnone
  rename_i hstatus
  split at hnone
  · cases hnone
  rename_i hvalid
  split at hnone
  · cases hnone
  rename_i hfresh
  have hvalid' : ¬((attestation.amount.toNat : ℤ) = 0 ∨
      attestation.eventTime.toInt < user.attestableFrom ∨ attestation.eventTime.toInt > now) := by
    omega
  have hfresh' : ¬attestation.eventTime.toInt + attestationTtlSeconds < now := by omega
  rw [if_neg hstatus, if_neg hvalid', if_neg hfresh', hnone] at hrefused
  cases hrefused

/-- The mirror answers what the program would, and a refusal of a transfer made by then stays one:
the clock alone never makes it count. -/
theorem attestRefusal_mirrors (hknown : attestation.paymentToken.toNat < paymentTokenCount)
    (htime : Client.Within attestation.eventTime.toInt) :
    (∀ (d : Deployment) (inv : Invocation) (chain : Chain) (payer : Pubkey) (user : UserConfig),
      Presented d inv chain payer attestation user → Client.Within inv.now →
        (attestRefusal (Client.UserConfig.of user) attestation inv.now = none ↔
          ∃ executed, attest d inv chain payer attestation = .ok executed) ∧
        ∀ reason, attestRefusal (Client.UserConfig.of user) attestation inv.now = some reason →
          attest d inv chain payer attestation = .error (.error (.laterite reason))) ∧
    ∀ (user : Client.UserConfig) (now later : ℤ) (reason : LateriteError),
      reason ∈ [.attestationExpired, .unknownPaymentToken, .userNotActive, .nothingToInvest] →
      attestation.eventTime.toInt ≤ now → now ≤ later →
      attestRefusal user attestation now = some reason →
        ∃ reason', attestRefusal user attestation later = some reason' := by
  constructor
  · intro d inv chain payer user hpresented _
    have hforetold := attestRefusal_foretells hpresented hknown htime
    refine ⟨hforetold.none_iff, fun reason hreason => ?_⟩
    rw [hreason] at hforetold
    exact hforetold
  · intro user now later reason _ hpast hlater hrefused
    exact attestRefusal_stable hpast hlater hrefused

theorem exists_presented : ∃ user,
    Presented Rehearsal.deployment Rehearsal.attesting.1 Rehearsal.atAttest.before Rehearsal.founder
      Rehearsal.attestation user ∧
    attestRefusal (Client.UserConfig.of user) Rehearsal.attestation 1700000200 = none := by
  have huser : (Rehearsal.atAttest.before.userConfigs Rehearsal.user).any (fun user =>
      attestRefusal (Client.UserConfig.of user) Rehearsal.attestation 1700000200 = none) = true := by
    decide +kernel
  have hconfig : Rehearsal.atAttest.before.config.any (fun config =>
      (verifySignature Rehearsal.deployment (some Rehearsal.signatureCheck) config.attestor
        (attestationMessage Rehearsal.deployment config.genesisHash
          Rehearsal.attestation)).toOption.isSome) = true := by
    decide +kernel
  rcases (Option.any_eq_true _ _).mp huser with ⟨user, huser, hanswer⟩
  rcases (Option.any_eq_true _ _).mp hconfig with ⟨config, hconfig, hverified⟩
  have hpresented : Presented Rehearsal.deployment Rehearsal.attesting.1 Rehearsal.atAttest.before
      Rehearsal.founder Rehearsal.attestation user := {
    signed := require_of (by decide) _
    user := huser
    absent := by decide +kernel
    verified := by
      refine ⟨config, Rehearsal.atAttest.before.loadConfig_eq_ok.mpr hconfig, ?_⟩
      cases hsigned : verifySignature Rehearsal.deployment (some Rehearsal.signatureCheck)
          config.attestor (attestationMessage Rehearsal.deployment config.genesisHash
            Rehearsal.attestation) with
      | ok _ => exact hsigned
      | error fault =>
        rw [hsigned] at hverified
        cases hverified }
  exact ⟨user, hpresented, of_decide_eq_true hanswer⟩

/-- The rehearsed user's payment counts when it is attested. -/
theorem attestRefusal_mirrors_presented :
    ∃ executed, attest Rehearsal.deployment Rehearsal.attesting.1 Rehearsal.atAttest.before
      Rehearsal.founder Rehearsal.attestation = .ok executed := by
  rcases exists_presented with ⟨user, hpresented, hanswer⟩
  have hmirrors := @attestRefusal_mirrors Rehearsal.attestation (by decide) (by decide)
  exact (hmirrors.1 _ _ _ _ user hpresented (by decide)).1.mp hanswer

end Laterite.Watcher
