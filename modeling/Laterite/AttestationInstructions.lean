import Laterite.AmountEngine
import Laterite.UserSubscriptions

/-!
# Attested transfers

The attestor signs each transfer off-chain; anyone submits it once, right after the
signature check, and anyone closes its record once it has expired.
-/

namespace Laterite

open CheckedComputation

/-- Where the signature check's standard layout puts the public key, the signature and the
message, all inside its own data. -/
def publicKeyOffset : ℕ := 16

def signatureOffset : ℕ := publicKeyOffset + 32

def messageOffset : ℕ := signatureOffset + 64

def EventKind.tag : EventKind → UInt8
  | .income => 0
  | .payment => 1

def Attestation.serialize (self : Attestation) : List UInt8 :=
  self.kind.tag :: self.user.toList ++ self.paymentToken ::
    LittleEndian.bytes 8 self.amount.toNat ++ LittleEndian.bytes 8 self.eventTime.toUInt64.toNat ++
    self.signature.toList ++ LittleEndian.bytes 2 self.transferIndex.toNat

/-- What the attestor signs: the domain, the program, the cluster, the attestation. -/
def attestationMessage (d : Deployment) (genesisHash : Vector UInt8 32) (attestation : Attestation) :
    List UInt8 :=
  attestationDomain ++ d.id.toList ++ genesisHash.toList ++ attestation.serialize

/-- The previous instruction must be the signature check of exactly one signature by
`attestor` over `message`, every offset inside its own data. -/
def verifySignature (d : Deployment) (previous : Option InstructionData) (attestor : Pubkey)
    (message : List UInt8) : Result Unit := do
  let instruction ← okOr previous LateriteError.invalidAttestationSignature
  let here := 65535
  let header := [signatureOffset, here, publicKeyOffset, here, messageOffset,
    message.length % 65536, here]
  let data := instruction.data
  require (instruction.programId = d.ed25519ProgramId ∧
      data.length = messageOffset + message.length) LateriteError.invalidAttestationSignature
  let count ← slice data 0 2
  let offsets ← slice data 2 16
  let key ← slice data publicKeyOffset signatureOffset
  let signed ← sliceFrom data messageOffset
  require (count = [1, 0] ∧ offsets = header.flatMap (LittleEndian.bytes 2) ∧
      key = attestor.toList ∧ signed = message) LateriteError.invalidAttestationSignature

/-- The test of a payment token's bit, false past the table. -/
def enablesKnown (mask : UInt8) (paymentToken : ℕ) : Result Bool :=
  if paymentToken < paymentTokenCount then enables mask paymentToken else return false

/-- What the rule an attestation feeds adds to the pending amount. -/
def UserConfig.invested (self : UserConfig) (kind : EventKind) (amount : UInt64) : Result UInt64 :=
  match kind with
  | .income => return self.incomeShare amount
  | .payment => self.change amount

variable (d : Deployment) (inv : Invocation) (chain : Chain)

def attest (payer : Pubkey) (attestation : Attestation) : Result (Event × Chain) := do
  inv.requireSigner payer
  let config ← chain.loadConfig
  let userConfig ← chain.loadUserConfig attestation.user
  require (chain.records attestation.transferId = none) AnchorError.accountAlreadyInUse
  verifySignature d inv.previousInstruction config.attestor
    (attestationMessage d config.genesisHash attestation)
  require (userConfig.status = .active) LateriteError.userNotActive
  let eventTime := attestation.eventTime.toInt
  require (attestation.amount > 0 ∧ userConfig.attestableFrom ≤ eventTime ∧ eventTime ≤ inv.now)
    LateriteError.invalidAttestation
  let expiry ← I64.checkedAdd eventTime attestationTtlSeconds
  require (expiry ≥ inv.now) LateriteError.attestationExpired
  let isEnabled ← enablesKnown userConfig.paymentTokens attestation.paymentToken.toNat
  require isEnabled LateriteError.unknownPaymentToken
  let invested ← userConfig.invested attestation.kind attestation.amount
  require (invested > 0) LateriteError.nothingToInvest
  let userConfig := { userConfig with pending := userConfig.pending.saturatingAdd invested }
  let expiresAt ← I64.checkedAdd eventTime attestationTtlSeconds
  let chain := chain.setUserConfig attestation.user userConfig
  return (.attested attestation invested userConfig.pending,
    chain.setRecord attestation.transferId (some ⟨payer, expiresAt⟩))

def closeAttestation (record : TransferId) (payer : Pubkey) : Result Chain := do
  let state ← okOr (chain.records record) AnchorError.accountNotInitialized
  require (state.payer = payer) AnchorError.constraintHasOne
  require ((chain.accounts payer).owner = Pubkey.default) AnchorError.accountNotSystemOwned
  require (inv.now > state.expiresAt) LateriteError.attestationNotExpired
  return chain.setRecord record none

/-- The signature check's slices lie inside its data, whose length is compared first. -/
theorem noPanic_verifySignature (previous : Option InstructionData) (attestor : Pubkey)
    (message : List UInt8) : NoPanic (verifySignature d previous attestor message) := by
  refine NoPanic.bind (NoPanic.okOr _ _) fun instruction _ => ?_
  refine NoPanic.bind (NoPanic.require _ _) fun _ hlength => ?_
  rw [require_eq_ok] at hlength
  obtain ⟨-, hlength⟩ := hlength
  unfold messageOffset signatureOffset publicKeyOffset at *
  refine NoPanic.bind (NoPanic.slice (by omega) (by omega)) fun _ _ => ?_
  refine NoPanic.bind (NoPanic.slice (by omega) (by omega)) fun _ _ => ?_
  refine NoPanic.bind (NoPanic.slice (by omega) (by omega)) fun _ _ => ?_
  refine NoPanic.bind (NoPanic.sliceFrom (by omega)) fun _ _ => ?_
  exact NoPanic.require _ _

theorem verifySignature_refuses (previous : Option InstructionData) (attestor : Pubkey)
    (message : List UInt8) {allowed : ProgramError → Prop}
    (h : allowed LateriteError.invalidAttestationSignature) :
    RefusesOnly allowed (verifySignature d previous attestor message) := by
  refine RefusesOnly.bind (RefusesOnly.okOr h) fun instruction _ => ?_
  refine RefusesOnly.bind (RefusesOnly.require fun _ => h) fun _ _ => ?_
  refine RefusesOnly.bind RefusesOnly.ite_panic fun _ _ => ?_
  refine RefusesOnly.bind RefusesOnly.ite_panic fun _ _ => ?_
  refine RefusesOnly.bind RefusesOnly.ite_panic fun _ _ => ?_
  refine RefusesOnly.bind RefusesOnly.ite_panic fun _ _ => ?_
  exact RefusesOnly.require fun _ => h

theorem UserConfig.exists_invested (self : UserConfig) (kind : EventKind) (amount : UInt64) :
    ∃ v, self.invested kind amount = .ok v := by
  cases kind with
  | income => exact ⟨_, rfl⟩
  | payment =>
    obtain ⟨v, hv, -⟩ := self.exists_change amount
    exact ⟨v, hv⟩

theorem noPanic_enables {mask : UInt8} {token : ℕ} (h : token < 8) : NoPanic (enables mask token) :=
  NoPanic.of_eq_ok (enables_of_lt h)

theorem enablesKnown_eq (mask : UInt8) (token : ℕ) :
    enablesKnown mask token = .ok (decide (token < paymentTokenCount) && enabled mask token) := by
  unfold enablesKnown
  split
  · rename_i h
    rw [enables_of_lt (by unfold paymentTokenCount at h; omega)]
    simp [h]
  · rename_i h
    simp [h]

end Laterite
