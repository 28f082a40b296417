import Laterite.ClientConstants
import Laterite.PriceUpdateEncoding
import Laterite.ReplayedRuns
import Laterite.SignatureChecks

/-!
# The pair that submits an attestation

The client encodes the attestation, has the attestor sign its message and puts the signature
check right before `attest`. Its encoders are its own; the bytes are those the program rebuilds.
-/

namespace Laterite

namespace Client

/-- An attestation as the client holds it, in unbounded numbers. -/
structure AttestationArgs where
  kind : EventKind
  user : Pubkey
  paymentToken : ℤ
  amount : ℤ
  eventTime : ℤ
  signature : Vector UInt8 64
  transferIndex : ℤ

def AttestationArgs.of (attestation : Attestation) : AttestationArgs where
  kind := attestation.kind
  user := attestation.user
  paymentToken := attestation.paymentToken.toNat
  amount := attestation.amount.toNat
  eventTime := attestation.eventTime.toInt
  signature := attestation.signature
  transferIndex := attestation.transferIndex.toNat

/-- A number in `size` bytes, the least significant first; a negative one in two's complement. -/
def encodeInteger (size : ℕ) (number : ℤ) : List UInt8 :=
  LittleEndian.bytes size (number % 256 ^ size).toNat

/-- The place of a kind in its enumeration. -/
def eventKindIndex (kind : EventKind) : ℤ := ([.income, .payment] : List EventKind).idxOf kind

def attestationDomain : List UInt8 :=
  [108, 97, 116, 101, 114, 105, 116, 101, 58, 97, 116, 116, 101, 115, 116, 97, 116, 105, 111, 110, 58,
    118, 49]

def encodeAttestation (args : AttestationArgs) : List UInt8 :=
  encodeInteger 1 (eventKindIndex args.kind) ++ args.user.toList ++ encodeInteger 1 args.paymentToken ++
    encodeInteger 8 args.amount ++ encodeInteger 8 args.eventTime ++ args.signature.toList ++
    encodeInteger 2 args.transferIndex

/-- What the attestor signs, part after part. -/
def getAttestationMessage (programAddress : Pubkey) (genesisHash : Vector UInt8 32)
    (args : AttestationArgs) : List UInt8 :=
  [attestationDomain, programAddress.toList, genesisHash.toList, encodeAttestation args].flatten

structure Ed25519SignatureOffsets where
  signatureOffset : ℤ
  signatureInstructionIndex : ℤ
  publicKeyOffset : ℤ
  publicKeyInstructionIndex : ℤ
  messageDataOffset : ℤ
  messageDataSize : ℤ
  messageInstructionIndex : ℤ

def encodeOffsets (entry : Ed25519SignatureOffsets) : List UInt8 :=
  encodeInteger 2 entry.signatureOffset ++ encodeInteger 2 entry.signatureInstructionIndex ++
    encodeInteger 2 entry.publicKeyOffset ++ encodeInteger 2 entry.publicKeyInstructionIndex ++
    encodeInteger 2 entry.messageDataOffset ++ encodeInteger 2 entry.messageDataSize ++
    encodeInteger 2 entry.messageInstructionIndex

/-- The signature check over `entries`, followed by the bytes that entries can point into. -/
def getEd25519Instruction (ed25519ProgramAddress : Pubkey) (entries : List Ed25519SignatureOffsets)
    (inlined : List UInt8) : InstructionData where
  programId := ed25519ProgramAddress
  data := encodeInteger 1 entries.length ++ encodeInteger 1 0 ++ entries.flatMap encodeOffsets ++ inlined

/-- An instruction index that names the check itself. -/
def ed25519ThisInstruction : ℤ := 0xffff

/-- The check of one signature in the standard layout. -/
def getEd25519SignatureInstruction (ed25519ProgramAddress : Pubkey) (message : List UInt8)
    (publicKey : Pubkey) (signature : Vector UInt8 64) : InstructionData :=
  let publicKeyOffset : ℤ := 16
  let signatureOffset := publicKeyOffset + 32
  let messageDataOffset := signatureOffset + 64
  getEd25519Instruction ed25519ProgramAddress
    [{ signatureOffset := signatureOffset
       signatureInstructionIndex := ed25519ThisInstruction
       publicKeyOffset := publicKeyOffset
       publicKeyInstructionIndex := ed25519ThisInstruction
       messageDataOffset := messageDataOffset
       messageDataSize := message.length
       messageInstructionIndex := ed25519ThisInstruction }]
    (publicKey.toList ++ signature.toList ++ message)

def attestDiscriminator : List UInt8 := [83, 148, 120, 119, 144, 139, 117, 160]

def getAttestInstruction (programAddress : Pubkey) (args : AttestationArgs) : InstructionData where
  programId := programAddress
  data := attestDiscriminator ++ encodeAttestation args

/-- The pair that submits an attestation the attestor signed; `signMessage` is the attestor's
signature over a message. -/
def getAttestInstructions (d : Deployment) (args : AttestationArgs) (attestor : Pubkey)
    (signMessage : List UInt8 → Vector UInt8 64) (genesisHash : Vector UInt8 32) :
    InstructionData × InstructionData :=
  let message := getAttestationMessage d.id genesisHash args
  (getEd25519SignatureInstruction d.ed25519ProgramId message attestor (signMessage message),
    getAttestInstruction d.id args)

theorem encodeInteger_natCast {size number : ℕ} (h : number < 256 ^ size) :
    encodeInteger size number = LittleEndian.bytes size number := by
  have hpow : ((256 ^ size : ℕ) : ℤ) = 256 ^ size := Int.natCast_pow 256 size
  have hcast : (number : ℤ) % 256 ^ size = (number % 256 ^ size : ℕ) := by
    rw [← hpow, Int.natCast_emod]
  rw [encodeInteger, hcast, Int.toNat_natCast, Nat.mod_eq_of_lt h]

theorem encodeInteger_byte (byte : UInt8) : encodeInteger 1 byte.toNat = [byte] := by
  have hlt := byte.toNat_lt
  rw [encodeInteger_natCast (by omega)]
  have hbyte : LittleEndian.bytes 1 byte.toNat = [UInt8.ofNat (byte.toNat % 256)] := rfl
  rw [hbyte, Nat.mod_eq_of_lt (by omega), UInt8.ofNat_toNat]

theorem encodeInteger_int64 (word : Int64) :
    encodeInteger 8 word.toInt = LittleEndian.bytes 8 word.toUInt64.toNat := by
  have hword := LittleEndian.signed_toNat64 word.toUInt64
  have hlt := word.toUInt64.toNat_lt
  rw [Int64.toInt64_toUInt64] at hword
  have hvalue : (word.toInt % 256 ^ 8).toNat = word.toUInt64.toNat := by
    unfold LittleEndian.signed at hword
    split at hword <;> omega
  rw [encodeInteger, hvalue]

theorem encodeInteger_eventKind (kind : EventKind) :
    encodeInteger 1 (eventKindIndex kind) = [kind.tag] := by
  cases kind <;> rfl

theorem attestationDomain_eq : attestationDomain = Laterite.attestationDomain := by rfl

theorem encodeAttestation_eq (attestation : Attestation) :
    encodeAttestation (AttestationArgs.of attestation) = attestation.serialize := by
  have hamount : encodeInteger 8 attestation.amount.toNat =
      LittleEndian.bytes 8 attestation.amount.toNat :=
    encodeInteger_natCast attestation.amount.toNat_lt
  have hindex : encodeInteger 2 attestation.transferIndex.toNat =
      LittleEndian.bytes 2 attestation.transferIndex.toNat :=
    encodeInteger_natCast attestation.transferIndex.toNat_lt
  unfold encodeAttestation AttestationArgs.of Attestation.serialize
  dsimp only
  rw [encodeInteger_eventKind, encodeInteger_byte, hamount, encodeInteger_int64, hindex]
  simp only [List.append_assoc, List.cons_append, List.nil_append]

/-- The client has the attestor sign what the program rebuilds. -/
theorem getAttestationMessage_eq (d : Deployment) (genesisHash : Vector UInt8 32)
    (attestation : Attestation) :
    getAttestationMessage d.id genesisHash (AttestationArgs.of attestation) =
      attestationMessage d genesisHash attestation := by
  unfold getAttestationMessage attestationMessage
  rw [encodeAttestation_eq, attestationDomain_eq]
  simp only [List.flatten_cons, List.flatten_nil, List.append_nil, List.append_assoc]

theorem getEd25519SignatureInstruction_eq (ed25519ProgramAddress publicKey : Pubkey)
    {message : List UInt8} (hlength : message.length < 65536) (signature : Vector UInt8 64) :
    getEd25519SignatureInstruction ed25519ProgramAddress message publicKey signature =
      ⟨ed25519ProgramAddress, standardLayout publicKey signature message⟩ := by
  have hsize : encodeInteger 2 message.length = LittleEndian.bytes 2 message.length :=
    encodeInteger_natCast hlength
  have hword {word : ℕ} (h : word < 256 ^ 2) := @encodeInteger_natCast 2 word h
  have hhere : encodeInteger 2 ed25519ThisInstruction = LittleEndian.bytes 2 65535 := hword (by decide)
  have hsignature : encodeInteger 2 (16 + 32) = LittleEndian.bytes 2 signatureOffset :=
    hword (by decide)
  have hkey : encodeInteger 2 16 = LittleEndian.bytes 2 publicKeyOffset := hword (by decide)
  have hmessage : encodeInteger 2 (16 + 32 + 64) = LittleEndian.bytes 2 messageOffset :=
    hword (by decide)
  have hcount : encodeInteger 1 ((1 : ℕ) : ℤ) = [1] := rfl
  have hpadding : encodeInteger 1 0 = [0] := rfl
  unfold getEd25519SignatureInstruction getEd25519Instruction standardLayout standardHeader
  simp only [List.length_singleton, List.flatMap_cons, List.flatMap_nil, encodeOffsets,
    hsize, hhere, hsignature, hkey, hmessage, hcount, hpadding, Nat.mod_eq_of_lt hlength,
    List.append_assoc, List.append_nil, List.cons_append, List.nil_append]

end Client

open Client CheckedComputation

/-- The attestor's key signed the attestation: some signature by it verifies for the message of
this very attestation, program and cluster. -/
def Signed (d : Deployment) (verify : (publicKey signature message : List UInt8) → Bool)
    (config : Config) (attestation : Attestation) : Prop :=
  ∃ signature : Vector UInt8 64, verify config.attestor.toList signature.toList
    (attestationMessage d config.genesisHash attestation) = true

theorem signed_of_verifySignature {d : Deployment}
    {verify : (publicKey signature message : List UInt8) → Bool} {sysvar : InstructionsSysvar}
    {config : Config} {attestation : Attestation}
    (hchecked : SignaturesChecked d verify sysvar.instructions)
    (h : verifySignature d sysvar.previous config.attestor
      (attestationMessage d config.genesisHash attestation) = .ok ()) :
    Signed d verify config attestation := by
  rcases verifySignature_iff.mp h with ⟨signature, hprevious⟩
  have hlength : (attestationMessage d config.genesisHash attestation).length < 65536 := by
    rw [length_attestationMessage]
    decide
  refine ⟨signature, ?_⟩
  rw [← @entryVerifies_standardLayout verify sysvar.instructions _ signature _ hlength]
  exact hchecked _ (mem_of_previous hprevious) rfl 0 (by decide : 0 < 1)

theorem attest_verifies {d : Deployment} {inv : Invocation} {chain : Chain} {payer : Pubkey}
    {attestation : Attestation} {result : Event × Chain}
    (h : attest d inv chain payer attestation = .ok result) :
    ∃ config, chain.config = some config ∧
      verifySignature d inv.previousInstruction config.attestor
        (attestationMessage d config.genesisHash attestation) = .ok () := by
  unfold attest at h
  simp only [bind_eq_ok, Chain.loadConfig, okOr_eq_ok] at h
  rcases h with ⟨_, _, config, hconfig, _, _, _, _, _, hverified, _⟩
  exact ⟨config, hconfig, hverified⟩

/-- The instruction just before is accepted exactly when it checks some signature by the attestor
over this attestation's message in the standard layout; so a success means that the attestor
signed this attestation, in a transaction whose checks passed. No message is shared by two
attestations, programs or clusters, and the pair the client builds is accepted wherever it
stands in its transaction. -/
theorem attestation_signature_exact (d : Deployment) :
    (∀ (sysvar : InstructionsSysvar) (config : Config) (attestation : Attestation),
      verifySignature d sysvar.previous config.attestor
        (attestationMessage d config.genesisHash attestation) = .ok () ↔
      ∃ signature, sysvar.previous = some ⟨d.ed25519ProgramId, standardLayout config.attestor
        signature (attestationMessage d config.genesisHash attestation)⟩) ∧
    (∀ (verify : (publicKey signature message : List UInt8) → Bool) (sysvar : InstructionsSysvar)
      (inv : Invocation) (chain : Chain) (payer : Pubkey) (attestation : Attestation)
      (result : Event × Chain), inv.previousInstruction = sysvar.previous →
      SignaturesChecked d verify sysvar.instructions →
      attest d inv chain payer attestation = .ok result →
      ∃ config, chain.config = some config ∧ Signed d verify config attestation) ∧
    (∀ (d' : Deployment) (genesisHash genesisHash' : Vector UInt8 32)
      (attestation attestation' : Attestation),
      attestationMessage d genesisHash attestation = attestationMessage d' genesisHash' attestation' →
      d.id = d'.id ∧ genesisHash = genesisHash' ∧ attestation = attestation') ∧
    (∀ (config : Config) (attestation : Attestation) (signMessage : List UInt8 → Vector UInt8 64)
      (before after : List InstructionData),
      let pair := getAttestInstructions d (AttestationArgs.of attestation) config.attestor signMessage
        config.genesisHash
      verifySignature d
        (InstructionsSysvar.mk (before ++ pair.1 :: pair.2 :: after) (before.length + 1)).previous
        config.attestor (attestationMessage d config.genesisHash attestation) = .ok ()) := by
  refine ⟨?_, ?_, ?_, ?_⟩
  · intro sysvar config attestation
    exact verifySignature_iff
  · intro verify sysvar inv chain payer attestation result hprevious hchecked h
    rcases attest_verifies h with ⟨config, hconfig, hverified⟩
    rw [hprevious] at hverified
    exact ⟨config, hconfig, signed_of_verifySignature hchecked hverified⟩
  · intro d' genesisHash genesisHash' attestation attestation' h
    exact attestationMessage_injective h
  · intro config attestation signMessage before after
    have hlength : (attestationMessage d config.genesisHash attestation).length < 65536 := by
      rw [length_attestationMessage]
      decide
    apply verifySignature_iff.mpr
    refine ⟨signMessage (attestationMessage d config.genesisHash attestation), ?_⟩
    unfold InstructionsSysvar.previous
    dsimp only
    rw [if_neg (Nat.succ_ne_zero _), Nat.add_sub_cancel, List.getElem?_append_right le_rfl,
      Nat.sub_self, List.getElem?_cons_zero, getAttestInstructions, getAttestationMessage_eq,
      getEd25519SignatureInstruction_eq _ _ hlength]

namespace Rehearsal

def attestTransaction : List InstructionData :=
  [signatureCheck, getAttestInstruction deployment.id (AttestationArgs.of attestation)]

def attestorSigned (publicKey signature message : List UInt8) : Bool :=
  publicKey = attestor.toList ∧ signature = List.replicate 64 0 ∧
    message = attestationMessage deployment params.genesisHash attestation

theorem attestTransaction_checked :
    SignaturesChecked deployment attestorSigned attestTransaction := by
  intro instruction hinstruction hprogram entry hentry
  rcases List.mem_cons.mp hinstruction with rfl | hrest
  · obtain rfl : entry = 0 := Nat.lt_one_iff.mp hentry
    decide +kernel
  · rw [List.mem_singleton.mp hrest] at hprogram
    exact absurd hprogram (by decide)

end Rehearsal

open Rehearsal in
/-- The payment a rehearsed life has attested is one the attestor signed. -/
theorem attestation_signature_exact_paid :
    ∃ config, (ledger (enrolling :: handover)).config = some config ∧
      Signed deployment attestorSigned config attestation := by
  have hattested : (attest deployment attesting.1 (ledger (enrolling :: handover)) founder
      attestation).isOk = true := by
    decide +kernel
  rcases hresult : attest deployment attesting.1 (ledger (enrolling :: handover)) founder
    attestation with error | result
  · rw [hresult] at hattested
    cases hattested
  · exact (attestation_signature_exact deployment).2.1 attestorSigned ⟨attestTransaction, 1⟩
      attesting.1 _ founder attestation result rfl attestTransaction_checked hresult

end Laterite
