import Laterite.AttestationInstructions

/-!
# What the attestor signed

The program trusts the signature check before `attest` only when its bytes are the standard
layout of one signature by the attestor over the attestation's message. The check itself then
looked at that key, that signature and that message, and the message names the program, the
cluster and every field of the attestation.
-/

namespace Laterite

open CheckedComputation

section Cutting

variable {α : Type} {xs a b c : List α} {i j n : ℕ}

theorem slice_middle (ha : a.length = i) (hb : i + b.length = j) :
    ((a ++ b ++ c).take j).drop i = b := by
  have hlength : (a ++ b).length = j := by
    rw [List.length_append]
    omega
  rw [List.take_left' hlength, List.drop_left' ha]

theorem take_append_slice (h : i ≤ j) : xs.take i ++ (xs.take j).drop i = xs.take j := by
  have htake : xs.take i = (xs.take j).take i := by
    rw [List.take_take, Nat.min_eq_left h]
  rw [htake]
  exact List.take_append_drop i (xs.take j)

theorem take_drop_middle (ha : a.length = i) (hb : b.length = n) :
    ((a ++ b ++ c).drop i).take n = b := by
  rw [List.append_assoc, List.drop_left' ha, List.take_left' hb]

end Cutting

/-- The seven numbers that place one signature, its key and its message in the check's own
data, as bytes. -/
def standardHeader (messageLength : ℕ) : List UInt8 :=
  [signatureOffset, 65535, publicKeyOffset, 65535, messageOffset, messageLength % 65536, 65535].flatMap
    (LittleEndian.bytes 2)

/-- The data of a check of one signature: the count, the header, the key, the signature and the
message. -/
def standardLayout (publicKey : Pubkey) (signature : Vector UInt8 64) (message : List UInt8) :
    List UInt8 :=
  [1, 0] ++ standardHeader message.length ++ publicKey.toList ++ signature.toList ++ message

@[simp] theorem length_standardHeader (messageLength : ℕ) :
    (standardHeader messageLength).length = 14 := rfl

theorem length_layout_key (publicKey : Pubkey) (messageLength : ℕ) :
    ([1, 0] ++ standardHeader messageLength ++ publicKey.toList).length = signatureOffset := by
  rw [List.length_append, List.length_append, length_standardHeader, Vector.length_toList]
  rfl

theorem length_layout_signature (publicKey : Pubkey) (signature : Vector UInt8 64)
    (messageLength : ℕ) :
    ([1, 0] ++ standardHeader messageLength ++ publicKey.toList ++ signature.toList).length =
      messageOffset := by
  rw [List.length_append, length_layout_key, Vector.length_toList]
  rfl

theorem length_standardLayout (publicKey : Pubkey) (signature : Vector UInt8 64)
    (message : List UInt8) :
    (standardLayout publicKey signature message).length = messageOffset + message.length := by
  rw [standardLayout, List.length_append, length_layout_signature]

theorem slice_eq_ok {xs ys : List UInt8} {i j : ℕ} :
    (slice xs i j : Result (List UInt8)) = .ok ys ↔ (i ≤ j ∧ j ≤ xs.length) ∧ (xs.take j).drop i = ys := by
  unfold slice
  split <;> simp [*]

theorem eq_standardLayout_iff {data message : List UInt8} {publicKey : Pubkey} :
    (∃ signature, data = standardLayout publicKey signature message) ↔
      data.length = messageOffset + message.length ∧ data.take 2 = [1, 0] ∧
      (data.take 16).drop 2 = standardHeader message.length ∧
      (data.take signatureOffset).drop publicKeyOffset = publicKey.toList ∧
      data.drop messageOffset = message := by
  constructor
  · rintro ⟨signature, rfl⟩
    refine ⟨length_standardLayout _ _ _, rfl, ?_, ?_, ?_⟩
    · have hlayout : standardLayout publicKey signature message =
          [1, 0] ++ standardHeader message.length ++
            (publicKey.toList ++ signature.toList ++ message) := by
        simp only [standardLayout, List.append_assoc]
      rw [hlayout]
      exact slice_middle rfl rfl
    · have hlayout : standardLayout publicKey signature message =
          [1, 0] ++ standardHeader message.length ++ publicKey.toList ++
            (signature.toList ++ message) := by
        simp only [standardLayout, List.append_assoc]
      rw [hlayout]
      exact slice_middle rfl (by rw [Vector.length_toList]; rfl)
    · exact List.drop_left' (length_layout_signature _ _ _)
  · rintro ⟨hlength, hcount, hheader, hkey, hmessage⟩
    have hsignature : ((data.take messageOffset).drop signatureOffset).length = 64 := by
      rw [List.length_drop, List.length_take]
      unfold messageOffset signatureOffset publicKeyOffset at *
      omega
    refine ⟨⟨((data.take messageOffset).drop signatureOffset).toArray, hsignature⟩, ?_⟩
    have hstart : [1, 0] ++ standardHeader message.length = data.take 16 := by
      rw [← hcount, ← hheader]
      exact take_append_slice (by decide)
    have hkeyed : [1, 0] ++ standardHeader message.length ++ publicKey.toList =
        data.take signatureOffset := by
      rw [hstart, ← hkey]
      exact take_append_slice (by decide)
    have hsigned : [1, 0] ++ standardHeader message.length ++ publicKey.toList ++
        (data.take messageOffset).drop signatureOffset = data.take messageOffset := by
      rw [hkeyed]
      exact take_append_slice (by decide)
    have hlist : (Vector.mk ((data.take messageOffset).drop signatureOffset).toArray hsignature :
        Vector UInt8 64).toList = (data.take messageOffset).drop signatureOffset := rfl
    have hwhole := List.take_append_drop messageOffset data
    rw [hmessage] at hwhole
    rw [standardLayout, hlist, hsigned, hwhole]

/-- The program accepts the instruction before it exactly when that is the signature check with
the standard layout of some signature by the attestor over the message. -/
theorem verifySignature_iff {d : Deployment} {previous : Option InstructionData} {attestor : Pubkey}
    {message : List UInt8} :
    verifySignature d previous attestor message = .ok () ↔
      ∃ signature, previous = some ⟨d.ed25519ProgramId, standardLayout attestor signature message⟩ := by
  simp only [verifySignature, bind_eq_ok, okOr_eq_ok, require_eq_ok, slice_eq_ok, sliceFrom_eq_ok,
    exists_const]
  constructor
  · rintro ⟨instruction, rfl, ⟨hprogram, hlength⟩, _, ⟨_, rfl⟩, _, ⟨_, rfl⟩, _, ⟨_, rfl⟩, _, ⟨_, rfl⟩,
      hcount, hheader, hkey, hmessage⟩
    rcases eq_standardLayout_iff.mpr ⟨hlength, hcount, hheader, hkey, hmessage⟩ with ⟨signature, hdata⟩
    refine ⟨signature, ?_⟩
    rw [← hprogram, ← hdata]
  · rintro ⟨signature, rfl⟩
    rcases eq_standardLayout_iff.mp ⟨signature, rfl⟩ with ⟨hlength, hcount, hheader, hkey, hmessage⟩
    have hlong : messageOffset ≤ (standardLayout attestor signature message).length := by
      rw [hlength]
      exact Nat.le_add_right _ _
    have hslice {i : ℕ} (h : i ≤ messageOffset) :
        i ≤ (standardLayout attestor signature message).length := h.trans hlong
    exact ⟨_, rfl, ⟨rfl, hlength⟩, _, ⟨⟨by decide, hslice (by decide)⟩, rfl⟩, _,
      ⟨⟨by decide, hslice (by decide)⟩, rfl⟩, _, ⟨⟨by decide, hslice (by decide)⟩, rfl⟩, _,
      ⟨hlong, rfl⟩, hcount, hheader, hkey, hmessage⟩

/-- What the runtime tells an instruction of its transaction: the instructions, and which of
them runs. -/
structure InstructionsSysvar where
  instructions : List InstructionData
  current : ℕ

/-- The instruction just before the one that runs. -/
def InstructionsSysvar.previous (self : InstructionsSysvar) : Option InstructionData :=
  if self.current = 0 then none else self.instructions[self.current - 1]?

/-- `size` bytes at an offset in the data of the instruction at an index; the largest index is
the check itself. -/
def declaredBytes (instructions : List InstructionData) (own : List UInt8) (index offset size : ℕ) :
    Option (List UInt8) := do
  let data ← if index = 65535 then some own else instructions[index]?.map InstructionData.data
  if offset + size ≤ data.length then some ((data.drop offset).take size) else none

/-- Number `place` of an entry's header. -/
def declaredWord (own : List UInt8) (entry place : ℕ) : ℕ :=
  LittleEndian.toNat ((own.drop (2 + 14 * entry + 2 * place)).take 2)

/-- Whether the signature an entry declares verifies for the key and the message it declares. -/
def entryVerifies (verify : (publicKey signature message : List UInt8) → Bool)
    (instructions : List InstructionData) (own : List UInt8) (entry : ℕ) : Bool :=
  let declared (index offset size : ℕ) := declaredBytes instructions own index offset size
  let word := declaredWord own entry
  match declared (word 3) (word 2) 32, declared (word 1) (word 0) 64,
    declared (word 6) (word 4) (word 5) with
  | some publicKey, some signature, some message => verify publicKey signature message
  | _, _, _ => false

/-- A transaction whose signature checks all passed. -/
def SignaturesChecked (d : Deployment)
    (verify : (publicKey signature message : List UInt8) → Bool)
    (instructions : List InstructionData) : Prop :=
  ∀ instruction ∈ instructions, instruction.programId = d.ed25519ProgramId →
    ∀ entry < (instruction.data.head?.map UInt8.toNat).getD 0,
      entryVerifies verify instructions instruction.data entry = true

theorem mem_of_previous {sysvar : InstructionsSysvar} {instruction : InstructionData}
    (h : sysvar.previous = some instruction) : instruction ∈ sysvar.instructions := by
  unfold InstructionsSysvar.previous at h
  split at h
  · cases h
  · exact List.mem_of_getElem? h

/-- Each of a list of 16-bit words is read back at its place. -/
theorem take_drop_words {start rest : List UInt8} {words : List ℕ} {place : ℕ}
    (h : place < words.length) :
    ((start ++ words.flatMap (LittleEndian.bytes 2) ++ rest).drop (start.length + 2 * place)).take 2 =
      LittleEndian.bytes 2 words[place] := by
  have hlength (earlier : List ℕ) : (earlier.flatMap (LittleEndian.bytes 2)).length =
      2 * earlier.length := by
    induction earlier with
    | nil => rfl
    | cons word earlier ih =>
      rw [List.flatMap_cons, List.length_append, ih, LittleEndian.length_bytes, List.length_cons]
      omega
  have hsplit : words = words.take place ++ words[place] :: words.drop (place + 1) := by
    rw [← List.drop_eq_getElem_cons h, List.take_append_drop]
  have hlist : start ++ words.flatMap (LittleEndian.bytes 2) ++ rest =
      (start ++ (words.take place).flatMap (LittleEndian.bytes 2)) ++
        LittleEndian.bytes 2 words[place] ++
        ((words.drop (place + 1)).flatMap (LittleEndian.bytes 2) ++ rest) := by
    conv_lhs => rw [hsplit]
    rw [List.flatMap_append, List.flatMap_cons]
    simp only [List.append_assoc]
  rw [hlist]
  apply take_drop_middle
  · rw [List.length_append, hlength, List.length_take, Nat.min_eq_left (le_of_lt h)]
  · exact LittleEndian.length_bytes _ _

theorem declaredWord_standardLayout {publicKey : Pubkey} {signature : Vector UInt8 64}
    {message : List UInt8} (hlength : message.length < 65536) {place : ℕ} (hplace : place < 7) :
    declaredWord (standardLayout publicKey signature message) 0 place =
      [signatureOffset, 65535, publicKeyOffset, 65535, messageOffset, message.length, 65535][place] := by
  have hlayout : standardLayout publicKey signature message =
      [1, 0] ++ [signatureOffset, 65535, publicKeyOffset, 65535, messageOffset, message.length,
        65535].flatMap (LittleEndian.bytes 2) ++ (publicKey.toList ++ signature.toList ++ message) := by
    simp only [standardLayout, standardHeader, Nat.mod_eq_of_lt hlength, List.append_assoc]
  have hsmall : ∀ word ∈ [signatureOffset, 65535, publicKeyOffset, 65535, messageOffset,
      message.length, 65535], word < 256 ^ 2 := by
    unfold messageOffset signatureOffset publicKeyOffset
    simpa using hlength
  unfold declaredWord
  rw [hlayout, Nat.mul_zero, Nat.add_zero]
  have hread := @take_drop_words [1, 0] (publicKey.toList ++ signature.toList ++ message)
    [signatureOffset, 65535, publicKeyOffset, 65535, messageOffset, message.length, 65535] place hplace
  refine (congrArg LittleEndian.toNat hread).trans ?_
  rw [LittleEndian.toNat_bytes, Nat.mod_eq_of_lt (hsmall _ (List.getElem_mem _))]

theorem entryVerifies_standardLayout {verify : (publicKey signature message : List UInt8) → Bool}
    {instructions : List InstructionData} {publicKey : Pubkey} {signature : Vector UInt8 64}
    {message : List UInt8} (hlength : message.length < 65536) :
    entryVerifies verify instructions (standardLayout publicKey signature message) 0 =
      verify publicKey.toList signature.toList message := by
  have hword {place : ℕ} (hplace : place < 7) :=
    @declaredWord_standardLayout publicKey signature message hlength place hplace
  have hown {offset size : ℕ} (h : offset + size ≤ messageOffset + message.length) :
      declaredBytes instructions (standardLayout publicKey signature message) 65535 offset size =
        some (((standardLayout publicKey signature message).drop offset).take size) := by
    have hwithin : offset + size ≤ (standardLayout publicKey signature message).length := by
      rwa [length_standardLayout]
    unfold declaredBytes
    exact if_pos hwithin
  have hkey : ((standardLayout publicKey signature message).drop publicKeyOffset).take 32 =
      publicKey.toList := by
    have hlayout : standardLayout publicKey signature message =
        [1, 0] ++ standardHeader message.length ++ publicKey.toList ++
          (signature.toList ++ message) := by
      simp only [standardLayout, List.append_assoc]
    rw [hlayout]
    exact take_drop_middle rfl Vector.length_toList
  have hsignature : ((standardLayout publicKey signature message).drop signatureOffset).take 64 =
      signature.toList :=
    take_drop_middle (length_layout_key _ _) Vector.length_toList
  have hmessage : ((standardLayout publicKey signature message).drop messageOffset).take
      message.length = message := by
    rw [standardLayout, List.drop_left' (length_layout_signature _ _ _), List.take_length]
  unfold entryVerifies
  dsimp only
  rw [hword (by decide : 0 < 7), hword (by decide : 1 < 7), hword (by decide : 2 < 7),
    hword (by decide : 3 < 7), hword (by decide : 4 < 7), hword (by decide : 5 < 7),
    hword (by decide : 6 < 7)]
  dsimp only [List.getElem_cons_zero, List.getElem_cons_succ]
  rw [hown (by unfold messageOffset signatureOffset; omega),
    hown (by unfold messageOffset; omega), hown le_rfl, hkey, hsignature, hmessage]

theorem vector_toList_injective {α : Type} {n : ℕ} {a b : Vector α n} (h : a.toList = b.toList) :
    a = b := Vector.toList_inj.mp h

/-- A number below the bytes' range is told by its bytes. -/
theorem LittleEndian.bytes_injective {n x y : ℕ} (hx : x < 256 ^ n) (hy : y < 256 ^ n)
    (h : LittleEndian.bytes n x = LittleEndian.bytes n y) : x = y := by
  have hnumber := congrArg LittleEndian.toNat h
  rwa [LittleEndian.toNat_bytes, LittleEndian.toNat_bytes, Nat.mod_eq_of_lt hx,
    Nat.mod_eq_of_lt hy] at hnumber

theorem EventKind.tag_injective {a b : EventKind} (h : a.tag = b.tag) : a = b := by
  cases a <;> cases b <;> first | rfl | cases h

theorem length_serialize (attestation : Attestation) : attestation.serialize.length = 116 := by
  unfold Attestation.serialize
  simp only [List.length_append, List.length_cons, LittleEndian.length_bytes, Vector.length_toList]

/-- An attestation is told by its encoding. -/
theorem Attestation.serialize_injective {a b : Attestation} (h : a.serialize = b.serialize) :
    a = b := by
  unfold Attestation.serialize at h
  rcases List.append_inj' h (by simp) with ⟨h, hindex⟩
  rcases List.append_inj' h (by simp) with ⟨h, hsignature⟩
  rcases List.append_inj' h (by simp) with ⟨h, htime⟩
  rcases List.append_inj' h (by simp) with ⟨hstart, hpaid⟩
  have hkind : a.kind = b.kind := EventKind.tag_injective (List.cons.inj hstart).1
  have huser := (List.cons.inj hstart).2
  have hamount' := LittleEndian.bytes_injective a.amount.toNat_lt b.amount.toNat_lt
    (List.cons.inj hpaid).2
  have htime' : a.eventTime = b.eventTime := by
    have hword := UInt64.toNat_inj.mp (LittleEndian.bytes_injective a.eventTime.toUInt64.toNat_lt
      b.eventTime.toUInt64.toNat_lt htime)
    rw [← Int64.toInt64_toUInt64 a.eventTime, hword, Int64.toInt64_toUInt64]
  have hindex' := LittleEndian.bytes_injective a.transferIndex.toNat_lt b.transferIndex.toNat_lt hindex
  cases a
  cases b
  simp only [Attestation.mk.injEq]
  exact ⟨hkind, vector_toList_injective huser, (List.cons.inj hpaid).1, UInt64.toNat_inj.mp hamount',
    htime', vector_toList_injective hsignature,
    UInt16.toNat_inj.mp hindex'⟩

theorem length_attestationMessage (d : Deployment) (genesisHash : Vector UInt8 32)
    (attestation : Attestation) :
    (attestationMessage d genesisHash attestation).length = 203 := by
  unfold attestationMessage
  rw [List.length_append, List.length_append, List.length_append, length_serialize,
    Vector.length_toList, Vector.length_toList]
  rfl

theorem attestationMessage_injective {d d' : Deployment} {genesisHash genesisHash' : Vector UInt8 32}
    {attestation attestation' : Attestation}
    (h : attestationMessage d genesisHash attestation =
      attestationMessage d' genesisHash' attestation') :
    d.id = d'.id ∧ genesisHash = genesisHash' ∧ attestation = attestation' := by
  unfold attestationMessage at h
  have hlength : attestation.serialize.length = attestation'.serialize.length := by
    rw [length_serialize, length_serialize]
  rcases List.append_inj' h hlength with ⟨h, hattestation⟩
  rcases List.append_inj' h (by rw [Vector.length_toList, Vector.length_toList]) with ⟨h, hgenesis⟩
  have hprogram := List.append_cancel_left h
  exact ⟨vector_toList_injective hprogram, vector_toList_injective hgenesis,
    Attestation.serialize_injective hattestation⟩

end Laterite
