import Laterite.AttestationInstructions
import Laterite.ByteCodecs
import Laterite.ChainAccounts

/-!
# The bytes of instructions and events

An instruction's data and an event's begin with eight bytes that say what it is; what follows is
its fields, one after another. The client's decoders read them back.
-/

namespace Laterite.Client

open ByteCodecs

def addressCodec : Codec Pubkey := Codec.bytes 32

def eventKindCodec : Codec EventKind :=
  Codec.enumeration [.income, .payment] (by decide) (by rintro (_ | _) <;> decide)

def engineCodec : Codec Engine :=
  Codec.enumeration [.daily, .weekly] (by decide) (by rintro (_ | _) <;> decide)

def attestationCodec : Codec Attestation :=
  (eventKindCodec.pair (addressCodec.pair (Codec.uint8.pair (Codec.uint64.pair (Codec.int64.pair
    ((Codec.bytes 64).pair Codec.uint16)))))).map
    (fun (kind, user, paymentToken, amount, eventTime, signature, transferIndex) =>
      ⟨kind, user, paymentToken, amount, eventTime, signature, transferIndex⟩)
    (fun a => (a.kind, a.user, a.paymentToken, a.amount, a.eventTime, a.signature, a.transferIndex))
    fun _ => rfl

def cushionsCodec : Codec (Vector UInt64 paymentTokenCount) :=
  (Codec.uint64.pair Codec.uint64).map (fun (a, b) => #v[a, b]) (fun v => (v[0], v[1])) fun v => by
    apply Vector.ext
    intro i hi
    have hcases : i = 0 ∨ i = 1 := by
      have htwo : paymentTokenCount = 2 := rfl
      omega
    rcases hcases with rfl | rfl <;> rfl

def enrollParamsCodec : Codec EnrollParams :=
  (Codec.uint8.pair (Codec.uint8.pair (Codec.uint8.pair (engineCodec.pair (Codec.uint64.pair
    (Codec.bool.pair (Codec.uint8.pair (cushionsCodec.pair (Codec.uint64.pair
      (Codec.bytes 32)))))))))).map
    (fun (tier, paymentTokens, asset, engine, engineAmount, incomeRule, changeMultiplier, cushions,
      goalAmount, goalLabel) => ⟨tier, paymentTokens, asset, engine, engineAmount, incomeRule,
        changeMultiplier, cushions, goalAmount, goalLabel⟩)
    (fun p => (p.tier, p.paymentTokens, p.asset, p.engine, p.engineAmount, p.incomeRule,
      p.changeMultiplier, p.cushions, p.goalAmount, p.goalLabel))
    fun _ => rfl

def sweptCodec : Codec Swept :=
  (addressCodec.pair (Codec.uint8.pair (Codec.uint8.pair (Codec.uint64.pair (Codec.uint64.pair
    (Codec.uint64.pair (Codec.int16.pair (Codec.uint64.pair Codec.uint64)))))))).map
    (fun (user, paymentToken, asset, engine, pending, assetPrice, assetExponent, received, minOut) =>
      ⟨user, paymentToken, asset, engine, pending, assetPrice, assetExponent, received, minOut⟩)
    (fun s => (s.user, s.paymentToken, s.asset, s.engine, s.pending, s.assetPrice, s.assetExponent,
      s.received, s.minOut))
    fun _ => rfl

def identify {κ : Type} (table : List (List UInt8 × κ)) (data : List UInt8) : Option κ :=
  (table.find? fun entry => entry.1.isPrefixOf data).map Prod.snd

inductive LateriteInstruction where
  | acceptAdmin
  | attest
  | changePaymentTokens
  | changeTier
  | closeAttestation
  | createPlan
  | enroll
  | exit
  | initializeConfig
  | lowerPending
  | proposeAdmin
  | reactivate
  | setMarketCalendar
  | setPaused
  | setUserPaused
  | sweep
  | updateConfig
  | updateSettings
  deriving DecidableEq

def instructionDiscriminators : List (List UInt8 × LateriteInstruction) := [
  ([112, 42, 45, 90, 116, 181, 13, 170], .acceptAdmin),
  ([83, 148, 120, 119, 144, 139, 117, 160], .attest),
  ([52, 157, 115, 114, 64, 43, 241, 2], .changePaymentTokens),
  ([102, 152, 56, 92, 156, 1, 87, 130], .changeTier),
  ([249, 84, 133, 23, 48, 175, 252, 221], .closeAttestation),
  ([77, 43, 141, 254, 212, 118, 41, 186], .createPlan),
  ([58, 12, 36, 3, 142, 28, 1, 43], .enroll),
  ([234, 32, 12, 71, 126, 5, 219, 160], .exit),
  ([175, 175, 109, 31, 13, 152, 155, 237], .initializeConfig),
  ([6, 213, 208, 12, 142, 156, 34, 179], .lowerPending),
  ([121, 214, 199, 212, 87, 39, 117, 234], .proposeAdmin),
  ([80, 134, 169, 195, 146, 45, 28, 140], .reactivate),
  ([232, 50, 197, 217, 121, 11, 11, 88], .setMarketCalendar),
  ([91, 60, 125, 192, 176, 225, 166, 218], .setPaused),
  ([248, 245, 113, 47, 183, 81, 176, 180], .setUserPaused),
  ([40, 23, 234, 175, 14, 61, 154, 177], .sweep),
  ([29, 158, 252, 191, 10, 83, 219, 99], .updateConfig),
  ([81, 166, 51, 213, 158, 84, 157, 108], .updateSettings)]

def identifyLateriteInstruction (data : List UInt8) : Option LateriteInstruction :=
  identify instructionDiscriminators data

inductive LateriteEvent where
  | adminAccepted
  | adminProposed
  | attested
  | configInitialized
  | enrolled
  | exited
  | marketCalendarSet
  | pausedSet
  | paymentTokensChanged
  | pendingLowered
  | planCreated
  | reactivated
  | settingsUpdated
  | swept
  | tierChanged
  | userPaused
  | userSettingsUpdated
  deriving DecidableEq

def sweptEventDiscriminator : List UInt8 := [254, 138, 9, 198, 192, 61, 165, 135]

def eventDiscriminators : List (List UInt8 × LateriteEvent) := [
  ([174, 12, 76, 139, 158, 99, 110, 254], .adminAccepted),
  ([129, 249, 226, 227, 199, 82, 110, 243], .adminProposed),
  ([184, 102, 113, 199, 220, 197, 96, 50], .attested),
  ([181, 49, 200, 156, 19, 167, 178, 91], .configInitialized),
  ([129, 156, 102, 214, 94, 196, 220, 127], .enrolled),
  ([219, 97, 107, 184, 198, 48, 50, 243], .exited),
  ([183, 175, 211, 109, 206, 123, 152, 123], .marketCalendarSet),
  ([171, 125, 127, 156, 233, 81, 68, 66], .pausedSet),
  ([148, 245, 224, 177, 104, 254, 37, 91], .paymentTokensChanged),
  ([241, 51, 61, 199, 250, 212, 74, 199], .pendingLowered),
  ([215, 11, 135, 121, 208, 119, 149, 149], .planCreated),
  ([218, 95, 111, 68, 220, 147, 110, 236], .reactivated),
  ([35, 115, 95, 212, 3, 206, 67, 222], .settingsUpdated),
  (sweptEventDiscriminator, .swept),
  ([126, 9, 150, 127, 199, 123, 136, 1], .tierChanged),
  ([253, 90, 100, 189, 64, 199, 105, 76], .userPaused),
  ([44, 154, 119, 125, 254, 98, 163, 130], .userSettingsUpdated)]

def identifyLateriteEvent (data : List UInt8) : Option LateriteEvent := identify eventDiscriminators data

/-- The bytes the data of an instruction or an event of a kind begins with. -/
def discriminator {κ : Type} [DecidableEq κ] (table : List (List UInt8 × κ)) (kind : κ) : List UInt8 :=
  ((table.find? fun entry => entry.2 = kind).map Prod.fst).getD []

def instructionDiscriminator : LateriteInstruction → List UInt8 := discriminator instructionDiscriminators

def eventDiscriminator : LateriteEvent → List UInt8 := discriminator eventDiscriminators

/-- The bytes before the data of an event that the program emits by calling itself. -/
def eventIxTagLe : List UInt8 := [0xe4, 0x45, 0xa5, 0x2e, 0x51, 0xcb, 0x9a, 0x1d]

/-- Of two beginnings of one length only one fits. -/
theorem isPrefixOf_of_length {start other rest : List UInt8} (h : start.length = other.length) :
    start.isPrefixOf (other ++ rest) = (start == other) := by
  induction start generalizing other with
  | nil =>
    cases other with
    | nil => rfl
    | cons byte other => cases h
  | cons byte start ih =>
    cases other with
    | nil => cases h
    | cons byte' other =>
      rw [List.cons_append, List.isPrefixOf, ih (Nat.succ.inj h)]
      rfl

theorem identify_append {κ : Type} {table : List (List UInt8 × κ)} {start rest : List UInt8}
    (h : ∀ entry ∈ table, entry.1.length = start.length) :
    identify table (start ++ rest) = identify table start := by
  unfold identify
  congr 1
  induction table with
  | nil => rfl
  | cons entry table ih =>
    have hentry := h entry List.mem_cons_self
    have hstart := @isPrefixOf_of_length entry.1 start [] hentry
    rw [List.append_nil] at hstart
    rw [List.find?_cons, List.find?_cons, isPrefixOf_of_length hentry, hstart,
      ih fun other hother => h other (List.mem_cons_of_mem _ hother)]

theorem identifyLateriteInstruction_append (kind : LateriteInstruction) (rest : List UInt8) :
    identifyLateriteInstruction (instructionDiscriminator kind ++ rest) = some kind := by
  have hlength : ∀ entry ∈ instructionDiscriminators,
      entry.1.length = (instructionDiscriminator kind).length := by
    cases kind <;> decide
  unfold identifyLateriteInstruction
  rw [identify_append hlength]
  cases kind <;> decide

theorem identifyLateriteEvent_append (kind : LateriteEvent) (rest : List UInt8) :
    identifyLateriteEvent (eventDiscriminator kind ++ rest) = some kind := by
  have hlength : ∀ entry ∈ eventDiscriminators,
      entry.1.length = (eventDiscriminator kind).length := by
    cases kind <;> decide
  unfold identifyLateriteEvent
  rw [identify_append hlength]
  cases kind <;> decide

theorem eventIxTagLe_ne (kind : LateriteInstruction) (rest : List UInt8) :
    eventIxTagLe.isPrefixOf (instructionDiscriminator kind ++ rest) = false := by
  have hlength : eventIxTagLe.length = (instructionDiscriminator kind).length := by
    cases kind <;> rfl
  rw [isPrefixOf_of_length hlength]
  cases kind <;> decide

theorem identifyLateriteInstruction_eventIxTagLe (rest : List UInt8) :
    identifyLateriteInstruction (eventIxTagLe ++ rest) = none := by
  have hlength : ∀ entry ∈ instructionDiscriminators, entry.1.length = eventIxTagLe.length := by
    decide
  unfold identifyLateriteInstruction
  rw [identify_append hlength]
  decide

def kindOf : Event → LateriteEvent
  | .configInitialized _ => .configInitialized
  | .settingsUpdated _ => .settingsUpdated
  | .pausedSet _ => .pausedSet
  | .marketCalendarSet _ _ _ => .marketCalendarSet
  | .adminProposed _ => .adminProposed
  | .adminAccepted _ => .adminAccepted
  | .planCreated _ _ _ => .planCreated
  | .enrolled _ _ _ _ => .enrolled
  | .attested _ _ _ => .attested
  | .swept _ => .swept
  | .userSettingsUpdated _ _ => .userSettingsUpdated
  | .userPaused _ _ => .userPaused
  | .pendingLowered _ _ => .pendingLowered
  | .tierChanged _ _ => .tierChanged
  | .paymentTokensChanged _ _ => .paymentTokensChanged
  | .exited _ => .exited
  | .reactivated _ _ _ _ => .reactivated

def enrolledCodec : Codec (Pubkey × UInt8 × UInt8 × UInt8) :=
  addressCodec.pair (Codec.uint8.pair (Codec.uint8.pair Codec.uint8))

def parser : LateriteEvent → Option (List UInt8 → Option Event)
  | .attested => some fun data => ((attestationCodec.pair (Codec.uint64.pair Codec.uint64)).read data).map
      fun (attestation, invested, pending) => .attested attestation invested pending
  | .enrolled => some fun data => (enrolledCodec.read data).map
      fun (user, tier, paymentTokens, asset) => .enrolled user tier paymentTokens asset
  | .reactivated => some fun data => (enrolledCodec.read data).map
      fun (user, tier, paymentTokens, asset) => .reactivated user tier paymentTokens asset
  | .userSettingsUpdated => some fun data => ((addressCodec.pair enrollParamsCodec).read data).map
      fun (user, params) => .userSettingsUpdated user params
  | .userPaused => some fun data => ((addressCodec.pair Codec.bool).read data).map
      fun (user, paused) => .userPaused user paused
  | .pendingLowered => some fun data => ((addressCodec.pair Codec.uint64).read data).map
      fun (user, pending) => .pendingLowered user pending
  | .tierChanged => some fun data => ((addressCodec.pair Codec.uint8).read data).map
      fun (user, tier) => .tierChanged user tier
  | .paymentTokensChanged => some fun data => ((addressCodec.pair Codec.uint8).read data).map
      fun (user, paymentTokens) => .paymentTokensChanged user paymentTokens
  | .exited => some fun data => (addressCodec.read data).map .exited
  | _ => none

def Engine.tag : Engine → UInt8
  | .daily => 0
  | .weekly => 1

def boolByte (value : Bool) : UInt8 := if value then 1 else 0

/-- The Borsh encoding of what a user chooses. -/
def EnrollParams.serialize (self : EnrollParams) : List UInt8 :=
  [self.tier, self.paymentTokens, self.asset, Engine.tag self.engine] ++
    LittleEndian.bytes 8 self.engineAmount.toNat ++
    [boolByte self.incomeRule, self.changeMultiplier] ++
    self.cushions.toList.flatMap (fun cushion => LittleEndian.bytes 8 cushion.toNat) ++
    LittleEndian.bytes 8 self.goalAmount.toNat ++ self.goalLabel.toList

/-- The Borsh encoding of a sweep's event. -/
def Swept.serialize (self : Swept) : List UInt8 :=
  self.user.toList ++ [self.paymentToken, self.asset] ++ LittleEndian.bytes 8 self.engine.toNat ++
    LittleEndian.bytes 8 self.pending.toNat ++ LittleEndian.bytes 8 self.assetPrice.toNat ++
    LittleEndian.bytes 2 self.assetExponent.toUInt16.toNat ++
    LittleEndian.bytes 8 self.received.toNat ++ LittleEndian.bytes 8 self.minOut.toNat

/-- The bytes of an event's fields; any bytes for the events whose fields nobody reads here. -/
def Fields : Event → List UInt8 → Prop
  | .attested attestation invested pending, fields =>
    fields = attestation.serialize ++ LittleEndian.bytes 8 invested.toNat ++
      LittleEndian.bytes 8 pending.toNat
  | .enrolled user tier paymentTokens asset, fields => fields = user.toList ++ [tier, paymentTokens, asset]
  | .reactivated user tier paymentTokens asset, fields =>
    fields = user.toList ++ [tier, paymentTokens, asset]
  | .userSettingsUpdated user params, fields => fields = user.toList ++ EnrollParams.serialize params
  | .userPaused user paused, fields => fields = user.toList ++ [boolByte paused]
  | .pendingLowered user pending, fields => fields = user.toList ++ LittleEndian.bytes 8 pending.toNat
  | .tierChanged user tier, fields => fields = user.toList ++ [tier]
  | .paymentTokensChanged user paymentTokens, fields => fields = user.toList ++ [paymentTokens]
  | .exited user, fields => fields = user.toList
  | .swept event, fields => fields = Swept.serialize event
  | .configInitialized _, _ | .settingsUpdated _, _ | .pausedSet _, _ | .marketCalendarSet _ _ _, _
  | .adminProposed _, _ | .adminAccepted _, _ | .planCreated _ _ _, _ => True

def EventData (event : Event) (data : List UInt8) : Prop :=
  ∃ fields, Fields event fields ∧ data = eventDiscriminator (kindOf event) ++ fields

theorem encode_uint8 (word : UInt8) : Codec.uint8.encode word = [word] := by
  change [UInt8.ofNat (word.toNat % 256)] = [word]
  rw [Nat.mod_eq_of_lt word.toNat_lt, UInt8.ofNat_toNat]

theorem encode_bool (value : Bool) : Codec.bool.encode value = [boolByte value] := by
  cases value <;> rfl

theorem encode_engine (engine : Engine) : engineCodec.encode engine = [Engine.tag engine] := by
  cases engine <;> rfl

theorem encode_eventKind (kind : EventKind) : eventKindCodec.encode kind = [kind.tag] := by
  cases kind <;> rfl

theorem encode_cushions (cushions : Vector UInt64 paymentTokenCount) : cushionsCodec.encode cushions =
    cushions.toList.flatMap fun cushion => LittleEndian.bytes 8 cushion.toNat := by
  rcases cushions with ⟨⟨cushions⟩, hsize⟩
  rcases List.length_eq_two.mp hsize with ⟨a, b, rfl⟩
  exact congrArg _ (List.append_nil _).symm

/-- The client reads an attestation as the program writes it. -/
theorem encode_attestation (attestation : Attestation) :
    attestationCodec.encode attestation = attestation.serialize := by
  change eventKindCodec.encode attestation.kind ++ (attestation.user.toList ++
    (Codec.uint8.encode attestation.paymentToken ++ (LittleEndian.bytes 8 attestation.amount.toNat ++
      (LittleEndian.bytes 8 attestation.eventTime.toUInt64.toNat ++ (attestation.signature.toList ++
        LittleEndian.bytes 2 attestation.transferIndex.toNat))))) = _
  rw [encode_eventKind, encode_uint8, Attestation.serialize]
  simp only [List.cons_append, List.nil_append, List.append_assoc]

theorem encode_enrollParams (params : EnrollParams) :
    enrollParamsCodec.encode params = EnrollParams.serialize params := by
  change Codec.uint8.encode params.tier ++ (Codec.uint8.encode params.paymentTokens ++
    (Codec.uint8.encode params.asset ++ (engineCodec.encode params.engine ++
      (LittleEndian.bytes 8 params.engineAmount.toNat ++ (Codec.bool.encode params.incomeRule ++
        (Codec.uint8.encode params.changeMultiplier ++ (cushionsCodec.encode params.cushions ++
          (LittleEndian.bytes 8 params.goalAmount.toNat ++ params.goalLabel.toList)))))))) = _
  rw [encode_uint8, encode_uint8, encode_uint8, encode_uint8, encode_engine, encode_bool,
    encode_cushions, EnrollParams.serialize]
  simp only [List.cons_append, List.nil_append, List.append_assoc]

theorem encode_swept (event : Swept) : sweptCodec.encode event = Swept.serialize event := by
  change event.user.toList ++ (Codec.uint8.encode event.paymentToken ++
    (Codec.uint8.encode event.asset ++ (LittleEndian.bytes 8 event.engine.toNat ++
      (LittleEndian.bytes 8 event.pending.toNat ++ (LittleEndian.bytes 8 event.assetPrice.toNat ++
        (LittleEndian.bytes 2 event.assetExponent.toUInt16.toNat ++
          (LittleEndian.bytes 8 event.received.toNat ++
            LittleEndian.bytes 8 event.minOut.toNat))))))) = _
  rw [encode_uint8, encode_uint8, Swept.serialize]
  simp only [List.cons_append, List.nil_append, List.append_assoc]

/-- What the program wrote for an event is read back as the event. -/
theorem parse_fields {event : Event} {fields : List UInt8} {parse : List UInt8 → Option Event}
    (hparser : parser (kindOf event) = some parse) (hfields : Fields event fields) :
    parse fields = some event := by
  have hread {α : Type} (codec : Codec α) (value : α) (f : α → Event) :
      (codec.read (codec.encode value)).map f = some (f value) := by
    have hend := codec.read_encode_append value []
    rw [List.append_nil] at hend
    rw [hend]
    rfl
  cases event with
  | attested attestation invested pending =>
    cases hparser
    have hbytes : fields =
        (attestationCodec.pair (Codec.uint64.pair Codec.uint64)).encode (attestation, invested, pending) := by
      rw [show fields = _ from hfields, List.append_assoc, ← encode_attestation]
      rfl
    rw [hbytes]
    exact hread _ _ _
  | enrolled user tier paymentTokens asset =>
    cases hparser
    have hbytes : fields = enrolledCodec.encode (user, tier, paymentTokens, asset) := by
      rw [show fields = _ from hfields]
      change _ = user.toList ++ (Codec.uint8.encode tier ++ (Codec.uint8.encode paymentTokens ++
        Codec.uint8.encode asset))
      rw [encode_uint8, encode_uint8, encode_uint8]
      rfl
    rw [hbytes]
    exact hread _ _ _
  | reactivated user tier paymentTokens asset =>
    cases hparser
    have hbytes : fields = enrolledCodec.encode (user, tier, paymentTokens, asset) := by
      rw [show fields = _ from hfields]
      change _ = user.toList ++ (Codec.uint8.encode tier ++ (Codec.uint8.encode paymentTokens ++
        Codec.uint8.encode asset))
      rw [encode_uint8, encode_uint8, encode_uint8]
      rfl
    rw [hbytes]
    exact hread _ _ _
  | userSettingsUpdated user params =>
    cases hparser
    have hbytes : fields = (addressCodec.pair enrollParamsCodec).encode (user, params) := by
      rw [show fields = _ from hfields, ← encode_enrollParams]
      rfl
    rw [hbytes]
    exact hread _ _ _
  | userPaused user paused =>
    cases hparser
    have hbytes : fields = (addressCodec.pair Codec.bool).encode (user, paused) := by
      rw [show fields = _ from hfields, ← encode_bool]
      rfl
    rw [hbytes]
    exact hread _ _ _
  | pendingLowered user pending =>
    cases hparser
    have hbytes : fields = (addressCodec.pair Codec.uint64).encode (user, pending) := hfields
    rw [hbytes]
    exact hread _ _ _
  | tierChanged user tier =>
    cases hparser
    have hbytes : fields = (addressCodec.pair Codec.uint8).encode (user, tier) := by
      rw [show fields = _ from hfields, ← encode_uint8]
      rfl
    rw [hbytes]
    exact hread _ _ _
  | paymentTokensChanged user paymentTokens =>
    cases hparser
    have hbytes : fields = (addressCodec.pair Codec.uint8).encode (user, paymentTokens) := by
      rw [show fields = _ from hfields, ← encode_uint8]
      rfl
    rw [hbytes]
    exact hread _ _ _
  | exited user =>
    cases hparser
    have hbytes : fields = addressCodec.encode user := hfields
    rw [hbytes]
    exact hread _ _ _
  | _ => cases hparser

end Laterite.Client
