import Laterite.ClientAttestations
import Laterite.ClientPrices
import Laterite.SponsoredShape
import Laterite.SweepBoundaries

/-!
# The pair that sweeps

The client puts a signature check right before the sweep. The check's entries name the places of the
price updates inside the sweep's data, counted by hand from the discriminator and the lengths the
encoding puts before each of its parts.
-/

namespace Laterite.Client

inductive SweepBuildError where
  | check (e : ClientError)
  | nearBoundary (margin : ℤ)
  /-- A number is past its encoder's range. -/
  | outOfRange
  /-- A property of nothing is read. -/
  | undefined
  | oversized
  deriving DecidableEq

abbrev SweepBuild (α : Type) : Type := Except SweepBuildError α

def checked {α : Type} (result : Except ClientError α) : SweepBuild α := result.mapError .check

/-- The numbers an unsigned encoder of `size` bytes takes. -/
def InRange (size : ℕ) (number : ℤ) : Prop := 0 ≤ number ∧ number < 256 ^ size

instance (size : ℕ) (number : ℤ) : Decidable (InRange size number) :=
  inferInstanceAs (Decidable (_ ∧ _))

def Ed25519SignatureOffsets.numbers (entry : Ed25519SignatureOffsets) : List ℤ :=
  [entry.signatureOffset, entry.signatureInstructionIndex, entry.publicKeyOffset,
    entry.publicKeyInstructionIndex, entry.messageDataOffset, entry.messageDataSize,
    entry.messageInstructionIndex]

/-- A price update, the instruction whose data carries it and its place there. -/
structure CarriedUpdate where
  instructionIndex : ℕ
  message : List UInt8
  offset : ℕ

def CarriedUpdate.entry (update : CarriedUpdate) : Ed25519SignatureOffsets where
  messageDataOffset := update.offset + 102
  messageDataSize := update.message.length - 102
  messageInstructionIndex := update.instructionIndex
  publicKeyInstructionIndex := update.instructionIndex
  publicKeyOffset := update.offset + 68
  signatureInstructionIndex := update.instructionIndex
  signatureOffset := update.offset + 4

/-- The signature check over updates that other instructions carry. -/
def getPythEd25519Instruction (ed25519ProgramAddress : Pubkey) (updates : List CarriedUpdate) :
    SweepBuild InstructionData :=
  let entries := updates.map CarriedUpdate.entry
  if InRange 1 entries.length ∧ ∀ entry ∈ entries, ∀ number ∈ entry.numbers, InRange 2 number then
    .ok (getEd25519Instruction ed25519ProgramAddress entries [])
  else .error .outOfRange

def encodeBytes (bytes : List UInt8) : List UInt8 := encodeInteger 4 bytes.length ++ bytes

def sweepDiscriminator : List UInt8 := [40, 23, 234, 175, 14, 61, 154, 177]

structure SweepInstructionDataArgs where
  assetMessage : List UInt8
  paymentMessage : List UInt8
  ed25519Index : ℤ
  paymentToken : ℤ
  route : List UInt8

def encodeSweep (args : SweepInstructionDataArgs) : SweepBuild (List UInt8) :=
  if InRange 4 args.assetMessage.length ∧ InRange 4 args.paymentMessage.length ∧
      InRange 2 args.ed25519Index ∧ InRange 1 args.paymentToken ∧ InRange 4 args.route.length then
    .ok (sweepDiscriminator ++ encodeBytes args.assetMessage ++ encodeBytes args.paymentMessage ++
      encodeInteger 2 args.ed25519Index ++ encodeInteger 1 args.paymentToken ++ encodeBytes args.route)
  else .error .outOfRange

structure RouteInstruction where
  programAddress : Pubkey
  accounts : Option (List Sponsor.AccountMeta)
  data : Option (List UInt8)

def downgradeRoleToNonSigner : Sponsor.AccountRole → Sponsor.AccountRole
  | .readonly | .readonlySigner => .readonly
  | .writable | .writableSigner => .writable

/-- The addresses a sweep names: those the client holds, and those it derives for the user, the
payment token and the asset. -/
structure SweepAddresses where
  program : Pubkey
  config : Pubkey
  vault : Pubkey
  subscriptionsProgram : Pubkey
  subscriptionsEventAuthority : Pubkey
  pythProgram : Pubkey
  pythStorage : Pubkey
  instructions : Pubkey
  systemProgram : Pubkey
  eventAuthority : Pubkey
  swapAuthority : Pubkey
  ed25519Program : Pubkey
  userConfig : Pubkey → Pubkey
  plan : (paymentToken tier : ℕ) → Pubkey
  subscription : (user : Pubkey) → (paymentToken tier : ℕ) → Pubkey
  subscriptionAuthority : (user mint : Pubkey) → Pubkey
  associatedToken : (mint owner tokenProgram : Pubkey) → Pubkey

/-- What a sweep is built from: the state, the rest of the config and of the user's settings the
builder reads, the updates and the route. -/
structure SweepInput where
  state : SweepState
  user : Pubkey
  router : Pubkey
  assets : List Asset
  asset : ℕ
  assetUpdate : List UInt8
  paymentUpdate : Option (List UInt8)
  boundaryMarginSeconds : Option ℤ
  crank : Pubkey
  pythTreasury : Pubkey
  route : RouteInstruction

structure SweepInstructionWithAccounts extends InstructionData where
  accounts : List Sponsor.AccountMeta

structure BuiltSweep where
  ed25519 : InstructionData
  sweep : SweepInstructionWithAccounts
  minOut : ℤ
  pull : Pull
  size : ℕ

def sweepBoundaryMarginSeconds : ℤ := 15

def usdDecimals : ℤ := 6

def sweepAccountMetas (addresses : SweepAddresses) (input : SweepInput) (token : PaymentToken)
    (asset : Asset) : List Sponsor.AccountMeta :=
  let paymentToken := input.state.paymentToken
  let tier := input.state.userConfig.tier
  [⟨input.crank, .writableSigner⟩, ⟨addresses.config, .readonly⟩,
    ⟨addresses.userConfig input.user, .writable⟩, ⟨addresses.vault, .readonly⟩,
    ⟨addresses.subscription input.user paymentToken tier, .writable⟩,
    ⟨addresses.plan paymentToken tier, .readonly⟩,
    ⟨addresses.subscriptionAuthority input.user token.mint, .readonly⟩,
    ⟨addresses.associatedToken token.mint input.user token.tokenProgram, .writable⟩,
    ⟨addresses.associatedToken token.mint addresses.swapAuthority token.tokenProgram, .writable⟩,
    ⟨addresses.associatedToken asset.mint input.user asset.tokenProgram, .writable⟩,
    ⟨token.mint, .readonly⟩, ⟨token.tokenProgram, .readonly⟩,
    ⟨addresses.subscriptionsProgram, .readonly⟩, ⟨addresses.subscriptionsEventAuthority, .readonly⟩,
    ⟨addresses.swapAuthority, .readonly⟩, ⟨input.router, .readonly⟩, ⟨addresses.pythProgram, .readonly⟩,
    ⟨addresses.pythStorage, .readonly⟩, ⟨input.pythTreasury, .writable⟩,
    ⟨addresses.instructions, .readonly⟩, ⟨addresses.systemProgram, .readonly⟩,
    ⟨addresses.eventAuthority, .readonly⟩, ⟨addresses.program, .readonly⟩]

/-- The updates the signature check names: the asset's after the sweep's discriminator and its own
length, then the payment token's, when there is one, after its length. -/
def sweepUpdates (assetUpdate paymentUpdate : List UInt8) : List CarriedUpdate :=
  ⟨1, assetUpdate, 12⟩ ::
    if paymentUpdate.length > 0 then [⟨1, paymentUpdate, 16 + assetUpdate.length⟩] else []

/-- The signature check and the sweep of one pull. `transactionSize` is the size of the transaction of
both, where it is within the limit. -/
def getSweepInstructions (addresses : SweepAddresses)
    (transactionSize : Pubkey → InstructionData → SweepInstructionWithAccounts → Option ℕ)
    (input : SweepInput) : SweepBuild BuiltSweep := do
  let state := input.state
  let paymentUpdate := input.paymentUpdate.getD []
  let pull ← checked (getSweepPull state)
  let margin := input.boundaryMarginSeconds.getD sweepBoundaryMarginSeconds
  if secondsToNextSweepBoundary state < margin then .error (.nearBoundary margin)
  else if input.route.programAddress ≠ input.router then
    .error (.check (.lateriteCheck LateriteError.invalidRouter.code))
  else
    match state.config.paymentTokens[state.paymentToken]?, input.assets[input.asset]? with
    | none, _ => .error .undefined
    | _, none => .error (.check (.lateriteCheck LateriteError.unknownAsset.code))
    | some token, some asset => do
      let assetQuote ← checked (quote input.assetUpdate asset.pythFeedId.toNat state.now maxPriceAgeSeconds)
      let paymentQuote ← checked (quote paymentUpdate token.usdFeedId.toNat state.now maxPriceAgeSeconds)
      let minimum ← checked (minOut (pullTotal pull) paymentQuote usdDecimals assetQuote
        asset.decimals.toNat)
      let data ← encodeSweep {
        assetMessage := input.assetUpdate
        paymentMessage := paymentUpdate
        ed25519Index := 0
        paymentToken := state.paymentToken
        route := input.route.data.getD [] }
      let ed25519 ← getPythEd25519Instruction addresses.ed25519Program
        (sweepUpdates input.assetUpdate paymentUpdate)
      let routeAccounts := (input.route.accounts.getD []).map fun account =>
        { account with role := downgradeRoleToNonSigner account.role }
      let sweep : SweepInstructionWithAccounts :=
        ⟨⟨addresses.program, data⟩, sweepAccountMetas addresses input token asset ++ routeAccounts⟩
      match transactionSize input.crank ed25519 sweep with
      | none => .error .oversized
      | some size => .ok ⟨ed25519, sweep, minimum, pull, size⟩

/-- Entry `entry` of a check names the parts of an update that starts at an offset in the data of the
instruction at an index. -/
structure PointsAt (own : List UInt8) (entry index offset : ℕ) (update : List UInt8) : Prop where
  whole : 102 ≤ update.length
  words : ∀ place (h : place < 7), declaredWord own entry place =
    [offset + 4, index, offset + 68, index, offset + 102, update.length - 102, index][place]

/-- An update's bytes lie at an offset of the data. -/
def CarriesAt (data : List UInt8) (offset : ℕ) (update : List UInt8) : Prop :=
  offset + update.length ≤ data.length ∧ (data.drop offset).take update.length = update

/-- The check's entry declares the update's own signature, public key and payload. -/
structure Declares (instructions : List InstructionData) (own : List UInt8) (entry : ℕ)
    (update : List UInt8) : Prop where
  signature : declaredBytes instructions own (declaredWord own entry 1) (declaredWord own entry 0) 64 =
    some ((update.take 68).drop 4)
  publicKey : declaredBytes instructions own (declaredWord own entry 3) (declaredWord own entry 2) 32 =
    some ((update.take 100).drop 68)
  payload : declaredBytes instructions own (declaredWord own entry 6) (declaredWord own entry 4)
    (declaredWord own entry 5) = some (update.drop 102)

section Pointing

variable {data update own : List UInt8} {entry index offset : ℕ}

/-- A part of carried bytes lies that much further on. -/
theorem CarriesAt.slice (h : CarriesAt data offset update) {start size : ℕ}
    (hfits : start + size ≤ update.length) :
    (data.drop (offset + start)).take size = (update.take (start + size)).drop start := by
  have hupdate : (update.take (start + size)).drop start =
      (((data.drop offset).take update.length).take (start + size)).drop start := by
    rw [h.2]
  rw [hupdate, List.take_take, Nat.min_eq_left hfits, List.drop_take, List.drop_drop,
    Nat.add_sub_cancel_left]

theorem declaredBytes_eq (instructions : List InstructionData) (own : List UInt8)
    (index offset size : ℕ) : declaredBytes instructions own index offset size =
      (if index = 65535 then some own else instructions[index]?.map InstructionData.data).bind
        fun data => if offset + size ≤ data.length then some ((data.drop offset).take size) else none := by
  unfold declaredBytes
  split <;> rfl

theorem PointsAt.declares {instructions : List InstructionData} (h : PointsAt own entry index offset update)
    (hcarrier : (if index = 65535 then some own else instructions[index]?.map InstructionData.data) =
      some data)
    (hcarried : CarriesAt data offset update) : Declares instructions own entry update := by
  have hwhole := h.whole
  have hdeclared {start size : ℕ} (hfits : start + size ≤ update.length) :
      declaredBytes instructions own index (offset + start) size =
        some ((update.take (start + size)).drop start) := by
    rw [declaredBytes_eq, hcarrier]
    change (if offset + start + size ≤ data.length then _ else none) = _
    rw [if_pos (by have hlength := hcarried.1; omega), hcarried.slice hfits]
  constructor
  · rw [h.words 0 (by decide), h.words 1 (by decide)]
    exact hdeclared (show 4 + 64 ≤ update.length by omega)
  · rw [h.words 2 (by decide), h.words 3 (by decide)]
    exact hdeclared (show 68 + 32 ≤ update.length by omega)
  · rw [h.words 4 (by decide), h.words 5 (by decide), h.words 6 (by decide)]
    have hrest := hdeclared (show 102 + (update.length - 102) ≤ update.length by omega)
    rw [Nat.add_sub_of_le hwhole, List.take_length] at hrest
    exact hrest

theorem Declares.entryVerifies_eq {instructions : List InstructionData}
    (h : Declares instructions own entry update)
    (verify : (publicKey signature message : List UInt8) → Bool) :
    entryVerifies verify instructions own entry =
      verify ((update.take 100).drop 68) ((update.take 68).drop 4) (update.drop 102) := by
  unfold entryVerifies
  dsimp only
  rw [h.publicKey, h.signature, h.payload]

end Pointing

/-- Where every part has one length, a member of a part is found that many parts on. -/
theorem getElem?_flatMap {α β : Type} {parts : α → List β} {length : ℕ}
    (hlength : ∀ x, (parts x).length = length) (xs : List α) (part : ℕ) {place : ℕ}
    (hplace : place < length) :
    (xs.flatMap parts)[length * part + place]? = xs[part]?.bind fun x => (parts x)[place]? := by
  induction xs generalizing part with
  | nil => rfl
  | cons x xs ih =>
    rw [List.flatMap_cons]
    cases part with
    | zero =>
      rw [Nat.mul_zero, Nat.zero_add, List.getElem?_append_left (by rw [hlength]; exact hplace)]
      rfl
    | succ part =>
      have hskip : length * (part + 1) + place = length + (length * part + place) := by ring
      rw [hskip, List.getElem?_append_right (by rw [hlength]; omega), hlength,
        Nat.add_sub_cancel_left, ih part]
      rfl

/-- The numbers of a carried update's entry, as the check's data holds them. -/
def CarriedUpdate.words (update : CarriedUpdate) : List ℕ :=
  [update.offset + 4, update.instructionIndex, update.offset + 68, update.instructionIndex,
    update.offset + 102, update.message.length - 102, update.instructionIndex]

/-- A built check has the count of its updates, then their entries. -/
theorem getPythEd25519Instruction_data {program : Pubkey} {updates : List CarriedUpdate}
    {instruction : InstructionData}
    (h : getPythEd25519Instruction program updates = .ok instruction) :
    instruction.programId = program ∧
      instruction.data = [UInt8.ofNat updates.length, 0] ++
        (updates.flatMap CarriedUpdate.words).flatMap (LittleEndian.bytes 2) ++ [] ∧
      updates.length < 256 ∧
      ∀ update ∈ updates, 102 ≤ update.message.length ∧
        ∀ word ∈ update.words, word < 256 ^ 2 := by
  unfold getPythEd25519Instruction at h
  dsimp only at h
  split at h
  · rename_i hfits
    cases h
    rcases hfits with ⟨hcount, hentries⟩
    rw [List.length_map] at hcount
    have hword (update : CarriedUpdate) (hmem : update ∈ updates) :
        102 ≤ update.message.length ∧ ∀ word ∈ update.words, word < 256 ^ 2 := by
      have hnumbers := hentries _ (List.mem_map_of_mem hmem)
      unfold CarriedUpdate.entry Ed25519SignatureOffsets.numbers InRange at hnumbers
      unfold CarriedUpdate.words
      simp only [List.forall_mem_cons, List.not_mem_nil, false_imp_iff,
        implies_true, and_true] at hnumbers ⊢
      omega
    have hencoded (update : CarriedUpdate) (hmem : update ∈ updates) :
        encodeOffsets update.entry = update.words.flatMap (LittleEndian.bytes 2) := by
      rcases hword update hmem with ⟨hwhole, hwords⟩
      have hsize : ((update.message.length : ℤ) - 102) = (update.message.length - 102 : ℕ) := by omega
      unfold CarriedUpdate.words at hwords
      simp only [List.forall_mem_cons, List.not_mem_nil, false_imp_iff,
        implies_true, and_true] at hwords
      unfold encodeOffsets CarriedUpdate.entry CarriedUpdate.words
      dsimp only
      rw [hsize, show (update.offset : ℤ) + 4 = (update.offset + 4 : ℕ) by omega,
        show (update.offset : ℤ) + 68 = (update.offset + 68 : ℕ) by omega,
        show (update.offset : ℤ) + 102 = (update.offset + 102 : ℕ) by omega,
        encodeInteger_natCast hwords.1, encodeInteger_natCast hwords.2.1,
        encodeInteger_natCast hwords.2.2.1, encodeInteger_natCast hwords.2.2.2.2.1,
        encodeInteger_natCast hwords.2.2.2.2.2.1]
      simp only [List.flatMap_cons, List.flatMap_nil, List.append_nil, List.append_assoc]
    have hlength : updates.length < 256 := by
      unfold InRange at hcount
      omega
    refine ⟨rfl, ?_, hlength, hword⟩
    have hcountByte : encodeInteger 1 (updates.length : ℤ) = [UInt8.ofNat updates.length] := by
      rw [encodeInteger_natCast (by omega)]
      change [UInt8.ofNat (updates.length % 256)] = _
      rw [Nat.mod_eq_of_lt hlength]
    have hflat : (updates.map CarriedUpdate.entry).flatMap encodeOffsets =
        (updates.flatMap CarriedUpdate.words).flatMap (LittleEndian.bytes 2) := by
      rw [List.flatMap_map, List.flatMap_assoc]
      exact List.flatMap_congr hencoded
    unfold getEd25519Instruction
    dsimp only
    rw [List.length_map, hcountByte, hflat]
    rfl
  · cases h

theorem getPythEd25519Instruction_pointsAt {program : Pubkey} {updates : List CarriedUpdate}
    {instruction : InstructionData} {entry : ℕ} {update : CarriedUpdate}
    (h : getPythEd25519Instruction program updates = .ok instruction)
    (hentry : updates[entry]? = some update) :
    PointsAt instruction.data entry update.instructionIndex update.offset update.message := by
  rcases getPythEd25519Instruction_data h with ⟨-, hdata, -, hupdates⟩
  rcases hupdates update (List.mem_of_getElem? hentry) with ⟨hwhole, hwords⟩
  refine ⟨hwhole, fun place hplace => ?_⟩
  have hlength (update : CarriedUpdate) : update.words.length = 7 := rfl
  have hword : (updates.flatMap CarriedUpdate.words)[7 * entry + place]? = update.words[place]? := by
    rw [getElem?_flatMap hlength updates entry hplace, hentry]
    rfl
  have hplaced : place < update.words.length := hplace
  rw [List.getElem?_eq_getElem hplaced] at hword
  rcases List.getElem?_eq_some_iff.mp hword with ⟨hlt, hvalue⟩
  have hread := @take_drop_words [UInt8.ofNat updates.length, 0] []
    (updates.flatMap CarriedUpdate.words) (7 * entry + place) hlt
  have hstart : [UInt8.ofNat updates.length, 0].length + 2 * (7 * entry + place) =
      2 + 14 * entry + 2 * place := by
    change 2 + 2 * (7 * entry + place) = _
    ring
  unfold declaredWord
  rw [hdata, ← hstart, hread, hvalue, LittleEndian.toNat_bytes,
    Nat.mod_eq_of_lt (hwords _ (List.getElem_mem hplaced))]
  rfl

/-- The check holds nothing but its entries. -/
theorem getPythEd25519Instruction_length {program : Pubkey} {updates : List CarriedUpdate}
    {instruction : InstructionData}
    (h : getPythEd25519Instruction program updates = .ok instruction) :
    instruction.data.length = 2 + 14 * updates.length := by
  rcases getPythEd25519Instruction_data h with ⟨-, hdata, -, -⟩
  have hbytes (words : List ℕ) : (words.flatMap (LittleEndian.bytes 2)).length = 2 * words.length := by
    induction words with
    | nil => rfl
    | cons word words ih =>
      rw [List.flatMap_cons, List.length_append, ih, LittleEndian.length_bytes, List.length_cons]
      ring
  have hwords : (updates.flatMap CarriedUpdate.words).length = 7 * updates.length := by
    clear hdata h
    induction updates with
    | nil => rfl
    | cons update updates ih =>
      rw [List.flatMap_cons, List.length_append, ih, List.length_cons]
      change 7 + 7 * updates.length = _
      ring
  rw [hdata, List.append_nil, List.length_append, hbytes, hwords]
  change 2 + 2 * (7 * updates.length) = _
  ring

/-- The sweep's data holds the asset update after the discriminator and a length, and the payment
update after the asset's and another. -/
theorem encodeSweep_carries {args : SweepInstructionDataArgs} {data : List UInt8}
    (h : encodeSweep args = .ok data) : CarriesAt data 12 args.assetMessage ∧
      CarriesAt data (16 + args.assetMessage.length) args.paymentMessage := by
  have hprefix (number : ℤ) : (encodeInteger 4 number).length = 4 := LittleEndian.length_bytes _ _
  unfold encodeSweep at h
  split at h
  · cases h
    unfold encodeBytes
    constructor
    · constructor
      · simp only [List.length_append, hprefix, sweepDiscriminator, List.length_cons, List.length_nil]
        omega
      · simp only [List.append_assoc]
        rw [← List.append_assoc sweepDiscriminator, List.drop_left' (by
          rw [List.length_append, hprefix]
          rfl), List.take_left' rfl]
    · constructor
      · simp only [List.length_append, hprefix, sweepDiscriminator, List.length_cons, List.length_nil]
        omega
      · simp only [List.append_assoc]
        rw [← List.append_assoc sweepDiscriminator, ← List.append_assoc (_ ++ _),
          ← List.append_assoc (_ ++ _ ++ _), List.drop_left' (by
            simp only [List.length_append, hprefix, sweepDiscriminator, List.length_cons, List.length_nil]
            omega), List.take_left' rfl]
  · cases h

/-- What the pair of a built sweep looks like. -/
structure PointsIntoSweep (ed25519 : InstructionData) (sweep : InstructionData)
    (assetUpdate paymentUpdate : List UInt8) : Prop where
  count : ed25519.data.head? = some (if paymentUpdate = [] then 1 else 2)
  length : ed25519.data.length = 2 + 14 * if paymentUpdate = [] then 1 else 2
  asset : PointsAt ed25519.data 0 1 12 assetUpdate ∧ CarriesAt sweep.data 12 assetUpdate ∧
    Declares [ed25519, sweep] ed25519.data 0 assetUpdate
  payment : paymentUpdate ≠ [] → PointsAt ed25519.data 1 1 (16 + assetUpdate.length) paymentUpdate ∧
    CarriesAt sweep.data (16 + assetUpdate.length) paymentUpdate ∧
    Declares [ed25519, sweep] ed25519.data 1 paymentUpdate

theorem sweepUpdates_pointInto {program : Pubkey} {ed25519 sweep : InstructionData}
    {args : SweepInstructionDataArgs} (hsweep : encodeSweep args = .ok sweep.data)
    (hed25519 : getPythEd25519Instruction program
      (sweepUpdates args.assetMessage args.paymentMessage) = .ok ed25519) :
    PointsIntoSweep ed25519 sweep args.assetMessage args.paymentMessage := by
  rcases encodeSweep_carries hsweep with ⟨hasset, hpayment⟩
  have hdata := (getPythEd25519Instruction_data hed25519).2.1
  have hpointsAsset := getPythEd25519Instruction_pointsAt hed25519
    (show _[0]? = some ⟨1, args.assetMessage, 12⟩ from rfl)
  have hcarrier (own : List UInt8) : (if 1 = 65535 then some own
      else [ed25519, sweep][1]?.map InstructionData.data) = some sweep.data := rfl
  have hupdates : (sweepUpdates args.assetMessage args.paymentMessage).length =
      if args.paymentMessage = [] then 1 else 2 := by
    unfold sweepUpdates
    cases args.paymentMessage <;> rfl
  refine ⟨?_, ?_, ⟨hpointsAsset, hasset, hpointsAsset.declares (hcarrier _) hasset⟩, ?_⟩
  · rw [hdata, hupdates]
    split <;> rfl
  · rw [getPythEd25519Instruction_length hed25519, hupdates]
  · intro hsome
    have hentry : (sweepUpdates args.assetMessage args.paymentMessage)[1]? =
        some ⟨1, args.paymentMessage, 16 + args.assetMessage.length⟩ := by
      unfold sweepUpdates
      rw [if_pos (List.length_pos_iff.mpr hsome)]
      rfl
    have hpoints := getPythEd25519Instruction_pointsAt hed25519 hentry
    exact ⟨hpoints, hpayment, hpoints.declares (hcarrier _) hpayment⟩

theorem sweepBuild_bind_eq_ok {α β : Type} {x : SweepBuild α} {f : α → SweepBuild β} {b : β} :
    (x >>= f) = .ok b ↔ ∃ a, x = .ok a ∧ f a = .ok b := by
  cases x with
  | error error =>
    apply iff_of_false
    · intro h
      cases h
    · rintro ⟨a, h, -⟩
      cases h
  | ok a =>
    constructor
    · intro h
      exact ⟨a, rfl, h⟩
    · rintro ⟨_, h, hf⟩
      cases h
      exact hf

theorem getSweepInstructions_ok {addresses : SweepAddresses}
    {transactionSize : Pubkey → InstructionData → SweepInstructionWithAccounts → Option ℕ}
    {input : SweepInput} {built : BuiltSweep}
    (h : getSweepInstructions addresses transactionSize input = .ok built) :
    ∃ args : SweepInstructionDataArgs, args.assetMessage = input.assetUpdate ∧
      args.paymentMessage = input.paymentUpdate.getD [] ∧
      encodeSweep args = .ok built.sweep.data ∧
      getPythEd25519Instruction addresses.ed25519Program
        (sweepUpdates args.assetMessage args.paymentMessage) = .ok built.ed25519 := by
  rcases sweepBuild_bind_eq_ok.mp h with ⟨pull, -, h⟩
  dsimp only at h
  split at h
  · cases h
  split at h
  · cases h
  split at h
  · cases h
  · cases h
  rcases sweepBuild_bind_eq_ok.mp h with ⟨assetQuote, -, h⟩
  rcases sweepBuild_bind_eq_ok.mp h with ⟨paymentQuote, -, h⟩
  rcases sweepBuild_bind_eq_ok.mp h with ⟨minimum, -, h⟩
  rcases sweepBuild_bind_eq_ok.mp h with ⟨data, hdata, h⟩
  rcases sweepBuild_bind_eq_ok.mp h with ⟨ed25519, hed25519, h⟩
  split at h
  · cases h
  · cases h
    exact ⟨_, rfl, rfl, hdata, hed25519⟩

theorem getSweepInstructions_pointInto {addresses : SweepAddresses}
    {transactionSize : Pubkey → InstructionData → SweepInstructionWithAccounts → Option ℕ}
    {input : SweepInput} {built : BuiltSweep}
    (h : getSweepInstructions addresses transactionSize input = .ok built) :
    PointsIntoSweep built.ed25519 built.sweep.toInstructionData input.assetUpdate
      (input.paymentUpdate.getD []) := by
  rcases getSweepInstructions_ok h with ⟨args, hasset, hpayment, hsweep, hed25519⟩
  rw [← hasset, ← hpayment]
  exact sweepUpdates_pointInto hsweep hed25519

/-- The numbers of an update's entry fit their two bytes. -/
def CarriedUpdate.Fits (update : CarriedUpdate) : Prop :=
  102 ≤ update.message.length ∧ update.message.length ≤ 65535 + 102 ∧
    update.offset + 102 ≤ 65535 ∧ update.instructionIndex ≤ 65535

theorem exists_getPythEd25519Instruction {program : Pubkey} {updates : List CarriedUpdate}
    (hcount : updates.length < 256) (hfits : ∀ update ∈ updates, update.Fits) :
    ∃ instruction, getPythEd25519Instruction program updates = .ok instruction := by
  unfold getPythEd25519Instruction
  dsimp only
  rw [if_pos]
  · exact ⟨_, rfl⟩
  constructor
  · unfold InRange
    rw [List.length_map]
    omega
  · intro entry hentry
    rcases List.mem_map.mp hentry with ⟨update, hupdate, rfl⟩
    have hupdateFits := hfits update hupdate
    unfold CarriedUpdate.Fits at hupdateFits
    unfold CarriedUpdate.entry Ed25519SignatureOffsets.numbers InRange
    simp only [List.forall_mem_cons, List.not_mem_nil, false_imp_iff, implies_true, and_true]
    omega

def SweepRehearsal.addresses : SweepAddresses where
  program := Rehearsal.address 201
  config := Rehearsal.address 1
  vault := Rehearsal.address 2
  subscriptionsProgram := Rehearsal.address 203
  subscriptionsEventAuthority := Rehearsal.address 3
  pythProgram := Rehearsal.address 208
  pythStorage := Rehearsal.address 4
  instructions := Rehearsal.address 5
  systemProgram := Rehearsal.address 6
  eventAuthority := Rehearsal.address 7
  swapAuthority := Rehearsal.address 8
  ed25519Program := Rehearsal.address 206
  userConfig := id
  plan := fun _ _ => Rehearsal.address 9
  subscription := fun user _ _ => user
  subscriptionAuthority := fun user _ => user
  associatedToken := fun _ owner _ => owner

end Laterite.Client
