import Laterite.ClientSweepInstructions

/-!
# Price updates other transactions carry

Another program posts a signed price update to the same verifier, and the update is cut out of the
instruction its signature check points into. The transaction is a stranger's: what is cut out is
whatever the check of an executed transaction verified.
-/

namespace Laterite.Relay

open Client

/-- An instruction of a legacy message or of version 0; its data is left out when it has none. -/
structure CompiledInstruction where
  data : Option (List UInt8)
  programAddressIndex : ℕ

structure InstructionHeader where
  programAccountIndex : ℕ

structure InstructionPayload where
  instructionData : List UInt8

/-- A message's instructions: one list of them, or from version 1 on their headers and then their
payloads. The formats count at most 65535 instructions. -/
inductive CompiledMessage where
  | instructions (staticAccounts : List Pubkey) (instructions : List CompiledInstruction)
    (count_le : instructions.length ≤ 65535)
  | version1 (staticAccounts : List Pubkey) (instructionHeaders : List InstructionHeader)
    (instructionPayloads : List InstructionPayload)
    (payload_each : instructionPayloads.length = instructionHeaders.length)
    (count_le : instructionHeaders.length ≤ 65535)

def CompiledMessage.staticAccounts : CompiledMessage → List Pubkey
  | .instructions accounts _ _ => accounts
  | .version1 accounts _ _ _ _ => accounts

def CompiledMessage.listed : CompiledMessage → List CompiledInstruction
  | .instructions _ compiled _ => compiled
  | .version1 _ headers payloads _ _ => List.zipWith
      (fun header payload => ⟨some payload.instructionData, header.programAccountIndex⟩) headers payloads

def u16 (data : List UInt8) (offset : ℕ) : ℕ :=
  ((data[offset]?.map UInt8.toNat).getD 0) ||| (((data[offset + 1]?.map UInt8.toNat).getD 0) <<< 8)

/-- The update the check at `index` points at, when it is a check of one signature whose entry has
the places of an update's parts, in data that holds them. -/
def updateAt (ed25519Program : Pubkey) (message : CompiledMessage) (index : ℕ)
    (instruction : CompiledInstruction) : Option (List UInt8) :=
  if message.staticAccounts[instruction.programAddressIndex]? ≠ some ed25519Program then none
  else
    let data := instruction.data.getD []
    if data[0]? ≠ some 1 then none
    else
      let signatureOffset := u16 data 2
      let signatureIndex := u16 data 4
      let publicKeyOffset := u16 data 6
      let publicKeyIndex := u16 data 8
      let messageOffset := u16 data 10
      let messageSize := u16 data 12
      let messageIndex := u16 data 14
      let source := if (messageIndex : ℤ) = ed25519ThisInstruction then index else messageIndex
      let start : ℤ := (signatureOffset : ℤ) - 4
      let valid : Prop := signatureIndex = messageIndex ∧ publicKeyIndex = messageIndex ∧
        publicKeyOffset = signatureOffset + 64 ∧ messageOffset = signatureOffset + 98 ∧ start ≥ 0
      match message.listed[source]?.bind CompiledInstruction.data with
      | none => none
      | some carrier =>
        if ¬valid ∨ carrier.length < messageOffset + messageSize then none
        else some ((carrier.take (messageOffset + messageSize)).drop start.toNat)

/-- The first update the transaction's checks point at; `decode` reads the transaction's bytes. -/
def getPythUpdateFromTransaction {ε : Type} (decode : List UInt8 → Except ε CompiledMessage)
    (ed25519Program : Pubkey) (wireTransaction : List UInt8) : Except ε (Option (List UInt8)) := do
  let message ← decode wireTransaction
  return message.listed.zipIdx.findSome? fun (instruction, index) =>
    updateAt ed25519Program message index instruction

/-- The check at `index`, of one signature, points at an update that an instruction carries. -/
def Posts (ed25519Program : Pubkey) (message : CompiledMessage) (index : ℕ) (update : List UInt8) :
    Prop :=
  ∃ instruction, message.listed[index]? = some instruction ∧
    message.staticAccounts[instruction.programAddressIndex]? = some ed25519Program ∧
    (instruction.data.getD [])[0]? = some 1 ∧
    ∃ source offset carrier, PointsAt (instruction.data.getD []) 0 source offset update ∧
      message.listed[if source = 65535 then index else source]?.bind CompiledInstruction.data =
        some carrier ∧
      CarriesAt carrier offset update

variable {ed25519Program : Pubkey} {message : CompiledMessage} {index : ℕ}
  {instruction : CompiledInstruction} {update : List UInt8}

/-- Both read the entry's numbers at the same places. -/
theorem u16_eq (data : List UInt8) (place : ℕ) :
    u16 data (2 + 2 * place) = declaredWord data 0 place := by
  unfold u16 declaredWord
  rw [Nat.mul_zero, Nat.add_zero]
  generalize 2 + 2 * place = offset
  have hfirst : data[offset]? = (data.drop offset)[0]? := by
    rw [List.getElem?_drop, Nat.add_zero]
  have hsecond : data[offset + 1]? = (data.drop offset)[1]? := by
    rw [List.getElem?_drop]
  rw [hfirst, hsecond]
  match data.drop offset with
  | [] => rfl
  | [first] =>
    change first.toNat ||| (0 <<< 8) = LittleEndian.toNat [first]
    simp [LittleEndian.toNat]
  | first :: second :: _ =>
    have hlt := first.toNat_lt
    change first.toNat ||| (second.toNat <<< 8) = LittleEndian.toNat [first, second]
    rw [Nat.or_comm, ← Nat.shiftLeft_add_eq_or_of_lt hlt, Nat.shiftLeft_eq]
    simp only [LittleEndian.toNat]
    omega

theorem updateAt_iff (hinstruction : message.listed[index]? = some instruction) :
    updateAt ed25519Program message index instruction = some update ↔
      Posts ed25519Program message index update := by
  have hword (place : ℕ) := u16_eq (instruction.data.getD []) place
  have h0 := hword 0
  have h1 := hword 1
  have h2 := hword 2
  have h3 := hword 3
  have h4 := hword 4
  have h5 := hword 5
  have h6 := hword 6
  simp only [Nat.reduceMul, Nat.reduceAdd] at h0 h1 h2 h3 h4 h5 h6
  constructor
  · intro h
    unfold updateAt at h
    split at h
    · cases h
    rename_i hprogram
    dsimp only at h
    split at h
    · cases h
    rename_i hsingle
    split at h
    · cases h
    rename_i carrier hcarrier
    split at h
    · cases h
    rename_i hfits
    rw [not_or, not_not, not_lt] at hfits
    rcases hfits with ⟨⟨hsignature, hkey, hkeyOffset, hpayloadOffset, hstart⟩, hlength⟩
    cases h
    refine ⟨instruction, hinstruction, not_not.mp hprogram, not_not.mp hsingle,
      u16 (instruction.data.getD []) 14, u16 (instruction.data.getD []) 2 - 4, carrier, ?_, ?_, ?_⟩
    · have hsize : ((carrier.take (u16 (instruction.data.getD []) 10 +
          u16 (instruction.data.getD []) 12)).drop
            ((u16 (instruction.data.getD []) 2 : ℤ) - 4).toNat).length =
              102 + u16 (instruction.data.getD []) 12 := by
        rw [List.length_drop, List.length_take]
        omega
      constructor
      · rw [hsize]
        omega
      · intro place hplace
        rw [hsize]
        interval_cases place
        · rw [← h0]
          change _ = _ - 4 + 4
          omega
        · rw [← h1]
          exact hsignature
        · rw [← h2]
          change _ = _ - 4 + 68
          omega
        · rw [← h3]
          exact hkey
        · rw [← h4]
          change _ = _ - 4 + 102
          omega
        · rw [← h5]
          change _ = 102 + _ - 102
          omega
        · rw [← h6]
          rfl
    · have hsource : ((u16 (instruction.data.getD []) 14 : ℤ) = ed25519ThisInstruction) =
          (u16 (instruction.data.getD []) 14 = 65535) := by
        unfold ed25519ThisInstruction
        exact propext (by omega)
      simp only [hsource] at hcarrier
      exact hcarrier
    · have hfrom : ((u16 (instruction.data.getD []) 2 : ℤ) - 4).toNat =
          u16 (instruction.data.getD []) 2 - 4 := by omega
      constructor
      · rw [List.length_drop, List.length_take]
        omega
      · rw [List.length_drop, List.length_take, Nat.min_eq_left hlength, hfrom, List.drop_take]
  · rintro ⟨_, hsame, hprogram, hsingle, source, offset, carrier, ⟨hwhole, hwords⟩, hcarrier,
      hlength, hcarried⟩
    rw [hinstruction] at hsame
    cases hsame
    have e0 := h0.trans (hwords 0 (by decide))
    have e1 := h1.trans (hwords 1 (by decide))
    have e2 := h2.trans (hwords 2 (by decide))
    have e3 := h3.trans (hwords 3 (by decide))
    have e4 := h4.trans (hwords 4 (by decide))
    have e5 := h5.trans (hwords 5 (by decide))
    have e6 := h6.trans (hwords 6 (by decide))
    simp only [List.getElem_cons_zero, List.getElem_cons_succ] at e0 e1 e2 e3 e4 e5 e6
    have hsource : ((source : ℤ) = ed25519ThisInstruction) = (source = 65535) := by
      unfold ed25519ThisInstruction
      exact propext (by omega)
    have hend : offset + 102 + (update.length - 102) = offset + update.length := by omega
    unfold updateAt
    rw [if_neg (not_not.mpr hprogram)]
    dsimp only
    rw [if_neg (not_not.mpr hsingle), e0, e1, e2, e3, e4, e5, e6, hend]
    simp only [hsource, hcarrier]
    have hstart : ((offset + 4 : ℕ) : ℤ) - 4 ≥ 0 := by omega
    have hplaced : ¬(¬(True ∧ True ∧ True ∧ True ∧ ((offset + 4 : ℕ) : ℤ) - 4 ≥ 0) ∨
        carrier.length < offset + update.length) :=
      not_or.mpr ⟨not_not.mpr ⟨trivial, trivial, trivial, trivial, hstart⟩, not_lt.mpr hlength⟩
    rw [if_neg hplaced]
    have hfrom : (((offset + 4 : ℕ) : ℤ) - 4).toNat = offset := by omega
    rw [hfrom, List.drop_take, Nat.add_sub_cancel_left, hcarried]

/-- A search that hits at a place and misses before it ends there. -/
theorem findSome?_zipIdx {α β : Type} {f : α × ℕ → Option β} {b : β} (xs : List α) (start : ℕ)
    {place : ℕ} {x : α} (hx : xs[place]? = some x) (hit : f (x, start + place) = some b)
    (hmiss : ∀ earlier < place, ∀ y, xs[earlier]? = some y → f (y, start + earlier) = none) :
    (xs.zipIdx start).findSome? f = some b := by
  induction xs generalizing start place with
  | nil => cases hx
  | cons y xs ih =>
    rw [List.zipIdx_cons]
    cases place with
    | zero =>
      cases hx
      have hfirst : f (x, start) = some b := hit
      rw [List.findSome?_cons, hfirst]
    | succ place =>
      have hfirst : f (y, start) = none := hmiss 0 (Nat.zero_lt_succ place) y rfl
      rw [List.findSome?_cons, hfirst]
      apply ih (start + 1) hx
      · rw [Nat.add_assoc, Nat.add_comm 1]
        exact hit
      · intro earlier hearlier z hz
        rw [Nat.add_assoc, Nat.add_comm 1]
        exact hmiss (earlier + 1) (Nat.succ_lt_succ hearlier) z hz

section Transactions

variable {ε : Type} {decode : List UInt8 → Except ε CompiledMessage} {wireTransaction : List UInt8}

/-- The first update the checks of the message point at is the one returned. -/
theorem getPythUpdate_of_posts (hdecoded : decode wireTransaction = .ok message)
    (hposts : Posts ed25519Program message index update)
    (hfirst : ∀ earlier < index, ∀ other, ¬Posts ed25519Program message earlier other) :
    getPythUpdateFromTransaction decode ed25519Program wireTransaction = .ok (some update) := by
  rcases hposts with ⟨instruction, hinstruction, hrest⟩
  have hfound : message.listed.zipIdx.findSome? (fun (instruction, index) =>
      updateAt ed25519Program message index instruction) = some update := by
    apply findSome?_zipIdx message.listed 0 hinstruction
    · rw [Nat.zero_add]
      exact (updateAt_iff hinstruction).mpr ⟨instruction, hinstruction, hrest⟩
    · intro earlier hearlier other hother
      rw [Nat.zero_add]
      apply Option.eq_none_iff_forall_ne_some.mpr
      intro posted hposted
      exact hfirst earlier hearlier posted ((updateAt_iff hother).mp hposted)
  unfold getPythUpdateFromTransaction
  rw [hdecoded]
  exact congrArg Except.ok hfound

/-- Whatever is returned, some check of the message points at it. -/
theorem posts_of_getPythUpdate (hdecoded : decode wireTransaction = .ok message)
    (h : getPythUpdateFromTransaction decode ed25519Program wireTransaction = .ok (some update)) :
    ∃ index, Posts ed25519Program message index update := by
  unfold getPythUpdateFromTransaction at h
  rw [hdecoded] at h
  rcases List.exists_of_findSome?_eq_some (Except.ok.inj h) with ⟨⟨instruction, index⟩, hmem, hposted⟩
  have hinstruction : message.listed[index]? = some instruction := by
    exact List.mk_mem_zipIdx_iff_getElem?.mp hmem
  exact ⟨index, (updateAt_iff hinstruction).mp hposted⟩

end Transactions

theorem length_listed (message : CompiledMessage) : message.listed.length ≤ 65535 := by
  cases message with
  | instructions _ compiled count_le => exact count_le
  | version1 _ headers payloads _ count_le =>
    unfold CompiledMessage.listed
    rw [List.length_zipWith]
    exact (Nat.min_le_left _ _).trans count_le

/-- The message's instruction at `index` is the check of one carried update, and the instruction it
names carries it. -/
structure Built (ed25519Program : Pubkey) (message : CompiledMessage) (index : ℕ)
    (update : CarriedUpdate) : Prop where
  check : ∃ instruction check, message.listed[index]? = some instruction ∧
    getPythEd25519Instruction ed25519Program [update] = .ok check ∧
    message.staticAccounts[instruction.programAddressIndex]? = some check.programId ∧
    instruction.data = some check.data
  carried : ∃ carrier, message.listed[update.instructionIndex]?.bind CompiledInstruction.data =
    some carrier ∧ CarriesAt carrier update.offset update.message

theorem Built.posts {carried : CarriedUpdate} (h : Built ed25519Program message index carried) :
    Posts ed25519Program message index carried.message := by
  rcases h.check with ⟨instruction, check, hinstruction, hcheck, hprogram, hdata⟩
  rcases h.carried with ⟨carrier, hcarrier, hcarried⟩
  rcases getPythEd25519Instruction_data hcheck with ⟨hid, hbytes, -, -⟩
  have hpoints := getPythEd25519Instruction_pointsAt hcheck (show [carried][0]? = some carried from rfl)
  have hown : instruction.data.getD [] = check.data := by
    rw [hdata]
    rfl
  have hindex : carried.instructionIndex ≠ 65535 := by
    intro heq
    rw [heq, List.getElem?_eq_none (length_listed message)] at hcarrier
    cases hcarrier
  refine ⟨instruction, hinstruction, hid ▸ hprogram, ?_, carried.instructionIndex, carried.offset,
    carrier, ?_, ?_, hcarried⟩
  · rw [hown, hbytes]
    rfl
  · rw [hown]
    exact hpoints
  · rw [if_neg hindex]
    exact hcarrier

/-- The transaction's instructions as the runtime ran them, every signature check of which passed. -/
structure Ran (d : Deployment) (verify : (publicKey signature message : List UInt8) → Bool)
    (message : CompiledMessage) (instructions : List InstructionData) : Prop where
  resolved : List.Forall₂ (fun compiled ran =>
    message.staticAccounts[compiled.programAddressIndex]? = some ran.programId ∧
      compiled.data.getD [] = ran.data) message.listed instructions
  checked : SignaturesChecked d verify instructions

theorem getElem?_of_forall₂ {α β : Type} {r : α → β → Prop} {xs : List α} {ys : List β}
    (h : List.Forall₂ r xs ys) {place : ℕ} {x : α} (hx : xs[place]? = some x) :
    ∃ y, ys[place]? = some y ∧ r x y := by
  induction h generalizing place with
  | nil => cases hx
  | cons hr _ ih =>
    cases place with
    | zero =>
      cases hx
      exact ⟨_, rfl, hr⟩
    | succ place => exact ih hx

theorem Posts.verified {d : Deployment} {verify : (publicKey signature message : List UInt8) → Bool}
    {instructions : List InstructionData} (h : Posts d.ed25519ProgramId message index update)
    (hran : Ran d verify message instructions) :
    verify ((update.take 100).drop 68) ((update.take 68).drop 4) (update.drop 102) = true := by
  rcases h with ⟨instruction, hinstruction, hprogram, hsingle, source, offset, carrier, hpoints,
    hcarrier, hcarried⟩
  rcases getElem?_of_forall₂ hran.resolved hinstruction with ⟨ran, hranAt, hid, hdata⟩
  rw [hdata] at hsingle hpoints
  have hdeclares : Declares instructions ran.data 0 update := by
    apply hpoints.declares _ hcarried
    by_cases hown : source = 65535
    · rw [if_pos hown] at hcarrier ⊢
      rw [hinstruction, Option.bind_some] at hcarrier
      rw [hcarrier] at hdata
      rw [← hdata]
      rfl
    · rw [if_neg hown] at hcarrier ⊢
      rcases Option.bind_eq_some_iff.mp hcarrier with ⟨named, hnamed, hnamedData⟩
      rcases getElem?_of_forall₂ hran.resolved hnamed with ⟨ranNamed, hranNamed, -, hnamedBytes⟩
      rw [hnamedData] at hnamedBytes
      rw [hranNamed, Option.map_some, ← hnamedBytes]
      rfl
  rw [← hdeclares.entryVerifies_eq verify]
  apply hran.checked ran (List.mem_of_getElem? hranAt)
  · exact Option.some.inj (hid.symm.trans hprogram)
  · rw [← List.head?_eq_getElem?] at hsingle
    rw [hsingle]
    decide

/-- The entries a sweep is built with point at its updates, the update a posting transaction carries
is read back whole, and what is read back of an executed transaction was verified. -/
theorem updates_round_trip :
    (∀ (addresses : SweepAddresses)
      (transactionSize : Pubkey → InstructionData → SweepInstructionWithAccounts → Option ℕ)
      (input : SweepInput) (built : BuiltSweep),
      getSweepInstructions addresses transactionSize input = .ok built →
        PointsIntoSweep built.ed25519 built.sweep.toInstructionData input.assetUpdate
          (input.paymentUpdate.getD [])) ∧
    (∀ (program : Pubkey) (assetUpdate paymentUpdate : List UInt8),
      (∀ update ∈ sweepUpdates assetUpdate paymentUpdate, update.Fits) →
        ∃ check, getPythEd25519Instruction program (sweepUpdates assetUpdate paymentUpdate) =
          .ok check) ∧
    (∀ (ε : Type) (decode : List UInt8 → Except ε CompiledMessage) (program : Pubkey)
      (wireTransaction : List UInt8) (message : CompiledMessage) (index : ℕ) (update : CarriedUpdate),
      decode wireTransaction = .ok message → Built program message index update →
      (∀ earlier < index, ∀ other, ¬Posts program message earlier other) →
        getPythUpdateFromTransaction decode program wireTransaction = .ok (some update.message)) ∧
    ∀ (ε : Type) (decode : List UInt8 → Except ε CompiledMessage) (d : Deployment)
      (verify : (publicKey signature message : List UInt8) → Bool) (wireTransaction : List UInt8)
      (message : CompiledMessage) (instructions : List InstructionData) (update : List UInt8),
      decode wireTransaction = .ok message → Ran d verify message instructions →
      getPythUpdateFromTransaction decode d.ed25519ProgramId wireTransaction = .ok (some update) →
        verify ((update.take 100).drop 68) ((update.take 68).drop 4) (update.drop 102) = true := by
  refine ⟨fun _ _ _ _ h => getSweepInstructions_pointInto h, ?_, ?_, ?_⟩
  · intro program assetUpdate paymentUpdate hfits
    apply exists_getPythEd25519Instruction _ hfits
    unfold sweepUpdates
    split
    · exact Nat.lt_of_le_of_lt (le_refl 2) (by decide)
    · exact Nat.lt_of_le_of_lt (le_refl 1) (by decide)
  · intro _ decode program wireTransaction message index update hdecoded hbuilt hfirst
    exact getPythUpdate_of_posts hdecoded hbuilt.posts hfirst
  · intro _ decode d verify wireTransaction message instructions update hdecoded hran hreturned
    rcases posts_of_getPythUpdate hdecoded hreturned with ⟨index, hposts⟩
    exact hposts.verified hran

namespace RelayRehearsal

open Rehearsal (address assetUpdate deployment params pythKey router)

/-- The account that posts prices, the program it posts to and the programs of the others. -/
def staticAccounts : List Pubkey := [address 80, address 81, address 82, deployment.ed25519ProgramId]

def posted : CarriedUpdate := ⟨2, assetUpdate 1700000090, 9⟩

def check : InstructionData := getEd25519Instruction deployment.ed25519ProgramId [posted.entry] []

/-- What the poster calls its program with, the update inside. -/
def carrier : List UInt8 := List.replicate 9 3 ++ posted.message ++ [1, 2]

/-- A compute budget, the signature check and the post it points into. -/
def compiled : List CompiledInstruction := [⟨some [2, 64], 1⟩, ⟨some check.data, 3⟩, ⟨some carrier, 2⟩]

theorem length_compiled : compiled.length ≤ 65535 := by decide

def transaction : CompiledMessage := .instructions staticAccounts compiled length_compiled

def executed : List InstructionData := [⟨address 81, [2, 64]⟩, check, ⟨address 82, carrier⟩]

def pythSigned (publicKey signature payload : List UInt8) : Bool :=
  publicKey = pythKey.toList ∧ signature = List.replicate 64 0 ∧ payload = posted.message.drop 102

theorem transaction_built : Built deployment.ed25519ProgramId transaction 1 posted where
  check := ⟨⟨some check.data, 3⟩, check, rfl, by decide +kernel, rfl, rfl⟩
  carried := ⟨carrier, rfl, by decide +kernel, by decide +kernel⟩

theorem transaction_first : ∀ earlier < 1, ∀ other,
    ¬Posts deployment.ed25519ProgramId transaction earlier other := by
  rintro earlier hearlier other ⟨instruction, hinstruction, hprogram, -⟩
  obtain rfl : earlier = 0 := Nat.lt_one_iff.mp hearlier
  obtain rfl := Option.some.inj hinstruction
  exact absurd hprogram (by decide)

theorem transaction_ran : Ran deployment pythSigned transaction executed := by
  constructor
  · exact .cons ⟨rfl, rfl⟩ (.cons ⟨rfl, rfl⟩ (.cons ⟨rfl, rfl⟩ .nil))
  · intro instruction hinstruction hprogram entry hentry
    rcases List.mem_cons.mp hinstruction with rfl | hrest
    · exact absurd hprogram (by decide)
    rcases List.mem_cons.mp hrest with rfl | hrest
    · obtain rfl : entry = 0 := Nat.lt_one_iff.mp hentry
      decide +kernel
    · rw [List.mem_singleton.mp hrest] at hprogram
      exact absurd hprogram (by decide)

/-- The newcomer's sweep of a token priced by feed 7 as well, with the posted update for both. -/
def sweepInput : SweepInput where
  state := { newcomerState with
    config := { newcomerState.config with
      paymentTokens := [⟨Pubkey.default, Pubkey.default, 6, 7⟩] } }
  user := newcomer.user
  router := router
  assets := params.assets.toList
  asset := 0
  assetUpdate := posted.message
  paymentUpdate := some posted.message
  boundaryMarginSeconds := none
  crank := address 80
  pythTreasury := address 72
  route := ⟨router, none, none⟩

end RelayRehearsal

open RelayRehearsal Rehearsal in
/-- A posted update is read back from its transaction, where it was verified, and the sweep built
with it has it checked again. -/
theorem updates_round_trip_posted :
    getPythUpdateFromTransaction (fun _ => (.ok transaction : Except Unit CompiledMessage))
        deployment.ed25519ProgramId [] = .ok (some posted.message) ∧
      pythSigned ((posted.message.take 100).drop 68) ((posted.message.take 68).drop 4)
        (posted.message.drop 102) = true ∧
      ∃ built, getSweepInstructions SweepRehearsal.addresses (fun _ _ _ => some 1200) sweepInput =
          .ok built ∧
        PointsIntoSweep built.ed25519 built.sweep.toInstructionData posted.message posted.message := by
  rcases updates_round_trip with ⟨hpoints, -, hreturned, hverified⟩
  have hread := hreturned Unit (fun _ => .ok transaction) deployment.ed25519ProgramId [] transaction 1
    posted rfl transaction_built transaction_first
  have hbuilds : (getSweepInstructions SweepRehearsal.addresses (fun _ _ _ => some 1200)
      sweepInput).isOk = true := by
    decide +kernel
  refine ⟨hread, hverified Unit _ deployment pythSigned [] transaction executed _ rfl transaction_ran
    hread, ?_⟩
  rcases hbuilt : getSweepInstructions SweepRehearsal.addresses (fun _ _ _ => some 1200) sweepInput with
    error | built
  · rw [hbuilt] at hbuilds
    cases hbuilds
  · exact ⟨built, rfl, hpoints _ _ _ _ hbuilt⟩

end Laterite.Relay
