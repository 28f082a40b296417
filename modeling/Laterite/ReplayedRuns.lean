import Laterite.UserLifecycle

/-!
# Replaying calls

A list of calls, each with the clock and the surroundings it is made in, replayed from before
`initialize`. Replaying computes, and what it computes is a run of the program. A rehearsal
replays one user's life on a small deployment, with stand-ins for the other programs that do
what the real ones do on the accounts they are meant for.
-/

namespace Laterite

open TimedRuns

section Replay

variable (d : Deployment) (accounts : Accounts)

def ledgerAfter : List (Invocation × Call) → Chain
  | [] => Chain.genesis accounts
  | (inv, call) :: earlier => (submit d inv (ledgerAfter earlier) call).2

def moment (c : Invocation × Call) (earlier : List (Invocation × Call)) :
    Transition Chain Happening :=
  ⟨c.1.now, .called c.1 c.2 (submit d c.1 (ledgerAfter d accounts earlier) c.2).1,
    ledgerAfter d accounts earlier, ledgerAfter d accounts (c :: earlier)⟩

def historyOf : List (Invocation × Call) → List (Transition Chain Happening)
  | [] => []
  | c :: earlier => moment d accounts c earlier :: historyOf earlier

variable {d accounts}

theorem mem_historyOf {t : Transition Chain Happening} {calls : List (Invocation × Call)}
    (ht : t ∈ historyOf d accounts calls) : ∃ c ∈ calls, t.now = c.1.now := by
  induction calls with
  | nil => cases ht
  | cons c earlier ih =>
    rcases List.mem_cons.mp ht with rfl | ht
    · exact ⟨c, by simp, rfl⟩
    · obtain ⟨c', hc', hnow⟩ := ih ht
      exact ⟨c', by simp [hc'], hnow⟩

theorem event_of_mem_historyOf {t : Transition Chain Happening} {calls : List (Invocation × Call)}
    (ht : t ∈ historyOf d accounts calls) : ∃ c ∈ calls, ∃ outcome,
      t.now = c.1.now ∧ t.event = .called c.1 c.2 outcome := by
  induction calls with
  | nil => cases ht
  | cons c earlier ih =>
    rcases List.mem_cons.mp ht with rfl | ht
    · exact ⟨c, List.mem_cons_self, _, rfl, rfl⟩
    · rcases ih ht with ⟨c', hc', houtcome⟩
      exact ⟨c', List.mem_cons_of_mem _ hc', houtcome⟩

theorem programRun_replay (calls : List (Invocation × Call))
    (hclock : calls.Pairwise fun later earlier => earlier.1.now ≤ later.1.now) :
    ProgramRun d accounts (historyOf d accounts calls) (ledgerAfter d accounts calls) := by
  induction calls with
  | nil => exact .start
  | cons c earlier ih =>
    obtain ⟨hlatest, hearlier⟩ := List.pairwise_cons.mp hclock
    refine Run.next (ih hearlier) ?_ (.called c.1 c.2 (ledgerAfter d accounts earlier))
    intro p hp
    obtain ⟨c, hc, hnow⟩ := mem_historyOf hp
    exact hnow ▸ hlatest c hc

end Replay

def UserAction.pulled (paymentToken : UInt8) (engine pending : UInt64) : UserAction → Bool
  | .sweep _ event =>
    event.paymentToken = paymentToken ∧ event.engine = engine ∧ event.pending = pending
  | _ => false

theorem exists_sweep {action : Option UserAction} {paymentToken : UInt8} {engine pending : UInt64}
    (h : action.any (UserAction.pulled paymentToken engine pending) = true) :
    ∃ config event, action = some (.sweep config event) ∧ event.paymentToken = paymentToken ∧
      event.engine = engine ∧ event.pending = pending := by
  obtain ⟨a, rfl, ha⟩ := (Option.any_eq_true _ _).mp h
  cases a with
  | sweep config event => exact ⟨config, event, rfl, of_decide_eq_true ha⟩
  | _ => cases ha

namespace Rehearsal

def address (n : UInt8) : Pubkey := Vector.replicate 32 n

def toAddress (bytes : List UInt8) : Option Pubkey :=
  if h : bytes.length = 32 then some ⟨bytes.toArray, by simpa using h⟩ else none

def tokenData (mint owner : Pubkey) (amount : ℕ) : List UInt8 :=
  mint.toList ++ owner.toList ++ LittleEndian.bytes 8 amount

def withAmount (account : Account) (amount : ℕ) : Account :=
  { account with data := account.data.take 64 ++ LittleEndian.bytes 8 amount }

/-- A subscription's data: its dollars a week, the dollars pulled this week, and its expiry. -/
def readSubscriptionData : List UInt8 → Option SubscriptionDelegation
  | [dollars, pulled, expiry] => some {
      bump := 255
      amount := UInt64.ofNat (dollars.toNat * 1000000)
      periodHours := planPeriodHours
      amountPulledInPeriod := UInt64.ofNat (pulled.toNat * 1000000)
      currentPeriodStartTs := 0
      expiresAtTs := expiry.toNat }
  | _ => none

/-- A program address repeats the first byte of its last seed; a subscription's adds the bytes
of its plan and its user. -/
def deployment : Deployment where
  id := address 201
  programData := address 202
  subscriptionsId := address 203
  tokenId := address 204
  token2022Id := address 205
  ed25519ProgramId := address 206
  bpfLoaderUpgradeableId := address 207
  deriveProgramAddress := fun seeds _ =>
    (address ((seeds.getLast?.bind List.head?).getD 0), 255)
  planPrefix := ascii "plan"
  subscriptionFromBytes := readSubscriptionData
  createPda := fun plan user bump =>
    if bump = 255 then some (Vector.zipWith (· + ·) plan user) else none
  findPda := fun plan user => (Vector.zipWith (· + ·) plan user, 255)
  unpackAccountMint := fun data => if data.length = 72 then toAddress (data.take 32) else none
  unpackAccountOwner := fun data =>
    if data.length = 72 then toAddress ((data.take 64).drop 32) else none
  mintDecimals := List.head?

def pythKey : Pubkey := address 9

/-- The update carries the trusted key. -/
def signedByPyth (message : List UInt8) : Bool := (message.drop 68).take 32 = pythKey.toList

def transfer (call : TransferSubscription) (accounts : Accounts) : Option Accounts :=
  match amount (accounts.info call.delegatorAta), amount (accounts.info call.receiverAta) with
  | .ok a, .ok b =>
    if call.delegatorAta ≠ call.receiverAta ∧ call.amount.toNat ≤ a.toNat ∧
        b.toNat + call.amount.toNat < 2 ^ 64 then
      some (Function.update
        (Function.update accounts call.delegatorAta
          (withAmount (accounts call.delegatorAta) (a.toNat - call.amount.toNat)))
        call.receiverAta (withAmount (accounts call.receiverAta) (b.toNat + call.amount.toNat)))
    else none
  | _, _ => none

/-- Ends a subscription one second after the epoch. -/
def cancel (call : CancelSubscriptionNow) (accounts : Accounts) : Option Accounts :=
  match (accounts call.subscriptionPda).data with
  | [dollars, pulled, _] => some (Function.update accounts call.subscriptionPda
      { accounts call.subscriptionPda with data := [dollars, pulled, 1] })
  | _ => none

/-- Empties the first account of the route and sets the second to the amount the route names. -/
def route (call : RouterInstruction) (accounts : Accounts) : Option Accounts :=
  match call.accounts with
  | [source, target] => some (Function.update
      (Function.update accounts source.pubkey (withAmount (accounts source.pubkey) 0))
      target.pubkey (withAmount (accounts target.pubkey) (LittleEndian.toNat call.data)))
  | _ => none

def programs : Programs where
  verifyMessage := fun call _ => signedByPyth call.messageData
  transferSubscription := transfer
  cancelSubscriptionNow := cancel
  createPlan := fun _ accounts => some accounts
  router := route

def founder : Pubkey := address 10

def admin : Pubkey := address 11

def sponsor : Pubkey := address 12

def attestor : Pubkey := address 13

def router : Pubkey := address 14

def user : Pubkey := address 50

def params : ConfigParams where
  settings := ⟨attestor, sponsor, 25000000, 10⟩
  assets := #v[⟨address 20, address 204, 8, 7⟩, ⟨address 21, address 204, 8, 8⟩]
  paymentTokens := #v[⟨address 22, address 204, 6, 0⟩, ⟨address 23, address 204, 6, 0⟩]
  genesisHash := Vector.replicate 32 1
  router := router

/-- The other programs' accounts before `initialize`: the program's data account, the four
mints, the user's subscription and token accounts, and the swap authority's. -/
def accounts : Accounts := fun key =>
  match key[0].toNat with
  | 202 => ⟨address 207, LittleEndian.bytes 4 3 ++ LittleEndian.bytes 8 0 ++ 1 :: founder.toList⟩
  | 20 | 21 => ⟨address 204, [8]⟩
  | 22 | 23 => ⟨address 204, [6]⟩
  | 51 => ⟨address 203, [10, 0, 0]⟩
  | 60 => ⟨address 204, tokenData (address 22) user 100000000⟩
  | 61 => ⟨address 204, tokenData (address 20) user 0⟩
  | 62 => ⟨address 204, tokenData (address 22) deployment.swapAuthority 0⟩
  | _ => ⟨Pubkey.default, []⟩

def number (key : Pubkey) : ℕ := key[0].toNat

theorem founder_signs : Pubkey.default ∉ [founder] := by decide

theorem user_signs : Pubkey.default ∉ [user, sponsor] := by decide

def settings : EnrollParams where
  tier := 0
  paymentTokens := 1
  asset := 0
  engine := .daily
  engineAmount := 1000000
  incomeRule := true
  changeMultiplier := 2
  cushions := ⟨#[5000000, 0], by decide⟩
  goalAmount := 0
  goalLabel := Vector.replicate 32 0

def attestation : Attestation := ⟨.payment, user, 0, 12300000, 1700000100, Vector.replicate 64 7, 0⟩

def signatureCheck : InstructionData :=
  let message := attestationMessage deployment params.genesisHash attestation
  let header := [signatureOffset, 65535, publicKeyOffset, 65535, messageOffset, message.length, 65535]
  ⟨address 206, [1, 0] ++ header.flatMap (LittleEndian.bytes 2) ++ attestor.toList ++
    List.replicate 64 0 ++ message⟩

def assetUpdate (now : ℕ) : List UInt8 :=
  let feed := LittleEndian.bytes 4 7 ++ 4 :: (0 :: LittleEndian.bytes 8 65000000000) ++
    (4 :: LittleEndian.bytes 2 65528) ++ (5 :: LittleEndian.bytes 8 10000000) ++
    (12 :: 1 :: LittleEndian.bytes 8 (now * 1000000))
  let payload := LittleEndian.bytes 4 payloadFormatMagic ++ List.replicate 9 0 ++ 1 :: feed
  LittleEndian.bytes 4 solanaFormatMagic ++ List.replicate 64 0 ++ pythKey.toList ++
    LittleEndian.bytes 2 payload.length ++ payload

def sweepAccounts : SweepAccounts where
  crank := founder
  userConfig := user
  subscription := address 51
  plan := address 1
  subscriptionAuthority := address 70
  userPaymentAccount := address 60
  swapPaymentAccount := address 62
  userAssetAccount := address 61
  paymentMint := address 22
  paymentTokenProgram := address 204
  router := router
  pythStorage := address 71
  pythTreasury := address 72

def routeAccounts : List RouteAccount := [⟨address 62, true⟩, ⟨address 61, true⟩]

def sweepCall (now held : ℕ) : Call :=
  .sweep sweepAccounts (assetUpdate now) [] 0 0 (LittleEndian.bytes 8 held) routeAccounts

def surroundings (now : ℤ) (signers : Signers) (previous : Option InstructionData)
    (h : I64.minValue ≤ now ∧ now ≤ I64.maxValue) : Invocation :=
  ⟨now, h, signers, previous, programs⟩

def byFounder (now : ℤ) (h : I64.minValue ≤ now ∧ now ≤ I64.maxValue) : Invocation :=
  surroundings now ⟨[founder], by decide⟩ none h

def initializing : Invocation × Call := (byFounder 1700000000 (by decide),
  .initializeConfig founder params [address 20, address 21, address 22, address 23])

def proposing : Invocation × Call := (byFounder 1700000004 (by decide), .proposeAdmin founder admin)

def accepting : Invocation × Call :=
  (surroundings 1700000005 ⟨[admin], by decide⟩ none (by decide), .acceptAdmin admin)

def enrolling : Invocation × Call :=
  (surroundings 1700000010 ⟨[user, sponsor], by decide⟩ none (by decide),
    .enroll user sponsor settings [address 51])

def attesting : Invocation × Call :=
  (surroundings 1700000200 ⟨[founder], by decide⟩ (some signatureCheck) (by decide),
    .attest founder attestation)

def sweeping : Invocation × Call := (byFounder 1700100000 (by decide), sweepCall 1700100000 3000000)

/-- A day later, in the same user week. -/
def sweepingAgain : Invocation × Call :=
  (byFounder 1700200000 (by decide), sweepCall 1700200000 7000000)

def closing : Invocation × Call :=
  (byFounder 1700700000 (by decide), .closeAttestation attestation.transferId founder)

def leaving : Invocation × Call :=
  (surroundings 1700800000 ⟨[user], by decide⟩ none (by decide), .exit user [address 1, address 51])

/-- The founder initializes and hands the admin's role over. -/
def handover : List (Invocation × Call) := [accepting, proposing, initializing]

/-- The user's life up to an attested payment. -/
def beginnings : List (Invocation × Call) := attesting :: enrolling :: handover

/-- Two sweeps follow, then the attestation's record is closed. -/
def life : List (Invocation × Call) := closing :: sweepingAgain :: sweeping :: beginnings

abbrev ledger (calls : List (Invocation × Call)) : Chain := ledgerAfter deployment accounts calls

abbrev history (calls : List (Invocation × Call)) : List (Transition Chain Happening) :=
  historyOf deployment accounts calls

theorem ledger_run (calls : List (Invocation × Call))
    (hclock : calls.Pairwise fun later earlier => earlier.1.now ≤ later.1.now) :
    ProgramRun deployment accounts (history calls) (ledger calls) :=
  programRun_replay calls hclock

def atAttest : Transition Chain Happening :=
  moment deployment accounts attesting (enrolling :: handover)

def atSweep : Transition Chain Happening := moment deployment accounts sweeping beginnings

def atSweepAgain : Transition Chain Happening :=
  moment deployment accounts sweepingAgain (sweeping :: beginnings)

theorem run_atAttest : ProgramRun deployment accounts
    (atAttest :: history (enrolling :: handover)) (ledger beginnings) :=
  ledger_run beginnings (by decide)

theorem run_atSweepAgain : ProgramRun deployment accounts
    (atSweepAgain :: history (sweeping :: beginnings)) (ledger (sweepingAgain :: sweeping :: beginnings)) :=
  ledger_run (sweepingAgain :: sweeping :: beginnings) (by decide)

theorem userAction_atAttest : userAction user atAttest = some (.attest attestation 1400000) := by
  decide +kernel

/-- The first sweep pulls the engine's dollar and the change of the payment. -/
theorem userAction_atSweep : ∃ config event, userAction user atSweep = some (.sweep config event) ∧
    event.paymentToken = 0 ∧ event.engine = 1000000 ∧ event.pending = 1400000 :=
  exists_sweep (by decide +kernel)

/-- The second finds nothing pending. -/
theorem userAction_atSweepAgain : ∃ config event,
    userAction user atSweepAgain = some (.sweep config event) ∧
      event.paymentToken = 0 ∧ event.engine = 1000000 ∧ event.pending = 0 :=
  exists_sweep (by decide +kernel)

end Rehearsal

end Laterite
