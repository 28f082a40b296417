import Laterite.ClientSweepInstructions
import Laterite.RouteQueries
import Laterite.SweepCandidates
import Laterite.SweepFailures

/-!
# One sweep of the crank

The crank sweeps a candidate in up to three builds. A build reads the clock, the newest asset update,
the state and a route, checks each, and hands the built sweep to the sender. Whatever it meets, it
records at most one attempt, and then leaves the candidate, waits, or builds again.

A build is a function of what it reads to what is done about it. What is done is performed on the
recorded attempts and on the crank's memory, where the record of an attempt may fail.
-/

namespace Laterite.Crank

open Client Failures

inductive Outcome where
  | landed
  | failed
  | skipped
  | pullFailed
  | alreadySwept
  deriving DecidableEq

structure Attempt where
  outcome : Outcome
  reason : Option String := none
  signature : Option String := none
  pull : Option ℤ := none
  minOut : Option ℤ := none
  quoted : Option ℤ := none
  route : Option String := none
  priceAgeSeconds : Option ℤ := none
  priceWaitMs : Option ℤ := none
  bytes : Option ℤ := none
  computeUnits : Option ℤ := none
  computeUnitLimit : Option ℤ := none
  loadedAccountsDataSizeLimit : Option ℤ := none
  priorityFeeLamports : Option ℤ := none
  feeLamports : Option ℤ := none
  latencyMs : Option ℤ := none

structure SweepAttempt extends Attempt where
  user : Pubkey
  paymentToken : ℕ
  day : ℤ

def today (now : ℤ) : ℤ := divEuclid now daySeconds

def key (user : Pubkey) (paymentToken : ℕ) : String :=
  Routes.addressText user ++ ":" ++ toString paymentToken

def Candidate.key (candidate : Candidate) : String :=
  Crank.key candidate.user.user candidate.paymentToken

/-- When a deferred token may be read again: a time of the host, or one of the cluster. -/
structure Deferral where
  atClock : Option ℤ := none
  atMs : Option ℤ := none

/-- What is lost when the process ends. -/
structure Memory where
  lastSuccessAt : Option ℤ
  day : Option ℤ
  deferred : String → Option Deferral
  excluded : Routes.Exclusions
  alarmStates : List (String × Option String)
  closedBefore : ℤ

def Memory.fresh : Memory where
  lastSuccessAt := none
  day := none
  deferred _ := none
  excluded _ := none
  alarmStates := []
  closedBefore := 0

/-- How long a token waits after each kind of setback, in milliseconds. -/
structure RetryAfter where
  alert : ℤ
  nothing : ℤ
  price : ℤ
  slippage : ℤ
  unknown : ℤ

def retryAfterMs : RetryAfter := ⟨600000, 300000, 30000, 60000, 120000⟩

def maxSweepComputeUnitLimit : ℤ := 490000

def maxBuilds : ℕ := 3

def maxFailedAttemptsPerDay : ℕ := 12

def maxAssetUpdateAgeSeconds : ℤ := 45

/-- Leaves a token until `afterMs` from now, doubled for each failed attempt past the first, at most
a day. -/
def Memory.defer (memory : Memory) (key : String) (hostNow afterMs : ℤ) (failures : ℕ) : Memory :=
  { memory with
    deferred := Function.update memory.deferred key
      (some { atMs := some (hostNow + Min.min (afterMs * 2 ^ (failures - 1)) 86400000) }) }

def Memory.alarm (memory : Memory) (alarm : String × String) : Memory :=
  { memory with
    alarmStates := (memory.alarmStates.filter fun state => state.1 ≠ alarm.1) ++ [(alarm.1, some alarm.2)] }

/-- An update with its feed's own time and how long the crank waited for it. -/
structure AssetUpdate where
  message : List UInt8
  updatedAt : ℤ
  waitedMs : ℤ

structure Route where
  instruction : RouteInstruction
  quoted : ℤ
  venues : List String

inductive RouteError where
  | noRoute (message : String)
  | swapAccountBound (message : String)
  | thrown

/-- Why the pool is not traded before the sweep: it is too far from its price, or another error. -/
inductive RepegError where
  | refusal (message : String)
  | thrown

structure Landed where
  computeUnitLimit : ℤ
  computeUnits : ℤ
  fee : ℤ
  loadedAccountsDataSizeLimit : ℤ
  priorityFeeLamports : ℤ
  signature : String
  size : ℤ

/-- What comes of handing a sweep to the sender. `unread` is why a landed sweep's event cannot be
read. -/
inductive Sent where
  | landed (landed : Landed) (unread : Option String)
  | computeLimitExceeded (computeUnitLimit ceiling : ℤ)
  | oversized
  | failed (error : InstructionError) (errorText : String) (logs : List Logs.Line)
    (signature : Option String)
  | thrown (message : String)

/-- What comes of inserting a row. A failed insertion may have kept it. -/
inductive Insertion where
  | stored
  | failed (message : String) (kept : Bool)

/-- What one build reads and meets; nothing where it throws. -/
structure Readings where
  started : ℤ
  clock : Option ℤ
  asset : (feedId : ℕ) → (now : ℤ) → Option (Option AssetUpdate)
  /-- The state, with the user's asset. -/
  state : Option (SweepState × ℕ)
  payment : (feedId : ℕ) → (now : ℤ) → Option (List UInt8)
  repeg : (asset payment : Pubkey) → Client.Quote → Option Client.Quote → Except RepegError Unit
  pythTreasury : Option Pubkey
  routes : Routes.RouteRequest → Except RouteError Route
  send : BuiltSweep → (maxComputeUnitLimit : ℤ) → Sent
  confirmedAt : ℤ
  config : Option Laterite.Config
  insertion : Insertion
  /-- The insertion made when a landed sweep's fails. -/
  reinsertion : Insertion
  hostNow : ℤ

/-- What carries over from one build of a sweep to the next. -/
structure Locals where
  config : Laterite.Config
  asset : ℕ
  rebuiltAfter : Option ℤ := none
  refetched : Bool := false
  freshRoute : Bool := false

/-- What the crank is set up with. -/
structure Setup where
  addresses : SweepAddresses
  transactionSize : Pubkey → InstructionData → SweepInstructionWithAccounts → Option ℕ
  programs : Failures.Programs
  crank : Pubkey
  retryAfterMs : RetryAfter

/-- How a build leaves its candidate. -/
inductive Next where
  /-- An error ends the sweep. -/
  | thrown
  | finished
  /-- The sweep landed: the token is deferred no more. -/
  | landed
  | deferred (afterMs : ℤ) (failures : ℕ)
  /-- The token waits for the cluster's clock. -/
  | waits (atClock : ℤ)
  | again (locals : Locals)

/-- What is done about a build, in this order: the re-peg's alarm, the sweep handed to the sender, the
row recorded, or another when it cannot be, the alarm raised, the venues excluded, and what follows. -/
structure Plan where
  repegAlarm : Option String := none
  handed : Option (SweepState × BuiltSweep) := none
  row : Option (ℤ × Attempt) := none
  otherwise : Option Attempt := none
  alarm : Option (String × String) := none
  excludes : Option (ℤ × List String) := none
  next : Next

def Plan.thrown : Plan := { next := .thrown }

section

variable (setup : Setup) (paused : List Pubkey) (excluded : Routes.Exclusions) (candidate : Candidate)
  (failures : ℕ) (locals : Locals) (r : Readings)

/-- A build that has its pull: what it was read from and what of the attempt is known. -/
structure Pulled where
  state : SweepState
  asset : Asset
  token : PaymentToken
  assetUpdate : AssetUpdate
  amount : ℤ
  priced : Attempt

def readState (state : SweepState) : SweepState :=
  { state with config := Client.Config.of locals.config, paymentToken := candidate.paymentToken }

def restoreText : RestoreReason → String
  | .authority => "authority"
  | .delegate => "delegate"
  | .frozen => "frozen"
  | .subscription => "subscription"

def refusedPull (stateDay : ℤ) : ClientError → Plan
  | .restoreRequired reason _ =>
    { row := some (stateDay,
        { outcome := .skipped, reason := some s!"RestoreRequired {restoreText reason}" })
      next := .finished }
  | .lateriteCheck code =>
    if code = LateriteError.alreadySwept.code then
      { row := some (stateDay, { outcome := .alreadySwept, reason := some "AlreadySwept" })
        next := .finished }
    else if code = LateriteError.nothingToSweep.code then
      { next := .deferred setup.retryAfterMs.nothing 0 }
    else .thrown

/-- Works out the pull of the state that was read, for a sweep far enough from a boundary. -/
def priced (assetEntry : Asset) (assetUpdate : Option AssetUpdate) (state : SweepState) :
    Except Plan Pulled :=
  let stateDay := today state.now
  match getSweepPull state with
  | .error error => .error (refusedPull setup stateDay error)
  | .ok pull =>
    let toBoundary := secondsToNextSweepBoundary state
    if toBoundary < sweepBoundaryMarginSeconds then
      .error { next := .waits (state.now + toBoundary) }
    else
      let amount := pullTotal pull
      let attempt : Attempt := {
        outcome := .failed
        priceAgeSeconds := assetUpdate.map fun update => state.now - update.updatedAt
        priceWaitMs := assetUpdate.map AssetUpdate.waitedMs
        pull := some amount }
      match assetUpdate, locals.config.paymentTokens[candidate.paymentToken]? with
      | none, _ =>
        .error {
          row := some (stateDay, { attempt with reason := some "StalePrice" })
          next := .deferred setup.retryAfterMs.price (failures + 1) }
      | some _, none => .error .thrown
      | some assetUpdate, some token => .ok ⟨state, assetEntry, token, assetUpdate, amount, attempt⟩

def pulled : Except Plan Pulled :=
  match locals.config.assets[locals.asset]?, r.clock with
  | some assetEntry, some clock =>
    if assetEntry.mint ∈ paused then
      .error {
        row := some (today clock, { outcome := .failed, reason := some "AssetPaused" })
        next := .deferred setup.retryAfterMs.nothing (failures + 1) }
    else
      match r.asset assetEntry.pythFeedId.toNat clock, r.state with
      | some assetUpdate, some (fetched, asset) =>
        if asset ≠ locals.asset then .error { next := .again { locals with asset := asset } }
        else priced setup candidate failures locals assetEntry assetUpdate
          (readState candidate locals fetched)
      | _, _ => .error .thrown
  | _, _ => .error .thrown

/-- A build that has its quotes and the least its swap may deliver. -/
structure Quoted extends Pulled where
  paymentUpdate : Option (List UInt8)
  assetQuote : Client.Quote
  paymentQuote : Client.Quote
  minimum : ℤ

def paymentUpdate (p : Pulled) : Except Plan (Option (List UInt8)) :=
  if p.token.usdFeedId = 0 then .ok none
  else
    match r.payment p.token.usdFeedId.toNat p.state.now with
    | some update => .ok (some update)
    | none => .error .thrown

def refusedQuote (p : Pulled) : ClientError → Plan
  | .restoreRequired _ _ => .thrown
  | .lateriteCheck code =>
    let reason := lateriteErrorName code
    let row := some (today p.state.now, { p.priced with reason := some reason })
    if code = LateriteError.stalePrice.code ∨ code = LateriteError.priceUncertain.code then
      { row := row, next := .deferred setup.retryAfterMs.price (failures + 1) }
    else
      { row := row
        alarm := some ("sweep-bug",
          s!"an update the relay kept fails the local checks with {reason}: check the price sources")
        next := .deferred setup.retryAfterMs.alert (failures + 1) }

def quotes (p : Pulled) (update : Option (List UInt8)) :
    Except ClientError (Client.Quote × Client.Quote) := do
  let assetQuote ← Client.quote p.assetUpdate.message p.asset.pythFeedId.toNat p.state.now
    maxAssetUpdateAgeSeconds
  let paymentQuote ← Client.quote (update.getD []) p.token.usdFeedId.toNat p.state.now
    Client.maxPriceAgeSeconds
  return (assetQuote, paymentQuote)

/-- Quotes both tokens, and works out the least the swap may deliver. -/
def quoted (p : Pulled) : Except Plan Quoted :=
  match paymentUpdate r p with
  | .error plan => .error plan
  | .ok update =>
    match quotes p update with
    | .error error => .error (refusedQuote setup failures p error)
    | .ok (assetQuote, paymentQuote) =>
      match Client.minOut p.amount paymentQuote Client.usdDecimals assetQuote p.asset.decimals.toNat with
      | .error _ => .error .thrown
      | .ok minimum => .ok ⟨p, update, assetQuote, paymentQuote, minimum⟩

structure Routed extends Quoted where
  treasury : Pubkey
  route : Route
  routed : Attempt

/-- The venues of the route, as an alarm names them. -/
def Routed.label (self : Routed) : String := self.routed.route.getD ""

/-- Why the re-peg before the sweep raises an alarm. -/
def repegAlarm : Except RepegError Unit → Option String
  | .error (.refusal message) => some s!"{message}: sweeps through the pool wait"
  | _ => none

def routeRequest (q : Quoted) : Routes.RouteRequest where
  amount := q.amount.toNat
  asset := ⟨q.asset.mint, q.asset.tokenProgram⟩
  excludeVenues := Routes.excludeVenues excluded candidate.key (today q.state.now)
  payment := ⟨q.token.mint, q.token.tokenProgram⟩
  swapAuthority := setup.addresses.swapAuthority
  userAssetAccount := setup.addresses.associatedToken q.asset.mint candidate.user.user
    q.asset.tokenProgram

/-- Whether the pool was traded before the sweep, when it is to be. -/
def repegged (q : Quoted) : Except RepegError Unit :=
  r.repeg q.asset.mint q.token.mint q.assetQuote
    (if q.token.usdFeedId = 0 then none else some q.paymentQuote)

def refusedRoute (q : Quoted) : RouteError → Plan
  | .noRoute message | .swapAccountBound message =>
    { repegAlarm := repegAlarm (repegged r q)
      row := some (today q.state.now,
        { q.priced with minOut := some q.minimum, reason := some message })
      next := .deferred setup.retryAfterMs.slippage (failures + 1) }
  | .thrown => { repegAlarm := repegAlarm (repegged r q), next := .thrown }

def askRoute (q : Quoted) (treasury : Pubkey) : Except Plan Routed :=
  match r.routes (routeRequest setup excluded candidate q) with
  | .error error => .error (refusedRoute setup failures r q error)
  | .ok route =>
    let attempt : Attempt := { q.priced with
      minOut := some q.minimum
      quoted := some route.quoted
      route := some (" ".intercalate route.venues) }
    if route.quoted < q.minimum then
      .error {
        repegAlarm := repegAlarm (repegged r q)
        row := some (today q.state.now, { attempt with reason := some "quote below min_out" })
        next := if locals.freshRoute then .deferred setup.retryAfterMs.slippage (failures + 1)
          else .again { locals with freshRoute := true } }
    else .ok ⟨q, treasury, route, attempt⟩

/-- Has the pool traded, when it is to be, and asks for the route. -/
def routed (q : Quoted) : Except Plan Routed :=
  match repegged r q, r.pythTreasury with
  | .error .thrown, _ => .error .thrown
  | _, none => .error { repegAlarm := repegAlarm (repegged r q), next := .thrown }
  | _, some treasury => askRoute setup excluded candidate failures locals r q treasury

/-- What the builder is given. -/
def sweepInput (routed : Routed) : SweepInput where
  state := routed.state
  user := candidate.user.user
  router := locals.config.router
  assets := locals.config.assets.toList
  asset := locals.asset
  assetUpdate := routed.assetUpdate.message
  paymentUpdate := routed.paymentUpdate
  boundaryMarginSeconds := none
  crank := setup.crank
  pythTreasury := routed.treasury
  route := routed.route.instruction

def failedSweep (routed : Routed) (failure : SweepFailure) (signature : Option String) : Plan :=
  let stateDay := today routed.state.now
  let attempt : Attempt :=
    { routed.routed with reason := some failure.reason, signature := signature }
  let venues := routed.routed.route.getD ""
  let row := some (stateDay, attempt)
  match failure.action with
  | .swept => { row := some (stateDay, { attempt with outcome := .alreadySwept }), next := .finished }
  | .pull => { row := some (stateDay, { attempt with outcome := .pullFailed }), next := .finished }
  | .recompute => { row := row, next := .again locals }
  | .rebuild =>
    if locals.rebuiltAfter = some routed.amount then
      { row := row
        alarm := some ("sweep-route",
          s!"{failure.reason} twice with the same pull through {venues}: that route is skipped today")
        excludes := some (stateDay, routed.route.venues)
        next := .deferred setup.retryAfterMs.slippage (failures + 1) }
    else { row := row, next := .again { locals with rebuiltAfter := some routed.amount } }
  | .refetch =>
    { row := row
      next := if locals.refetched then .deferred setup.retryAfterMs.unknown (failures + 1)
        else match r.config with
          | none => .thrown
          | some config =>
            if config.paused then .finished
            else .again { locals with refetched := true, config := config } }
  | .slippage =>
    { row := row
      next := if locals.freshRoute then .deferred setup.retryAfterMs.slippage (failures + 1)
        else .again { locals with freshRoute := true } }
  | .venue => { row := row, excludes := some (stateDay, routed.route.venues), next := .again locals }
  | .price => { row := row, next := .deferred setup.retryAfterMs.price (failures + 1) }
  | .alert =>
    { row := row
      alarm := some ("sweep-bug",
        s!"a sweep failed with {failure.reason}, which the local checks should catch")
      next := .deferred setup.retryAfterMs.alert (failures + 1) }
  | .unknown => { row := row, next := .deferred setup.retryAfterMs.unknown (failures + 1) }

/-- A sweep that landed. Its record is inside what catches a failed one's errors. -/
def landedSweep (routed : Routed) (landed : Landed) (unread : Option String) : Plan :=
  let stateDay := today routed.state.now
  match unread with
  | some message =>
    { row := some (stateDay, { routed.routed with reason := some message })
      next := .deferred setup.retryAfterMs.unknown (failures + 1) }
  | none =>
    { row := some (stateDay, { routed.routed with
        bytes := some landed.size
        computeUnitLimit := some landed.computeUnitLimit
        computeUnits := some landed.computeUnits
        feeLamports := some landed.fee
        latencyMs := some (r.confirmedAt - r.started)
        loadedAccountsDataSizeLimit := some landed.loadedAccountsDataSizeLimit
        outcome := .landed
        priorityFeeLamports := some landed.priorityFeeLamports
        signature := some landed.signature })
      otherwise := some routed.routed
      next := .landed }

/-- What comes of the sweep that was handed over. -/
def sent (routed : Routed) : Sent → Plan
  | .landed landed unread => landedSweep setup failures r routed landed unread
  | .computeLimitExceeded computeUnitLimit ceiling =>
    { row := some (today routed.state.now, { routed.routed with
        computeUnitLimit := some computeUnitLimit, reason := some "ComputeLimit" })
      alarm := some ("sweep-compute",
        s!"a sweep through {routed.label} needs {computeUnitLimit} compute units, above {ceiling}: not sent")
      excludes := some (today routed.state.now, routed.route.venues)
      next := .again locals }
  | .oversized =>
    { row := some (today routed.state.now, { routed.routed with
        outcome := .skipped, reason := some "TransactionTooLarge" })
      alarm := some ("sweep-size",
        s!"a sweep through {routed.label} does not fit 4,096 bytes: not sent")
      next := .finished }
  | .failed error errorText logs signature =>
    failedSweep setup failures locals r routed
      (sweepFailure setup.programs error errorText logs locals.config.router) signature
  | .thrown message =>
    { row := some (today routed.state.now, { routed.routed with reason := some message })
      next := .deferred setup.retryAfterMs.unknown (failures + 1) }

def handed (routed : Routed) : Plan :=
  let alarmed := repegAlarm (repegged r routed.toQuoted)
  match getSweepInstructions setup.addresses setup.transactionSize
      (sweepInput setup candidate locals routed) with
  | .error _ => { repegAlarm := alarmed, next := .thrown }
  | .ok built =>
    { sent setup failures locals r routed (r.send built maxSweepComputeUnitLimit) with
      repegAlarm := alarmed, handed := some (routed.state, built) }

def build : Plan :=
  match pulled setup paused candidate failures locals r with
  | .error plan => plan
  | .ok p =>
    match quoted setup failures r p with
    | .error plan => plan
    | .ok q =>
      match routed setup excluded candidate failures locals r q with
      | .error plan => plan
      | .ok routed => handed setup candidate failures locals r routed

end

end Laterite.Crank
