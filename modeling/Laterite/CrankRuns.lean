import Laterite.CrankPlans
import Laterite.FinalWords
import Laterite.TimedRuns

/-!
# The crank's runs

The crank wakes, closes the days that ended with failed attempts alone, lists the tokens not decided
today, and sweeps each in turn. The process may end anywhere and start again with what is recorded;
every reading of the cluster may fail, and every insertion may fail, whether or not it was kept. One
process runs at a time, and the cluster's clock is never read going back.

Over every such run a token has at most one final word a day, nothing is sent for it that day once it
has one, and its failed attempts stay below a bound.
-/

namespace Laterite.Crank

open Client Failures FinalWords TimedRuns

structure Due where
  candidate : Candidate
  asset : ℕ

/-- What a tick's sweeps share. -/
structure Batch where
  config : Laterite.Config
  now : ℤ
  paused : List Pubkey
  failed : String → ℕ

/-- Where the process stands: between ticks, before it lists what is due, or at the first of the
tokens left, with what its sweep carries over and the builds it made. -/
inductive Phase where
  | idle
  | listing (config : Laterite.Config) (now : ℤ)
  | sweeping (batch : Batch) (due : List Due) (progress : Option (Locals × ℕ))

/-- The recorded attempts, the latest first, and the process. -/
structure World where
  rows : List SweepAttempt
  memory : Memory
  phase : Phase

def SweepAttempt.key (row : SweepAttempt) : Pubkey × ℕ × ℤ := (row.user, row.paymentToken, row.day)

def SweepAttempt.isFinal (row : SweepAttempt) : Bool := row.outcome ≠ .failed

def Candidate.row (candidate : Candidate) (day : ℤ) (attempt : Attempt) : SweepAttempt :=
  { attempt with user := candidate.user.user, paymentToken := candidate.paymentToken, day := day }

/-- The day's final word for a token whose attempts all failed, with the last failure's reason. -/
def skip (rows : List SweepAttempt) (k : Pubkey × ℕ × ℤ) : SweepAttempt where
  user := k.1
  paymentToken := k.2.1
  day := k.2.2
  outcome := .skipped
  reason := (rows.find? fun row => row.key = k).bind fun row => row.reason

/-- Records a skip for each token of an earlier day whose attempts all failed. -/
def closeDays (day : ℤ) (rows : List SweepAttempt) : List SweepAttempt :=
  close SweepAttempt.key SweepAttempt.isFinal (fun k => k.2.2 < day) skip rows

def failuresOn (rows : List SweepAttempt) (day : ℤ) (key : String) : ℕ :=
  rows.countP fun row => row.day = day && Crank.key row.user row.paymentToken = key && !row.isFinal

def decidedOn (rows : List SweepAttempt) (day : ℤ) (key : String) : Prop :=
  (∃ row ∈ rows, row.day = day ∧ Crank.key row.user row.paymentToken = key ∧ row.isFinal = true) ∨
    failuresOn rows day key ≥ maxFailedAttemptsPerDay

instance (rows : List SweepAttempt) (day : ℤ) (key : String) : Decidable (decidedOn rows day key) :=
  inferInstanceAs (Decidable (_ ∨ _))

structure Waking where
  config : Option Laterite.Config
  clock : Option ℤ
  closing : Insertion
  hostNow : ℤ

structure User extends EnrolledUser where
  asset : ℕ

/-- What a process reads before it lists: every user, each asset's mint with whether its issuer paused
it, and the recorded attempts. -/
structure Listing where
  users : Option (List User)
  mints : Option (List (Pubkey × Bool))
  attempts : Bool
  hostNow : ℤ

inductive Event where
  | crashed
  | woke (r : Waking)
  | listed (r : Listing)
  | built (r : Readings)
  | rested (hostNow : ℤ)

def World.wake (world : World) (r : Waking) : World :=
  match r.config, r.clock with
  | some config, some now =>
    let day := today now
    let memory := { world.memory with day := some day }
    let awake (rows : List SweepAttempt) (closedBefore : ℤ) : World :=
      let memory := { memory with
        closedBefore := closedBefore
        alarmStates := ["repeg-before-sweep", "sweep-bug", "sweep-compute", "sweep-route",
          "sweep-size"].map fun alarm => (alarm, none) }
      if config.paused then ⟨rows, { memory with lastSuccessAt := some r.hostNow }, .idle⟩
      else ⟨rows, memory, .listing config now⟩
    if world.memory.closedBefore < day then
      match r.closing with
      | .stored => awake (closeDays day world.rows) day
      | .failed _ kept => ⟨if kept then closeDays day world.rows else world.rows, memory, .idle⟩
    else awake world.rows world.memory.closedBefore
  | _, _ => { world with phase := .idle }

/-- Whether a deferred token may be read again. -/
def Deferral.isOver (deferral : Option Deferral) (hostNow now : ℤ) : Bool :=
  ((deferral.bind Deferral.atMs).getD 0 ≤ hostNow) && ((deferral.bind Deferral.atClock).getD 0 ≤ now)

def due (world : World) (config : Laterite.Config) (now hostNow : ℤ) (users : List User) : List Due :=
  ((sweepCandidates (users.map User.toEnrolledUser) (Client.Config.of config) now).filter fun candidate =>
      !decide (decidedOn world.rows (today now) candidate.key) &&
        Deferral.isOver (world.memory.deferred candidate.key) hostNow now).map fun candidate =>
    ⟨candidate, ((users.find? fun user => user.user = candidate.user.user).map User.asset).getD 0⟩

def World.list (world : World) (config : Laterite.Config) (now : ℤ) (r : Listing) : World :=
  match r.users, r.mints, r.attempts with
  | some users, some mints, true =>
    let batch : Batch := {
      config := config
      now := now
      paused := (mints.filter Prod.snd).map Prod.fst
      failed := failuresOn world.rows (today now) }
    { world with phase := .sweeping batch (due world config now r.hostNow users) none }
  | _, _, _ => { world with phase := .idle }

/-- Records what a build came to: the rows and the memory, and how it goes on. -/
def perform (setup : Setup) (candidate : Candidate) (failures : ℕ) (r : Readings) (plan : Plan)
    (rows : List SweepAttempt) (memory : Memory) : List SweepAttempt × Memory × Next :=
  let insert (insertion : Insertion) (row : SweepAttempt) (rows : List SweepAttempt) :=
    match insertion with
    | .stored => row :: rows
    | .failed _ kept => if kept then row :: rows else rows
  let memory := match plan.repegAlarm with
    | none => memory
    | some message => memory.alarm ("repeg-before-sweep", message)
  match plan.row with
  | none => (rows, memory, plan.next)
  | some (day, attempt) =>
    let rows := insert r.insertion (candidate.row day attempt) rows
    match r.insertion, plan.otherwise with
    | .stored, _ =>
      let memory := match plan.alarm with
        | none => memory
        | some alarm => memory.alarm alarm
      let memory := match plan.excludes with
        | none => memory
        | some (day, venues) =>
          { memory with excluded := Routes.exclude memory.excluded ⟨candidate.key, day, venues⟩ }
      (rows, memory, plan.next)
    | .failed _ _, none => (rows, memory, .thrown)
    | .failed message _, some attempt =>
      let rows := insert r.reinsertion (candidate.row day { attempt with reason := some message }) rows
      match r.reinsertion with
      | .stored => (rows, memory, .deferred setup.retryAfterMs.unknown (failures + 1))
      | .failed _ _ => (rows, memory, .thrown)

/-- What a build leaves in memory, and what the sweep carries over when it goes on. -/
def follow (setup : Setup) (key : String) (failures builds : ℕ) (hostNow : ℤ) (memory : Memory) :
    Next → Memory × Option (Locals × ℕ)
  | .thrown => (memory.defer key hostNow setup.retryAfterMs.unknown failures, none)
  | .finished => (memory, none)
  | .landed => ({ memory with deferred := Function.update memory.deferred key none }, none)
  | .deferred afterMs failures => (memory.defer key hostNow afterMs failures, none)
  | .waits atClock =>
    ({ memory with deferred := Function.update memory.deferred key (some { atClock := some atClock }) },
      none)
  | .again locals =>
    if builds + 1 < maxBuilds then (memory, some (locals, builds + 1))
    else (memory.defer key hostNow setup.retryAfterMs.unknown (failures + 1), none)

def carried (batch : Batch) (current : Due) (progress : Option (Locals × ℕ)) : Locals :=
  (progress.map Prod.fst).getD { config := batch.config, asset := current.asset }

def World.plan (setup : Setup) (world : World) (batch : Batch) (current : Due)
    (progress : Option (Locals × ℕ)) (r : Readings) : Plan :=
  build setup batch.paused world.memory.excluded current.candidate
    (batch.failed current.candidate.key) (carried batch current progress) r

def World.build (setup : Setup) (world : World) (batch : Batch) (current : Due) (rest : List Due)
    (progress : Option (Locals × ℕ)) (r : Readings) : World :=
  let key := current.candidate.key
  let failures := batch.failed key
  let (rows, memory, next) := perform setup current.candidate failures r
    (world.plan setup batch current progress r) world.rows world.memory
  let builds := (progress.map Prod.snd).getD 0
  let (memory, progress) := follow setup key failures builds r.hostNow memory next
  ⟨rows, memory, .sweeping batch (if progress.isSome then current :: rest else rest) progress⟩

def World.step (setup : Setup) (world : World) : Event → Option World
  | .crashed => some ⟨world.rows, .fresh, .idle⟩
  | .woke r =>
    match world.phase with
    | .idle => some (world.wake r)
    | _ => none
  | .listed r =>
    match world.phase with
    | .listing config now => some (world.list config now r)
    | _ => none
  | .built r =>
    match world.phase with
    | .sweeping batch (current :: rest) progress =>
      some (world.build setup batch current rest progress r)
    | _ => none
  | .rested hostNow =>
    match world.phase with
    | .sweeping _ [] _ =>
      some { world with memory := { world.memory with lastSuccessAt := some hostNow }, phase := .idle }
    | _ => none

/-- The process with the cluster's clock, as it was read last. -/
structure State where
  world : World
  clock : ℤ

def Event.clocks : Event → List ℤ
  | .woke r => r.clock.toList
  | .built r => r.clocks
  | _ => []

/-- Each listed account belongs to a user of its own: its address is theirs. -/
def Event.Distinct : Event → Prop
  | .listed r => ∀ users, r.users = some users → (users.map fun user => user.user).Nodup
  | _ => True

structure Step (setup : Setup) (t : Transition State Event) : Prop where
  taken : t.before.world.step setup t.event = some t.after.world
  later : t.before.clock ≤ t.after.clock
  read : ∀ clock ∈ t.event.clocks, t.before.clock ≤ clock ∧ clock ≤ t.after.clock
  now : t.now = t.after.clock
  distinct : t.event.Distinct

/-- Nothing is recorded, and the process starts. -/
def State.start (clock : ℤ) : State := ⟨⟨[], .fresh, .idle⟩, clock⟩

theorem key_injective {a b : Pubkey} {m n : ℕ} (h : key a m = key b n) : a = b ∧ m = n := by
  have htext (address : Pubkey) (n : ℕ) : (key address n).toList =
      Logs.addressText address ++ ':' :: Nat.toDigits 10 n := by
    unfold key Routes.addressText
    rw [String.toList_append, String.toList_append, String.toList_ofList, List.append_assoc]
    exact congrArg (fun digits => Logs.addressText address ++ ':' :: digits) Nat.toList_repr
  have hlists := congrArg String.toList h
  rw [htext, htext] at hlists
  have haddress := congrArg (List.takeWhile TextEncodings.isWord) hlists
  have hnumber := congrArg (List.dropWhile TextEncodings.isWord) hlists
  rw [Logs.takeWhile_word (Logs.isWord_addressText a) (by decide),
    Logs.takeWhile_word (Logs.isWord_addressText b) (by decide)] at haddress
  rw [Logs.dropWhile_word (Logs.isWord_addressText a) (by decide),
    Logs.dropWhile_word (Logs.isWord_addressText b) (by decide)] at hnumber
  have hread := congrArg (fun digits => Nat.ofDigitChars 10 digits 0) (List.cons.inj hnumber).2
  rw [Nat.ofDigitChars_ten_toDigits, Nat.ofDigitChars_ten_toDigits] at hread
  exact ⟨Logs.addressText_injective haddress, hread⟩

end Laterite.Crank
