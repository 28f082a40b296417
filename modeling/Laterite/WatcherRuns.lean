import Laterite.AttestationRecords
import Laterite.WatcherScan

/-!
# The watcher drops no countable transfer

What the cursor has moved past is credited or can never count. The invariant follows the scan: the
transactions before the next one listed are settled, the transfers of the one in hand are settled
or still to attest, and the floor lies where nothing older can count.
-/

namespace Laterite.Watcher

open CheckedComputation TimedRuns PagedListings
open Indexer (Signature)

variable {d : Deployment} {accounts : Accounts} {account : WatchedAccount}
  {history older : List (Transition World WatcherEvent)} {t : Transition World WatcherEvent}
  {world : World} {scan : Scan} {chain : Chain} {now later : ℤ} {attestation : Attestation}

theorem sent_chain (world : World) (scan : Scan) (transfers : List Attestation)
    (outcome : Result (Option Event)) : (world.sent scan transfers outcome).chain = world.chain := by
  unfold World.sent
  split
  · rfl
  · split <;> rfl

/-- A moment of the watcher leaves the ledger alone or is a moment of the program. -/
theorem WatcherStep.program (ht : WatcherStep d account t) :
    (programHappening d t = none ∧ t.after.chain = t.before.chain) ∨
      ∃ happening, programHappening d t = some happening ∧
        Step d ⟨t.now, happening, t.before.chain, t.after.chain⟩ := by
  cases ht with
  | chain h => exact Or.inr ⟨_, rfl, h⟩
  | send hscan hcurrent =>
    refine Or.inr ⟨_, rfl, ?_⟩
    rw [sent_chain]
    exact Step.called _ _ _
  | _ => exact Or.inl ⟨rfl, rfl⟩

theorem WatcherRun.programRun (run : WatcherRun d accounts account history world) :
    ProgramRun d accounts
      (history.filterMap fun t => (programHappening d t).map fun happening =>
        ⟨t.now, happening, t.before.chain, t.after.chain⟩) world.chain := by
  apply Run.project World.chain (programHappening d) _ _ run
  · intro t ht hnone
    rcases ht.program with ⟨-, hsame⟩ | ⟨happening, hsome, -⟩
    · exact hsame
    · rw [hnone] at hsome
      cases hsome
  · intro t happening ht hsome
    rcases ht.program with ⟨hnone, -⟩ | ⟨happening', hsome', hstep⟩
    · rw [hnone] at hsome
      cases hsome
    · rw [hsome] at hsome'
      cases hsome'
      exact hstep

theorem WatcherRun.credits (run : WatcherRun d accounts account history world) {id : TransferId}
    (hrecord : world.chain.records id ≠ none) : ∃ p ∈ history, Credits d id p := by
  rcases Option.ne_none_iff_exists'.mp hrecord with ⟨record, hsome⟩
  have hmark := ProgramRun.markRun run.programRun id
  rw [Chain.markOf, hsome, Option.map_some] at hmark
  rcases ExpiringMarks.exists_place hmark with ⟨p, hp, hplace⟩
  rcases List.mem_filterMap.mp hp with ⟨q, hq, hqp⟩
  rcases Option.map_eq_some_iff.mp hqp with ⟨action, haction, rfl⟩
  rcases List.mem_filterMap.mp hq with ⟨r, hr, hrq⟩
  rcases Option.map_eq_some_iff.mp hrq with ⟨happening, hhappening, rfl⟩
  refine ⟨r, hr, ?_⟩
  dsimp only at hplace
  rw [hplace] at haction
  rcases exists_attests_of_markAction haction with ⟨eventTime, hattests, -⟩
  unfold Attests at hattests
  split at hattests
  · rename_i inv payer attestation event hevent
    dsimp only at hevent
    rw [hevent] at hhappening
    exact ⟨inv, payer, attestation, event, (of_decide_eq_true hattests).1, hhappening⟩
  · cases hattests

/-- Credited in the history, or past counting. -/
def Settled (d : Deployment) (history : List (Transition World WatcherEvent)) (chain : Chain)
    (now : ℤ) (attestation : Attestation) : Prop :=
  (∃ p ∈ history, Credits d attestation.transferId p) ∨ Uncountable chain now attestation

theorem Settled.step (ht : WatcherStep d account t)
    (h : Settled d history t.before.chain t.now attestation) :
    Settled d (t :: history) t.after.chain t.now attestation := by
  rcases h with ⟨p, hp, hcredits⟩ | hdead
  · exact Or.inl ⟨p, List.mem_cons_of_mem _ hp, hcredits⟩
  · rcases ht.program with ⟨-, hsame⟩ | ⟨happening, -, hstep⟩
    · exact Or.inr (hsame ▸ hdead)
    · exact Or.inr (Uncountable.step hstep hdead (le_refl _))

theorem Uncountable.run {later : List (Transition Chain Happening)} {after : Chain}
    (h : Uncountable chain now attestation) (run : Run (Step d) chain later after)
    (hlater : ∀ q ∈ later, now ≤ q.now) : Uncountable after now attestation := by
  induction run with
  | start => exact h
  | @next earlier q past _ taken ih =>
    have hearlier := ih fun q hq => hlater q (List.mem_cons_of_mem _ hq)
    exact Uncountable.step taken hearlier (hlater q List.mem_cons_self)

/-- A transfer past counting at a moment of the history never counts after it. -/
theorem Uncountable.neverCounts (h : Uncountable chain t.now attestation) (ht : t ∈ history) :
    NeverCounts d history chain attestation := by
  intro later after run hlater inv payer executed hinv _
  exact (h.run run (hlater t ht)).attest_ne (hinv t ht)

def AllSettled (d : Deployment) (account : WatchedAccount)
    (history : List (Transition World WatcherEvent)) (chain : Chain) (now : ℤ)
    (transactions : List AccountTransaction) : Prop :=
  ∀ transaction ∈ transactions, ∀ attestation ∈ getAttestations transaction account d.swapAuthority,
    Settled d history chain now attestation

/-- No transfer of the user older than the time can count. -/
def Behind (account : WatchedAccount) (chain : Chain) (clock time : ℤ) : Prop :=
  (∃ user, chain.userConfigs account.user = some user ∧ time < user.attestableFrom) ∨
    time + attestationTtlSeconds < clock

/-- The transactions before the next listed are settled, those of the one in hand that are not are
still to attest. -/
structure Progress (d : Deployment) (account : WatchedAccount)
    (history : List (Transition World WatcherEvent)) (chain : Chain) (now : ℤ)
    (transactions : List AccountTransaction) (scan : Scan) (entries : List Listed)
    (known : AccountTransaction → Bool) (passed pending newer : List AccountTransaction) : Prop where
  split : transactions = passed ++ (pending ++ newer)
  entries : entries = pending.map (AccountTransaction.listed known)
  settled : AllSettled d account history chain now passed
  handled : ∀ signature, scan.handled = some signature →
    passed.getLast?.map AccountTransaction.signature = some signature
  current : ∀ current, scan.current = some current → ∃ transaction rest,
    pending = transaction :: rest ∧
      (∀ attestation ∈ current.transfers,
        attestation ∈ getAttestations transaction account d.swapAuthority) ∧
      ∀ attestation ∈ getAttestations transaction account d.swapAuthority,
        attestation ∈ current.transfers ∨ Settled d history chain now attestation

structure ScanSound (d : Deployment) (account : WatchedAccount)
    (history : List (Transition World WatcherEvent)) (chain : Chain) (now : ℤ)
    (transactions : List AccountTransaction) (scan : Scan) : Prop where
  clock : scan.now ≤ now
  enrolled : ∃ user, chain.userConfigs account.user = some user
  floor : ∀ time, time < scan.floor → Behind account chain scan.now time
  unlisted : scan.listed = none → scan.handled = none ∧ scan.current = none
  progress : ∀ entries, scan.listed = some entries → ∃ known passed pending newer,
    Progress d account history chain now transactions scan entries known passed pending newer

structure Sound (d : Deployment) (account : WatchedAccount)
    (history : List (Transition World WatcherEvent)) (now : ℤ) (world : World) : Prop where
  ordered : world.transactions.Pairwise fun earlier later =>
    earlier.blockTime.toInt ≤ later.blockTime.toInt
  distinct : (world.transactions.map AccountTransaction.signature).Nodup
  past : ∀ transaction ∈ world.transactions, transaction.blockTime.toInt ≤ now
  seen : ∀ seen, world.users = some seen → ∃ user,
    world.chain.userConfigs account.user = some user ∧ seen.attestableFrom ≤ user.attestableFrom
  tick : ∀ clock, world.tick = some clock → clock ≤ now
  cursor : ∃ done rest, world.transactions = done ++ rest ∧
    world.cursor = done.getLast?.map AccountTransaction.signature ∧
    AllSettled d account history world.chain now done
  scan : ∀ scan, world.scan = some scan →
    ScanSound d account history world.chain now world.transactions scan

section Advance

variable {history' : List (Transition World WatcherEvent)} {chain' : Chain} {now' : ℤ}
  {transactions passed pending newer : List AccountTransaction} {entries : List Listed}
  {known : AccountTransaction → Bool}

structure Advances (d : Deployment) (account : WatchedAccount)
    (history : List (Transition World WatcherEvent)) (chain : Chain) (now : ℤ)
    (history' : List (Transition World WatcherEvent)) (chain' : Chain) (now' : ℤ) : Prop where
  settled : ∀ attestation, Settled d history chain now attestation →
    Settled d history' chain' now' attestation
  user : ∀ user, chain.userConfigs account.user = some user → ∃ user',
    chain'.userConfigs account.user = some user' ∧ user.attestableFrom ≤ user'.attestableFrom
  clock : now ≤ now'

variable (ha : Advances d account history chain now history' chain' now')

include ha

theorem AllSettled.advance (h : AllSettled d account history chain now transactions) :
    AllSettled d account history' chain' now' transactions :=
  fun transaction ht attestation hattestation =>
    ha.settled attestation (h transaction ht attestation hattestation)

theorem Progress.advance
    (h : Progress d account history chain now transactions scan entries known passed pending newer) :
    Progress d account history' chain' now' transactions scan entries known passed pending newer where
  split := h.split
  entries := h.entries
  settled := h.settled.advance ha
  handled := h.handled
  current current hcurrent := by
    rcases h.current current hcurrent with ⟨transaction, rest, hpending, hmem, hrest⟩
    refine ⟨transaction, rest, hpending, hmem, fun attestation hattestation => ?_⟩
    exact (hrest attestation hattestation).imp_right (ha.settled attestation)

theorem ScanSound.advance (h : ScanSound d account history chain now transactions scan) :
    ScanSound d account history' chain' now' transactions scan where
  clock := h.clock.trans ha.clock
  enrolled := by
    rcases h.enrolled with ⟨user, huser⟩
    rcases ha.user user huser with ⟨user', huser', -⟩
    exact ⟨user', huser'⟩
  floor time htime := by
    rcases h.floor time htime with ⟨user, huser, hbefore⟩ | hexpired
    · rcases ha.user user huser with ⟨user', huser', hfrom⟩
      exact Or.inl ⟨user', huser', by omega⟩
    · exact Or.inr hexpired
  unlisted := h.unlisted
  progress entries hentries := by
    rcases h.progress entries hentries with ⟨known, passed, pending, newer, hprogress⟩
    exact ⟨known, passed, pending, newer, hprogress.advance ha⟩

end Advance

theorem Sound.advance {history' : List (Transition World WatcherEvent)} {chain' : Chain} {now' : ℤ}
    (h : Sound d account history now world)
    (ha : Advances d account history world.chain now history' chain' now') :
    Sound d account history' now' { world with chain := chain' } where
  ordered := h.ordered
  distinct := h.distinct
  past transaction ht := (h.past transaction ht).trans ha.clock
  seen seen hseen := by
    rcases h.seen seen hseen with ⟨user, huser, hle⟩
    rcases ha.user user huser with ⟨user', huser', hfrom⟩
    exact ⟨user', huser', hle.trans hfrom⟩
  tick clock hclock := (h.tick clock hclock).trans ha.clock
  cursor := by
    rcases h.cursor with ⟨done, rest, hsplit, hcursor, hdone⟩
    exact ⟨done, rest, hsplit, hcursor, hdone.advance ha⟩
  scan scan hscan := (h.scan scan hscan).advance ha

theorem WatcherStep.advances (ht : WatcherStep d account t) :
    Advances d account history t.before.chain t.now (t :: history) t.after.chain t.now where
  settled _ h := h.step ht
  user user huser := by
    rcases ht.program with ⟨-, hsame⟩ | ⟨happening, -, hstep⟩
    · exact ⟨user, hsame ▸ huser, le_refl _⟩
    · have hmark := (hstep.attestableMark account.user).1
      dsimp only at hmark
      rw [huser] at hmark
      cases hafter : t.after.chain.userConfigs account.user with
      | none =>
        rw [hafter] at hmark
        exact absurd hmark (not_le_of_gt (WithBot.bot_lt_coe _))
      | some user' =>
        rw [hafter] at hmark
        exact ⟨user', rfl, WithBot.coe_le_coe.mp hmark⟩
  clock := le_refl _

theorem Progress.finalize {transactions passed pending newer : List AccountTransaction}
    {entries : List Listed} {known : AccountTransaction → Bool}
    (h : Progress d account history chain now transactions scan entries known passed pending newer)
    (transaction : AccountTransaction) :
    Progress d account history chain now (transactions ++ [transaction]) scan entries known passed
      pending (newer ++ [transaction]) :=
  ⟨by rw [h.split]; simp only [List.append_assoc], h.entries, h.settled, h.handled, h.current⟩

theorem Sound.finalize (h : Sound d account history now world) {transaction : AccountTransaction}
    (hnew : ∀ earlier ∈ world.transactions, earlier.signature ≠ transaction.signature ∧
      earlier.blockTime.toInt ≤ transaction.blockTime.toInt)
    (hpast : transaction.blockTime.toInt ≤ now) :
    Sound d account history now
      { world with transactions := world.transactions ++ [transaction] } where
  ordered := by
    apply List.pairwise_append.mpr ⟨h.ordered, List.pairwise_singleton _ _, ?_⟩
    intro earlier hearlier last hlast
    rw [List.mem_singleton.mp hlast]
    exact (hnew earlier hearlier).2
  distinct := by
    dsimp only
    rw [List.map_append, List.map_singleton]
    apply List.nodup_append.mpr ⟨h.distinct, List.nodup_singleton _, ?_⟩
    intro signature hsignature last hlast
    rcases List.mem_map.mp hsignature with ⟨earlier, hearlier, rfl⟩
    rw [List.mem_singleton.mp hlast]
    exact (hnew earlier hearlier).1
  past earlier hearlier := by
    rcases List.mem_append.mp hearlier with hold | hlast
    · exact h.past earlier hold
    · rw [List.mem_singleton.mp hlast]
      exact hpast
  seen := h.seen
  tick := h.tick
  cursor := by
    rcases h.cursor with ⟨done, rest, hsplit, hcursor, hdone⟩
    refine ⟨done, rest ++ [transaction], ?_, hcursor, hdone⟩
    dsimp only
    rw [hsplit, List.append_assoc]
  scan scan hscan := by
    have hsound := h.scan scan hscan
    refine ⟨hsound.clock, hsound.enrolled, hsound.floor, hsound.unlisted, ?_⟩
    intro entries hentries
    rcases hsound.progress entries hentries with ⟨known, passed, pending, newer, hprogress⟩
    exact ⟨known, passed, pending, newer ++ [transaction], hprogress.finalize transaction⟩

theorem Sound.setScan (h : Sound d account history now world)
    (hscan : ScanSound d account history world.chain now world.transactions scan) :
    Sound d account history now { world with scan := some scan } :=
  ⟨h.ordered, h.distinct, h.past, h.seen, h.tick, h.cursor, fun _ hsome =>
    Option.some.inj hsome ▸ hscan⟩

theorem Sound.setUsers (h : Sound d account history now world) {users : Option Client.UserConfig}
    (husers : ∀ seen, users = some seen → ∃ user,
      world.chain.userConfigs account.user = some user ∧ seen.attestableFrom ≤ user.attestableFrom) :
    Sound d account history now { world with users := users } :=
  ⟨h.ordered, h.distinct, h.past, husers, h.tick, h.cursor, h.scan⟩

theorem Sound.abandon (h : Sound d account history now world) :
    Sound d account history now { world with scan := none } :=
  ⟨h.ordered, h.distinct, h.past, h.seen, h.tick, h.cursor, fun _ hsome => nomatch hsome⟩

theorem Sound.tickAt (h : Sound d account history now world) {clock : ℤ} (hclock : clock ≤ now) :
    Sound d account history now { world with tick := some clock } :=
  ⟨h.ordered, h.distinct, h.past, h.seen, fun _ hsome => Option.some.inj hsome ▸ hclock, h.cursor,
    h.scan⟩

theorem Sound.crash (h : Sound d account history now world) :
    Sound d account history now { world with users := none, tick := none, scan := none } :=
  ⟨h.ordered, h.distinct, h.past, fun _ hsome => (nomatch hsome), fun _ hsome => (nomatch hsome),
    h.cursor, fun _ hsome => nomatch hsome⟩

theorem Sound.stop (h : Sound d account history now world) (hscan : world.scan = some scan) :
    Sound d account history now (world.stopped scan.handled) := by
  have hsound := h.scan scan hscan
  refine ⟨h.ordered, h.distinct, h.past, h.seen, h.tick, ?_, fun _ hsome => nomatch hsome⟩
  cases hhandled : scan.handled with
  | none =>
    dsimp only [World.stopped]
    rw [Option.none_or]
    exact h.cursor
  | some signature =>
    cases hlisted : scan.listed with
    | none =>
      rw [(hsound.unlisted hlisted).1] at hhandled
      cases hhandled
    | some entries =>
      rcases hsound.progress entries hlisted with ⟨known, passed, pending, newer, hprogress⟩
      refine ⟨passed, pending ++ newer, hprogress.split, ?_, hprogress.settled⟩
      rw [hprogress.handled signature hhandled]
      rfl

/-- The floor of a scan lies where nothing older counts. -/
theorem behind_of_lt_floor {seen : Client.UserConfig} {user : UserConfig} {clock time : ℤ}
    (huser : chain.userConfigs account.user = some user)
    (hseen : seen.attestableFrom ≤ user.attestableFrom) (htime : time < scanFloor seen clock) :
    Behind account chain clock time := by
  unfold scanFloor at htime
  dsimp only at htime
  split at htime
  · exact Or.inl ⟨user, huser, by omega⟩
  · exact Or.inr (by omega)

theorem Sound.start (h : Sound d account history now world) {seen : Client.UserConfig} {clock : ℤ}
    (huser : world.users = some seen) (htick : world.tick = some clock) :
    Sound d account history now
      { world with scan := some ⟨clock, scanFloor seen clock, none, none, none⟩ } := by
  rcases h.seen seen huser with ⟨user, hchain, hseen⟩
  apply h.setScan
  refine ⟨h.tick clock htick, ⟨user, hchain⟩, ?_, fun _ => ⟨rfl, rfl⟩, fun _ hsome => nomatch hsome⟩
  exact fun time htime => behind_of_lt_floor hchain hseen htime

theorem Behind.uncountable {clock : ℤ} (h : Behind account chain clock attestation.eventTime.toInt)
    (hclock : clock ≤ now) (huser : attestation.user = account.user) :
    Uncountable chain now attestation := by
  rcases h with ⟨user, hchain, hbefore⟩ | hexpired
  · exact Or.inr (Or.inr (Or.inr ⟨user, huser ▸ hchain, Or.inl hbefore⟩))
  · exact Or.inr (Or.inr (Or.inl (by omega)))

/-- Nothing in a transaction older than the floor can count. -/
theorem ScanSound.settled_of_lt_floor {transactions : List AccountTransaction}
    (h : ScanSound d account history chain now transactions scan) {transaction : AccountTransaction}
    (htime : transaction.blockTime.toInt < scan.floor) :
    ∀ attestation ∈ getAttestations transaction account d.swapAuthority,
      Settled d history chain now attestation := by
  intro attestation hattestation
  rcases mem_getAttestations hattestation with ⟨huser, -, htime'⟩
  rw [← htime'] at htime
  exact Or.inr ((h.floor _ htime).uncountable h.clock huser)

theorem lt_floor_of_below {floor : ℤ} {known : AccountTransaction → Bool}
    {transaction : AccountTransaction} (h : (transaction.listed known).below floor = true) :
    transaction.blockTime.toInt < floor := by
  unfold Listed.below AccountTransaction.listed at h
  dsimp only at h
  split at h
  · exact of_decide_eq_true h
  · cases h

/-- What a listing has after the cursor is what follows the transactions the cursor is past. -/
theorem newerThan_cursor {done rest : List AccountTransaction} {known : AccountTransaction → Bool}
    (hdistinct : ((((done ++ rest).map (AccountTransaction.listed known)).reverse).map
      Listed.signature).Nodup) :
    newerThan Listed.signature (done.getLast?.map AccountTransaction.signature)
      ((done ++ rest).map (AccountTransaction.listed known)).reverse =
        (rest.map (AccountTransaction.listed known)).reverse := by
  rcases List.eq_nil_or_concat done with hdone | ⟨init, last, hdone⟩
  · rw [hdone]
    rfl
  · rw [List.concat_eq_append] at hdone
    have hsplit : ((done ++ rest).map (AccountTransaction.listed known)).reverse =
        (rest.map (AccountTransaction.listed known)).reverse ++
          last.listed known :: (init.map (AccountTransaction.listed known)).reverse := by
      rw [hdone]
      simp
    rw [hsplit] at hdistinct ⊢
    rw [hdone, List.getLast?_concat]
    exact newerThan_eq hdistinct

theorem Sound.list (h : Sound d account history now world) (hscan : world.scan = some scan)
    (hlisted : scan.listed = none) {known : AccountTransaction → Bool} {listing : ℕ → List Listed}
    (hfirst : listing 0 = (world.transactions.map (AccountTransaction.listed known)).reverse)
    (hgrows : ∀ n, ∃ newer, listing (n + 1) = newer ++ listing n)
    (hdistinct : ∀ n, ((listing n).map Listed.signature).Nodup) :
    Sound d account history now { world with scan := some { scan with
      listed := some (signaturesSince listing world.cursor scan.floor) } } := by
  have hsound := h.scan scan hscan
  rcases hsound.unlisted hlisted with ⟨hhandled, hcurrent⟩
  rcases h.cursor with ⟨done, rest, hsplit, hcursor, hdone⟩
  obtain ⟨left, hleft, hstop⟩ := @collect_eq _ _ _ Listed.signature listing world.cursor 1000
    (Listed.below scan.floor) hgrows hdistinct (by decide) _ (Nat.lt_succ_self _)
  have hkeys := hdistinct 0
  rw [hfirst, hsplit] at hkeys
  rw [hfirst, hsplit, hcursor, newerThan_cursor hkeys, ← hsplit, ← hfirst, ← hcursor] at hleft
  have hpages := congrArg List.reverse hleft
  rw [List.reverse_reverse, List.reverse_append] at hpages
  rcases List.map_eq_append_iff.mp hpages with ⟨skipped, pending, hrest, hskipped, hpending⟩
  apply h.setScan
  refine ⟨hsound.clock, hsound.enrolled, hsound.floor, fun hnone => (nomatch hnone), ?_⟩
  intro entries hentries
  refine ⟨known, done ++ skipped, pending, [], ?_, ?_, ?_, ?_, ?_⟩
  · rw [hsplit, hrest, List.append_nil, List.append_assoc]
  · rw [← Option.some.inj hentries, hpending]
    rfl
  · intro transaction htransaction
    rcases List.mem_append.mp htransaction with hold | hskip
    · exact hdone transaction hold
    · apply hsound.settled_of_lt_floor
      have hsome : left ≠ [] := by
        rintro rfl
        rw [List.map_eq_nil_iff.mp hskipped] at hskip
        cases hskip
      rcases hstop hsome with ⟨entry, hlast, hbelow⟩
      have hhead := hlast
      rw [Option.mem_def, ← List.head?_reverse, ← hpending, List.head?_map] at hhead
      rcases Option.map_eq_some_iff.mp hhead with ⟨oldest, holdest, rfl⟩
      have htime := lt_floor_of_below hbelow
      have hordered := h.ordered
      rw [hsplit, hrest] at hordered
      have hpairs := (List.pairwise_append.mp (List.pairwise_append.mp hordered).2.1).2.2
      have hle := hpairs transaction hskip oldest (List.mem_of_head? holdest)
      omega
  · intro signature hsignature
    rw [hhandled] at hsignature
    cases hsignature
  · intro current hsome
    rw [hcurrent] at hsome
    cases hsome

section Scanning

variable {transactions passed pending newer : List AccountTransaction} {entries rest : List Listed}
  {known : AccountTransaction → Bool} {scan' : Scan} {entry : Listed}
  {transaction : AccountTransaction} {transfers : List Attestation}

theorem ScanSound.proceed (h : ScanSound d account history chain now transactions scan)
    (hnow : scan'.now = scan.now) (hfloor : scan'.floor = scan.floor)
    (hlisted : scan'.listed = some entries)
    (hprogress : Progress d account history chain now transactions scan' entries known passed pending
      newer) : ScanSound d account history chain now transactions scan' where
  clock := hnow ▸ h.clock
  enrolled := h.enrolled
  floor := by
    rw [hnow, hfloor]
    exact h.floor
  unlisted hnone := by
    rw [hlisted] at hnone
    cases hnone
  progress found hfound := by
    rw [hlisted] at hfound
    cases hfound
    exact ⟨known, passed, pending, newer, hprogress⟩

theorem Progress.handle
    (h : Progress d account history chain now transactions scan (entry :: rest) known passed
      (transaction :: pending) newer)
    (hsettled : ∀ attestation ∈ getAttestations transaction account d.swapAuthority,
      Settled d history chain now attestation)
    (hhandled : scan'.handled = some entry.signature) (hcurrent : scan'.current = none) :
    Progress d account history chain now transactions scan' rest known (passed ++ [transaction])
      pending newer where
  split := by
    rw [h.split]
    simp only [List.append_assoc, List.cons_append, List.nil_append]
  entries := by
    have hentries := h.entries
    rw [List.map_cons, List.cons.injEq] at hentries
    exact hentries.2
  settled earlier hearlier := by
    rcases List.mem_append.mp hearlier with hold | hlast
    · exact h.settled earlier hold
    · rw [List.mem_singleton.mp hlast]
      exact hsettled
  handled signature hsignature := by
    have hentries := h.entries
    rw [List.map_cons, List.cons.injEq] at hentries
    rw [hhandled, hentries.1] at hsignature
    rw [List.getLast?_concat]
    exact hsignature
  current current hsome := by
    rw [hcurrent] at hsome
    cases hsome

theorem Progress.next {sending : Bool}
    (h : Progress d account history chain now transactions scan entries known passed pending newer)
    (hcurrent : scan.current = some ⟨attestation :: transfers, sending⟩)
    (hsettled : Settled d history chain now attestation) :
    Progress d account history chain now transactions (scan.next transfers) entries known passed
      pending newer where
  split := h.split
  entries := h.entries
  settled := h.settled
  handled := h.handled
  current current hsome := by
    cases hsome
    rcases h.current _ hcurrent with ⟨first, others, hpending, hmem, hrest⟩
    refine ⟨first, others, hpending, fun a ha => hmem a (List.mem_cons_of_mem _ ha), ?_⟩
    intro a ha
    rcases hrest a ha with hleft | hdone
    · rcases List.mem_cons.mp hleft with rfl | hlater
      · exact Or.inr hsettled
      · exact Or.inl hlater
    · exact Or.inr hdone

/-- The transfer in hand is one of the watched account's, made by now. -/
theorem Sound.attesting (h : Sound d account history now world) (hscan : world.scan = some scan)
    {sending : Bool} (hcurrent : scan.current = some ⟨attestation :: transfers, sending⟩) :
    attestation.user = account.user ∧ attestation.paymentToken.toNat < paymentTokenCount ∧
      attestation.eventTime.toInt ≤ now ∧ scan.now ≤ now ∧
      ∃ entries known passed pending newer, scan.listed = some entries ∧
        Progress d account history world.chain now world.transactions scan entries known passed
          pending newer := by
  have hsound := h.scan scan hscan
  cases hlisted : scan.listed with
  | none =>
    rw [(hsound.unlisted hlisted).2] at hcurrent
    cases hcurrent
  | some entries =>
    rcases hsound.progress entries hlisted with ⟨known, passed, pending, newer, hprogress⟩
    rcases hprogress.current _ hcurrent with ⟨first, others, hpending, hmem, -⟩
    rcases mem_getAttestations (hmem attestation List.mem_cons_self) with ⟨huser, htoken, htime⟩
    have hfinalized : first ∈ world.transactions := by
      rw [hprogress.split, hpending]
      simp
    refine ⟨huser, htoken ▸ account.known, htime ▸ h.past first hfinalized, hsound.clock, entries,
      known, passed, pending, newer, rfl, hprogress⟩

theorem Sound.next {sending : Bool} (h : Sound d account history now world)
    (hscan : world.scan = some scan)
    (hcurrent : scan.current = some ⟨attestation :: transfers, sending⟩)
    (hsettled : Settled d history world.chain now attestation) :
    Sound d account history now { world with scan := some (scan.next transfers) } := by
  rcases h.attesting hscan hcurrent with
    ⟨-, -, -, -, entries, known, passed, pending, newer, hlisted, hprogress⟩
  exact h.setScan ((h.scan scan hscan).proceed rfl rfl hlisted (hprogress.next hcurrent hsettled))

theorem Sound.examine (h : Sound d account history now world) (hscan : world.scan = some scan)
    (hcurrent : scan.current = some ⟨attestation :: transfers, false⟩) (user : UserConfig)
    (record : Option AttestationRecord)
    (hsettled : (attestRefusal (Client.UserConfig.of user) attestation scan.now).isSome = true ∨
      record.isSome = true → Settled d history world.chain now attestation) :
    Sound d account history now
      { world with scan := some (scan.examine user record attestation transfers) } := by
  unfold Scan.examine
  split
  · rename_i hdone
    exact h.next hscan hcurrent (hsettled hdone)
  · rcases h.attesting hscan hcurrent with
      ⟨-, -, -, -, entries, known, passed, pending, newer, hlisted, hprogress⟩
    have hnext : Progress d account history world.chain now world.transactions
        { scan with current := some ⟨attestation :: transfers, true⟩ } entries known passed pending
        newer := by
      refine ⟨hprogress.split, hprogress.entries, hprogress.settled, hprogress.handled, ?_⟩
      intro current hsome
      cases hsome
      rcases hprogress.current _ hcurrent with ⟨first, others, hpending, hmem, hrest⟩
      exact ⟨first, others, hpending, hmem, hrest⟩
    exact h.setScan ((h.scan scan hscan).proceed rfl rfl hlisted hnext)

theorem Sound.skip (h : Sound d account history now world) (hscan : world.scan = some scan)
    (hlisted : scan.listed = some (entry :: rest)) (hcurrent : scan.current = none)
    (hskip : entry.err = true ∨ entry.below scan.floor = true) :
    Sound d account history now { world with
      scan := some { scan with listed := some rest, handled := some entry.signature } } := by
  have hsound := h.scan scan hscan
  rcases hsound.progress _ hlisted with ⟨known, passed, pending, newer, hprogress⟩
  cases pending with
  | nil => exact nomatch hprogress.entries
  | cons transaction pending =>
    have hentry := hprogress.entries
    rw [List.map_cons, List.cons.injEq] at hentry
    have hsettled : ∀ attestation ∈ getAttestations transaction account d.swapAuthority,
        Settled d history world.chain now attestation := by
      rw [hentry.1] at hskip
      rcases hskip with hfailed | hbelow
      · have hnone : getAttestations transaction account d.swapAuthority = [] := if_pos hfailed
        rw [hnone]
        exact fun _ hmem => absurd hmem List.not_mem_nil
      · exact hsound.settled_of_lt_floor (lt_floor_of_below hbelow)
    apply h.setScan
    exact hsound.proceed rfl rfl rfl (hprogress.handle hsettled rfl hcurrent)

theorem Sound.complete (h : Sound d account history now world) (hscan : world.scan = some scan)
    (hlisted : scan.listed = some (entry :: rest)) (hcurrent : scan.current = some ⟨[], false⟩) :
    Sound d account history now { world with scan := some { scan with
      listed := some rest, handled := some entry.signature, current := none } } := by
  have hsound := h.scan scan hscan
  rcases hsound.progress _ hlisted with ⟨known, passed, pending, newer, hprogress⟩
  rcases hprogress.current _ hcurrent with ⟨transaction, others, rfl, -, hrest⟩
  have hsettled : ∀ attestation ∈ getAttestations transaction account d.swapAuthority,
      Settled d history world.chain now attestation :=
    fun attestation hmem => (hrest attestation hmem).resolve_left List.not_mem_nil
  apply h.setScan
  exact hsound.proceed rfl rfl rfl (hprogress.handle hsettled rfl rfl)

theorem Sound.fetch (h : Sound d account history now world) (hscan : world.scan = some scan)
    (hlisted : scan.listed = some (entry :: rest)) (hfinalized : transaction ∈ world.transactions)
    (hsignature : transaction.signature = entry.signature) :
    Sound d account history now { world with
      scan := some (scan.next (getAttestations transaction account d.swapAuthority)) } := by
  have hsound := h.scan scan hscan
  rcases hsound.progress _ hlisted with ⟨known, passed, pending, newer, hprogress⟩
  cases pending with
  | nil => exact nomatch hprogress.entries
  | cons first pending =>
    have hentry := hprogress.entries
    rw [List.map_cons, List.cons.injEq] at hentry
    have hfirst : first ∈ world.transactions := by
      rw [hprogress.split]
      simp
    have hsame : transaction = first := by
      apply List.inj_on_of_nodup_map h.distinct hfinalized hfirst
      rw [hsignature, hentry.1]
      rfl
    subst hsame
    have hnext : Progress d account history world.chain now world.transactions
        (scan.next (getAttestations transaction account d.swapAuthority)) (entry :: rest) known passed
        (transaction :: pending) newer := by
      refine ⟨hprogress.split, hprogress.entries, hprogress.settled, hprogress.handled, ?_⟩
      intro current hsome
      cases hsome
      exact ⟨transaction, pending, rfl, fun _ hmem => hmem, fun _ hmem => Or.inl hmem⟩
    exact h.setScan (hsound.proceed rfl rfl hlisted hnext)

end Scanning

/-- What the watcher takes for final in a timely moment is settled there. -/
theorem Sound.uncountable_of_refuses (h : Sound d account older t.now t.before)
    (ht : WatcherStep d account t) (htimely : Timely t) (hrefuses : Refuses d attestation t) :
    Uncountable t.before.chain t.now attestation := by
  cases ht with
  | @examine now world scan examined transfers user hscan hcurrent huser =>
    rcases hrefuses with ⟨rfl, seen, hseen, hrefused⟩
    rcases h.attesting hscan hcurrent with ⟨-, hknown, -, hclock, -⟩
    rcases Option.isSome_iff_exists.mp hrefused with ⟨reason, hreason⟩
    exact uncountable_of_attestRefusal hseen hknown hclock (htimely seen hseen) hreason
  | @send world scan sent transfers inv payer hscan hcurrent =>
    rcases hrefuses with ⟨rfl, fault, reason, hattest, hreason⟩
    rcases h.attesting hscan hcurrent with ⟨huser, hknown, hpast, -, -⟩
    rcases (h.scan scan hscan).enrolled with ⟨user, henrolled⟩
    rw [← huser] at henrolled
    exact uncountable_of_refused henrolled hknown hpast (htimely user henrolled) hattest hreason
  | _ => exact absurd hrefuses not_false

theorem submit_attest {inv : Invocation} {payer : Pubkey} {fault : Fault ProgramError}
    (h : (submit d inv chain (.attest payer attestation)).1 = .error fault) :
    attest d inv chain payer attestation = .error fault := by
  have hexecute : execute d inv chain (.attest payer attestation) =
      emitting (attest d inv chain payer attestation) := rfl
  unfold submit at h
  rw [hexecute] at h
  cases hattest : attest d inv chain payer attestation with
  | ok executed =>
    rw [hattest] at h
    cases h
  | error fault' =>
    rw [hattest] at h
    cases h
    rfl

theorem Sound.sent (h : Sound d account history now world) (hscan : world.scan = some scan)
    {transfers : List Attestation}
    (hcurrent : scan.current = some ⟨attestation :: transfers, true⟩) {outcome : Result (Option Event)}
    (hok : ∀ event, outcome = .ok event → Settled d history world.chain now attestation)
    (hcounted : ∀ fault, outcome = .error fault → attestFailure fault = some .counted →
      Settled d history world.chain now attestation)
    (hrefused : ∀ fault reason, outcome = .error fault →
      attestFailure fault = some (.refused reason) → Settled d history world.chain now attestation) :
    Sound d account history now (world.sent scan transfers outcome) := by
  unfold World.sent
  split
  · exact h.next hscan hcurrent (hok _ rfl)
  · rename_i fault
    split
    · rename_i hfailure
      exact h.next hscan hcurrent (hcounted fault rfl hfailure)
    · rename_i reason hfailure
      exact h.next hscan hcurrent (hrefused fault reason rfl hfailure)
    · exact h.stop hscan
    · exact h.stop hscan

theorem WatcherStep.sound (ht : WatcherStep d account t)
    (hpast : WatcherRun d accounts account older t.before) (htimely : Timely t)
    (h : Sound d account older t.now t.before) : Sound d account (t :: older) t.now t.after := by
  have hbase := h.advance ht.advances
  have hfinal : ∀ attestation, Refuses d attestation t →
      Settled d (t :: older) t.after.chain t.now attestation := fun attestation hrefuses =>
    Settled.step ht (Or.inr (h.uncountable_of_refuses ht htimely hrefuses))
  have hrecorded : ∀ attestation : Attestation, t.before.chain.records attestation.transferId ≠ none →
      Settled d (t :: older) t.after.chain t.now attestation := fun attestation hrecord =>
    Settled.step ht (Or.inl (WatcherRun.credits hpast hrecord))
  cases ht with
  | chain hstep => exact hbase
  | finalize hnew hblock => exact hbase.finalize hnew hblock
  | refresh =>
    apply hbase.setUsers
    intro seen hseen
    rcases Option.map_eq_some_iff.mp hseen with ⟨user, huser, rfl⟩
    exact ⟨user, huser, le_refl _⟩
  | tick hclock => exact hbase.tickAt hclock
  | start huser htick hidle => exact hbase.start huser htick
  | list hscan hlisted known listing hfirst hgrows hdistinct =>
    exact hbase.list hscan hlisted hfirst hgrows hdistinct
  | skip hscan hlisted hcurrent hskip => exact hbase.skip hscan hlisted hcurrent hskip
  | @fetch now world scan entry rest transaction taken hscan hlisted hcurrent hkept hfinalized
      hsignature htaken =>
    obtain rfl : taken = getAttestations transaction account d.swapAuthority := htimely
    exact hbase.fetch hscan hlisted hfinalized hsignature
  | @examine now world scan attestation transfers user hscan hcurrent huser =>
    have hexamined := hbase.examine hscan hcurrent user
      (world.chain.records attestation.transferId) (by
        rintro (hrefused | hrecord)
        · exact hfinal attestation ⟨rfl, user, huser, hrefused⟩
        · exact hrecorded attestation (Option.isSome_iff_ne_none.mp hrecord))
    apply hexamined.setUsers
    intro seen hseen
    rcases h.attesting hscan hcurrent with ⟨hkey, -⟩
    cases hseen
    exact ⟨user, hkey ▸ huser, le_refl _⟩
  | @send world scan attestation transfers inv payer hscan hcurrent =>
    rw [sent_chain] at hbase hfinal hrecorded
    apply hbase.sent hscan hcurrent
    · intro event hok
      refine Or.inl ⟨_, List.mem_cons_self, inv, payer, attestation, event, rfl, ?_⟩
      dsimp only [programHappening]
      rw [hok]
    · intro fault hfault hcounted
      have hattest := submit_attest hfault
      rw [attestFailure_counted hcounted] at hattest
      exact hrecorded attestation (record_of_counted hattest)
    · intro fault reason hfault hrefused
      exact hfinal attestation ⟨rfl, fault, reason, submit_attest hfault, hrefused⟩
  | complete hscan hlisted hcurrent => exact hbase.complete hscan hlisted hcurrent
  | stop hscan => exact hbase.stop hscan
  | abandon => exact hbase.abandon
  | crash => exact hbase.crash

theorem Sound.genesis (accounts : Accounts) : Sound d account [] now (World.genesis accounts) where
  ordered := List.Pairwise.nil
  distinct := List.nodup_nil
  past _ hmem := absurd hmem List.not_mem_nil
  seen _ hsome := nomatch hsome
  tick _ hsome := nomatch hsome
  cursor := ⟨[], [], rfl, rfl, fun _ hmem => absurd hmem List.not_mem_nil⟩
  scan _ hsome := nomatch hsome

theorem Sound.mono (h : Sound d account history now world) (hlater : now ≤ later) :
    Sound d account history later world :=
  h.advance ⟨fun _ hsettled => hsettled.imp_right fun hdead => hdead.mono hlater,
    fun user huser => ⟨user, huser, le_refl _⟩, hlater⟩

theorem WatcherRun.sound (run : WatcherRun d accounts account history world)
    (htimely : ∀ t ∈ history, Timely t) (hnow : ∀ p ∈ history, p.now ≤ now) :
    Sound d account history now world := by
  induction run generalizing now with
  | start => exact Sound.genesis accounts
  | @next older t past hlater taken ih =>
    have hbefore := ih (fun p hp => htimely p (List.mem_cons_of_mem _ hp)) hlater
    have hafter := taken.sound past (htimely t List.mem_cons_self) hbefore
    exact hafter.mono (hnow t List.mem_cons_self)

theorem mem_done {done rest : List AccountTransaction} {transaction : AccountTransaction}
    (hsplit : world.transactions = done ++ rest)
    (hcursor : world.cursor = done.getLast?.map AccountTransaction.signature)
    (hdistinct : (world.transactions.map AccountTransaction.signature).Nodup)
    (hmoved : world.MovedPast transaction) : transaction ∈ done := by
  rcases hmoved with ⟨earlier, last, after, hwhole, hlast, hmem⟩
  rcases List.eq_nil_or_concat done with hnil | ⟨init, final, hdone⟩
  · rw [hcursor, hnil] at hlast
    cases hlast
  · rw [List.concat_eq_append] at hdone
    rw [hcursor, hdone, List.getLast?_concat] at hlast
    have hkey : final.signature = last.signature := Option.some.inj hlast
    rw [hdone, List.append_assoc, List.singleton_append] at hsplit
    have hkeys := hdistinct
    rw [hsplit] at hdistinct
    rw [hwhole] at hkeys
    have hinit := newerThan_eq hdistinct
    have hearlier := newerThan_eq hkeys
    rw [← hsplit, hkey] at hinit
    rw [← hwhole] at hearlier
    have hsame : final = last := by
      apply List.inj_on_of_nodup_map hdistinct _ _ hkey
      · simp
      · rw [← hsplit, hwhole]
        simp
    rw [hdone, ← hinit, hearlier, hsame]
    exact hmem

/-- In a timely run the cursor moves past no transfer that is not credited and may still count,
and what the watcher takes for a final refusal stays one. -/
theorem cursor_settled (run : WatcherRun d accounts account history world)
    (htimely : ∀ t ∈ history, Timely t) :
    (∀ transaction, world.MovedPast transaction →
      ∀ attestation ∈ getAttestations transaction account d.swapAuthority,
        (∃ p ∈ history, Credits d attestation.transferId p) ∨
          NeverCounts d history world.chain attestation) ∧
      ∀ newer t older attestation, history = newer ++ t :: older → Refuses d attestation t →
        NeverCounts d (t :: older) t.after.chain attestation := by
  constructor
  · intro transaction hmoved attestation hattestation
    cases run with
    | start =>
      rcases hmoved with ⟨_, _, _, _, hcursor, _⟩
      cases hcursor
    | @next older t past hlater taken =>
      have hnow : ∀ p ∈ t :: older, p.now ≤ t.now := by
        intro p hp
        rcases List.mem_cons.mp hp with rfl | hold
        · exact le_refl _
        · exact hlater p hold
      have hsound := WatcherRun.sound (Run.next past hlater taken) htimely hnow
      rcases hsound.cursor with ⟨done, rest, hsplit, hcursor, hdone⟩
      have hmem := mem_done hsplit hcursor hsound.distinct hmoved
      rcases hdone transaction hmem attestation hattestation with hcredited | hdead
      · exact Or.inl hcredited
      · exact Or.inr (hdead.neverCounts List.mem_cons_self)
  · rintro newer t older attestation rfl hrefuses
    rcases Run.split run with ⟨past, -, taken, hlater, -⟩
    have htimely' : ∀ p ∈ t :: older, Timely p :=
      fun p hp => htimely p (List.mem_append_right _ hp)
    have hbefore := WatcherRun.sound past (fun p hp => htimely' p (List.mem_cons_of_mem _ hp)) hlater
    have hdead := hbefore.uncountable_of_refuses taken (htimely' t List.mem_cons_self) hrefuses
    have hafter : Uncountable t.after.chain t.now attestation := by
      rcases taken.program with ⟨-, hsame⟩ | ⟨happening, -, hstep⟩
      · exact hsame ▸ hdead
      · exact Uncountable.step hstep hdead (le_refl _)
    exact hafter.neverCounts List.mem_cons_self

def userAccount : WatchedAccount := ⟨Rehearsal.address 60, 0, Rehearsal.user, Nat.two_pos⟩

def payment : AccountTransaction where
  signature := Vector.replicate 64 7
  blockTime := 1700000100
  failed := false
  transfers := [⟨12300000, Rehearsal.address 80, none, 0, 0, Rehearsal.address 60, some Rehearsal.user⟩]

theorem getAttestations_payment :
    getAttestations payment userAccount Rehearsal.deployment.swapAuthority =
      [Rehearsal.attestation] := by
  decide

/-- The world with nothing watched yet. -/
def unwatched (chain : Chain) : World := ⟨chain, [], none, none, none, none⟩

def watched (t : Transition Chain Happening) : Transition World WatcherEvent :=
  ⟨t.now, .chain t.event, unwatched t.before, unwatched t.after⟩

theorem watcherRun_watched {calls : List (Transition Chain Happening)}
    (run : ProgramRun d accounts calls chain) :
    WatcherRun d accounts account (calls.map watched) (unwatched chain) := by
  induction run with
  | start => exact Run.start
  | @next h t past hlater taken ih =>
    refine @Run.next _ _ _ _ _ (watched t) ih ?_ (WatcherStep.chain taken)
    intro p hp
    rcases List.mem_map.mp hp with ⟨q, hq, rfl⟩
    exact hlater q hq

abbrev enrolledChain : Chain := Rehearsal.ledger (Rehearsal.enrolling :: Rehearsal.handover)

def paymentScan (user : UserConfig) (clock : ℤ) (current : Current) : Scan where
  now := clock
  floor := scanFloor (Client.UserConfig.of user) clock
  listed := some [payment.listed fun _ => true]
  handled := none
  current := some current

/-- The user enrolled, the tick's clock read, the payment finalized a minute later and in hand. -/
def inHand (user : UserConfig) (clock : ℤ) (current : Current) : World where
  chain := enrolledChain
  transactions := [payment]
  users := some (Client.UserConfig.of user)
  cursor := none
  tick := some clock
  scan := some (paymentScan user clock current)

/-- The world comes about in a run whose moments satisfy `P`. -/
def Reached (P : Transition World WatcherEvent → Prop) (world : World) (now : ℤ) : Prop :=
  ∃ history, WatcherRun Rehearsal.deployment Rehearsal.accounts userAccount history world ∧
    ∀ t ∈ history, t.now ≤ now ∧ P t

section Reaching

variable {P Q : Transition World WatcherEvent → Prop} {event : WatcherEvent} {after : World}

theorem Reached.imp (h : Reached P world now) (himp : ∀ t, P t → Q t) : Reached Q world now := by
  rcases h with ⟨history, run, hall⟩
  exact ⟨history, run, fun t ht => ⟨(hall t ht).1, himp t (hall t ht).2⟩⟩

theorem Reached.step (h : Reached P world now)
    (ht : WatcherStep Rehearsal.deployment userAccount ⟨later, event, world, after⟩)
    (hlater : now ≤ later) (hP : P ⟨later, event, world, after⟩) : Reached P after later := by
  rcases h with ⟨history, run, hall⟩
  refine ⟨_, Run.next run (fun p hp => (hall p hp).1.trans hlater) ht, ?_⟩
  intro p hp
  rcases List.mem_cons.mp hp with rfl | hold
  · exact ⟨le_refl _, hP⟩
  · exact ⟨(hall p hold).1.trans hlater, (hall p hold).2⟩

end Reaching

def NoCredit (t : Transition World WatcherEvent) : Prop :=
  ∀ id, ¬Credits Rehearsal.deployment id t

theorem noCredit_of_none {t : Transition World WatcherEvent}
    (hnone : programHappening Rehearsal.deployment t = none) : NoCredit t := by
  rintro id ⟨_, _, _, _, -, hsome⟩
  rw [hnone] at hsome
  cases hsome

/-- Timely, and no attest that landed. -/
def Quiet (t : Transition World WatcherEvent) : Prop := Timely t ∧ NoCredit t

theorem reached_enrolled : Reached Quiet (unwatched enrolledChain) 1700000010 := by
  refine ⟨_, watcherRun_watched (Rehearsal.ledger_run _ (by decide)), ?_⟩
  intro t ht
  rcases List.mem_map.mp ht with ⟨q, hq, rfl⟩
  rcases event_of_mem_historyOf hq with ⟨c, hc, outcome, hnow, hevent⟩
  have hcall : c.1.now ≤ 1700000010 ∧ ∀ payer attestation, c.2 ≠ .attest payer attestation := by
    simp only [Rehearsal.handover, List.mem_cons, List.not_mem_nil, or_false] at hc
    rcases hc with rfl | rfl | rfl | rfl <;>
      exact ⟨by decide, fun _ _ h => nomatch h⟩
  refine ⟨hnow.trans_le hcall.1, trivial, ?_⟩
  rintro id ⟨inv, payer, attestation, event, -, hsome⟩
  have hsame : q.event = .called inv (.attest payer attestation) (.ok event) := Option.some.inj hsome
  rw [hevent] at hsame
  injection hsame with _ hattest _
  exact hcall.2 payer attestation hattest

theorem reached_inHand {user : UserConfig} {clock : ℤ}
    (huser : enrolledChain.userConfigs Rehearsal.user = some user)
    (hfrom : user.attestableFrom ≤ 1700000100) (hearly : 1700000010 ≤ clock)
    (hlate : clock ≤ 1700000160) :
    Reached Quiet (inHand user clock ⟨[Rehearsal.attestation], false⟩) 1700000160 := by
  have hticked := reached_enrolled.step (WatcherStep.tick (le_refl clock)) hearly
    ⟨trivial, noCredit_of_none rfl⟩
  have hfinalized := hticked.step (@WatcherStep.finalize _ _ 1700000160 _ payment
    (fun _ hmem => absurd hmem List.not_mem_nil) (by decide)) hlate ⟨trivial, noCredit_of_none rfl⟩
  have hseen : (enrolledChain.userConfigs userAccount.user).map Client.UserConfig.of =
      some (Client.UserConfig.of user) := congrArg (Option.map Client.UserConfig.of) huser
  have hrefreshed : Reached Quiet ⟨enrolledChain, [payment], some (Client.UserConfig.of user), none,
      some clock, none⟩ 1700000160 := by
    rw [← hseen]
    exact hfinalized.step WatcherStep.refresh (le_refl _) ⟨trivial, noCredit_of_none rfl⟩
  have hstarted := hrefreshed.step (@WatcherStep.start _ _ 1700000160 clock _ _ rfl rfl rfl)
    (le_refl _) ⟨trivial, noCredit_of_none rfl⟩
  have hlisted := hstarted.step (@WatcherStep.list _ _ 1700000160 _ _ rfl rfl (fun _ => true)
    (fun _ => [payment.listed fun _ => true]) rfl (fun _ => ⟨[], rfl⟩)
    (fun _ => List.nodup_singleton _)) (le_refl _) ⟨trivial, noCredit_of_none rfl⟩
  have hfloor : scanFloor (Client.UserConfig.of user) clock ≤ 1700000100 := by
    unfold scanFloor
    dsimp only
    split
    · exact hfrom
    · rw [attestationTtlSeconds, daySeconds]
      omega
  have hkept : ¬((payment.listed fun _ => true).err = true ∨
      (payment.listed fun _ => true).below (scanFloor (Client.UserConfig.of user) clock) = true) := by
    rintro (hfailed | hbelow)
    · cases hfailed
    · have hlt := lt_floor_of_below hbelow
      have htime : payment.blockTime.toInt = 1700000100 := by decide
      omega
  have hfetched := hlisted.step (@WatcherStep.fetch _ _ 1700000160 _ _
    (payment.listed fun _ => true) [] payment _ rfl rfl rfl hkept List.mem_cons_self rfl (.inl rfl))
    (le_refl _) ⟨rfl, noCredit_of_none rfl⟩
  rw [getAttestations_payment] at hfetched
  exact hfetched

theorem enrolled_user : ∃ user, enrolledChain.userConfigs Rehearsal.user = some user ∧
    user.attestableFrom ≤ 1700000100 ∧
    attestRefusal (Client.UserConfig.of user) Rehearsal.attestation 1700000099 =
      some .invalidAttestation ∧
    attestRefusal (Client.UserConfig.of user) Rehearsal.attestation 1700000150 = none := by
  have hsome : (enrolledChain.userConfigs Rehearsal.user).any (fun user =>
      user.attestableFrom ≤ 1700000100 ∧
      attestRefusal (Client.UserConfig.of user) Rehearsal.attestation 1700000099 =
        some .invalidAttestation ∧
      attestRefusal (Client.UserConfig.of user) Rehearsal.attestation 1700000150 = none) = true := by
    decide +kernel
  rcases (Option.any_eq_true _ _).mp hsome with ⟨user, huser, hall⟩
  exact ⟨user, huser, of_decide_eq_true hall⟩

theorem attest_payment : ∃ executed, attest Rehearsal.deployment Rehearsal.attesting.1 enrolledChain
    Rehearsal.founder Rehearsal.attestation = .ok executed := by
  have hok : (attest Rehearsal.deployment Rehearsal.attesting.1 enrolledChain Rehearsal.founder
      Rehearsal.attestation).toOption.isSome = true := by
    decide +kernel
  cases hattest : attest Rehearsal.deployment Rehearsal.attesting.1 enrolledChain Rehearsal.founder
      Rehearsal.attestation with
  | ok executed => exact ⟨executed, rfl⟩
  | error fault =>
    rw [hattest] at hok
    cases hok

theorem records_enrolled : enrolledChain.records Rehearsal.attestation.transferId = none := by
  rcases attest_payment with ⟨executed, hok⟩
  rcases attest_ok hok with ⟨_, _, _, _, _, _, hnone, _⟩
  exact hnone

theorem examine_of_done (scan : Scan) {user : UserConfig} {record : Option AttestationRecord}
    {transfers : List Attestation}
    (h : (attestRefusal (Client.UserConfig.of user) attestation scan.now).isSome = true ∨
      record.isSome = true) : scan.examine user record attestation transfers = scan.next transfers :=
  if_pos h

theorem examine_of_due (scan : Scan) {user : UserConfig} {transfers : List Attestation}
    (h : attestRefusal (Client.UserConfig.of user) attestation scan.now = none) :
    scan.examine user none attestation transfers =
      { scan with current := some ⟨attestation :: transfers, true⟩ } := by
  apply if_neg
  rw [h]
  exact not_or.mpr ⟨Bool.false_ne_true, Bool.false_ne_true⟩

theorem timely_of_handled {t : Transition World WatcherEvent}
    (h : t.event = .complete ∨ t.event = .stop) : Timely t := by
  rcases h with h | h
  · rw [Timely, h]
    trivial
  · rw [Timely, h]
    trivial

theorem noCredit_of_handled {t : Transition World WatcherEvent}
    (h : t.event = .complete ∨ t.event = .stop) : NoCredit t := by
  apply noCredit_of_none
  rcases h with h | h
  · rw [programHappening, h]
  · rw [programHappening, h]

/-- After the watcher is done with the payment it becomes the cursor. -/
theorem reached_moved {P : Transition World WatcherEvent → Prop} {world : World} {scan : Scan}
    (h : Reached P world now) (hscan : world.scan = some scan)
    (hlisted : scan.listed = some [payment.listed fun _ => true])
    (hcurrent : scan.current = some ⟨[], false⟩) (htransactions : world.transactions = [payment])
    (hP : ∀ t, t.event = .complete ∨ t.event = .stop → P t) :
    ∃ after, Reached P after now ∧ after.chain = world.chain ∧ after.MovedPast payment := by
  have hcompleted := h.step (@WatcherStep.complete _ _ now _ _ _ _ hscan hlisted hcurrent) (le_refl _)
    (hP _ (.inl rfl))
  have hstopped := hcompleted.step (@WatcherStep.stop _ _ now _ _ rfl) (le_refl _)
    (hP _ (.inr rfl))
  exact ⟨_, hstopped, rfl, [], payment, [], htransactions, rfl, List.mem_cons_self⟩

theorem reached_examined {P : Transition World WatcherEvent → Prop} {user : UserConfig} {clock : ℤ}
    {current : Current} (h : Reached P (inHand user clock ⟨[Rehearsal.attestation], false⟩) 1700000160)
    (huser : enrolledChain.userConfigs Rehearsal.user = some user)
    (hexamine : (paymentScan user clock ⟨[Rehearsal.attestation], false⟩).examine user
      (enrolledChain.records Rehearsal.attestation.transferId) Rehearsal.attestation [] =
        paymentScan user clock current)
    (hP : P ⟨1700000160, .examine Rehearsal.attestation clock,
      inHand user clock ⟨[Rehearsal.attestation], false⟩, inHand user clock current⟩) :
    Reached P (inHand user clock current) 1700000160 := by
  have hstep := @WatcherStep.examine Rehearsal.deployment userAccount 1700000160
    (inHand user clock ⟨[Rehearsal.attestation], false⟩) _ Rehearsal.attestation [] user rfl rfl huser
  have hworld : inHand user clock current =
      { inHand user clock ⟨[Rehearsal.attestation], false⟩ with
        users := some (Client.UserConfig.of user)
        scan := some ((paymentScan user clock ⟨[Rehearsal.attestation], false⟩).examine user
          (enrolledChain.records Rehearsal.attestation.transferId) Rehearsal.attestation []) } := by
    rw [hexamine]
    rfl
  rw [hworld] at hP ⊢
  exact h.step hstep (le_refl _) hP

/-- The tick read its clock before the payment: the watcher drops what the program would take. -/
theorem cursor_settled_behind :
    ¬ ∀ history world, WatcherRun Rehearsal.deployment Rehearsal.accounts userAccount history world →
      ∀ transaction, world.MovedPast transaction →
        ∀ attestation ∈ getAttestations transaction userAccount Rehearsal.deployment.swapAuthority,
          (∃ p ∈ history, Credits Rehearsal.deployment attestation.transferId p) ∨
            NeverCounts Rehearsal.deployment history world.chain attestation := by
  intro hall
  rcases enrolled_user with ⟨user, huser, hfrom, hrefused, -⟩
  have hhand := (reached_inHand huser hfrom (by decide)
    (by decide : (1700000099 : ℤ) ≤ 1700000160)).imp fun t h => h.2
  have hrefusal : (attestRefusal (Client.UserConfig.of user) Rehearsal.attestation 1700000099).isSome =
      true ∨ (enrolledChain.records Rehearsal.attestation.transferId).isSome = true := by
    rw [hrefused]
    exact Or.inl rfl
  have hexamined := reached_examined hhand huser
    (examine_of_done (paymentScan user 1700000099 ⟨[Rehearsal.attestation], false⟩) hrefusal)
    (noCredit_of_none rfl)
  rcases reached_moved hexamined rfl rfl rfl rfl fun t => noCredit_of_handled with
    ⟨after, ⟨history, run, hquiet⟩, hchain, hmoved⟩
  have hmem : Rehearsal.attestation ∈
      getAttestations payment userAccount Rehearsal.deployment.swapAuthority := by
    rw [getAttestations_payment]
    exact List.mem_cons_self
  rcases hall history after run payment hmoved _ hmem with ⟨p, hp, hcredits⟩ | hnever
  · exact (hquiet p hp).2 _ hcredits
  · rcases attest_payment with ⟨executed, hok⟩
    have hchain' : after.chain = enrolledChain := hchain
    rw [hchain'] at hnever
    exact hnever [] enrolledChain Run.start (fun _ _ _ hq => absurd hq List.not_mem_nil)
      Rehearsal.attesting.1 Rehearsal.founder executed
      (fun p hp => (hquiet p hp).1.trans (by decide)) (fun _ hq => absurd hq List.not_mem_nil) hok

theorem judged_payment (user : UserConfig) {now : ℤ} (hnow : 1700000160 ≤ now) :
    Judged user Rehearsal.attestation 1700000150 now := by
  have htime : Rehearsal.attestation.eventTime.toInt = 1700000100 := by decide
  intro _ _ _
  exact ⟨fun _ => by omega, fun _ => by omega⟩

/-- The tick read its clock after the payment: it is credited. -/
theorem cursor_settled_attested :
    ∃ history world, WatcherRun Rehearsal.deployment Rehearsal.accounts userAccount history world ∧
      world.MovedPast payment ∧
      ((∃ p ∈ history, Credits Rehearsal.deployment Rehearsal.attestation.transferId p) ∨
        NeverCounts Rehearsal.deployment history world.chain Rehearsal.attestation) := by
  rcases enrolled_user with ⟨user, huser, hfrom, -, hnone⟩
  have hhand := (reached_inHand huser hfrom (by decide)
    (by decide : (1700000150 : ℤ) ≤ 1700000160)).imp fun t h => h.1
  have hexamine := @examine_of_due Rehearsal.attestation
    (paymentScan user 1700000150 ⟨[Rehearsal.attestation], false⟩) user [] hnone
  rw [← records_enrolled] at hexamine
  have hexamined := reached_examined hhand huser hexamine fun user _ => judged_payment user (le_refl _)
  rcases attest_payment with ⟨⟨event, credited⟩, hok⟩
  have hsubmit : submit Rehearsal.deployment Rehearsal.attesting.1
      (inHand user 1700000150 ⟨[Rehearsal.attestation], true⟩).chain
      (.attest Rehearsal.founder Rehearsal.attestation) = (.ok (some event), credited) := by
    have hexecute : execute Rehearsal.deployment Rehearsal.attesting.1 enrolledChain
        (.attest Rehearsal.founder Rehearsal.attestation) = .ok (some event, credited) :=
      emitting_eq_ok.mpr ⟨event, rfl, hok⟩
    exact submit_of_ok _ hexecute
  have hstep := @WatcherStep.send Rehearsal.deployment userAccount
    (inHand user 1700000150 ⟨[Rehearsal.attestation], true⟩) _ Rehearsal.attestation []
    Rehearsal.attesting.1 Rehearsal.founder rfl rfl
  rw [hsubmit] at hstep
  have hnow : (1700000160 : ℤ) ≤ Rehearsal.attesting.1.now := by decide
  have hsent := hexamined.step hstep hnow fun user _ => judged_payment user hnow
  rcases reached_moved hsent rfl rfl rfl rfl fun t => timely_of_handled with
    ⟨after, ⟨history, run, hall⟩, -, hmoved⟩
  have hmem : Rehearsal.attestation ∈
      getAttestations payment userAccount Rehearsal.deployment.swapAuthority := by
    rw [getAttestations_payment]
    exact List.mem_cons_self
  exact ⟨history, after, run, hmoved,
    (cursor_settled run fun t ht => (hall t ht).2).1 payment hmoved _ hmem⟩

end Laterite.Watcher
