import Laterite.ClientSweep
import Laterite.SweepCandidates

/-!
# The users the watcher knows

The watcher keeps each user's settings as it last read them. It reads all of them now and then, and
in between those of the users with an event the indexer stored since: it remembers the newest slot
it has seen and asks for later ones. The indexer stores the events of a slot in several batches, so
an event can be stored in a slot that is no longer asked for. Between refreshes it reads a user again
before attesting their transfer, and keeps what it read without changing what it watches.
-/

namespace Laterite.Refreshes

/-- What the watcher follows of a user's settings. -/
structure Rules where
  active : Bool
  incomeRule : Bool
  changeMultiplier : ℕ
  paymentTokens : ℕ
  deriving DecidableEq

/-- A user's control, in chain order: its slot and the settings it leaves. -/
structure UserEvent where
  slot : ℤ
  user : Pubkey
  rules : Rules
  deriving DecidableEq

def rulesAfter (events : List UserEvent) (user : Pubkey) : Option Rules :=
  (events.filter fun event => event.user = user).getLast?.map UserEvent.rules

/-- A user's settings, read after so many events. -/
structure Held where
  rules : Rules
  read : ℕ

/-- The accounts watched of a user with these settings. -/
def Rules.watches (rules : Rules) (paymentToken : ℕ) : Bool :=
  rules.active && (rules.incomeRule || rules.changeMultiplier != 0) &&
    (Client.enabledPaymentTokens rules.paymentTokens).contains paymentToken

def follow (users : Pubkey → Option Held) (user : Pubkey) (paymentToken : ℕ) : Bool :=
  (users user).any fun held => held.rules.watches paymentToken

/-- A refresh under way: whether it is a full one, and the rows stored when it began. -/
structure Query where
  all : Bool
  rows : List UserEvent

/-- The events executed so far in chain order, the slot up to which all is finalized and how many
events are stored; the watcher's users, newest slot and watched accounts, and its refresh. -/
structure World where
  events : List UserEvent
  finalized : ℤ
  stored : ℕ
  users : Pubkey → Option Held
  eventsSlot : Option ℤ
  watched : Pubkey → ℕ → Bool
  refreshing : Option Query

def World.genesis : World := ⟨[], -1, 0, fun _ => none, none, fun _ _ => false, none⟩

/-- The newest slot of some rows; -1 when there are none. -/
def maxSlot (rows : List UserEvent) : ℤ := rows.foldl (fun slot row => max slot row.slot) (-1)

def since (rows : List UserEvent) (slot : ℤ) : List UserEvent := rows.filter fun row => slot < row.slot

def World.read (self : World) (user : Pubkey) : Option Held :=
  (rulesAfter self.events user).map fun rules => ⟨rules, self.events.length⟩

def World.refresh (self : World) (query : Query) : World :=
  if query.all then
    { self with
      users := self.read
      eventsSlot := some (maxSlot query.rows)
      watched := follow self.read
      refreshing := none }
  else
    let mark := self.eventsSlot.getD (-1)
    let rows := since query.rows mark
    if rows = [] then { self with refreshing := none }
    else
      let users := fun user =>
        if ∃ row ∈ rows, row.user = user then (self.read user).or (self.users user)
        else self.users user
      { self with
        users := users
        eventsSlot := some (max mark (maxSlot rows))
        watched := follow users
        refreshing := none }

inductive Action where
  | execute (event : UserEvent)
  | finalize (slot : ℤ)
  | store (stored : ℕ)
  | query (all : Bool)
  | finish
  | fail
  | attest (user : Pubkey)
  | restart

/-- A control executes in the newest slot or a later one, never in a finalized one. Finalized
controls are stored in order. A refresh that is not a full one comes after a full one, and transfers
are attested between refreshes. -/
inductive Step : World → Action → World → Prop
  | execute {w : World} (event : UserEvent) (hlast : ∀ earlier ∈ w.events, earlier.slot ≤ event.slot)
      (hopen : w.finalized < event.slot) :
      Step w (.execute event) { w with events := w.events ++ [event] }
  | finalize {w : World} (slot : ℤ) (hslot : w.finalized ≤ slot) :
      Step w (.finalize slot) { w with finalized := slot }
  | store {w : World} (stored : ℕ) (hmore : w.stored ≤ stored) (hthere : stored ≤ w.events.length)
      (hfinal : ∀ event ∈ w.events.take stored, event.slot ≤ w.finalized) :
      Step w (.store stored) { w with stored := stored }
  | query {w : World} (all : Bool) (hidle : w.refreshing = none)
      (hknown : all = true ∨ w.eventsSlot.isSome) :
      Step w (.query all) { w with refreshing := some ⟨all, w.events.take w.stored⟩ }
  | finish {w : World} {query : Query} (hquery : w.refreshing = some query) :
      Step w .finish (w.refresh query)
  | fail {w : World} : Step w .fail { w with refreshing := none }
  | attest {w : World} {user : Pubkey} {held : Held} (hidle : w.refreshing = none)
      (hread : w.read user = some held) :
      Step w (.attest user) { w with users := Function.update w.users user (some held) }
  | restart {w : World} : Step w .restart
      { w with users := fun _ => none, eventsSlot := none, watched := fun _ _ => false, refreshing := none }

inductive Reached (allowed : World → Action → Prop) : World → Prop
  | start : Reached allowed .genesis
  | step {w w' : World} {action : Action} (hreached : Reached allowed w) (hallowed : allowed w action)
      (hstep : Step w action w') : Reached allowed w'

/-- The user of the event at a place in the chain is among those held, as read after it. -/
def World.KnownBy (self : World) (users : Pubkey → Option Held) (place : ℕ) : Prop :=
  ∀ event, self.events[place]? = some event →
    ∃ held, users event.user = some held ∧ place < held.read

/-- The first `stored` events leave none behind in the newest slot of those after the watcher's: what
comes after them in that slot is of a user among them, or of one already read after it. -/
def World.Whole (self : World) (stored : ℕ) : Prop :=
  let rows := since (self.events.take stored) (self.eventsSlot.getD (-1))
  ∀ place event, stored ≤ place → self.events[place]? = some event → event.slot ≤ maxSlot rows →
    (∃ row ∈ rows, row.user = event.user) ∨ self.KnownBy self.users place

/-- No refresh of the users with events ends that found a slot of which a part was yet to be stored. -/
def Unsplit (w : World) : Action → Prop
  | .finish => ∀ query ∈ w.refreshing, query.all = false → w.Whole query.rows.length
  | _ => True

/-- These are the settings the chain held after the events read. -/
def Held.Right (held : Held) (events : List UserEvent) (user : Pubkey) : Prop :=
  held.read ≤ events.length ∧ rulesAfter (events.take held.read) user = some held.rules

variable {w w' : World} {rows : List UserEvent} {row event : UserEvent} {user : Pubkey}
  {users seen : Pubkey → Option Held} {held : Held} {place n : ℕ} {slot : ℤ} {query : Query}
  {action : Action}

theorem maxSlot_le_iff : maxSlot rows ≤ slot ↔ -1 ≤ slot ∧ ∀ row ∈ rows, row.slot ≤ slot := by
  have hfold (start : ℤ) : rows.foldl (fun slot row => max slot row.slot) start ≤ slot ↔
      start ≤ slot ∧ ∀ row ∈ rows, row.slot ≤ slot := by
    induction rows generalizing start with
    | nil => simp
    | cons row rows ih =>
      rw [List.foldl_cons, ih, max_le_iff, List.forall_mem_cons, and_assoc]
  exact hfold (-1)

theorem slot_le_maxSlot (h : row ∈ rows) : row.slot ≤ maxSlot rows :=
  (maxSlot_le_iff.mp le_rfl).2 row h

theorem exists_rulesAfter (h : event ∈ w.events) : ∃ rules, rulesAfter w.events event.user = some rules := by
  have hmem : event ∈ w.events.filter fun other => other.user = event.user := by
    simp [h]
  exact ⟨_, congrArg _ (List.getLast?_eq_some_getLast (List.ne_nil_of_mem hmem))⟩

/-- An event in the chain has its user read with all events executed so far. -/
theorem exists_read (h : w.events[place]? = some event) :
    ∃ held, w.read event.user = some held ∧ place < held.read := by
  rcases exists_rulesAfter (List.mem_of_getElem? h) with ⟨rules, hrules⟩
  refine ⟨⟨rules, w.events.length⟩, ?_, (List.getElem?_eq_some_iff.mp h).1⟩
  rw [World.read, hrules]
  rfl

/-- The accounts watched are those of the users as the last refresh that found events saw them: read
after every event up to the newest slot seen, and since then at most read again. -/
structure Followed (w : World) (seen : Pubkey → Option Held) : Prop where
  watched : w.watched = follow seen
  known : ∀ slot ∈ w.eventsSlot, ∀ place event, w.events[place]? = some event → event.slot ≤ slot →
    w.KnownBy seen place
  right : ∀ user first, seen user = some first → first.Right w.events user
  kept : ∀ user first, seen user = some first →
    ∃ held, w.users user = some held ∧ first.read ≤ held.read

/-- The state in which nothing is missed. -/
structure Sound (w : World) : Prop where
  stored_le : w.stored ≤ w.events.length
  floor : -1 ≤ w.finalized
  final : ∀ event ∈ w.events.take w.stored, event.slot ≤ w.finalized
  mark : ∀ slot ∈ w.eventsSlot, slot ≤ w.finalized
  held : ∀ user held, w.users user = some held → held.Right w.events user
  followed : ∃ seen, Followed w seen
  refreshing : ∀ query ∈ w.refreshing, (∃ n ≤ w.stored, query.rows = w.events.take n) ∧
    (query.all = false → w.eventsSlot.isSome)

theorem Followed.restarted (hwatched : w.watched = fun _ _ => false) (hslot : w.eventsSlot = none) :
    Followed w fun _ => none where
  watched := hwatched
  known := by
    intro slot h
    rw [hslot] at h
    cases h
  right := by
    intro user first h
    cases h
  kept := by
    intro user first h
    cases h

theorem Sound.genesis : Sound .genesis where
  stored_le := le_rfl
  floor := le_rfl
  final := by
    intro event h
    cases h
  mark := by
    intro slot h
    cases h
  held := by
    intro user held h
    cases h
  followed := ⟨_, Followed.restarted rfl rfl⟩
  refreshing := by
    intro query h
    cases h

/-- What the chain held then stays. -/
theorem Held.Right.execute (h : held.Right w.events user) : held.Right (w.events ++ [event]) user := by
  rcases h with ⟨hle, hrules⟩
  rw [Held.Right, List.take_append_of_le_length hle]
  exact ⟨hle.trans (by simp), hrules⟩

theorem held_read (h : w.read user = some held) :
    held.Right w.events user ∧ held.read = w.events.length := by
  rcases Option.map_eq_some_iff.mp h with ⟨rules, hrules, rfl⟩
  exact ⟨⟨le_rfl, by rw [List.take_length]; exact hrules⟩, rfl⟩

/-- What is known of the events executed so far stays known when an event of a later slot follows. -/
theorem Followed.execute (h : Followed w seen) (hopen : ∀ slot ∈ w.eventsSlot, slot < event.slot) :
    Followed { w with events := w.events ++ [event] } seen where
  watched := h.watched
  known := by
    intro slot hslot place found hfound hle other hother
    obtain rfl := Option.some.inj (hfound.symm.trans hother)
    dsimp only at hfound
    by_cases hlt : place < w.events.length
    · have hold := (List.getElem?_append_left hlt).symm.trans hfound
      exact h.known slot hslot place found hold hle found hold
    · rw [List.getElem?_append_right (not_lt.mp hlt)] at hfound
      obtain rfl := List.mem_singleton.mp (List.mem_of_getElem? hfound)
      exact absurd hle (not_le.mpr (hopen slot hslot))
  right := by
    intro user first hfirst
    exact (h.right user first hfirst).execute
  kept := h.kept

theorem Followed.attest (h : Followed w seen) (hread : w.read user = some held) :
    Followed { w with users := Function.update w.users user (some held) } seen where
  watched := h.watched
  known := h.known
  right := h.right
  kept := by
    intro other first hfirst
    dsimp only
    by_cases hsame : other = user
    · subst hsame
      rw [Function.update_self]
      refine ⟨held, rfl, ?_⟩
      rw [(held_read hread).2]
      exact (h.right other first hfirst).1
    · rw [Function.update_of_ne hsame]
      exact h.kept other first hfirst

theorem Followed.knows (h : Followed w seen) (hknown : w.KnownBy seen place) :
    w.KnownBy w.users place := by
  intro event hevent
  rcases hknown event hevent with ⟨first, hfirst, hlt⟩
  rcases h.kept event.user first hfirst with ⟨held, hheld, hle⟩
  exact ⟨held, hheld, hlt.trans_le hle⟩

theorem maxSlot_since_le (hsound : Sound w) (hn : n ≤ w.stored) :
    maxSlot (since (w.events.take n) slot) ≤ w.finalized := by
  apply maxSlot_le_iff.mpr
  refine ⟨hsound.floor, ?_⟩
  intro row hrow
  apply hsound.final
  exact (List.take_subset_take_left _ hn) (List.mem_of_mem_filter hrow)

def World.reread (self : World) (rows : List UserEvent) (user : Pubkey) : Option Held :=
  if ∃ row ∈ rows, row.user = user then (self.read user).or (self.users user) else self.users user

/-- A refresh of some users knows what was known, and every event of those users. -/
theorem knownBy_reread (h : w.KnownBy w.users place ∨
    ∀ event, w.events[place]? = some event → ∃ row ∈ rows, row.user = event.user) :
    w.KnownBy (w.reread rows) place := by
  intro event hevent
  rw [World.reread]
  rcases exists_read hevent with ⟨held, hread, hlt⟩
  split
  · rw [hread]
    exact ⟨held, rfl, hlt⟩
  · rename_i hother
    rcases h with hknows | hamong
    · exact hknows event hevent
    · exact absurd (hamong event hevent) hother

theorem Sound.reread_right (hsound : Sound w) (h : w.reread rows user = some held) :
    held.Right w.events user := by
  rw [World.reread] at h
  split at h
  · rcases Option.or_eq_some_iff.mp h with hread | ⟨-, hold⟩
    · exact (held_read hread).1
    · exact hsound.held user held hold
  · exact hsound.held user held h

/-- The events up to the newest slot seen so far, and those up to the newest slot found, are known. -/
theorem Sound.reread_known (hsound : Sound w) {mark : ℤ} (hmark : w.eventsSlot = some mark)
    (hwhole : w.Whole n) (hevent : w.events[place]? = some event)
    (hle : event.slot ≤ max mark (maxSlot (since (w.events.take n) mark))) :
    w.KnownBy (w.reread (since (w.events.take n) mark)) place := by
  rw [World.Whole, hmark] at hwhole
  dsimp only [Option.getD_some] at hwhole
  have hsame (other : UserEvent) (hother : w.events[place]? = some other) : other = event :=
    Option.some.inj (hother.symm.trans hevent)
  apply knownBy_reread
  by_cases hold : event.slot ≤ mark
  · rcases hsound.followed with ⟨seen, hseen⟩
    exact .inl (hseen.knows (hseen.known mark hmark place event hevent hold))
  have hnew := (le_max_iff.mp hle).resolve_left hold
  by_cases hplace : place < n
  · apply Or.inr
    intro other hother
    rw [hsame other hother]
    refine ⟨event, List.mem_filter.mpr ⟨?_, by simpa using hold⟩, rfl⟩
    apply List.mem_of_getElem? (i := place)
    rw [List.getElem?_take_of_lt hplace]
    exact hevent
  · rcases hwhole place event (not_lt.mp hplace) hevent hnew with hamong | hknows
    · apply Or.inr
      intro other hother
      rw [hsame other hother]
      exact hamong
    · exact .inl hknows

/-- Whether a refresh reads any user. -/
def World.Finds (self : World) (query : Query) : Prop :=
  query.all = true ∨ since query.rows (self.eventsSlot.getD (-1)) ≠ []

theorem refresh_full (hall : query.all = true) : w.refresh query = { w with
    users := w.read, eventsSlot := some (maxSlot query.rows), watched := follow w.read,
    refreshing := none } := if_pos hall

theorem refresh_none (hnone : ¬w.Finds query) : w.refresh query = { w with refreshing := none } := by
  rw [World.Finds, not_or, not_not] at hnone
  rw [World.refresh, if_neg hnone.1]
  exact if_pos hnone.2

theorem refresh_some (hall : query.all = false) (hfinds : w.Finds query) : w.refresh query = { w with
    users := w.reread (since query.rows (w.eventsSlot.getD (-1)))
    eventsSlot := some (max (w.eventsSlot.getD (-1))
      (maxSlot (since query.rows (w.eventsSlot.getD (-1)))))
    watched := follow (w.reread (since query.rows (w.eventsSlot.getD (-1))))
    refreshing := none } := by
  have hrows := hfinds.resolve_left (by rw [hall]; exact Bool.false_ne_true)
  rw [World.refresh, if_neg (by rw [hall]; exact Bool.false_ne_true)]
  exact if_neg hrows

theorem refresh_events : (w.refresh query).events = w.events := by
  rw [World.refresh]
  split
  · rfl
  · dsimp only
    split <;> rfl

/-- The users a refresh holds are read no later than now, and its newest slot is finalized. -/
theorem Sound.refreshed (hsound : Sound w) (hslot : slot ≤ w.finalized)
    (hfollowed : Followed { w with
      users := users, eventsSlot := some slot, watched := follow users, refreshing := none } users) :
    Sound { w with
      users := users, eventsSlot := some slot, watched := follow users, refreshing := none } where
  stored_le := hsound.stored_le
  floor := hsound.floor
  final := hsound.final
  mark := by
    intro newest hnewest
    obtain rfl := Option.some.inj hnewest
    exact hslot
  held := hfollowed.right
  followed := ⟨users, hfollowed⟩
  refreshing := by
    intro query hnone
    cases hnone

theorem Sound.idle (hsound : Sound w) : Sound { w with refreshing := none } where
  stored_le := hsound.stored_le
  floor := hsound.floor
  final := hsound.final
  mark := hsound.mark
  held := hsound.held
  followed := by
    rcases hsound.followed with ⟨seen, hseen⟩
    exact ⟨seen, hseen.watched, hseen.known, hseen.right, hseen.kept⟩
  refreshing := by
    intro query hnone
    cases hnone

theorem Sound.refresh (hsound : Sound w) (hquery : w.refreshing = some query)
    (hwhole : query.all = false → w.Whole query.rows.length) :
    Sound (w.refresh query) ∧
      ∃ seen, Followed (w.refresh query) seen ∧ (w.Finds query → seen = (w.refresh query).users) := by
  rcases hsound.refreshing query hquery with ⟨⟨n, hn, hrows⟩, hmark⟩
  by_cases hfinds : w.Finds query
  · cases hall : query.all with
    | true =>
      rw [refresh_full hall]
      have hfollowed : Followed { w with
          users := w.read, eventsSlot := some (maxSlot query.rows), watched := follow w.read,
          refreshing := none } w.read := by
        constructor
        · rfl
        · intro slot hslot place event hevent hle found hfound
          exact exists_read hfound
        · intro user held hheld
          exact (held_read hheld).1
        · intro user held hheld
          exact ⟨held, hheld, le_rfl⟩
      refine ⟨hsound.refreshed ?_ hfollowed, w.read, hfollowed, fun _ => rfl⟩
      rw [hrows]
      apply maxSlot_le_iff.mpr
      refine ⟨hsound.floor, ?_⟩
      intro row hrow
      exact hsound.final row (List.take_subset_take_left _ hn hrow)
    | false =>
      rcases Option.isSome_iff_exists.mp (hmark hall) with ⟨mark, hmark⟩
      rw [refresh_some hall hfinds, hmark, Option.getD_some]
      have hcut : w.events.take query.rows.length = query.rows := by
        rw [hrows, List.length_take, ← List.take_take, List.take_length]
      have hfollowed : Followed { w with
          users := w.reread (since query.rows mark)
          eventsSlot := some (max mark (maxSlot (since query.rows mark)))
          watched := follow (w.reread (since query.rows mark))
          refreshing := none } (w.reread (since query.rows mark)) := by
        constructor
        · rfl
        · intro slot hslot place event hevent hle
          obtain rfl := Option.some.inj hslot
          have hknown := @Sound.reread_known w event place query.rows.length hsound mark hmark
            (hwhole hall) hevent
          rw [hcut] at hknown
          exact hknown hle
        · intro user held hheld
          exact hsound.reread_right hheld
        · intro user held hheld
          exact ⟨held, hheld, le_rfl⟩
      refine ⟨hsound.refreshed ?_ hfollowed, _, hfollowed, fun _ => rfl⟩
      rw [hrows]
      exact max_le (hsound.mark mark hmark) (maxSlot_since_le hsound hn)
  · rw [refresh_none hfinds]
    rcases hsound.idle.followed with ⟨seen, hseen⟩
    exact ⟨hsound.idle, seen, hseen, fun h => absurd h hfinds⟩

theorem Sound.execute (hsound : Sound w) (hopen : w.finalized < event.slot) :
    Sound { w with events := w.events ++ [event] } := by
  have hkept (n : ℕ) (hn : n ≤ w.stored) : (w.events ++ [event]).take n = w.events.take n :=
    List.take_append_of_le_length (hn.trans hsound.stored_le)
  rcases hsound.followed with ⟨seen, hseen⟩
  constructor
  · exact hsound.stored_le.trans (by simp)
  · exact hsound.floor
  · rw [hkept _ le_rfl]
    exact hsound.final
  · exact hsound.mark
  · intro user held hheld
    exact (hsound.held user held hheld).execute
  · exact ⟨seen, hseen.execute fun slot hslot => (hsound.mark slot hslot).trans_lt hopen⟩
  · intro query hquery
    rcases hsound.refreshing query hquery with ⟨⟨n, hn, hrows⟩, hmark⟩
    exact ⟨⟨n, hn, hrows.trans (hkept n hn).symm⟩, hmark⟩

theorem Sound.attest (hsound : Sound w) (hread : w.read user = some held) :
    Sound { w with users := Function.update w.users user (some held) } := by
  rcases hsound.followed with ⟨seen, hseen⟩
  constructor
  · exact hsound.stored_le
  · exact hsound.floor
  · exact hsound.final
  · exact hsound.mark
  · intro other found hfound
    dsimp only at hfound
    by_cases hsame : other = user
    · subst hsame
      rw [Function.update_self] at hfound
      obtain rfl := Option.some.inj hfound
      exact (held_read hread).1
    · rw [Function.update_of_ne hsame] at hfound
      exact hsound.held other found hfound
  · exact ⟨seen, hseen.attest hread⟩
  · exact hsound.refreshing

theorem Step.sound (hstep : Step w action w') (hunsplit : Unsplit w action) (hsound : Sound w) :
    Sound w' := by
  rcases hsound.followed with ⟨seen, hseen⟩
  cases hstep with
  | execute event hlast hopen => exact hsound.execute hopen
  | finalize slot hslot =>
    constructor
    · exact hsound.stored_le
    · exact hsound.floor.trans hslot
    · intro event hevent
      exact (hsound.final event hevent).trans hslot
    · intro mark hmark
      exact (hsound.mark mark hmark).trans hslot
    · exact hsound.held
    · exact ⟨seen, hseen.watched, hseen.known, hseen.right, hseen.kept⟩
    · exact hsound.refreshing
  | store stored hmore hthere hfinal =>
    constructor
    · exact hthere
    · exact hsound.floor
    · exact hfinal
    · exact hsound.mark
    · exact hsound.held
    · exact ⟨seen, hseen.watched, hseen.known, hseen.right, hseen.kept⟩
    · intro query hquery
      rcases hsound.refreshing query hquery with ⟨⟨n, hn, hrows⟩, hmark⟩
      exact ⟨⟨n, hn.trans hmore, hrows⟩, hmark⟩
  | query all hidle hknown =>
    constructor
    · exact hsound.stored_le
    · exact hsound.floor
    · exact hsound.final
    · exact hsound.mark
    · exact hsound.held
    · exact ⟨seen, hseen.watched, hseen.known, hseen.right, hseen.kept⟩
    · intro query hquery
      obtain rfl := Option.some.inj hquery
      refine ⟨⟨w.stored, le_rfl, rfl⟩, ?_⟩
      intro hall
      dsimp only at hall
      subst hall
      exact hknown.resolve_left Bool.false_ne_true
  | finish hquery => exact (hsound.refresh hquery (hunsplit _ hquery)).1
  | fail => exact hsound.idle
  | attest hidle hread => exact hsound.attest hread
  | restart =>
    constructor
    · exact hsound.stored_le
    · exact hsound.floor
    · exact hsound.final
    · intro slot hnone
      cases hnone
    · intro user held hnone
      cases hnone
    · exact ⟨_, Followed.restarted rfl rfl⟩
    · intro query hnone
      cases hnone

theorem Reached.sound (hreached : Reached Unsplit w) : Sound w := by
  induction hreached with
  | start => exact Sound.genesis
  | step hreached hallowed hstep ih => exact hstep.sound hallowed ih

theorem refresh_mark (hsound : Sound w) (hquery : w.refreshing = some query)
    (hevent : event ∈ query.rows) : ∃ slot ∈ (w.refresh query).eventsSlot, event.slot ≤ slot := by
  cases hall : query.all with
  | true =>
    rw [refresh_full hall]
    exact ⟨_, rfl, slot_le_maxSlot hevent⟩
  | false =>
    rcases Option.isSome_iff_exists.mp ((hsound.refreshing query hquery).2 hall) with ⟨mark, hmark⟩
    have hin (hnew : ¬event.slot ≤ mark) : event ∈ since query.rows mark :=
      List.mem_filter.mpr ⟨hevent, by simpa using hnew⟩
    by_cases hfinds : w.Finds query
    · rw [refresh_some hall hfinds, hmark, Option.getD_some]
      refine ⟨_, rfl, ?_⟩
      by_cases hold : event.slot ≤ mark
      · exact hold.trans (le_max_left _ _)
      · exact (slot_le_maxSlot (hin hold)).trans (le_max_right _ _)
    · rw [refresh_none hfinds]
      refine ⟨mark, hmark, ?_⟩
      rw [World.Finds, not_or, not_not, hmark, Option.getD_some] at hfinds
      by_contra hnew
      exact List.not_mem_nil (hfinds.2 ▸ hin hnew)

/-- In every run in which no refresh of the users with events finds a slot stored in part, a refresh
leaves every user with an event stored before it held as read after that event, and watched by
settings read after it: those held, where the refresh read any user. -/
theorem refresh_misses_none (w : World) (hreached : Reached Unsplit w) (query : Query)
    (hquery : w.refreshing = some query) (hunsplit : Unsplit w .finish) (place : ℕ)
    (event : UserEvent) (hevent : query.rows[place]? = some event) :
    (w.refresh query).events[place]? = some event ∧
    ∃ held seen, (w.refresh query).users event.user = some held ∧
      place < seen.read ∧ seen.read ≤ held.read ∧
      held.Right (w.refresh query).events event.user ∧
      seen.Right (w.refresh query).events event.user ∧
      (∀ paymentToken, (w.refresh query).watched event.user paymentToken =
        seen.rules.watches paymentToken) ∧
      (w.Finds query → seen = held) := by
  have hsound := hreached.sound
  rcases hsound.refresh hquery (hunsplit query hquery) with ⟨hafter, users, hfollowed, hfound⟩
  rcases hsound.refreshing query hquery with ⟨⟨n, hn, hrows⟩, -⟩
  have hthere : (w.refresh query).events[place]? = some event := by
    rw [refresh_events]
    rw [hrows] at hevent
    have hlt := (List.getElem?_eq_some_iff.mp hevent).1
    rw [List.length_take, lt_min_iff] at hlt
    exact (List.getElem?_take_of_lt hlt.1).symm.trans hevent
  rcases refresh_mark hsound hquery (List.mem_of_getElem? hevent) with ⟨slot, hslot, hle⟩
  rcases hfollowed.known slot hslot place event hthere hle event hthere with ⟨seen, hseen, hlt⟩
  rcases hfollowed.kept event.user seen hseen with ⟨held, hheld, hlater⟩
  refine ⟨hthere, held, seen, hheld, hlt, hlater, hafter.held _ _ hheld,
    hfollowed.right _ _ hseen, ?_, ?_⟩
  · intro paymentToken
    rw [hfollowed.watched, follow, hseen]
    rfl
  · intro hfinds
    rw [hfound hfinds] at hseen
    exact Option.some.inj (hseen.symm.trans hheld)

namespace RefreshRehearsal

def rules : Rules := ⟨true, true, 0, 1⟩

def first : UserEvent := ⟨5, Vector.replicate 32 1, rules⟩

def second : UserEvent := ⟨5, Vector.replicate 32 2, rules⟩

def third : UserEvent := ⟨6, Vector.replicate 32 2, rules⟩

/-- One control, stored, and a full refresh. -/
def known : World :=
  World.refresh ⟨[first], 5, 1, fun _ => none, none, fun _ _ => false, some ⟨true, [first]⟩⟩
    ⟨true, [first]⟩

/-- Another control is stored after it, and the first one's user is read again. -/
def ahead : World :=
  { known with
    events := [first, third]
    finalized := 6
    stored := 2
    users := Function.update known.users first.user (some ⟨rules, 2⟩) }

/-- The next refresh has found the other control. -/
def asked : World := { ahead with refreshing := some ⟨false, [first, third]⟩ }

theorem asked_reached : Reached Unsplit asked := by
  have hexecuted : Reached Unsplit { World.genesis with events := [first] } :=
    Reached.start.step (by trivial) (.execute first (by simp [World.genesis]) (by decide))
  have hfinalized : Reached Unsplit { World.genesis with events := [first], finalized := 5 } :=
    hexecuted.step (by trivial) (.finalize 5 (by decide))
  have hstored : Reached Unsplit { World.genesis with events := [first], finalized := 5, stored := 1 } :=
    hfinalized.step (by trivial) (.store 1 (by decide) (by decide) (by decide))
  have hknown : Reached Unsplit known := by
    refine (hstored.step (by trivial) (.query true rfl (.inl rfl))).step ?_ (.finish rfl)
    intro query hquery hall
    obtain rfl := Option.some.inj hquery
    cases hall
  have hthird : Reached Unsplit { known with events := [first, third] } :=
    hknown.step (by trivial) (.execute third (by decide) (by decide))
  have hlater : Reached Unsplit { known with events := [first, third], finalized := 6 } :=
    hthird.step (by trivial) (.finalize 6 (by decide))
  have hboth : Reached Unsplit { known with events := [first, third], finalized := 6, stored := 2 } :=
    hlater.step (by trivial) (.store 2 (by decide) (by decide) (by decide))
  have hahead : Reached Unsplit ahead := hboth.step (by trivial) (.attest rfl rfl)
  exact hahead.step (by trivial) (.query false rfl (.inr rfl))

theorem asked_unsplit : Unsplit asked .finish := by
  intro query hquery _ place event hplace hevent
  obtain rfl := Option.some.inj hquery
  have hend : asked.events[place]? = none := List.getElem?_eq_none hplace
  rw [hend] at hevent
  cases hevent

/-- A full refresh of an empty chain. -/
def begun : World := World.genesis.refresh ⟨true, []⟩

def half : World := { begun with events := [first, second], finalized := 5, stored := 1 }

/-- The first one's user is read, then the second control is stored and the next refresh begins. -/
def whole : World :=
  { half.refresh ⟨false, [first]⟩ with stored := 2, refreshing := some ⟨false, [first, second]⟩ }

theorem whole_reached : Reached (fun _ _ => True) whole := by
  have hbegun : Reached (fun _ _ => True) begun :=
    (Reached.start.step trivial (.query true rfl (.inl rfl))).step trivial (.finish rfl)
  have hfirst : Reached (fun _ _ => True) { begun with events := [first] } :=
    hbegun.step trivial (.execute first (by simp [begun, World.refresh, World.genesis]) (by decide))
  have hsecond : Reached (fun _ _ => True) { begun with events := [first, second] } :=
    hfirst.step trivial (.execute second (by decide) (by decide))
  have hfinalized : Reached (fun _ _ => True) { begun with events := [first, second], finalized := 5 } :=
    hsecond.step trivial (.finalize 5 (by decide))
  have hhalf : Reached (fun _ _ => True) half :=
    hfinalized.step trivial (.store 1 (by decide) (by decide) (by decide))
  have hasked : Reached (fun _ _ => True) { half with refreshing := some ⟨false, [first]⟩ } :=
    hhalf.step trivial (.query false rfl (.inr rfl))
  have hread : Reached (fun _ _ => True) (half.refresh ⟨false, [first]⟩) :=
    hasked.step trivial (.finish rfl)
  have hstored : Reached (fun _ _ => True) { half.refresh ⟨false, [first]⟩ with stored := 2 } :=
    hread.step trivial (.store 2 (by decide) (by decide) (by decide))
  exact hstored.step trivial (.query false rfl (.inr rfl))

end RefreshRehearsal

open RefreshRehearsal in
/-- The refresh that finds the other control keeps the first one's user as read again, and watches
the other's by the settings it read. -/
theorem refresh_misses_none_attested :
    (∃ held, (asked.refresh ⟨false, [first, third]⟩).users first.user = some held ∧ 0 < held.read) ∧
      ∃ held, (asked.refresh ⟨false, [first, third]⟩).users third.user = some held ∧ 1 < held.read ∧
        ∀ paymentToken, (asked.refresh ⟨false, [first, third]⟩).watched third.user paymentToken =
          held.rules.watches paymentToken := by
  have hmisses := refresh_misses_none asked asked_reached ⟨false, [first, third]⟩ rfl asked_unsplit
  constructor
  · rcases hmisses 0 first rfl with ⟨-, held, seen, hheld, hlt, hle, -⟩
    exact ⟨held, hheld, hlt.trans_le hle⟩
  · rcases hmisses 1 third rfl with ⟨-, held, seen, hheld, hlt, hle, -, -, hwatched, hsame⟩
    obtain rfl := hsame (.inr (by decide))
    exact ⟨seen, hheld, hlt, hwatched⟩

open RefreshRehearsal in
/-- The second control was stored before the refresh, and its user is not held after it. -/
theorem not_refresh_misses_none :
    Reached (fun _ _ => True) whole ∧ whole.refreshing = some ⟨false, [first, second]⟩ ∧
      (whole.refresh ⟨false, [first, second]⟩).users second.user = none ∧
      ¬∀ (place : ℕ) (event : UserEvent), [first, second][place]? = some event →
        ∃ held, (whole.refresh ⟨false, [first, second]⟩).users event.user = some held ∧
          place < held.read := by
  have hmissed : (whole.refresh ⟨false, [first, second]⟩).users second.user = none := by
    decide +kernel
  refine ⟨whole_reached, rfl, hmissed, ?_⟩
  intro hall
  rcases hall 1 second rfl with ⟨held, hheld, -⟩
  rw [hmissed] at hheld
  cases hheld

end Laterite.Refreshes
