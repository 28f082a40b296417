import Laterite.ConfigLifecycle
import Laterite.CountedKeys
import Laterite.ReplayedRuns
import Laterite.UserLifecycle

/-!
# The seats of the beta

The config counts the users who have not exited. Enrollment and reactivation take a seat,
leaving frees one, and nothing else moves either side of the count.
-/

namespace Laterite

open CheckedComputation TimedRuns CountedKeys

def Seated (s : Option UserConfig) : Prop := ∃ u, s = some u ∧ u.status ≠ .exited

def Chain.seatedUsers (self : Chain) : Set Pubkey := holders Seated self.userConfigs

def Chain.userCount (self : Chain) : ℕ := self.config.elim 0 fun c => c.userCount.toNat

/-- The config counts the seated users. -/
def Chain.CountsSeats (self : Chain) : Prop := self.seatedUsers.encard = self.userCount

theorem not_seated_none : ¬Seated none := by
  rintro ⟨u, h, -⟩
  cases h

theorem seated_some {u : UserConfig} : Seated (some u) ↔ u.status ≠ .exited := by
  simp [Seated]

def Call.takesSeat : Call → Option Pubkey
  | .enroll user _ _ _ => some user
  | .reactivate user _ _ _ => some user
  | _ => none

def Call.freesSeat : Call → Option Pubkey
  | .exit user _ => some user
  | _ => none

variable {d : Deployment} {inv : Invocation} {before after : Chain} {t : Transition Chain Happening}
  {call : Call} {event : Option Event}

/-- A user's step that is not a call that moves a seat leaves the user where they were. -/
theorem UserStep.seated_iff {user : Pubkey} {t : Transition (Option UserConfig) UserAction}
    (ht : UserStep user t) (henroll : ∀ params, t.event ≠ .enroll params)
    (hexit : t.event ≠ .exit) (hreactivate : ∀ params, t.event ≠ .reactivate params) :
    Seated t.after ↔ Seated t.before := by
  cases ht with
  | enroll => exact absurd rfl (henroll _)
  | exit => exact absurd rfl hexit
  | reactivate => exact absurd rfl (hreactivate _)
  | pause active => simp [seated_some, active]
  | resume paused => simp [seated_some, UserConfig.raiseAttestableFrom, paused]
  | _ => simp [seated_some, UserConfig.swept, UserConfig.raisedIf, UserConfig.setSettings]

theorem ConfigStep.userCount_eq {t : Transition (Option Config) (Signers × ConfigAction)}
    (ht : ConfigStep t) (htake : ∀ user, t.event.2 ≠ .takeSeat user)
    (hfree : ∀ user, t.event.2 ≠ .freeSeat user) :
    (t.after.elim 0 fun c => c.userCount.toNat) = t.before.elim 0 fun c => c.userCount.toNat := by
  cases ht with
  | takeSeat => exact absurd rfl (htake _)
  | freeSeat => exact absurd rfl (hfree _)
  | _ => rfl

theorem Call.actionOn_of_no_seat {user : Pubkey} {config : Option Config} {action : UserAction}
    (htakes : call.takesSeat = none) (hfrees : call.freesSeat = none)
    (h : call.actionOn user config event = some action) :
    (∀ params, action ≠ .enroll params) ∧ action ≠ .exit ∧ ∀ params, action ≠ .reactivate params := by
  unfold Call.actionOn at h
  split at h
  case h_11 => cases h
  case h_3 =>
    split at h
    · obtain ⟨_, -, rfl⟩ := Option.map_eq_some_iff.mp h
      simp
    · cases h
  all_goals
    split at h
    · cases h
      simp_all [Call.takesSeat, Call.freesSeat]
    · cases h

theorem Step.seats_of_no_seat (ht : Step d t) (hcalled : t.event = .called inv call (.ok event))
    (htakes : call.takesSeat = none) (hfrees : call.freesSeat = none) :
    (∀ user, Seated (t.after.userConfigs user) ↔ Seated (t.before.userConfigs user)) ∧
      t.after.userCount = t.before.userCount := by
  constructor
  · intro user
    obtain ⟨-, hsame⟩ | ⟨action, haction, hstep⟩ := ht.userStep user
    · rw [hsame]
    · simp only [userAction, hcalled] at haction
      obtain ⟨h₁, h₂, h₃⟩ := Call.actionOn_of_no_seat htakes hfrees haction
      exact hstep.seated_iff h₁ h₂ h₃
  · obtain ⟨-, hsame⟩ | ⟨⟨signers, action⟩, haction, hstep⟩ := ht.configStep
    · rw [Chain.userCount, hsame, Chain.userCount]
    · simp only [configAction, hcalled, Option.map_eq_some_iff, Prod.mk.injEq] at haction
      obtain ⟨action, haction, -, rfl⟩ := haction
      refine hstep.userCount_eq ?_ ?_
      · rintro user rfl
        cases call <;> simp_all [Call.configAction, Call.takesSeat, Call.freesSeat]
      · rintro user rfl
        cases call <;> simp_all [Call.configAction, Call.takesSeat, Call.freesSeat]

structure SeatTaken (user : Pubkey) (b a : Config) (before after : Chain) : Prop where
  configBefore : before.config = some b
  configAfter : after.config = some a
  userConfigs : ∃ u, after.userConfigs = Function.update before.userConfigs user (some u) ∧
    u.status ≠ .exited
  unseated : ¬Seated (before.userConfigs user)
  room : b.userCount < b.maxUsers
  counted : a.userCount.toNat = b.userCount.toNat + 1

structure SeatFreed (user : Pubkey) (b a : Config) (before after : Chain) : Prop where
  configBefore : before.config = some b
  configAfter : after.config = some a
  userConfigs : ∃ u, after.userConfigs = Function.update before.userConfigs user (some u) ∧
    u.status = .exited
  seated : Seated (before.userConfigs user)
  counted : a.userCount = b.userCount.saturatingSub 1

theorem seatTaken_of_enroll {user payer : Pubkey} {params : EnrollParams}
    {subscriptions : List Pubkey} {event : Event}
    (h : enroll d inv before user payer params subscriptions = .ok (event, after)) :
    ∃ b a, SeatTaken user b a before after := by
  obtain ⟨config, userCount, -, -, hconfig, -, hnone, -, hroom, -, -, hcount, rfl⟩ := enroll_ok h
  exact ⟨config, _, hconfig, rfl, ⟨_, rfl, nofun⟩, hnone ▸ not_seated_none, hroom, hcount⟩

theorem seatTaken_of_reactivate {user sponsor : Pubkey} {params : EnrollParams}
    {subscriptions : List Pubkey} {event : Event}
    (h : reactivate d inv before user sponsor params subscriptions = .ok (event, after)) :
    ∃ b a, SeatTaken user b a before after := by
  obtain ⟨config, u, userCount, -, -, hconfig, -, hu, hexited, -, hroom, -, -, hcount, rfl⟩ :=
    reactivate_ok h
  exact ⟨config, _, hconfig, rfl, ⟨_, rfl, nofun⟩, by simp [hu, seated_some, hexited], hroom,
    hcount⟩

theorem seatFreed_of_exit {user : Pubkey} {remainingAccounts : List Pubkey} {event : Event}
    (h : exit d inv before user remainingAccounts = .ok (event, after)) :
    ∃ b a, SeatFreed user b a before after := by
  obtain ⟨config, u, _, hconfig, huser, -, rfl⟩ := exit_ok h
  obtain ⟨-, hu, hx⟩ := userOnly_eq_ok.mp huser
  exact ⟨config, _, hconfig, rfl, ⟨_, rfl, rfl⟩, by simpa [hu, seated_some] using hx, rfl⟩

variable {user : Pubkey} {b a : Config}

theorem SeatTaken.countsSeats (h : SeatTaken user b a before after) (hb : before.CountsSeats) :
    after.CountsSeats := by
  obtain ⟨u, hupdate, hstatus⟩ := h.userConfigs
  have hcount := encard_update_enter hb h.unseated (seated_some.mpr hstatus)
  rw [Chain.CountsSeats, Chain.seatedUsers, hupdate, hcount, Chain.userCount, h.configBefore,
    Chain.userCount, h.configAfter]
  simp [h.counted]

theorem SeatFreed.countsSeats (h : SeatFreed user b a before after) (hb : before.CountsSeats) :
    after.CountsSeats := by
  obtain ⟨u, hupdate, hstatus⟩ := h.userConfigs
  have hcount := encard_update_leave hb h.seated (mt seated_some.mp (not_not.mpr hstatus))
  rw [Chain.CountsSeats, Chain.seatedUsers, hupdate, hcount, Chain.userCount, h.configBefore,
    Chain.userCount, h.configAfter]
  simp [h.counted, UInt32.toNat_saturatingSub]

theorem Step.seatTaken (ht : Step d t) (hcalled : t.event = .called inv call (.ok event))
    (htakes : call.takesSeat = some user) : ∃ b a, SeatTaken user b a t.before t.after := by
  obtain ⟨-, hok⟩ := ht.execute_of_ok hcalled
  cases call <;> cases htakes
  all_goals
    rw [execute, emitting_eq_ok] at hok
    obtain ⟨_, -, hok⟩ := hok
  · exact seatTaken_of_enroll hok
  · exact seatTaken_of_reactivate hok

theorem Step.seatFreed (ht : Step d t) (hcalled : t.event = .called inv call (.ok event))
    (hfrees : call.freesSeat = some user) : ∃ b a, SeatFreed user b a t.before t.after := by
  obtain ⟨-, hok⟩ := ht.execute_of_ok hcalled
  cases call <;> cases hfrees
  rw [execute, emitting_eq_ok] at hok
  obtain ⟨_, -, hok⟩ := hok
  exact seatFreed_of_exit hok

theorem Step.countsSeats (ht : Step d t) (hb : t.before.CountsSeats) : t.after.CountsSeats := by
  obtain ⟨inv, call, event, hcalled, -, -⟩ | ⟨_, _, _, -, hafter, -⟩ | ⟨-, accounts, hafter⟩ :=
    ht.cases_on_outcome
  · cases htakes : call.takesSeat with
    | some user =>
      obtain ⟨b, a, htaken⟩ := ht.seatTaken hcalled htakes
      exact htaken.countsSeats hb
    | none =>
      cases hfrees : call.freesSeat with
      | some user =>
        obtain ⟨b, a, hfreed⟩ := ht.seatFreed hcalled hfrees
        exact hfreed.countsSeats hb
      | none =>
        obtain ⟨hseated, hcount⟩ := ht.seats_of_no_seat hcalled htakes hfrees
        rw [Chain.CountsSeats, Chain.seatedUsers, hcount, holders_congr hseated]
        exact hb
  · rwa [hafter]
  · rw [hafter]
    exact hb

variable {accounts : Accounts} {history : List (Transition Chain Happening)} {chain : Chain}

/-- In every state of a run the config's count is the number of users who have not exited. -/
theorem ProgramRun.countsSeats (run : ProgramRun d accounts history chain) : chain.CountsSeats := by
  refine Run.invariant (I := Chain.CountsSeats) run ?_ fun t ht => ht.countsSeats
  rw [Chain.CountsSeats, Chain.seatedUsers, Set.encard_eq_zero.mpr]
  · rfl
  · ext user
    simp [Chain.genesis, not_seated_none]

/-- A seated user is counted, so leaving never finds the count at zero. -/
theorem ProgramRun.one_le_userCount {c : Config} (run : ProgramRun d accounts history chain)
    (hc : chain.config = some c) (hseated : Seated (chain.userConfigs user)) :
    1 ≤ c.userCount.toNat := by
  have hcounts := one_le_of_mem run.countsSeats hseated
  rwa [Chain.userCount, hc] at hcounts

/-- In every state the config's count is the number of users who have not exited: it is not
zero while there is one, and below the limit it is below its word's bound. A call that fails
changes nothing; a successful enrollment or reactivation finds room and adds a user who had no
seat, a successful exit removes one who had, and no other call moves the count. -/
theorem seat_count (run : ProgramRun d accounts history chain) :
    (∀ c, chain.config = some c →
      chain.seatedUsers.encard = c.userCount.toNat ∧
      (∀ user ∈ chain.seatedUsers, 1 ≤ c.userCount.toNat) ∧
      (c.userCount < c.maxUsers → c.userCount.toNat + 1 < 2 ^ 32)) ∧
    ∀ t ∈ history, ∀ inv call outcome, t.event = .called inv call outcome →
      (∀ fault, outcome = .error fault → t.after = t.before) ∧
      ∀ event, outcome = .ok event →
        (∀ user, call.takesSeat = some user → ∃ b a, SeatTaken user b a t.before t.after) ∧
        (∀ user, call.freesSeat = some user → ∃ b a, SeatFreed user b a t.before t.after ∧
          a.userCount.toNat + 1 = b.userCount.toNat) ∧
        (call.takesSeat = none → call.freesSeat = none → t.after.userCount = t.before.userCount) := by
  constructor
  · intro c hc
    refine ⟨?_, fun user hseated => run.one_le_userCount hc hseated, ?_⟩
    · have hcounts := run.countsSeats
      rwa [Chain.CountsSeats, Chain.userCount, hc] at hcounts
    · intro hroom
      have hlt := UInt32.lt_iff_toNat_lt.mp hroom
      have hmax := c.maxUsers.toNat_lt
      omega
  · rintro t ht inv call outcome hcalled
    obtain ⟨older, -, past, taken, -⟩ := Run.at_mem run ht
    constructor
    · rintro fault rfl
      obtain ⟨_, _, _, hcalled', -, -⟩ | ⟨_, _, _, -, hafter, -⟩ | ⟨houtside, -⟩ :=
        taken.cases_on_outcome
      · cases hcalled.symm.trans hcalled'
      · exact hafter
      · cases hcalled.symm.trans houtside
    · rintro event rfl
      refine ⟨fun user => taken.seatTaken hcalled, fun user hfrees => ?_, fun htakes hfrees =>
        (taken.seats_of_no_seat hcalled htakes hfrees).2⟩
      obtain ⟨b, a, hfreed⟩ := taken.seatFreed hcalled hfrees
      have hone := ProgramRun.one_le_userCount past hfreed.configBefore hfreed.seated
      refine ⟨b, a, hfreed, ?_⟩
      rw [hfreed.counted, UInt32.toNat_saturatingSub]
      exact Nat.sub_add_cancel hone

/-- The rehearsed config counts its one user. -/
theorem seat_count_rehearsed :
    ∃ c, (Rehearsal.ledger Rehearsal.beginnings).config = some c ∧
      (Rehearsal.ledger Rehearsal.beginnings).seatedUsers.encard = c.userCount.toNat := by
  have hsome : (Rehearsal.ledger Rehearsal.beginnings).config.isSome = true := by decide +kernel
  obtain ⟨c, hc⟩ := Option.isSome_iff_exists.mp hsome
  exact ⟨c, hc, ((seat_count (Rehearsal.ledger_run Rehearsal.beginnings (by decide))).1 c hc).1⟩

end Laterite
