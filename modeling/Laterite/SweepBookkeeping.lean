import Laterite.TimeWindows
import Laterite.UserLifecycle
import Mathlib.Data.Int.Order.Basic

/-!
# What sweeps keep of the past

Only enrollment and sweeps write a user's week, its spending, the engine's time and the
sweep days; nothing writes the user's key or enrollment time again. The week counted in the
account is a key of the true week from enrollment, so the account's spending covers all
pulls of the week, and the engine's time is that of its last pull.
-/

namespace Laterite

open CheckedComputation TimedRuns TimeWindows

/-- The user's week at a moment, counted from enrollment without a bound. -/
def userWeek (enrolledAt now : ℤ) : ℤ := (now - enrolledAt) / weekSeconds

theorem userWeek_mono (enrolledAt : ℤ) : Monotone (userWeek enrolledAt) := by
  intro s t h
  unfold userWeek weekSeconds daySeconds
  omega

/-- The week index the program computes never splits a week. -/
theorem UserConfig.weekAt_eq_of_userWeek_eq (self : UserConfig) {s t : ℤ}
    (h : userWeek self.enrolledAt s = userWeek self.enrolledAt t) : self.weekAt s = self.weekAt t := by
  unfold UserConfig.weekAt
  congr 1
  unfold userWeek weekSeconds daySeconds at *
  unfold I64.saturatingSub I64.minValue I64.maxValue
  omega

structure UserConfig.KeepsBooks (before after : UserConfig) : Prop where
  user : after.user = before.user
  enrolledAt : after.enrolledAt = before.enrolledAt
  week : after.week = before.week
  weekSpent : after.weekSpent = before.weekSpent
  engineRanAt : after.engineRanAt = before.engineRanAt
  lastSweepDay : after.lastSweepDay = before.lastSweepDay

def UserAction.isSweep : UserAction → Bool
  | .sweep _ _ => true
  | _ => false

variable {user : Pubkey} {t : Transition (Option UserConfig) UserAction}
  {h : List (Transition (Option UserConfig) UserAction)} {u u' : UserConfig}

theorem UserStep.books (ht : UserStep user t) (hb : t.before = some u) (ha : t.after = some u') :
    (∃ config event balance total, t.event = .sweep config event ∧
        u.Sweepable t.now config event balance total ∧
        u' = u.swept event.paymentToken.toNat event.pull total t.now) ∨
      (t.event.isSweep = false ∧ u.KeepsBooks u') := by
  cases ht with
  | enroll => cases hb
  | sweep sweepable =>
    cases hb
    cases ha
    exact .inl ⟨_, _, _, _, rfl, sweepable, rfl⟩
  | _ =>
    cases hb
    cases ha
    exact .inr ⟨rfl, ⟨rfl, rfl, rfl, rfl, rfl, rfl⟩⟩

/-- What never changes once a user has enrolled: the key, and the time, that of the first step
of the history. -/
structure UserConfig.EnrolledIn (user : Pubkey) (h : List (Transition (Option UserConfig) UserAction))
    (u : UserConfig) : Prop where
  user : u.user = user
  begun : ∃ p ∈ h, p.now = u.enrolledAt
  since : ∀ p ∈ h, u.enrolledAt ≤ p.now
  bounds : I64.minValue ≤ u.enrolledAt ∧ u.enrolledAt ≤ I64.maxValue

theorem UserStep.identity (ht : UserStep user t) (hb : t.before = some u) (ha : t.after = some u') :
    u'.user = u.user ∧ u'.enrolledAt = u.enrolledAt := by
  obtain ⟨_, _, _, _, -, -, rfl⟩ | ⟨-, hbooks⟩ := ht.books hb ha
  · exact ⟨rfl, rfl⟩
  · exact ⟨hbooks.user, hbooks.enrolledAt⟩

theorem UserRun.enrolledIn (run : UserRun user h (some u)) : u.EnrolledIn user h := by
  refine run.induct (J := fun h u => u.EnrolledIn user h) ?_ ?_
  · rintro now bump params config bounds -
    exact ⟨rfl, by simp [UserConfig.enrolled], by simp [UserConfig.enrolled], bounds⟩
  · intro h t u u' _ later taken hb ha ih
    obtain ⟨huser, htime⟩ := taken.identity hb ha
    obtain ⟨first, hfirst, hfirstTime⟩ := ih.begun
    refine ⟨huser.trans ih.user, ⟨first, by simp [hfirst], hfirstTime.trans htime.symm⟩, ?_,
      htime ▸ ih.bounds⟩
    rw [htime]
    intro p hp
    rcases List.mem_cons.mp hp with rfl | hp
    · exact hfirstTime ▸ later first hfirst
    · exact ih.since p hp

def pulls (h : List (Transition (Option UserConfig) UserAction)) : List (ℤ × ℕ) :=
  h.filterMap fun t =>
    match t.event with
    | .sweep _ event => some (t.now, event.engine.toNat + event.pending.toNat)
    | _ => none

def UserConfig.meter (self : UserConfig) : Meter UInt32 := ⟨self.week, self.weekSpent.toNat⟩

theorem UserConfig.toNat_spentAt (self : UserConfig) (now : ℤ) :
    (self.spentAt now).toNat = self.meter.spentAt self.weekAt now := by
  unfold UserConfig.spentAt UserConfig.meter Meter.spentAt
  split <;> rfl

theorem pulls_cons_sweep {config : Config} {event : Swept} (ht : t.event = .sweep config event) :
    pulls (t :: h) = (t.now, event.engine.toNat + event.pending.toNat) :: pulls h := by
  simp [pulls, ht]

theorem pulls_cons_of_not_sweep (ht : t.event.isSweep = false) : pulls (t :: h) = pulls h := by
  cases he : t.event <;> simp_all [pulls, UserAction.isSweep]

/-- Every pull was made by a step of the history. -/
theorem exists_of_mem_pulls {entry : ℤ × ℕ} (he : entry ∈ pulls h) : ∃ p ∈ h, p.now = entry.1 := by
  obtain ⟨p, hp, heq⟩ := List.mem_filterMap.mp he
  refine ⟨p, hp, ?_⟩
  split at heq
  · obtain rfl := Option.some.inj heq
    rfl
  · cases heq

/-- A sweep charges the meter with its pull: the week's room keeps the sum within a word. -/
theorem UserConfig.Sweepable.meter_swept {now : ℤ} {config : Config} {event : Swept}
    {balance total : UInt64} (hs : u.Sweepable now config event balance total) :
    (u.swept event.paymentToken.toNat event.pull total now).meter =
      u.meter.spend u.weekAt (event.engine.toNat + event.pending.toNat) now := by
  have hroom := hs.allows.room
  have hcap := (u.weeklyCap config.userWeeklyCap now).toNat_lt
  have hpositive := hs.positive
  have htotal := hs.total_eq
  have hspent := u.toNat_spentAt now
  have hsum : ((u.spentAt now).saturatingAdd total).toNat =
      u.meter.spentAt u.weekAt now + (event.engine.toNat + event.pending.toNat) := by
    rw [UInt64.toNat_saturatingAdd]
    unfold Swept.pull at hroom
    dsimp only at hroom
    omega
  rw [Meter.spend, ← hsum]
  rfl

/-- The account's spending covers every pull of the week, whichever token it was made in. -/
theorem UserRun.covers (run : UserRun user h (some u)) :
    u.meter.Covers (userWeek u.enrolledAt) u.weekAt (pulls h) := by
  refine run.induct
    (J := fun h u => u.meter.Covers (userWeek u.enrolledAt) u.weekAt (pulls h)) ?_ ?_
  · intros
    exact Meter.covers_nil
  · intro h t u u' _ later taken hb ha ih
    have hlater : ∀ entry ∈ pulls h, entry.1 ≤ t.now := by
      intro entry he
      obtain ⟨p, hp, htime⟩ := exists_of_mem_pulls he
      exact htime ▸ later p hp
    obtain ⟨config, event, balance, total, hevent, hsweepable, rfl⟩ | ⟨hevent, hbooks⟩ :=
      taken.books hb ha
    · rw [pulls_cons_sweep hevent, hsweepable.meter_swept]
      exact ih.spend (userWeek_mono _) u.weekAt_eq_of_userWeek_eq hlater
    · rw [pulls_cons_of_not_sweep hevent]
      have hmeter : u'.meter = u.meter := by
        rw [UserConfig.meter, UserConfig.meter, hbooks.week, hbooks.weekSpent]
      have hkey : u'.weekAt = u.weekAt := by
        funext now
        rw [UserConfig.weekAt, UserConfig.weekAt, hbooks.enrolledAt]
      rw [hmeter, hkey, hbooks.enrolledAt]
      exact ih

end Laterite
