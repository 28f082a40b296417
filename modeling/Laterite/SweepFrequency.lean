import Laterite.ReplayedRuns
import Laterite.SweepBookkeeping

/-!
# How often sweeps and the engine run

A payment token's sweep days only grow, and the engine's time is that of its last pull
whichever token and engine made it. So one token is never swept twice in a UTC day, a daily
engine never buys twice in one, and a weekly engine never twice in a user week.
-/

namespace Laterite

open CheckedComputation TimedRuns TimeWindows

def utcDay (now : ℤ) : ℤ := now / daySeconds

variable {user : Pubkey} {t p : Transition (Option UserConfig) UserAction}
  {h : List (Transition (Option UserConfig) UserAction)} {u u' : UserConfig}

def SweepsToken (token : UInt8) (p : Transition (Option UserConfig) UserAction) : Prop :=
  ∃ config event, p.event = .sweep config event ∧ event.paymentToken = token

def PullsEngine (p : Transition (Option UserConfig) UserAction) : Prop :=
  ∃ config event, p.event = .sweep config event ∧ 0 < event.engine

theorem not_sweepsToken_of_not_sweep {token : UInt8} (ht : t.event.isSweep = false) :
    ¬SweepsToken token t := by
  rintro ⟨config, event, he, -⟩
  simp [he, UserAction.isSweep] at ht

theorem not_pullsEngine_of_not_sweep (ht : t.event.isSweep = false) : ¬PullsEngine t := by
  rintro ⟨config, event, he, -⟩
  simp [he, UserAction.isSweep] at ht

/-- The account's sweep days are at least those of all past sweeps, token by token. -/
theorem UserRun.sweepDays (run : UserRun user h (some u)) :
    ∀ p ∈ h, ∀ token, SweepsToken token p →
      ∃ day, u.lastSweepDay[token.toNat]? = some day ∧ UInt32.ofInt (utcDay p.now) ≤ day := by
  refine run.induct (J := fun h u => ∀ p ∈ h, ∀ token, SweepsToken token p →
    ∃ day, u.lastSweepDay[token.toNat]? = some day ∧ UInt32.ofInt (utcDay p.now) ≤ day) ?_ ?_
  · intro now bump params config _ _ p hp token hsweeps
    obtain rfl := List.mem_singleton.mp hp
    exact absurd hsweeps (not_sweepsToken_of_not_sweep rfl)
  · intro h t u u' _ _ taken hb ha ih p hp token hsweeps
    obtain ⟨config, event, balance, total, hevent, hsweepable, rfl⟩ | ⟨hevent, hbooks⟩ :=
      taken.books hb ha
    · obtain ⟨lastDay, hlast, hfresh⟩ := hsweepable.fresh
      have hbound := (Vector.getElem?_eq_some_iff.mp hlast).1
      by_cases hsame : token = event.paymentToken
      · subst hsame
        refine ⟨_, by simp [UserConfig.swept, hbound]; rfl, ?_⟩
        rcases List.mem_cons.mp hp with rfl | hp
        · exact UInt32.le_refl _
        · obtain ⟨day, hday, hle⟩ := ih p hp _ hsweeps
          obtain rfl := Option.some.inj (hday.symm.trans hlast)
          exact UInt32.le_of_lt (UInt32.lt_of_le_of_lt hle hfresh)
      · have hne : event.paymentToken.toNat ≠ token.toNat :=
          fun heq => hsame (UInt8.toNat_inj.mp heq).symm
        rcases List.mem_cons.mp hp with rfl | hp
        · obtain ⟨config', event', hevent', htoken⟩ := hsweeps
          cases hevent.symm.trans hevent'
          exact absurd htoken.symm hsame
        · obtain ⟨day, hday, hle⟩ := ih p hp _ hsweeps
          refine ⟨day, ?_, hle⟩
          rw [UserConfig.swept, Vector.getElem?_setIfInBounds_ne hne]
          exact hday
    · rcases List.mem_cons.mp hp with rfl | hp
      · exact absurd hsweeps (not_sweepsToken_of_not_sweep hevent)
      · rw [hbooks.lastSweepDay]
        exact ih p hp token hsweeps

/-- Once the engine has pulled, the account's engine time is that of its last pull. -/
theorem UserRun.engineRanAt (run : UserRun user h (some u)) :
    ∀ p ∈ h, PullsEngine p → p.now ≤ u.engineRanAt ∧ ∃ q ∈ h, q.now = u.engineRanAt := by
  refine run.induct (J := fun h u =>
    ∀ p ∈ h, PullsEngine p → p.now ≤ u.engineRanAt ∧ ∃ q ∈ h, q.now = u.engineRanAt) ?_ ?_
  · intro now bump params config _ _ p hp hpulls
    obtain rfl := List.mem_singleton.mp hp
    exact absurd hpulls (not_pullsEngine_of_not_sweep rfl)
  · intro h t u u' _ later taken hb ha ih p hp hpulls
    have hkept : p ∈ h → u'.engineRanAt = u.engineRanAt →
        p.now ≤ u'.engineRanAt ∧ ∃ q ∈ t :: h, q.now = u'.engineRanAt := by
      intro hp heq
      obtain ⟨hle, q, hq, hqTime⟩ := ih p hp hpulls
      rw [heq]
      exact ⟨hle, q, by simp [hq], hqTime⟩
    obtain ⟨config, event, balance, total, hevent, -, rfl⟩ | ⟨hevent, hbooks⟩ := taken.books hb ha
    · by_cases hengine : event.engine > 0
      · have htime : (u.swept event.paymentToken.toNat event.pull total t.now).engineRanAt = t.now :=
          if_pos hengine
        rw [htime]
        rcases List.mem_cons.mp hp with rfl | hp
        · exact ⟨le_refl _, p, by simp, rfl⟩
        · exact ⟨later p hp, t, by simp, rfl⟩
      · rcases List.mem_cons.mp hp with rfl | hp
        · obtain ⟨config', event', hevent', hpulled⟩ := hpulls
          cases hevent.symm.trans hevent'
          exact absurd hpulled hengine
        · exact hkept hp (if_neg hengine)
    · rcases List.mem_cons.mp hp with rfl | hp
      · exact absurd hpulls (not_pullsEngine_of_not_sweep hevent)
      · exact hkept hp hbooks.engineRanAt

/-- A due engine has not pulled in its own period: the UTC day of a daily one, the user week,
in an open session, of a weekly one. -/
theorem UserRun.engineDue_fresh {calendar : MarketCalendar} {now : ℤ}
    (run : UserRun user h (some u)) (later : ∀ p ∈ h, p.now ≤ now)
    (due : u.engineDue calendar now = true) :
    (u.engine = .daily → ∀ p ∈ h, PullsEngine p → utcDay p.now ≠ utcDay now) ∧
      (u.engine = .weekly → usMarketOpen now calendar = true ∧
        ∀ p ∈ h, PullsEngine p → userWeek u.enrolledAt p.now ≠ userWeek u.enrolledAt now) := by
  have hran : ∀ p ∈ h, PullsEngine p → p.now ≤ u.engineRanAt ∧ u.engineRanAt ≤ now ∧
      u.enrolledAt ≤ u.engineRanAt := by
    intro p hp hpulls
    obtain ⟨hle, q, hq, hqTime⟩ := run.engineRanAt p hp hpulls
    exact ⟨hle, hqTime ▸ later q hq, (run.enrolledIn.since p hp).trans hle⟩
  refine ⟨fun hdaily p hp hpulls => ?_, fun hweekly => ?_⟩
  · obtain ⟨hle, -, hsince⟩ := hran p hp hpulls
    simp only [UserConfig.engineDue, hdaily, Bool.or_eq_true, Bool.not_eq_true',
      decide_eq_false_iff_not, decide_eq_true_eq] at due
    have hday := due.resolve_left (not_not.mpr hsince)
    unfold utcDay daySeconds at *
    omega
  · simp only [UserConfig.engineDue, hweekly, Bool.and_eq_true, Bool.or_eq_true, Bool.not_eq_true',
      decide_eq_false_iff_not, decide_eq_true_eq] at due
    refine ⟨due.2, fun p hp hpulls => ?_⟩
    obtain ⟨hle, hnow, hsince⟩ := hran p hp hpulls
    have hweek := due.1.resolve_left (not_not.mpr hsince)
    exact window_ne_of_key_ne (userWeek_mono _) u.weekAt_eq_of_userWeek_eq hle hnow (UInt32.ne_of_lt hweek)

variable {d : Deployment} {accounts : Accounts} {older : List (Transition Chain Happening)}
  {t : Transition Chain Happening} {chain : Chain} {config : Config} {event : Swept}

/-- No payment token of a user is swept twice in one UTC day. A sweep that pulls an engine part
follows no other engine pull of the same UTC day while the engine is daily; while it is weekly
it follows none of the same user week and falls in a regular session of the calendar in force. -/
theorem sweep_frequency (run : ProgramRun d accounts (t :: older) chain)
    (ha : userAction user t = some (.sweep config event)) :
    (∀ p ∈ older, ∀ config' event', userAction user p = some (.sweep config' event') →
        event'.paymentToken = event.paymentToken → utcDay p.now ≠ utcDay t.now) ∧
      ∃ u, t.before.userConfigs user = some u ∧ t.before.config = some config ∧
        (0 < event.engine → u.engine = .daily →
          ∀ p ∈ older, ∀ config' event', userAction user p = some (.sweep config' event') →
            0 < event'.engine → utcDay p.now ≠ utcDay t.now) ∧
        (0 < event.engine → u.engine = .weekly →
          usMarketOpen t.now config.marketCalendar = true ∧
          ∀ p ∈ older, ∀ config' event', userAction user p = some (.sweep config' event') →
            0 < event'.engine → userWeek u.enrolledAt p.now ≠ userWeek u.enrolledAt t.now) := by
  obtain ⟨-, -, taken, -⟩ := Run.last run
  obtain ⟨_, _, _, _, _, _, _, _, -, -, -, hconfig, -⟩ := taken.sweep_call ha
  have hlife := run.userRun user
  rw [userHistory_cons ha] at hlife
  obtain ⟨before, later, swept, -⟩ := Run.last hlife
  dsimp only at before swept later
  generalize hbefore : t.before.userConfigs user = s at before swept
  generalize t.after.userConfigs user = s' at swept
  cases swept with
  | @sweep now u config event balance total hsweepable =>
    refine ⟨?_, u, rfl, hconfig, ?_, ?_⟩
    · intro p hp config' event' hp' htoken hday
      obtain ⟨day, hlast, hle⟩ := UserRun.sweepDays before _ (mem_userHistory hp hp') _
        ⟨config', event', rfl, htoken⟩
      obtain ⟨lastDay, hlast', hfresh⟩ := hsweepable.fresh
      obtain rfl := Option.some.inj (hlast.symm.trans hlast')
      rw [hday] at hle
      exact absurd (UInt32.lt_of_le_of_lt hle hfresh) (UInt32.lt_irrefl _)
    · intro hengine hdaily p hp config' event' hp' hengine'
      have hdue := hsweepable.allows.engine (UInt64.lt_iff_toNat_lt.mp hengine)
      exact (UserRun.engineDue_fresh before later hdue).1 hdaily _ (mem_userHistory hp hp')
        ⟨config', event', rfl, hengine'⟩
    · intro hengine hweekly
      have hdue := hsweepable.allows.engine (UInt64.lt_iff_toNat_lt.mp hengine)
      obtain ⟨hopen, hfresh⟩ := (UserRun.engineDue_fresh before later hdue).2 hweekly
      refine ⟨hopen, fun p hp config' event' hp' hengine' => ?_⟩
      exact hfresh _ (mem_userHistory hp hp') ⟨config', event', rfl, hengine'⟩

/-- The rehearsed sweeps of one token fall on two days. -/
theorem sweep_frequency_rehearsed : utcDay Rehearsal.atSweep.now ≠ utcDay Rehearsal.atSweepAgain.now := by
  obtain ⟨_, _, hfirst, hfirstToken, -⟩ := Rehearsal.userAction_atSweep
  obtain ⟨_, _, hsecond, hsecondToken, -⟩ := Rehearsal.userAction_atSweepAgain
  have hfrequency := (sweep_frequency Rehearsal.run_atSweepAgain hsecond).1
  exact hfrequency _ List.mem_cons_self _ _ hfirst (hfirstToken.trans hsecondToken.symm)

end Laterite
