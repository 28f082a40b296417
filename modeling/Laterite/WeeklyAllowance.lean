import Laterite.ConfigLifecycle
import Laterite.ReplayedRuns
import Laterite.SweepBookkeeping

/-!
# The weekly cap over whole runs

However tiers, tokens, caps and the user's standing change between them, the pulls of one
true week stay within the cap in force at each sweep.
-/

namespace Laterite

open CheckedComputation TimedRuns TimeWindows

/-- The cap of a moment after enrollment: the trial's in the first week, then the tier's,
never above the beta's. The clock is far from the bounds of its word. -/
theorem UserConfig.toNat_weeklyCap {u : UserConfig} {now : ℤ} {betaCap tierCap : UInt64}
    (hlow : I64.minValue ≤ u.enrolledAt) (henrolled : u.enrolledAt ≤ now) (hclock : now < 2 ^ 45)
    (htier : tiers[u.tier.toNat]? = some tierCap) :
    (u.weeklyCap betaCap now).toNat =
      min (if userWeek u.enrolledAt now = 0 then trialCap.toNat else tierCap.toNat)
        betaCap.toNat := by
  have hend : I64.saturatingAdd u.enrolledAt trialSeconds = u.enrolledAt + trialSeconds := by
    unfold I64.saturatingAdd I64.maxValue trialSeconds weekSeconds daySeconds
    unfold I64.minValue at *
    omega
  have htrial : now < u.enrolledAt + trialSeconds ↔ userWeek u.enrolledAt now = 0 := by
    unfold userWeek trialSeconds weekSeconds daySeconds
    omega
  rw [UserConfig.weeklyCap, UInt64.toNat_min, hend, htier]
  by_cases hweek : userWeek u.enrolledAt now = 0
  · rw [if_pos hweek, if_pos (htrial.mpr hweek)]
  · rw [if_neg hweek, if_neg (mt htrial.mp hweek)]
    rfl

variable {d : Deployment} {accounts : Accounts} {older : List (Transition Chain Happening)}
  {t : Transition Chain Happening} {chain : Chain} {user : Pubkey} {config : Config} {event : Swept}

/-- Just before a sweep the clock is within a price's validity and the user's tier is known. -/
theorem Step.sweep_clock (ht : Step d t) (past : ProgramRun d accounts older t.before)
    (ha : userAction user t = some (.sweep config event)) :
    t.now < 2 ^ 45 ∧ t.before.config = some config ∧
      ∃ u tierCap, t.before.userConfigs user = some u ∧ tiers[u.tier.toNat]? = some tierCap := by
  obtain ⟨inv, ctx, _, _, _, paymentToken, _, _, -, hnow, rfl, hconfig, hsweep⟩ := ht.sweep_call ha
  obtain ⟨plan, _, _, _, _, _, _, _, _, hdecided, hpriced, -, -, -⟩ := sweep_ok hsweep
  obtain rfl := Option.some.inj (hdecided.config.symm.trans hconfig)
  have hfeed : plan.asset.pythFeedId ≠ 0 :=
    (hconfig ▸ past.configRun : ConfigRun _ (some plan.config)).wellFormed.feeds _
      (Vector.mem_of_getElem? hdecided.asset)
  have htier : plan.userConfig.tier.toNat < 2 := by
    have hplan := hdecided.atPlan
    simp only [Deployment.planAt, bind_eq_ok, orPanic_eq_ok] at hplan
    obtain ⟨byTier, -, hbyTier⟩ := hplan
    exact (Vector.getElem?_eq_some_iff.mp hbyTier).1
  refine ⟨hnow ▸ quote_clock hpriced.asset hfeed, hconfig, plan.userConfig,
    tiers[plan.userConfig.tier.toNat], hdecided.userConfig, ?_⟩
  exact Vector.getElem?_eq_getElem htier

/-- After every successful sweep, what all sweeps pulled from the user in the user's week, in
both payment tokens together, is within the weekly cap as of that sweep: the trial cap in
the first week, the tier's afterwards, never above the beta's. -/
theorem pulled_le_weeklyCap (run : ProgramRun d accounts (t :: older) chain)
    (ha : userAction user t = some (.sweep config event)) :
    ∃ u tierCap, t.before.userConfigs user = some u ∧ t.before.config = some config ∧
      event.user = user ∧ tiers[u.tier.toNat]? = some tierCap ∧
      spentIn (userWeek u.enrolledAt) (userWeek u.enrolledAt t.now)
          (pulls (userHistory user (t :: older))) ≤
        (u.weeklyCap config.userWeeklyCap t.now).toNat ∧
      (u.weeklyCap config.userWeeklyCap t.now).toNat =
        min (if userWeek u.enrolledAt t.now = 0 then trialCap.toNat else tierCap.toNat)
          config.userWeeklyCap.toNat := by
  obtain ⟨past, -, taken, -⟩ := Run.last run
  obtain ⟨hclock, hconfig, u, tierCap, hu, htier⟩ := taken.sweep_clock past ha
  have hlife := run.userRun user
  rw [userHistory_cons ha] at hlife ⊢
  obtain ⟨before, later, swept, -⟩ := Run.last hlife
  simp only [hu] at before swept
  have henrolled := UserRun.enrolledIn before
  obtain ⟨first, hfirst, hfirstTime⟩ := henrolled.begun
  have hlater : ∀ entry ∈ pulls (userHistory user older), entry.1 ≤ t.now := by
    intro entry he
    obtain ⟨p, hp, htime⟩ := exists_of_mem_pulls he
    exact htime ▸ later p hp
  have hcap : (u.weeklyCap config.userWeeklyCap t.now).toNat = _ :=
    UserConfig.toNat_weeklyCap henrolled.bounds.1 (hfirstTime ▸ later first hfirst) hclock htier
  generalize t.after.userConfigs user = after at swept
  cases swept with
  | sweep hsweepable =>
    refine ⟨u, tierCap, hu, hconfig, hsweepable.owner.trans henrolled.user, htier, ?_, hcap⟩
    rw [pulls_cons_sweep rfl]
    refine (UserRun.covers before).spend_le hlater ?_
    have hroom := hsweepable.allows.room
    have hpositive := hsweepable.positive
    have htotal := hsweepable.total_eq
    have hspent := u.toNat_spentAt t.now
    unfold Swept.pull at hroom
    dsimp only at hroom ⊢
    omega

/-- In a rehearsed week of two sweeps. -/
theorem pulled_le_weeklyCap_rehearsed :
    ∃ u betaCap, Rehearsal.atSweepAgain.before.userConfigs Rehearsal.user = some u ∧
      spentIn (userWeek u.enrolledAt) (userWeek u.enrolledAt Rehearsal.atSweepAgain.now)
          (pulls (userHistory Rehearsal.user (Rehearsal.atSweepAgain ::
            Rehearsal.history (Rehearsal.sweeping :: Rehearsal.beginnings)))) ≤
        (u.weeklyCap betaCap Rehearsal.atSweepAgain.now).toNat := by
  obtain ⟨config, event, ha, -⟩ := Rehearsal.userAction_atSweepAgain
  obtain ⟨u, _, hu, -, -, -, hle, -⟩ := pulled_le_weeklyCap Rehearsal.run_atSweepAgain ha
  exact ⟨u, config.userWeeklyCap, hu, hle⟩

end Laterite
