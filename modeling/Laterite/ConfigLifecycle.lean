import Laterite.SweepOutcome

/-!
# The life of the config

Seen from the config alone, a run of the program is a run of a small system: its creation,
the admin's changes, the two-step handover, and the seats users take and free. Each step
carries the signers of its call.
-/

namespace Laterite

open CheckedComputation TimedRuns

inductive ConfigAction where
  | initializeConfig (authority : Pubkey) (params : ConfigParams)
  | updateConfig (settings : Settings)
  | setPaused (paused : Bool)
  | setMarketCalendar (holidays earlyCloses : List UInt16) (validThrough : UInt16)
  | proposeAdmin (newAdmin : Pubkey)
  | acceptAdmin (pendingAdmin : Pubkey)
  | takeSeat (user : Pubkey)
  | freeSeat (user : Pubkey)
  deriving DecidableEq

def Call.configAction : Call → Option ConfigAction
  | .initializeConfig authority params _ => some (.initializeConfig authority params)
  | .updateConfig _ settings => some (.updateConfig settings)
  | .setPaused _ paused => some (.setPaused paused)
  | .setMarketCalendar _ holidays earlyCloses validThrough =>
    some (.setMarketCalendar holidays earlyCloses validThrough)
  | .proposeAdmin _ newAdmin => some (.proposeAdmin newAdmin)
  | .acceptAdmin pendingAdmin => some (.acceptAdmin pendingAdmin)
  | .enroll user _ _ _ => some (.takeSeat user)
  | .exit user _ => some (.freeSeat user)
  | .reactivate user _ _ _ => some (.takeSeat user)
  | _ => none

/-- What one moment of the deployment means to the config, with the call's signers. -/
def configAction (t : Transition Chain Happening) : Option (Signers × ConfigAction) :=
  match t.event with
  | .called inv call (.ok _) => call.configAction.map fun action => (inv.signers, action)
  | _ => none

def configHistory (history : List (Transition Chain Happening)) :
    List (Transition (Option Config) (Signers × ConfigAction)) :=
  history.filterMap fun t => (configAction t).map fun action =>
    ⟨t.now, action, t.before.config, t.after.config⟩

theorem Settings.validate_eq_ok {settings : Settings} {u : Unit} :
    settings.validate = .ok u ↔ settings.attestor ≠ Pubkey.default ∧
      settings.sponsor ≠ Pubkey.default ∧ 0 < settings.userWeeklyCap ∧ 0 < settings.maxUsers := by
  simp only [Settings.validate, bind_eq_ok, require_eq_ok, exists_const, gt_iff_lt]

structure ConfigParams.Valid (params : ConfigParams) : Prop where
  settings : params.settings.validate = .ok ()
  router : params.router ≠ Pubkey.default
  genesisHash : params.genesisHash ≠ Vector.replicate 32 0
  feeds : ∀ asset ∈ params.assets, asset.pythFeedId ≠ 0
  decimals : ∀ token ∈ params.paymentTokens, token.decimals = usdDecimals

/-- A check of every entry of a table against the accounts given for it checks every entry. -/
private theorem forall_of_zip {α : Type} {n : ℕ} {table : Vector α n} {accounts : List AccountInfo}
    {P : α → Prop} (hlen : n ≤ accounts.length)
    (h : ∀ pair ∈ table.toList.zip accounts, P pair.1) : ∀ entry ∈ table, P entry := by
  intro entry hentry
  obtain ⟨i, hi, rfl⟩ := Vector.mem_iff_getElem.mp hentry
  refine h (table[i], accounts[i]) (List.mem_iff_getElem.mpr ⟨i, ?_, ?_⟩)
  · rw [List.length_zip, Vector.length_toList]
    omega
  · simp

theorem ConfigParams.valid_of_validate {d : Deployment} {params : ConfigParams}
    {mints : List AccountInfo} (h : params.validate d mints = .ok ()) : params.Valid := by
  simp only [ConfigParams.validate, bind_eq_ok, require_eq_ok, exists_const, sliceFrom_eq_ok,
    forEach_eq_ok] at h
  obtain ⟨_, hsettings, hrouter, hgenesis, hlen, hassets, _, ⟨-, rfl⟩, htokens⟩ := h
  have hassetsLen : assetCount ≤ mints.length := by
    unfold assetCount at *
    omega
  have htokensLen : paymentTokenCount ≤ (mints.drop assetCount).length := by
    rw [List.length_drop]
    omega
  exact ⟨hsettings, hrouter, hgenesis, forall_of_zip hassetsLen fun pair hp => (hassets pair hp).1,
    forall_of_zip htokensLen fun pair hp => (htokens pair hp).1⟩

inductive ConfigStep : Transition (Option Config) (Signers × ConfigAction) → Prop
  | initializeConfig {now : ℤ} {signers : Signers} {authority : Pubkey} {params : ConfigParams}
      (signed : authority ∈ signers.keys) (valid : params.Valid) :
      ConfigStep ⟨now, (signers, .initializeConfig authority params), none, some (params.toConfig authority)⟩
  | updateConfig {now : ℤ} {signers : Signers} {c : Config} {settings : Settings}
      (signed : c.admin ∈ signers.keys) (valid : settings.validate = .ok ()) :
      ConfigStep ⟨now, (signers, .updateConfig settings), some c, some (c.apply settings)⟩
  | setPaused {now : ℤ} {signers : Signers} {c : Config} {paused : Bool}
      (signed : c.admin ∈ signers.keys) :
      ConfigStep ⟨now, (signers, .setPaused paused), some c, some { c with paused := paused }⟩
  | setMarketCalendar {now : ℤ} {signers : Signers} {c : Config} {holidays earlyCloses : List UInt16}
      {validThrough : UInt16} {calendar : MarketCalendar} (signed : c.admin ∈ signers.keys)
      (loaded : MarketCalendar.new holidays earlyCloses validThrough (now / daySeconds) =
        .ok calendar) :
      ConfigStep ⟨now, (signers, .setMarketCalendar holidays earlyCloses validThrough), some c,
        some { c with marketCalendar := calendar }⟩
  | proposeAdmin {now : ℤ} {signers : Signers} {c : Config} {newAdmin : Pubkey}
      (signed : c.admin ∈ signers.keys) :
      ConfigStep ⟨now, (signers, .proposeAdmin newAdmin), some c,
        some { c with pendingAdmin := newAdmin }⟩
  | acceptAdmin {now : ℤ} {signers : Signers} {c : Config} (signed : c.pendingAdmin ∈ signers.keys) :
      ConfigStep ⟨now, (signers, .acceptAdmin c.pendingAdmin), some c,
        some { c with admin := c.pendingAdmin, pendingAdmin := Pubkey.default }⟩
  | takeSeat {now : ℤ} {signers : Signers} {c : Config} {user : Pubkey} {userCount : UInt32}
      (signed : user ∈ signers.keys) (sponsored : c.sponsor ∈ signers.keys)
      (notPaused : c.paused = false) (room : c.userCount < c.maxUsers)
      (counted : userCount.toNat = c.userCount.toNat + 1) :
      ConfigStep ⟨now, (signers, .takeSeat user), some c, some { c with userCount := userCount }⟩
  | freeSeat {now : ℤ} {signers : Signers} {c : Config} {user : Pubkey}
      (signed : user ∈ signers.keys) :
      ConfigStep ⟨now, (signers, .freeSeat user), some c,
        some { c with userCount := c.userCount.saturatingSub 1 }⟩

variable {d : Deployment} {inv : Invocation} {before after : Chain}

/-- Seen from the config, a successful call meant nothing or was a step. -/
private theorem execute_configStep {call : Call} {event : Option Event}
    (h : execute d inv before call = .ok (event, after)) :
    (call.configAction = none ∧ after.config = before.config) ∨
      ∃ action, call.configAction = some action ∧
        ConfigStep ⟨inv.now, (inv.signers, action), before.config, after.config⟩ := by
  cases call <;> simp only [execute, emitting_eq_ok] at h
  case initializeConfig =>
    obtain ⟨_, rfl, h⟩ := h
    obtain ⟨hs, hnone, -, hvalid, rfl⟩ := initializeConfig_ok h
    refine .inr ⟨_, rfl, ?_⟩
    rw [hnone]
    exact .initializeConfig hs (ConfigParams.valid_of_validate hvalid)
  case updateConfig =>
    obtain ⟨_, rfl, h⟩ := h
    obtain ⟨c, hadmin, hvalid, rfl⟩ := updateConfig_ok h
    obtain ⟨hs, hc, rfl⟩ := adminOnly_eq_ok.mp hadmin
    refine .inr ⟨_, rfl, ?_⟩
    rw [hc]
    exact .updateConfig hs hvalid
  case setPaused =>
    obtain ⟨_, rfl, h⟩ := h
    obtain ⟨c, hadmin, rfl⟩ := setPaused_ok h
    obtain ⟨hs, hc, rfl⟩ := adminOnly_eq_ok.mp hadmin
    refine .inr ⟨_, rfl, ?_⟩
    rw [hc]
    exact .setPaused hs
  case setMarketCalendar =>
    obtain ⟨_, rfl, h⟩ := h
    obtain ⟨c, calendar, hadmin, hcalendar, rfl⟩ := setMarketCalendar_ok h
    obtain ⟨hs, hc, rfl⟩ := adminOnly_eq_ok.mp hadmin
    refine .inr ⟨_, rfl, ?_⟩
    rw [hc]
    exact .setMarketCalendar hs hcalendar
  case proposeAdmin =>
    obtain ⟨_, rfl, h⟩ := h
    obtain ⟨c, hadmin, rfl⟩ := proposeAdmin_ok h
    obtain ⟨hs, hc, rfl⟩ := adminOnly_eq_ok.mp hadmin
    refine .inr ⟨_, rfl, ?_⟩
    rw [hc]
    exact .proposeAdmin hs
  case acceptAdmin =>
    obtain ⟨_, rfl, h⟩ := h
    obtain ⟨c, hs, hc, rfl, rfl⟩ := acceptAdmin_ok h
    refine .inr ⟨_, rfl, ?_⟩
    rw [hc]
    exact .acceptAdmin hs
  case createPlan =>
    obtain ⟨_, rfl, h⟩ := h
    obtain ⟨_, _, -, rfl⟩ := createPlan_ok h
    exact .inl ⟨rfl, rfl⟩
  case enroll =>
    obtain ⟨_, rfl, h⟩ := h
    obtain ⟨c, userCount, hu, hp, hc, rfl, -, hpaused, hroom, -, -, hcount, rfl⟩ := enroll_ok h
    refine .inr ⟨_, rfl, ?_⟩
    rw [hc]
    exact .takeSeat hu hp hpaused hroom hcount
  case attest =>
    obtain ⟨_, rfl, h⟩ := h
    obtain ⟨_, _, _, _, -, -, -, -, -, -, -, -, -, -, -, -, -, -, rfl⟩ := attest_ok h
    exact .inl ⟨rfl, rfl⟩
  case closeAttestation =>
    simp only [bind_eq_ok, pure_eq_ok, Prod.mk.injEq] at h
    obtain ⟨_, h, rfl, rfl⟩ := h
    obtain ⟨_, -, -, -, rfl⟩ := closeAttestation_ok h
    exact .inl ⟨rfl, rfl⟩
  case sweep =>
    obtain ⟨_, rfl, h⟩ := h
    obtain ⟨_, _, _, _, _, _, _, _, _, -, -, -, -, rfl⟩ := sweep_ok h
    exact .inl ⟨rfl, rfl⟩
  case updateSettings =>
    obtain ⟨_, rfl, h⟩ := h
    obtain ⟨_, -, -, -, -, rfl⟩ := updateSettings_ok h
    exact .inl ⟨rfl, rfl⟩
  case setUserPaused =>
    obtain ⟨_, rfl, h⟩ := h
    obtain ⟨_, -, ⟨-, -, rfl⟩ | ⟨-, -, rfl⟩⟩ := setUserPaused_ok h
    · exact .inl ⟨rfl, rfl⟩
    · exact .inl ⟨rfl, rfl⟩
  case lowerPending =>
    obtain ⟨_, rfl, h⟩ := h
    obtain ⟨_, -, -, rfl⟩ := lowerPending_ok h
    exact .inl ⟨rfl, rfl⟩
  case changeTier =>
    obtain ⟨_, rfl, h⟩ := h
    obtain ⟨_, _, _, _, -, -, -, -, -, -, -, rfl⟩ := changeTier_ok h
    exact .inl ⟨rfl, rfl⟩
  case changePaymentTokens =>
    obtain ⟨_, rfl, h⟩ := h
    obtain ⟨_, _, -, -, -, -, rfl⟩ := changePaymentTokens_ok h
    exact .inl ⟨rfl, rfl⟩
  case exit =>
    obtain ⟨_, rfl, h⟩ := h
    obtain ⟨c, _, _, hc, hu, -, rfl⟩ := exit_ok h
    refine .inr ⟨_, rfl, ?_⟩
    rw [hc]
    exact .freeSeat (userOnly_eq_ok.mp hu).1
  case reactivate =>
    obtain ⟨_, rfl, h⟩ := h
    obtain ⟨c, _, userCount, hu, hs, hc, rfl, -, -, hpaused, hroom, -, -, hcount, rfl⟩ :=
      reactivate_ok h
    refine .inr ⟨_, rfl, ?_⟩
    rw [hc]
    exact .takeSeat hu hs hpaused hroom hcount

/-- One moment of the deployment leaves the config alone or is one step of its life. -/
theorem Step.configStep {t : Transition Chain Happening} (h : Step d t) :
    (configAction t = none ∧ t.after.config = t.before.config) ∨
      ∃ action, configAction t = some action ∧
        ConfigStep ⟨t.now, action, t.before.config, t.after.config⟩ := by
  obtain ⟨inv, call, event, hcalled, hnow, hok⟩ | ⟨inv, call, fault, hcalled, hafter, -⟩ |
    ⟨houtside, accounts, hafter⟩ := h.cases_on_outcome
  · obtain ⟨hnone, hsame⟩ | ⟨action, hsome, hstep⟩ := execute_configStep hok
    · exact .inl ⟨by simp [configAction, hcalled, hnone], hsame⟩
    · exact .inr ⟨_, by simp [configAction, hcalled, hsome], hnow ▸ hstep⟩
  · exact .inl ⟨by simp [configAction, hcalled], by rw [hafter]⟩
  · exact .inl ⟨by simp [configAction, houtside], by rw [hafter, Chain.setAccounts_config]⟩

abbrev ConfigRun (h : List (Transition (Option Config) (Signers × ConfigAction)))
    (s : Option Config) : Prop := Run ConfigStep none h s

theorem ProgramRun.configRun {accounts : Accounts} {history : List (Transition Chain Happening)}
    {chain : Chain} (run : ProgramRun d accounts history chain) :
    ConfigRun (configHistory history) chain.config := by
  refine Run.project Chain.config configAction ?_ ?_ run
  · intro t ht hnone
    obtain ⟨-, hsame⟩ | ⟨action, hsome, -⟩ := ht.configStep
    · exact hsame
    · simp [hnone] at hsome
  · intro t action ht haction
    obtain ⟨hnone, -⟩ | ⟨action', hsome, hstep⟩ := ht.configStep
    · simp [hnone] at haction
    · obtain rfl := Option.some.inj (haction.symm.trans hsome)
      exact hstep

structure Config.WellFormed (c : Config) : Prop where
  attestor : c.attestor ≠ Pubkey.default
  sponsor : c.sponsor ≠ Pubkey.default
  userWeeklyCap : 0 < c.userWeeklyCap
  maxUsers : 0 < c.maxUsers
  router : c.router ≠ Pubkey.default
  genesisHash : c.genesisHash ≠ Vector.replicate 32 0
  feeds : ∀ asset ∈ c.assets, asset.pythFeedId ≠ 0
  decimals : ∀ token ∈ c.paymentTokens, token.decimals = usdDecimals

theorem ConfigParams.Valid.wellFormed {params : ConfigParams} (h : params.Valid)
    (authority : Pubkey) : (params.toConfig authority).WellFormed := by
  obtain ⟨hattestor, hsponsor, hcap, husers⟩ := Settings.validate_eq_ok.mp h.settings
  exact ⟨hattestor, hsponsor, hcap, husers, h.router, h.genesisHash, h.feeds, h.decimals⟩

theorem ConfigRun.wellFormed {h : List (Transition (Option Config) (Signers × ConfigAction))}
    {c : Config} (run : ConfigRun h (some c)) : c.WellFormed := by
  refine Run.invariant (I := fun s => ∀ c, s = some c → c.WellFormed) run (by simp) ?_ c rfl
  rintro t ht ih _ hafter
  cases ht with
  | initializeConfig signed valid =>
    obtain rfl := Option.some.inj hafter
    exact valid.wellFormed _
  | @updateConfig now signers c settings signed valid =>
    obtain rfl := Option.some.inj hafter
    obtain ⟨hattestor, hsponsor, hcap, husers⟩ := Settings.validate_eq_ok.mp valid
    have hc := ih c rfl
    exact ⟨hattestor, hsponsor, hcap, husers, hc.router, hc.genesisHash, hc.feeds, hc.decimals⟩
  | _ =>
    obtain rfl := Option.some.inj hafter
    obtain ⟨h₁, h₂, h₃, h₄, h₅, h₆, h₇, h₈⟩ := ih _ rfl
    exact ⟨h₁, h₂, h₃, h₄, h₅, h₆, h₇, h₈⟩

end Laterite
