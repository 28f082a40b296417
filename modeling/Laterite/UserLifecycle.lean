import Laterite.SweepOutcome

/-!
# The life of one user

Seen from one user's settings account, a run of the program is a run of a small system:
enrollment, attested transfers, sweeps, and the user's own controls. The refinement below
projects every run of the program onto it, whatever happens to the config, to the other
users and to the accounts of other programs in between.
-/

namespace Laterite

open CheckedComputation TimedRuns

inductive UserAction where
  | enroll (params : EnrollParams)
  | attest (attestation : Attestation) (invested : UInt64)
  | sweep (config : Config) (event : Swept)
  | updateSettings (params : EnrollParams)
  | setUserPaused (paused : Bool)
  | lowerPending (pending : UInt64)
  | changeTier (tier : UInt8)
  | changePaymentTokens (paymentTokens : UInt8)
  | exit
  | reactivate (params : EnrollParams)
  deriving DecidableEq

def Swept.pull (self : Swept) : Pull := ⟨self.engine, self.pending⟩

def Call.actionOn (user : Pubkey) (config : Option Config) : Call → Option Event → Option UserAction
  | .enroll key _ params _, _ => if key = user then some (.enroll params) else none
  | .attest _ attestation, some (.attested _ invested _) =>
    if attestation.user = user then some (.attest attestation invested) else none
  | .sweep ctx _ _ _ _ _ _, some (.swept event) =>
    if ctx.userConfig = user then config.map fun config => .sweep config event else none
  | .updateSettings key params, _ => if key = user then some (.updateSettings params) else none
  | .setUserPaused key paused, _ => if key = user then some (.setUserPaused paused) else none
  | .lowerPending key pending, _ => if key = user then some (.lowerPending pending) else none
  | .changeTier key tier _, _ => if key = user then some (.changeTier tier) else none
  | .changePaymentTokens key paymentTokens _, _ =>
    if key = user then some (.changePaymentTokens paymentTokens) else none
  | .exit key _, _ => if key = user then some .exit else none
  | .reactivate key _ params _, _ => if key = user then some (.reactivate params) else none
  | _, _ => none

/-- What one moment of the deployment means to a user. -/
def userAction (user : Pubkey) (t : Transition Chain Happening) : Option UserAction :=
  match t.event with
  | .called _ call (.ok event) => call.actionOn user t.before.config event
  | _ => none

def userHistory (user : Pubkey) (history : List (Transition Chain Happening)) :
    List (Transition (Option UserConfig) UserAction) :=
  history.filterMap fun t => (userAction user t).map fun action =>
    ⟨t.now, action, t.before.userConfigs user, t.after.userConfigs user⟩

structure UserConfig.Sweepable (u : UserConfig) (now : ℤ) (config : Config) (event : Swept)
    (balance total : UInt64) : Prop where
  owner : event.user = u.user
  fresh : ∃ lastDay, u.lastSweepDay[event.paymentToken.toNat]? = some lastDay ∧
    lastDay < UInt32.ofInt (now / daySeconds)
  session : u.engine = .weekly → usMarketOpen now config.marketCalendar = true
  allows : u.Allows event.paymentToken.toNat balance config.userWeeklyCap config.marketCalendar
    now event.pull
  total_eq : total.toNat = event.engine.toNat + event.pending.toNat
  positive : 0 < total.toNat

/-- The account with `attestableFrom` raised to `now` when `c` holds. -/
def UserConfig.raisedIf (self : UserConfig) (c : Bool) (now : ℤ) : UserConfig :=
  { self with attestableFrom := if c then max self.attestableFrom now else self.attestableFrom }

theorem UserConfig.raisedIf_eq (self : UserConfig) (c : Prop) [Decidable c] (now : ℤ) :
    (if c then self.raiseAttestableFrom now else self) = self.raisedIf (decide c) now := by
  by_cases hc : c <;> simp [hc, UserConfig.raisedIf, UserConfig.raiseAttestableFrom]

@[simp] theorem UserConfig.raisedIf_true (self : UserConfig) (now : ℤ) :
    self.raisedIf true now = self.raiseAttestableFrom now := rfl

@[simp] theorem UserConfig.raisedIf_false (self : UserConfig) (now : ℤ) :
    self.raisedIf false now = self := rfl

inductive UserStep (user : Pubkey) : Transition (Option UserConfig) UserAction → Prop
  | enroll {now : ℤ} {bump : UInt8} {params : EnrollParams} {config : Config}
      (bounds : I64.minValue ≤ now ∧ now ≤ I64.maxValue)
      (valid : params.validate config = .ok ()) :
      UserStep user ⟨now, .enroll params, none, some (UserConfig.enrolled user bump params now)⟩
  | attest {now : ℤ} {u : UserConfig} {attestation : Attestation} {invested pending : UInt64}
      (active : u.status = .active)
      (attestable : u.attestableFrom ≤ attestation.eventTime.toInt)
      (past : attestation.eventTime.toInt ≤ now)
      (known : attestation.paymentToken.toNat < paymentTokenCount)
      (enabled : enabled u.paymentTokens attestation.paymentToken.toNat = true)
      (derived : u.invested attestation.kind attestation.amount = .ok invested)
      (positive : 0 < invested)
      (credited : pending = u.pending.saturatingAdd invested) :
      UserStep user ⟨now, .attest attestation invested, some u, some { u with pending := pending }⟩
  | sweep {now : ℤ} {u : UserConfig} {config : Config} {event : Swept} {balance total : UInt64}
      (sweepable : u.Sweepable now config event balance total) :
      UserStep user ⟨now, .sweep config event, some u,
        some (u.swept event.paymentToken.toNat event.pull total now)⟩
  | updateSettings {now : ℤ} {u : UserConfig} {params : EnrollParams}
      (notExited : u.status ≠ .exited) (tier : params.tier = u.tier)
      (paymentTokens : params.paymentTokens = u.paymentTokens)
      (valid : params.validateRules = .ok ()) :
      UserStep user ⟨now, .updateSettings params, some u,
        some ((u.raisedIf (u.countsMore params) now).setSettings params)⟩
  | pause {now : ℤ} {u : UserConfig} (active : u.status = .active) :
      UserStep user ⟨now, .setUserPaused true, some u, some { u with status := .paused }⟩
  | resume {now : ℤ} {u : UserConfig} (paused : u.status = .paused) :
      UserStep user ⟨now, .setUserPaused false, some u,
        some (({ u with status := .active } : UserConfig).raiseAttestableFrom now)⟩
  | lowerPending {now : ℤ} {u : UserConfig} {pending : UInt64} (notExited : u.status ≠ .exited)
      (lower : pending ≤ u.pending) :
      UserStep user ⟨now, .lowerPending pending, some u, some { u with pending := pending }⟩
  | changeTier {now : ℤ} {u : UserConfig} {tier : UInt8} {cap : UInt64}
      (notExited : u.status ≠ .exited) (known : tiers[tier.toNat]? = some cap)
      (engine : u.engineAmount ≤ cap) :
      UserStep user ⟨now, .changeTier tier, some u, some { u with tier := tier }⟩
  | changePaymentTokens {now : ℤ} {u : UserConfig} {paymentTokens : UInt8}
      (notExited : u.status ≠ .exited) (nonzero : paymentTokens ≠ 0)
      (known : paymentTokens >>> UInt8.ofNat paymentTokenCount = 0) :
      UserStep user ⟨now, .changePaymentTokens paymentTokens, some u,
        some { u.raisedIf (paymentTokens &&& ~~~u.paymentTokens ≠ 0) now with
          paymentTokens := paymentTokens }⟩
  | exit {now : ℤ} {u : UserConfig} (notExited : u.status ≠ .exited) :
      UserStep user ⟨now, .exit, some u,
        some { u.setSettings EnrollParams.default with pending := 0, status := .exited }⟩
  | reactivate {now : ℤ} {u : UserConfig} {params : EnrollParams} {config : Config}
      (exited : u.status = .exited) (valid : params.validate config = .ok ()) :
      UserStep user ⟨now, .reactivate params, some u,
        some (({ u.setSettings params with status := .active } : UserConfig).raiseAttestableFrom now)⟩

variable {d : Deployment} {inv : Invocation} {before after : Chain}

/-- Seen from `user`, going from `before` to `after` at `now` meant nothing or was a step. -/
private def Means (user : Pubkey) (now : ℤ) (action : Option UserAction) (before after : Chain) :
    Prop :=
  (action = none ∧ after.userConfigs user = before.userConfigs user) ∨
    ∃ a, action = some a ∧ UserStep user ⟨now, a, before.userConfigs user, after.userConfigs user⟩

private theorem means_nothing {user : Pubkey} {now : ℤ}
    (h : after.userConfigs = before.userConfigs) : Means user now none before after :=
  .inl ⟨rfl, congrFun h user⟩

/-- A call that writes one user's account means that step to its user and nothing to others. -/
private theorem means_update {key user : Pubkey} {now : ℤ} {action : UserAction} {u : UserConfig}
    (h : after.userConfigs = Function.update before.userConfigs key (some u))
    (step : UserStep key ⟨now, action, before.userConfigs key, some u⟩) :
    Means user now (if key = user then some action else none) before after := by
  by_cases hkey : key = user
  · subst hkey
    refine .inr ⟨action, if_pos rfl, ?_⟩
    rwa [h, Function.update_self]
  · refine .inl ⟨if_neg hkey, ?_⟩
    rw [h, Function.update_of_ne (Ne.symm hkey)]

private theorem sweep_means {ctx : SweepAccounts} {assetMessage paymentMessage route : List UInt8}
    {ed25519Index : UInt16} {paymentToken : UInt8} {routeAccounts : List RouteAccount}
    {event : Event} (user : Pubkey)
    (h : sweep d inv before ctx assetMessage paymentMessage ed25519Index paymentToken route
      routeAccounts = .ok (event, after)) :
    Means user inv.now ((Call.sweep ctx assetMessage paymentMessage ed25519Index paymentToken route
      routeAccounts).actionOn user before.config (some event)) before after := by
  obtain ⟨plan, balance, due, assetQuote, paymentQuote, minimum, pulled, swapped, received, hdecided,
    -, -, rfl, rfl⟩ := sweep_ok h
  rw [Call.actionOn, hdecided.config, Option.map_some]
  refine means_update rfl ?_
  rw [hdecided.userConfig]
  exact .sweep ⟨rfl, hdecided.today ▸ hdecided.fresh, hdecided.session, hdecided.allows,
    hdecided.total, hdecided.positive⟩

/-- Every successful call means to each user nothing or one step of that user's life. -/
private theorem execute_means {call : Call} {event : Option Event}
    (h : execute d inv before call = .ok (event, after)) (user : Pubkey) :
    Means user inv.now (call.actionOn user before.config event) before after := by
  cases call <;> simp only [execute, emitting_eq_ok] at h
  case initializeConfig =>
    obtain ⟨_, rfl, h⟩ := h
    obtain ⟨-, -, -, -, rfl⟩ := initializeConfig_ok h
    exact means_nothing rfl
  case updateConfig =>
    obtain ⟨_, rfl, h⟩ := h
    obtain ⟨_, -, -, rfl⟩ := updateConfig_ok h
    exact means_nothing rfl
  case setPaused =>
    obtain ⟨_, rfl, h⟩ := h
    obtain ⟨_, -, rfl⟩ := setPaused_ok h
    exact means_nothing rfl
  case setMarketCalendar =>
    obtain ⟨_, rfl, h⟩ := h
    obtain ⟨_, _, -, -, rfl⟩ := setMarketCalendar_ok h
    exact means_nothing rfl
  case proposeAdmin =>
    obtain ⟨_, rfl, h⟩ := h
    obtain ⟨_, -, rfl⟩ := proposeAdmin_ok h
    exact means_nothing rfl
  case acceptAdmin =>
    obtain ⟨_, rfl, h⟩ := h
    obtain ⟨_, -, -, -, rfl⟩ := acceptAdmin_ok h
    exact means_nothing rfl
  case createPlan =>
    obtain ⟨_, rfl, h⟩ := h
    obtain ⟨_, _, -, rfl⟩ := createPlan_ok h
    exact means_nothing rfl
  case enroll =>
    obtain ⟨_, rfl, h⟩ := h
    obtain ⟨_, _, -, -, -, -, hnone, -, -, hvalid, -, -, rfl⟩ := enroll_ok h
    refine means_update rfl ?_
    rw [hnone]
    exact .enroll inv.now_bounds hvalid
  case attest =>
    obtain ⟨_, rfl, h⟩ := h
    obtain ⟨_, u, _, _, -, hu, -, hactive, -, hfrom, hpast, -, hknown, henabled, hinvested,
      hpositive, hpending, rfl, rfl⟩ := attest_ok h
    refine means_update rfl ?_
    rw [hu]
    exact .attest hactive hfrom hpast hknown henabled hinvested hpositive hpending
  case closeAttestation =>
    simp only [bind_eq_ok, pure_eq_ok, Prod.mk.injEq] at h
    obtain ⟨_, h, rfl, rfl⟩ := h
    obtain ⟨_, -, -, -, rfl⟩ := closeAttestation_ok h
    exact means_nothing rfl
  case sweep =>
    obtain ⟨_, rfl, h⟩ := h
    exact sweep_means user h
  case updateSettings =>
    obtain ⟨_, rfl, h⟩ := h
    obtain ⟨u, hu, htier, htokens, hvalid, rfl⟩ := updateSettings_ok h
    obtain ⟨-, hu, hx⟩ := userOnly_eq_ok.mp hu
    refine means_update rfl ?_
    rw [hu, UserConfig.raisedIf_eq, Bool.decide_eq_true]
    exact .updateSettings hx htier htokens hvalid
  case setUserPaused =>
    obtain ⟨_, rfl, h⟩ := h
    obtain ⟨u, hu, ⟨rfl, hactive, rfl⟩ | ⟨rfl, hpaused, rfl⟩⟩ := setUserPaused_ok h
    · refine means_update rfl ?_
      rw [(userOnly_eq_ok.mp hu).2.1]
      exact .pause hactive
    · refine means_update rfl ?_
      rw [(userOnly_eq_ok.mp hu).2.1]
      exact .resume hpaused
  case lowerPending =>
    obtain ⟨_, rfl, h⟩ := h
    obtain ⟨u, hu, hle, rfl⟩ := lowerPending_ok h
    obtain ⟨-, hu, hx⟩ := userOnly_eq_ok.mp hu
    refine means_update rfl ?_
    rw [hu]
    exact .lowerPending hx hle
  case changeTier =>
    obtain ⟨_, rfl, h⟩ := h
    obtain ⟨_, u, cap, _, -, hu, hcap, -, -, hengine, -, rfl⟩ := changeTier_ok h
    obtain ⟨-, hu, hx⟩ := userOnly_eq_ok.mp hu
    refine means_update rfl ?_
    rw [hu]
    exact .changeTier hx hcap hengine
  case changePaymentTokens =>
    obtain ⟨_, rfl, h⟩ := h
    obtain ⟨u, _, hu, hne, hknown, -, rfl⟩ := changePaymentTokens_ok h
    obtain ⟨-, hu, hx⟩ := userOnly_eq_ok.mp hu
    refine means_update rfl ?_
    rw [hu, UserConfig.raisedIf_eq]
    exact .changePaymentTokens hx hne hknown
  case exit =>
    obtain ⟨_, rfl, h⟩ := h
    obtain ⟨_, u, _, -, hu, -, rfl⟩ := exit_ok h
    obtain ⟨-, hu, hx⟩ := userOnly_eq_ok.mp hu
    refine means_update rfl ?_
    rw [hu]
    exact .exit hx
  case reactivate =>
    obtain ⟨_, rfl, h⟩ := h
    obtain ⟨_, u, _, -, -, -, -, hu, hexited, -, -, hvalid, -, -, rfl⟩ := reactivate_ok h
    refine means_update rfl ?_
    rw [hu]
    exact .reactivate hexited hvalid

/-- One moment of the deployment leaves a user's account alone or is one step of its life. -/
theorem Step.userStep {t : Transition Chain Happening} (h : Step d t) (user : Pubkey) :
    (userAction user t = none ∧ t.after.userConfigs user = t.before.userConfigs user) ∨
      ∃ action, userAction user t = some action ∧
        UserStep user ⟨t.now, action, t.before.userConfigs user, t.after.userConfigs user⟩ := by
  obtain ⟨inv, call, event, hcalled, hnow, hok⟩ | ⟨inv, call, fault, hcalled, hafter, -⟩ |
    ⟨houtside, accounts, hafter⟩ := h.cases_on_outcome
  · have hmeans := execute_means hok user
    rw [← hnow] at hmeans
    simpa [userAction, hcalled, Means] using hmeans
  · exact .inl ⟨by simp [userAction, hcalled], by rw [hafter]⟩
  · exact .inl ⟨by simp [userAction, houtside], by rw [hafter, Chain.setAccounts_userConfigs]⟩

/-- What a user's history records as a sweep was a successful sweep of the user's account. -/
theorem Step.sweep_call {t : Transition Chain Happening} {user : Pubkey} {config : Config}
    {event : Swept} (h : Step d t) (ha : userAction user t = some (.sweep config event)) :
    ∃ inv ctx assetMessage paymentMessage ed25519Index paymentToken route routeAccounts,
      t.event = .called inv (.sweep ctx assetMessage paymentMessage ed25519Index paymentToken route
        routeAccounts) (.ok (some (.swept event))) ∧
      t.now = inv.now ∧ ctx.userConfig = user ∧ t.before.config = some config ∧
      sweep d inv t.before ctx assetMessage paymentMessage ed25519Index paymentToken route
        routeAccounts = .ok (.swept event, t.after) := by
  obtain ⟨inv, call, done, hcalled, hnow, hok⟩ | ⟨inv, call, fault, hcalled, -, -⟩ |
    ⟨houtside, -, -⟩ := h.cases_on_outcome
  · simp only [userAction, hcalled] at ha
    unfold Call.actionOn at ha
    split at ha
    case h_3 ctx assetMessage paymentMessage ed25519Index paymentToken route routeAccounts swept =>
      split at ha
      · rename_i huser
        obtain ⟨c, hc, hsweep⟩ := Option.map_eq_some_iff.mp ha
        cases hsweep
        rw [execute, emitting_eq_ok] at hok
        obtain ⟨_, hdone, hok⟩ := hok
        cases hdone
        exact ⟨inv, ctx, assetMessage, paymentMessage, ed25519Index, paymentToken, route,
          routeAccounts, hcalled, hnow, huser, hc, hok⟩
      · cases ha
    case h_11 => cases ha
    all_goals
      split at ha <;> cases ha
  · simp [userAction, hcalled] at ha
  · simp [userAction, houtside] at ha

abbrev UserRun (user : Pubkey) (h : List (Transition (Option UserConfig) UserAction))
    (s : Option UserConfig) : Prop := Run (UserStep user) none h s

theorem ProgramRun.userRun {accounts : Accounts} {history : List (Transition Chain Happening)}
    {chain : Chain} (run : ProgramRun d accounts history chain) (user : Pubkey) :
    UserRun user (userHistory user history) (chain.userConfigs user) := by
  refine Run.project (fun c : Chain => c.userConfigs user) (userAction user) ?_ ?_ run
  · intro t ht hnone
    obtain ⟨-, hsame⟩ | ⟨action, hsome, -⟩ := ht.userStep user
    · exact hsame
    · simp [hnone] at hsome
  · intro t action ht haction
    obtain ⟨hnone, -⟩ | ⟨action', hsome, hstep⟩ := ht.userStep user
    · simp [hnone] at haction
    · obtain rfl := Option.some.inj (haction.symm.trans hsome)
      exact hstep

/-- A history's part for a user whose last moment meant something to the user. -/
theorem userHistory_cons {user : Pubkey} {t : Transition Chain Happening}
    {older : List (Transition Chain Happening)} {action : UserAction}
    (ha : userAction user t = some action) :
    userHistory user (t :: older) =
      ⟨t.now, action, t.before.userConfigs user, t.after.userConfigs user⟩ ::
        userHistory user older := by
  rw [userHistory, List.filterMap_cons_some (by rw [ha]; rfl)]
  rfl

theorem mem_userHistory {user : Pubkey} {p : Transition Chain Happening}
    {history : List (Transition Chain Happening)} {action : UserAction} (hp : p ∈ history)
    (ha : userAction user p = some action) :
    ⟨p.now, action, p.before.userConfigs user, p.after.userConfigs user⟩ ∈
      userHistory user history :=
  List.mem_filterMap.mpr ⟨p, hp, by rw [ha]; rfl⟩

variable {user : Pubkey} {h : List (Transition (Option UserConfig) UserAction)} {u : UserConfig}

theorem UserStep.eq_of_exited {t : Transition (Option UserConfig) UserAction} {u' : UserConfig}
    (ht : UserStep user t) (ha : t.after = some u') (hexited : u'.status = .exited) :
    ∃ u, t.before = some u ∧ t.event = .exit ∧ u.status ≠ .exited ∧
      u' = { u.setSettings EnrollParams.default with pending := 0, status := .exited } := by
  cases ht with
  | @exit now u notExited =>
    cases ha
    exact ⟨u, rfl, rfl, notExited, rfl⟩
  | enroll | pause | resume | reactivate =>
    cases ha
    cases hexited
  | attest active =>
    cases ha
    exact absurd (active.symm.trans hexited) (by decide)
  | sweep sweepable =>
    cases ha
    exact absurd (sweepable.allows.active.symm.trans hexited) (by decide)
  | updateSettings notExited | lowerPending notExited | changeTier notExited
  | changePaymentTokens notExited =>
    cases ha
    exact absurd hexited notExited

theorem UserStep.exists_after {t : Transition (Option UserConfig) UserAction}
    (ht : UserStep user t) : ∃ u', t.after = some u' := by
  cases ht <;> exact ⟨_, rfl⟩

theorem UserRun.induct {J : List (Transition (Option UserConfig) UserAction) → UserConfig → Prop}
    (run : UserRun user h (some u))
    (enroll : ∀ now bump params, ∀ config : Config, I64.minValue ≤ now ∧ now ≤ I64.maxValue →
      params.validate config = .ok () →
      J [⟨now, .enroll params, none, some (UserConfig.enrolled user bump params now)⟩]
        (UserConfig.enrolled user bump params now))
    (next : ∀ h t u u', UserRun user h (some u) → (∀ p ∈ h, p.now ≤ t.now) → UserStep user t →
      t.before = some u → t.after = some u' → J h u → J (t :: h) u') : J h u := by
  refine Run.induct (J := fun h s => (s = none → h = []) ∧ ∀ u, s = some u → J h u) run
    ⟨fun _ => rfl, by simp⟩ ?_ |>.2 u rfl
  rintro h t past later taken ⟨hnone, hsome⟩
  obtain ⟨u', hu'⟩ := taken.exists_after
  refine ⟨by simp [hu'], ?_⟩
  rintro _ hafter
  obtain rfl := Option.some.inj (hu'.symm.trans hafter)
  cases hbefore : t.before with
  | none =>
    obtain rfl := hnone hbefore
    cases taken with
    | enroll bounds valid =>
      obtain rfl := Option.some.inj hafter
      exact enroll _ _ _ _ bounds valid
    | _ => simp at hbefore
  | some u => exact next h t u u' (hbefore ▸ past) later taken hbefore hu' (hsome u hbefore)

end Laterite
