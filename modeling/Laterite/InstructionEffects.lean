import Laterite.ProgramExecution

/-!
# What each instruction checked and wrote

One inversion per instruction: when it succeeds, these guards held and this is the ledger
it left. Nothing after this module unfolds an instruction.
-/

namespace Laterite

open CheckedComputation

variable {d : Deployment} {inv : Invocation} {chain after : Chain} {event : Event}

theorem Invocation.requireSigner_eq_ok {key : Pubkey} {u : Unit} :
    inv.requireSigner key = .ok u ↔ key ∈ inv.signers.keys := require_eq_ok

theorem adminOnly_eq_ok {admin : Pubkey} {config : Config} :
    adminOnly inv chain admin = .ok config ↔
      admin ∈ inv.signers.keys ∧ chain.config = some config ∧ config.admin = admin := by
  simp only [adminOnly, bind_eq_ok, Invocation.requireSigner_eq_ok, Chain.loadConfig_eq_ok,
    require_eq_ok, pure_eq_ok, exists_const]
  constructor
  · rintro ⟨hs, _, hc, ha, rfl⟩
    exact ⟨hs, hc, ha⟩
  · rintro ⟨hs, hc, ha⟩
    exact ⟨hs, _, hc, ha, rfl⟩

theorem initializeConfig_ok {authority : Pubkey} {params : ConfigParams} {mints : List Pubkey}
    (h : initializeConfig d inv chain authority params mints = .ok (event, after)) :
    authority ∈ inv.signers.keys ∧ chain.config = none ∧
      upgradeAuthority (chain.accounts d.programData).data = some authority ∧
      params.validate d (mints.map chain.accounts.info) = .ok () ∧
      after = chain.setConfig (params.toConfig authority) := by
  simp only [initializeConfig, bind_eq_ok, Invocation.requireSigner_eq_ok, require_eq_ok, pure_eq_ok,
    exists_const, Prod.mk.injEq] at h
  obtain ⟨hs, hnone, -, hupgrade, _, hvalid, -, rfl⟩ := h
  exact ⟨hs, hnone, hupgrade, hvalid, rfl⟩

theorem updateConfig_ok {admin : Pubkey} {settings : Settings}
    (h : updateConfig inv chain admin settings = .ok (event, after)) :
    ∃ config, adminOnly inv chain admin = .ok config ∧ settings.validate = .ok () ∧
      after = chain.setConfig (config.apply settings) := by
  simp only [updateConfig, bind_eq_ok, pure_eq_ok, Prod.mk.injEq] at h
  obtain ⟨config, hadmin, _, hvalid, -, rfl⟩ := h
  exact ⟨config, hadmin, hvalid, rfl⟩

theorem setPaused_ok {admin : Pubkey} {paused : Bool}
    (h : setPaused inv chain admin paused = .ok (event, after)) :
    ∃ config, adminOnly inv chain admin = .ok config ∧
      after = chain.setConfig { config with paused := paused } := by
  simp only [setPaused, bind_eq_ok, pure_eq_ok, Prod.mk.injEq] at h
  obtain ⟨config, hadmin, -, rfl⟩ := h
  exact ⟨config, hadmin, rfl⟩

theorem setMarketCalendar_ok {admin : Pubkey} {holidays earlyCloses : List UInt16}
    {validThrough : UInt16}
    (h : setMarketCalendar inv chain admin holidays earlyCloses validThrough = .ok (event, after)) :
    ∃ config calendar, adminOnly inv chain admin = .ok config ∧
      MarketCalendar.new holidays earlyCloses validThrough (inv.now / daySeconds) = .ok calendar ∧
      after = chain.setConfig { config with marketCalendar := calendar } := by
  simp only [setMarketCalendar, bind_eq_ok, pure_eq_ok, Prod.mk.injEq] at h
  obtain ⟨config, hadmin, calendar, hcalendar, -, rfl⟩ := h
  exact ⟨config, calendar, hadmin, hcalendar, rfl⟩

theorem proposeAdmin_ok {admin newAdmin : Pubkey}
    (h : proposeAdmin inv chain admin newAdmin = .ok (event, after)) :
    ∃ config, adminOnly inv chain admin = .ok config ∧
      after = chain.setConfig { config with pendingAdmin := newAdmin } := by
  simp only [proposeAdmin, bind_eq_ok, pure_eq_ok, Prod.mk.injEq] at h
  obtain ⟨config, hadmin, -, rfl⟩ := h
  exact ⟨config, hadmin, rfl⟩

theorem acceptAdmin_ok {pendingAdmin : Pubkey}
    (h : acceptAdmin inv chain pendingAdmin = .ok (event, after)) :
    ∃ config, pendingAdmin ∈ inv.signers.keys ∧ chain.config = some config ∧
      config.pendingAdmin = pendingAdmin ∧
      after = chain.setConfig { config with
        admin := pendingAdmin, pendingAdmin := Pubkey.default } := by
  simp only [acceptAdmin, bind_eq_ok, Invocation.requireSigner_eq_ok, Chain.loadConfig_eq_ok,
    require_eq_ok, pure_eq_ok, exists_const, Prod.mk.injEq] at h
  obtain ⟨hs, config, hconfig, hpending, -, rfl⟩ := h
  exact ⟨config, hs, hconfig, hpending, rfl⟩

theorem createPlan_ok {admin plan mint tokenProgram : Pubkey} {paymentToken tier : UInt8}
    (h : createPlan d inv chain admin plan mint tokenProgram paymentToken tier = .ok (event, after)) :
    ∃ config accounts, adminOnly inv chain admin = .ok config ∧
      after = chain.setAccounts accounts := by
  simp only [createPlan, bind_eq_ok, pure_eq_ok, require_eq_ok, exists_const, Prod.mk.injEq] at h
  obtain ⟨config, hadmin, _, -, _, -, -, -, accounts, -, -, rfl⟩ := h
  exact ⟨config, accounts, hadmin, rfl⟩

theorem attest_ok {payer : Pubkey} {attestation : Attestation}
    (h : attest d inv chain payer attestation = .ok (event, after)) :
    ∃ config userConfig invested pending, chain.config = some config ∧
      chain.userConfigs attestation.user = some userConfig ∧
      chain.records attestation.transferId = none ∧ userConfig.status = .active ∧
      attestation.amount > 0 ∧
      userConfig.attestableFrom ≤ attestation.eventTime.toInt ∧
      attestation.eventTime.toInt ≤ inv.now ∧
      inv.now ≤ attestation.eventTime.toInt + attestationTtlSeconds ∧
      attestation.paymentToken.toNat < paymentTokenCount ∧
      enabled userConfig.paymentTokens attestation.paymentToken.toNat = true ∧
      userConfig.invested attestation.kind attestation.amount = .ok invested ∧ invested > 0 ∧
      pending = userConfig.pending.saturatingAdd invested ∧
      event = .attested attestation invested pending ∧
      after = (chain.setUserConfig attestation.user { userConfig with pending := pending }).setRecord
        attestation.transferId
        (some ⟨payer, attestation.eventTime.toInt + attestationTtlSeconds⟩) := by
  simp only [attest, bind_eq_ok, Invocation.requireSigner_eq_ok, Chain.loadConfig_eq_ok,
    Chain.loadUserConfig_eq_ok, require_eq_ok, pure_eq_ok, exists_const, Prod.mk.injEq,
    I64.checkedAdd_eq_ok, enablesKnown_eq, Except.ok.injEq] at h
  obtain ⟨-, config, hconfig, userConfig, huser, hrecord, _, -, hactive, ⟨hamount, hfrom, hto⟩,
    _, ⟨-, rfl⟩, hfresh, _, rfl, henabled, invested, hinvested, hpositive, _, ⟨-, rfl⟩, rfl, rfl⟩ := h
  rw [Bool.and_eq_true, decide_eq_true_iff] at henabled
  exact ⟨config, userConfig, invested, _, hconfig, huser, hrecord, hactive, hamount, hfrom, hto,
    hfresh, henabled.1, henabled.2, hinvested, hpositive, rfl, rfl, rfl⟩

theorem closeAttestation_ok {record : TransferId} {payer : Pubkey}
    (h : closeAttestation inv chain record payer = .ok after) :
    ∃ state, chain.records record = some state ∧ state.payer = payer ∧ state.expiresAt < inv.now ∧
      after = chain.setRecord record none := by
  simp only [closeAttestation, bind_eq_ok, okOr_eq_ok, require_eq_ok, pure_eq_ok, exists_const] at h
  obtain ⟨state, hstate, hpayer, -, hexpired, rfl⟩ := h
  exact ⟨state, hstate, hpayer, hexpired, rfl⟩

theorem userOnly_eq_ok {user : Pubkey} {userConfig : UserConfig} :
    userOnly inv chain user = .ok userConfig ↔
      user ∈ inv.signers.keys ∧ chain.userConfigs user = some userConfig ∧
        userConfig.status ≠ .exited := by
  simp only [userOnly, bind_eq_ok, Invocation.requireSigner_eq_ok, Chain.loadUserConfig_eq_ok,
    require_eq_ok, pure_eq_ok, exists_const]
  constructor
  · rintro ⟨hs, _, hu, hx, rfl⟩
    exact ⟨hs, hu, hx⟩
  · rintro ⟨hs, hu, hx⟩
    exact ⟨hs, _, hu, hx, rfl⟩

theorem enroll_ok {user payer : Pubkey} {params : EnrollParams} {subscriptions : List Pubkey}
    (h : enroll d inv chain user payer params subscriptions = .ok (event, after)) :
    ∃ config userCount, user ∈ inv.signers.keys ∧ payer ∈ inv.signers.keys ∧
      chain.config = some config ∧ config.sponsor = payer ∧ chain.userConfigs user = none ∧
      config.paused = false ∧ config.userCount < config.maxUsers ∧
      params.validate config = .ok () ∧
      d.requireLive (subscriptions.map chain.accounts.info) params.paymentTokens params.tier user =
        .ok () ∧
      userCount.toNat = config.userCount.toNat + 1 ∧
      after = (chain.setUserConfig user
        (UserConfig.enrolled user (d.userConfigBump user) params inv.now)).setConfig
          { config with userCount := userCount } := by
  simp only [enroll, bind_eq_ok, Invocation.requireSigner_eq_ok, Chain.loadConfig_eq_ok,
    require_eq_ok, pure_eq_ok, exists_const, Prod.mk.injEq, UInt32.checkedAdd_eq_ok,
    Bool.not_eq_true] at h
  obtain ⟨hu, hp, config, hconfig, hsponsor, hnone, hpaused, hroom, _, hvalid, _, hlive,
    userCount, hcount, -, rfl⟩ := h
  exact ⟨config, userCount, hu, hp, hconfig, hsponsor, hnone, hpaused, hroom, hvalid, hlive,
    hcount, rfl⟩

theorem updateSettings_ok {user : Pubkey} {params : EnrollParams}
    (h : updateSettings inv chain user params = .ok (event, after)) :
    ∃ userConfig, userOnly inv chain user = .ok userConfig ∧
      params.tier = userConfig.tier ∧ params.paymentTokens = userConfig.paymentTokens ∧
      params.validateRules = .ok () ∧
      after = chain.setUserConfig user
        ((if userConfig.countsMore params then userConfig.raiseAttestableFrom inv.now
          else userConfig).setSettings params) := by
  simp only [updateSettings, bind_eq_ok, require_eq_ok, pure_eq_ok, exists_const, Prod.mk.injEq] at h
  obtain ⟨userConfig, huser, ⟨htier, htokens⟩, _, hvalid, -, rfl⟩ := h
  exact ⟨userConfig, huser, htier, htokens, hvalid, rfl⟩

theorem setUserPaused_ok {user : Pubkey} {paused : Bool}
    (h : setUserPaused inv chain user paused = .ok (event, after)) :
    ∃ userConfig, userOnly inv chain user = .ok userConfig ∧
      ((paused = true ∧ userConfig.status = .active ∧
          after = chain.setUserConfig user { userConfig with status := .paused }) ∨
        (paused = false ∧ userConfig.status = .paused ∧
          after = chain.setUserConfig user
            (({ userConfig with status := .active } : UserConfig).raiseAttestableFrom inv.now))) := by
  rw [setUserPaused, bind_eq_ok] at h
  obtain ⟨userConfig, huser, h⟩ := h
  refine ⟨userConfig, huser, ?_⟩
  cases paused with
  | true =>
    simp only [if_true, bind_eq_ok, require_eq_ok, pure_eq_ok, exists_const, Prod.mk.injEq] at h
    exact .inl ⟨rfl, h.1, h.2.2.symm⟩
  | false =>
    simp only [Bool.false_eq_true, if_false, bind_eq_ok, require_eq_ok, pure_eq_ok, exists_const,
      Prod.mk.injEq] at h
    exact .inr ⟨rfl, h.1, h.2.2.symm⟩

theorem lowerPending_ok {user : Pubkey} {pending : UInt64}
    (h : lowerPending inv chain user pending = .ok (event, after)) :
    ∃ userConfig, userOnly inv chain user = .ok userConfig ∧ pending ≤ userConfig.pending ∧
      after = chain.setUserConfig user { userConfig with pending := pending } := by
  simp only [lowerPending, bind_eq_ok, require_eq_ok, pure_eq_ok, exists_const, Prod.mk.injEq] at h
  obtain ⟨userConfig, huser, hle, -, rfl⟩ := h
  exact ⟨userConfig, huser, hle, rfl⟩

theorem changeTier_ok {user : Pubkey} {tier : UInt8} {remainingAccounts : List Pubkey}
    (h : changeTier d inv chain user tier remainingAccounts = .ok (event, after)) :
    ∃ config userConfig cap accounts, chain.config = some config ∧
      userOnly inv chain user = .ok userConfig ∧ tiers[tier.toNat]? = some cap ∧
      tier ≠ userConfig.tier ∧ cap ≤ config.userWeeklyCap ∧ userConfig.engineAmount ≤ cap ∧
      changeTierEach d inv user userConfig.tier.toNat tier.toNat
        ((List.range paymentTokenCount).filter (enabled userConfig.paymentTokens))
        remainingAccounts chain.accounts = .ok accounts ∧
      after = (chain.setAccounts accounts).setUserConfig user { userConfig with tier := tier } := by
  simp only [changeTier, bind_eq_ok, require_eq_ok, pure_eq_ok, exists_const, Prod.mk.injEq,
    Chain.loadConfig_eq_ok, okOr_eq_ok, enabledTokens_eq, Except.ok.injEq] at h
  obtain ⟨config, hconfig, userConfig, huser, cap, hcap, hne, hbeta, hengine, _, rfl, accounts,
    heach, -, rfl⟩ := h
  exact ⟨config, userConfig, cap, accounts, hconfig, huser, hcap, hne, hbeta, hengine, heach, rfl⟩

theorem changePaymentTokens_ok {user : Pubkey} {paymentTokens : UInt8}
    {remainingAccounts : List Pubkey}
    (h : changePaymentTokens d inv chain user paymentTokens remainingAccounts = .ok (event, after)) :
    ∃ userConfig accounts, userOnly inv chain user = .ok userConfig ∧ paymentTokens ≠ 0 ∧
      paymentTokens >>> UInt8.ofNat paymentTokenCount = 0 ∧
      changePaymentTokensEach d inv user userConfig.tier.toNat userConfig.paymentTokens
        paymentTokens (List.range paymentTokenCount) remainingAccounts chain.accounts =
          .ok accounts ∧
      after = (chain.setAccounts accounts).setUserConfig user
        { (if paymentTokens &&& ~~~userConfig.paymentTokens ≠ 0 then
            userConfig.raiseAttestableFrom inv.now
          else userConfig) with paymentTokens := paymentTokens } := by
  simp only [changePaymentTokens, bind_eq_ok, require_eq_ok, pure_eq_ok, exists_const,
    Prod.mk.injEq] at h
  obtain ⟨userConfig, huser, hne, hknown, accounts, heach, -, rfl⟩ := h
  exact ⟨userConfig, accounts, huser, hne, hknown, heach, rfl⟩

theorem exit_ok {user : Pubkey} {remainingAccounts : List Pubkey}
    (h : exit d inv chain user remainingAccounts = .ok (event, after)) :
    ∃ config userConfig accounts, chain.config = some config ∧
      userOnly inv chain user = .ok userConfig ∧
      exitEach d inv user userConfig.tier.toNat
        ((List.range paymentTokenCount).filter (enabled userConfig.paymentTokens))
        remainingAccounts chain.accounts = .ok accounts ∧
      after = ((chain.setAccounts accounts).setConfig
        { config with userCount := config.userCount.saturatingSub 1 }).setUserConfig user
          { userConfig.setSettings EnrollParams.default with pending := 0, status := .exited } := by
  simp only [exit, bind_eq_ok, pure_eq_ok, Prod.mk.injEq, Chain.loadConfig_eq_ok,
    enabledTokens_eq, Except.ok.injEq] at h
  obtain ⟨config, hconfig, userConfig, huser, _, rfl, accounts, heach, -, rfl⟩ := h
  exact ⟨config, userConfig, accounts, hconfig, huser, heach, rfl⟩

theorem reactivate_ok {user sponsor : Pubkey} {params : EnrollParams} {subscriptions : List Pubkey}
    (h : reactivate d inv chain user sponsor params subscriptions = .ok (event, after)) :
    ∃ config userConfig userCount, user ∈ inv.signers.keys ∧ sponsor ∈ inv.signers.keys ∧
      chain.config = some config ∧ config.sponsor = sponsor ∧
      chain.userConfigs user = some userConfig ∧ userConfig.status = .exited ∧
      config.paused = false ∧ config.userCount < config.maxUsers ∧
      params.validate config = .ok () ∧
      d.requireLive (subscriptions.map chain.accounts.info) params.paymentTokens params.tier user =
        .ok () ∧
      userCount.toNat = config.userCount.toNat + 1 ∧
      after = (chain.setUserConfig user
        (({ userConfig.setSettings params with status := .active } : UserConfig).raiseAttestableFrom
          inv.now)).setConfig { config with userCount := userCount } := by
  simp only [reactivate, bind_eq_ok, Invocation.requireSigner_eq_ok, Chain.loadConfig_eq_ok,
    Chain.loadUserConfig_eq_ok, require_eq_ok, pure_eq_ok, exists_const, Prod.mk.injEq,
    UInt32.checkedAdd_eq_ok, Bool.not_eq_true] at h
  obtain ⟨hu, hs, config, hconfig, hsponsor, userConfig, huser, hexited, hpaused, hroom,
    _, hvalid, _, hlive, userCount, hcount, -, rfl⟩ := h
  exact ⟨config, userConfig, userCount, hu, hs, hconfig, hsponsor, huser, hexited, hpaused, hroom,
    hvalid, hlive, hcount, rfl⟩

end Laterite
