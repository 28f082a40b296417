import Laterite.CrankSweeps

/-!
# What a build of the crank comes to

Each stage of a build either ends it with a plan or passes on what the next stage needs. Whatever the
stage, a row is dated by a clock the build read, one that says the day's final word ends the sweep, and
says so on grounds the build met. A sweep is handed over only past every check.
-/

namespace Laterite.Crank

open Client Failures

def Readings.clocks (r : Readings) : List ℤ :=
  r.clock.toList ++ (r.state.map fun read => read.1.now).toList

section

variable (setup : Setup) (paused : List Pubkey) (candidate : Candidate) (locals : Locals) (r : Readings)

structure Ready (state : SweepState) (built : BuiltSweep) : Prop where
  /-- The state is the cluster's, with the user's asset, under the config the crank holds. -/
  read : ∃ fetched, r.state = some (fetched, locals.asset) ∧ state = readState candidate locals fetched
  /-- The asset is not paused by its issuer, and its update is young by its feed's own time. -/
  asset : ∃ asset clock update quote, locals.config.assets[locals.asset]? = some asset ∧
    asset.mint ∉ paused ∧ r.clock = some clock ∧
    r.asset asset.pythFeedId.toNat clock = some (some update) ∧
    Client.quote update.message asset.pythFeedId.toNat state.now maxAssetUpdateAgeSeconds = .ok quote
  pull : getSweepPull state = .ok built.pull
  margin : sweepBoundaryMarginSeconds ≤ secondsToNextSweepBoundary state
  /-- The route was asked to spend the pull, and quotes the least the program lets it deliver. -/
  route : ∃ request route, r.routes request = .ok route ∧ request.amount = (pullTotal built.pull).toNat ∧
    request.swapAuthority = setup.addresses.swapAuthority ∧ built.minOut ≤ route.quoted

/-- Why an attempt is the day's final word: the sweep landed and told its event; its state asks for a
restore or says the token was swept; it does not fit; or it failed as one whose pull failed does, or
one the program says was swept. -/
inductive Grounds : Attempt → Prop where
  | landed {state : SweepState} {built : BuiltSweep} {landed : Landed} {attempt : Attempt}
    (ready : Ready setup paused candidate locals r state built)
    (sent : r.send built maxSweepComputeUnitLimit = .landed landed none)
    (outcome : attempt.outcome = .landed) (signature : attempt.signature = some landed.signature) :
    Grounds attempt
  | restore {fetched : SweepState} {reason : RestoreReason} {account : Pubkey} {attempt : Attempt}
    (read : r.state = some (fetched, locals.asset))
    (refused : getSweepPull (readState candidate locals fetched) = .error (.restoreRequired reason account))
    (outcome : attempt.outcome = .skipped) : Grounds attempt
  | swept {fetched : SweepState} {attempt : Attempt} (read : r.state = some (fetched, locals.asset))
    (refused : getSweepPull (readState candidate locals fetched) =
      .error (.lateriteCheck LateriteError.alreadySwept.code))
    (outcome : attempt.outcome = .alreadySwept) : Grounds attempt
  | oversized {state : SweepState} {built : BuiltSweep} {attempt : Attempt}
    (ready : Ready setup paused candidate locals r state built)
    (sent : r.send built maxSweepComputeUnitLimit = .oversized)
    (outcome : attempt.outcome = .skipped) : Grounds attempt
  | failed {state : SweepState} {built : BuiltSweep} {error : InstructionError} {errorText : String}
    {logs : List Logs.Line} {signature : Option String} {attempt : Attempt}
    (ready : Ready setup paused candidate locals r state built)
    (sent : r.send built maxSweepComputeUnitLimit = .failed error errorText logs signature)
    (action : (sweepFailure setup.programs error errorText logs locals.config.router).action = .swept ∧
        attempt.outcome = .alreadySwept ∨
      (sweepFailure setup.programs error errorText logs locals.config.router).action = .pull ∧
        attempt.outcome = .pullFailed) : Grounds attempt

/-- What holds of every plan a build comes to. -/
structure Plan.Sound (plan : Plan) : Prop where
  dated : ∀ day attempt, plan.row = some (day, attempt) → ∃ clock ∈ r.clocks, day = today clock
  ends : ∀ day attempt, plan.row = some (day, attempt) → attempt.outcome ≠ .failed →
    (plan.next = .finished ∨ plan.next = .landed) ∧ Grounds setup paused candidate locals r attempt
  otherwise : ∀ attempt, plan.otherwise = some attempt → attempt.outcome = .failed ∧
    ∀ day first, plan.row = some (day, first) → first.outcome ≠ .failed
  handed : ∀ state built, plan.handed = some (state, built) →
    state.now ∈ r.clocks ∧ Ready setup paused candidate locals r state built

end

section

variable {setup : Setup} {paused : List Pubkey} {excluded : Routes.Exclusions} {candidate : Candidate}
  {failures : ℕ} {locals : Locals} {r : Readings} {plan : Plan} {fetched : SweepState}

theorem Grounds.isFinal {attempt : Attempt} (h : Grounds setup paused candidate locals r attempt) :
    attempt.outcome ≠ .failed := by
  cases h with
  | landed _ _ outcome _ => simp [outcome]
  | restore _ _ outcome => simp [outcome]
  | swept _ _ outcome => simp [outcome]
  | oversized _ _ outcome => simp [outcome]
  | failed _ _ action =>
    rcases action with ⟨-, outcome⟩ | ⟨-, outcome⟩
    · simp [outcome]
    · simp [outcome]

theorem Plan.Sound.of_row_none (hrow : plan.row = none) (hhanded : plan.handed = none)
    (hotherwise : plan.otherwise = none) : plan.Sound setup paused candidate locals r where
  dated := by simp [hrow]
  ends := by simp [hrow]
  otherwise := by simp [hotherwise]
  handed := by simp [hhanded]

theorem Plan.Sound.of_failed {clock : ℤ} {attempt : Attempt} (hclock : clock ∈ r.clocks)
    (hrow : plan.row = some (today clock, attempt)) (hfailed : attempt.outcome = .failed)
    (hhanded : plan.handed = none) (hotherwise : plan.otherwise = none) :
    plan.Sound setup paused candidate locals r where
  dated day attempt h := by
    rw [hrow, Option.some.injEq, Prod.mk.injEq] at h
    exact ⟨clock, hclock, h.1.symm⟩
  ends day other h hne := by
    rw [hrow, Option.some.injEq, Prod.mk.injEq] at h
    exact absurd (h.2 ▸ hfailed) hne
  otherwise := by simp [hotherwise]
  handed := by simp [hhanded]

theorem Plan.Sound.of_word {clock : ℤ} {attempt : Attempt} (hclock : clock ∈ r.clocks)
    (hrow : plan.row = some (today clock, attempt)) (hnext : plan.next = .finished ∨ plan.next = .landed)
    (hgrounds : Grounds setup paused candidate locals r attempt) (hhanded : plan.handed = none)
    (hotherwise : ∀ other, plan.otherwise = some other → other.outcome = .failed) :
    plan.Sound setup paused candidate locals r where
  dated day other h := by
    rw [hrow, Option.some.injEq, Prod.mk.injEq] at h
    exact ⟨clock, hclock, h.1.symm⟩
  ends day other h _ := by
    rw [hrow, Option.some.injEq, Prod.mk.injEq] at h
    exact ⟨hnext, h.2 ▸ hgrounds⟩
  otherwise other h := by
    refine ⟨hotherwise other h, fun day first hfirst => ?_⟩
    rw [hrow, Option.some.injEq, Prod.mk.injEq] at hfirst
    exact hfirst.2 ▸ hgrounds.isFinal
  handed := by simp [hhanded]

theorem mem_clocks_of_state {asset : ℕ} (h : r.state = some (fetched, asset)) :
    (readState candidate locals fetched).now ∈ r.clocks := by
  simp [Readings.clocks, h, readState]

theorem refusedPull_sound {error : ClientError} (hstate : r.state = some (fetched, locals.asset))
    (h : getSweepPull (readState candidate locals fetched) = .error error) :
    (refusedPull setup (today (readState candidate locals fetched).now) error).Sound setup paused
      candidate locals r := by
  have hclock := @mem_clocks_of_state candidate locals r fetched _ hstate
  cases error with
  | restoreRequired reason account =>
    exact .of_word hclock rfl (.inl rfl) (.restore hstate h rfl) rfl (by simp [refusedPull])
  | lateriteCheck code =>
    rw [refusedPull]
    split
    · rename_i hcode
      rw [hcode] at h
      exact .of_word hclock rfl (.inl rfl) (.swept hstate h rfl) rfl (by simp)
    · split
      · exact .of_row_none rfl rfl rfl
      · exact .of_row_none rfl rfl rfl

/-- A build that has its pull, as far as it goes. -/
structure PulledFrom (setup : Setup) (paused : List Pubkey) (candidate : Candidate) (locals : Locals)
    (r : Readings) (p : Pulled) : Prop where
  read : ∃ fetched, r.state = some (fetched, locals.asset) ∧ p.state = readState candidate locals fetched
  asset : locals.config.assets[locals.asset]? = some p.asset
  token : locals.config.paymentTokens[candidate.paymentToken]? = some p.token
  unpaused : p.asset.mint ∉ paused
  update : ∃ clock, r.clock = some clock ∧
    r.asset p.asset.pythFeedId.toNat clock = some (some p.assetUpdate)
  pull : ∃ pull, getSweepPull p.state = .ok pull ∧ p.amount = pullTotal pull
  margin : sweepBoundaryMarginSeconds ≤ secondsToNextSweepBoundary p.state
  failed : p.priced.outcome = .failed

theorem PulledFrom.clock {p : Pulled} (h : PulledFrom setup paused candidate locals r p) :
    p.state.now ∈ r.clocks := by
  rcases h.read with ⟨fetched, hread, hstate⟩
  rw [hstate]
  exact mem_clocks_of_state hread

theorem priced_spec {assetEntry : Asset} {assetUpdate : Option AssetUpdate} {clock : ℤ}
    (hasset : locals.config.assets[locals.asset]? = some assetEntry) (hunpaused : assetEntry.mint ∉ paused)
    (hread : r.clock = some clock)
    (hupdate : r.asset assetEntry.pythFeedId.toNat clock = some assetUpdate)
    (hstate : r.state = some (fetched, locals.asset)) :
    match priced setup candidate failures locals assetEntry assetUpdate
        (readState candidate locals fetched) with
    | .error plan => plan.Sound setup paused candidate locals r
    | .ok p => PulledFrom setup paused candidate locals r p := by
  have hclock := @mem_clocks_of_state candidate locals r fetched _ hstate
  unfold priced
  dsimp only
  cases hpull : getSweepPull (readState candidate locals fetched) with
  | error error => exact refusedPull_sound hstate hpull
  | ok pull =>
    dsimp only
    by_cases hmargin : secondsToNextSweepBoundary (readState candidate locals fetched) <
        sweepBoundaryMarginSeconds
    · rw [if_pos hmargin]
      exact .of_row_none rfl rfl rfl
    · rw [if_neg hmargin]
      cases assetUpdate with
      | none => exact .of_failed hclock rfl rfl rfl rfl
      | some assetUpdate =>
        cases htoken : locals.config.paymentTokens[candidate.paymentToken]? with
        | none => exact .of_row_none rfl rfl rfl
        | some token =>
          exact ⟨⟨fetched, hstate, rfl⟩, hasset, htoken, hunpaused, ⟨clock, hread, hupdate⟩,
            ⟨pull, hpull, rfl⟩, not_lt.mp hmargin, rfl⟩

theorem pulled_spec :
    match pulled setup paused candidate failures locals r with
    | .error plan => plan.Sound setup paused candidate locals r
    | .ok p => PulledFrom setup paused candidate locals r p := by
  unfold pulled
  cases hasset : locals.config.assets[locals.asset]? with
  | none => exact .of_row_none rfl rfl rfl
  | some assetEntry =>
    cases hclock : r.clock with
    | none => exact .of_row_none rfl rfl rfl
    | some clock =>
      dsimp only
      by_cases hpaused : assetEntry.mint ∈ paused
      · rw [if_pos hpaused]
        exact .of_failed (by simp [Readings.clocks, hclock]) rfl rfl rfl rfl
      · rw [if_neg hpaused]
        cases hupdate : r.asset assetEntry.pythFeedId.toNat clock with
        | none => exact .of_row_none rfl rfl rfl
        | some assetUpdate =>
          cases hstate : r.state with
          | none => exact .of_row_none rfl rfl rfl
          | some read =>
            rcases read with ⟨fetched, asset⟩
            dsimp only
            by_cases hother : asset ≠ locals.asset
            · rw [if_pos hother]
              exact .of_row_none rfl rfl rfl
            · rw [if_neg hother]
              rw [not_not.mp hother] at hstate
              exact priced_spec hasset hpaused hclock hupdate hstate

theorem paymentUpdate_error {p : Pulled} (h : paymentUpdate r p = .error plan) : plan = .thrown := by
  unfold paymentUpdate at h
  split at h
  · cases h
  · split at h
    · cases h
    · cases h
      rfl

theorem refusedQuote_sound {p : Pulled} {error : ClientError}
    (h : PulledFrom setup paused candidate locals r p) :
    (refusedQuote setup failures p error).Sound setup paused candidate locals r := by
  cases error with
  | restoreRequired reason account => exact .of_row_none rfl rfl rfl
  | lateriteCheck code =>
    simp only [refusedQuote]
    split
    · exact .of_failed h.clock rfl h.failed rfl rfl
    · exact .of_failed h.clock rfl h.failed rfl rfl

/-- A build that has its quotes, as far as it goes. -/
structure QuotedFrom (setup : Setup) (paused : List Pubkey) (candidate : Candidate) (locals : Locals)
    (r : Readings) (q : Quoted) : Prop extends PulledFrom setup paused candidate locals r q.toPulled where
  quotes : quotes q.toPulled q.paymentUpdate = .ok (q.assetQuote, q.paymentQuote)
  minimum : Client.minOut q.amount q.paymentQuote Client.usdDecimals q.assetQuote q.asset.decimals.toNat =
    .ok q.minimum

theorem quoted_spec {p : Pulled} (h : PulledFrom setup paused candidate locals r p) :
    match quoted setup failures r p with
    | .error plan => plan.Sound setup paused candidate locals r
    | .ok q => QuotedFrom setup paused candidate locals r q := by
  unfold quoted
  cases hupdate : paymentUpdate r p with
  | error plan =>
    rw [paymentUpdate_error hupdate]
    exact .of_row_none rfl rfl rfl
  | ok update =>
    dsimp only
    cases hquotes : quotes p update with
    | error error => exact refusedQuote_sound h
    | ok both =>
      rcases both with ⟨assetQuote, paymentQuote⟩
      dsimp only
      cases hminimum : Client.minOut p.amount paymentQuote Client.usdDecimals assetQuote
          p.asset.decimals.toNat with
      | error error => exact .of_row_none rfl rfl rfl
      | ok minimum => exact ⟨h, hquotes, hminimum⟩

structure RoutedFrom (setup : Setup) (paused : List Pubkey) (candidate : Candidate) (locals : Locals)
    (r : Readings) (routed : Routed) : Prop
    extends QuotedFrom setup paused candidate locals r routed.toQuoted where
  route : ∃ excluded, r.routes (routeRequest setup excluded candidate routed.toQuoted) = .ok routed.route
  quoted : routed.minimum ≤ routed.route.quoted
  attempt : routed.routed.outcome = .failed

theorem askRoute_spec {q : Quoted} {treasury : Pubkey}
    (h : QuotedFrom setup paused candidate locals r q) :
    match askRoute setup excluded candidate failures locals r q treasury with
    | .error plan => plan.Sound setup paused candidate locals r
    | .ok routed => RoutedFrom setup paused candidate locals r routed := by
  unfold askRoute
  cases hroute : r.routes (routeRequest setup excluded candidate q) with
  | error error =>
    cases error with
    | noRoute message => exact .of_failed h.clock rfl h.failed rfl rfl
    | swapAccountBound message => exact .of_failed h.clock rfl h.failed rfl rfl
    | thrown => exact .of_row_none rfl rfl rfl
  | ok route =>
    dsimp only
    by_cases hshort : route.quoted < q.minimum
    · rw [if_pos hshort]
      exact .of_failed h.clock rfl h.failed rfl rfl
    · rw [if_neg hshort]
      exact ⟨h, ⟨excluded, hroute⟩, not_lt.mp hshort, h.failed⟩

theorem routed_spec {q : Quoted} (h : QuotedFrom setup paused candidate locals r q) :
    match routed setup excluded candidate failures locals r q with
    | .error plan => plan.Sound setup paused candidate locals r
    | .ok routed => RoutedFrom setup paused candidate locals r routed := by
  have hasked : ∀ treasury, _ := fun treasury =>
    @askRoute_spec setup paused excluded candidate failures locals r q treasury h
  unfold routed
  cases repegged r q with
  | error error =>
    cases error with
    | thrown => exact .of_row_none rfl rfl rfl
    | refusal message =>
      cases r.pythTreasury with
      | none => exact .of_row_none rfl rfl rfl
      | some treasury => exact hasked treasury
  | ok _ =>
    cases r.pythTreasury with
    | none => exact .of_row_none rfl rfl rfl
    | some treasury => exact hasked treasury

theorem client_bind_eq_ok {α β : Type} {x : Except ClientError α} {f : α → Except ClientError β} {b : β} :
    (x >>= f) = .ok b ↔ ∃ a, x = .ok a ∧ f a = .ok b := by
  cases x with
  | error e =>
    constructor
    · intro h
      cases h
    · intro h
      rcases h with ⟨a, ha, -⟩
      cases ha
  | ok a =>
    constructor
    · intro h
      exact ⟨a, rfl, h⟩
    · intro h
      rcases h with ⟨other, ha, hf⟩
      cases ha
      exact hf

/-- An older update may still be quoted, at the same price. -/
theorem quote_of_le {message : List UInt8} {feedId : ℕ} {now age older : ℤ} {q : Client.Quote}
    (hage : age ≤ older) (h : Client.quote message feedId now age = .ok q) :
    Client.quote message feedId now older = .ok q := by
  unfold Client.quote at h ⊢
  by_cases hfeed : feedId = 0
  · rw [if_pos hfeed] at h ⊢
    exact h
  · rw [if_neg hfeed] at h ⊢
    rcases client_bind_eq_ok.mp h with ⟨update, hupdate, h⟩
    rcases client_bind_eq_ok.mp h with ⟨found, hfound, h⟩
    refine client_bind_eq_ok.mpr ⟨update, hupdate, client_bind_eq_ok.mpr ⟨found, hfound, ?_⟩⟩
    cases found with
    | none => cases h
    | some feed =>
      dsimp only at h ⊢
      split at h
      · split at h
        · cases h
        · split at h
          · cases h
          · rename_i hnegative hyoung
            rw [if_neg hnegative, if_neg (by omega)]
            exact h
      · cases h

theorem getSweepInstructions_promises {addresses : SweepAddresses}
    {transactionSize : Pubkey → InstructionData → SweepInstructionWithAccounts → Option ℕ}
    {input : SweepInput} {built : BuiltSweep}
    (h : getSweepInstructions addresses transactionSize input = .ok built) :
    getSweepPull input.state = .ok built.pull ∧ ∃ token asset assetQuote paymentQuote,
      input.state.config.paymentTokens[input.state.paymentToken]? = some token ∧
      input.assets[input.asset]? = some asset ∧
      Client.quote input.assetUpdate asset.pythFeedId.toNat input.state.now Client.maxPriceAgeSeconds =
        .ok assetQuote ∧
      Client.quote (input.paymentUpdate.getD []) token.usdFeedId.toNat input.state.now
        Client.maxPriceAgeSeconds = .ok paymentQuote ∧
      Client.minOut (pullTotal built.pull) paymentQuote Client.usdDecimals assetQuote
        asset.decimals.toNat = .ok built.minOut := by
  have hchecked {α : Type} {result : Except ClientError α} {a : α} (hok : checked result = .ok a) :
      result = .ok a := by
    cases result with
    | error e => cases hok
    | ok b =>
      cases hok
      rfl
  rcases sweepBuild_bind_eq_ok.mp h with ⟨pull, hpull, h⟩
  dsimp only at h
  split at h
  · cases h
  split at h
  · cases h
  split at h
  · cases h
  · cases h
  rename_i token asset htoken hasset
  rcases sweepBuild_bind_eq_ok.mp h with ⟨assetQuote, hassetQuote, h⟩
  rcases sweepBuild_bind_eq_ok.mp h with ⟨paymentQuote, hpaymentQuote, h⟩
  rcases sweepBuild_bind_eq_ok.mp h with ⟨minimum, hminimum, h⟩
  rcases sweepBuild_bind_eq_ok.mp h with ⟨data, -, h⟩
  rcases sweepBuild_bind_eq_ok.mp h with ⟨ed25519, -, h⟩
  split at h
  · cases h
  · cases h
    exact ⟨hchecked hpull, token, asset, assetQuote, paymentQuote, htoken, hasset,
      hchecked hassetQuote, hchecked hpaymentQuote, hchecked hminimum⟩

theorem quotes_eq_ok {p : Pulled} {update : Option (List UInt8)} {assetQuote paymentQuote : Client.Quote}
    (h : quotes p update = .ok (assetQuote, paymentQuote)) :
    Client.quote p.assetUpdate.message p.asset.pythFeedId.toNat p.state.now maxAssetUpdateAgeSeconds =
        .ok assetQuote ∧
      Client.quote (update.getD []) p.token.usdFeedId.toNat p.state.now Client.maxPriceAgeSeconds =
        .ok paymentQuote := by
  rcases client_bind_eq_ok.mp h with ⟨first, hasset, h⟩
  rcases client_bind_eq_ok.mp h with ⟨second, hpayment, h⟩
  cases h
  exact ⟨hasset, hpayment⟩

/-- What is handed over is ready: the builder works the pull and the least output out as the build did,
though it would take an older update. -/
theorem RoutedFrom.ready {routed : Routed} {built : BuiltSweep}
    (h : RoutedFrom setup paused candidate locals r routed)
    (hbuilt : getSweepInstructions setup.addresses setup.transactionSize
      (sweepInput setup candidate locals routed) = .ok built) :
    Ready setup paused candidate locals r routed.state built := by
  rcases getSweepInstructions_promises hbuilt with
    ⟨hpull, token, asset, assetQuote, paymentQuote, htoken, hasset, hassetQuote, hpaymentQuote, hminimum⟩
  rcases h.read with ⟨fetched, hread, hstate⟩
  rcases h.pull with ⟨pull, hpulled, hamount⟩
  rcases h.route with ⟨excluded, hroute⟩
  obtain rfl : pull = built.pull := Except.ok.inj (hpulled.symm.trans hpull)
  have hsame : asset = routed.asset := by
    have hlisted : locals.config.assets[locals.asset]? = some asset := by
      rw [← hasset]
      exact (Vector.getElem?_toList).symm
    exact Option.some.inj (hlisted.symm.trans h.asset)
  have hsametoken : token = routed.token := by
    have hlisted : locals.config.paymentTokens[candidate.paymentToken]? = some token := by
      rw [← htoken]
      change _ = routed.state.config.paymentTokens[routed.state.paymentToken]?
      rw [hstate]
      exact (Vector.getElem?_toList).symm
    exact Option.some.inj (hlisted.symm.trans h.token)
  subst hsame hsametoken
  rcases quotes_eq_ok h.quotes with ⟨hassetYoung, hpaymentYoung⟩
  have hassetSame := Except.ok.inj ((quote_of_le (by decide) hassetYoung).symm.trans hassetQuote)
  have hpaymentSame := Except.ok.inj (hpaymentYoung.symm.trans hpaymentQuote)
  have hleast : routed.minimum = built.minOut := by
    have hbuiltMinimum := h.minimum
    rw [hassetSame, hpaymentSame, hamount] at hbuiltMinimum
    exact Except.ok.inj (hbuiltMinimum.symm.trans hminimum)
  rcases h.update with ⟨clock, hclock, hupdate⟩
  refine ⟨⟨fetched, hread, hstate⟩, ⟨routed.asset, clock, routed.assetUpdate, routed.assetQuote, h.asset,
    h.unpaused, hclock, hupdate, hassetYoung⟩, hpull, h.margin, ?_⟩
  refine ⟨_, routed.route, hroute, ?_, rfl, ?_⟩
  · exact congrArg Int.toNat hamount
  · rw [← hleast]
    exact h.quoted

/-- What is known of a sweep that was handed over and its answer. -/
theorem failedSweep_sound {routed : Routed} {built : BuiltSweep} {error : InstructionError}
    {errorText : String} {logs : List Logs.Line} {signature : Option String}
    (h : RoutedFrom setup paused candidate locals r routed)
    (hready : Ready setup paused candidate locals r routed.state built)
    (hsent : r.send built maxSweepComputeUnitLimit = .failed error errorText logs signature) :
    (failedSweep setup failures locals r routed
      (sweepFailure setup.programs error errorText logs locals.config.router) signature).Sound setup
      paused candidate locals r := by
  unfold failedSweep
  dsimp only
  cases haction : (sweepFailure setup.programs error errorText logs locals.config.router).action with
  | swept => exact .of_word h.clock rfl (.inl rfl) (.failed hready hsent (.inl ⟨haction, rfl⟩)) rfl (by simp)
  | pull => exact .of_word h.clock rfl (.inl rfl) (.failed hready hsent (.inr ⟨haction, rfl⟩)) rfl (by simp)
  | rebuild =>
    dsimp only
    split
    · exact .of_failed h.clock rfl h.attempt rfl rfl
    · exact .of_failed h.clock rfl h.attempt rfl rfl
  | _ => exact .of_failed h.clock rfl h.attempt rfl rfl

theorem sent_sound {routed : Routed} {built : BuiltSweep}
    (h : RoutedFrom setup paused candidate locals r routed)
    (hready : Ready setup paused candidate locals r routed.state built) :
    (sent setup failures locals r routed (r.send built maxSweepComputeUnitLimit)).Sound setup paused
      candidate locals r := by
  cases hsent : r.send built maxSweepComputeUnitLimit with
  | landed landed unread =>
    cases unread with
    | some message => exact .of_failed h.clock rfl h.attempt rfl rfl
    | none =>
      refine .of_word h.clock rfl (.inr rfl) (.landed hready hsent rfl rfl) rfl ?_
      intro attempt hattempt
      cases hattempt
      exact h.attempt
  | computeLimitExceeded limit ceiling => exact .of_failed h.clock rfl h.attempt rfl rfl
  | oversized => exact .of_word h.clock rfl (.inl rfl) (.oversized hready hsent rfl) rfl (by simp [sent])
  | failed error errorText logs signature => exact failedSweep_sound h hready hsent
  | thrown message => exact .of_failed h.clock rfl h.attempt rfl rfl

theorem build_sound :
    (build setup paused excluded candidate failures locals r).Sound setup paused candidate locals r := by
  unfold build
  have hpulled := @pulled_spec setup paused candidate failures locals r
  cases hp : pulled setup paused candidate failures locals r with
  | error plan =>
    rw [hp] at hpulled
    exact hpulled
  | ok p =>
    rw [hp] at hpulled
    have hquoted := @quoted_spec setup paused candidate failures locals r p hpulled
    dsimp only
    cases hq : quoted setup failures r p with
    | error plan =>
      rw [hq] at hquoted
      exact hquoted
    | ok q =>
      rw [hq] at hquoted
      have hrouted := @routed_spec setup paused excluded candidate failures locals r q hquoted
      dsimp only
      cases hr : routed setup excluded candidate failures locals r q with
      | error plan =>
        rw [hr] at hrouted
        exact hrouted
      | ok done =>
        rw [hr] at hrouted
        dsimp only
        unfold handed
        dsimp only
        cases hbuilt : getSweepInstructions setup.addresses setup.transactionSize
            (sweepInput setup candidate locals done) with
        | error e => exact .of_row_none rfl rfl rfl
        | ok built =>
          have hready := RoutedFrom.ready hrouted hbuilt
          have hsent := @sent_sound setup paused candidate failures locals r done built hrouted hready
          refine ⟨hsent.dated, hsent.ends, hsent.otherwise, ?_⟩
          intro state other hhanded
          cases hhanded
          exact ⟨hrouted.clock, hready⟩

end

end Laterite.Crank
