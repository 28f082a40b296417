import Laterite.ClientSweep
import Laterite.ReplayedRuns

/-!
# The sweep the client foretells

A pull the client returns settles the program's plan, an error it throws is the one every sweep
returns, and where it asks for a restore the invoked programs refuse the transfer. Its times are
unbounded, so it foretells the sweeps whose times stay within the program's words.
-/

namespace Laterite.Client

open CheckedComputation

/-- How what the client computes bears on what the program computes: a pull it returns settles
the plan, an error it throws is the program's, and a restore it asks for blocks the pull. -/
inductive Foretells {α β : Type} (Settled : α → Result β → Prop) (Blocked : Result β → Prop) :
    Except ClientError α → Result β → Prop where
  | ok {a : α} {y : Result β} (h : Settled a y) : Foretells Settled Blocked (.ok a) y
  | check (e : LateriteError) :
    Foretells Settled Blocked (.error (.lateriteCheck e.code)) (.error (.error (.laterite e)))
  | restore {reason : RestoreReason} {account : Pubkey} {y : Result β} (h : Blocked y) :
    Foretells Settled Blocked (.error (.restoreRequired reason account)) y

section Foretells

variable {α β : Type} {Settled : α → Result β → Prop} {Blocked : Result β → Prop}
  {c c' : Prop} [Decidable c] [Decidable c'] {x : Except ClientError α} {y : Result β}

theorem Foretells.guard (e : LateriteError) (hc : c ↔ ¬c')
    (h : c' → Foretells Settled Blocked x y) :
    Foretells Settled Blocked (if c then .error (.lateriteCheck e.code) else x)
      (require c' (ProgramError.laterite e) >>= fun _ => y) := by
  by_cases hmet : c'
  · rw [if_neg fun hthrow => hc.mp hthrow hmet, require_of hmet]
    exact h hmet
  · rw [if_pos (hc.mpr hmet), require_of_not hmet]
    exact Foretells.check e

theorem Foretells.ask {reason : RestoreReason} {account : Pubkey} (hblocked : c → Blocked y)
    (h : ¬c → Foretells Settled Blocked x y) :
    Foretells Settled Blocked (if c then .error (.restoreRequired reason account) else x) y := by
  by_cases hasked : c
  · rw [if_pos hasked]
    exact Foretells.restore (hblocked hasked)
  · rw [if_neg hasked]
    exact h hasked

end Foretells

section Foretelling

variable {d : Deployment} {packages : Packages} {inv : Invocation} {chain : Chain} {ctx : SweepAccounts}
  {paymentToken : UInt8} {user : Pubkey} {state : SweepState} {config : Laterite.Config}
  {userConfig : Laterite.UserConfig} {token : PaymentToken}

/-- No difference or sum of the state's times leaves the program's 64-bit word. -/
structure Unsaturated (now : ℤ) (userConfig : Laterite.UserConfig)
    (subscription : Option SubscriptionDelegation) : Prop where
  enrolled : I64.minValue ≤ userConfig.enrolledAt
  trial : userConfig.enrolledAt + trialSeconds ≤ I64.maxValue
  elapsed : now - userConfig.enrolledAt ≤ I64.maxValue
  ran : userConfig.engineRanAt - userConfig.enrolledAt ≤ I64.maxValue
  period : ∀ s, subscription = some s → now - s.currentPeriodStartTs ≤ I64.maxValue

/-- The pull settles the plan: only the swap's accounts are left to check, the invoked programs
have no reason to refuse the transfer, and it is within the subscription's period. -/
def Settles (d : Deployment) (packages : Packages) (inv : Invocation) (chain : Chain)
    (ctx : SweepAccounts) (config : Laterite.Config) (userConfig : Laterite.UserConfig)
    (token : PaymentToken) (p : Pull) (y : Result SweepPlan) : Prop :=
  ∃ (today : UInt32) (q : Laterite.Pull) (total : UInt64),
    y = settlePlan d chain ctx config userConfig token today q total ∧
    p = Pull.of q ∧ (total.toNat : ℤ) = pullTotal p ∧ 0 < total ∧
    ¬TransferRefused d packages inv.now (transferCall d ctx token userConfig.user total) chain.accounts ∧
    total ≤ d.remaining (chain.accounts.info ctx.subscription) inv.now

/-- Any plan left leads to a transfer the invoked programs refuse. -/
def Blocks (d : Deployment) (packages : Packages) (inv : Invocation) (chain : Chain)
    (ctx : SweepAccounts) (y : Result SweepPlan) : Prop :=
  ∀ plan, y = .ok plan → TransferRefused d packages inv.now
    (transferCall d ctx plan.token plan.userConfig.user plan.total) chain.accounts

theorem settlePlan_ok {today : UInt32} {q : Laterite.Pull} {total : UInt64} {plan : SweepPlan}
    (h : settlePlan d chain ctx config userConfig token today q total = .ok plan) :
    plan.pull = q ∧ plan.total = total := by
  simp only [settlePlan, bind_eq_ok, pure_eq_ok] at h
  obtain ⟨_, -, _, -, rfl⟩ := h
  exact ⟨rfl, rfl⟩

theorem getSweepPull_foretells {t : TokenAccountState}
    (h : Fetched d packages chain inv.now paymentToken.toNat user config userConfig token state)
    (hconfig : chain.config = some config) (huser : chain.userConfigs user = some userConfig)
    (htoken : config.paymentTokens[paymentToken.toNat]? = some token)
    (hpassed : Passed d packages inv config userConfig token paymentToken user ctx)
    (halike : packages.ReadAlike d) (hexists : state.paymentAccountState = some t)
    (htimes : Unsaturated inv.now userConfig state.subscription) :
    Foretells (Settles d packages inv chain ctx config userConfig token)
      (Blocks d packages inv chain ctx) (getSweepPull state)
      (planSweep d inv chain ctx paymentToken) := by
  have hindex : paymentToken.toNat < 2 := (Vector.getElem?_eq_some_iff.mp htoken).1
  rcases @exists_lastSweepDay userConfig _ hindex with ⟨lastDay, hlastDay⟩
  obtain ⟨hdecoded, balance, hbalance, hamount⟩ := h.amount_eq halike hexists
  have hword (x : ℤ) (hx : x ≤ I64.maxValue) : x ≤ 2 ^ 63 := by
    unfold I64.maxValue at hx
    omega
  rcases pull_eq userConfig paymentToken.toNat balance config.userWeeklyCap config.marketCalendar
    htimes.enrolled htimes.trial (hword _ htimes.elapsed) (hword _ htimes.ran)
    with ⟨due, hdue, hclientDue⟩
  rcases exists_total (UserConfig.pull_fits hdue) with ⟨dueTotal, hdueTotal, -, hduePositive⟩
  have hsigner : inv.requireSigner ctx.crank = .ok () := require_of hpassed.crank _
  have hloadConfig : chain.loadConfig = .ok config := chain.loadConfig_eq_ok.mpr hconfig
  have hloadUser : chain.loadUserConfig ctx.userConfig = .ok userConfig := by
    rw [hpassed.user_eq]
    exact (chain.loadUserConfig_eq_ok user).mpr huser
  have hbalance' : amount (chain.accounts.info ctx.userPaymentAccount) = .ok balance := by
    rw [hpassed.paymentAccount, ← h.paymentAccount]
    exact hbalance
  have htokenOk : okOr config.paymentTokens[paymentToken.toNat]?
      (ProgramError.laterite .unknownPaymentToken) = .ok token := okOr_eq_ok.mpr htoken
  have hlastOk : (orPanic userConfig.lastSweepDay[paymentToken.toNat]? : Result UInt32) =
      .ok lastDay := orPanic_eq_ok.mpr hlastDay
  have hclientToken : (Config.of config).paymentTokens[paymentToken.toNat]?.isNone = false := by
    dsimp only [Config.of]
    rw [Vector.getElem?_toList, htoken]
    rfl
  have hclientDue' : pull (UserConfig.of userConfig) paymentToken.toNat
      (((some t).map TokenAccountState.amount).getD 0) (Config.of config).userWeeklyCap
      (Config.of config).marketCalendar inv.now = Pull.of due := by
    rw [Option.map_some, Option.getD_some, hamount]
    exact hclientDue
  have hsession : (UserConfig.of userConfig).engine = .weekly ∧
      ¬usMarketOpen inv.now (Config.of config).marketCalendar = true ↔
      ¬(userConfig.engine ≠ .weekly ∨ Laterite.usMarketOpen inv.now config.marketCalendar = true) := by
    dsimp only [UserConfig.of, Config.of]
    rw [usMarketOpen_eq, not_or, not_not]
  rw [planSweep, hsigner, ok_bind, hloadConfig, ok_bind, hloadUser, ok_bind,
    require_of hpassed.router, ok_bind]
  unfold getSweepPull
  simp only [h.config, h.now, h.paymentToken, h.userConfig, hexists, hclientDue', hclientToken]
  apply Foretells.guard .programPaused not_not.symm
  intro _
  rw [htokenOk, ok_bind, hlastOk, ok_bind, if_neg Bool.false_ne_true]
  apply Foretells.guard .alreadySwept (lastSweepDay_any inv.now hlastDay)
  intro _
  apply Foretells.guard .nothingToSweep hsession
  intro _
  rw [hbalance', ok_bind, hdue, ok_bind, hdueTotal, ok_bind]
  apply Foretells.guard .nothingToSweep hduePositive
  intro _
  rw [enables_of_lt (by omega), ok_bind]
  apply Foretells.guard .unknownPaymentToken (enabled_eq hindex)
  intro _
  rw [require_of hpassed.paymentMint, ok_bind, require_of hpassed.paymentTokenProgram, ok_bind]
  by_cases htier : userConfig.tier.toNat < 2
  swap
  · have hnone : state.subscription = none := by
      have hread := h.subscription
      rw [decodeSubscription, if_neg htier] at hread
      exact (Option.some.inj hread).symm
    rw [hnone, planAt_panic hindex htier]
    exact Foretells.restore fun plan hplan => by cases hplan
  rcases h.subscription_eq halike htier with ⟨initId, hsubscription⟩
  rw [planAt_eq hindex htier, ok_bind, require_of hpassed.plan, ok_bind]
  have hrefused (p : Laterite.PaymentToken) (u : Pubkey) (total : UInt64) :
      TransferRefused d packages inv.now (transferCall d ctx p u total) chain.accounts ↔
        ¬Restorable state t inv.now total :=
    h.transferRefused_iff halike htier hexists hpassed.subscription
      (hpassed.authority.trans h.authority.symm) (hpassed.paymentAccount.trans h.paymentAccount.symm)
  apply Foretells.ask fun hends plan _ => (hrefused _ _ _).mpr fun hsound => hends hsound.running
  intro hruns
  apply Foretells.ask fun hdiffers plan _ => (hrefused _ _ _).mpr fun hsound =>
    hdiffers hsound.authority
  intro hsame
  apply Foretells.ask fun hfrozen plan _ => (hrefused _ _ _).mpr fun hsound => by
    rw [Option.any_some, hsound.thawed] at hfrozen
    cases hfrozen
  intro hthawed
  have hremaining : nativeRemaining state.subscription inv.now =
      (d.remaining (chain.accounts.info ctx.subscription) inv.now).toNat := by
    rw [hsubscription, hpassed.subscription]
    apply nativeRemaining_eq
    intro s hread
    rw [hread, Option.map_some] at hsubscription
    exact hword _ (htimes.period _ hsubscription)
  rcases cappedPull_eq due (d.remaining (chain.accounts.info ctx.subscription) inv.now)
    with ⟨q, hq, hclientCapped⟩
  have hcapped := Laterite.Pull.capped_spec hq
  have hfits := UserConfig.pull_fits hdue
  rcases @exists_total q (by omega) with ⟨total, htotal, htotalValue, hpositive⟩
  have hsum := Laterite.Pull.total_eq_ok.mp htotal
  rw [hremaining, hclientCapped, hq, ok_bind, htotal, ok_bind]
  apply Foretells.guard .nothingToSweep hpositive
  intro hmoved
  apply Foretells.ask
  · intro hshort plan hplan
    rw [hrefused]
    intro hsound
    rw [show plan.total = total from (settlePlan_ok hplan).2] at hsound
    rcases hshort with hdelegate | hamount
    · exact hdelegate hsound.delegate
    · rw [Option.any_some, decide_eq_true_eq, ← htotalValue] at hamount
      exact not_lt.mpr hsound.approved hamount
  intro happroved
  rw [not_or, not_not, Option.any_some, decide_eq_true_eq, not_lt, ← htotalValue] at happroved
  apply Foretells.ok
  refine ⟨UInt32.ofInt (inv.now / Laterite.daySeconds), q, total, rfl, rfl, htotalValue, hmoved, ?_, ?_⟩
  · rw [hrefused, not_not]
    rw [not_not] at hruns hsame
    rw [Option.any_some, Bool.not_eq_true] at hthawed
    exact ⟨hruns, hsame, hthawed, happroved.1, happroved.2⟩
  · rw [UInt64.le_iff_toNat_le]
    omega

theorem Settles.pulled {p : Pull} {assetMessage paymentMessage route : List UInt8}
    {ed25519Index : UInt16} {routeAccounts : List RouteAccount} {event : Event} {after : Chain}
    (h : Settles d packages inv chain ctx config userConfig token p
      (planSweep d inv chain ctx paymentToken))
    (hsweep : sweep d inv chain ctx assetMessage paymentMessage ed25519Index paymentToken route
      routeAccounts = .ok (event, after)) :
    ∃ swept, event = .swept swept ∧ p = ⟨swept.engine.toNat, swept.pending.toNat⟩ := by
  obtain ⟨today, q, total, hplan, rfl, -⟩ := h
  rw [sweep, hplan] at hsweep
  simp only [settlePlan, bind_eq_ok, pure_eq_ok] at hsweep
  obtain ⟨plan, ⟨_, -, _, -, rfl⟩, _, -, _, -, _, -, _, -, hevent⟩ := hsweep
  exact ⟨_, congrArg Prod.fst hevent.symm, rfl⟩

/-- What the answer says of every sweep with these accounts, whatever its updates and its route.
A pull settles the plan and is what a sweep that succeeds reports; a check's number is that of
the error every sweep returns; and where a restore is asked for no sweep succeeds. -/
def Foretold (d : Deployment) (packages : Packages) (inv : Invocation) (chain : Chain)
    (ctx : SweepAccounts) (config : Laterite.Config) (userConfig : Laterite.UserConfig)
    (token : PaymentToken) (paymentToken : UInt8) (answer : Except ClientError Pull) : Prop :=
  let run (assetMessage paymentMessage : List UInt8) (ed25519Index : UInt16) (route : List UInt8)
      (routeAccounts : List RouteAccount) :=
    sweep d inv chain ctx assetMessage paymentMessage ed25519Index paymentToken route routeAccounts
  match answer with
  | .ok p => Settles d packages inv chain ctx config userConfig token p
        (planSweep d inv chain ctx paymentToken) ∧
      ∀ assetMessage paymentMessage ed25519Index route routeAccounts event after,
        run assetMessage paymentMessage ed25519Index route routeAccounts = .ok (event, after) →
          ∃ swept, event = .swept swept ∧ p = ⟨swept.engine.toNat, swept.pending.toNat⟩
  | .error (.lateriteCheck code) => ∃ e : LateriteError, code = e.code ∧
      ∀ assetMessage paymentMessage ed25519Index route routeAccounts,
        run assetMessage paymentMessage ed25519Index route routeAccounts =
          .error (.error (.laterite e))
  | .error (.restoreRequired _ _) =>
      ∀ assetMessage paymentMessage ed25519Index route routeAccounts result,
        run assetMessage paymentMessage ed25519Index route routeAccounts ≠ .ok result

theorem sweep_foretold
    (hread : fetchSweepState d packages chain inv.now paymentToken.toNat user = some state)
    (hexists : state.paymentAccountState.isSome = true)
    (hconfig : chain.config = some config) (huser : chain.userConfigs user = some userConfig)
    (htoken : config.paymentTokens[paymentToken.toNat]? = some token)
    (hpassed : Passed d packages inv config userConfig token paymentToken user ctx)
    (halike : packages.ReadAlike d) (hrefusing : Refusing d packages inv.programs inv.now)
    (htimes : Unsaturated inv.now userConfig state.subscription) :
    Foretold d packages inv chain ctx config userConfig token paymentToken (getSweepPull state) := by
  obtain ⟨t, ht⟩ := Option.isSome_iff_exists.mp hexists
  have hforetells := getSweepPull_foretells (fetchSweepState_eq hread hconfig huser htoken) hconfig
    huser htoken hpassed halike ht htimes
  generalize hy : planSweep d inv chain ctx paymentToken = y at hforetells
  generalize getSweepPull state = answer at hforetells
  cases hforetells with
  | ok hsettles =>
    subst hy
    exact ⟨hsettles, fun _ _ _ _ _ _ _ hsweep => hsettles.pulled hsweep⟩
  | check e =>
    refine ⟨e, rfl, fun assetMessage paymentMessage ed25519Index route routeAccounts => ?_⟩
    dsimp only
    rw [sweep, hy]
    rfl
  | restore hblocked =>
    intro assetMessage paymentMessage ed25519Index route routeAccounts result hsweep
    dsimp only at hsweep
    simp only [sweep, hy, bind_eq_ok] at hsweep
    obtain ⟨plan, hplan, ⟨assetQuote, minimum⟩, -, ⟨accounts, received⟩, hswap, -⟩ := hsweep
    obtain ⟨pulled, hswapped⟩ := swap_ok hswap
    obtain ⟨after, htransferred, -⟩ := invoke_eq_ok.mp hswapped.transferred
    have hnone := hrefusing _ _ (hblocked plan hplan)
    exact Option.some_ne_none _ (htransferred.symm.trans hnone)

end Foretelling

/-- The invoked programs let a transfer through only with no reason to refuse it. -/
def accepts (d : Deployment) (packages : Packages) (now : ℤ) (call : TransferSubscription)
    (accounts : Accounts) : Bool :=
  (d.readSubscription (accounts.info call.subscriptionPda)).any
      (fun s => s.expiresAtTs = 0 ∨ now < s.expiresAtTs) &&
    decide (authorityInitId d packages (accounts call.subscriptionAuthority) =
      subscriptionInitId packages (accounts call.subscriptionPda)) &&
    (packages.decodeToken ((accounts call.delegatorAta).data.take 165)).any fun t =>
      ¬t.frozen ∧ t.delegate = some call.subscriptionAuthority ∧
        (call.amount.toNat : ℤ) ≤ t.delegatedAmount

theorem accepts_eq_false {d : Deployment} {packages : Packages} {now : ℤ}
    {call : TransferSubscription} {accounts : Accounts}
    (h : TransferRefused d packages now call accounts) :
    accepts d packages now call accounts = false := by
  cases h with
  | closed hclosed =>
    rw [accepts, hclosed, Option.any_none, Bool.false_and, Bool.false_and]
  | expired hread hexpiry hpast =>
    have hends : decide (_ ∨ _) = false := decide_eq_false (not_or.mpr ⟨hexpiry, not_lt.mpr hpast⟩)
    rw [accepts, hread, Option.any_some, hends, Bool.false_and, Bool.false_and]
  | authority hdiffers =>
    rw [accepts, decide_eq_false hdiffers, Bool.and_false, Bool.false_and]
  | @account t hread hrefused =>
    have hnot : ¬(¬t.frozen = true ∧ t.delegate = some call.subscriptionAuthority ∧
        (call.amount.toNat : ℤ) ≤ t.delegatedAmount) := by
      rintro ⟨hthawed, hdelegate, happroved⟩
      rcases hrefused with hfrozen | hother | hshort
      · exact hthawed hfrozen
      · exact hother hdelegate
      · omega
    rw [accepts, hread, Option.any_some, decide_eq_false hnot, Bool.and_false]

namespace SweepRehearsal

open Rehearsal (address deployment user founder router params readSubscriptionData
  sweepAccounts tokenData)

/-- A token account's base layout: the amount after the mint and the owner, the delegate's tag
and key, the account's state, its native tag and reserve, and the delegated amount. -/
def decodeToken (data : List UInt8) : Option TokenAccountState :=
  if 165 ≤ data.length then some {
    amount := LittleEndian.toNat ((data.take 72).drop 64)
    delegate := if LittleEndian.toNat ((data.take 76).drop 72) = 0 then none
      else Rehearsal.toAddress ((data.take 108).drop 76)
    delegatedAmount := LittleEndian.toNat ((data.take 129).drop 121)
    frozen := data[108]? = some 2 }
  else none

def packages : Packages where
  decodeToken := decodeToken
  decodeSubscriptionAuthority := fun data => data.head?.map fun byte => ⟨byte.toNat⟩
  decodeSubscriptionDelegation := fun data =>
    (readSubscriptionData data).map (SubscriptionDelegation.of 5)
  findAssociatedTokenPda := fun _ _ _ => address 60
  findSubscriptionAuthorityPda := fun _ _ => address 70

/-- The user's account holds a hundred dollars and lets the authority move fifty. -/
def accounts : Accounts := fun key =>
  match Rehearsal.number key with
  | 60 => ⟨address 204, tokenData (address 22) user 100000000 ++ LittleEndian.bytes 4 1 ++
      (address 70).toList ++ 1 :: List.replicate 12 0 ++ LittleEndian.bytes 8 50000000 ++
      List.replicate 36 0⟩
  | 70 => ⟨address 203, [5]⟩
  | _ => Rehearsal.accounts key

def config : Laterite.Config where
  admin := founder
  pendingAdmin := Pubkey.default
  paused := false
  router := router
  attestor := params.settings.attestor
  sponsor := params.settings.sponsor
  userWeeklyCap := params.settings.userWeeklyCap
  maxUsers := params.settings.maxUsers
  userCount := 1
  assets := params.assets
  paymentTokens := params.paymentTokens
  marketCalendar := Laterite.MarketCalendar.default
  genesisHash := params.genesisHash

def chain (userConfig : Laterite.UserConfig) : Chain :=
  ⟨some config, Function.update (fun _ => none) user (some userConfig), fun _ => none, accounts⟩

def invocation (now : ℤ) (h : I64.minValue ≤ now ∧ now ≤ I64.maxValue) : Invocation where
  now := now
  now_bounds := h
  signers := ⟨[founder], Rehearsal.founder_signs⟩
  previousInstruction := none
  programs := { Rehearsal.programs with
    transferSubscription := fun call accounts =>
      if accepts deployment packages now call accounts then Rehearsal.transfer call accounts
      else none }

theorem readAlike : packages.ReadAlike deployment where
  token_amount := by
    intro data t h
    change decodeToken data = some t at h
    unfold decodeToken at h
    split at h
    · rename_i hwide
      cases h
      exact ⟨by omega, rfl⟩
    · cases h
  subscription_eq := by
    intro data s h
    obtain ⟨p, hp, rfl⟩ := Option.map_eq_some_iff.mp h
    exact ⟨p, hp, rfl⟩

theorem refusing (now : ℤ) (h : I64.minValue ≤ now ∧ now ≤ I64.maxValue) :
    Refusing deployment packages (invocation now h).programs now := by
  intro call accounts hrefused
  exact if_neg (by rw [accepts_eq_false hrefused]; exact Bool.false_ne_true)

theorem passed (now : ℤ) (h : I64.minValue ≤ now ∧ now ≤ I64.maxValue)
    {userConfig : Laterite.UserConfig} (htier : userConfig.tier = 0) :
    Passed deployment packages (invocation now h) config userConfig
      config.paymentTokens[0] 0 user sweepAccounts where
  crank := List.mem_singleton_self _
  user_eq := rfl
  router := rfl
  plan := by rw [htier]; decide +kernel
  subscription := by rw [htier]; decide +kernel
  authority := rfl
  paymentMint := rfl
  paymentTokenProgram := rfl
  paymentAccount := rfl

def customer : Laterite.UserConfig := { newcomer with user := user }

/-- A user enrolled a thousand seconds before the clock's last, who invests eight dollars a day. -/
def latecomer : Laterite.UserConfig :=
  { customer with
    engineAmount := 8000000
    pending := 0
    enrolledAt := I64.maxValue - 1000
    attestableFrom := I64.maxValue - 1000 }

/-- The client's reading for a sweep of the first token, when the user has these settings. -/
def reading (userConfig : Laterite.UserConfig) (now : ℤ) : Option SweepState :=
  fetchSweepState deployment packages (chain userConfig) now 0 user

structure Reads (userConfig : Laterite.UserConfig) (now : ℤ) (pull : Pull) (state : SweepState) :
    Prop where
  read : reading userConfig now = some state
  account : state.paymentAccountState.isSome = true
  pull : getSweepPull state = .ok pull
  period : ∀ s, state.subscription = some s → s.currentPeriodStartTs = 0

theorem exists_reads {userConfig : Laterite.UserConfig} {now : ℤ} {p : Pull}
    (h : (reading userConfig now).any (fun state => state.paymentAccountState.isSome &&
      decide (state.subscription.map (·.currentPeriodStartTs) = some 0)) = true)
    (hpull : (reading userConfig now).map getSweepPull = some (.ok p)) :
    ∃ state, Reads userConfig now p state := by
  obtain ⟨state, hread, hpull⟩ := Option.map_eq_some_iff.mp hpull
  rw [hread, Option.any_some, Bool.and_eq_true, decide_eq_true_eq] at h
  refine ⟨state, hread, h.1, hpull, fun s hs => ?_⟩
  have hperiod := h.2
  rw [hs, Option.map_some, Option.some.injEq] at hperiod
  exact hperiod

end SweepRehearsal

open Rehearsal (deployment user sweepAccounts) in
open SweepRehearsal in
theorem sweep_foretold_customer :
    ∃ state, Reads customer 1700000100 ⟨1000000, 1400000⟩ state ∧
      Foretold deployment packages (invocation 1700000100 (by decide)) (chain customer)
        sweepAccounts config customer config.paymentTokens[0] 0 (getSweepPull state) := by
  obtain ⟨state, hreads⟩ := @exists_reads customer 1700000100 ⟨1000000, 1400000⟩
    (by decide +kernel) (by decide +kernel)
  have huser : (chain customer).userConfigs user = some customer :=
    @Function.update_self Pubkey (fun _ => Option Laterite.UserConfig) _ user (some customer)
      fun _ => none
  have hread : fetchSweepState deployment packages (chain customer)
      (invocation 1700000100 (by decide)).now (0 : UInt8).toNat user = some state := hreads.read
  refine ⟨state, hreads, sweep_foretold hread hreads.account rfl huser rfl (passed _ _ rfl) readAlike
    (refusing _ _) ?_⟩
  refine ⟨by decide, by decide, by decide, by decide, fun s hs => ?_⟩
  rw [hreads.period s hs]
  decide

open Rehearsal (deployment user sweepAccounts) in
open SweepRehearsal in
/-- At the end of the clock's range the program's trial has ended, its sum cut off; the client's
has not. -/
theorem sweep_foretold_saturates :
    ∃ state, fetchSweepState deployment packages (chain latecomer) I64.maxValue 0 user = some state ∧
      state.paymentAccountState.isSome = true ∧
      Passed deployment packages (invocation I64.maxValue (by decide)) config latecomer
        config.paymentTokens[0] 0 user sweepAccounts ∧
      packages.ReadAlike deployment ∧
      Refusing deployment packages (invocation I64.maxValue (by decide)).programs I64.maxValue ∧
      ¬Foretold deployment packages (invocation I64.maxValue (by decide)) (chain latecomer)
        sweepAccounts config latecomer config.paymentTokens[0] 0 (getSweepPull state) := by
  obtain ⟨state, hreads⟩ := @exists_reads latecomer I64.maxValue ⟨5000000, 0⟩
    (by decide +kernel) (by decide +kernel)
  have hplan : (planSweep deployment (invocation I64.maxValue (by decide)) (chain latecomer)
      sweepAccounts 0).map (·.pull.engine) = .ok 8000000 := by
    decide +kernel
  refine ⟨state, hreads.read, hreads.account, passed _ _ rfl, readAlike, refusing _ _,
    fun hforetold => ?_⟩
  rw [hreads.pull] at hforetold
  obtain ⟨⟨today, q, total, hsettles, hq, -⟩, -⟩ := hforetold
  rw [hsettles] at hplan
  have hengine : q.engine = 8000000 := by
    cases hsettled : settlePlan deployment (chain latecomer) sweepAccounts config latecomer
        config.paymentTokens[0] today q total with
    | error e =>
      rw [hsettled] at hplan
      cases hplan
    | ok plan =>
      rw [hsettled] at hplan
      obtain rfl := (settlePlan_ok hsettled).1
      exact Except.ok.inj hplan
  have hclient : (5000000 : ℤ) = q.engine.toNat := congrArg Pull.engine hq
  rw [hengine] at hclient
  exact absurd hclient (by decide)

end Laterite.Client
