import Laterite.ClientAmounts
import Laterite.SweepOutcome

/-!
# What the client foretells of a sweep

Before building a sweep the client reads the accounts it depends on, at one clock, and works
out what will be pulled. It checks the state of the user's authority, approval and account,
which only the programs the sweep invokes look at, between the program's own checks.
-/

namespace Laterite.Client

open CheckedComputation

structure TokenAccountState where
  amount : ℤ
  delegate : Option Pubkey
  delegatedAmount : ℤ
  frozen : Bool

structure SubscriptionAuthority where
  initId : ℤ

/-- The part of the config a sweep's amount depends on. -/
structure Config where
  paused : Bool
  paymentTokens : List PaymentToken
  userWeeklyCap : ℤ
  marketCalendar : MarketCalendar

def Config.of (config : Laterite.Config) : Config where
  paused := config.paused
  paymentTokens := config.paymentTokens.toList
  userWeeklyCap := config.userWeeklyCap.toNat
  marketCalendar := MarketCalendar.of config.marketCalendar

/-- Everything a sweep's amount depends on, read at the cluster's clock. -/
structure SweepState where
  authority : Pubkey
  authorityState : Option SubscriptionAuthority
  config : Config
  now : ℤ
  paymentAccount : Pubkey
  paymentAccountState : Option TokenAccountState
  paymentToken : ℕ
  subscription : Option SubscriptionDelegation
  userConfig : UserConfig

structure Packages where
  decodeToken : List UInt8 → Option TokenAccountState
  decodeSubscriptionAuthority : List UInt8 → Option SubscriptionAuthority
  decodeSubscriptionDelegation : List UInt8 → Option SubscriptionDelegation
  findAssociatedTokenPda : (mint owner tokenProgram : Pubkey) → Pubkey
  findSubscriptionAuthorityPda : (tokenMint user : Pubkey) → Pubkey

variable (d : Deployment) (packages : Packages)

/-- What an account holds for a program that owns it; nothing when another does. A decoder that
throws ends the reading. -/
def decodeOwned {α : Type} (account : Account) (owner : Pubkey) (decode : List UInt8 → Option α) :
    Option (Option α) :=
  if account.owner = owner then (decode account.data).map some else some none

def decodeTokenAccountState (account : Account) (tokenProgram : Pubkey) :
    Option (Option TokenAccountState) :=
  decodeOwned account tokenProgram fun data => packages.decodeToken (data.take 165)

def findSubscriptionAddress (user : Pubkey) (paymentToken tier : ℕ) : Pubkey :=
  (d.findPda (d.plan paymentToken tier) user).1

def decodeSubscription (chain : Chain) (user : Pubkey) (paymentToken tier : ℕ) :
    Option (Option SubscriptionDelegation) :=
  if tier < 2 then
    decodeOwned (chain.accounts (findSubscriptionAddress d user paymentToken tier)) d.subscriptionsId
      packages.decodeSubscriptionDelegation
  else some none

/-- Reads the state a sweep of `user`'s `paymentToken` depends on; nothing when it throws. -/
def fetchSweepState (chain : Chain) (now : ℤ) (paymentToken : ℕ) (user : Pubkey) :
    Option SweepState := do
  let config ← chain.config
  let token ← config.paymentTokens[paymentToken]?
  let userConfig ← chain.userConfigs user
  let account := packages.findAssociatedTokenPda token.mint user token.tokenProgram
  let authority := packages.findSubscriptionAuthorityPda token.mint user
  let authorityState ← decodeOwned (chain.accounts authority) d.subscriptionsId
    packages.decodeSubscriptionAuthority
  let paymentAccountState ← decodeTokenAccountState packages (chain.accounts account) token.tokenProgram
  let subscription ← decodeSubscription d packages chain user paymentToken userConfig.tier.toNat
  return {
    authority := authority
    authorityState := authorityState
    config := Config.of config
    now := now
    paymentAccount := account
    paymentAccountState := paymentAccountState
    paymentToken := paymentToken
    subscription := subscription
    userConfig := UserConfig.of userConfig }

/-- Whether a subscription still binds its authority at `now`. -/
def isRunning (subscription : Option SubscriptionDelegation) (now : ℤ) : Bool :=
  match subscription with
  | none => false
  | some subscription => subscription.expiresAtTs = 0 ∨ subscription.expiresAtTs > now

def programPaused : ClientError := .lateriteCheck 0x1779

def unknownPaymentToken : ClientError := .lateriteCheck 0x177b

def alreadySwept : ClientError := .lateriteCheck 0x1791

def nothingToSweep : ClientError := .lateriteCheck 0x1792

def getSweepPull (state : SweepState) : Except ClientError Pull :=
  if state.config.paused then .error programPaused
  else if state.config.paymentTokens[state.paymentToken]?.isNone then .error unknownPaymentToken
  else
    let today := (divEuclid state.now daySeconds % 2 ^ 32).toNat
    if state.userConfig.lastSweepDay[state.paymentToken]?.any (today ≤ ·) then .error alreadySwept
    else if state.userConfig.engine = .weekly ∧ ¬usMarketOpen state.now state.config.marketCalendar
    then .error nothingToSweep
    else
      let balance := (state.paymentAccountState.map TokenAccountState.amount).getD 0
      let pull := pull state.userConfig state.paymentToken balance state.config.userWeeklyCap
        state.config.marketCalendar state.now
      if pullTotal pull = 0 then .error nothingToSweep
      else if state.userConfig.paymentTokens &&& (1 <<< state.paymentToken) = 0
      then .error unknownPaymentToken
      else if ¬isRunning state.subscription state.now
      then .error (.restoreRequired .subscription state.paymentAccount)
      else if state.authorityState.map SubscriptionAuthority.initId ≠
          state.subscription.map SubscriptionDelegation.initId
      then .error (.restoreRequired .authority state.paymentAccount)
      else if state.paymentAccountState.any TokenAccountState.frozen
      then .error (.restoreRequired .frozen state.paymentAccount)
      else
        let capped := cappedPull pull (nativeRemaining state.subscription state.now)
        if pullTotal capped = 0 then .error nothingToSweep
        else if state.paymentAccountState.bind TokenAccountState.delegate ≠ some state.authority ∨
          state.paymentAccountState.any (·.delegatedAmount < pullTotal capped)
        then .error (.restoreRequired .delegate state.paymentAccount)
        else .ok capped

def transferCall (ctx : SweepAccounts) (token : PaymentToken) (user : Pubkey) (total : UInt64) :
    TransferSubscription where
  subscriptionPda := ctx.subscription
  planPda := ctx.plan
  subscriptionAuthority := ctx.subscriptionAuthority
  delegatorAta := ctx.userPaymentAccount
  receiverAta := ctx.swapPaymentAccount
  caller := d.vault
  tokenMint := ctx.paymentMint
  tokenProgram := ctx.paymentTokenProgram
  amount := total
  delegator := user
  mint := token.mint

/-- The initialization an account's Subscriptions authority carries, unless it was revoked. -/
def authorityInitId (account : Account) : Option ℤ :=
  if account.owner = d.subscriptionsId then
    (packages.decodeSubscriptionAuthority account.data).map SubscriptionAuthority.initId
  else none

/-- The initialization a subscription was made under. -/
def subscriptionInitId (account : Account) : Option ℤ :=
  (packages.decodeSubscriptionDelegation account.data).map SubscriptionDelegation.initId

/-- Why a pull at `now` is refused: Subscriptions for a closed or expired subscription, or one
whose authority was revoked or made anew; the token program for a frozen account, or one that
does not let the authority move the amount. -/
inductive TransferRefused (now : ℤ) (call : TransferSubscription) (accounts : Accounts) : Prop where
  | closed (h : d.readSubscription (accounts.info call.subscriptionPda) = none)
  | expired {s : Laterite.SubscriptionDelegation}
    (h : d.readSubscription (accounts.info call.subscriptionPda) = some s)
    (hexpiry : s.expiresAtTs ≠ 0) (hpast : s.expiresAtTs ≤ now)
  | authority (h : authorityInitId d packages (accounts call.subscriptionAuthority) ≠
      subscriptionInitId packages (accounts call.subscriptionPda))
  | account {t : TokenAccountState}
    (h : packages.decodeToken ((accounts call.delegatorAta).data.take 165) = some t)
    (hrefused : t.frozen = true ∨ t.delegate ≠ some call.subscriptionAuthority ∨
      t.delegatedAmount < call.amount.toNat)

/-- The packages read a token account's amount where the program reads it, and a subscription
as the program's own package does. -/
structure Packages.ReadAlike : Prop where
  token_amount {data : List UInt8} {t : TokenAccountState} (h : packages.decodeToken data = some t) :
    72 ≤ data.length ∧ t.amount = LittleEndian.toNat ((data.take 72).drop 64)
  subscription_eq {data : List UInt8} {s : SubscriptionDelegation}
    (h : packages.decodeSubscriptionDelegation data = some s) :
    ∃ p, d.subscriptionFromBytes data = some p ∧ s = SubscriptionDelegation.of s.initId p

/-- The invoked programs do refuse such pulls. -/
def Refusing (programs : Programs) (now : ℤ) : Prop :=
  ∀ call accounts, TransferRefused d packages now call accounts →
    programs.transferSubscription call accounts = none

def settlePlan (chain : Chain) (ctx : SweepAccounts) (config : Laterite.Config)
    (userConfig : Laterite.UserConfig) (token : PaymentToken) (today : UInt32)
    (pull : Laterite.Pull) (total : UInt64) : Result SweepPlan := do
  let asset ← okOr config.assets[userConfig.asset.toNat]? LateriteError.unknownAsset
  require (d.isTokenAccount (chain.accounts.info ctx.userAssetAccount) asset.tokenProgram asset.mint
        userConfig.user ∧
      d.isTokenAccount (chain.accounts.info ctx.swapPaymentAccount) token.tokenProgram token.mint
        d.swapAuthority)
    LateriteError.invalidTokenAccount
  return ⟨config, userConfig, token, asset, today, pull, total⟩

structure Passed (inv : Invocation) (config : Laterite.Config) (userConfig : Laterite.UserConfig)
    (token : PaymentToken) (paymentToken : UInt8) (user : Pubkey) (ctx : SweepAccounts) : Prop where
  crank : ctx.crank ∈ inv.signers.keys
  user_eq : ctx.userConfig = user
  router : ctx.router = config.router
  plan : ctx.plan = d.plan paymentToken.toNat userConfig.tier.toNat
  subscription : ctx.subscription =
    findSubscriptionAddress d user paymentToken.toNat userConfig.tier.toNat
  authority : ctx.subscriptionAuthority = packages.findSubscriptionAuthorityPda token.mint user
  paymentMint : ctx.paymentMint = token.mint
  paymentTokenProgram : ctx.paymentTokenProgram = token.tokenProgram
  paymentAccount : ctx.userPaymentAccount =
    packages.findAssociatedTokenPda token.mint user token.tokenProgram

variable {d packages} {inv : Invocation} {chain : Chain} {ctx : SweepAccounts}
  {paymentToken : UInt8} {user : Pubkey} {state : SweepState} {config : Laterite.Config}
  {userConfig : Laterite.UserConfig} {token : PaymentToken}

structure Fetched (d : Deployment) (packages : Packages) (chain : Chain) (now : ℤ)
    (paymentToken : ℕ) (user : Pubkey) (config : Laterite.Config)
    (userConfig : Laterite.UserConfig) (token : PaymentToken) (state : SweepState) : Prop where
  authority : state.authority = packages.findSubscriptionAuthorityPda token.mint user
  paymentAccount : state.paymentAccount =
    packages.findAssociatedTokenPda token.mint user token.tokenProgram
  authorityState : decodeOwned (chain.accounts state.authority) d.subscriptionsId
    packages.decodeSubscriptionAuthority = some state.authorityState
  paymentAccountState : decodeTokenAccountState packages (chain.accounts state.paymentAccount)
    token.tokenProgram = some state.paymentAccountState
  subscription : decodeSubscription d packages chain user paymentToken userConfig.tier.toNat =
    some state.subscription
  config : state.config = Config.of config
  now : state.now = now
  paymentToken : state.paymentToken = paymentToken
  userConfig : state.userConfig = UserConfig.of userConfig

theorem fetchSweepState_eq {now : ℤ} {index : ℕ}
    (h : fetchSweepState d packages chain now index user = some state)
    (hconfig : chain.config = some config) (huser : chain.userConfigs user = some userConfig)
    (htoken : config.paymentTokens[index]? = some token) :
    Fetched d packages chain now index user config userConfig token state := by
  simp only [fetchSweepState, hconfig, huser, htoken, Option.bind_eq_bind, Option.bind_some,
    Option.bind_eq_some_iff, Option.pure_def, Option.some.injEq] at h
  obtain ⟨authorityState, hauthority, paymentAccountState, haccount, subscription, hsubscription, rfl⟩ := h
  exact ⟨rfl, rfl, hauthority, haccount, hsubscription, rfl, rfl, rfl, rfl⟩

theorem decodeOwned_eq_some {α : Type} {account : Account} {owner : Pubkey}
    {decode : List UInt8 → Option α} {value : Option α}
    (h : decodeOwned account owner decode = some value) :
    (account.owner = owner ∧ ∃ a, decode account.data = some a ∧ value = some a) ∨
      account.owner ≠ owner ∧ value = none := by
  unfold decodeOwned at h
  split at h
  · rename_i howner
    obtain ⟨a, ha, rfl⟩ := Option.map_eq_some_iff.mp h
    exact .inl ⟨howner, a, ha, rfl⟩
  · rename_i howner
    exact .inr ⟨howner, (Option.some.inj h).symm⟩

theorem Fetched.subscription_eq {now : ℤ} {index : ℕ}
    (h : Fetched d packages chain now index user config userConfig token state)
    (halike : packages.ReadAlike d) (htier : userConfig.tier.toNat < 2) :
    ∃ initId, state.subscription =
      (d.readSubscription (chain.accounts.info
        (findSubscriptionAddress d user index userConfig.tier.toNat))).map
        (SubscriptionDelegation.of initId) := by
  have hread := h.subscription
  rw [decodeSubscription, if_pos htier] at hread
  unfold Deployment.readSubscription Accounts.info
  rcases decodeOwned_eq_some hread with ⟨howner, s, hs, hvalue⟩ | ⟨howner, hvalue⟩
  · obtain ⟨p, hp, hof⟩ := halike.subscription_eq hs
    refine ⟨s.initId, ?_⟩
    rw [if_neg (not_not.mpr howner), hp, hvalue, Option.map_some, ← hof]
  · refine ⟨0, ?_⟩
    rw [if_pos howner, hvalue]
    rfl

theorem Fetched.amount_eq {now : ℤ} {index : ℕ} {t : TokenAccountState}
    (h : Fetched d packages chain now index user config userConfig token state)
    (halike : packages.ReadAlike d) (hexists : state.paymentAccountState = some t) :
    packages.decodeToken ((chain.accounts state.paymentAccount).data.take 165) = some t ∧
      ∃ balance, amount (chain.accounts.info state.paymentAccount) = .ok balance ∧
        t.amount = balance.toNat := by
  have hread := h.paymentAccountState
  rcases decodeOwned_eq_some hread with ⟨-, a, ha, hvalue⟩ | ⟨-, hvalue⟩
  · rw [hexists, Option.some.injEq] at hvalue
    obtain rfl := hvalue
    obtain ⟨hlength, hamount⟩ := halike.token_amount ha
    have htake : (List.take 165 (chain.accounts state.paymentAccount).data).take 72 =
        (chain.accounts state.paymentAccount).data.take 72 := by
      rw [List.take_take]
      rfl
    rw [htake] at hamount
    have hwide : 72 ≤ (chain.accounts state.paymentAccount).data.length := by
      rw [List.length_take] at hlength
      omega
    refine ⟨ha, UInt64.ofNat (LittleEndian.toNat
      (((chain.accounts state.paymentAccount).data.take 72).drop 64)), ?_, ?_⟩
    · exact bind_eq_ok.mpr ⟨(), require_of hwide _, rfl⟩
    · rw [hamount, UInt64.toNat_ofNat_of_lt']
      have hlt := LittleEndian.toNat_lt
        (((chain.accounts state.paymentAccount).data.take 72).drop 64)
      rw [List.length_drop, List.length_take, Nat.min_eq_left hwide] at hlt
      exact hlt
  · rw [hexists] at hvalue
    cases hvalue

theorem planAt_eq {index tier : ℕ} (hindex : index < 2) (htier : tier < 2) :
    d.planAt index tier = .ok (d.plan index tier) := by
  have hcases : (index = 0 ∨ index = 1) ∧ (tier = 0 ∨ tier = 1) := by omega
  rcases hcases with ⟨rfl | rfl, rfl | rfl⟩ <;> rfl

theorem planAt_panic {index tier : ℕ} (hindex : index < 2) (htier : ¬tier < 2) :
    d.planAt index tier = .error .panic := by
  have hcases : index = 0 ∨ index = 1 := by omega
  have hpast (byTier : Vector Pubkey 2) : byTier[tier]? = none :=
    Vector.getElem?_eq_none (not_lt.mp htier)
  rcases hcases with rfl | rfl
  · rw [Deployment.planAt]
    exact congrArg orPanic (hpast _)
  · rw [Deployment.planAt]
    exact congrArg orPanic (hpast _)

/-- The payment token's bit, tested on the client's number. -/
theorem enabled_eq {mask : UInt8} {index : ℕ} (h : index < 2) :
    mask.toNat &&& (1 <<< index) = 0 ↔ ¬enabled mask index = true := by
  have hshift : (1 <<< UInt8.ofNat index : UInt8).toNat = 1 <<< index := by
    interval_cases index <;> rfl
  have hword : mask.toNat &&& (1 <<< index) = 0 ↔ mask &&& (1 <<< UInt8.ofNat index) = 0 := by
    rw [← hshift, ← UInt8.toNat_and]
    exact UInt8.toNat_inj (b := 0)
  rw [hword, enabled, decide_eq_true_eq, not_not]

theorem lastSweepDay_any (day : ℤ) {index : ℕ} {lastDay : UInt32}
    (hlast : userConfig.lastSweepDay[index]? = some lastDay) :
    (UserConfig.of userConfig).lastSweepDay[index]?.any
        ((divEuclid day daySeconds % 2 ^ 32).toNat ≤ ·) = true ↔
      ¬UInt32.ofInt (day / Laterite.daySeconds) > lastDay := by
  have hday : divEuclid day daySeconds = day / Laterite.daySeconds := divEuclid_eq day (by decide)
  have hread : (UserConfig.of userConfig).lastSweepDay[index]? = some lastDay.toNat := by
    dsimp only [UserConfig.of]
    rw [List.getElem?_map, Vector.getElem?_toList, hlast, Option.map_some]
  rw [hread, Option.any_some, decide_eq_true_eq, hday, ← toNat_ofInt, gt_iff_lt,
    UInt32.lt_iff_toNat_lt, not_lt]

theorem exists_lastSweepDay {index : ℕ} (h : index < 2) :
    ∃ lastDay, userConfig.lastSweepDay[index]? = some lastDay :=
  ⟨userConfig.lastSweepDay[index], Vector.getElem?_eq_getElem h⟩

theorem exists_total {q : Laterite.Pull} (h : q.engine.toNat + q.pending.toNat < 2 ^ 64) :
    ∃ total, q.total = .ok total ∧ (total.toNat : ℤ) = pullTotal (Pull.of q) ∧
      (pullTotal (Pull.of q) = 0 ↔ ¬total > 0) := by
  have hsum : (q.engine + q.pending).toNat = q.engine.toNat + q.pending.toNat := by
    rw [UInt64.toNat_add, Nat.mod_eq_of_lt h]
  have hvalue : ((q.engine + q.pending).toNat : ℤ) = pullTotal (Pull.of q) := by
    rw [hsum, pullTotal, Pull.of, Nat.cast_add]
  refine ⟨q.engine + q.pending, Laterite.Pull.total_eq_ok.mpr hsum, hvalue, ?_⟩
  rw [← hvalue, gt_iff_lt, UInt64.lt_iff_toNat_lt, UInt64.toNat_zero]
  omega

/-- The state's own signs that the invoked programs refuse a call on its accounts. -/
structure Restorable (state : SweepState) (t : TokenAccountState) (now : ℤ) (amount : UInt64) :
    Prop where
  running : isRunning state.subscription now = true
  authority : state.authorityState.map SubscriptionAuthority.initId =
    state.subscription.map SubscriptionDelegation.initId
  thawed : t.frozen = false
  delegate : t.delegate = some state.authority
  approved : (amount.toNat : ℤ) ≤ t.delegatedAmount

theorem isRunning_eq_false {initId now : ℤ} {read : Option Laterite.SubscriptionDelegation} :
    isRunning (read.map (SubscriptionDelegation.of initId)) now = false ↔
      read = none ∨ ∃ s, read = some s ∧ s.expiresAtTs ≠ 0 ∧ s.expiresAtTs ≤ now := by
  cases read with
  | none => exact iff_of_true rfl (.inl rfl)
  | some s =>
    have hruns : isRunning (some (SubscriptionDelegation.of initId s)) now = true ↔
        s.expiresAtTs = 0 ∨ s.expiresAtTs > now := decide_eq_true_iff
    rw [Option.map_some, ← Bool.not_eq_true, hruns, not_or, gt_iff_lt, not_lt]
    constructor
    · intro hends
      exact .inr ⟨s, rfl, hends⟩
    · rintro (hnone | ⟨_, hsome, hends⟩)
      · cases hnone
      · cases hsome
        exact hends

theorem Fetched.authorityInitId_eq {now : ℤ} {index : ℕ}
    (h : Fetched d packages chain now index user config userConfig token state) :
    authorityInitId d packages (chain.accounts state.authority) =
      state.authorityState.map SubscriptionAuthority.initId := by
  unfold authorityInitId
  rcases decodeOwned_eq_some h.authorityState with ⟨howner, a, ha, hvalue⟩ | ⟨howner, hvalue⟩
  · rw [if_pos howner, ha, hvalue]
  · rw [if_neg howner, hvalue]
    rfl

theorem Fetched.subscriptionInitId_eq {now : ℤ} {index : ℕ} {s : SubscriptionDelegation}
    (h : Fetched d packages chain now index user config userConfig token state)
    (htier : userConfig.tier.toNat < 2) (hopen : state.subscription = some s) :
    subscriptionInitId packages (chain.accounts
      (findSubscriptionAddress d user index userConfig.tier.toNat)) = some s.initId := by
  have hread := h.subscription
  rw [decodeSubscription, if_pos htier] at hread
  rcases decodeOwned_eq_some hread with ⟨-, a, ha, hvalue⟩ | ⟨-, hvalue⟩
  · rw [hopen, Option.some.injEq] at hvalue
    rw [subscriptionInitId, ha, Option.map_some, hvalue]
  · rw [hopen] at hvalue
    cases hvalue

/-- The invoked programs have a reason to refuse exactly when the state shows one. -/
theorem Fetched.transferRefused_iff {now : ℤ} {index : ℕ} {t : TokenAccountState}
    {call : TransferSubscription}
    (h : Fetched d packages chain now index user config userConfig token state)
    (halike : packages.ReadAlike d) (htier : userConfig.tier.toNat < 2)
    (hexists : state.paymentAccountState = some t)
    (hpda : call.subscriptionPda = findSubscriptionAddress d user index userConfig.tier.toNat)
    (hauthority : call.subscriptionAuthority = state.authority)
    (haccount : call.delegatorAta = state.paymentAccount) :
    TransferRefused d packages now call chain.accounts ↔
      ¬Restorable state t now call.amount := by
  rcases h.subscription_eq halike htier with ⟨initId, hsubscription⟩
  obtain ⟨hdecoded, -⟩ := h.amount_eq halike hexists
  rw [← hpda] at hsubscription
  have hinit := h.authorityInitId_eq
  rw [← hauthority] at hinit
  rw [← haccount] at hdecoded
  constructor
  · intro hrefused hsound
    have hruns := hsound.running
    rw [hsubscription] at hruns
    cases hrefused with
    | closed hclosed =>
      rw [isRunning_eq_false.mpr (.inl hclosed)] at hruns
      cases hruns
    | expired hread hexpiry hpast =>
      rw [isRunning_eq_false.mpr (.inr ⟨_, hread, hexpiry, hpast⟩)] at hruns
      cases hruns
    | authority hdiffers =>
      cases hopen : state.subscription with
      | none =>
        rw [← hsubscription, hopen] at hruns
        cases hruns
      | some s =>
        have hsame := hsound.authority
        rw [← hinit, hopen, Option.map_some, ← h.subscriptionInitId_eq htier hopen, ← hpda] at hsame
        exact hdiffers hsame
    | account hread hshort =>
      rw [hdecoded, Option.some.injEq] at hread
      subst hread
      rcases hshort with hfrozen | hdelegate | hamount
      · rw [hsound.thawed] at hfrozen
        cases hfrozen
      · rw [hauthority] at hdelegate
        exact hdelegate hsound.delegate
      · exact not_lt.mpr hsound.approved hamount
  · intro hunsound
    by_cases hruns : isRunning state.subscription now = true
    swap
    · rw [Bool.not_eq_true, hsubscription, isRunning_eq_false] at hruns
      rcases hruns with hclosed | ⟨s, hread, hexpiry, hpast⟩
      · exact TransferRefused.closed hclosed
      · exact TransferRefused.expired hread hexpiry hpast
    by_cases hsame : state.authorityState.map SubscriptionAuthority.initId =
        state.subscription.map SubscriptionDelegation.initId
    swap
    · cases hopen : state.subscription with
      | none =>
        rw [hopen] at hruns
        cases hruns
      | some s =>
        apply TransferRefused.authority
        rw [hinit, hpda, h.subscriptionInitId_eq htier hopen]
        rw [hopen] at hsame
        exact hsame
    apply TransferRefused.account hdecoded
    by_contra hnone
    rw [not_or, not_or, Bool.not_eq_true, not_not, not_lt, hauthority] at hnone
    exact hunsound ⟨hruns, hsame, hnone.1, hnone.2.1, hnone.2.2⟩

end Laterite.Client
