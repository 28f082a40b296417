import Laterite.ReplayedRuns
import Laterite.UserWellFormed

/-!
# What a sweep guarantees whatever the route does

The route is the caller's: the router may do anything to the accounts it is given, and the
list may name any account any number of times. What a successful sweep guarantees rests on
the checks before the pull, on the comparison with the data taken before it, and on two
assumptions: Subscriptions moves exactly what it is asked to, and Pyth Pro accepts only
updates that a trusted key signed.
-/

namespace Laterite

open CheckedComputation TimedRuns

/-- `total` tokens moved from one account to another. -/
structure Moved (before after : Accounts) (source target : Pubkey) (total : UInt64) : Prop where
  taken : ∃ a a', amount (before.info source) = .ok a ∧ amount (after.info source) = .ok a' ∧
    a'.toNat + total.toNat = a.toNat
  given : ∃ b b', amount (before.info target) = .ok b ∧ amount (after.info target) = .ok b' ∧
    b.toNat + total.toNat = b'.toNat

/-- Subscriptions' transfer moves exactly the requested amount, or fails. -/
def Invocation.TransfersExactly (inv : Invocation) : Prop :=
  ∀ call accounts after, inv.programs.transferSubscription call accounts = some after →
    Moved accounts after call.delegatorAta call.receiverAta call.amount

/-- Pyth Pro accepts only updates that a trusted key signed. -/
def Invocation.AcceptsOnly (inv : Invocation) (signedByTrusted : List UInt8 → Prop) : Prop :=
  ∀ call accounts, inv.programs.verifyMessage call accounts = true →
    signedByTrusted call.messageData

variable (d : Deployment) (inv : Invocation)

structure SweepAllowed (paymentToken : UInt8) (config : Config) (u : UserConfig) : Prop where
  notPaused : config.paused = false
  active : u.status = .active
  enabled : enabled u.paymentTokens paymentToken.toNat = true
  session : u.engine = .weekly → usMarketOpen inv.now config.marketCalendar = true

/-- The amount pulled: what the engine gives from the balance, capped by the subscription's
period, within every bound, and moved to the swap authority's account. -/
structure PulledExactly (before : Accounts) (ctx : SweepAccounts) (paymentToken : UInt8)
    (config : Config) (u : UserConfig) (balance total : UInt64) : Prop where
  balance_eq : amount (before.info ctx.userPaymentAccount) = .ok balance
  total_eq : ∃ due p, u.pull paymentToken.toNat balance config.userWeeklyCap config.marketCalendar
      inv.now = .ok due ∧
    due.capped (d.remaining (before.info ctx.subscription) inv.now) = .ok p ∧ p.total = .ok total
  positive : 0 < total.toNat
  cushion : ∃ cushion, u.cushions[paymentToken.toNat]? = some cushion ∧
    total.toNat ≤ balance.toNat - cushion.toNat
  room : total.toNat ≤
    (u.weeklyCap config.userWeeklyCap inv.now).toNat - (u.spentAt inv.now).toNat
  remaining : total.toNat ≤ (d.remaining (before.info ctx.subscription) inv.now).toNat
  moved : ∃ token pulled, config.paymentTokens[paymentToken.toNat]? = some token ∧
    transferSubscription d inv ctx token u.user total before = .ok pulled ∧
    Moved before pulled ctx.userPaymentAccount ctx.swapPaymentAccount total

/-- The user's account in the asset of their settings gained at least the minimum of the two
quotes, whose updates were trusted; a token counted at one dollar takes no update. -/
structure BoughtAtLeast (signedByTrusted : List UInt8 → Prop) (before after : Accounts)
    (ctx : SweepAccounts) (assetMessage paymentMessage : List UInt8) (paymentToken : UInt8)
    (config : Config) (u : UserConfig) (total : UInt64) (asset : Asset) (token : PaymentToken)
    (minimum : UInt64) : Prop where
  chosen : config.assets[u.asset.toNat]? = some asset
  listed : config.paymentTokens[paymentToken.toNat]? = some token
  quoted : ∃ assetQuote paymentQuote, quote assetMessage asset.pythFeedId inv.now = .ok assetQuote ∧
    quote paymentMessage token.usdFeedId inv.now = .ok paymentQuote ∧
    minOut total paymentQuote usdDecimals assetQuote asset.decimals = .ok minimum
  assetTrusted : signedByTrusted assetMessage
  paymentTrusted : signedByTrusted paymentMessage ∨ paymentMessage = [] ∧ token.usdFeedId = 0
  positive : 0 < minimum.toNat
  account : d.isTokenAccount (before.info ctx.userAssetAccount) asset.tokenProgram asset.mint u.user =
    true
  gained : ∃ held held', amount (before.info ctx.userAssetAccount) = .ok held ∧
    amount (after.info ctx.userAssetAccount) = .ok held' ∧ held.toNat + minimum.toNat ≤ held'.toNat

/-- Every swap-authority token account the route could write, before it ran or after, ends with
the data it started with, and so does the account the pull filled. -/
structure SwapAccountsKept (before after : Accounts) (ctx : SweepAccounts)
    (routeAccounts : List RouteAccount) : Prop where
  payment : (after ctx.swapPaymentAccount).data = (before ctx.swapPaymentAccount).data
  route : ∀ account ∈ routeAccounts, account.isWritable = true →
    d.isSwapTokenAccount (before.info account.key) = true ∨
      d.isSwapTokenAccount (after.info account.key) = true →
    (after account.key).data = (before account.key).data

structure OnlyUserChanged (before after : Chain) (user : Pubkey) : Prop where
  config : after.config = before.config
  records : after.records = before.records
  others : ∀ other, other ≠ user → after.userConfigs other = before.userConfigs other

variable {d inv} {initial accounts swapped : Accounts} {history : List (Transition Chain Happening)}
  {before after : Chain} {ctx : SweepAccounts} {assetMessage paymentMessage route : List UInt8}
  {ed25519Index : UInt16} {paymentToken : UInt8} {routeAccounts : List RouteAccount}
  {plan : SweepPlan} {balance minimum received : UInt64} {due : Pull} {event : Option Event}
  {signedByTrusted : List UInt8 → Prop}

theorem mem_writableSwapAccounts {key : Pubkey} :
    key ∈ writableSwapAccounts d accounts routeAccounts ↔ ∃ account ∈ routeAccounts,
      (account.isWritable = true ∧ d.isSwapTokenAccount (accounts.info account.key) = true) ∧
        account.key = key := by
  simp only [writableSwapAccounts, List.mem_map, List.mem_filter, Bool.and_eq_true, and_assoc]

/-- The comparison with what was taken before the pull covers the accounts that pass the filter
at either moment. -/
theorem SweepPlan.Swapped.kept_accounts {pulled : Accounts}
    (h : plan.Swapped d inv ctx minimum route routeAccounts accounts pulled swapped received) :
    SwapAccountsKept d accounts swapped ctx routeAccounts where
  payment := h.kept _ (by simp)
  route := by
    rintro account haccount hwritable (hbefore | hafter)
    · have hwatched := mem_writableSwapAccounts.mpr ⟨account, haccount, ⟨hwritable, hbefore⟩, rfl⟩
      exact h.kept _ (List.mem_cons_of_mem _ hwatched)
    · have hfound := mem_writableSwapAccounts.mpr ⟨account, haccount, ⟨hwritable, hafter⟩, rfl⟩
      exact h.kept _ (h.watched _ hfound)

/-- An accepted transfer moved the amount, as the runtime lets it write both accounts. -/
theorem transferSubscription_moved {token : PaymentToken} {user : Pubkey} {total : UInt64}
    {pulled : Accounts} (hexact : inv.TransfersExactly)
    (h : transferSubscription d inv ctx token user total accounts = .ok pulled) :
    Moved accounts pulled ctx.userPaymentAccount ctx.swapPaymentAccount total := by
  obtain ⟨after, hcall, rfl⟩ := invoke_eq_ok.mp h
  obtain ⟨htaken, hgiven⟩ := hexact _ _ _ hcall
  constructor
  · simpa [Accounts.info] using htaken
  · simpa [Accounts.info] using hgiven

theorem verifyPrice_trusted {message : List UInt8} {signatureIndex : UInt8}
    (haccepts : inv.AcceptsOnly signedByTrusted)
    (h : verifyPrice inv accounts ctx message ed25519Index signatureIndex = .ok ()) :
    signedByTrusted message :=
  haccepts _ _ (require_eq_ok.mp h)

/-- Only a token counted at one dollar takes an empty update. -/
theorem feed_eq_zero_of_quote_nil {feedId : UInt32} {now : ℤ} {q : Quote}
    (h : quote [] feedId now = .ok q) : feedId = 0 := by
  by_contra hfeed
  simp [quote, hfeed, payload, Reader.u32, Reader.word, Reader.take] at h

theorem SweepPlan.Decided.pulledExactly (hexact : inv.TransfersExactly) {pulled : Accounts}
    (hd : plan.Decided d inv before ctx paymentToken balance due)
    (hs : plan.Swapped d inv ctx minimum route routeAccounts before.accounts pulled swapped received) :
    PulledExactly d inv before.accounts ctx paymentToken plan.config plan.userConfig balance
      plan.total where
  balance_eq := hd.balance_eq
  total_eq := ⟨due, plan.pull, hd.due_eq, hd.pull, Pull.total_eq_ok.mpr hd.total⟩
  positive := hd.positive
  cushion := by
    have hcushion := hd.allows.cushion
    rw [← hd.total, Vector.getElem?_eq_getElem hd.paymentToken_lt, Option.getD_some] at hcushion
    exact ⟨_, Vector.getElem?_eq_getElem hd.paymentToken_lt, hcushion⟩
  room := hd.total ▸ hd.allows.room
  remaining := hd.total_le_remaining
  moved := ⟨plan.token, pulled, hd.token, hs.transferred, transferSubscription_moved hexact hs.transferred⟩

theorem SweepPlan.Priced.boughtAtLeast {pulled : Accounts} {assetQuote paymentQuote : Quote}
    (haccepts : inv.AcceptsOnly signedByTrusted)
    (hd : plan.Decided d inv before ctx paymentToken balance due)
    (hp : plan.Priced inv before.accounts ctx assetMessage paymentMessage ed25519Index assetQuote
      paymentQuote minimum)
    (hs : plan.Swapped d inv ctx minimum route routeAccounts before.accounts pulled swapped received) :
    BoughtAtLeast d inv signedByTrusted before.accounts swapped ctx assetMessage paymentMessage
      paymentToken plan.config plan.userConfig plan.total plan.asset plan.token minimum where
  chosen := hd.asset
  listed := hd.token
  quoted := ⟨assetQuote, paymentQuote, hp.asset, hp.payment, hp.minimum_eq⟩
  assetTrusted := verifyPrice_trusted haccepts hp.assetVerified
  paymentTrusted := by
    by_cases hempty : paymentMessage = []
    · exact .inr ⟨hempty, feed_eq_zero_of_quote_nil (hempty ▸ hp.payment)⟩
    · exact .inl (verifyPrice_trusted haccepts (hp.paymentVerified hempty))
  positive := minOut_pos hp.minimum_eq fun h => by simpa [h] using hd.positive
  account := hd.userAccount
  gained := by
    obtain ⟨held, held', hheld, hheld', rfl⟩ := hs.gained
    have hpositive := minOut_pos hp.minimum_eq fun h => by simpa [h] using hd.positive
    have henough := UInt64.le_iff_toNat_le.mp hs.enough
    rw [UInt64.toNat_saturatingSub] at henough
    exact ⟨held, held', hheld, hheld', by omega⟩

theorem amount_withAmount {account : Account} {accounts : Accounts} {key : Pubkey} {x : ℕ}
    (hlength : 64 ≤ account.data.length) (hx : x < 2 ^ 64)
    (haccount : accounts key = Rehearsal.withAmount account x) :
    amount (accounts.info key) = .ok (UInt64.ofNat x) := by
  have hdata : (accounts.info key).data = account.data.take 64 ++ LittleEndian.bytes 8 x := by
    rw [Accounts.info, haccount]
    rfl
  have htake : (account.data.take 64).length = 64 := by
    rw [List.length_take]
    omega
  have hread : ((account.data.take 64 ++ LittleEndian.bytes 8 x).take 72).drop 64 =
      LittleEndian.bytes 8 x := by
    rw [List.take_of_length_le (by simp), List.drop_left' htake]
  simp only [amount, hdata, bind_eq_ok, require_eq_ok, pure_eq_ok, hread]
  refine ⟨(), ?_, ?_⟩
  · rw [List.length_append, htake, LittleEndian.length_bytes]
  · rw [LittleEndian.toNat_bytes, Nat.mod_eq_of_lt (by omega)]

theorem length_of_amount {account : AccountInfo} {a : UInt64} (h : amount account = .ok a) :
    72 ≤ account.data.length := by
  simp only [amount, bind_eq_ok, require_eq_ok] at h
  obtain ⟨_, hlength, -⟩ := h
  exact hlength

theorem Rehearsal.transfersExactly {inv : Invocation}
    (hprograms : inv.programs = Rehearsal.programs) : inv.TransfersExactly := by
  intro call accounts after h
  rw [hprograms] at h
  change Rehearsal.transfer call accounts = some after at h
  unfold Rehearsal.transfer at h
  split at h
  · rename_i a b ha hb
    split at h
    · rename_i hguard
      obtain ⟨hne, hle, hfits⟩ := hguard
      obtain rfl := Option.some.inj h
      have hsource := length_of_amount ha
      have htarget := length_of_amount hb
      have ha' := a.toNat_lt
      refine ⟨⟨a, _, ha, amount_withAmount (x := a.toNat - call.amount.toNat)
          (le_trans (by decide) hsource) (by omega) ?_, ?_⟩,
        ⟨b, _, hb, amount_withAmount (x := b.toNat + call.amount.toNat)
          (le_trans (by decide) htarget) hfits ?_, ?_⟩⟩
      · rw [Function.update_of_ne hne, Function.update_self]
      · rw [UInt64.toNat_ofNat_of_lt' (lt_of_le_of_lt (Nat.sub_le _ _) ha')]
        omega
      · rw [Function.update_self]
      · rw [UInt64.toNat_ofNat_of_lt' hfits]
    · cases h
  · cases h

/-- In every reachable state, for any caller's input and any router, a sweep that succeeds was
allowed, pulled exactly the engine's capped amount, brought the user at least the trusted
quotes' positive minimum, left every swap-authority account as it was, and changed no other
account of the program. -/
theorem sweep_safety (run : ProgramRun d initial history before)
    (hexact : inv.TransfersExactly) (haccepts : inv.AcceptsOnly signedByTrusted)
    (h : execute d inv before (.sweep ctx assetMessage paymentMessage ed25519Index paymentToken route
      routeAccounts) = .ok (event, after)) :
    ∃ config u balance total asset token minimum, before.config = some config ∧
      before.userConfigs ctx.userConfig = some u ∧ u.user = ctx.userConfig ∧
      SweepAllowed inv paymentToken config u ∧
      PulledExactly d inv before.accounts ctx paymentToken config u balance total ∧
      BoughtAtLeast d inv signedByTrusted before.accounts after.accounts ctx assetMessage
        paymentMessage paymentToken config u total asset token minimum ∧
      SwapAccountsKept d before.accounts after.accounts ctx routeAccounts ∧
      OnlyUserChanged before after ctx.userConfig := by
  rw [execute, emitting_eq_ok] at h
  obtain ⟨_, -, h⟩ := h
  obtain ⟨plan, balance, due, assetQuote, paymentQuote, minimum, pulled, swapped, received, hd, hp,
    hs, -, rfl⟩ := sweep_ok h
  have life := run.userRun ctx.userConfig
  rw [hd.userConfig] at life
  refine ⟨plan.config, plan.userConfig, balance, plan.total, plan.asset, plan.token, minimum,
    hd.config, hd.userConfig, life.wellFormed.user, ?_, hd.pulledExactly hexact hs,
    hp.boughtAtLeast haccepts hd hs, hs.kept_accounts, ?_⟩
  · exact ⟨hd.notPaused, hd.allows.active, hd.enabled, hd.session⟩
  · exact ⟨rfl, rfl, fun other hother => Function.update_of_ne hother _ _⟩

/-- The rehearsed sweep keeps the swap authority's accounts and every other user. -/
theorem sweep_safety_rehearsed :
    ∃ event after, execute Rehearsal.deployment Rehearsal.sweeping.1
        (Rehearsal.ledger Rehearsal.beginnings) (.sweep Rehearsal.sweepAccounts
          (Rehearsal.assetUpdate 1700100000) [] 0 0 (LittleEndian.bytes 8 3000000)
          Rehearsal.routeAccounts) = .ok (event, after) ∧
      SwapAccountsKept Rehearsal.deployment (Rehearsal.ledger Rehearsal.beginnings).accounts
        after.accounts Rehearsal.sweepAccounts Rehearsal.routeAccounts ∧
      OnlyUserChanged (Rehearsal.ledger Rehearsal.beginnings) after Rehearsal.user := by
  have hdone : (execute Rehearsal.deployment Rehearsal.sweeping.1
      (Rehearsal.ledger Rehearsal.beginnings) (.sweep Rehearsal.sweepAccounts
        (Rehearsal.assetUpdate 1700100000) [] 0 0 (LittleEndian.bytes 8 3000000)
        Rehearsal.routeAccounts)).toOption.isSome = true := by
    decide +kernel
  have haccepts : Rehearsal.sweeping.1.AcceptsOnly
      fun message => Rehearsal.signedByPyth message = true := fun _ _ h => h
  cases h : execute Rehearsal.deployment Rehearsal.sweeping.1
      (Rehearsal.ledger Rehearsal.beginnings) (.sweep Rehearsal.sweepAccounts
        (Rehearsal.assetUpdate 1700100000) [] 0 0 (LittleEndian.bytes 8 3000000)
        Rehearsal.routeAccounts) with
  | error fault => simp [h, Except.toOption] at hdone
  | ok done =>
    obtain ⟨_, _, _, _, _, _, _, -, -, -, -, -, -, hkept, honly⟩ :=
      sweep_safety (Rehearsal.ledger_run Rehearsal.beginnings (by decide))
        (Rehearsal.transfersExactly rfl) haccepts h
    exact ⟨_, _, rfl, hkept, honly⟩

end Laterite
