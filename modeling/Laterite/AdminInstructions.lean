import Laterite.ChainAccounts
import Laterite.MarketSession

/-!
# Initialization and the admin's instructions

The config is created once, by the program's upgrade authority. The admin replaces the
settings, sets the kill switch, loads the market calendar, publishes the plans and hands
the role over in two steps.
-/

namespace Laterite

open CheckedComputation

/-- The upgrade authority a program's data account holds: the loader's state tag 3, the
deployment slot, then an optional key. -/
def upgradeAuthority (data : List UInt8) : Option Pubkey :=
  let key := (data.drop 13).take 32
  if h : key.length = 32 then
    if data.take 4 = LittleEndian.bytes 4 3 ∧ (data.drop 12).head? = some 1 then
      some ⟨key.toArray, by simpa using h⟩
    else none
  else none

def ConfigParams.toConfig (self : ConfigParams) (authority : Pubkey) : Config where
  admin := authority
  pendingAdmin := Pubkey.default
  paused := false
  router := self.router
  attestor := self.settings.attestor
  sponsor := self.settings.sponsor
  userWeeklyCap := self.settings.userWeeklyCap
  maxUsers := self.settings.maxUsers
  userCount := 0
  assets := self.assets
  paymentTokens := self.paymentTokens
  marketCalendar := MarketCalendar.default
  genesisHash := self.genesisHash

variable (d : Deployment) (inv : Invocation) (chain : Chain)

def initializeConfig (authority : Pubkey) (params : ConfigParams) (mints : List Pubkey) :
    Result (Event × Chain) := do
  inv.requireSigner authority
  require (chain.config = none) AnchorError.accountAlreadyInUse
  let programData := chain.accounts.info d.programData
  require (programData.owner = d.bpfLoaderUpgradeableId) AnchorError.constraintOwner
  require (upgradeAuthority programData.data = some authority) LateriteError.notUpgradeAuthority
  params.validate d (mints.map chain.accounts.info)
  return (.configInitialized params, chain.setConfig (params.toConfig authority))

def adminOnly (admin : Pubkey) : Result Config := do
  inv.requireSigner admin
  let config ← chain.loadConfig
  require (config.admin = admin) LateriteError.unauthorized
  return config

def updateConfig (admin : Pubkey) (settings : Settings) : Result (Event × Chain) := do
  let config ← adminOnly inv chain admin
  settings.validate
  return (.settingsUpdated settings, chain.setConfig (config.apply settings))

def setPaused (admin : Pubkey) (paused : Bool) : Result (Event × Chain) := do
  let config ← adminOnly inv chain admin
  return (.pausedSet paused, chain.setConfig { config with paused := paused })

def setMarketCalendar (admin : Pubkey) (holidays earlyCloses : List UInt16)
    (validThrough : UInt16) : Result (Event × Chain) := do
  let config ← adminOnly inv chain admin
  let today := inv.now / daySeconds
  let calendar ← MarketCalendar.new holidays earlyCloses validThrough today
  return (.marketCalendarSet holidays earlyCloses validThrough,
    chain.setConfig { config with marketCalendar := calendar })

/-- First step of a handover; the default key cancels a pending one. -/
def proposeAdmin (admin newAdmin : Pubkey) : Result (Event × Chain) := do
  let config ← adminOnly inv chain admin
  return (.adminProposed newAdmin, chain.setConfig { config with pendingAdmin := newAdmin })

/-- Second step: the proposed admin signs to take over. -/
def acceptAdmin (pendingAdmin : Pubkey) : Result (Event × Chain) := do
  inv.requireSigner pendingAdmin
  let config ← chain.loadConfig
  require (config.pendingAdmin = pendingAdmin) LateriteError.notPendingAdmin
  return (.adminAccepted pendingAdmin,
    chain.setConfig { config with admin := pendingAdmin, pendingAdmin := Pubkey.default })

def createPlan (admin plan mint tokenProgram : Pubkey) (paymentToken tier : UInt8) :
    Result (Event × Chain) := do
  let config ← adminOnly inv chain admin
  let token ← okOr config.paymentTokens[paymentToken.toNat]? LateriteError.unknownPaymentToken
  let amount ← okOr tiers[tier.toNat]? LateriteError.invalidTier
  require (mint = token.mint) LateriteError.unknownPaymentToken
  require (tokenProgram = token.tokenProgram) LateriteError.unknownPaymentToken
  let call : PublishPlan := {
    merchant := d.vault
    planPda := plan
    tokenMint := mint
    tokenProgram := tokenProgram
    payer := admin
    planId := planId paymentToken.toNat tier.toNat
    amount := amount
    periodHours := planPeriodHours
    destinations := [d.swapAuthority, Pubkey.default, Pubkey.default, Pubkey.default] }
  let accounts ← invoke [d.vault, plan, admin] (inv.programs.createPlan call) chain.accounts
  return (.planCreated paymentToken tier plan, chain.setAccounts accounts)

end Laterite
