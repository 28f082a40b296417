import Laterite.MachineIntegers

/-!
# Keys, constants and derived addresses

Amounts count one dollar as 1,000,000 raw units; times are Unix seconds, a signed 64-bit
word read as an integer. A deployment collects what the build fixes: the addresses of the
program and of the programs it calls, the derivation of program addresses, and the pure
account readers of the crates the program links.
-/

namespace Laterite

/-- A 32-byte address. The all-zero one is the default key and the system program's address. -/
abbrev Pubkey := Vector UInt8 32

instance : LawfulBEq Pubkey := inferInstanceAs (LawfulBEq (Vector UInt8 32))

def Pubkey.default : Pubkey := Vector.replicate 32 0

def assetCount : ℕ := 2

def paymentTokenCount : ℕ := 2

def usdDecimals : UInt8 := 6

def daySeconds : ℤ := 24 * 60 * 60

def weekSeconds : ℤ := 7 * daySeconds

def trialSeconds : ℤ := weekSeconds

def attestationTtlSeconds : ℤ := 7 * daySeconds

def calendarDays : ℕ := 1464

def calendarMaxAgeDays : ℤ := 366

/-- Weekly tiers: 10 and 25 dollars. -/
def tiers : Vector UInt64 2 := #v[10000000, 25000000]

def trialCap : UInt64 := 5000000

def planPeriodHours : UInt64 := 168

def planIdsPerToken : ℕ := 2

def planId (paymentToken tier : ℕ) : ℕ := paymentToken * planIdsPerToken + tier + 1

/-- The bytes of a text of one-byte characters. -/
def ascii (text : String) : List UInt8 := text.toList.map fun c => UInt8.ofNat c.toNat

def vaultSeed : List UInt8 := ascii "vault"

def swapSeed : List UInt8 := ascii "swap"

def userConfigSeed : List UInt8 := ascii "user"

def attestationDomain : List UInt8 := ascii "laterite:attestation:v1"

/-- A subscription's state as the Subscriptions crate decodes it. -/
structure SubscriptionDelegation where
  bump : UInt8
  amount : UInt64
  periodHours : UInt64
  amountPulledInPeriod : UInt64
  currentPeriodStartTs : ℤ
  /-- 0 while the subscription is not cancelled. -/
  expiresAtTs : ℤ
  deriving DecidableEq, Repr

/-- What the build fixes. The functions are those of the linked crates: the derivation of
program addresses, the Subscriptions crate's decoder and addresses, and the token crate's
reading of a token account and of a mint. -/
structure Deployment where
  id : Pubkey
  programData : Pubkey
  subscriptionsId : Pubkey
  tokenId : Pubkey
  token2022Id : Pubkey
  ed25519ProgramId : Pubkey
  bpfLoaderUpgradeableId : Pubkey
  deriveProgramAddress : List (List UInt8) → Pubkey → Pubkey × UInt8
  planPrefix : List UInt8
  subscriptionFromBytes : List UInt8 → Option SubscriptionDelegation
  createPda : (plan user : Pubkey) → (bump : UInt8) → Option Pubkey
  findPda : (plan user : Pubkey) → Pubkey × UInt8
  unpackAccountMint : List UInt8 → Option Pubkey
  unpackAccountOwner : List UInt8 → Option Pubkey
  mintDecimals : List UInt8 → Option UInt8

namespace Deployment

variable (d : Deployment)

/-- The vault authority: it owns every plan and pulls from it as its owner. -/
def vault : Pubkey := (d.deriveProgramAddress [vaultSeed] d.id).1

/-- The swap authority: every plan's only destination and the only signer of a route. -/
def swapAuthority : Pubkey := (d.deriveProgramAddress [swapSeed] d.id).1

def userConfigBump (user : Pubkey) : UInt8 :=
  (d.deriveProgramAddress [userConfigSeed, user.toList] d.id).2

def plan (paymentToken tier : ℕ) : Pubkey :=
  (d.deriveProgramAddress
    [d.planPrefix, d.vault.toList, LittleEndian.bytes 8 (planId paymentToken tier)]
    d.subscriptionsId).1

/-- Each payment token's plans by tier. -/
def plans : Vector (Vector Pubkey 2) 2 :=
  #v[#v[d.plan 0 0, d.plan 0 1], #v[d.plan 1 0, d.plan 1 1]]

end Deployment

end Laterite
