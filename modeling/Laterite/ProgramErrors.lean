import Laterite.CheckedComputation

/-!
# The program's errors

An instruction refuses with one of the program's own errors, with one of the framework's
account checks, or because a program it invoked failed. An abort is not an error of the
program: it is a `Fault.panic`.
-/

namespace Laterite

inductive LateriteError where
  | notUpgradeAuthority
  | unauthorized
  | notPendingAdmin
  | invalidRouter
  | invalidAttestor
  | invalidCap
  | invalidAsset
  | invalidPaymentToken
  | invalidSponsor
  | programPaused
  | betaFull
  | unknownPaymentToken
  | invalidTier
  | capAboveBetaLimit
  | unknownAsset
  | noPaymentToken
  | invalidRules
  | subscriptionMismatch
  | notSponsor
  | calendarNotAscending
  | implausibleMarketDay
  | invalidPriceUpdate
  | priceUnavailable
  | stalePrice
  | priceUncertain
  | amountTooSmall
  | invalidGenesisHash
  | invalidAttestationSignature
  | invalidAttestation
  | userNotActive
  | attestationExpired
  | nothingToInvest
  | attestationNotExpired
  | alreadySwept
  | nothingToSweep
  | invalidTokenAccount
  | swapAccountChanged
  | slippageExceeded
  | planChangeRequired
  | pendingIncrease
  | userNotPaused
  | userNotExited
  deriving DecidableEq, Repr

inductive AnchorError where
  | accountNotInitialized
  | accountNotSigner
  | accountNotEnoughKeys
  | accountNotSystemOwned
  | accountAlreadyInUse
  | constraintOwner
  | constraintHasOne
  deriving DecidableEq, Repr

inductive ProgramError where
  | laterite (e : LateriteError)
  | anchor (e : AnchorError)
  | invocation
  deriving DecidableEq, Repr

instance : Coe LateriteError ProgramError := ⟨.laterite⟩

instance : Coe AnchorError ProgramError := ⟨.anchor⟩

abbrev Result (α : Type) := CheckedComputation.Checked ProgramError α

end Laterite
