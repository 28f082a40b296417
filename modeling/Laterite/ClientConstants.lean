import Laterite.ComputationAgreement
import Laterite.ProgramConstants
import Laterite.ProgramErrors

/-!
# The client's constants and what it throws

The client keeps the program's constants as integers of its own. It refuses a transaction
before it is built with the number of the program's error, or asks for a restore of the
payment token it would pull.
-/

namespace Laterite

/-- The number a program error travels under. -/
def LateriteError.code (self : LateriteError) : ℕ := 6000 + self.ctorIdx

namespace Client

def tiers : List ℤ := [10000000, 25000000]

def trialCap : ℤ := 5000000

def daySeconds : ℤ := 86400

def weekSeconds : ℤ := 7 * daySeconds

def trialSeconds : ℤ := weekSeconds

/-- Days a market calendar spans from the day it is loaded. -/
def calendarDays : ℤ := 1464

def incomeShareBps : ℤ := 1000

def incomeMin : ℤ := 50000000

def changeStep : ℤ := 1000000

def changeMin : ℤ := 500000

def maxPriceAgeSeconds : ℤ := 60

def maxConfidenceBps : ℤ := 50

def slippageBps : ℤ := 55

def u64Max : ℤ := 2 ^ 64 - 1

def u128Max : ℤ := 2 ^ 128 - 1

/-- Why a payment token cannot be pulled until the user restores it. -/
inductive RestoreReason where
  | authority
  | delegate
  | frozen
  | subscription
  deriving DecidableEq, Repr

inductive ClientError where
  | lateriteCheck (code : ℕ)
  | restoreRequired (reason : RestoreReason) (account : Pubkey)
  deriving DecidableEq, Repr

inductive Predicts : ClientError → CheckedComputation.Fault ProgramError → Prop
  | code (e : LateriteError) : Predicts (.lateriteCheck e.code) (.error (.laterite e))

end Client

end Laterite
