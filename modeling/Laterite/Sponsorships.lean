import Laterite.ProgramConstants
import Mathlib.Data.List.Nodup
import Mathlib.Data.List.Perm.Subperm

/-!
# The sponsor's records

Every transaction the sponsor route built has a row: prepared, then sent once its message is
claimed, then landed or failed. A claim counts the rows that were sent and did not fail. Times are
in milliseconds.
-/

namespace Laterite.Sponsor

inductive Kind where
  | enroll
  | reactivate
  deriving DecidableEq

inductive Outcome where
  | prepared
  | sent
  | landed
  | failed
  deriving DecidableEq

structure Sponsorship where
  id : ℕ
  wallet : Pubkey
  ip : Option String
  kind : Kind
  /-- The message's hash. -/
  message : String
  /-- The asset whose account the transaction creates. -/
  assetAccount : Option Pubkey
  preparedAt : ℤ
  sentAt : Option ℤ
  signature : Option String
  outcome : Outcome
  reason : Option String
  deriving DecidableEq

def hourMs : ℤ := 60 * 60 * 1000

def dayMs : ℤ := 24 * hourMs

def returnWindowMs : ℤ := 30 * dayMs

/-- How long a prepared message may come back signed. -/
def preparedTtlMs : ℤ := 2 * 60 * 1000

namespace SponsorLimits

/-- Sponsored transactions sent within a day: in all, per requesting address and per wallet. -/
def all : ℕ := 500

def ip : ℕ := 10

def wallet : ℕ := 3

end SponsorLimits

/-- Returns per wallet within thirty days. -/
def returnLimit : ℕ := 2

/-- What the sponsor paid for, or may still land. -/
def spent : Outcome → Bool
  | .sent | .landed => true
  | .prepared | .failed => false

inductive Limit where
  | wallet
  | all
  | ip
  | returns
  deriving DecidableEq

structure Limited where
  limit : Limit
  retryAfterSeconds : ℤ
  deriving DecidableEq

/-- Rounded up to whole seconds, at least one. -/
def retryAfter (oldest : Option ℤ) (window now : ℤ) : ℤ :=
  max 1 (-(-(oldest.getD now + window - now) / 1000))

/-- The statements of a claim that read the table, each as it finds it. -/
inductive Statement where
  | row
  | limit (limit : Limit)
  | assetAccount
  deriving DecidableEq

abbrev Reads := Statement → List Sponsorship

def spentSince (rows : List Sponsorship) (since : ℤ) (among : Sponsorship → Bool) :
    List Sponsorship :=
  rows.filter fun row => row.sentAt.any (since < ·) && spent row.outcome && among row

structure Check where
  limit : Limit
  among : Sponsorship → Bool
  most : ℕ
  window : ℤ

def checks (wallet : Pubkey) (ip : Option String) (kind : Kind) : List Check :=
  [⟨.wallet, fun row => row.wallet = wallet, SponsorLimits.wallet, dayMs⟩,
    ⟨.all, fun _ => true, SponsorLimits.all, dayMs⟩] ++
  (match ip with
  | some address => [⟨.ip, fun row => row.ip = some address, SponsorLimits.ip, dayMs⟩]
  | none => []) ++
  if kind = .reactivate then
    [⟨.returns, fun row => row.wallet = wallet && row.kind = .reactivate, returnLimit, returnWindowMs⟩]
  else []

/-- The first send limit another transaction would pass. -/
def sendLimit (reads : Reads) (wallet : Pubkey) (ip : Option String) (kind : Kind) (now : ℤ) :
    Option Limited :=
  (checks wallet ip kind).findSome? fun check =>
    let used := spentSince (reads (.limit check.limit)) (now - check.window) check.among
    if used.length ≥ check.most then
      some ⟨check.limit, retryAfter (used.filterMap Sponsorship.sentAt).min? check.window now⟩
    else none

def assetAccountPaid (rows : List Sponsorship) (wallet mint : Pubkey) (except : Option ℕ) : Bool :=
  rows.any fun row => row.wallet = wallet && row.assetAccount = some mint && spent row.outcome &&
    except ≠ some row.id

structure Request where
  ip : Option String
  message : String
  wallet : Pubkey

inductive Claim where
  | ok (row : Sponsorship)
  | assetAccount
  | unknown
  | limited (limited : Limited)

/-- The row once it is claimed. -/
def Sponsorship.claimed (self : Sponsorship) (ip : Option String) (now : ℤ) : Sponsorship :=
  { self with ip := ip, outcome := .sent, sentAt := some now }

def claimSend (reads : Reads) (rows : List Sponsorship) (request : Request) (now : ℤ) :
    Claim × List Sponsorship :=
  match (reads .row).find? fun row => row.message = request.message && row.wallet = request.wallet &&
      row.outcome = .prepared && now - preparedTtlMs < row.preparedAt with
  | none => (.unknown, rows)
  | some row =>
    match sendLimit reads request.wallet request.ip row.kind now with
    | some limited => (.limited limited, rows)
    | none =>
      if row.assetAccount.any fun mint =>
          assetAccountPaid (reads .assetAccount) request.wallet mint (some row.id) then
        (.assetAccount, rows)
      else
        let ip := request.ip.or row.ip
        (.ok (row.claimed ip now),
          rows.map fun other => if other.id = row.id then other.claimed ip now else other)

def recordPrepared (rows : List Sponsorship) (prepared : Sponsorship) : List Sponsorship :=
  if rows.any (·.message = prepared.message) then rows else rows ++ [prepared]

inductive Settlement where
  | landed (signature : String)
  | failed (reason : String) (signature : Option String)

def Sponsorship.settled (self : Sponsorship) : Settlement → Sponsorship
  | .landed signature => { self with outcome := .landed, signature := some signature }
  | .failed reason signature =>
    { self with outcome := .failed, reason := some reason, signature := signature }

/-- Records what became of a sent transaction. -/
def settleSend (rows : List Sponsorship) (id : ℕ) (settlement : Settlement) : List Sponsorship :=
  rows.map fun row => if row.id = id then row.settled settlement else row

variable {reads : Reads} {rows rows' : List Sponsorship} {request : Request} {now : ℤ}
  {wallet : Pubkey} {ip : Option String} {kind : Kind}

theorem sendLimit_eq_none (h : sendLimit reads wallet ip kind now = none) :
    ∀ check ∈ checks wallet ip kind,
      (spentSince (reads (.limit check.limit)) (now - check.window) check.among).length <
        check.most := by
  intro check hcheck
  have hnone := List.findSome?_eq_none_iff.mp h check hcheck
  dsimp only at hnone
  split at hnone
  · cases hnone
  · omega

theorem claimSend_ok {claimed : Sponsorship}
    (h : claimSend reads rows request now = (.ok claimed, rows')) :
    ∃ row ∈ reads .row, row.message = request.message ∧ row.wallet = request.wallet ∧
      row.outcome = .prepared ∧ claimed = row.claimed (request.ip.or row.ip) now ∧
      sendLimit reads request.wallet request.ip row.kind now = none ∧
      (∀ mint, row.assetAccount = some mint →
        assetAccountPaid (reads .assetAccount) request.wallet mint (some row.id) = false) ∧
      rows' = rows.map fun other =>
        if other.id = row.id then other.claimed (request.ip.or row.ip) now else other := by
  unfold claimSend at h
  split at h
  · cases h
  · rename_i row hfound
    have hrow := List.find?_some hfound
    split at h
    · cases h
    · rename_i hlimit
      split at h
      · cases h
      · rename_i hpaid
        cases h
        simp only [Bool.and_eq_true, decide_eq_true_eq] at hrow
        refine ⟨row, List.mem_of_find?_eq_some hfound, hrow.1.1.1, hrow.1.1.2, hrow.1.2, rfl, hlimit,
          fun mint hmint => ?_, rfl⟩
        rw [hmint, Option.any_some, Bool.not_eq_true] at hpaid
        exact hpaid

end Laterite.Sponsor
