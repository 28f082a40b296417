import Laterite.AdmissionWindows
import Laterite.Sponsorships
import Mathlib.Logic.Relation

/-!
# The sponsor's limits on what lands

Requests interleave: prepared messages are recorded at any time, claims run one after the other
under the lock while other requests settle, and each claimed message is refused for its shape or
co-signed and sent. What the cluster does with it and what the route is told are settled apart.
-/

namespace Laterite.Sponsor

open AdmissionWindows

/-- What the cluster does with a co-signed transaction. -/
inductive Fate where
  | pending
  | landed
  | dead
  deriving DecidableEq

/-- Where a claimed message stands, and whether the route has settled its row. -/
inductive Stage where
  | claimed
  | refused
  | cosigned (fate : Fate) (settled : Bool)
  deriving DecidableEq

structure Submission where
  row : Sponsorship
  ip : Option String
  claimedAt : ℤ
  stage : Stage
  deriving DecidableEq

def Submission.cosigned (self : Submission) : Bool :=
  match self.stage with
  | .cosigned _ _ => true
  | _ => false

def Submission.live (self : Submission) : Bool :=
  match self.stage with
  | .cosigned .pending _ | .cosigned .landed _ => true
  | _ => false

/-- It is live, or may yet be co-signed. -/
def Submission.counts (self : Submission) : Bool := self.live || self.stage = .claimed

def Submission.at (self : Submission) (stage : Stage) : Submission := { self with stage := stage }

/-- The table, the claimed messages, the latest first, and what the claim that holds the lock has
read. -/
structure SponsorState where
  rows : List Sponsorship
  submissions : List Submission
  claiming : Option Reads

def SponsorState.start : SponsorState := ⟨[], [], none⟩

/-- One step; `Fails` restricts the fates of the transactions whose rows are settled as failed. -/
inductive SponsorStep (Fails : Fate → Prop) : SponsorState → SponsorState → Prop
  | prepare {rows : List Sponsorship} {submissions : List Submission} {claiming : Option Reads}
    {prepared : Sponsorship} (hid : ∀ row ∈ rows, row.id ≠ prepared.id)
    (houtcome : prepared.outcome = .prepared) :
    SponsorStep Fails ⟨rows, submissions, claiming⟩
      ⟨recordPrepared rows prepared, submissions, claiming⟩
  | lock {rows : List Sponsorship} {submissions : List Submission} :
    SponsorStep Fails ⟨rows, submissions, none⟩ ⟨rows, submissions, some fun _ => rows⟩
  | read {rows : List Sponsorship} {submissions : List Submission} {reads : Reads}
    (statement : Statement) :
    SponsorStep Fails ⟨rows, submissions, some reads⟩
      ⟨rows, submissions, some (Function.update reads statement rows)⟩
  | claim {rows rows' : List Sponsorship} {submissions : List Submission} {reads : Reads}
    {request : Request} {now : ℤ} {row : Sponsorship}
    (h : claimSend reads rows request now = (.ok row, rows')) :
    SponsorStep Fails ⟨rows, submissions, some reads⟩
      ⟨rows', ⟨row, request.ip, now, .claimed⟩ :: submissions, none⟩
  | release {rows : List Sponsorship} {submissions : List Submission} {reads : Reads} :
    SponsorStep Fails ⟨rows, submissions, some reads⟩ ⟨rows, submissions, none⟩
  | refuse {rows : List Sponsorship} {newer older : List Submission} {claiming : Option Reads}
    {s : Submission} (hstage : s.stage = .claimed) (shape : String) :
    SponsorStep Fails ⟨rows, newer ++ s :: older, claiming⟩
      ⟨settleSend rows s.row.id (.failed shape none), newer ++ s.at .refused :: older, claiming⟩
  | cosign {rows : List Sponsorship} {newer older : List Submission} {claiming : Option Reads}
    {s : Submission} (hstage : s.stage = .claimed) :
    SponsorStep Fails ⟨rows, newer ++ s :: older, claiming⟩
      ⟨rows, newer ++ s.at (.cosigned .pending false) :: older, claiming⟩
  | decide {rows : List Sponsorship} {newer older : List Submission} {claiming : Option Reads}
    {s : Submission} {settled : Bool} (hstage : s.stage = .cosigned .pending settled) (fate : Fate) :
    SponsorStep Fails ⟨rows, newer ++ s :: older, claiming⟩
      ⟨rows, newer ++ s.at (.cosigned fate settled) :: older, claiming⟩
  | settleLanded {rows : List Sponsorship} {newer older : List Submission} {claiming : Option Reads}
    {s : Submission} {fate : Fate} (hstage : s.stage = .cosigned fate false) (signature : String) :
    SponsorStep Fails ⟨rows, newer ++ s :: older, claiming⟩
      ⟨settleSend rows s.row.id (.landed signature), newer ++ s.at (.cosigned fate true) :: older,
        claiming⟩
  | settleFailed {rows : List Sponsorship} {newer older : List Submission} {claiming : Option Reads}
    {s : Submission} {fate : Fate} (hstage : s.stage = .cosigned fate false) (hfails : Fails fate)
    (reason : String) (signature : Option String) :
    SponsorStep Fails ⟨rows, newer ++ s :: older, claiming⟩
      ⟨settleSend rows s.row.id (.failed reason signature),
        newer ++ s.at (.cosigned fate true) :: older, claiming⟩

def SponsorRun (Fails : Fate → Prop) (state : SponsorState) : Prop :=
  Relation.ReflTransGen (SponsorStep Fails) .start state

/-- A row as the submission left it, whatever became of it. -/
def Listed (rows : List Sponsorship) (s : Submission) : Prop :=
  ∃ row ∈ rows, row.id = s.row.id ∧ row.message = s.row.message ∧ row.outcome ≠ .prepared

def Recorded (rows : List Sponsorship) (s : Submission) : Prop :=
  ∃ row ∈ rows, row.id = s.row.id ∧ row.wallet = s.row.wallet ∧ row.kind = s.row.kind ∧
    row.assetAccount = s.row.assetAccount ∧ row.sentAt = some s.claimedAt ∧
    (∀ address, s.ip = some address → row.ip = some address) ∧ spent row.outcome = true

def within (window : ℤ) (later earlier : Submission) : Bool :=
  later.claimedAt - window < earlier.claimedAt

structure Limits (submissions : List Submission) : Prop where
  wallet : ∀ wallet, Admitted (fun s => s.counts && s.row.wallet = wallet) (within dayMs)
    SponsorLimits.wallet submissions
  ip : ∀ address, Admitted (fun s => s.counts && s.ip = some address) (within dayMs)
    SponsorLimits.ip submissions
  all : Admitted Submission.counts (within dayMs) SponsorLimits.all submissions
  returns : ∀ wallet, Admitted
    (fun s => s.counts && (s.row.wallet = wallet && s.row.kind = .reactivate)) (within returnWindowMs)
    returnLimit submissions
  assetAccount : ∀ wallet mint, Admitted
    (fun s => s.counts && (s.row.wallet = wallet && s.row.assetAccount = some mint)) (fun _ _ => true) 1
    submissions

/-- The table and the submissions of a run in which only dead transactions are settled as failed. -/
structure Sound (state : SponsorState) : Prop where
  ids : (state.rows.map Sponsorship.id).Nodup
  messages : (state.rows.map Sponsorship.message).Nodup
  claimed : (state.submissions.map fun s => s.row.id).Nodup
  listed : ∀ s ∈ state.submissions, Listed state.rows s
  recorded : ∀ s ∈ state.submissions, s.counts = true → Recorded state.rows s
  reads : ∀ reads ∈ state.claiming, ∀ statement, ∀ s ∈ state.submissions, s.counts = true →
    Recorded (reads statement) s
  prepared : ∀ reads ∈ state.claiming, ∀ statement, ∀ row ∈ reads statement,
    row.outcome = .prepared → row ∈ state.rows
  limits : Limits state.submissions

end Laterite.Sponsor
