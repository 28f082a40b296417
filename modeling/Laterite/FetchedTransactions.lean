import Laterite.ProgramLogs

/-!
# Transactions as a node returns them

A node lists a transaction's account keys once and its instructions by the keys' places: the
top-level ones, and under each the ones it invoked. Read back, they are the instructions that ran,
each followed by what ran in it.
-/

namespace Laterite.Operator

open CallTraces Logs

structure TokenBalance where
  accountIndex : ℕ
  mint : Pubkey
  owner : Option Pubkey
  deriving DecidableEq

structure CompiledInstruction where
  accounts : List ℕ
  data : List UInt8
  programIdIndex : ℕ
  deriving DecidableEq

structure InnerInstructions where
  index : ℕ
  instructions : List CompiledInstruction
  deriving DecidableEq

structure LoadedAddresses where
  writable : List Pubkey
  readonly : List Pubkey
  deriving DecidableEq

structure TransactionMeta where
  err : Bool
  innerInstructions : Option (List InnerInstructions)
  loadedAddresses : Option LoadedAddresses
  logMessages : Option (List Line)
  postTokenBalances : Option (List TokenBalance)
  preTokenBalances : Option (List TokenBalance)
  deriving DecidableEq

structure Message where
  staticAccounts : List Pubkey
  instructions : List CompiledInstruction
  deriving DecidableEq

structure FetchedTransaction where
  blockTime : Option ℤ
  transactionMeta : Option TransactionMeta
  slot : ℕ
  transaction : Message
  deriving DecidableEq

/-- An instruction as it ran; an address is missing where its place is beyond the keys. -/
structure Executed where
  accounts : List (Option Pubkey)
  data : List UInt8
  programAddress : Option Pubkey
  deriving DecidableEq

namespace FetchedTransaction

variable (self : FetchedTransaction)

def keys : List Pubkey :=
  match self.transactionMeta.bind TransactionMeta.loadedAddresses with
  | none => self.transaction.staticAccounts
  | some loaded => self.transaction.staticAccounts ++ loaded.writable ++ loaded.readonly

/-- The instructions invoked under a top-level one; a later entry of its index replaces an earlier. -/
def inner (index : ℕ) : List CompiledInstruction :=
  match ((self.transactionMeta.bind TransactionMeta.innerInstructions).getD []).reverse.find?
      (fun entry => entry.index = index) with
  | none => []
  | some entry => entry.instructions

end FetchedTransaction

def resolve (keys : List Pubkey) (instruction : CompiledInstruction) : Executed where
  accounts := instruction.accounts.map (keys[·]?)
  data := instruction.data
  programAddress := keys[instruction.programIdIndex]?

/-- The instructions a transaction ran, in order: each top-level one followed by those it invoked. -/
def executedInstructions (transaction : FetchedTransaction) : List Executed :=
  transaction.transaction.instructions.zipIdx.flatMap fun (instruction, index) =>
    resolve transaction.keys instruction ::
      (transaction.inner index).map (resolve transaction.keys)

/-- A top-level instruction: the runtime's own check, which logs nothing, or a program with what
ran inside it. -/
inductive TopLevel where
  | precompile (call : ProgramCall)
  | program (call : ProgramCall) (body : Execution)

namespace TopLevel

def call : TopLevel → ProgramCall
  | precompile call => call
  | program call _ => call

def invoked : TopLevel → List ProgramCall
  | precompile _ => []
  | program _ body => body.entered

end TopLevel

/-- The instructions of a transaction, each followed by those it invoked. -/
def ranCalls (steps : List TopLevel) : List ProgramCall := steps.flatMap fun step => step.call :: step.invoked

/-- What logs in a transaction. -/
def execution : List TopLevel → Execution
  | [] => .nothing
  | .precompile _ :: steps => execution steps
  | .program call body :: steps => .calls call body (execution steps)

def executedOf (call : ProgramCall) : Executed where
  accounts := call.accounts.map some
  data := call.data
  programAddress := some call.program

/-- A node's entry names a call by its keys. -/
def Names (keys : List Pubkey) (instruction : CompiledInstruction) (call : ProgramCall) : Prop :=
  instruction.accounts.map (keys[·]?) = call.accounts.map some ∧ instruction.data = call.data ∧
    keys[instruction.programIdIndex]? = some call.program

/-- A transaction as the node returns it lists what ran: the top-level instructions in order, under
the index of each the calls made in it, when there are any, and the whole log. -/
structure Lists (transaction : FetchedTransaction) (steps : List TopLevel) : Prop where
  topLevel : List.Forall₂ (Names transaction.keys) transaction.transaction.instructions
    (steps.map TopLevel.call)
  inner : ∀ (index : ℕ) (step : TopLevel), steps[index]? = some step →
    List.Forall₂ (Names transaction.keys) (transaction.inner index) step.invoked

theorem resolve_of_names {keys : List Pubkey} {instruction : CompiledInstruction} {call : ProgramCall}
    (h : Names keys instruction call) : resolve keys instruction = executedOf call := by
  rcases h with ⟨haccounts, hdata, hprogram⟩
  unfold resolve executedOf
  rw [haccounts, hdata, hprogram]

theorem map_resolve_of_names {keys : List Pubkey} {instructions : List CompiledInstruction}
    {calls : List ProgramCall} (h : List.Forall₂ (Names keys) instructions calls) :
    instructions.map (resolve keys) = calls.map executedOf := by
  induction h with
  | nil => rfl
  | cons hname _ ih => rw [List.map_cons, List.map_cons, resolve_of_names hname, ih]

/-- What is read back is what ran, in order. -/
theorem executedInstructions_eq {transaction : FetchedTransaction} {steps : List TopLevel}
    (h : Lists transaction steps) :
    executedInstructions transaction = (ranCalls steps).map executedOf := by
  have hfrom (instructions : List CompiledInstruction) (later : List TopLevel) (start : ℕ)
      (htop : List.Forall₂ (Names transaction.keys) instructions (later.map TopLevel.call))
      (hlater : ∀ index step, later[index]? = some step →
        List.Forall₂ (Names transaction.keys) (transaction.inner (start + index)) step.invoked) :
      ((instructions.zipIdx start).flatMap fun (instruction, index) =>
        resolve transaction.keys instruction ::
          (transaction.inner index).map (resolve transaction.keys)) =
        (ranCalls later).map executedOf := by
    induction later generalizing instructions start with
    | nil =>
      cases htop
      rfl
    | cons step later ih =>
      rcases instructions with _ | ⟨instruction, instructions⟩
      · cases htop
      · cases htop with
        | cons hname htop =>
          have hrest := ih instructions (start + 1) htop fun index other hother => by
            have hindex := hlater (index + 1) other hother
            rwa [← Nat.add_assoc, Nat.add_right_comm] at hindex
          have hinner := map_resolve_of_names (hlater 0 step rfl)
          rw [Nat.add_zero] at hinner
          have hcalls : (ranCalls (step :: later)).map executedOf =
              executedOf step.call :: (step.invoked.map executedOf ++ (ranCalls later).map executedOf) := by
            unfold ranCalls
            rw [List.flatMap_cons, List.cons_append, List.map_cons, List.map_append]
          rw [hcalls, List.zipIdx_cons, List.flatMap_cons, hrest]
          dsimp only
          rw [resolve_of_names hname, hinner, List.cons_append]
  apply hfrom _ _ _ h.topLevel
  intro index step hstep
  rw [Nat.zero_add]
  exact h.inner index step hstep

/-- The calls of what logs, in the order they were entered, are the instructions that ran, the
runtime's own checks aside. -/
theorem entered_execution (steps : List TopLevel) : (execution steps).entered =
    steps.flatMap fun step =>
      match step with
      | .precompile _ => []
      | .program call body => call :: body.entered := by
  induction steps with
  | nil => rfl
  | cons step steps ih =>
    cases step with
    | precompile call => exact ih
    | program call body => exact congrArg (fun later => call :: (body.entered ++ later)) ih

end Laterite.Operator
