import Laterite.ClientConstants
import Laterite.ProgramLogs

/-!
# What the crank does about a failed sweep

A failed sweep's logs name the programs running when it first failed. The innermost one, with the
code of the error, decides what the crank does. Two answers end the day for the token: the program
says it was swept, and the pull from the user failed. They are given exactly when the runtime
stopped in the program that says so, wherever else its code means something else.
-/

namespace Laterite.Failures

open Logs

/-- What the crank does after a failed sweep. -/
inductive FailureAction where
  | alert
  | price
  | pull
  | rebuild
  | recompute
  | refetch
  | slippage
  | swept
  | unknown
  | venue
  deriving DecidableEq

structure SweepFailure where
  action : FailureAction
  program : Option Line
  reason : String

structure InstructionError where
  code : Option ℕ
  index : Option ℕ

structure Programs where
  laterite : Pubkey
  subscriptions : Pubkey
  token : Pubkey
  token2022 : Pubkey
  pythPro : Pubkey
  jupiter : Pubkey
  system : Pubkey
  amountExceedsPeriodLimit : ℕ

def lateriteErrorNames : List (LateriteError × String) :=
  [(.alreadySwept, "AlreadySwept"), (.invalidPriceUpdate, "InvalidPriceUpdate"),
    (.invalidRouter, "InvalidRouter"), (.invalidTokenAccount, "InvalidTokenAccount"),
    (.nothingToSweep, "NothingToSweep"), (.priceUnavailable, "PriceUnavailable"),
    (.priceUncertain, "PriceUncertain"), (.programPaused, "ProgramPaused"),
    (.slippageExceeded, "SlippageExceeded"), (.stalePrice, "StalePrice"),
    (.subscriptionMismatch, "SubscriptionMismatch"), (.swapAccountChanged, "SwapAccountChanged")]

def lateriteErrorName (code : ℕ) : String :=
  match lateriteErrorNames.find? fun entry => entry.1.code = code with
  | some entry => entry.2
  | none => s!"Laterite {code}"

/-- Jupiter's `SlippageToleranceExceeded`. -/
def jupiterSlippageToleranceExceeded : ℕ := 6001

def tokenInsufficientFunds : ℕ := 1

def lateriteAction (code : ℕ) : FailureAction :=
  if code = LateriteError.swapAccountChanged.code then .rebuild
  else if code = LateriteError.stalePrice.code ∨ code = LateriteError.priceUncertain.code then .price
  else if code = LateriteError.slippageExceeded.code then .slippage
  else if code = LateriteError.alreadySwept.code then .swept
  else if code = LateriteError.nothingToSweep.code then .recompute
  else if code = LateriteError.programPaused.code ∨ code = LateriteError.invalidRouter.code ∨
      code = LateriteError.subscriptionMismatch.code then .refetch
  else if code = LateriteError.invalidTokenAccount.code then .pull
  else if code = LateriteError.priceUnavailable.code ∨ code = LateriteError.invalidPriceUpdate.code then
    .alert
  else .unknown

def codeText (code : Option ℕ) : String := (code.map toString).getD "error"

def text (program : Line) : String := String.ofList program

def sweepFailure (p : Programs) (error : InstructionError) (errorText : String) (logs : List Line)
    (router : Pubkey) : SweepFailure :=
  let stack := failingInvocation logs
  let program := stack.getLast?
  let code := error.code
  let inPull : Prop := addressText p.subscriptions ∈ stack
  let inRoute : Prop := addressText router ∈ stack
  let named (action : FailureAction) (reason : String) : SweepFailure := ⟨action, program, reason⟩
  match program with
  | none =>
    -- The ed25519 precompile, the sweep's first instruction, logs nothing.
    if error.index = some 0 then named .alert s!"ed25519 {codeText code}" else named .unknown errorText
  | some program =>
    if program = addressText p.laterite ∧ code.isSome then
      named (lateriteAction (code.getD 0)) (lateriteErrorName (code.getD 0))
    else if program = addressText p.subscriptions then
      named (if code = some p.amountExceedsPeriodLimit then .alert else .pull)
        s!"Subscriptions {codeText code}"
    else if program ∈ [p.token, p.token2022].map addressText then
      let reason := s!"token {codeText code}"
      if inPull then named .pull reason
      else if inRoute ∧ code = some tokenInsufficientFunds then named .rebuild reason
      else if inRoute then named .venue reason else named .unknown reason
    else if program = addressText p.pythPro then named .alert s!"Pyth Pro {codeText code}"
    else if program = addressText p.jupiter ∧ code = some jupiterSlippageToleranceExceeded then
      named .slippage "Jupiter SlippageToleranceExceeded"
    else if inRoute then
      let name := if program = addressText p.system then "System" else text program
      named .venue s!"{name} {codeText code}"
    else named .unknown s!"{text program} {codeText code}"

/-- The programs a failure is told by are different ones. -/
structure Programs.Distinct (p : Programs) : Prop where
  subscriptions : p.laterite ≠ p.subscriptions
  token : p.laterite ≠ p.token ∧ p.subscriptions ≠ p.token
  token2022 : p.laterite ≠ p.token2022 ∧ p.subscriptions ≠ p.token2022

def SaysSwept (p : Programs) (error : InstructionError) (chain : List ProgramCall) : Prop :=
  (∃ call, chain.getLast? = some call ∧ call.program = p.laterite) ∧
    error.code = some LateriteError.alreadySwept.code

/-- The pull from the user failed: the Subscriptions program refused it, for anything but its period
cap, a token program did while Subscriptions ran, or the program refused an account of it. -/
def PullFailed (p : Programs) (error : InstructionError) (chain : List ProgramCall) : Prop :=
  ∃ call, chain.getLast? = some call ∧
    (call.program = p.laterite ∧ error.code = some LateriteError.invalidTokenAccount.code ∨
      call.program = p.subscriptions ∧ error.code ≠ some p.amountExceedsPeriodLimit ∨
      (call.program = p.token ∨ call.program = p.token2022) ∧
        ∃ caller ∈ chain, caller.program = p.subscriptions)

section

variable {p : Programs} {error : InstructionError} {errorText : String} {router : Pubkey}
  {chain : List ProgramCall} {call : ProgramCall}

theorem addressText_inj {a b : Pubkey} : addressText a = addressText b ↔ a = b :=
  ⟨addressText_injective, congrArg addressText⟩

theorem mem_programs {address : Pubkey} :
    addressText address ∈ programs chain ↔ ∃ caller ∈ chain, caller.program = address := by
  simp [programs, addressText_inj]

theorem getLast?_programs : (programs chain).getLast? = chain.getLast?.map fun call =>
    addressText call.program := List.getLast?_map ..

theorem lateriteAction_swept {code : ℕ} :
    lateriteAction code = .swept ↔ code = LateriteError.alreadySwept.code := by
  constructor
  · intro h
    unfold lateriteAction at h
    split_ifs at h
    assumption
  · rintro rfl
    rfl

theorem lateriteAction_pull {code : ℕ} :
    lateriteAction code = .pull ↔ code = LateriteError.invalidTokenAccount.code := by
  constructor
  · intro h
    unfold lateriteAction at h
    split_ifs at h
    assumption
  · rintro rfl
    rfl

def chainAction (p : Programs) (error : InstructionError) (router : Pubkey)
    (chain : List ProgramCall) : FailureAction :=
  match chain.getLast? with
  | none => if error.index = some 0 then .alert else .unknown
  | some call =>
    let inRoute : Prop := ∃ caller ∈ chain, caller.program = router
    if call.program = p.laterite ∧ error.code.isSome then lateriteAction (error.code.getD 0)
    else if call.program = p.subscriptions then
      if error.code = some p.amountExceedsPeriodLimit then .alert else .pull
    else if call.program = p.token ∨ call.program = p.token2022 then
      if ∃ caller ∈ chain, caller.program = p.subscriptions then .pull
      else if inRoute ∧ error.code = some tokenInsufficientFunds then .rebuild
      else if inRoute then .venue else .unknown
    else if call.program = p.pythPro then .alert
    else if call.program = p.jupiter ∧ error.code = some jupiterSlippageToleranceExceeded then .slippage
    else if inRoute then .venue
    else .unknown

theorem sweepFailure_action (execution : Execution) :
    (sweepFailure p error errorText (logLines execution) router).action =
      chainAction p error router ((failing execution).getD []) := by
  unfold sweepFailure chainAction
  dsimp only
  rw [failingInvocation_eq, getLast?_programs]
  cases ((failing execution).getD []).getLast? with
  | none =>
    simp only [Option.map_none]
    split_ifs <;> rfl
  | some call =>
    simp only [Option.map_some, addressText_inj, mem_programs, List.map_cons, List.map_nil,
      List.mem_cons, List.not_mem_nil, or_false]
    split_ifs <;> rfl

/-- Of the actions past the program's own errors and the Subscriptions program's, none ends the day
but a pull. -/
theorem chainAction_swept : chainAction p error router chain = .swept ↔ SaysSwept p error chain := by
  unfold chainAction SaysSwept
  cases chain.getLast? with
  | none =>
    simp only [reduceCtorEq, false_and, exists_false, iff_false]
    split_ifs <;> simp
  | some call =>
    simp only [Option.some.injEq, exists_eq_left']
    split_ifs with hlaterite
    · rw [lateriteAction_swept]
      rcases Option.isSome_iff_exists.mp hlaterite.2 with ⟨code, hcode⟩
      simp [hlaterite.1, hcode]
    all_goals
      simp only [false_iff, not_and]
      intro hprogram hcode
      exact hlaterite ⟨hprogram, by rw [hcode]; rfl⟩

theorem chainAction_pull (h : p.Distinct) :
    chainAction p error router chain = .pull ↔ PullFailed p error chain := by
  unfold chainAction PullFailed
  cases chain.getLast? with
  | none =>
    simp only [reduceCtorEq, false_and, exists_false, iff_false]
    split_ifs <;> simp
  | some call =>
    simp only [Option.some.injEq, exists_eq_left']
    by_cases hlaterite : call.program = p.laterite
    · have hsubscriptions : ¬call.program = p.subscriptions := fun hp =>
        h.subscriptions (hlaterite.symm.trans hp)
      have htoken : ¬(call.program = p.token ∨ call.program = p.token2022) := by
        rw [hlaterite]
        exact fun hp => hp.elim h.token.1 h.token2022.1
      cases error.code with
      | none =>
        simp only [hsubscriptions, htoken, Option.isSome_none, reduceCtorEq, and_false, false_and,
          ite_false, or_false, iff_false]
        split_ifs <;> simp
      | some code =>
        simp [hlaterite, lateriteAction_pull, h.subscriptions, h.token.1, h.token2022.1]
    · by_cases hsubscriptions : call.program = p.subscriptions
      · have htoken : ¬(call.program = p.token ∨ call.program = p.token2022) := by
          rw [hsubscriptions]
          exact fun hp => hp.elim h.token.2 h.token2022.2
        simp only [eq_false hlaterite, eq_true hsubscriptions, eq_false htoken, false_and, false_or,
          or_false, ite_true, ite_false, true_and]
        split_ifs with hcap <;> simp [hcap]
      · simp only [hlaterite, hsubscriptions, false_and, false_or, ite_false]
        by_cases htoken : call.program = p.token ∨ call.program = p.token2022
        · simp only [htoken, ite_true, true_and]
          split_ifs with hpull <;> simp [hpull]
        · simp only [htoken, ite_false, false_and, iff_false]
          split_ifs <;> simp

/-- Whatever the runtime ran, the crank reads two ends of a day from its logs, each exactly when the
program that says so is the one that failed: the token was swept, or its pull was refused. -/
theorem day_ending_failures (h : p.Distinct) (execution : Execution) :
    ((sweepFailure p error errorText (logLines execution) router).action = .swept ↔
        SaysSwept p error ((failing execution).getD [])) ∧
      ((sweepFailure p error errorText (logLines execution) router).action = .pull ↔
        PullFailed p error ((failing execution).getD [])) := by
  rw [sweepFailure_action]
  exact ⟨chainAction_swept, chainAction_pull h⟩

end

/-- A sweep that pulled, through Subscriptions, from a closed account. -/
theorem day_ending_failures_pull :
    let address (n : UInt8) : Pubkey := Vector.replicate 32 n
    let p : Programs := ⟨address 1, address 2, address 3, address 4, address 5, address 6, address 7, 400⟩
    let refused (program : Pubkey) : ProgramCall := ⟨program, [], [], .failed "closed".toList, none⟩
    let execution : Execution := .calls (refused p.laterite)
      (.calls (refused p.subscriptions) (.calls (refused p.token) .nothing .nothing) .nothing) .nothing
    (sweepFailure p ⟨some 4, some 2⟩ "" (logLines execution) (address 8)).action = .pull :=
  (day_ending_failures (p := ⟨_, _, _, _, _, _, _, 400⟩) (by constructor <;> decide) _).2.mpr
    ⟨_, rfl, .inr (.inr ⟨.inl rfl, _, List.mem_cons_of_mem _ List.mem_cons_self, rfl⟩)⟩

end Laterite.Failures
