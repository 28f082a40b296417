import Laterite.ControlAgreement

/-!
# What the builders of the controls list

A built control is the instructions that make subscriptions live, then Laterite's with the accounts
its walk takes in order, then the closes behind it.
-/

namespace Laterite.Client

open CheckedComputation Deployment

variable {d : Deployment} {unknownInitId : ℤ} {config : Laterite.Config} {params : EnrollParams}
  {payers : List Pubkey} {sponsor user : Pubkey} {state : UserState} {delegations : List Delegation}
  {planMint : Pubkey → Option Pubkey} {chain : Chain} {tier : ℕ} {tokens : List ℕ}
  {instructions : List Instruction}

/-- A plan of the state is the vault's, with the user's subscription at its canonical address. -/
theorem Mirrors.planState (hmirrors : Mirrors d config user state chain) {paymentToken : ℕ}
    {plan : PlanState} (h : planState state paymentToken tier = .ok plan) :
    paymentToken < paymentTokenCount ∧ tier < 2 ∧ plan.paymentToken = paymentToken ∧
      plan.plan = d.plan paymentToken tier ∧
      plan.subscription = d.subscriptionOf (d.plan paymentToken tier) user := by
  have hfind := found_eq_ok.mp h
  have hplan := List.find?_some hfind
  rw [decide_eq_true_eq] at hplan
  rcases hplan with ⟨rfl, rfl⟩
  rcases hmirrors.plans (List.mem_of_find?_eq_some hfind) with ⟨htoken, htier, hplan, hsubscription, -⟩
  rw [hplan] at hsubscription
  exact ⟨htoken, htier, rfl, hplan, hsubscription⟩

/-- The subscriptions that are made live are the user's to the tier's plans, in order. -/
theorem subscribeEach_subscriptions (hmirrors : Mirrors d config user state chain)
    {subscriptions : List Pubkey}
    (h : subscribeEach d unknownInitId state payers sponsor user tier tokens =
      .ok (instructions, subscriptions)) :
    subscriptions = tokens.map fun token => d.subscriptionOf (d.plan token tier) user := by
  induction tokens generalizing instructions subscriptions with
  | nil =>
    obtain ⟨-, rfl⟩ := Prod.mk.inj (Except.ok.inj h)
    rfl
  | cons paymentToken tokens ih =>
    simp only [subscribeEach, build_bind_eq_ok] at h
    rcases h with ⟨plan, hplan, token, -, built, -, ⟨rest, others⟩, hrest, hsame⟩
    obtain ⟨-, rfl⟩ := Prod.mk.inj (Except.ok.inj hsame)
    rcases hmirrors.planState hplan with ⟨-, -, -, -, hsubscription⟩
    rw [ih hrest, hsubscription]
    rfl

/-- Nothing that is placed before or behind Laterite's instruction is Laterite's. -/
def Foreign (instructions : List Instruction) : Prop :=
  ∀ instruction ∈ instructions, instruction.call = none

theorem Foreign.nil : Foreign [] := by
  intro instruction h
  cases h

theorem Foreign.append {first second : List Instruction} (hfirst : Foreign first)
    (hsecond : Foreign second) : Foreign (first ++ second) := by
  intro instruction h
  rcases List.mem_append.mp h with h | h
  · exact hfirst instruction h
  · exact hsecond instruction h

theorem Foreign.cons {instruction : Instruction} {rest : List Instruction}
    (hfirst : instruction.call = none) (hrest : Foreign rest) : Foreign (instruction :: rest) := by
  intro other h
  rcases List.mem_cons.mp h with rfl | h
  · exact hfirst
  · exact hrest other h

theorem foreign_approveInstructions (sponsor user : Pubkey) (token : TokenState) (account : TokenAccountState) :
    Foreign (approveInstructions sponsor user token account) := by
  unfold approveInstructions
  split
  · exact .nil
  · exact .cons rfl .nil

theorem foreign_closeSubscriptionInstruction {plan : PlanState} {close : Instruction}
    (h : closeSubscriptionInstruction user plan = .ok close) : close.call = none := by
  rcases build_bind_eq_ok.mp h with ⟨held, -, hclose⟩
  rw [← Except.ok.inj hclose]
  rfl

theorem foreign_revokeAuthorityInstruction {token : TokenState} {revoke : Instruction}
    (h : revokeAuthorityInstruction user token = .ok revoke) : revoke.call = none := by
  rcases build_bind_eq_ok.mp h with ⟨held, -, hrevoke⟩
  rw [← Except.ok.inj hrevoke]
  rfl

theorem foreign_subscriptionInstructions {now : ℤ} {plan : PlanState} {token : TokenState}
    (h : subscriptionInstructions d unknownInitId now payers plan sponsor token user =
      .ok instructions) : Foreign instructions := by
  rcases build_bind_eq_ok.mp h with ⟨account, -, h⟩
  have happroves := foreign_approveInstructions sponsor user token account
  have hsubscribes : Foreign (approveInstructions sponsor user token account ++
      [subscribeInstruction d unknownInitId plan sponsor user token]) :=
    happroves.append (.cons rfl .nil)
  dsimp only at h
  split at h
  · cases h
  split at h
  · obtain rfl := Except.ok.inj h
    exact hsubscribes
  split at h
  · rcases build_bind_eq_ok.mp h with ⟨close, hclose, h⟩
    obtain rfl := Except.ok.inj h
    exact .cons (foreign_closeSubscriptionInstruction hclose) hsubscribes
  split at h
  · rcases build_bind_eq_ok.mp h with ⟨payer, -, h⟩
    obtain rfl := Except.ok.inj h
    exact .cons rfl hsubscribes
  split at h
  · obtain rfl := Except.ok.inj h
    exact happroves
  · obtain rfl := Except.ok.inj h
    exact happroves.append (.cons rfl .nil)

theorem foreign_subscribeEach {subscriptions : List Pubkey}
    (h : subscribeEach d unknownInitId state payers sponsor user tier tokens =
      .ok (instructions, subscriptions)) : Foreign instructions := by
  induction tokens generalizing instructions subscriptions with
  | nil =>
    obtain ⟨rfl, -⟩ := Prod.mk.inj (Except.ok.inj h)
    exact .nil
  | cons paymentToken tokens ih =>
    simp only [subscribeEach, build_bind_eq_ok] at h
    rcases h with ⟨plan, -, token, -, built, hbuilt, ⟨rest, others⟩, hrest, hsame⟩
    obtain ⟨rfl, -⟩ := Prod.mk.inj (Except.ok.inj hsame)
    exact (foreign_subscriptionInstructions hbuilt).append (ih hrest)

theorem foreign_assetAccountInstructions {asset : ℕ}
    (h : assetAccountInstructions asset config sponsor state user = .ok instructions) :
    Foreign instructions := by
  rcases build_bind_eq_ok.mp h with ⟨entry, -, h⟩
  split at h
  · obtain rfl := Except.ok.inj h
    exact .nil
  · rcases build_bind_eq_ok.mp h with ⟨listed, -, h⟩
    obtain rfl := Except.ok.inj h
    exact .cons rfl .nil

section

variable {α β : Type} {f : α → Build β}

theorem mem_of_mapM_eq_ok {as : List α} {bs : List β} (h : as.mapM f = .ok bs) {b : β} (hb : b ∈ bs) :
    ∃ a ∈ as, f a = .ok b := by
  induction as generalizing bs with
  | nil =>
    obtain rfl := Except.ok.inj h
    cases hb
  | cons a as ih =>
    rw [List.mapM_cons] at h
    rcases build_bind_eq_ok.mp h with ⟨first, hfirst, h⟩
    rcases build_bind_eq_ok.mp h with ⟨rest, hrest, h⟩
    obtain rfl := Except.ok.inj h
    rcases List.mem_cons.mp hb with rfl | hb
    · exact ⟨a, List.mem_cons_self, hfirst⟩
    · rcases ih hrest hb with ⟨a', ha', hread⟩
      exact ⟨a', List.mem_cons_of_mem _ ha', hread⟩

theorem exists_mapM_eq_ok {as : List α} (h : ∀ a ∈ as, ∃ b, f a = .ok b) :
    ∃ bs, as.mapM f = .ok bs := by
  induction as with
  | nil => exact ⟨[], rfl⟩
  | cons a as ih =>
    rcases h a List.mem_cons_self with ⟨b, hb⟩
    rcases ih fun a' ha' => h a' (List.mem_cons_of_mem _ ha') with ⟨bs, hbs⟩
    refine ⟨b :: bs, ?_⟩
    rw [List.mapM_cons, hb, hbs]
    rfl

end

theorem foreign_closeInstructions {ended : List PlanState}
    (h : closeInstructions user ended = .ok instructions) : Foreign instructions := by
  intro instruction hmem
  rcases mem_of_mapM_eq_ok h hmem with ⟨plan, -, hclose⟩
  exact foreign_closeSubscriptionInstruction hclose

theorem foreign_endedSubscriptionInstructions {ended : List PlanState}
    (h : endedSubscriptionInstructions delegations planMint state user ended = .ok instructions) :
    Foreign instructions := by
  rcases build_bind_eq_ok.mp h with ⟨closes, hcloses, h⟩
  rcases build_bind_eq_ok.mp h with ⟨held, -, h⟩
  rcases build_bind_eq_ok.mp h with ⟨revokes, hrevokes, h⟩
  obtain rfl := Except.ok.inj h
  apply (foreign_closeInstructions hcloses).append
  intro instruction hmem
  rcases mem_of_mapM_eq_ok hrevokes hmem with ⟨token, -, hrevoke⟩
  exact foreign_revokeAuthorityInstruction hrevoke

theorem enabledPaymentTokens_eq (mask : UInt8) :
    enabledPaymentTokens mask.toNat = (List.range paymentTokenCount).filter (enabled mask) := by
  have hbit (token : ℕ) (h : token ∈ [0, 1]) :
      decide (mask.toNat &&& (1 <<< token) ≠ 0) = enabled mask token := by
    have htoken : token < 2 := by
      rcases List.mem_cons.mp h with rfl | h
      · exact two_pos
      · rw [List.mem_singleton.mp h]
        exact one_lt_two
    rw [Bool.eq_iff_iff, decide_eq_true_eq, Ne, enabled_eq htoken, not_not]
  exact List.filter_congr hbit

theorem switchEach_eq (hmirrors : Mirrors d config user state chain) {current : ℕ}
    {listed : List RemainingAccount} {closes : List Instruction}
    (h : switchEach d unknownInitId state payers sponsor user current tier tokens =
      .ok (instructions, listed, closes)) :
    (∃ subscriptions, subscribeEach d unknownInitId state payers sponsor user tier tokens =
      .ok (instructions, subscriptions)) ∧
    listed.map RemainingAccount.address = (tokens.flatMap fun token =>
      [Demand.ended (d.plan token current), .live (d.plan token tier)]).flatMap (d.answer user) ∧
    Foreign closes := by
  induction tokens generalizing instructions listed closes with
  | nil =>
    obtain ⟨rfl, hrest⟩ := Prod.mk.inj (Except.ok.inj h)
    obtain ⟨rfl, rfl⟩ := Prod.mk.inj hrest
    exact ⟨⟨[], rfl⟩, rfl, .nil⟩
  | cons paymentToken tokens ih =>
    simp only [switchEach, build_bind_eq_ok] at h
    rcases h with ⟨held, hheld, next, hnext, token, htoken, built, hbuilt, closed, hclosed,
      ⟨rest, accounts, later⟩, hrest, hsame⟩
    obtain ⟨rfl, hlists⟩ := Prod.mk.inj (Except.ok.inj hsame)
    obtain ⟨rfl, rfl⟩ := Prod.mk.inj hlists
    rcases ih hrest with ⟨⟨subscriptions, hsubscribed⟩, hlisted, hforeign⟩
    rcases hmirrors.planState hheld with ⟨-, -, -, hplan, hsubscription⟩
    rcases hmirrors.planState hnext with ⟨-, -, -, -, hlive⟩
    refine ⟨⟨next.subscription :: subscriptions, ?_⟩, ?_, (foreign_closeInstructions hclosed).append hforeign⟩
    · rw [subscribeEach, hnext, htoken]
      simp only [build_bind_eq_ok]
      exact ⟨next, rfl, token, rfl, built, hbuilt, _, hsubscribed, rfl⟩
    · simp only [List.map_cons, List.flatMap_cons, List.cons_append, List.nil_append, hlisted]
      rw [readonly, writable, readonly, hplan, hsubscription, hlive]
      rfl

theorem changeEach_eq (hmirrors : Mirrors d config user state chain) {mask : ℕ}
    {listed : List RemainingAccount} {dropped : List PlanState}
    (h : changeEach d unknownInitId state payers sponsor user tier mask tokens =
      .ok (instructions, listed, dropped)) :
    (∃ subscriptions, subscribeEach d unknownInitId state payers sponsor user tier
      (tokens.filter fun token => mask &&& (1 <<< token) ≠ 0) = .ok (instructions, subscriptions)) ∧
    listed.map RemainingAccount.address = (tokens.flatMap fun token =>
      if mask &&& (1 <<< token) ≠ 0 then [Demand.live (d.plan token tier)]
      else [.ended (d.plan token tier)]).flatMap (d.answer user) := by
  induction tokens generalizing instructions listed dropped with
  | nil =>
    obtain ⟨rfl, hrest⟩ := Prod.mk.inj (Except.ok.inj h)
    obtain ⟨rfl, rfl⟩ := Prod.mk.inj hrest
    exact ⟨⟨[], rfl⟩, rfl⟩
  | cons paymentToken tokens ih =>
    rw [changeEach] at h
    rcases build_bind_eq_ok.mp h with ⟨plan, hplan, h⟩
    rcases hmirrors.planState hplan with ⟨-, -, -, haddress, hsubscription⟩
    by_cases hadded : mask &&& (1 <<< paymentToken) ≠ 0
    · rw [if_pos hadded] at h
      simp only [build_bind_eq_ok] at h
      rcases h with ⟨token, htoken, built, hbuilt, ⟨rest, accounts, later⟩, hrest, hsame⟩
      obtain ⟨rfl, hlists⟩ := Prod.mk.inj (Except.ok.inj hsame)
      obtain ⟨rfl, rfl⟩ := Prod.mk.inj hlists
      rcases ih hrest with ⟨⟨subscriptions, hsubscribed⟩, hlisted⟩
      refine ⟨⟨plan.subscription :: subscriptions, ?_⟩, ?_⟩
      · have hfilter : (paymentToken :: tokens).filter (fun token => mask &&& (1 <<< token) ≠ 0) =
            paymentToken :: tokens.filter fun token => mask &&& (1 <<< token) ≠ 0 :=
          List.filter_cons_of_pos (by simpa using hadded)
        rw [hfilter, subscribeEach, hplan, htoken]
        simp only [build_bind_eq_ok]
        exact ⟨plan, rfl, token, rfl, built, hbuilt, _, hsubscribed, rfl⟩
      · rw [List.flatMap_cons, if_pos hadded, List.map_cons, hlisted, readonly, hsubscription]
        rfl
    · rw [if_neg hadded] at h
      rcases build_bind_eq_ok.mp h with ⟨⟨rest, accounts, later⟩, hrest, hsame⟩
      obtain ⟨rfl, hlists⟩ := Prod.mk.inj (Except.ok.inj hsame)
      obtain ⟨rfl, rfl⟩ := Prod.mk.inj hlists
      rcases ih hrest with ⟨hsubscribed, hlisted⟩
      constructor
      · rw [List.filter_cons_of_neg (by simpa using hadded)]
        exact hsubscribed
      · rw [List.flatMap_cons, if_neg hadded, List.map_cons, List.map_cons, hlisted, readonly, writable,
          haddress, hsubscription]
        rfl

end Laterite.Client
