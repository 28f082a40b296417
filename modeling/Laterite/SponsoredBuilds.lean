import Laterite.BuiltControls
import Laterite.SponsoredMessages

/-!
# The sponsor accepts what the client builds

The client's onboarding and the gate are two programs in two packages. Whatever the accounts a user
left behind, the gate accepts the message built from them, but for one: a subscription that ended and
was paid for by the sponsor. Closing it names the sponsor to return its rent, so the sponsor signs
an instruction it does not pay for.
-/

namespace Laterite.Sponsor

open CheckedComputation Client ByteCodecs

/-- The onboarding or the return the client builds when no other payer is at hand. -/
def sponsoredInstructions (d : Deployment) (unknownInitId : ℤ) (kind : Kind)
    (config : Laterite.Config) (params : EnrollParams) (sponsor user : Pubkey) (state : UserState) :
    Build SponsoredInstructions :=
  match kind with
  | .enroll => getOnboardingInstructions d unknownInitId config params [] sponsor user state
  | .reactivate => getReactivationInstructions d unknownInitId config params [] sponsor user state

/-- The last instruction, which takes the seat. -/
def joinInstruction (kind : Kind) (params : EnrollParams) (sponsor user : Pubkey)
    (remaining : List RemainingAccount) : Client.Instruction :=
  match kind with
  | .enroll => .enroll params sponsor user remaining
  | .reactivate => .reactivate params sponsor user remaining

def PlansFetched (d : Deployment) (state : UserState) : Prop :=
  ∀ plan ∈ state.plans, plan.paymentToken < paymentTokenCount ∧ plan.tier < tiers.size ∧
    plan.plan = d.plan plan.paymentToken plan.tier

def LeftToSponsor (state : UserState) (sponsor : Pubkey) (tier paymentToken : ℕ) : Prop :=
  ∃ plan subscription, planState state paymentToken tier = .ok plan ∧
    plan.subscriptionState = some subscription ∧ subscription.delegation.expiresAtTs ≠ 0 ∧
    subscription.delegation.expiresAtTs ≤ state.now ∧ subscription.payer = sponsor

/-- The rent an instruction frees goes to `receiver`, who does not pay for it. -/
def ReturnsTo (receiver : Pubkey) : Client.Instruction → Prop
  | .revokeSubscription _ _ other _ => other = receiver
  | _ => False

inductive Joining (d : Deployment) (config : Laterite.Config) (sponsor user : Pubkey) :
    Client.Instruction → Prop
  | create {asset : Asset} (hasset : asset ∈ config.assets) :
    Joining d config sponsor user
      (.createAssociatedTokenIdempotent asset.mint user sponsor asset.tokenProgram)
  | approve (tokenMint tokenProgram account : Pubkey) :
    Joining d config sponsor user
      (.initSubscriptionAuthority user sponsor tokenMint tokenProgram account)
  | subscribe (amount : UInt64) (createdAt : ℤ) (periodHours : UInt64) (initId : ℤ)
    {paymentToken tier : ℕ} (hplan : d.plan paymentToken tier ∈ ShapeContext.plans d)
    (tokenMint : Pubkey) :
    Joining d config sponsor user (.subscribe amount createdAt periodHours initId d.vault sponsor
      (planId paymentToken tier) user tokenMint)
  | resume (expiry : ℤ) {plan : Pubkey} (hplan : plan ∈ ShapeContext.plans d)
    (subscription tokenMint : Pubkey) :
    Joining d config sponsor user (.resumeSubscription expiry plan user subscription tokenMint)
  | close (plan receiver subscription : Pubkey) :
    Joining d config sponsor user (.revokeSubscription user plan receiver subscription)
  | abandon {plan : Pubkey} (hplan : plan ∈ ShapeContext.plans d) (subscription authority : Pubkey) :
    Joining d config sponsor user
      (.revokeAbandonedSubscription sponsor plan subscription authority)

section

variable {d : Deployment} {unknownInitId : ℤ} {config : Laterite.Config} {params : EnrollParams}
  {sponsor user : Pubkey} {state : UserState}

theorem mem_plans {paymentToken tier : ℕ} (htoken : paymentToken < paymentTokenCount)
    (htier : tier < tiers.size) : d.plan paymentToken tier ∈ ShapeContext.plans d := by
  apply List.mem_flatMap.mpr
  refine ⟨paymentToken, ?_, List.mem_map.mpr ⟨tier, ?_, rfl⟩⟩
  · have htwo : paymentToken < 2 := htoken
    simp only [List.mem_cons, List.not_mem_nil, or_false]
    omega
  · have htwo : tier < 2 := htier
    simp only [List.mem_cons, List.not_mem_nil, or_false]
    omega

theorem PlansFetched.mem {plan : PlanState} (hfetched : PlansFetched d state)
    (hplan : plan ∈ state.plans) : plan.plan ∈ ShapeContext.plans d := by
  rcases hfetched plan hplan with ⟨htoken, htier, heq⟩
  rw [heq]
  exact mem_plans htoken htier

theorem mem_of_planState {plan : PlanState} {paymentToken tier : ℕ}
    (h : planState state paymentToken tier = .ok plan) : plan ∈ state.plans :=
  List.mem_of_find?_eq_some (found_eq_ok.mp h)

/-- Each of the instructions may come before the last, and one returns rent to the sponsor exactly when
`left`. -/
def Built (d : Deployment) (config : Laterite.Config) (sponsor user : Pubkey) (left : Prop)
    (instructions : List Client.Instruction) : Prop :=
  (∀ built ∈ instructions, Joining d config sponsor user built) ∧
    ((∃ built ∈ instructions, ReturnsTo sponsor built) ↔ left)

theorem Built.nil : Built d config sponsor user False [] := by
  simp [Built]

theorem Built.append {left right : Prop} {instructions others : List Client.Instruction}
    (h : Built d config sponsor user left instructions)
    (hothers : Built d config sponsor user right others) :
    Built d config sponsor user (left ∨ right) (instructions ++ others) := by
  constructor
  · intro built hbuilt
    rcases List.mem_append.mp hbuilt with hbuilt | hbuilt
    · exact h.1 built hbuilt
    · exact hothers.1 built hbuilt
  · simp only [List.mem_append, or_and_right, exists_or, h.2, hothers.2]

theorem Built.one {built : Client.Instruction} (h : Joining d config sponsor user built) :
    Built d config sponsor user (ReturnsTo sponsor built) [built] := by
  constructor
  · intro other hother
    rw [List.mem_singleton.mp hother]
    exact h
  · simp

theorem Built.congr {left right : Prop} {instructions : List Client.Instruction}
    (h : Built d config sponsor user left instructions) (hiff : left ↔ right) :
    Built d config sponsor user right instructions :=
  ⟨h.1, h.2.trans hiff⟩

theorem built_approveInstructions (token : TokenState) (account : TokenAccountState) :
    Built d config sponsor user False (approveInstructions sponsor user token account) := by
  unfold approveInstructions
  split
  · exact Built.nil
  · exact Built.one (.approve ..)

theorem built_subscriptionInstructions (hfetched : PlansFetched d state) {plan : PlanState}
    (hplan : plan ∈ state.plans) {token : TokenState} {instructions : List Client.Instruction}
    (h : subscriptionInstructions d unknownInitId state.now [] plan sponsor token user =
      .ok instructions) :
    Built d config sponsor user (∃ subscription, plan.subscriptionState = some subscription ∧
      subscription.delegation.expiresAtTs ≠ 0 ∧ subscription.delegation.expiresAtTs ≤ state.now ∧
      subscription.payer = sponsor) instructions := by
  have hsubscribe : Built d config sponsor user False
      [subscribeInstruction d unknownInitId plan sponsor user token] :=
    Built.one (.subscribe _ _ _ _
      (mem_plans (hfetched plan hplan).1 (hfetched plan hplan).2.1) _)
  unfold subscriptionInstructions at h
  simp only [build_bind_eq_ok] at h
  rcases h with ⟨account, -, h⟩
  have happrove : Built d config sponsor user False (approveInstructions sponsor user token account) :=
    built_approveInstructions token account
  split at h
  · cases h
  cases hsubscription : plan.subscriptionState with
  | none =>
    simp only [hsubscription] at h
    obtain rfl := Except.ok.inj h
    exact (happrove.append hsubscribe).congr (by simp)
  | some subscription =>
    simp only [hsubscription] at h
    split at h
    · -- the user closes what ended, and its rent returns to the payer it recorded
      rename_i hexpired
      simp only [closeSubscriptionInstruction, hsubscription, found_eq_ok, build_bind_eq_ok] at h
      rcases h with ⟨close, ⟨_, ⟨rfl⟩, ⟨rfl⟩⟩, h⟩
      obtain rfl := Except.ok.inj h
      refine ((Built.one (.close ..)).append (happrove.append hsubscribe)).congr ?_
      simp [ReturnsTo, hexpired]
    · rename_i hrunning
      have hnot : ¬∃ other, some subscription = some other ∧ other.delegation.expiresAtTs ≠ 0 ∧
          other.delegation.expiresAtTs ≤ state.now ∧ other.payer = sponsor := by
        rintro ⟨_, ⟨rfl⟩, hne, hle, -⟩
        exact hrunning ⟨hne, hle⟩
      split at h
      · simp only [build_bind_eq_ok, found_eq_ok] at h
        rcases h with ⟨payer, hpayer, h⟩
        obtain rfl := Except.ok.inj h
        have hsponsor : payer = sponsor := List.mem_singleton.mp (List.mem_of_find?_eq_some hpayer)
        rw [hsponsor]
        refine ((Built.one (.abandon (hfetched.mem hplan) _ _)).append
          (happrove.append hsubscribe)).congr ?_
        simpa [ReturnsTo] using hnot
      · split at h
        · obtain rfl := Except.ok.inj h
          exact happrove.congr (by simpa using hnot)
        · obtain rfl := Except.ok.inj h
          refine (happrove.append (Built.one (.resume _ (hfetched.mem hplan) _ _))).congr ?_
          simpa [ReturnsTo] using hnot

theorem built_subscribeEach (hfetched : PlansFetched d state) {tier : ℕ} {tokens : List ℕ}
    {instructions : List Client.Instruction} {subscriptions : List Pubkey}
    (h : subscribeEach d unknownInitId state [] sponsor user tier tokens =
      .ok (instructions, subscriptions)) :
    Built d config sponsor user
      (∃ paymentToken ∈ tokens, LeftToSponsor state sponsor tier paymentToken) instructions := by
  induction tokens generalizing instructions subscriptions with
  | nil =>
    obtain ⟨rfl, -⟩ := Prod.mk.inj (Except.ok.inj h)
    exact Built.nil.congr (by simp)
  | cons paymentToken tokens ih =>
    simp only [subscribeEach, build_bind_eq_ok] at h
    rcases h with ⟨plan, hplan, token, -, first, hfirst, ⟨rest, others⟩, hrest, h⟩
    obtain ⟨rfl, -⟩ := Prod.mk.inj (Except.ok.inj h)
    refine ((built_subscriptionInstructions hfetched (mem_of_planState hplan) hfirst).append
      (ih hrest)).congr ?_
    simp only [List.mem_cons, exists_eq_or_imp, LeftToSponsor, hplan, Except.ok.injEq,
      exists_and_left, exists_eq_left']

section

variable {kit : Kit} {builders : Builders} {message : List Instruction} {kind : Kind}
  {tables : LookupTables} {built : Client.Instruction}

theorem Joining.instructionOf_eq (hjoining : Joining d config sponsor user built) :
    instructionOf d builders built = builders.build built ∧
      others d builders built = builders.others built := by
  cases hjoining <;> exact ⟨rfl, rfl⟩

theorem Joining.signers (hjoining : Joining d config sponsor user built) :
    ∀ key ∈ signers built, key = sponsor ∨ key = user := by
  cases hjoining <;> simp [Sponsor.signers, wallets, or_comm]

/-- What may come before the last instruction names this user, an asset of the table and Laterite's
plans, and is charged to the sponsor unless its rent returns to the sponsor. -/
theorem Joining.part (hbuilders : builders.Documented d kit) (hwallets : sponsor ≠ user)
    (hothers : sponsor ∉ builders.others built) (hjoining : Joining d config sponsor user built)
    {instruction : Instruction} (hcarries : Carries (builders.build built) instruction) :
    ∃ part, Earlier d built part ∧
      part.Names (config.assets.toList.map Asset.mint) (ShapeContext.plans d) d.vault user ∧
      (part.Charged sponsor ((builders.build built).addresses.count sponsor) instruction ↔
        ¬ReturnsTo sponsor built) := by
  have hzero {part : Part} (hpart : Earlier d built part) :
      (builders.build built).addresses.count sponsor = 0 ↔ sponsor ∉ wallets built :=
    List.count_eq_zero.trans (not_congr (hbuilders.lists hpart hothers))
  have hone {part : Part} (hpart : Earlier d built part) (hnodup : (wallets built).Nodup)
      (hmem : sponsor ∈ wallets built) : (builders.build built).addresses.count sponsor = 1 := by
    have hle := hbuilders.once hpart hnodup hothers
    have hpos := List.count_pos_iff.mpr ((hbuilders.lists hpart hothers).mpr hmem)
    omega
  have hlast {payer : Pubkey} (h : (builders.build built).addresses.getLast? = some payer) :
      instruction.accounts.getLast?.map AccountMeta.address = some payer := by
    rw [← List.getLast?_map]
    exact (congrArg List.getLast? hcarries.addresses).trans h
  cases hjoining with
  | create hasset =>
    refine ⟨.createAssociatedTokenIdempotent ⟨sponsor, user, _⟩, ⟨rfl, rfl⟩,
      ⟨rfl, List.mem_map_of_mem (Vector.mem_toList_iff.mpr hasset)⟩, iff_of_true ⟨rfl, ?_⟩ id⟩
    exact hone ⟨rfl, rfl⟩ (by simp [wallets, hwallets]) (by simp [wallets])
  | approve tokenMint tokenProgram account =>
    refine ⟨.initSubscriptionAuthority ⟨user⟩, ⟨rfl, rfl⟩, rfl,
      iff_of_true ⟨hlast (hbuilders.initPayer hwallets ..), ?_⟩ id⟩
    exact hone ⟨rfl, rfl⟩ (by simp [wallets, hwallets.symm]) (by simp [wallets])
  | subscribe amount createdAt periodHours initId hplan tokenMint =>
    refine ⟨.subscribe ⟨user, d.vault, _⟩, ⟨rfl, rfl⟩, ⟨rfl, rfl, hplan⟩,
      iff_of_true ⟨hlast (hbuilders.subscribePayer hwallets ..), ?_⟩ id⟩
    exact hone ⟨rfl, rfl⟩ (by simp [wallets, hwallets.symm]) (by simp [wallets])
  | resume expiry hplan subscription tokenMint =>
    refine ⟨.resumeSubscription ⟨user, _⟩, ⟨rfl, rfl⟩, ⟨rfl, hplan⟩,
      iff_of_true ((hzero ⟨rfl, rfl⟩).mpr ?_) id⟩
    simpa [wallets] using hwallets
  | close plan receiver subscription =>
    refine ⟨.revokeDelegation ⟨user, subscription⟩, ⟨rfl, rfl⟩, rfl, (hzero ⟨rfl, rfl⟩).trans ?_⟩
    simp [wallets, ReturnsTo, hwallets, eq_comm]
  | abandon hplan subscription authority =>
    refine ⟨.revokeAbandonedSubscription ⟨sponsor, _, subscription⟩, ⟨rfl, rfl⟩, hplan,
      iff_of_true ⟨rfl, hone ⟨rfl, rfl⟩ ?_ ?_⟩ id⟩
    · exact List.nodup_singleton _
    · exact List.mem_singleton_self _

/-- The gate lets through what comes before the last instruction unless its rent returns to the
sponsor. -/
theorem Joining.passes (hbuilders : builders.Documented d kit) (hwallets : sponsor ≠ user)
    (hjoining : Joining d config sponsor user built) (hothers : sponsor ∉ others d builders built)
    (body : List Instruction) {index : ℕ} (hindex : index ≠ body.length - 1) :
    (∃ part, kit.part d ((instructionOf d builders built).merge sponsor message) = some part ∧
        part.Passes (ShapeContext.shape d ⟨config, kind, tables, sponsor, user⟩ body
          ((instructionOf d builders built).merge sponsor message) index)
          ((instructionOf d builders built).merge sponsor message)) ↔
      ¬ReturnsTo sponsor built := by
  rw [hjoining.instructionOf_eq.1]
  rw [hjoining.instructionOf_eq.2] at hothers
  have hcarries := carries_merge sponsor message (builders.build built)
  rcases hjoining.part hbuilders hwallets hothers hcarries with ⟨part, hpart, hnames, hcharged⟩
  rw [← sponsorSigns_merge sponsor message] at hcharged
  rw [hbuilders.reads hpart hcarries]
  constructor
  · rintro ⟨_, ⟨rfl⟩, hpasses⟩
    exact hcharged.mp hpasses.charged
  · intro hreturns
    exact ⟨part, rfl, hnames, .inr ⟨hpart.2, hindex⟩, hcharged.mpr hreturns⟩

theorem read_params (kind : LateriteInstruction) (params : EnrollParams) :
    enrollParamsCodec.read ((instructionDiscriminator kind ++ enrollParamsCodec.encode params).drop 8) =
      some params := by
  have hlength : (instructionDiscriminator kind).length = 8 := by cases kind <;> rfl
  rw [List.drop_left' hlength]
  simpa using enrollParamsCodec.read_encode_append params []

theorem passes_joinInstruction
    (hseparate : d.id ≠ kit.associatedTokenProgram ∧ d.id ≠ d.subscriptionsId)
    (hwallets : sponsor ≠ user) (remaining : List RemainingAccount)
    (hothers : sponsor ∉ others d builders (joinInstruction kind params sponsor user remaining))
    (body : List Instruction) :
    let instruction := (instructionOf d builders
      (joinInstruction kind params sponsor user remaining)).merge sponsor message
    ∃ part, kit.part d instruction = some part ∧
      part.Passes (ShapeContext.shape d ⟨config, kind, tables, sponsor, user⟩ body instruction
        (body.length - 1)) instruction := by
  intro instruction
  have hsigns : sponsorSigns sponsor instruction = 1 := by
    have hcount : (instructionOf d builders
        (joinInstruction kind params sponsor user remaining)).addresses.count sponsor = 1 := by
      cases kind
      all_goals
        have hrest := List.count_eq_zero.mpr hothers
        simp only [joinInstruction, instructionOf, withRemainingAccounts, getEnrollInstructionAsync,
          getReactivateInstructionAsync, Instruction.addresses, others, List.map_cons,
          List.cons_append, List.nil_append, List.map_map] at hrest ⊢
        rw [List.count_cons_of_ne hwallets.symm, List.count_cons_self]
        exact congrArg (· + 1) hrest
    rw [← hcount]
    exact sponsorSigns_merge sponsor message _
  have hpart : kit.part d instruction = lateritePart instruction := by
    have hprogram : instruction.programAddress = d.id := by cases kind <;> rfl
    unfold Kit.part
    rw [hprogram, if_neg hseparate.1, if_neg hseparate.2, if_pos rfl]
  rw [hpart]
  cases kind with
  | enroll =>
    have hidentified : identifyLateriteInstruction instruction.data = some .enroll :=
      identifyLateriteInstruction_append _ _
    have hparsed : parseEnrollInstruction instruction = some ⟨user, sponsor⟩ :=
      congrArg (Option.map _) (read_params .enroll params)
    refine ⟨.enroll ⟨user, sponsor⟩, ?_, rfl, .inl ⟨rfl, rfl⟩, rfl, hsigns⟩
    simp only [lateritePart, hidentified, hparsed, Option.map_some]
  | reactivate =>
    have hidentified : identifyLateriteInstruction instruction.data = some .reactivate :=
      identifyLateriteInstruction_append _ _
    have hparsed : parseReactivateInstruction instruction = some ⟨user, sponsor⟩ :=
      congrArg (Option.map _) (read_params .reactivate params)
    refine ⟨.reactivate ⟨user, sponsor⟩, ?_, rfl, .inl ⟨rfl, rfl⟩, rfl, hsigns⟩
    simp only [lateritePart, hidentified, hparsed, Option.map_some]

theorem mem_signs {key : Pubkey} : key ∈ addressesWith sponsor message AccountRole.signs ↔
    key = sponsor ∨ ∃ instruction ∈ message, ∃ account ∈ instruction.accounts,
      account.role.signs ∧ account.address = key := by
  simp only [addressesWith, List.mem_dedup, List.mem_cons, List.mem_map, List.mem_filter,
    List.mem_flatMap, and_assoc]
  constructor
  · rintro (hkey | ⟨account, ⟨instruction, hinstruction, haccount⟩, hsigns, rfl⟩)
    · exact .inl hkey
    · exact .inr ⟨instruction, hinstruction, account, haccount, hsigns, rfl⟩
  · rintro (hkey | ⟨instruction, hinstruction, account, haccount, hsigns, rfl⟩)
    · exact .inl hkey
    · exact .inr ⟨account, ⟨instruction, hinstruction, haccount⟩, hsigns, rfl⟩

theorem joinInstruction_signs {remaining : List RemainingAccount} {account : AccountMeta}
    (haccount : account ∈
      (instructionOf d builders (joinInstruction kind params sponsor user remaining)).accounts)
    (hsigns : account.role.signs) : account.address = sponsor ∨ account.address = user := by
  have hremaining {other : RemainingAccount} (h : RemainingAccount.toMeta other = account) : False := by
    rw [← h] at hsigns
    unfold RemainingAccount.toMeta at hsigns
    split at hsigns <;> cases hsigns
  cases kind
  all_goals
    simp only [joinInstruction, instructionOf, withRemainingAccounts, getEnrollInstructionAsync,
      getReactivateInstructionAsync, List.cons_append, List.nil_append, List.mem_cons, List.mem_map]
      at haccount
    rcases haccount with rfl | rfl | rfl | rfl | haccount
    · exact .inr rfl
    · exact .inl rfl
    · cases hsigns
    · cases hsigns
  · rcases haccount with rfl | ⟨other, -, hother⟩
    · cases hsigns
    · exact (hremaining hother).elim
  · rcases haccount with ⟨other, -, hother⟩
    exact (hremaining hother).elim

theorem signers_perm (hbuilders : builders.Documented d kit) (hwallets : sponsor ≠ user)
    {joined : List Client.Instruction} (hjoined : ∀ built ∈ joined, Joining d config sponsor user built)
    (hothers : ∀ built ∈ joined, sponsor ∉ others d builders built) (remaining : List RemainingAccount)
    (computeBudget : Pubkey) (units microLamports : ℕ) :
    (addressesWith sponsor (createSponsoredTransactionMessage computeBudget units microLamports
      ((joined ++ [joinInstruction kind params sponsor user remaining]).map
        (instructionOf d builders))) AccountRole.signs).Perm [sponsor, user] := by
  apply (List.perm_ext_iff_of_nodup (List.nodup_dedup _) (by simpa using hwallets)).mpr
  intro key
  change key ∈ addressesWith sponsor _ AccountRole.signs ↔ _
  rw [mem_signs]
  simp only [createSponsoredTransactionMessage, List.mem_cons, List.mem_map, List.mem_append,
    List.not_mem_nil, or_false]
  have hnamed (built : Client.Instruction) (hbuilt : built ∈ joined) :
      sponsor ∉ builders.others built := by
    have hother := hothers built hbuilt
    rwa [(hjoined built hbuilt).instructionOf_eq.2] at hother
  constructor
  · rintro (hkey | ⟨instruction, hinstruction, account, haccount, hsigns, rfl⟩)
    · exact .inl hkey
    rcases hinstruction with rfl | rfl | ⟨built, hbuilt | rfl, rfl⟩
    · cases haccount
    · cases haccount
    · rw [(hjoined built hbuilt).instructionOf_eq.1] at haccount
      have hkeys := (hjoined built hbuilt).signers
      rcases (hjoined built hbuilt).part hbuilders hwallets
        (hnamed built hbuilt)
        ⟨rfl, rfl, rfl⟩ with ⟨part, hpart, -, -⟩
      exact hkeys _ (hbuilders.signs hpart haccount hsigns)
    · exact joinInstruction_signs haccount hsigns
  · rintro (hkey | rfl)
    · exact .inl hkey
    · refine .inr ⟨_, .inr (.inr ⟨_, .inr rfl, rfl⟩), ⟨key, .readonlySigner⟩, ?_, rfl, rfl⟩
      cases kind <;> exact List.mem_cons_self

theorem budgetNumber_bytes {size number : ℕ} (h : number < 256 ^ size) (tag : UInt8)
    (program : Pubkey) :
    budgetNumber size ⟨[], tag :: LittleEndian.bytes size number, program⟩ = some number := by
  have hread := (Codec.number size).read_encode_append ⟨number, h⟩ []
  rw [List.append_nil] at hread
  exact congrArg (Option.map Fin.val) hread

theorem part_computeBudget (hkit : kit.Documented d) {instruction : Instruction}
    (h : instruction.programAddress = kit.computeBudget) : kit.part d instruction = none := by
  have hseparate := hkit.separate
  simp only [List.mem_cons, List.not_mem_nil, or_false, not_or] at hseparate
  unfold Kit.part
  rw [h, if_neg hseparate.1, if_neg hseparate.2.1, if_neg hseparate.2.2]

theorem not_computeBudget (hkit : kit.Documented d) {instructions : List Instruction}
    (hparts : ∀ instruction ∈ instructions.map (Instruction.merge sponsor message),
      (kit.part d instruction).isSome) :
    ∀ instruction ∈ instructions, instruction.programAddress ≠ kit.computeBudget := by
  intro instruction hmem hprogram
  have hpart := hparts _ (List.mem_map_of_mem hmem)
  have hmerged : (instruction.merge sponsor message).programAddress = kit.computeBudget := hprogram
  rw [part_computeBudget hkit hmerged] at hpart
  cases hpart

theorem budgeted_merged {units microLamports : ℕ} (hunits : units ≤ sponsorMaxUnits)
    (hprice : microLamports ≤ priorityFeeCeiling) {instructions : List Instruction}
    (honce : ∀ instruction ∈ instructions, instruction.programAddress ≠ kit.computeBudget) :
    Budgeted kit (merged sponsor
      (createSponsoredTransactionMessage kit.computeBudget units microLamports instructions)) where
  limit := ⟨_, rfl, ⟨rfl, rfl⟩, units,
    budgetNumber_bytes (lt_of_le_of_lt hunits (by decide)) 2 _, hunits⟩
  price := ⟨_, rfl, ⟨rfl, rfl⟩, microLamports,
    budgetNumber_bytes (lt_of_le_of_lt hprice (by decide)) 3 _, hprice⟩
  once := by
    intro instruction hmem
    rcases List.mem_map.mp (show instruction ∈ instructions.map _ from hmem) with ⟨built, hbuilt, rfl⟩
    exact honce built hbuilt

theorem built_assetAccountInstructions {asset : ℕ} {instructions : List Client.Instruction}
    (h : assetAccountInstructions asset config sponsor state user = .ok instructions) :
    Built d config sponsor user False instructions := by
  simp only [assetAccountInstructions, build_bind_eq_ok] at h
  rcases h with ⟨entry, -, h⟩
  split at h
  · obtain rfl := Except.ok.inj h
    exact Built.nil
  · simp only [build_bind_eq_ok, found_eq_ok] at h
    rcases h with ⟨asset, hasset, h⟩
    obtain rfl := Except.ok.inj h
    exact Built.one (.create (Vector.mem_of_getElem? hasset))

theorem built_joinInstructions (hfetched : PlansFetched d state) {joined : SponsoredInstructions}
    {remaining : List RemainingAccount}
    (h : joinInstructions d unknownInitId config params [] sponsor user state =
      .ok (joined, remaining)) :
    Built d config sponsor user (∃ paymentToken ∈ enabledPaymentTokens params.paymentTokens.toNat,
      LeftToSponsor state sponsor params.tier.toNat paymentToken) joined.instructions := by
  simp only [joinInstructions, build_bind_eq_ok] at h
  rcases h with ⟨opening, hopening, ⟨instructions, subscriptions⟩, hsubscribed, h⟩
  obtain ⟨rfl, -⟩ := Prod.mk.inj (Except.ok.inj h)
  exact ((built_assetAccountInstructions hopening).append
    (built_subscribeEach hfetched hsubscribed)).congr (by rw [false_or])

/-- What is built takes the seat last. -/
theorem exists_joined (hfetched : PlansFetched d state) {built : SponsoredInstructions}
    (h : sponsoredInstructions d unknownInitId kind config params sponsor user state = .ok built) :
    ∃ joined remaining,
      built.instructions = joined ++ [joinInstruction kind params sponsor user remaining] ∧
      Built d config sponsor user (∃ paymentToken ∈ enabledPaymentTokens params.paymentTokens.toNat,
        LeftToSponsor state sponsor params.tier.toNat paymentToken) joined := by
  cases kind with
  | enroll =>
    simp only [sponsoredInstructions, getOnboardingInstructions, build_bind_eq_ok] at h
    rcases h with ⟨_, -, h⟩
    split at h
    · cases h
    · simp only [build_bind_eq_ok] at h
      rcases h with ⟨⟨joined, remaining⟩, hjoined, h⟩
      obtain rfl := Except.ok.inj h
      exact ⟨joined.instructions, remaining, rfl, built_joinInstructions hfetched hjoined⟩
  | reactivate =>
    simp only [sponsoredInstructions, getReactivationInstructions, build_bind_eq_ok] at h
    rcases h with ⟨_, -, _, -, ⟨joined, remaining⟩, hjoined, h⟩
    obtain rfl := Except.ok.inj h
    exact ⟨joined.instructions, remaining, rfl, built_joinInstructions hfetched hjoined⟩

/-- The gate lets every instruction through unless one returns rent to the sponsor. -/
theorem body_passes (message : List Instruction) (tables : LookupTables)
    (hbuilders : builders.Documented d kit)
    (hseparate : d.id ≠ kit.associatedTokenProgram ∧ d.id ≠ d.subscriptionsId)
    (hwallets : sponsor ≠ user) {joined : List Client.Instruction}
    (hjoined : ∀ built ∈ joined, Joining d config sponsor user built) {remaining : List RemainingAccount}
    (hothers : ∀ built ∈ joined ++ [joinInstruction kind params sponsor user remaining],
      sponsor ∉ others d builders built) {body : List Instruction}
    (hbody : body = ((joined ++ [joinInstruction kind params sponsor user remaining]).map
      (instructionOf d builders)).map (Instruction.merge sponsor message)) :
    (∀ index instruction, body[index]? = some instruction →
      ∃ part, kit.part d instruction = some part ∧
        part.Passes (ShapeContext.shape d ⟨config, kind, tables, sponsor, user⟩ body instruction index)
          instruction) ↔
      ∀ built ∈ joined, ¬ReturnsTo sponsor built := by
  have hlength : body.length = joined.length + 1 := by simp [hbody]
  have hget (index : ℕ) : body[index]? =
      ((joined ++ [joinInstruction kind params sponsor user remaining])[index]?).map
        fun built => (instructionOf d builders built).merge sponsor message := by
    rw [hbody, List.map_map, List.getElem?_map]
    rfl
  constructor
  · intro hparts built hbuilt
    rcases List.mem_iff_getElem?.mp hbuilt with ⟨index, hindex⟩
    have hlt := (List.getElem?_eq_some_iff.mp hindex).1
    have hpart := hparts index _ (by rw [hget, List.getElem?_append_left hlt, hindex]; rfl)
    exact ((hjoined built hbuilt).passes hbuilders hwallets
      (hothers built (List.mem_append_left _ hbuilt)) body (by omega)).mp hpart
  · intro hnone index instruction hindex
    rw [hget] at hindex
    rcases Option.map_eq_some_iff.mp hindex with ⟨built, hbuilt, rfl⟩
    rcases lt_or_ge index joined.length with hlt | hle
    · rw [List.getElem?_append_left hlt] at hbuilt
      have hmem := List.mem_of_getElem? hbuilt
      exact ((hjoined built hmem).passes hbuilders hwallets
        (hothers built (List.mem_append_left _ hmem)) body (by omega)).mpr (hnone built hmem)
    · rw [List.getElem?_append_right hle] at hbuilt
      have hlast := List.mem_singleton.mp (List.mem_of_getElem? hbuilt)
      have hzero := (List.getElem?_eq_some_iff.mp hbuilt).1
      rw [List.length_singleton] at hzero
      obtain rfl : index = body.length - 1 := by omega
      rw [hlast]
      exact passes_joinInstruction hseparate hwallets remaining
        (hothers _ (List.mem_append_right _ (List.mem_singleton_self _))) body

theorem second_signer {accounts : List Pubkey} (hfirst : accounts[0]? = some sponsor)
    (h : (accounts.take 2).Perm [sponsor, user]) : accounts[1]? = some user := by
  rcases accounts with _ | ⟨first, _ | ⟨second, rest⟩⟩
  · cases hfirst
  · cases h.length_eq
  · obtain rfl := Option.some.inj hfirst
    rw [← List.singleton_perm_singleton.mp h.cons_inv]
    rfl

theorem shapeProblem_compiled (hkit : kit.Documented d) {instructions : List Instruction}
    (hne : instructions ≠ []) {units microLamports : ℕ} (hunits : units ≤ sponsorMaxUnits)
    (hprice : microLamports ≤ priorityFeeCeiling)
    (hmessage : message = createSponsoredTransactionMessage kit.computeBudget units microLamports
      instructions) {transaction : Transaction} {compiled : CompiledMessage}
    (hcompiles : Compiles kit tables sponsor message transaction compiled)
    (hperm : (addressesWith sponsor message AccountRole.signs).Perm [sponsor, user]) {body : List Instruction}
    (hbody : body = instructions.map (Instruction.merge sponsor message)) :
    shapeProblem d kit transaction ⟨config, kind, tables, sponsor, user⟩ = .ok () ↔
      ∀ index instruction, body[index]? = some instruction →
        ∃ part, kit.part d instruction = some part ∧
          part.Passes (ShapeContext.shape d ⟨config, kind, tables, sponsor, user⟩ body instruction
            index) instruction := by
  have hheader : compiled.header.numSignerAccounts = 2 := hcompiles.header.trans hperm.length_eq
  have hstatic := hcompiles.static.trans hperm
  rw [hheader] at hstatic
  have hsignatures := hcompiles.signatures.trans hperm
  have hdrop : (merged sponsor message).drop 2 = body := by
    rw [hbody, hmessage]
    rfl
  rw [shapeProblem_eq_ok, ← hdrop]
  constructor
  · rintro ⟨other, hother, -, -, -, -, -, -, read, hread, hproblem⟩
    obtain rfl := Option.some.inj (hcompiles.decodes.symm.trans hother)
    obtain rfl := Option.some.inj (hcompiles.decompiles.symm.trans hread)
    exact ((messageProblem_eq_ok hkit).mp hproblem).2.2
  · intro hparts
    have hread : ∀ instruction ∈ instructions.map (Instruction.merge sponsor message),
        (kit.part d instruction).isSome := by
      intro instruction hmem
      rw [← hbody, ← hdrop] at hmem
      rcases List.mem_iff_getElem?.mp hmem with ⟨index, hindex⟩
      rcases hparts index instruction hindex with ⟨part, hpart, -⟩
      rw [hpart]
      rfl
    have hbudgeted : Budgeted kit (merged sponsor message) := by
      rw [hmessage]
      exact budgeted_merged hunits hprice (not_computeBudget hkit hread)
    have hsome : (merged sponsor message).drop 2 ≠ [] := by
      rw [hdrop, hbody]
      simpa using hne
    exact ⟨compiled, hcompiles.decodes, hcompiles.version, hcompiles.lookups, hheader,
      hcompiles.payer, second_signer hcompiles.payer hstatic,
      ⟨hsignatures.length_eq, hsignatures.mem_iff.mpr (by simp), hsignatures.mem_iff.mpr (by simp)⟩,
      _, hcompiles.decompiles, (messageProblem_eq_ok hkit).mpr ⟨hbudgeted, hsome, hparts⟩⟩

/-- The gate accepts the message of what the client built, whatever the user's accounts, exactly when
no token's ended subscription was paid for by the sponsor. -/
theorem gate_accepts_builds (hkit : kit.Documented d) (hbuilders : builders.Documented d kit)
    (hseparate : d.id ≠ kit.associatedTokenProgram ∧ d.id ≠ d.subscriptionsId)
    (hfetched : PlansFetched d state) (hwallets : sponsor ≠ user) {built : SponsoredInstructions}
    (hbuilt : sponsoredInstructions d unknownInitId kind config params sponsor user state = .ok built)
    (hothers : ∀ instruction ∈ built.instructions, sponsor ∉ others d builders instruction)
    {units microLamports : ℕ} (hunits : units ≤ sponsorMaxUnits)
    (hprice : microLamports ≤ priorityFeeCeiling) {transaction : Transaction}
    {compiled : CompiledMessage}
    (hcompiles : Compiles kit tables sponsor (createSponsoredTransactionMessage kit.computeBudget units
      microLamports (built.instructions.map (instructionOf d builders))) transaction compiled) :
    shapeProblem d kit transaction ⟨config, kind, tables, sponsor, user⟩ = .ok () ↔
      ∀ paymentToken ∈ enabledPaymentTokens params.paymentTokens.toNat,
        ¬LeftToSponsor state sponsor params.tier.toNat paymentToken := by
  rcases exists_joined hfetched hbuilt with ⟨joined, remaining, heq, hjoined, hleft⟩
  rw [heq] at hothers hcompiles
  refine (shapeProblem_compiled hkit (by simp) hunits hprice rfl hcompiles
    (signers_perm hbuilders hwallets hjoined
      (fun built hmem => hothers built (List.mem_append_left _ hmem)) remaining ..) rfl).trans
    ((body_passes _ tables hbuilders hseparate hwallets hjoined hothers rfl).trans ?_)
  constructor
  · intro hnone paymentToken htoken hreturned
    rcases hleft.mpr ⟨paymentToken, htoken, hreturned⟩ with ⟨closing, hclosing, hreturns⟩
    exact hnone closing hclosing hreturns
  · intro hnone closing hclosing hreturns
    rcases hleft.mp ⟨closing, hclosing, hreturns⟩ with ⟨paymentToken, htoken, hreturned⟩
    exact hnone paymentToken htoken hreturned

end

end

namespace Rehearsal

open Laterite.Rehearsal (address deployment sponsor user settings)

def pdaOf (owner mint : Pubkey) : Pubkey := (deployment.findPda mint owner).1

def unsubscribed (paymentToken tier : ℕ) : PlanState where
  paymentToken := paymentToken
  plan := deployment.plan paymentToken tier
  planState := ⟨10000000, 0, 168, 0⟩
  subscription := pdaOf user (deployment.plan paymentToken tier)
  subscriptionState := none
  tier := tier

def left (payer : Pubkey) : RecordedSubscription := ⟨9, payer, ⟨255, 10000000, 168, 0, 0, 1700000000⟩⟩

/-- A user who left: they have the first payment token and the asset's account, revoked their
authority, and a subscription that ended is still there. -/
def returning (payer : Pubkey) : UserState where
  assets := [⟨pdaOf user (address 20), true⟩, ⟨pdaOf user (address 21), false⟩]
  now := 1700000100
  plans := [{ unsubscribed 0 0 with subscriptionState := some (left payer) }, unsubscribed 0 1,
    unsubscribed 1 0, unsubscribed 1 1]
  tokens := [⟨address 60, some ⟨100000000, none, 0, false⟩, pdaOf user (address 22), none, address 22,
      0, address 204⟩,
    ⟨address 64, none, pdaOf user (address 23), none, address 23, 1, address 204⟩]
  userConfig := some { Laterite.UserConfig.enrolled user 255 settings 1600000000 with status := .exited }
  userConfigAddress := userConfigAddress deployment user

/-- Each instruction's data is its tag. -/
def builders : Builders where
  build
    | .createAssociatedTokenIdempotent mint owner payer tokenProgram =>
      ⟨[⟨payer, .writableSigner⟩, ⟨pdaOf owner mint, .writable⟩, ⟨owner, .readonly⟩, ⟨mint, .readonly⟩,
        ⟨Pubkey.default, .readonly⟩, ⟨tokenProgram, .readonly⟩], [1], address 93⟩
    | .initSubscriptionAuthority owner payer tokenMint tokenProgram userAta =>
      ⟨[⟨owner, .readonlySigner⟩, ⟨pdaOf owner tokenMint, .writable⟩, ⟨tokenMint, .readonly⟩,
        ⟨userAta, .writable⟩, ⟨Pubkey.default, .readonly⟩, ⟨tokenProgram, .readonly⟩,
        ⟨payer, .writableSigner⟩], [0], deployment.subscriptionsId⟩
    | .subscribe _ _ _ _ merchant payer planId subscriber tokenMint =>
      let plan := (deployment.deriveProgramAddress
        [deployment.planPrefix, merchant.toList, LittleEndian.bytes 8 planId]
        deployment.subscriptionsId).1
      ⟨[⟨subscriber, .readonlySigner⟩, ⟨merchant, .readonly⟩, ⟨plan, .readonly⟩,
        ⟨pdaOf subscriber plan, .writable⟩, ⟨pdaOf subscriber tokenMint, .readonly⟩,
        ⟨Pubkey.default, .readonly⟩, ⟨address 94, .readonly⟩, ⟨deployment.subscriptionsId, .readonly⟩,
        ⟨payer, .writableSigner⟩], [11], deployment.subscriptionsId⟩
    | .resumeSubscription _ planPda subscriber subscriptionPda tokenMint =>
      ⟨[⟨subscriber, .readonlySigner⟩, ⟨planPda, .readonly⟩, ⟨subscriptionPda, .writable⟩,
        ⟨tokenMint, .readonly⟩], [13], deployment.subscriptionsId⟩
    | .revokeSubscription authority planPda receiver subscriptionPda =>
      ⟨[⟨authority, .readonlySigner⟩, ⟨subscriptionPda, .writable⟩, ⟨planPda, .readonly⟩,
        ⟨receiver, .writable⟩], [3], deployment.subscriptionsId⟩
    | .revokeAbandonedSubscription payer planPda subscriptionAccount subscriptionAuthority =>
      ⟨[⟨payer, .writableSigner⟩, ⟨planPda, .readonly⟩, ⟨subscriptionAccount, .writable⟩,
        ⟨subscriptionAuthority, .readonly⟩], [7], deployment.subscriptionsId⟩
    | _ => ⟨[], [], deployment.subscriptionsId⟩
  others
    | .createAssociatedTokenIdempotent mint owner _ tokenProgram =>
      [pdaOf owner mint, mint, Pubkey.default, tokenProgram]
    | .initSubscriptionAuthority owner _ tokenMint tokenProgram userAta =>
      [pdaOf owner tokenMint, tokenMint, userAta, Pubkey.default, tokenProgram]
    | .subscribe _ _ _ _ merchant _ planId subscriber tokenMint =>
      let plan := (deployment.deriveProgramAddress
        [deployment.planPrefix, merchant.toList, LittleEndian.bytes 8 planId]
        deployment.subscriptionsId).1
      [merchant, plan, pdaOf subscriber plan, pdaOf subscriber tokenMint, Pubkey.default, address 94,
        deployment.subscriptionsId]
    | .resumeSubscription _ planPda _ subscriptionPda tokenMint => [planPda, subscriptionPda, tokenMint]
    | .revokeSubscription _ planPda _ subscriptionPda => [subscriptionPda, planPda]
    | .revokeAbandonedSubscription _ planPda subscriptionAccount subscriptionAuthority =>
      [planPda, subscriptionAccount, subscriptionAuthority]
    | _ => []

/-- The compute budget and what the return builds, its rent for `payer`. The stand-in for program
addresses puts the user's config at the user's own, so the user is written. -/
def returnMessage (payer : Pubkey) : CompiledMessage :=
  let payers := if payer = sponsor then [] else [payer]
  let receiver := if payer = sponsor then 0 else 6
  let fixed := 6 + payers.length
  { addressTableLookups := []
    header := ⟨9, 0, 2⟩
    instructions := [
      ⟨[], 2 :: LittleEndian.bytes 4 100000, fixed + 6⟩,
      ⟨[], 3 :: LittleEndian.bytes 8 1000, fixed + 6⟩,
      ⟨[1, 5, fixed + 3, receiver], [3], fixed + 7⟩,
      ⟨[1, 3, fixed, 2, fixed + 4, fixed + 1, 0], [0], fixed + 7⟩,
      ⟨[1, fixed + 2, fixed + 3, 5, 3, fixed + 4, fixed + 5, fixed + 7, 0], [11], fixed + 7⟩,
      ⟨[1, 0, 4, 1, 5], instructionDiscriminator .reactivate ++ enrollParamsCodec.encode settings,
        fixed + 8⟩]
    lifetimeToken := Vector.replicate 32 3
    staticAccounts := [sponsor, user, address 60, pdaOf user (address 22), configAddress deployment,
      pdaOf user (deployment.plan 0 0)] ++ payers ++ [address 22, address 204, deployment.vault,
      deployment.plan 0 0, Pubkey.default, address 94, address 91, deployment.subscriptionsId,
      deployment.id]
    version := some 0 }

def returnTransaction (payer : Pubkey) : Transaction where
  messageBytes := wire (returnMessage payer)
  signatures := (transaction own).signatures
  nodup := (transaction own).nodup

def returnKit : Kit :=
  { kit with
    decodeMessage := fun bytes =>
      [returnMessage (address 10), returnMessage sponsor].find? fun message => wire message = bytes }

theorem returnKit_documented : returnKit.Documented deployment where
  separate := kit_documented.separate
  computeUnitLimit := kit_documented.computeUnitLimit
  computeUnitPrice := kit_documented.computeUnitPrice
  decompileMessage := kit_documented.decompileMessage

theorem addresses_perm {built : Client.Instruction} {part : Part}
    (hpart : Earlier deployment built part) :
    (builders.build built).addresses.Perm (wallets built ++ builders.others built) := by
  cases built with
  | createAssociatedTokenIdempotent mint owner payer tokenProgram =>
    exact List.Perm.cons _ (List.Perm.swap ..)
  | initSubscriptionAuthority owner payer tokenMint tokenProgram userAta =>
    exact List.Perm.cons _ (List.perm_append_singleton payer [_, _, _, _, _])
  | subscribe amount createdAt periodHours initId merchant payer planId subscriber tokenMint =>
    exact List.Perm.cons _ (List.perm_append_singleton payer [_, _, _, _, _, _, _])
  | resumeSubscription expiry planPda subscriber subscriptionPda tokenMint => exact List.Perm.refl _
  | revokeSubscription authority planPda receiver subscriptionPda =>
    exact List.Perm.cons _ (List.perm_append_singleton receiver [_, _])
  | revokeAbandonedSubscription payer planPda subscriptionAccount authority => exact List.Perm.refl _
  | enroll | reactivate =>
    obtain rfl := Option.some.inj hpart.1
    cases hpart.2
  | _ => cases hpart.1

theorem part_of_associatedToken {instruction : Instruction}
    (h : instruction.programAddress = address 93) :
    returnKit.part deployment instruction = returnKit.associatedTokenPart instruction :=
  if_pos h

theorem part_of_subscriptions {instruction : Instruction}
    (h : instruction.programAddress = deployment.subscriptionsId) :
    returnKit.part deployment instruction = returnKit.subscriptionsPart instruction := by
  unfold Kit.part
  rw [h, if_neg (by decide), if_pos rfl]

theorem reads_builders {built : Client.Instruction} {part : Part} {instruction : Instruction}
    (hpart : Earlier deployment built part) (hcarries : Carries (builders.build built) instruction) :
    returnKit.part deployment instruction = some part := by
  rcases instruction with ⟨accounts, data, program⟩
  rcases hcarries with ⟨hprogram, hdata, haddresses⟩
  dsimp only at hprogram hdata
  subst hprogram hdata
  cases built with
  | createAssociatedTokenIdempotent mint owner payer tokenProgram =>
    obtain rfl := Option.some.inj hpart.1
    rcases List.map_eq_cons_iff.mp haddresses with ⟨_, _, rfl, rfl, htail⟩
    rcases List.map_eq_cons_iff.mp htail with ⟨_, _, rfl, -, hrest⟩
    rcases List.map_eq_cons_iff.mp hrest with ⟨_, _, rfl, rfl, hlast⟩
    rcases List.map_eq_cons_iff.mp hlast with ⟨_, _, rfl, rfl, -⟩
    rw [part_of_associatedToken rfl]
    rfl
  | initSubscriptionAuthority owner payer tokenMint tokenProgram userAta =>
    obtain rfl := Option.some.inj hpart.1
    rcases List.map_eq_cons_iff.mp haddresses with ⟨_, _, rfl, rfl, -⟩
    rw [part_of_subscriptions rfl]
    rfl
  | subscribe amount createdAt periodHours initId merchant payer planId subscriber tokenMint =>
    obtain rfl := Option.some.inj hpart.1
    rcases List.map_eq_cons_iff.mp haddresses with ⟨_, _, rfl, rfl, htail⟩
    rcases List.map_eq_cons_iff.mp htail with ⟨_, _, rfl, rfl, hrest⟩
    rcases List.map_eq_cons_iff.mp hrest with ⟨_, _, rfl, hplan, -⟩
    rw [part_of_subscriptions rfl]
    exact congrArg (fun plan => some (Part.subscribe ⟨_, _, plan⟩)) hplan
  | resumeSubscription expiry planPda subscriber subscriptionPda tokenMint =>
    obtain rfl := Option.some.inj hpart.1
    rcases List.map_eq_cons_iff.mp haddresses with ⟨_, _, rfl, rfl, htail⟩
    rcases List.map_eq_cons_iff.mp htail with ⟨_, _, rfl, rfl, -⟩
    rw [part_of_subscriptions rfl]
    rfl
  | revokeSubscription authority planPda receiver subscriptionPda =>
    obtain rfl := Option.some.inj hpart.1
    rcases List.map_eq_cons_iff.mp haddresses with ⟨_, _, rfl, rfl, htail⟩
    rcases List.map_eq_cons_iff.mp htail with ⟨_, _, rfl, rfl, -⟩
    rw [part_of_subscriptions rfl]
    rfl
  | revokeAbandonedSubscription payer planPda subscriptionAccount authority =>
    obtain rfl := Option.some.inj hpart.1
    rcases List.map_eq_cons_iff.mp haddresses with ⟨_, _, rfl, rfl, htail⟩
    rcases List.map_eq_cons_iff.mp htail with ⟨_, _, rfl, rfl, hrest⟩
    rcases List.map_eq_cons_iff.mp hrest with ⟨_, _, rfl, rfl, -⟩
    rw [part_of_subscriptions rfl]
    rfl
  | enroll | reactivate =>
    obtain rfl := Option.some.inj hpart.1
    cases hpart.2
  | _ => cases hpart.1

theorem builders_documented : builders.Documented deployment returnKit where
  reads := reads_builders
  lists := by
    intro built part key hpart hkey
    rw [(addresses_perm hpart).mem_iff, List.mem_append]
    simp only [hkey, or_false]
  once := by
    intro built part key hpart hwallets hkey
    rw [(addresses_perm hpart).count_eq, List.count_append, List.count_eq_zero.mpr hkey]
    exact List.nodup_iff_count_le_one.mp hwallets key
  signs := by
    intro built part account hpart haccount hsigns
    have hmem : account.address ∈
        ((builders.build built).accounts.filter fun a => a.role.signs).map AccountMeta.address :=
      List.mem_map_of_mem (List.mem_filter.mpr ⟨haccount, hsigns⟩)
    cases built <;> first | exact hmem | cases hmem
  initPayer := fun _ _ _ _ => rfl
  subscribePayer := fun _ _ _ _ _ _ _ _ => rfl

section

variable {payer : Pubkey} {built : SponsoredInstructions}
  (hbuilt : sponsoredInstructions deployment 0 .reactivate Client.SweepRehearsal.config settings sponsor
    user (returning payer) = .ok built)
include hbuilt

theorem compiles_return (hpayer : payer = address 10 ∨ payer = sponsor) :
    Compiles returnKit context.lookupTable sponsor (createSponsoredTransactionMessage
      returnKit.computeBudget 100000 1000
      (built.instructions.map (instructionOf deployment builders))) (returnTransaction payer)
      (returnMessage payer) := by
  obtain rfl := Except.ok.inj hbuilt
  rcases hpayer with rfl | rfl
  · exact {
      decodes := by decide +kernel
      version := rfl
      lookups := fun _ h => by cases h
      payer := rfl
      header := by decide +kernel
      static := by decide +kernel
      signatures := by decide +kernel
      decompiles := by decide +kernel }
  · exact {
      decodes := by decide +kernel
      version := rfl
      lookups := fun _ h => by cases h
      payer := rfl
      header := by decide +kernel
      static := by decide +kernel
      signatures := by decide +kernel
      decompiles := by decide +kernel }

theorem others_return (hpayer : payer = address 10 ∨ payer = sponsor) :
    ∀ instruction ∈ built.instructions, sponsor ∉ others deployment builders instruction := by
  obtain rfl := Except.ok.inj hbuilt
  rcases hpayer with rfl | rfl
  · decide +kernel
  · decide +kernel

end

theorem fetched_returning (payer : Pubkey) : PlansFetched deployment (returning payer) := by
  have hplans : (returning payer).plans.map (fun plan => (plan.paymentToken, plan.tier, plan.plan)) =
      [(0, 0, deployment.plan 0 0), (0, 1, deployment.plan 0 1), (1, 0, deployment.plan 1 0),
        (1, 1, deployment.plan 1 1)] := rfl
  intro plan hplan
  have hmem := List.mem_map_of_mem
    (f := fun plan : PlanState => (plan.paymentToken, plan.tier, plan.plan)) hplan
  rw [hplans] at hmem
  simp only [List.mem_cons, Prod.mk.injEq, List.not_mem_nil, or_false] at hmem
  rcases hmem with ⟨htoken, htier, hplace⟩ | ⟨htoken, htier, hplace⟩ | ⟨htoken, htier, hplace⟩ |
    ⟨htoken, htier, hplace⟩
  all_goals
    rw [htoken, htier]
    exact ⟨by decide, by decide, hplace⟩

theorem leftToSponsor_returning {payer : Pubkey} {paymentToken : ℕ}
    (htoken : paymentToken ∈ enabledPaymentTokens settings.paymentTokens.toNat) :
    LeftToSponsor (returning payer) sponsor settings.tier.toNat paymentToken ↔ payer = sponsor := by
  have hzero : paymentToken = 0 := by
    have hone : enabledPaymentTokens settings.paymentTokens.toNat = [0] := by decide
    rw [hone] at htoken
    exact List.mem_singleton.mp htoken
  rw [hzero]
  constructor
  · rintro ⟨plan, subscription, hplan, hsubscription, -, -, hpayer⟩
    obtain rfl := Except.ok.inj hplan
    obtain rfl := Option.some.inj hsubscription
    exact hpayer
  · intro hpayer
    exact ⟨_, _, rfl, rfl, (by decide : (1700000000 : ℤ) ≠ 0), (by decide : (1700000000 : ℤ) ≤ 1700000100),
      hpayer⟩

end Rehearsal

/-- A return is accepted when another wallet paid for the subscription that ended, and refused when the
sponsor did. -/
theorem gate_accepts_returning :
    shapeProblem Laterite.Rehearsal.deployment Rehearsal.returnKit
      (Rehearsal.returnTransaction (Laterite.Rehearsal.address 10))
      { Rehearsal.context with kind := .reactivate } = .ok () ∧
    shapeProblem Laterite.Rehearsal.deployment Rehearsal.returnKit
      (Rehearsal.returnTransaction Laterite.Rehearsal.sponsor)
      { Rehearsal.context with kind := .reactivate } ≠ .ok () := by
  have hbuilds (payer : Pubkey) : ∃ built, sponsoredInstructions Laterite.Rehearsal.deployment 0
      .reactivate Client.SweepRehearsal.config Laterite.Rehearsal.settings Laterite.Rehearsal.sponsor
      Laterite.Rehearsal.user (Rehearsal.returning payer) = .ok built := ⟨_, rfl⟩
  have hiff {payer : Pubkey} (hpayer : payer = Laterite.Rehearsal.address 10 ∨
      payer = Laterite.Rehearsal.sponsor) :
      shapeProblem Laterite.Rehearsal.deployment Rehearsal.returnKit
        (Rehearsal.returnTransaction payer) { Rehearsal.context with kind := .reactivate } = .ok () ↔
      ∀ paymentToken ∈ enabledPaymentTokens Laterite.Rehearsal.settings.paymentTokens.toNat,
        ¬LeftToSponsor (Rehearsal.returning payer) Laterite.Rehearsal.sponsor
          Laterite.Rehearsal.settings.tier.toNat paymentToken := by
    obtain ⟨built, hbuilt⟩ := hbuilds payer
    exact gate_accepts_builds Rehearsal.returnKit_documented Rehearsal.builders_documented (by decide)
      (Rehearsal.fetched_returning payer) (by decide) hbuilt (Rehearsal.others_return hbuilt hpayer)
      (by decide) (by decide) (Rehearsal.compiles_return hbuilt hpayer)
  constructor
  · apply (hiff (.inl rfl)).mpr
    intro paymentToken htoken hleft
    have hpayer := (Rehearsal.leftToSponsor_returning htoken).mp hleft
    revert hpayer
    decide
  · intro haccepted
    have hnone := (hiff (.inr rfl)).mp haccepted 0 (by decide)
    exact hnone ((Rehearsal.leftToSponsor_returning (by decide)).mpr rfl)

end Laterite.Sponsor
