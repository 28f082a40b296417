import Laterite.ChainAccounts
import Laterite.ClientConstants
import Laterite.TextEncodings

/-!
# The route the crank asks for

A sweep swaps through the route Jupiter builds for it. A venue that failed a token's sweep is kept
out of that token's routes for the day: the request names the venues to exclude. When the builder
refuses a route, the request turns to classic pools, less the excluded ones, and names these alone.

A request can name the venues to use or the ones to exclude, not both. With every classic pool
excluded the list to use is empty, which restricts nothing.
-/

namespace Laterite.Routes

open TextEncodings

structure TokenMint where
  mint : Pubkey
  tokenProgram : Pubkey

structure RouteRequest where
  amount : ℕ
  asset : TokenMint
  excludeVenues : List String
  payment : TokenMint
  swapAuthority : Pubkey
  userAssetAccount : Pubkey

structure Route where
  instruction : RouterInstruction
  quoted : ℤ
  venues : List String

/-- Pools whose state lives wholly in their accounts. -/
def classicVenues : List String := ["Raydium CLMM", "Whirlpool"]

def maxRouteAgeSeconds : ℤ := 10

def routeAttempts : ℕ := 4

structure JupiterBuildParams where
  amount : ℕ
  inputMint : Pubkey
  outputMint : Pubkey
  slippageBps : ℤ
  taker : Pubkey
  maxAccounts : ℕ
  destinationTokenAccount : Pubkey
  dexes : Option (List String)
  excludeDexes : Option (List String)
  deriving DecidableEq

def addressText (address : Pubkey) : String := String.ofList (base58 address.toList)

/-- The request's query. A list that is there is written even when it is empty. -/
def JupiterBuildParams.query (params : JupiterBuildParams) : List (String × String) :=
  [("amount", toString params.amount), ("inputMint", addressText params.inputMint),
    ("outputMint", addressText params.outputMint), ("slippageBps", toString params.slippageBps),
    ("taker", addressText params.taker), ("wrapAndUnwrapSol", "false")] ++
  (if params.maxAccounts = 0 then [] else [("maxAccounts", toString params.maxAccounts)]) ++
  [("destinationTokenAccount", addressText params.destinationTokenAccount)] ++
  (params.dexes.map fun dexes => ("dexes", ",".intercalate dexes)).toList ++
  (params.excludeDexes.map fun dexes => ("excludeDexes", ",".intercalate dexes)).toList

/-- A venue the route passes through. -/
structure Hop where
  inputMint : Pubkey
  outputMint : Pubkey
  label : Option String

/-- A parsed `/build` response. -/
structure JupiterSwap where
  fetchedAt : Option ℤ
  inAmount : ℤ
  outAmount : ℤ
  platformFee : Option ℤ
  routePlan : List Hop
  setup : List RouterInstruction
  swap : RouterInstruction

inductive Reply where
  | thrown (message : String)
  | refused (status : ℕ) (text : String)
  | built (swap : JupiterSwap)

structure SwapAuthorityAccount where
  address : Pubkey
  mint : Pubkey
  tokenProgram : Pubkey
  deriving DecidableEq

/-- Why no route is built: it needs accounts that do not exist, or an error says. -/
inductive BuildError where
  | accountsRequired (accounts : List SwapAuthorityAccount)
  | thrown (message : String)

inductive RouteError where
  | noRoute (reason : String)
  | thrown (message : String)

/-- The programs a route is told by, and how token accounts are derived. -/
structure Deployment where
  jupiterProgram : Pubkey
  associatedTokenProgram : Pubkey
  tokenProgram : Pubkey
  token2022Program : Pubkey
  findAssociatedTokenPda : (mint owner tokenProgram : Pubkey) → Pubkey

/-- What one attempt meets: the reply, the accounts that exist, the clock in milliseconds, and what
comes of creating the accounts the route needs. -/
structure Answer where
  reply : Reply
  accountExists : Pubkey → Bool
  now : ℤ
  creation : Except String Unit

/-- The members of a list, each once and in order, after those already there. -/
def addAll {α : Type} [DecidableEq α] (held : List α) (added : List α) : List α :=
  added.foldl (fun held one => if one ∈ held then held else held ++ [one]) held

def routeV2 : List UInt8 := [0xbb, 0x64, 0xfa, 0xcc, 0x31, 0xc4, 0xaf, 0x14]

def readNumber (data : List UInt8) (offset length : ℕ) : ℕ :=
  LittleEndian.toNat ((data.drop offset).take length)

section

variable (d : Deployment) (crank : Pubkey) (request : RouteRequest)

def getJupiterSweepRoute (swap : JupiterSwap) : Except BuildError RouterInstruction := do
  let route := swap.swap
  if route.programId ≠ d.jupiterProgram ∨ route.data.length < 30 ∨ route.data.take 8 ≠ routeV2 then
    throw (.thrown "Not a Jupiter route_v2 instruction")
  if readNumber route.data 8 8 ≠ request.amount ∨ swap.inAmount ≠ request.amount then
    throw (.thrown "The route does not spend exactly the pull")
  if readNumber route.data 26 2 ≠ 0 ∨ readNumber route.data 28 2 ≠ 0 ∨
      swap.platformFee.getD 0 ≠ 0 then
    throw (.thrown "The route charges a fee")
  if ∃ account ∈ route.accounts, account.isSigner ∧ account.pubkey ≠ request.swapAuthority then
    throw (.thrown "The route has another signer")
  return route

def isAssociatedTokenAccountCreation (setup : RouterInstruction) : Bool :=
  setup.programId = d.associatedTokenProgram ∧ setup.data = [1]

def swapAccounts (swap : JupiterSwap) : List SwapAuthorityAccount :=
  (addAll [] (swap.routePlan.flatMap fun hop => [hop.inputMint, hop.outputMint])).flatMap fun mint =>
    [d.tokenProgram, d.token2022Program].map fun tokenProgram =>
      ⟨d.findAssociatedTokenPda mint request.swapAuthority tokenProgram, mint, tokenProgram⟩

def writtenAccounts (swap : JupiterSwap) : List SwapAuthorityAccount :=
  (addAll [] ((swap.swap.accounts.filter AccountMeta.isWritable).map AccountMeta.pubkey)).filterMap
    fun key => (swapAccounts d request swap).reverse.find? fun account => account.address = key

/-- A built route: what it delivers, when its state was read and the venues it passes through. -/
structure BuiltRoute where
  outAmount : ℤ
  quotedAt : Option ℤ
  route : RouterInstruction
  venues : List String

def buildJupiterSweepRoute (answer : Answer) : Except BuildError BuiltRoute :=
  match answer.reply with
  | .thrown message => throw (.thrown message)
  | .refused status text => throw (.thrown s!"Jupiter build {status}: {text}")
  | .built swap => do
    let route ← getJupiterSweepRoute d request swap
    if ∃ account ∈ route.accounts, account.pubkey = crank then
      throw (.thrown "The route names the crank, whose signature it would need")
    if ∃ setup ∈ swap.setup, ¬isAssociatedTokenAccountCreation d setup then
      throw (.thrown "The route needs another setup than accounts")
    let missing := (writtenAccounts d request swap).filter fun account =>
      !answer.accountExists account.address
    if missing ≠ [] then
      throw (.accountsRequired missing)
    return {
      outAmount := swap.outAmount
      quotedAt := swap.fetchedAt
      route := route
      venues := addAll [] (swap.routePlan.filterMap Hop.label) }

/-- Whether a message says the builder refused the route itself. -/
def isRefusal (message : String) : Bool :=
  "names the crank".toList <:+: message.toList ∨ "another setup".toList <:+: message.toList

/-- What follows an attempt: another one through these venues, or the end. -/
inductive Next where
  | again (dexes : Option (List String))
  | done (result : Except RouteError Route)

def fallback : List String := classicVenues.filter fun venue => venue ∉ request.excludeVenues

def next (dexes : Option (List String)) (answer : Answer) : Next :=
  match buildJupiterSweepRoute d crank request answer with
  | .ok built =>
    if ∃ quotedAt ∈ built.quotedAt, maxRouteAgeSeconds * 1000 < answer.now - quotedAt * 1000 then
      .again dexes
    else .done (.ok ⟨built.route, built.outAmount, built.venues⟩)
  | .error (.accountsRequired _) =>
    match answer.creation with
    | .ok () => .again dexes
    | .error message => .done (.error (.thrown message))
  | .error (.thrown message) =>
    if dexes = none ∧ isRefusal message then .again (some (fallback request))
    else .done (.error (.thrown message))

/-- The request sent when these venues are asked for. -/
def buildParams (dexes : Option (List String)) : JupiterBuildParams where
  amount := request.amount
  inputMint := request.payment.mint
  outputMint := request.asset.mint
  slippageBps := Client.slippageBps
  taker := request.swapAuthority
  maxAccounts := 40
  destinationTokenAccount := request.userAssetAccount
  dexes := dexes
  excludeDexes :=
    if dexes.isSome then none
    else if request.excludeVenues.length > 0 then some request.excludeVenues
    else none

def attempts : ℕ → Option (List String) → (ℕ → Answer) → List JupiterBuildParams × Except RouteError Route
  | 0, _, _ =>
    ([], .error (.noRoute s!"no fresh, usable Jupiter route in {routeAttempts} requests"))
  | left + 1, dexes, answers =>
    match next d crank request dexes (answers 0) with
    | .done result => ([buildParams request dexes], result)
    | .again dexes' =>
      let rest := attempts left dexes' fun attempt => answers (attempt + 1)
      (buildParams request dexes :: rest.1, rest.2)

def jupiterRoutes (answers : ℕ → Answer) : List JupiterBuildParams × Except RouteError Route :=
  attempts d crank request routeAttempts none answers

end

/-- The venues that failed each token's sweep, with their day. -/
abbrev Exclusions := String → Option (ℤ × List String)

/-- A sweep of a token that failed at some venues. -/
structure Failure where
  key : String
  day : ℤ
  venues : List String

def exclude (excluded : Exclusions) (failure : Failure) : Exclusions :=
  let held := match excluded failure.key with
    | some (day, venues) => if day = failure.day then venues else []
    | none => []
  Function.update excluded failure.key (some (failure.day, addAll held failure.venues))

/-- The venues a route for the token is asked without. -/
def excludeVenues (excluded : Exclusions) (key : String) (day : ℤ) : List String :=
  match excluded key with
  | some (held, venues) => if held = day then venues else []
  | none => []

/-- The request keeps the venues out: it excludes each of them, or it asks for others alone. -/
def JupiterBuildParams.KeepsOut (params : JupiterBuildParams) (venues : List String) : Prop :=
  (∀ venue ∈ venues, ∃ excluded, params.excludeDexes = some excluded ∧ venue ∈ excluded) ∨
    ∃ dexes, params.dexes = some dexes ∧ dexes ≠ [] ∧ ∀ venue ∈ dexes, venue ∉ venues

section

variable (d : Deployment) (crank : Pubkey) (request : RouteRequest)

/-- The attempt is made again as it was: its route is stale, or its missing accounts were created. -/
def Answer.Repeats (answer : Answer) : Prop :=
  match buildJupiterSweepRoute d crank request answer with
  | .ok built =>
    ∃ quotedAt ∈ built.quotedAt, maxRouteAgeSeconds * 1000 < answer.now - quotedAt * 1000
  | .error (.accountsRequired _) => answer.creation = .ok ()
  | .error (.thrown _) => False

def Answer.Refused (answer : Answer) : Prop :=
  ∃ message, buildJupiterSweepRoute d crank request answer = .error (.thrown message) ∧
    isRefusal message = true

/-- One of the attempts, not the last, is refused, and each one before it is made again. -/
def FallsBack (left : ℕ) (answers : ℕ → Answer) : Prop :=
  ∃ refused, refused + 1 < left ∧ (∀ earlier < refused, (answers earlier).Repeats d crank request) ∧
    (answers refused).Refused d crank request

end

section

variable {d : Deployment} {crank : Pubkey} {request : RouteRequest} {answer : Answer}
  {answers : ℕ → Answer} {left : ℕ} {params : JupiterBuildParams}

theorem next_of_repeats (h : answer.Repeats d crank request) (dexes : Option (List String)) :
    next d crank request dexes answer = .again dexes := by
  rw [Answer.Repeats] at h
  rw [next]
  cases hbuilt : buildJupiterSweepRoute d crank request answer with
  | ok built =>
    rw [hbuilt] at h
    exact if_pos h
  | error error =>
    rw [hbuilt] at h
    cases error with
    | accountsRequired accounts =>
      dsimp only at h ⊢
      rw [h]
    | thrown message => cases h

theorem next_of_refused (h : answer.Refused d crank request) :
    next d crank request none answer = .again (some (fallback request)) := by
  rcases h with ⟨message, hbuilt, hrefusal⟩
  rw [next, hbuilt]
  exact if_pos ⟨rfl, hrefusal⟩

theorem next_done (hrepeats : ¬answer.Repeats d crank request)
    (hrefused : ¬answer.Refused d crank request) :
    ∃ result, next d crank request none answer = .done result := by
  rw [Answer.Repeats] at hrepeats
  rw [next]
  cases hbuilt : buildJupiterSweepRoute d crank request answer with
  | ok built =>
    rw [hbuilt] at hrepeats
    exact ⟨_, if_neg hrepeats⟩
  | error error =>
    rw [hbuilt] at hrepeats
    cases error with
    | accountsRequired accounts =>
      cases hcreation : answer.creation with
      | ok created => exact absurd hcreation hrepeats
      | error message => exact ⟨_, rfl⟩
    | thrown message =>
      have hmessage : ¬((none : Option (List String)) = none ∧ isRefusal message = true) := by
        intro h
        exact hrefused ⟨message, hbuilt, h.2⟩
      exact ⟨_, if_neg hmessage⟩

/-- Once venues are asked for, the same ones are asked for to the end. -/
theorem next_some (answer : Answer) (dexes : List String) :
    next d crank request (some dexes) answer = .again (some dexes) ∨
      ∃ result, next d crank request (some dexes) answer = .done result := by
  rw [next]
  cases buildJupiterSweepRoute d crank request answer with
  | ok built =>
    dsimp only
    split
    · exact .inl rfl
    · exact .inr ⟨_, rfl⟩
  | error error =>
    cases error with
    | accountsRequired accounts =>
      cases answer.creation with
      | ok created => exact .inl rfl
      | error message => exact .inr ⟨_, rfl⟩
    | thrown message =>
      apply Or.inr
      apply Exists.intro
      apply if_neg
      intro h
      cases h.1

theorem attempts_some {dexes : List String}
    (h : params ∈ (attempts d crank request left (some dexes) answers).1) :
    params = buildParams request (some dexes) := by
  induction left generalizing answers with
  | zero => cases h
  | succ left ih =>
    rw [attempts] at h
    rcases next_some (answers 0) dexes with hnext | ⟨result, hnext⟩
    · rw [hnext] at h
      rcases List.mem_cons.mp h with rfl | hrest
      · rfl
      · exact ih hrest
    · rw [hnext] at h
      exact List.mem_singleton.mp h

theorem FallsBack.succ (hrepeats : (answers 0).Repeats d crank request)
    (h : FallsBack d crank request left fun attempt => answers (attempt + 1)) :
    FallsBack d crank request (left + 1) answers := by
  rcases h with ⟨refused, hlt, hearlier, hrefused⟩
  refine ⟨refused + 1, Nat.succ_lt_succ hlt, ?_, hrefused⟩
  intro earlier hless
  cases earlier with
  | zero => exact hrepeats
  | succ earlier => exact hearlier earlier (Nat.lt_of_succ_lt_succ hless)

/-- A request is the first one again, or the one for classic pools after a refusal. -/
theorem mem_attempts (h : params ∈ (attempts d crank request left none answers).1) :
    params = buildParams request none ∨
      params = buildParams request (some (fallback request)) ∧
        FallsBack d crank request left answers := by
  induction left generalizing answers with
  | zero => cases h
  | succ left ih =>
    rw [attempts] at h
    by_cases hrepeats : (answers 0).Repeats d crank request
    · rw [next_of_repeats hrepeats] at h
      rcases List.mem_cons.mp h with rfl | hrest
      · exact .inl rfl
      · exact (ih hrest).imp_right fun hfallen => ⟨hfallen.1, hfallen.2.succ hrepeats⟩
    · by_cases hrefused : (answers 0).Refused d crank request
      · rw [next_of_refused hrefused] at h
        rcases List.mem_cons.mp h with rfl | hrest
        · exact .inl rfl
        · cases left with
          | zero => cases hrest
          | succ left =>
            refine .inr ⟨attempts_some hrest, 0, Nat.succ_lt_succ (Nat.succ_pos left), ?_, hrefused⟩
            intro earlier hless
            cases hless
      · rcases next_done hrepeats hrefused with ⟨result, hnext⟩
        rw [hnext] at h
        exact .inl (List.mem_singleton.mp h)

theorem first_attempt (dexes : Option (List String)) :
    buildParams request dexes ∈ (attempts d crank request (left + 1) dexes answers).1 := by
  rw [attempts]
  cases next d crank request dexes (answers 0) with
  | again dexes' => exact List.mem_cons_self
  | done result => exact List.mem_cons_self

theorem FallsBack.asked (h : FallsBack d crank request left answers) :
    buildParams request (some (fallback request)) ∈
      (attempts d crank request left none answers).1 := by
  rcases h with ⟨refused, hlt, hearlier, hrefused⟩
  induction refused generalizing left answers with
  | zero =>
    rcases left with _ | _ | left
    · cases hlt
    · cases Nat.lt_of_succ_lt_succ hlt
    · rw [attempts, next_of_refused hrefused]
      exact List.mem_cons_of_mem _ (first_attempt _)
  | succ refused ih =>
    cases left with
    | zero => cases hlt
    | succ left =>
      rw [attempts, next_of_repeats (hearlier 0 (Nat.succ_pos refused))]
      apply List.mem_cons_of_mem
      apply ih (Nat.lt_of_succ_lt_succ hlt) _ hrefused
      intro earlier hless
      exact hearlier (earlier + 1) (Nat.succ_lt_succ hless)

theorem keepsOut_first : (buildParams request none).KeepsOut request.excludeVenues := by
  apply Or.inl
  intro venue hvenue
  exact ⟨request.excludeVenues, if_pos (List.length_pos_of_mem hvenue), hvenue⟩

theorem fallback_eq_nil :
    fallback request = [] ↔ ∀ venue ∈ classicVenues, venue ∈ request.excludeVenues := by
  simp [fallback, List.filter_eq_nil_iff]

theorem keepsOut_fallback :
    (buildParams request (some (fallback request))).KeepsOut request.excludeVenues ↔
      fallback request ≠ [] := by
  constructor
  · rintro (hexcluded | ⟨dexes, hdexes, hne, -⟩) hnil
    · have hvenue := fallback_eq_nil.mp hnil "Whirlpool" (by simp [classicVenues])
      rcases hexcluded "Whirlpool" hvenue with ⟨excluded, heq, -⟩
      cases heq
    · exact hne ((Option.some.inj hdexes).symm.trans hnil)
  · intro hne
    refine .inr ⟨fallback request, rfl, hne, ?_⟩
    intro venue hvenue
    simpa using (List.mem_filter.mp hvenue).2

theorem mem_addAll {α : Type} [DecidableEq α] {held added : List α} {one : α} :
    one ∈ addAll held added ↔ one ∈ held ∨ one ∈ added := by
  induction added generalizing held with
  | nil => simp [addAll]
  | cons first added ih =>
    rw [addAll, List.foldl_cons, ← addAll, ih]
    split
    · rename_i hfirst
      constructor
      · rintro (h | h)
        · exact .inl h
        · exact .inr (List.mem_cons_of_mem _ h)
      · rintro (h | h)
        · exact .inl h
        · rcases List.mem_cons.mp h with rfl | h
          · exact .inl hfirst
          · exact .inr h
    · rw [List.mem_append, List.mem_singleton, List.mem_cons, or_assoc]

theorem mem_excludeVenues_exclude {excluded : Exclusions} {failure : Failure} {key venue : String}
    {day : ℤ} (hday : failure.key = key → failure.day = day) :
    venue ∈ excludeVenues (exclude excluded failure) key day ↔
      venue ∈ excludeVenues excluded key day ∨ failure.key = key ∧ venue ∈ failure.venues := by
  by_cases hkey : failure.key = key
  · subst hkey
    have hsame := hday rfl
    subst hsame
    rw [excludeVenues, exclude, Function.update_self]
    dsimp only
    rw [if_pos rfl, mem_addAll, excludeVenues]
    simp
  · rw [excludeVenues, exclude, Function.update_of_ne (Ne.symm hkey), ← excludeVenues]
    simp [hkey]

/-- What a token's routes are asked without: what was excluded that day, and what failed since. -/
theorem mem_excludeVenues {excluded : Exclusions} {failures : List Failure} {key venue : String}
    {day : ℤ} (hday : ∀ failure ∈ failures, failure.key = key → failure.day = day) :
    venue ∈ excludeVenues (failures.foldl exclude excluded) key day ↔
      venue ∈ excludeVenues excluded key day ∨
        ∃ failure ∈ failures, failure.key = key ∧ venue ∈ failure.venues := by
  induction failures generalizing excluded with
  | nil => simp
  | cons failure failures ih =>
    rw [List.foldl_cons, ih (fun later hlater => hday later (List.mem_cons_of_mem _ hlater)),
      mem_excludeVenues_exclude (hday failure List.mem_cons_self), or_assoc]
    simp

/-- After any failures of a token on a day, its route is asked for without the venues that failed
exactly when a classic pool is left or no refusal sends the request to classic pools. -/
theorem failed_venues_excluded (d : Deployment) (crank : Pubkey) (request : RouteRequest)
    (excluded : Exclusions) (failures : List Failure) (key : String) (day : ℤ)
    (hday : ∀ failure ∈ failures, failure.key = key → failure.day = day)
    (hrequest : request.excludeVenues = excludeVenues (failures.foldl exclude excluded) key day)
    (answers : ℕ → Answer) :
    (∀ venue, venue ∈ request.excludeVenues ↔ venue ∈ excludeVenues excluded key day ∨
      ∃ failure ∈ failures, failure.key = key ∧ venue ∈ failure.venues) ∧
    ((∀ params ∈ (jupiterRoutes d crank request answers).1,
        params.KeepsOut request.excludeVenues) ↔
      (∃ venue ∈ classicVenues, venue ∉ request.excludeVenues) ∨
        ¬FallsBack d crank request routeAttempts answers) := by
  have hleft : fallback request ≠ [] ↔ ∃ venue ∈ classicVenues, venue ∉ request.excludeVenues := by
    rw [ne_eq, fallback_eq_nil]
    push Not
    rfl
  constructor
  · intro venue
    rw [hrequest]
    exact mem_excludeVenues hday
  · rw [← hleft]
    constructor
    · intro hall
      by_cases hfalls : FallsBack d crank request routeAttempts answers
      · exact .inl (keepsOut_fallback.mp (hall _ hfalls.asked))
      · exact .inr hfalls
    · intro hcondition params hparams
      rcases mem_attempts hparams with rfl | ⟨rfl, hfalls⟩
      · exact keepsOut_first
      · apply keepsOut_fallback.mpr
        exact hcondition.resolve_right (not_not_intro hfalls)

end

namespace RouteRehearsal

def key (n : UInt8) : Pubkey := Vector.replicate 32 n

def deployment : Deployment where
  jupiterProgram := key 1
  associatedTokenProgram := key 2
  tokenProgram := key 3
  token2022Program := key 4
  findAssociatedTokenPda mint _ _ := mint

def crank : Pubkey := key 9

def failures : List Failure := [⟨"user:0", 20000, ["Raydium CLMM"]⟩, ⟨"user:0", 20000, ["Whirlpool"]⟩]

def request : RouteRequest where
  amount := 1000000
  asset := ⟨key 5, key 4⟩
  excludeVenues := ["Raydium CLMM", "Whirlpool"]
  payment := ⟨key 6, key 3⟩
  swapAuthority := key 7
  userAssetAccount := key 8

def naming : JupiterSwap where
  fetchedAt := none
  inAmount := 1000000
  outAmount := 900000
  platformFee := none
  routePlan := [⟨key 6, key 5, some "Manifest"⟩]
  setup := []
  swap := {
    programId := key 1
    accounts := [⟨key 7, true, false⟩, ⟨key 9, false, true⟩]
    data := routeV2 ++ LittleEndian.bytes 8 1000000 ++ List.replicate 14 0 }

def answers : ℕ → Answer := fun _ => ⟨.built naming, fun _ => true, 0, .ok ()⟩

theorem refused (attempt : ℕ) : (answers attempt).Refused deployment crank request :=
  ⟨"The route names the crank, whose signature it would need", rfl, by decide⟩

theorem fallsBack : FallsBack deployment crank request routeAttempts answers := by
  refine ⟨0, by decide, ?_, refused 0⟩
  intro earlier hless
  cases hless

end RouteRehearsal

open RouteRehearsal in
theorem failed_venues_excluded_whirlpool :
    (jupiterRoutes deployment crank { request with excludeVenues := ["Whirlpool"] } answers).1.length = 2 ∧
      ∀ params ∈ (jupiterRoutes deployment crank { request with excludeVenues := ["Whirlpool"] }
        answers).1, params.KeepsOut ["Whirlpool"] :=
  ⟨rfl, (failed_venues_excluded deployment crank { request with excludeVenues := ["Whirlpool"] }
    (fun _ => none) [⟨"user:0", 20000, ["Whirlpool"]⟩] "user:0" 20000 (by simp) (by decide)
    answers).2.mpr (.inl ⟨"Raydium CLMM", by decide, by decide⟩)⟩

open RouteRehearsal in
/-- With both classic pools failed, the fallback's query names no venue at all. -/
theorem not_failed_venues_excluded :
    request.excludeVenues = excludeVenues (failures.foldl exclude fun _ => none) "user:0" 20000 ∧
    (∃ params ∈ (jupiterRoutes deployment crank request answers).1, ("dexes", "") ∈ params.query ∧
      ∀ venues, ("excludeDexes", venues) ∉ params.query) ∧
    ¬∀ params ∈ (jupiterRoutes deployment crank request answers).1,
      params.KeepsOut request.excludeVenues := by
  have hnil : fallback request = [] := by decide
  refine ⟨by decide, ⟨_, fallsBack.asked, ?_⟩, ?_⟩
  · rw [hnil]
    simp [JupiterBuildParams.query, buildParams]
  · intro hall
    exact keepsOut_fallback.mp (hall _ fallsBack.asked) hnil

end Laterite.Routes
