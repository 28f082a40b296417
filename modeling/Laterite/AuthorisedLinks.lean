import Laterite.TelegramLinks

/-!
# Which chats are linked

The tables say of a chat what its history says: it is linked to a wallet exactly when it once spent a
request of the wallet's and nothing has unlinked the two since. Every link rests on a signature of the
wallet's that links no other chat.
-/

namespace Laterite.Telegram

open TextEncodings Signed

section

variable {crypto : Crypto} {tables : Tables} {requests : List LinkRequest} {links : List Link}
  {event : Event} {events earlier : List Event} {wallet token : Text} {chatId now : ℤ}
  {request row : LinkRequest} {link link' : Link} {kind : Link → Bool}

theorem linked_eq_some {linking : ℤ × LinkRequest} : linked crypto tables event = some linking ↔
    ∃ message now text token, event = .received message now ∧ message.heard = some text ∧
      startToken (trim text) = some token ∧ message.chatId = linking.1 ∧
      tables.requests.find? (spendable crypto token now) = some linking.2 := by
  cases event with
  | received message now =>
    simp only [linked, Option.bind_eq_bind, Option.bind_eq_some_iff, Option.some.injEq]
    constructor
    · rintro ⟨text, htext, token, htoken, request, hfind, rfl⟩
      exact ⟨message, now, text, token, rfl, htext, htoken, rfl, hfind⟩
    · rintro ⟨_, _, text, token, ⟨⟩, htext, htoken, hchat, hfind⟩
      exact ⟨text, htext, token, htoken, linking.2, hfind, by rw [hchat]⟩
  | posted request => simp [linked]
  | deleted request => simp [linked]
  | blocked chatId now => simp [linked]

theorem spendable_iff : spendable crypto token now request = true ↔
    request.tokenHash = crypto.sha256Hex token ∧ request.usedAt = none ∧ now < request.expiresAt := by
  simp [spendable, and_assoc]

def LinkRequest.linkTo (self : LinkRequest) (chatId now : ℤ) : Link :=
  ⟨self.wallet, chatId, self.signature, now, none, self.locale⟩

inductive Unlinks (crypto : Crypto) (wallet : Text) (chatId : ℤ) : Event → Prop
  | deleted {request : DeleteRequest} {proved : Proved}
    (signed : signedRequest crypto request.body .unlink request.domain request.checkedAt = .ok proved)
    (own : proved.signed.wallet = wallet) : Unlinks crypto wallet chatId (.deleted request)
  | received {message : Message} {now : ℤ} {text : Text} (heard : message.heard = some text)
    (unlinking : startToken (trim text) = none ∧ isUnlink (trim text) = true)
    (own : message.chatId = chatId) : Unlinks crypto wallet chatId (.received message now)
  | blocked (now : ℤ) : Unlinks crypto wallet chatId (.blocked chatId now)

theorem receive_cases (crypto : Crypto) (message : Message) (now : ℤ) (tables : Tables) :
    (receive crypto message now tables).1 = tables ∧
        linked crypto tables (.received message now) = none ∧
        (∀ wallet chatId, ¬Unlinks crypto wallet chatId (.received message now)) ∨
      (∃ request text token, message.heard = some text ∧ startToken (trim text) = some token ∧
        tables.requests.find? (spendable crypto token now) = some request ∧
        linked crypto tables (.received message now) = some (message.chatId, request) ∧
        (∀ wallet chatId, ¬Unlinks crypto wallet chatId (.received message now)) ∧
        (receive crypto message now tables).1 = ⟨spend crypto token now tables.requests,
          upsert (request.linkTo message.chatId now) tables.links⟩) ∨
      linked crypto tables (.received message now) = none ∧
        (∀ wallet, Unlinks crypto wallet message.chatId (.received message now)) ∧
        (receive crypto message now tables).1 =
          ⟨tables.requests, revoke (·.chatId = message.chatId) now tables.links⟩ := by
  unfold receive linked
  dsimp only
  cases hheard : message.heard with
  | none =>
    refine .inl ⟨rfl, rfl, fun wallet chatId hunlinks => ?_⟩
    cases hunlinks with
    | received heard => simp [hheard] at heard
  | some text =>
    cases htoken : startToken (trim text) with
    | some token =>
      have hkeeps (wallet : Text) (chatId : ℤ) : ¬Unlinks crypto wallet chatId (.received message now) := by
        rintro ⟨⟩
        simp_all
      cases hfind : tables.requests.find? (spendable crypto token now) with
      | none => exact .inl ⟨by simp [answer, htoken, link, hfind],
          by simp [htoken, hfind], hkeeps⟩
      | some request =>
        exact .inr (.inl ⟨request, text, token, rfl, htoken, hfind, by simp [htoken, hfind], hkeeps,
          by simp [answer, htoken, link, hfind, LinkRequest.linkTo]⟩)
    | none =>
      cases hunlink : isUnlink (trim text) with
      | false =>
        refine .inl ⟨by simp [answer, htoken, hunlink], by simp [htoken], ?_⟩
        rintro wallet chatId ⟨⟩
        simp_all
      | true =>
        refine .inr (.inr ⟨by simp [htoken], fun wallet => .received hheard ⟨htoken, hunlink⟩ rfl, ?_⟩)
        simp only [answer, htoken, hunlink, if_true]
        split <;> rfl

def Active (links : List Link) (wallet : Text) (chatId : ℤ) : Prop :=
  ∃ link ∈ links, (link.wallet = wallet ∧ link.chatId = chatId) ∧ link.isActive = true

theorem isActive_revoked (link : Link) (now : ℤ) :
    ({ link with revokedAt := some now } : Link).isActive = false := rfl

theorem active_revoke : Active (revoke kind now links) wallet chatId ↔
    ∃ link ∈ links, (link.wallet = wallet ∧ link.chatId = chatId) ∧ link.isActive = true ∧
      kind link = false := by
  unfold Active revoke
  simp only [List.mem_map, exists_exists_and_eq_and]
  constructor
  · rintro ⟨link, hlink, hkey, hactive⟩
    split at hkey
    · rename_i hkind
      rw [if_pos hkind, isActive_revoked] at hactive
      cases hactive
    · rename_i hkind
      rw [if_neg hkind] at hactive
      exact ⟨link, hlink, hkey, hactive, by simpa [hactive] using hkind⟩
  · rintro ⟨link, hlink, hkey, hactive, hkind⟩
    refine ⟨link, hlink, ?_⟩
    rw [if_neg (by simp [hkind])]
    exact ⟨hkey, hactive⟩

theorem active_revoke_of {P : Prop} (hkind : ∀ link ∈ links, link.wallet = wallet ∧ link.chatId = chatId →
    (kind link = true ↔ P)) :
    Active (revoke kind now links) wallet chatId ↔ Active links wallet chatId ∧ ¬P := by
  rw [active_revoke]
  constructor
  · rintro ⟨link, hlink, hkey, hactive, hother⟩
    refine ⟨⟨link, hlink, hkey, hactive⟩, fun hp => ?_⟩
    rw [(hkind link hlink hkey).mpr hp] at hother
    cases hother
  · rintro ⟨⟨link, hlink, hkey, hactive⟩, hp⟩
    exact ⟨link, hlink, hkey, hactive, Bool.eq_false_iff.mpr fun h => hp ((hkind link hlink hkey).mp h)⟩

theorem active_upsert (h : link.isActive = true) : Active (upsert link links) wallet chatId ↔
    (link.wallet = wallet ∧ link.chatId = chatId) ∨ Active links wallet chatId := by
  unfold Active upsert
  split
  · rename_i hany
    simp only [List.mem_map, exists_exists_and_eq_and]
    constructor
    · rintro ⟨other, hother, hkey, hactive⟩
      split at hkey
      · exact .inl hkey
      · rename_i hne
        rw [if_neg hne] at hactive
        exact .inr ⟨other, hother, hkey, hactive⟩
    · rintro (hkey | ⟨other, hother, hkey, hactive⟩)
      · rcases List.any_eq_true.mp hany with ⟨other, hother, hsame⟩
        exact ⟨other, hother, by rw [if_pos hsame]; exact ⟨hkey, h⟩⟩
      · refine ⟨other, hother, ?_⟩
        split
        · rename_i hsame
          simp only [Bool.and_eq_true, decide_eq_true_eq] at hsame
          exact ⟨⟨hsame.1.symm.trans hkey.1, hsame.2.symm.trans hkey.2⟩, h⟩
        · exact ⟨hkey, hactive⟩
  · simp [h]

def Links (crypto : Crypto) (tables : Tables) (wallet : Text) (chatId : ℤ) (event : Event) : Prop :=
  ∃ request, linked crypto tables event = some (chatId, request) ∧ request.wallet = wallet

theorem delete_cases (crypto : Crypto) (request : DeleteRequest) (links : List Link) :
    (delete crypto request links).1 = links ∧
        (∀ wallet chatId, ¬Unlinks crypto wallet chatId (.deleted request)) ∨
      ∃ proved : Proved, (∀ wallet chatId, Unlinks crypto wallet chatId (.deleted request) ↔
          proved.signed.wallet = wallet) ∧
        (delete crypto request links).1 = revoke (·.wallet = proved.signed.wallet) request.revokedAt links := by
  unfold delete
  cases hsigned : signedRequest crypto request.body .unlink request.domain request.checkedAt with
  | error refusal =>
    refine .inl ⟨rfl, fun wallet chatId hunlinks => ?_⟩
    cases hunlinks with
    | deleted signed => simp [hsigned] at signed
  | ok proved =>
    refine .inr ⟨proved, fun wallet chatId => ⟨fun hunlinks => ?_, .deleted hsigned⟩, rfl⟩
    cases hunlinks with
    | deleted signed own =>
      rw [hsigned] at signed
      cases signed
      exact own

theorem active_step : Active (tables.step crypto event).links wallet chatId ↔
    Links crypto tables wallet chatId event ∨
      Active tables.links wallet chatId ∧ ¬Unlinks crypto wallet chatId event := by
  cases event with
  | posted request =>
    have hkeeps : ¬Unlinks crypto wallet chatId (.posted request) := by rintro ⟨⟩
    simp [Tables.step, Links, linked, hkeeps]
  | deleted request =>
    have hnone : ¬Links crypto tables wallet chatId (.deleted request) := by simp [Links, linked]
    rw [iff_false_intro hnone, false_or]
    simp only [Tables.step]
    rcases delete_cases crypto request tables.links with ⟨hsame, hkeeps⟩ | ⟨proved, hunlinks, hrevoked⟩
    · rw [hsame]
      exact (and_iff_left (hkeeps wallet chatId)).symm
    · rw [hrevoked, hunlinks]
      exact active_revoke_of fun link _ hkey => by rw [decide_eq_true_iff, hkey.1, eq_comm]
  | received message now =>
    simp only [Tables.step, Links]
    rcases receive_cases crypto message now tables with ⟨hsame, hnone, hkeeps⟩ |
      ⟨request, text, token, -, -, -, hlinked, hkeeps, hspent⟩ | ⟨hnone, hunlinks, hrevoked⟩
    · simp [hsame, hnone, hkeeps]
    · rw [hspent, hlinked, active_upsert rfl]
      simp [LinkRequest.linkTo, hkeeps, and_comm]
    · have hiff : Unlinks crypto wallet chatId (.received message now) ↔ message.chatId = chatId := by
        constructor
        · rintro ⟨⟩
          assumption
        · rintro rfl
          exact hunlinks wallet
      rw [hrevoked, hnone, hiff]
      simp only [reduceCtorEq, false_and, exists_false, false_or]
      exact active_revoke_of fun link _ hkey => by rw [decide_eq_true_iff, hkey.2, eq_comm]
  | blocked blocking now =>
    have hnone : ¬Links crypto tables wallet chatId (.blocked blocking now) := by simp [Links, linked]
    have hiff : Unlinks crypto wallet chatId (.blocked blocking now) ↔ blocking = chatId := by
      constructor
      · rintro ⟨⟩
        rfl
      · rintro rfl
        exact .blocked now
    rw [iff_false_intro hnone, false_or, hiff]
    exact active_revoke_of fun link _ hkey => by rw [decide_eq_true_iff, hkey.2, eq_comm]

/-- A chat is linked to a wallet exactly when it spent a request of the wallet's and nothing since has
unlinked the two. -/
theorem active_iff_linked_since : Active (after crypto events).links wallet chatId ↔
    ∃ later event earlier, events = later ++ event :: earlier ∧
      Links crypto (after crypto earlier) wallet chatId event ∧
      ∀ other ∈ later, ¬Unlinks crypto wallet chatId other := by
  induction events with
  | nil => simp [after, Tables.empty, Active]
  | cons newest events ih =>
    rw [after, active_step, ih]
    constructor
    · rintro (hlinks | ⟨⟨later, event, earlier, rfl, hlinks, hkept⟩, hkeeps⟩)
      · exact ⟨[], newest, events, rfl, hlinks, List.forall_mem_nil _⟩
      · exact ⟨newest :: later, event, earlier, rfl, hlinks, List.forall_mem_cons.mpr ⟨hkeeps, hkept⟩⟩
    · rintro ⟨later, event, earlier, heq, hlinks, hkept⟩
      cases later with
      | nil =>
        cases heq
        exact .inl hlinks
      | cons first later =>
        cases heq
        rcases List.forall_mem_cons.mp hkept with ⟨hkeeps, hkept⟩
        exact .inr ⟨⟨later, event, earlier, rfl, hlinks, hkept⟩, hkeeps⟩

/-- What holds of the requests once so much was linked: their signatures and their tokens differ, and
what was linked was spent, each signature once. -/
structure Spent (requests : List LinkRequest) (linkings : List (ℤ × LinkRequest)) : Prop where
  signatures : (requests.map LinkRequest.signature).Nodup
  tokens : (requests.map LinkRequest.tokenHash).Nodup
  used : ∀ linking ∈ linkings, ∃ row ∈ requests, row.signature = linking.2.signature ∧
    row.usedAt.isSome = true
  once : (linkings.map fun linking => linking.2.signature).Nodup

theorem map_spend {α : Type} {field : LinkRequest → α}
    (hfield : ∀ (row : LinkRequest) usedAt, field { row with usedAt := usedAt } = field row) :
    (spend crypto token now requests).map field = requests.map field := by
  unfold spend
  rw [List.map_map]
  apply List.map_congr_left
  intro row _
  dsimp only [Function.comp]
  split
  · exact hfield row _
  · rfl

theorem Spent.spend {linkings : List (ℤ × LinkRequest)} (h : Spent requests linkings)
    (hfind : requests.find? (spendable crypto token now) = some request) (chatId : ℤ) :
    Spent (Telegram.spend crypto token now requests) ((chatId, request) :: linkings) := by
  have hmem := List.mem_of_find?_eq_some hfind
  have hspendable := List.find?_some hfind
  have hunused := (spendable_iff.mp hspendable).2.1
  refine ⟨?_, ?_, ?_, ?_⟩
  · rw [map_spend fun _ _ => rfl]
    exact h.signatures
  · rw [map_spend fun _ _ => rfl]
    exact h.tokens
  · intro linking hlinking
    rcases List.mem_cons.mp hlinking with rfl | hold
    · refine ⟨_, List.mem_map_of_mem hmem, ?_⟩
      rw [if_pos hspendable]
      exact ⟨rfl, rfl⟩
    · rcases h.used linking hold with ⟨row, hrow, hsignature, hused⟩
      refine ⟨_, List.mem_map_of_mem hrow, ?_⟩
      split
      · exact ⟨hsignature, rfl⟩
      · exact ⟨hsignature, hused⟩
  · refine List.nodup_cons.mpr ⟨fun hagain => ?_, h.once⟩
    rcases List.mem_map.mp hagain with ⟨linking, hlinking, hsame⟩
    rcases h.used linking hlinking with ⟨row, hrow, hsignature, hused⟩
    have heq : row = request := List.inj_on_of_nodup_map h.signatures hrow hmem (hsignature.trans hsame)
    rw [heq, hunused] at hused
    cases hused

theorem post_cases (crypto : Crypto) (posted : PostRequest) (requests : List LinkRequest) :
    (post crypto posted requests).1 = requests ∨
      ∃ (proved : Proved) (row : LinkRequest),
        signedRequest crypto posted.body .link posted.domain posted.checkedAt = .ok proved ∧
        row = ⟨crypto.sha256Hex (linkToken posted.random), proved.signed.wallet, proved.locale,
          proved.message, proved.signed.signature, posted.recordedAt + linkTokenTtlMs, none⟩ ∧
        (∀ other ∈ requests, other.signature ≠ row.signature ∧ other.tokenHash ≠ row.tokenHash) ∧
        (post crypto posted requests).1 = row :: requests := by
  unfold post
  cases posted.bot with
  | none => exact .inl rfl
  | some bot =>
    cases hsigned : signedRequest crypto posted.body .link posted.domain posted.checkedAt with
    | error refusal => exact .inl rfl
    | ok proved =>
      dsimp only
      split
      · exact .inl rfl
      · rename_i hsignature
        split
        · exact .inl rfl
        · rename_i htoken
          refine .inr ⟨proved, _, rfl, rfl, fun other hother => ⟨fun hsame => ?_, fun hsame => ?_⟩, rfl⟩
          · exact hsignature (List.any_eq_true.mpr ⟨other, hother, decide_eq_true hsame⟩)
          · exact htoken (List.any_eq_true.mpr ⟨other, hother, decide_eq_true hsame⟩)

theorem Spent.post {linkings : List (ℤ × LinkRequest)} (h : Spent requests linkings)
    (posted : PostRequest) : Spent (Telegram.post crypto posted requests).1 linkings := by
  rcases post_cases crypto posted requests with hsame | ⟨proved, row, -, -, hfresh, hadded⟩
  · rw [hsame]
    exact h
  · rw [hadded]
    refine ⟨List.nodup_cons.mpr ⟨fun hagain => ?_, h.signatures⟩,
      List.nodup_cons.mpr ⟨fun hagain => ?_, h.tokens⟩, fun linking hlinking => ?_, h.once⟩
    · rcases List.mem_map.mp hagain with ⟨other, hother, hsame⟩
      exact (hfresh other hother).1 hsame
    · rcases List.mem_map.mp hagain with ⟨other, hother, hsame⟩
      exact (hfresh other hother).2 hsame
    · rcases h.used linking hlinking with ⟨other, hother, hrest⟩
      exact ⟨other, List.mem_cons_of_mem row hother, hrest⟩

theorem spent_after (events : List Event) : Spent (after crypto events).requests (linkings crypto events) := by
  induction events with
  | nil => exact ⟨List.nodup_nil, List.nodup_nil, List.forall_mem_nil _, List.nodup_nil⟩
  | cons event events ih =>
    cases event with
    | posted request => exact ih.post request
    | deleted request => exact ih
    | received message now =>
      rw [after, linkings]
      simp only [Tables.step]
      rcases receive_cases crypto message now (after crypto events) with ⟨hsame, hnone, -⟩ |
        ⟨request, text, token, -, -, hfind, hlinked, -, hspent⟩ | ⟨hnone, -, hrevoked⟩
      · rw [hsame, hnone]
        exact ih
      · rw [hspent, hlinked]
        exact ih.spend hfind message.chatId
      · rw [hrevoked, hnone]
        exact ih
    | blocked chatId now => exact ih

/-- A signed request links one chat at most, once. -/
theorem request_links_once (crypto : Crypto) (events : List Event) :
    ((linkings crypto events).map fun linking => linking.2.signature).Nodup :=
  (spent_after events).once

structure Asks (crypto : Crypto) (posted : PostRequest) (row : LinkRequest) : Prop where
  signs : ∃ issuedAt, Signs crypto.verifySignature ⟨row.wallet, issuedAt, row.signature⟩
    (telegramLinkMessage row.locale .link ⟨posted.domain, row.wallet, issuedAt⟩) posted.checkedAt
  token : row.tokenHash = crypto.sha256Hex (linkToken posted.random)
  expires : row.expiresAt = posted.recordedAt + linkTokenTtlMs

theorem signedRequest_eq_ok {body : Body} {action : Action} {domain : Text} {proved : Proved}
    (h : signedRequest crypto body action domain now = .ok proved) :
    Signs crypto.verifySignature proved.signed proved.message now ∧ proved.message =
      telegramLinkMessage proved.locale action ⟨domain, proved.signed.wallet, proved.signed.issuedAt⟩ := by
  cases body with
  | tooLarge => cases h
  | notJson => cases h
  | fields locale wallet issuedAt signature =>
    unfold signedRequest at h
    dsimp only at h
    split at h
    · cases h
    · split at h
      · split at h
        · cases h
        · rename_i hproblem
          cases h
          exact ⟨signatureProblem_eq_none.mp hproblem, rfl⟩
      · cases h

theorem signedRequest_of_signs {action : Action} {locale domain wallet issuedAt signature : Text}
    {read : Signed.Locale} (hlocale : readLocale locale = some read)
    (h : Signs crypto.verifySignature ⟨wallet, issuedAt, signature⟩
      (telegramLinkMessage read action ⟨domain, wallet, issuedAt⟩) now) :
    signedRequest crypto (.fields (some locale) (some wallet) (some issuedAt) (some signature)) action domain
      now = .ok ⟨⟨wallet, issuedAt, signature⟩, read,
        telegramLinkMessage read action ⟨domain, wallet, issuedAt⟩⟩ := by
  unfold signedRequest
  simp only [Option.bind_some, hlocale, signatureProblem_eq_none.mpr h]

theorem post_of_ok {posted : PostRequest} {bot : Text} {proved : Proved} (hbot : posted.bot = some bot)
    (h : signedRequest crypto posted.body .link posted.domain posted.checkedAt = .ok proved) :
    (post crypto posted []).1 = [⟨crypto.sha256Hex (linkToken posted.random), proved.signed.wallet,
      proved.locale, proved.message, proved.signed.signature, posted.recordedAt + linkTokenTtlMs, none⟩] := by
  unfold post
  rw [hbot, h]
  rfl

theorem requests_asked (h : row ∈ (after crypto events).requests) :
    ∃ newer posted older, events = newer ++ .posted posted :: older ∧ Asks crypto posted row := by
  induction events generalizing row with
  | nil => cases h
  | cons event events ih =>
    have hold (row : LinkRequest) (hrow : row ∈ (after crypto events).requests) : ∃ newer posted older,
        event :: events = newer ++ .posted posted :: older ∧ Asks crypto posted row := by
      rcases ih hrow with ⟨newer, posted, older, rfl, hasks⟩
      exact ⟨event :: newer, posted, older, rfl, hasks⟩
    cases event with
    | posted posted =>
      simp only [after, Tables.step] at h
      rcases post_cases crypto posted (after crypto events).requests with hsame |
        ⟨proved, added, hsigned, hadded, -, hposted⟩
      · rw [hsame] at h
        exact hold row h
      · rw [hposted] at h
        rcases List.mem_cons.mp h with rfl | hrow
        · rcases signedRequest_eq_ok hsigned with ⟨hsigns, hmessage⟩
          rw [hmessage] at hsigns
          subst hadded
          exact ⟨[], posted, events, rfl, ⟨proved.signed.issuedAt, hsigns⟩, rfl, rfl⟩
        · exact hold row hrow
    | deleted request => exact hold row h
    | received message now =>
      simp only [after, Tables.step] at h
      rcases receive_cases crypto message now (after crypto events) with ⟨hsame, -, -⟩ |
        ⟨request, text, token, -, -, -, -, -, hspent⟩ | ⟨-, -, hrevoked⟩
      · rw [hsame] at h
        exact hold row h
      · rw [hspent] at h
        rcases List.mem_map.mp h with ⟨old, hmem, rfl⟩
        rcases hold old hmem with ⟨newer, posted, older, heq, hasks⟩
        refine ⟨newer, posted, older, heq, ?_⟩
        split
        · exact ⟨hasks.signs, hasks.token, hasks.expires⟩
        · exact hasks
      · rw [hrevoked] at h
        exact hold row h
    | blocked chatId now => exact hold row h

structure Authorises (crypto : Crypto) (posted : PostRequest) (message : Message) (link : Link) : Prop where
  signs : ∃ issuedAt, Signs crypto.verifySignature ⟨link.wallet, issuedAt, link.messageSignature⟩
    (telegramLinkMessage link.locale .link ⟨posted.domain, link.wallet, issuedAt⟩) posted.checkedAt
  opens : ∃ text token, message.heard = some text ∧ startToken (trim text) = some token ∧
    crypto.sha256Hex token = crypto.sha256Hex (linkToken posted.random)
  chat : message.chatId = link.chatId
  timely : link.linkedAt < posted.recordedAt + linkTokenTtlMs

theorem mem_revoke (h : link ∈ revoke kind now links) :
    ∃ old ∈ links, link = { old with revokedAt := link.revokedAt } := by
  rcases List.mem_map.mp h with ⟨old, hold, rfl⟩
  refine ⟨old, hold, ?_⟩
  split <;> rfl

theorem mem_upsert (h : link ∈ upsert link' links) : link = link' ∨ link ∈ links := by
  unfold upsert at h
  split at h
  · rcases List.mem_map.mp h with ⟨old, hold, rfl⟩
    split
    · exact .inl rfl
    · exact .inr hold
  · exact List.mem_cons.mp h

/-- Every link rests on a post its wallet signed for this, which the chat's own message spent in time,
in that order. -/
theorem links_authorised (h : link ∈ (after crypto events).links) :
    ∃ newer message middle posted older,
      events = newer ++ .received message link.linkedAt :: (middle ++ .posted posted :: older) ∧
      Authorises crypto posted message link := by
  induction events generalizing link with
  | nil => cases h
  | cons event events ih =>
    have hold (old : Link) (hmem : old ∈ (after crypto events).links)
        (hsame : link = { old with revokedAt := link.revokedAt }) : ∃ newer message middle posted older,
        event :: events = newer ++ .received message link.linkedAt :: (middle ++ .posted posted :: older) ∧
          Authorises crypto posted message link := by
      rcases ih hmem with ⟨newer, message, middle, posted, older, hevents, hauthorises⟩
      rw [hsame]
      exact ⟨event :: newer, message, middle, posted, older, congrArg (List.cons event) hevents,
        hauthorises.signs, hauthorises.opens, hauthorises.chat, hauthorises.timely⟩
    have hrevoke (kind : Link → Bool) (now : ℤ) (hmem : link ∈ revoke kind now (after crypto events).links) :
        ∃ newer message middle posted older,
          event :: events = newer ++ .received message link.linkedAt :: (middle ++ .posted posted :: older) ∧
          Authorises crypto posted message link := by
      rcases mem_revoke hmem with ⟨old, hmem, hsame⟩
      exact hold old hmem hsame
    cases event with
    | posted posted => exact hold link h rfl
    | deleted request =>
      simp only [after, Tables.step] at h
      rcases delete_cases crypto request (after crypto events).links with ⟨hsame, -⟩ | ⟨proved, -, hrevoked⟩
      · rw [hsame] at h
        exact hold link h rfl
      · rw [hrevoked] at h
        exact hrevoke _ _ h
    | received message now =>
      simp only [after, Tables.step] at h
      rcases receive_cases crypto message now (after crypto events) with ⟨hsame, -, -⟩ |
        ⟨request, text, token, hheard, htoken, hfind, -, -, hspent⟩ | ⟨-, -, hrevoked⟩
      · rw [hsame] at h
        exact hold link h rfl
      · rw [hspent] at h
        rcases mem_upsert h with rfl | hmem
        · rcases spendable_iff.mp (List.find?_some hfind) with ⟨hhash, -, htimely⟩
          rcases requests_asked (List.mem_of_find?_eq_some hfind) with ⟨middle, posted, older, rfl, hasks⟩
          rw [hasks.expires] at htimely
          exact ⟨[], message, middle, posted, older, rfl, hasks.signs,
            ⟨text, token, hheard, htoken, hhash.symm.trans hasks.token⟩, rfl, htimely⟩
        · exact hold link hmem rfl
      · rw [hrevoked] at h
        exact hrevoke _ _ h
    | blocked chatId now =>
      exact hrevoke _ _ h

end

namespace LinkRehearsal

/-- A wallet's key, and its signature of the text below. -/
def key : Pubkey :=
  ⟨#[3, 161, 7, 191, 243, 206, 16, 190, 29, 112, 221, 24, 231, 75, 192, 153, 103, 228, 214, 48, 155, 165, 13,
    95, 29, 220, 134, 100, 18, 85, 49, 184], rfl⟩

def signatureBytes : List UInt8 :=
  [214, 253, 12, 177, 51, 141, 141, 1, 46, 102, 135, 55, 213, 6, 59, 11, 123, 120, 118, 244, 135, 215, 19, 148,
    99, 95, 71, 44, 6, 164, 173, 41, 154, 140, 173, 78, 219, 235, 125, 166, 82, 210, 95, 209, 21, 164, 209, 131,
    168, 153, 234, 79, 5, 248, 183, 229, 85, 178, 61, 247, 2, 151, 88, 5]

def asked : Asked :=
  ⟨"app.laterite.cash".toList, base58 key.toList, "2026-01-05T12:00:00.000Z".toList⟩

def crypto : Crypto where
  verifySignature publicKey bytes message := decide (publicKey = key ∧ bytes = signatureBytes ∧
    message = utf8 (telegramLinkMessage .en .link asked))
  sha256Hex token :=
    if token = "BwcHBwcHBwcHBwcHBwcHBwcHBwcHBwcHBwcHBwcHBwc".toList then
      "dc4bf80c77473d130fa0de86ba4018fe98bb214005e6a5891d12ba91446f9e81".toList
    else []

def posted : PostRequest where
  bot := some "LateriteBot".toList
  body := .fields (some "en".toList) (some asked.wallet) (some asked.issuedAt)
    (some (base58 signatureBytes))
  domain := asked.domain
  checkedAt := 1767614402000
  recordedAt := 1767614402100
  random := Vector.replicate 32 7

def started : Message :=
  ⟨77, true, some "en".toList, some "/start BwcHBwcHBwcHBwcHBwcHBwcHBwcHBwcHBwcHBwcHBwc".toList⟩

theorem verifies (publicKey : Pubkey) (bytes message : List UInt8) :
    crypto.verifySignature publicKey bytes message = true ↔ publicKey = key ∧ bytes = signatureBytes ∧
      message = utf8 (telegramLinkMessage .en .link asked) := decide_eq_true_iff

theorem problem_none : signatureProblem crypto.verifySignature
    ⟨asked.wallet, asked.issuedAt, base58 signatureBytes⟩ (telegramLinkMessage .en .link asked)
    1767614402000 = none := by
  have hkey : addressKey asked.wallet = some key := addressKey_base58 (by decide +kernel)
  exact signatureProblem_eq_none.mpr ⟨⟨key, signatureBytes, hkey, fromBase58_base58 _, rfl,
    (verifies _ _ _).mpr ⟨rfl, rfl, rfl⟩⟩, 1767614400000, by decide +kernel, by decide⟩

theorem signed : signedRequest crypto posted.body .link posted.domain posted.checkedAt =
    .ok ⟨⟨asked.wallet, asked.issuedAt, base58 signatureBytes⟩, .en, telegramLinkMessage .en .link asked⟩ :=
  signedRequest_of_signs (by decide) (signatureProblem_eq_none.mp problem_none)

def request : LinkRequest :=
  ⟨crypto.sha256Hex (linkToken posted.random), asked.wallet, .en, telegramLinkMessage .en .link asked,
    base58 signatureBytes, posted.recordedAt + linkTokenTtlMs, none⟩

theorem after_posted : after crypto [.posted posted] = ⟨[request], []⟩ := by
  have hpost : (post crypto posted []).1 = [request] := post_of_ok rfl signed
  rw [after, Tables.step, after, Tables.empty, hpost]

theorem linked_started : linked crypto ⟨[request], []⟩ (.received started 1767614460000) =
    some (77, request) := by
  have hspendable : spendable crypto "BwcHBwcHBwcHBwcHBwcHBwcHBwcHBwcHBwcHBwcHBwc".toList 1767614460000
      request = true := by
    have htoken : linkToken posted.random = "BwcHBwcHBwcHBwcHBwcHBwcHBwcHBwcHBwcHBwcHBwc".toList := by
      decide +kernel
    exact spendable_iff.mpr ⟨congrArg crypto.sha256Hex htoken, rfl, by decide⟩
  rw [linked_eq_some]
  refine ⟨started, 1767614460000, "/start BwcHBwcHBwcHBwcHBwcHBwcHBwcHBwcHBwcHBwcHBwc".toList, _, rfl, by decide,
    ?_, rfl, List.find?_cons_of_pos hspendable⟩
  decide +kernel

/-- A wallet's request, and the chat that opens its link a minute later. -/
def events : List Event := [.received started 1767614460000, .posted posted]

theorem linked_events : Active (after crypto events).links request.wallet 77 := by
  rw [events, after, after_posted, active_step]
  exact .inl ⟨request, linked_started, rfl⟩

end LinkRehearsal

open LinkRehearsal in
theorem links_authorised_started : ∃ link ∈ (after crypto events).links, link.chatId = 77 ∧
    ∃ newer message middle posted older,
      events = newer ++ Event.received message link.linkedAt :: (middle ++ Event.posted posted :: older) ∧
      Authorises crypto posted message link := by
  rcases linked_events with ⟨link, hlink, hkey, -⟩
  exact ⟨link, hlink, hkey.2, links_authorised hlink⟩

end Laterite.Telegram
