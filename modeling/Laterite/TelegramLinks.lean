import Laterite.SignedTexts
import Mathlib.Data.List.Nodup

/-!
# Linking Telegram chats to wallets

A wallet signs a text, the site records the request under the hash of a one-time token, and the chat
that sends the bot that token in time is linked to the wallet. The site, the bot and the notices act on
the same tables in any order. A link stands on a request its wallet signed, a request links one chat at
most, and what is unlinked stays so until another request is spent.
-/

namespace Laterite.Telegram

open TextEncodings Signed

structure LinkRequest where
  tokenHash : Text
  wallet : Text
  locale : Signed.Locale
  message : Text
  signature : Text
  expiresAt : ℤ
  usedAt : Option ℤ
  deriving DecidableEq

structure Link where
  wallet : Text
  chatId : ℤ
  messageSignature : Text
  linkedAt : ℤ
  revokedAt : Option ℤ
  locale : Signed.Locale
  deriving DecidableEq

structure Tables where
  requests : List LinkRequest
  links : List Link

def Tables.empty : Tables := ⟨[], []⟩

def Link.isActive (self : Link) : Bool := self.revokedAt.isNone

/-- What the site and the bot use of cryptography. -/
structure Crypto where
  verifySignature : Pubkey → List UInt8 → List UInt8 → Bool
  sha256Hex : Text → Text

/-- How long a request's link works. -/
def linkTokenTtlMs : ℤ := 10 * 60 * 1000

def base64url (bytes : List UInt8) : Text :=
  ((base64 bytes).filter (· ≠ '=')).map fun c => if c = '+' then '-' else if c = '/' then '_' else c

def linkToken (random : Vector UInt8 32) : Text := base64url random.toList

def revoke (kind : Link → Bool) (now : ℤ) (links : List Link) : List Link :=
  links.map fun link => if kind link && link.isActive then { link with revokedAt := some now } else link

inductive Body where
  | tooLarge
  | notJson
  | fields (locale wallet issuedAt signature : Option Text)

def readLocale (text : Text) : Option Signed.Locale :=
  if text = "en".toList then some .en else if text = "es-AR".toList then some .esAR else none

structure Refusal where
  error : String
  status : ℕ

structure Proved where
  signed : SignedText
  locale : Signed.Locale
  message : Text

def signedRequest (crypto : Crypto) (body : Body) (action : Action) (domain : Text) (now : ℤ) :
    Except Refusal Proved :=
  match body with
  | .tooLarge => .error ⟨"the body is too large", 413⟩
  | .notJson => .error ⟨"the body is not JSON", 400⟩
  | .fields locale wallet issuedAt signature =>
    match locale.bind readLocale with
    | none => .error ⟨"locale is not supported", 400⟩
    | some locale =>
      match wallet, issuedAt, signature with
      | some wallet, some issuedAt, some signature =>
        let signed : SignedText := ⟨wallet, issuedAt, signature⟩
        let message := telegramLinkMessage locale action ⟨domain, wallet, issuedAt⟩
        match signatureProblem crypto.verifySignature signed message now with
        | some problem => .error ⟨problem, 400⟩
        | none => .ok ⟨signed, locale, message⟩
      | _, _, _ => .error ⟨"wallet, issuedAt and signature are required", 400⟩

/-- A request to link: what the site reads of it, the moments it reads its clock at and the token's
random bytes. -/
structure PostRequest where
  bot : Option Text
  body : Body
  domain : Text
  checkedAt : ℤ
  recordedAt : ℤ
  random : Vector UInt8 32

structure DeleteRequest where
  body : Body
  domain : Text
  checkedAt : ℤ
  revokedAt : ℤ

inductive PostAnswer where
  | refused (refusal : Refusal)
  | created (expiresAt : ℤ) (bot token : Text)
  | thrown

def post (crypto : Crypto) (request : PostRequest) (requests : List LinkRequest) :
    List LinkRequest × PostAnswer :=
  match request.bot with
  | none => (requests, .refused ⟨"Telegram is not configured", 503⟩)
  | some bot =>
    match signedRequest crypto request.body .link request.domain request.checkedAt with
    | .error refusal => (requests, .refused refusal)
    | .ok proved =>
      let token := linkToken request.random
      let expiresAt := request.recordedAt + linkTokenTtlMs
      let row : LinkRequest := ⟨crypto.sha256Hex token, proved.signed.wallet, proved.locale,
        proved.message, proved.signed.signature, expiresAt, none⟩
      if requests.any (·.signature = row.signature) then
        (requests, .refused ⟨"the signature was already used", 409⟩)
      else if requests.any (·.tokenHash = row.tokenHash) then (requests, .thrown)
      else (row :: requests, .created expiresAt bot token)

def delete (crypto : Crypto) (request : DeleteRequest) (links : List Link) :
    List Link × Option Refusal :=
  match signedRequest crypto request.body .unlink request.domain request.checkedAt with
  | .error refusal => (links, some refusal)
  | .ok proved => (revoke (·.wallet = proved.signed.wallet) request.revokedAt links, none)

/-- White space, as texts are trimmed of it. -/
def isSpace (c : Char) : Bool :=
  c ∈ ['\t', '\n', Char.ofNat 11, Char.ofNat 12, '\r', ' ', Char.ofNat 0xa0, Char.ofNat 0x1680,
    Char.ofNat 0x2028, Char.ofNat 0x2029, Char.ofNat 0x202f, Char.ofNat 0x205f, Char.ofNat 0x3000,
    Char.ofNat 0xfeff] || 0x2000 ≤ c.toNat && c.toNat ≤ 0x200a

def trim (text : Text) : Text := ((text.dropWhile isSpace).reverse.dropWhile isSpace).reverse

/-- What follows a command, with or without the bot's name; none when it is not that command. -/
def afterCommand (command : String) (text : Text) : Option Text :=
  (stripPrefix command.toList text).bind fun rest =>
    match rest with
    | '@' :: named => if named.takeWhile isWord = [] then none else some (named.dropWhile isWord)
    | rest => some rest

def startToken (text : Text) : Option Text :=
  (afterCommand "/start" text).bind fun rest =>
    let token := rest.dropWhile isSpace
    if rest.takeWhile isSpace ≠ [] ∧ 1 ≤ token.length ∧ token.length ≤ 64 ∧
        token.all (fun c => isWord c || c = '-') then some token
    else none

def isUnlink (text : Text) : Bool := afterCommand "/unlink" text = some []

structure Message where
  chatId : ℤ
  isPrivate : Bool
  languageCode : Option Text
  text : Option Text

def localeOf (languageCode : Option Text) : Signed.Locale :=
  if languageCode.any fun code => (stripPrefix "es".toList code).isSome then .esAR else .en

inductive Reply where
  | linked (wallet : Text)
  | expired
  | unlinked
  | notLinked
  | welcome

def spendable (crypto : Crypto) (token : Text) (now : ℤ) (request : LinkRequest) : Bool :=
  request.tokenHash = crypto.sha256Hex token && request.usedAt.isNone && now < request.expiresAt

def upsert (link : Link) (links : List Link) : List Link :=
  if links.any fun other => other.wallet = link.wallet && other.chatId = link.chatId then
    links.map fun other =>
      if other.wallet = link.wallet && other.chatId = link.chatId then link else other
  else link :: links

def spend (crypto : Crypto) (token : Text) (now : ℤ) (requests : List LinkRequest) : List LinkRequest :=
  requests.map fun other =>
    if spendable crypto token now other then { other with usedAt := some now } else other

/-- Spends the request whose token this is, and links the chat to its wallet. -/
def link (crypto : Crypto) (chatId : ℤ) (token : Text) (now : ℤ) (tables : Tables) :
    Tables × Option LinkRequest :=
  match tables.requests.find? (spendable crypto token now) with
  | none => (tables, none)
  | some request =>
    (⟨spend crypto token now tables.requests,
      upsert ⟨request.wallet, chatId, request.signature, now, none, request.locale⟩ tables.links⟩,
    some request)

def answer (crypto : Crypto) (message : Message) (text : Text) (now : ℤ) (tables : Tables) :
    Tables × Signed.Locale × Reply :=
  let text := trim text
  match startToken text with
  | some token =>
    match link crypto message.chatId token now tables with
    | (tables, some request) => (tables, request.locale, .linked request.wallet)
    | (tables, none) => (tables, localeOf message.languageCode, .expired)
  | none =>
    if isUnlink text then
      let revoked := tables.links.filter fun link => link.chatId = message.chatId && link.isActive
      let links := revoke (·.chatId = message.chatId) now tables.links
      match revoked with
      | [] => (⟨tables.requests, links⟩, localeOf message.languageCode, .notLinked)
      | link :: _ => (⟨tables.requests, links⟩, link.locale, .unlinked)
    else (tables, localeOf message.languageCode, .welcome)

/-- The text the bot answers: groups and messages without one are ignored. -/
def Message.heard (self : Message) : Option Text :=
  if self.isPrivate then self.text.filter (· ≠ []) else none

def receive (crypto : Crypto) (message : Message) (now : ℤ) (tables : Tables) :
    Tables × Option (Signed.Locale × Reply) :=
  match message.heard with
  | none => (tables, none)
  | some text =>
    let (tables, reply) := answer crypto message text now tables
    (tables, some reply)

/-- What happens to the tables: the site and the bot at work, and a chat found to block the bot. -/
inductive Event where
  | posted (request : PostRequest)
  | deleted (request : DeleteRequest)
  | received (message : Message) (now : ℤ)
  | blocked (chatId : ℤ) (now : ℤ)

def Tables.step (crypto : Crypto) (tables : Tables) : Event → Tables
  | .posted request => ⟨(post crypto request tables.requests).1, tables.links⟩
  | .deleted request => ⟨tables.requests, (delete crypto request tables.links).1⟩
  | .received message now => (receive crypto message now tables).1
  | .blocked chatId now => ⟨tables.requests, revoke (·.chatId = chatId) now tables.links⟩

def after (crypto : Crypto) : List Event → Tables
  | [] => .empty
  | event :: earlier => (after crypto earlier).step crypto event

def linked (crypto : Crypto) (tables : Tables) : Event → Option (ℤ × LinkRequest)
  | .received message now => do
    let text ← message.heard
    let token ← startToken (trim text)
    let request ← tables.requests.find? (spendable crypto token now)
    some (message.chatId, request)
  | _ => none

/-- Every chat linked and request spent over events, the latest first. -/
def linkings (crypto : Crypto) : List Event → List (ℤ × LinkRequest)
  | [] => []
  | event :: earlier => (linked crypto (after crypto earlier) event).toList ++ linkings crypto earlier

end Laterite.Telegram
