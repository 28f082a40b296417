import Laterite.GregorianCalendar
import Laterite.ProgramConstants
import Laterite.TextEncodings
import Mathlib.Data.List.GetD
import Mathlib.Data.List.TakeWhile

/-!
# Texts a wallet signs

A request that only a wallet may make carries its signature of a text rebuilt from the request: what
is asked, for which site, by which wallet and when. The text of a request is no other request's, so a
signature given for one is checked against nothing else.
-/

namespace Laterite.Signed

open TextEncodings

def fromBase58 (text : Text) : Option (List UInt8) :=
  if text.all (· ∈ base58Alphabet) then
    some (List.replicate (text.takeWhile (· = '1')).length 0 ++
      ((Nat.digits 256 (base58Value text)).map UInt8.ofNat).reverse)
  else none

theorem mem_base58Alphabet {c : Char} {bytes : List UInt8} (h : c ∈ base58 bytes) : c ∈ base58Alphabet := by
  rcases List.mem_append.mp h with hzero | hdigit
  · rw [(List.mem_replicate.mp hzero).2]
    decide
  · rcases List.mem_map.mp (List.mem_reverse.mp hdigit) with ⟨digit, hmem, rfl⟩
    have hlt : digit < base58Alphabet.length := Nat.digits_lt_base (b := 58) (by decide) hmem
    unfold base58Digit
    rw [List.getD_eq_getElem _ _ hlt]
    exact List.getElem_mem hlt

theorem base58Digit_eq_one {digit : ℕ} (h : digit < 58) : base58Digit digit = '1' ↔ digit = 0 := by
  have hall : ∀ digit < 58, base58Digit digit = '1' ↔ digit = 0 := by decide
  exact hall digit h

/-- A number's digits begin with none that is zero. -/
theorem takeWhile_digits (n : ℕ) :
    ((Nat.digits 58 n).map base58Digit).reverse.takeWhile (· = '1') = [] := by
  rw [← List.map_reverse]
  cases hdigits : (Nat.digits 58 n).reverse with
  | nil => rfl
  | cons digit digits =>
    have hne : Nat.digits 58 n ≠ [] := fun h => by simp [h] at hdigits
    have hlast : (Nat.digits 58 n).getLast hne = digit := by simp [List.getLast_eq_head_reverse, hdigits]
    have hnonzero : digit ≠ 0 := by
      rw [← hlast]
      exact Nat.getLast_digit_ne_zero 58 fun h => hne (by simp [h])
    have hmem : digit ∈ Nat.digits 58 n := by
      rw [← hlast]
      exact List.getLast_mem hne
    simp [base58Digit_eq_one (Nat.digits_lt_base (by decide) hmem), hnonzero]

theorem ofDigits_map_toNat (bytes : List UInt8) :
    Nat.ofDigits 256 (bytes.map UInt8.toNat) = LittleEndian.toNat bytes := by
  induction bytes with
  | nil => rfl
  | cons byte bytes ih =>
    rw [List.map_cons, Nat.ofDigits_cons, ih]
    rfl

/-- Bytes that begin with none that is zero are their number's digits. -/
theorem digits_bigEndian {bytes : List UInt8} (h : ∀ byte ∈ bytes.head?, byte ≠ 0) :
    ((Nat.digits 256 (bigEndian bytes)).map UInt8.ofNat).reverse = bytes := by
  have hdigits : Nat.digits 256 (bigEndian bytes) = bytes.reverse.map UInt8.toNat := by
    unfold bigEndian
    rw [← ofDigits_map_toNat]
    apply Nat.digits_ofDigits 256 (by decide)
    · intro digit hdigit
      rcases List.mem_map.mp hdigit with ⟨byte, -, rfl⟩
      exact byte.toNat_lt
    · intro hne hzero
      cases bytes with
      | nil => exact hne rfl
      | cons byte bytes =>
        simp only [List.reverse_cons, List.map_append, List.map_cons, List.map_nil,
          List.getLast_append_singleton] at hzero
        exact h byte rfl (UInt8.toNat_inj.mp hzero)
  rw [hdigits, List.map_map, ← List.map_reverse, List.reverse_reverse]
  apply (List.map_congr_left _).trans (List.map_id _)
  intro byte _
  exact UInt8.ofNat_toNat

theorem bigEndian_zeros (count : ℕ) (bytes : List UInt8) :
    bigEndian (List.replicate count 0 ++ bytes) = bigEndian bytes := by
  unfold bigEndian
  rw [List.reverse_append, List.reverse_replicate, ← ofDigits_map_toNat, ← ofDigits_map_toNat,
    List.map_append, List.map_replicate, Nat.ofDigits_append]
  rw [show UInt8.toNat 0 = 0 from rfl, ofDigits_replicate_zero, Nat.mul_zero, Nat.add_zero]

/-- Bytes are read back from their text. -/
theorem fromBase58_base58 (bytes : List UInt8) : fromBase58 (base58 bytes) = some bytes := by
  have hall : (base58 bytes).all (· ∈ base58Alphabet) = true :=
    List.all_eq_true.mpr fun c hc => decide_eq_true (mem_base58Alphabet hc)
  have hzeros : ((base58 bytes).takeWhile (· = '1')).length = (bytes.takeWhile (· = 0)).length := by
    unfold base58
    rw [List.takeWhile_append_of_pos (by simp), takeWhile_digits, List.append_nil,
      List.length_replicate]
  have hleading : List.replicate (bytes.takeWhile (· = 0)).length 0 = bytes.takeWhile (· = 0) :=
    (List.eq_replicate_of_mem fun byte hbyte =>
      of_decide_eq_true (List.all_eq_true.mp (List.all_takeWhile ..) byte hbyte)).symm
  have hsplit := List.takeWhile_append_dropWhile (p := (· = 0)) (l := bytes)
  have hnumber : bigEndian bytes = bigEndian (bytes.dropWhile (· = 0)) := by
    conv_lhs => rw [← hsplit, ← hleading]
    exact bigEndian_zeros _ _
  have hhead : ∀ byte ∈ (bytes.dropWhile (· = 0)).head?, byte ≠ 0 := by
    intro byte hbyte
    have hfirst := List.head?_dropWhile_not (fun byte : UInt8 => decide (byte = 0)) bytes
    rw [hbyte] at hfirst
    exact of_decide_eq_false hfirst
  rw [fromBase58, if_pos hall, base58Value_base58, hzeros, hnumber, digits_bigEndian hhead, hleading, hsplit]

theorem size_key {bytes : List UInt8} (h : bytes.length = 32) : bytes.toArray.size = 32 :=
  List.size_toArray.trans h

def addressKey (address : Text) : Option Pubkey :=
  if 32 ≤ address.length ∧ address.length ≤ 44 then
    (fromBase58 address).bind fun bytes =>
      if h : bytes.length = 32 then some ⟨bytes.toArray, size_key h⟩ else none
  else none

theorem addressKey_base58 {key : Pubkey}
    (h : 32 ≤ (base58 key.toList).length ∧ (base58 key.toList).length ≤ 44) :
    addressKey (base58 key.toList) = some key := by
  rw [addressKey, if_pos h, fromBase58_base58, Option.bind_some, dif_pos key.length_toList]
  rfl

def number (digits : Text) : Option ℕ :=
  if digits ≠ [] ∧ digits.all Char.isDigit then
    some (digits.foldl (fun n c => 10 * n + (c.toNat - '0'.toNat)) 0)
  else none

/-- The year an ISO time begins with, and what follows it: four digits, or a sign and six for a year
that has none such. -/
def isoYear : Text → Option (ℤ × Text)
  | '+' :: rest => do
    let year ← number (rest.take 6)
    if 9999 < year then some (year, rest.drop 6) else none
  | '-' :: rest => do
    let year ← number (rest.take 6)
    if 0 < year then some (-year, rest.drop 6) else none
  | text => do
    let year ← number (text.take 4)
    some (year, text.drop 4)

def maxTime : ℤ := 8640000000000000

/-- The time, in milliseconds since 1970, that is written so: a date of the calendar and a time of
its day, in universal time. -/
def isoTime (text : Text) : Option ℤ := do
  let (year, rest) ← isoYear text
  match rest with
  | ['-', m₁, m₂, '-', d₁, d₂, 'T', h₁, h₂, ':', n₁, n₂, ':', s₁, s₂, '.', x₁, x₂, x₃, 'Z'] =>
    let month ← number [m₁, m₂]
    let day ← number [d₁, d₂]
    let hour ← number [h₁, h₂]
    let minute ← number [n₁, n₂]
    let second ← number [s₁, s₂]
    let millisecond ← number [x₁, x₂, x₃]
    if h : 1 ≤ month ∧ month ≤ 12 ∧ (1 : ℤ) ≤ day ∧ day ≤ GregorianCalendar.monthLength year month then
      let date : GregorianCalendar.Date := ⟨year, month, day, h.1, h.2.1, h.2.2.1, h.2.2.2⟩
      let time : ℤ := date.dayCount * 86400000 + hour * 3600000 + minute * 60000 + second * 1000 + millisecond
      if hour < 24 ∧ minute < 60 ∧ second < 60 ∧ |time| ≤ maxTime then some time else none
    else none
  | _ => none

/-- How far the issue time may be from the server's clock. -/
def signatureMaxAgeMs : ℤ := 10 * 60 * 1000

structure SignedText where
  wallet : Text
  issuedAt : Text
  signature : Text

/-- A text as the signature covers it. -/
def utf8 (text : Text) : List UInt8 := (String.ofList text).toUTF8.data.toList

section

variable (verifySignature : Pubkey → List UInt8 → List UInt8 → Bool)

def signatureProblem (signed : SignedText) (message : Text) (now : ℤ) : Option String :=
  match addressKey signed.wallet with
  | none => some "wallet is not an address"
  | some key =>
    match isoTime signed.issuedAt with
    | none => some "issuedAt is not an ISO time"
    | some issued =>
      if signatureMaxAgeMs < |now - issued| then some "issuedAt is too far from now"
      else
        match fromBase58 signed.signature with
        | none => some "signature is not base58"
        | some bytes =>
          if bytes.length ≠ 64 then some "signature is not 64 bytes"
          else if verifySignature key bytes (utf8 message) then none
          else some "signature does not match"

/-- The wallet signed the message, naming a time within ten minutes of the moment. -/
structure Signs (signed : SignedText) (message : Text) (now : ℤ) : Prop where
  verified : ∃ key bytes, addressKey signed.wallet = some key ∧ fromBase58 signed.signature = some bytes ∧
    bytes.length = 64 ∧ verifySignature key bytes (utf8 message) = true
  timely : ∃ issued, isoTime signed.issuedAt = some issued ∧ |now - issued| ≤ signatureMaxAgeMs

end

variable {verifySignature : Pubkey → List UInt8 → List UInt8 → Bool}

theorem signatureProblem_eq_none {signed : SignedText} {message : Text} {now : ℤ} :
    signatureProblem verifySignature signed message now = none ↔
      Signs verifySignature signed message now := by
  unfold signatureProblem
  constructor
  · intro h
    split at h
    · cases h
    · rename_i key hkey
      split at h
      · cases h
      · rename_i issued hissued
        split_ifs at h with hfar
        split at h
        · cases h
        · rename_i bytes hbytes
          split_ifs at h with hlength hverified
          exact ⟨⟨key, bytes, hkey, hbytes, not_not.mp hlength, hverified⟩, issued, hissued, not_lt.mp hfar⟩
  · rintro ⟨⟨key, bytes, hkey, hbytes, hlength, hverified⟩, issued, hissued, htimely⟩
    simp [hkey, hissued, hbytes, hlength, hverified, not_lt.mpr htimely]

inductive Locale where
  | en
  | esAR
  deriving DecidableEq

structure Asked where
  domain : Text
  wallet : Text
  issuedAt : Text

/-- What a text to the Telegram bot is for. -/
inductive Action where
  | link
  | unlink
  deriving DecidableEq

def walletLine (locale : Locale) (wallet : Text) : Text :=
  match locale with
  | .en => "Wallet: ".toList ++ wallet
  | .esAR => "Billetera: ".toList ++ wallet

def issuedAtLine (locale : Locale) (issuedAt : Text) : Text :=
  match locale with
  | .en => "Issued at: ".toList ++ issuedAt
  | .esAR => "Emitida el: ".toList ++ issuedAt

def declarationVersion : String := "1"

/-- What a wallet declares. -/
inductive Statement where
  | us
  | residence
  | sanctions

def declarationStatements : List Statement := [.us, .residence, .sanctions]

def statementText : Locale → Statement → String
  | .en, .us => "I am not a U.S. person and I am not in the United States."
  | .en, .residence =>
    "I do not live in the United Kingdom, Canada, Australia, or any country where xStocks are prohibited or not offered."
  | .en, .sanctions => "I am not subject to international sanctions."
  | .esAR, .us => "No soy una persona estadounidense y no estoy en los Estados Unidos."
  | .esAR, .residence =>
    "No vivo en el Reino Unido, Canadá, Australia ni en ningún país donde los xStocks estén prohibidos o no se ofrezcan."
  | .esAR, .sanctions => "No estoy sujeto a sanciones internacionales."

def declarationHeading : Locale → String
  | .en => "Laterite eligibility declaration"
  | .esAR => "Declaración de elegibilidad de Laterite"

def declarationRequest : Locale → String
  | .en => " asks you to declare:"
  | .esAR => " te pide que declares:"

def versionLine : Locale → Text
  | .en => "Version: ".toList ++ declarationVersion.toList
  | .esAR => "Versión: ".toList ++ declarationVersion.toList

def declarationLines (locale : Locale) (asked : Asked) : List Text :=
  (declarationHeading locale).toList :: (asked.domain ++ (declarationRequest locale).toList) ::
    (declarationStatements.map (fun statement => "- ".toList ++ (statementText locale statement).toList) ++
      [walletLine locale asked.wallet, versionLine locale, issuedAtLine locale asked.issuedAt])

def actionText : Locale → Action → String
  | .en, .link =>
    " asks you to link a Telegram chat to this wallet. The chat will get your purchases, goal milestones and skipped days."
  | .en, .unlink => " asks you to unlink every Telegram chat from this wallet."
  | .esAR, .link =>
    " te pide que vincules un chat de Telegram a esta billetera. El chat va a recibir tus compras, los hitos de tu meta y los días sin compra."
  | .esAR, .unlink => " te pide que desvincules todos los chats de Telegram de esta billetera."

def linkHeading : Locale → String
  | .en => "Laterite notifications on Telegram"
  | .esAR => "Notificaciones de Laterite en Telegram"

def telegramLinkLines (locale : Locale) (action : Action) (asked : Asked) : List Text :=
  [(linkHeading locale).toList, asked.domain ++ (actionText locale action).toList,
    walletLine locale asked.wallet, issuedAtLine locale asked.issuedAt]

def joinLines (lines : List Text) : Text := ['\n'].intercalate lines

/-- The text a wallet signs to declare that it may use the app. -/
def declarationMessage (locale : Locale) (asked : Asked) : Text :=
  joinLines (declarationLines locale asked)

/-- The text a wallet signs to link a Telegram chat, or to unlink every one. -/
def telegramLinkMessage (locale : Locale) (action : Action) (asked : Asked) : Text :=
  joinLines (telegramLinkLines locale action asked)

/-- What a wallet may be asked to sign. -/
inductive Purpose where
  | declaration
  | telegram (action : Action)
  deriving DecidableEq

def linesOf (locale : Locale) (asked : Asked) : Purpose → List Text
  | .declaration => declarationLines locale asked
  | .telegram action => telegramLinkLines locale action asked

def messageOf (locale : Locale) (purpose : Purpose) (asked : Asked) : Text :=
  joinLines (linesOf locale asked purpose)

/-- No value breaks its line. -/
structure Asked.OneLine (asked : Asked) : Prop where
  domain : '\n' ∉ asked.domain
  wallet : '\n' ∉ asked.wallet
  issuedAt : '\n' ∉ asked.issuedAt

section

variable {locale locale' : Locale} {asked asked' : Asked} {purpose purpose' : Purpose}

@[simp] theorem length_declarationLines : (declarationLines locale asked).length = 8 := rfl

@[simp] theorem length_telegramLinkLines {action : Action} :
    (telegramLinkLines locale action asked).length = 4 := rfl

theorem linesOf_ne_nil : linesOf locale asked purpose ≠ [] := by
  cases purpose with
  | declaration => exact List.cons_ne_nil _ _
  | telegram action => exact List.cons_ne_nil _ _

theorem notMem_walletLine (h : asked.OneLine) : '\n' ∉ walletLine locale asked.wallet := by
  cases locale with
  | en => exact List.mem_append.not.mpr (not_or.mpr ⟨by decide, h.wallet⟩)
  | esAR => exact List.mem_append.not.mpr (not_or.mpr ⟨by decide, h.wallet⟩)

theorem notMem_issuedAtLine (h : asked.OneLine) : '\n' ∉ issuedAtLine locale asked.issuedAt := by
  cases locale with
  | en => exact List.mem_append.not.mpr (not_or.mpr ⟨by decide, h.issuedAt⟩)
  | esAR => exact List.mem_append.not.mpr (not_or.mpr ⟨by decide, h.issuedAt⟩)

theorem notMem_domain {said : Text} (h : asked.OneLine) (hsaid : '\n' ∉ said) :
    '\n' ∉ asked.domain ++ said :=
  List.mem_append.not.mpr (not_or.mpr ⟨h.domain, hsaid⟩)

theorem notMem_text {chars : List Char} (h : '\n' ∉ chars) : '\n' ∉ (String.ofList chars).toList := by
  rwa [String.toList_ofList]

set_option maxRecDepth 2000 in
theorem notMem_linesOf (h : asked.OneLine) : ∀ line ∈ linesOf locale asked purpose, '\n' ∉ line := by
  cases purpose with
  | declaration =>
    have hheading : '\n' ∉ (declarationHeading locale).toList := by
      cases locale <;> exact notMem_text (by decide +kernel)
    have hrequest : '\n' ∉ (declarationRequest locale).toList := by
      cases locale <;> exact notMem_text (by decide +kernel)
    have hstatement (statement : Statement) :
        '\n' ∉ "- ".toList ++ (statementText locale statement).toList := by
      apply List.mem_append.not.mpr (not_or.mpr ⟨by decide, ?_⟩)
      cases locale <;> cases statement <;> exact notMem_text (by decide +kernel)
    have hversion : '\n' ∉ versionLine locale := by cases locale <;> decide
    simp only [linesOf, declarationLines, List.forall_mem_cons, List.forall_mem_append, List.forall_mem_map]
    exact ⟨hheading, notMem_domain h hrequest, fun statement _ => hstatement statement, notMem_walletLine h,
      hversion, notMem_issuedAtLine h, List.forall_mem_nil _⟩
  | telegram action =>
    have hheading : '\n' ∉ (linkHeading locale).toList := by
      cases locale <;> exact notMem_text (by decide +kernel)
    have htext : '\n' ∉ (actionText locale action).toList := by
      cases locale <;> cases action <;> exact notMem_text (by decide +kernel)
    simp only [linesOf, telegramLinkLines, List.forall_mem_cons]
    exact ⟨hheading, notMem_domain h htext, notMem_walletLine h, notMem_issuedAtLine h,
      List.forall_mem_nil _⟩

/-- A text is told apart into its lines. -/
theorem linesOf_eq (h : asked.OneLine) (h' : asked'.OneLine)
    (hsame : messageOf locale purpose asked = messageOf locale' purpose' asked') :
    linesOf locale asked purpose = linesOf locale' asked' purpose' := by
  have hsplit := congrArg (List.splitOn '\n') hsame
  unfold messageOf joinLines at hsplit
  rwa [List.splitOn_intercalate _ (notMem_linesOf h) linesOf_ne_nil,
    List.splitOn_intercalate _ (notMem_linesOf h') linesOf_ne_nil] at hsplit

theorem declarationHeading_injective {locale locale' : Locale}
    (h : (declarationHeading locale).toList = (declarationHeading locale').toList) : locale = locale' := by
  revert h
  cases locale <;> cases locale' <;> decide

theorem linkHeading_injective {locale locale' : Locale}
    (h : (linkHeading locale).toList = (linkHeading locale').toList) : locale = locale' := by
  revert h
  cases locale <;> cases locale' <;> decide

/-- Texts that end differently stay apart after any beginnings. -/
theorem ends_apart {domain domain' s t : List Char} (h : 5 ≤ s.length ∧ 5 ≤ t.length)
    (hends : s.reverse.take 5 ≠ t.reverse.take 5) :
    domain ++ (String.ofList s).toList ≠ domain' ++ (String.ofList t).toList := by
  intro hsame
  have hreversed := congrArg (fun said => said.reverse.take 5) hsame
  simp only [String.toList_ofList, List.reverse_append] at hreversed
  rw [List.take_append_of_le_length (by simpa using h.1), List.take_append_of_le_length (by simpa using h.2)]
    at hreversed
  exact hends hreversed

set_option maxRecDepth 2000 in
/-- What is asked of a wallet ends differently for each action. -/
theorem action_of_said {domain domain' : Text} {action action' : Action}
    (h : domain ++ (actionText locale action).toList = domain' ++ (actionText locale action').toList) :
    action = action' := by
  cases action <;> cases action' <;> first
    | rfl
    | cases locale <;> exact absurd h (ends_apart (by decide +kernel) (by decide +kernel))

theorem walletLine_injective {wallet wallet' : Text}
    (h : walletLine locale wallet = walletLine locale wallet') :
    wallet = wallet' := by
  cases locale <;> exact List.append_cancel_left h

theorem issuedAtLine_injective {issuedAt issuedAt' : Text}
    (h : issuedAtLine locale issuedAt = issuedAtLine locale issuedAt') : issuedAt = issuedAt' := by
  cases locale <;> exact List.append_cancel_left h

theorem declarationLines_injective
    (h : declarationLines locale asked = declarationLines locale' asked') :
    locale = locale' ∧ asked = asked' := by
  rcases List.cons.inj h with ⟨hheading, hrest⟩
  cases declarationHeading_injective hheading
  rcases List.cons.inj hrest with ⟨hdomain, hrest⟩
  have hlines := List.append_cancel_left hrest
  simp only [List.cons.injEq, and_true, true_and] at hlines
  cases asked
  cases asked'
  cases List.append_cancel_right hdomain
  cases walletLine_injective hlines.1
  cases issuedAtLine_injective hlines.2
  exact ⟨rfl, rfl⟩

theorem telegramLinkLines_injective {action action' : Action}
    (h : telegramLinkLines locale action asked = telegramLinkLines locale' action' asked') :
    action = action' ∧ locale = locale' ∧ asked = asked' := by
  simp only [telegramLinkLines, List.cons.injEq, and_true] at h
  rcases h with ⟨hheading, hsaid, hwallet, hissued⟩
  cases linkHeading_injective hheading
  cases action_of_said hsaid
  cases asked
  cases asked'
  cases List.append_cancel_right hsaid
  cases walletLine_injective hwallet
  cases issuedAtLine_injective hissued
  exact ⟨rfl, rfl, rfl⟩

/-- A signed text is for one purpose alone, in one language, and names one site, one wallet and one
time. -/
theorem message_determines (h : asked.OneLine) (h' : asked'.OneLine)
    (hsame : messageOf locale purpose asked = messageOf locale' purpose' asked') :
    purpose = purpose' ∧ locale = locale' ∧ asked = asked' := by
  have hlines := linesOf_eq h h' hsame
  have hcount := congrArg List.length hlines
  cases purpose with
  | declaration =>
    cases purpose' with
    | declaration => exact ⟨rfl, declarationLines_injective hlines⟩
    | telegram action => simp [linesOf] at hcount
  | telegram action =>
    cases purpose' with
    | declaration => simp [linesOf] at hcount
    | telegram action' =>
      rcases telegramLinkLines_injective hlines with ⟨rfl, hrest⟩
      exact ⟨rfl, hrest⟩

end

theorem message_determines_linked :
    let asked : Asked := ⟨"app.laterite.cash".toList, "wallet".toList, "2026-01-05T12:00:00.000Z".toList⟩
    Purpose.telegram .link = Purpose.telegram .link ∧ Locale.esAR = Locale.esAR ∧ asked = asked :=
  @message_determines .esAR .esAR _ _ (.telegram .link) (.telegram .link) ⟨by decide, by decide, by decide⟩
    ⟨by decide, by decide, by decide⟩ rfl

end Laterite.Signed
