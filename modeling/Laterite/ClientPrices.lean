import Laterite.ClientConstants
import Laterite.MinimumOutput
import Laterite.PriceUpdateEncoding

/-!
# Prices as the client reads them

The client parses the same updates with a reader that keeps an offset into fixed bytes, and
computes the minimum output in unbounded integers it compares with the program's bounds
afterwards. It returns the program's quote and minimum, or refuses with the program's error.
-/

namespace Laterite.Client

open CheckedComputation ComputationAgreement

def solanaFormatMagic : ℕ := 2182742457

def payloadFormatMagic : ℕ := 2479346549

/-- A price of `price * 10 ^ exponent` dollars, with its confidence in the same units. -/
structure Quote where
  confidence : ℤ
  exponent : ℤ
  price : ℤ
  deriving DecidableEq, Repr

def dollarQuote : Quote := ⟨0, 0, 1⟩

structure PythUpdate where
  payload : List UInt8
  publicKey : List UInt8
  signature : List UInt8

structure Feed where
  confidence : Option ℤ := none
  exponent : Option ℤ := none
  price : Option ℤ := none
  updatedAt : Option ℤ := none

def invalidPriceUpdate : ClientError := .lateriteCheck 0x1785

def priceUnavailable : ClientError := .lateriteCheck 0x1786

def stalePrice : ClientError := .lateriteCheck 0x1787

def priceUncertain : ClientError := .lateriteCheck 0x1788

def amountTooSmall : ClientError := .lateriteCheck 0x1789

structure Reader where
  bytes : List UInt8
  offset : ℕ

namespace Reader

def remaining (self : Reader) : ℤ := self.bytes.length - self.offset

def take (self : Reader) (length : ℕ) : Except ClientError (List UInt8 × Reader) :=
  if self.remaining < length then .error invalidPriceUpdate
  else .ok ((self.bytes.drop self.offset).take length, { self with offset := self.offset + length })

def skip (self : Reader) (length : ℕ) : Except ClientError Reader := do
  let (_, reader) ← self.take length
  return reader

def unsigned (self : Reader) (length : ℕ) : Except ClientError (ℕ × Reader) := do
  let (view, reader) ← self.take length
  return (LittleEndian.toNat view, reader)

def u8 (self : Reader) : Except ClientError (ℕ × Reader) := self.unsigned 1

def u16 (self : Reader) : Except ClientError (ℕ × Reader) := self.unsigned 2

def u32 (self : Reader) : Except ClientError (ℕ × Reader) := self.unsigned 4

def u64 (self : Reader) : Except ClientError (ℕ × Reader) := self.unsigned 8

def i16 (self : Reader) : Except ClientError (ℤ × Reader) := do
  let (view, reader) ← self.take 2
  return (LittleEndian.signed 16 (LittleEndian.toNat view), reader)

/-- A signed 64-bit number where 0 encodes absence. -/
def nonzero (self : Reader) : Except ClientError (Option ℤ × Reader) := do
  let (view, reader) ← self.take 8
  let value := LittleEndian.signed 64 (LittleEndian.toNat view)
  return (if value = 0 then none else some value, reader)

/-- A presence flag, then an unsigned 64-bit number when present. -/
def optional (self : Reader) : Except ClientError (Option ℤ × Reader) := do
  let (flag, reader) ← self.u8
  if flag = 0 then return (none, reader)
  else if flag = 1 then do
    let (value, reader) ← reader.u64
    return (some (value : ℤ), reader)
  else .error invalidPriceUpdate

end Reader

/-- Magic, signature, public key and payload length: the bytes before an update's payload. -/
def envelope : ℕ := 4 + 64 + 32 + 2

def parsePythUpdate (message : List UInt8) : Except ClientError PythUpdate := do
  let (magic, reader) ← Reader.u32 ⟨message, 0⟩
  if magic ≠ solanaFormatMagic then .error invalidPriceUpdate
  else do
    let reader ← reader.skip 96
    let (length, reader) ← reader.u16
    if (length : ℤ) ≠ reader.remaining then .error invalidPriceUpdate
    else return {
      payload := message.drop envelope
      publicKey := (message.take 100).drop 68
      signature := (message.take 68).drop 4 }

def readProperty (property : ℕ) (feed : Feed) (reader : Reader) :
    Except ClientError (Feed × Reader) :=
  if property = 0 then do
    let (price, reader) ← reader.nonzero
    return ({ feed with price := price }, reader)
  else if property = 4 then do
    let (exponent, reader) ← reader.i16
    return ({ feed with exponent := some exponent }, reader)
  else if property = 5 then do
    let (confidence, reader) ← reader.nonzero
    return ({ feed with confidence := confidence }, reader)
  else if property = 12 then do
    let (updatedAt, reader) ← reader.optional
    return ({ feed with updatedAt := updatedAt }, reader)
  else if property ∈ [1, 2, 10, 11] then do
    let reader ← reader.skip 8
    return (feed, reader)
  else if property = 3 ∨ property = 9 then do
    let reader ← reader.skip 2
    return (feed, reader)
  else if property ≥ 6 ∧ property ≤ 8 then do
    let (_, reader) ← reader.optional
    return (feed, reader)
  else .error invalidPriceUpdate

def readProperties : ℕ → Feed → Reader → Except ClientError (Feed × Reader)
  | 0, feed, reader => return (feed, reader)
  | properties + 1, feed, reader => do
    let (property, reader) ← reader.u8
    let (feed, reader) ← readProperty property feed reader
    readProperties properties feed reader

def findFeedAmong (feedId : ℕ) : ℕ → Reader → Except ClientError (Option Feed)
  | 0, _ => return none
  | feeds + 1, reader => do
    let (id, reader) ← reader.u32
    let (properties, reader) ← reader.u8
    let (feed, reader) ← readProperties properties {} reader
    if id = feedId then return some feed else findFeedAmong feedId feeds reader

def findFeed (payload : List UInt8) (feedId : ℕ) : Except ClientError (Option Feed) := do
  let (magic, reader) ← Reader.u32 ⟨payload, 0⟩
  if magic ≠ payloadFormatMagic then .error invalidPriceUpdate
  else do
    let reader ← reader.skip 9
    let (feeds, reader) ← reader.u8
    findFeedAmong feedId feeds reader

/-- The quote of `feedId` in one update, no older than `maxAgeSeconds`. -/
def quote (message : List UInt8) (feedId : ℕ) (now maxAgeSeconds : ℤ) : Except ClientError Quote :=
  if feedId = 0 then
    if message.length ≠ 0 then .error invalidPriceUpdate else .ok dollarQuote
  else do
    let update ← parsePythUpdate message
    let found ← findFeed update.payload feedId
    match found with
    | none => .error priceUnavailable
    | some feed =>
      match feed.price, feed.confidence, feed.exponent, feed.updatedAt with
      | some price, some confidence, some exponent, some updatedAt =>
        if price < 0 ∨ confidence < 0 then .error priceUnavailable
        else if now - updatedAt.tdiv 1000000 > maxAgeSeconds then .error stalePrice
        else if confidence * 10000 > price * maxConfidenceBps then .error priceUncertain
        else .ok { confidence := confidence, exponent := exponent, price := price }
      | _, _, _, _ => .error priceUnavailable

/-- The least raw output a swap of `amount` raw units may deliver. -/
def minOut (amount : ℤ) (payment : Quote) (paymentDecimals : ℤ) (asset : Quote)
    (assetDecimals : ℤ) : Except ClientError ℤ :=
  let worth := amount *
    if payment.price > payment.confidence then payment.price - payment.confidence else 0
  let assetPrice := asset.price + asset.confidence
  let scale := payment.exponent - asset.exponent + assetDecimals - paymentDecimals
  let factor : ℤ := 10 ^ scale.natAbs
  if factor > u128Max then .error invalidPriceUpdate
  else
    let numerator := if scale ≥ 0 then worth * factor else worth
    let denominator := if scale ≥ 0 then assetPrice else assetPrice * factor
    if numerator > u128Max ∨ denominator > u128Max ∨ denominator = 0 then .error invalidPriceUpdate
    else
      let scaled := numerator.tdiv denominator * (10000 - slippageBps)
      if scaled > u128Max then .error invalidPriceUpdate
      else
        let out := scaled.tdiv 10000
        if out = 0 ∧ amount ≠ 0 then .error amountTooSmall
        else if out > u64Max then .error invalidPriceUpdate
        else .ok out

/-- The reader stands before the bytes the program has left. -/
structure Reader.At (reader : Reader) (left : List UInt8) : Prop where
  offset_le : reader.offset ≤ reader.bytes.length
  drop_eq : reader.bytes.drop reader.offset = left

theorem Reader.at_start (bytes : List UInt8) : Reader.At ⟨bytes, 0⟩ bytes :=
  ⟨Nat.zero_le _, List.drop_zero⟩

theorem Reader.At.remaining_eq {reader : Reader} {left : List UInt8} (h : reader.At left) :
    reader.remaining = left.length := by
  have hle := h.offset_le
  rw [Reader.remaining, ← h.drop_eq, List.length_drop]
  omega

theorem Reader.At.advance {reader : Reader} {left : List UInt8} {length : ℕ} (h : reader.At left)
    (hlength : length ≤ left.length) :
    Reader.At { reader with offset := reader.offset + length } (left.drop length) := by
  have hle := h.offset_le
  have hleft : left.length = reader.bytes.length - reader.offset := by
    rw [← h.drop_eq, List.length_drop]
  constructor
  · change reader.offset + length ≤ reader.bytes.length
    omega
  · rw [← h.drop_eq, List.drop_drop]

variable {reader : Reader} {left : List UInt8}

theorem invalid_predicts : Predicts invalidPriceUpdate (.error (.laterite .invalidPriceUpdate)) :=
  .code .invalidPriceUpdate

theorem take_agrees (h : reader.At left) (length : ℕ) :
    Agree Predicts (fun r r' => r.1 = r'.1 ∧ r.1.length = length ∧ r.2.At r'.2)
      (reader.take length) (Laterite.Reader.take length left) := by
  apply Agree.guard invalid_predicts
  · rw [h.remaining_eq]
    omega
  · intro hlength
    apply Agree.ok
    rw [h.drop_eq]
    exact ⟨rfl, List.length_take_of_le hlength, h.advance hlength⟩

theorem skip_agrees (h : reader.At left) (length : ℕ) :
    Agree Predicts Reader.At (reader.skip length) (Laterite.Reader.skip length left) := by
  have hremaining := h.remaining_eq
  by_cases hlength : length ≤ left.length
  · have hclient : reader.skip length = .ok { reader with offset := reader.offset + length } := by
      rw [Reader.skip, Reader.take, if_neg (by omega)]
      rfl
    rw [hclient, Laterite.Reader.skip, require_of hlength]
    exact Agree.ok (h.advance hlength)
  · have hclient : reader.skip length = .error invalidPriceUpdate := by
      rw [Reader.skip, Reader.take, if_pos (by omega)]
      rfl
    rw [hclient, Laterite.Reader.skip, require_of_not hlength]
    exact Agree.error invalid_predicts

theorem unsigned_agrees (h : reader.At left) (length : ℕ) :
    Agree Predicts (fun r r' => r.1 = r'.1 ∧ r.1 < 256 ^ length ∧ r.2.At r'.2)
      (reader.unsigned length) (Laterite.Reader.word length left) := by
  apply (take_agrees h length).bind
  rintro ⟨view, next⟩ ⟨head, rest⟩ ⟨hview, hlength, hnext⟩
  apply Agree.ok
  refine ⟨congrArg LittleEndian.toNat hview, ?_, hnext⟩
  have hlt := LittleEndian.toNat_lt view
  rwa [hlength] at hlt

theorem i16_agrees (h : reader.At left) :
    Agree Predicts (fun r r' => r.1 = r'.1 ∧ r.2.At r'.2) reader.i16 (Laterite.Reader.i16 left) := by
  have hclient : reader.i16 =
      reader.unsigned 2 >>= fun r => .ok (LittleEndian.signed 16 r.1, r.2) := by
    unfold Reader.i16 Reader.unsigned
    cases reader.take 2 <;> rfl
  rw [hclient]
  apply (unsigned_agrees h 2).bind
  rintro ⟨value, next⟩ ⟨word, rest⟩ ⟨hvalue, -, hnext⟩
  exact Agree.ok ⟨congrArg (LittleEndian.signed 16) hvalue, hnext⟩

theorem signed_eq_zero {x : ℕ} (h : x < 2 ^ 64) : LittleEndian.signed 64 x = 0 ↔ x = 0 := by
  unfold LittleEndian.signed
  split <;> omega

theorem nonzero_agrees (h : reader.At left) :
    Agree Predicts (fun r r' => r.1 = r'.1 ∧ r.2.At r'.2)
      reader.nonzero (Laterite.Reader.nonzero left) := by
  have hclient : reader.nonzero = reader.unsigned 8 >>= fun r =>
      .ok (if LittleEndian.signed 64 r.1 = 0 then none else some (LittleEndian.signed 64 r.1), r.2) := by
    unfold Reader.nonzero Reader.unsigned
    cases reader.take 8 <;> rfl
  rw [hclient]
  apply (unsigned_agrees h 8).bind
  rintro ⟨value, next⟩ ⟨word, rest⟩ ⟨rfl, hlt, hnext⟩
  apply Agree.ok
  refine ⟨?_, hnext⟩
  simp only [signed_eq_zero hlt]

theorem optional_agrees (h : reader.At left) :
    Agree Predicts (fun r r' => r.1 = r'.1.map Nat.cast ∧ r.2.At r'.2)
      reader.optional (Laterite.Reader.optional left) := by
  apply (unsigned_agrees h 1).bind
  rintro ⟨flag, next⟩ ⟨word, rest⟩ ⟨rfl, -, hnext⟩
  apply Agree.ite Iff.rfl
  · exact fun _ => Agree.ok ⟨rfl, hnext⟩
  · intro _
    apply Agree.ite Iff.rfl
    · intro _
      apply (unsigned_agrees hnext 8).bind
      rintro ⟨value, next⟩ ⟨word, rest⟩ ⟨rfl, -, hnext⟩
      exact Agree.ok ⟨rfl, hnext⟩
    · exact fun _ => Agree.error invalid_predicts

/-- The feed as the client's record holds it. -/
def Feed.of (feed : Laterite.Feed) : Feed :=
  ⟨feed.confidence, feed.exponent, feed.price, feed.updatedAt.map Nat.cast⟩

/-- Both went on reading after the same feed. -/
def SameFeed (r : Feed × Reader) (r' : Laterite.Feed × List UInt8) : Prop :=
  r.1 = Feed.of r'.1 ∧ r.2.At r'.2

theorem readProperty_agrees (h : reader.At left) (property : ℕ) (feed : Laterite.Feed) :
    Agree Predicts SameFeed (readProperty property (Feed.of feed) reader)
      (Laterite.readProperty property feed left) := by
  have hskip (length : ℕ) : Agree Predicts SameFeed
      (reader.skip length >>= fun reader => pure (Feed.of feed, reader))
      (Laterite.Reader.skip length left >>= fun rest => pure (feed, rest)) :=
    (skip_agrees h length).bind fun _ _ hnext => Agree.ok ⟨rfl, hnext⟩
  have hoptional : Agree Predicts SameFeed
      (reader.optional >>= fun r => pure (Feed.of feed, r.2))
      (Laterite.Reader.optional left >>= fun r => pure (feed, r.2)) :=
    (optional_agrees h).bind fun _ _ hnext => Agree.ok ⟨rfl, hnext.2⟩
  unfold Laterite.readProperty
  split
  case h_1 =>
    apply (nonzero_agrees h).bind
    rintro ⟨price, next⟩ ⟨value, rest⟩ ⟨rfl, hnext⟩
    exact Agree.ok ⟨rfl, hnext⟩
  case h_2 =>
    apply (i16_agrees h).bind
    rintro ⟨exponent, next⟩ ⟨value, rest⟩ ⟨rfl, hnext⟩
    exact Agree.ok ⟨rfl, hnext⟩
  case h_3 =>
    apply (nonzero_agrees h).bind
    rintro ⟨confidence, next⟩ ⟨value, rest⟩ ⟨rfl, hnext⟩
    exact Agree.ok ⟨rfl, hnext⟩
  case h_4 =>
    apply (optional_agrees h).bind
    rintro ⟨updatedAt, next⟩ ⟨value, rest⟩ ⟨rfl, hnext⟩
    exact Agree.ok ⟨rfl, hnext⟩
  case h_5 | h_6 | h_7 | h_8 => exact hskip 8
  case h_9 | h_10 => exact hskip 2
  case h_11 | h_12 | h_13 => exact hoptional
  case h_14 _ h0 h4 h5 h12 h1 h2 h10 h11 h3 h9 h6 h7 h8 =>
    have hmiddle : ¬(property ≥ 6 ∧ property ≤ 8) := by
      change property ≠ 6 at h6
      change property ≠ 7 at h7
      change property ≠ 8 at h8
      omega
    have hunknown : readProperty property (Feed.of feed) reader = .error invalidPriceUpdate := by
      unfold readProperty
      rw [if_neg h0, if_neg h4, if_neg h5, if_neg h12, if_neg (by simpa using ⟨h1, h2, h10, h11⟩),
        if_neg (not_or.mpr ⟨h3, h9⟩), if_neg hmiddle]
    rw [hunknown]
    exact Agree.error invalid_predicts

theorem readProperties_agrees (h : reader.At left) (properties : ℕ) (feed : Laterite.Feed) :
    Agree Predicts SameFeed (readProperties properties (Feed.of feed) reader)
      (Laterite.readProperties properties feed left) := by
  induction properties generalizing reader left feed with
  | zero => exact Agree.ok ⟨rfl, h⟩
  | succ properties ih =>
    apply (unsigned_agrees h 1).bind
    rintro ⟨property, next⟩ ⟨word, rest⟩ ⟨rfl, -, hnext⟩
    apply (readProperty_agrees hnext property feed).bind
    rintro ⟨_, next⟩ ⟨feed, rest⟩ ⟨rfl, hnext⟩
    exact ih hnext feed

theorem findFeedAmong_agrees (h : reader.At left) (feedId : UInt32) (feeds : ℕ) :
    Agree Predicts (fun found found' => found = found'.map Feed.of)
      (findFeedAmong feedId.toNat feeds reader) (Laterite.findFeedAmong feedId feeds left) := by
  induction feeds generalizing reader left with
  | zero => exact Agree.ok rfl
  | succ feeds ih =>
    apply (unsigned_agrees h 4).bind
    rintro ⟨id, next⟩ ⟨word, rest⟩ ⟨rfl, -, hnext⟩
    apply (unsigned_agrees hnext 1).bind
    rintro ⟨properties, next⟩ ⟨word, rest⟩ ⟨rfl, -, hnext⟩
    apply (readProperties_agrees hnext properties {}).bind
    rintro ⟨_, next⟩ ⟨feed, rest⟩ ⟨rfl, hnext⟩
    apply Agree.ite Iff.rfl
    · exact fun _ => Agree.ok rfl
    · exact fun _ => ih hnext

theorem parsePythUpdate_agrees (message : List UInt8) :
    Agree Predicts (fun update bytes => update.payload = bytes)
      (parsePythUpdate message) (payload message) := by
  have hsteps : Agree Predicts (fun update _ => update.payload = message.drop envelope)
      (parsePythUpdate message) (payload message) := by
    apply (unsigned_agrees (Reader.at_start message) 4).bind
    rintro ⟨magic, next⟩ ⟨word, rest⟩ ⟨rfl, -, hnext⟩
    apply Agree.guard invalid_predicts Iff.rfl
    intro _
    apply (skip_agrees hnext 96).bind
    intro next rest hnext
    apply (unsigned_agrees hnext 2).bind
    rintro ⟨length, next⟩ ⟨word, rest⟩ ⟨rfl, -, hnext⟩
    apply Agree.guard invalid_predicts
    · have hremaining : next.remaining = rest.length := hnext.remaining_eq
      dsimp only
      omega
    · exact fun _ => Agree.ok rfl
  apply hsteps.relate
  intro update bytes _ hpayload hdrop
  obtain ⟨signed, rfl, -⟩ := payload_eq_ok.mp hpayload
  rw [hdrop]
  apply List.drop_left'
  simp [envelope]

theorem findFeed_agrees (payload : List UInt8) (feedId : UInt32) :
    Agree Predicts (fun found found' => found = found'.map Feed.of)
      (findFeed payload feedId.toNat) (Laterite.findFeed payload feedId) := by
  apply (unsigned_agrees (Reader.at_start payload) 4).bind
  rintro ⟨magic, next⟩ ⟨word, rest⟩ ⟨rfl, -, hnext⟩
  apply Agree.guard invalid_predicts Iff.rfl
  intro _
  apply (skip_agrees hnext 9).bind
  intro next rest hnext
  apply (unsigned_agrees hnext 1).bind
  rintro ⟨feeds, next⟩ ⟨word, rest⟩ ⟨rfl, -, hnext⟩
  exact findFeedAmong_agrees hnext feedId feeds

/-- The quote as the client's record holds it. -/
def Quote.of (q : Laterite.Quote) : Quote :=
  ⟨q.confidence.toNat, q.exponent.toInt, q.price.toNat⟩

theorem priceUnavailable_predicts :
    Predicts priceUnavailable (.error (.laterite .priceUnavailable)) :=
  .code .priceUnavailable

/-- The checks of a complete feed, on the values an update gives. -/
theorem quoted_agrees (entry : FeedEntry) (now : ℤ) :
    Agree Predicts (fun q q' => q = Quote.of q')
      (match (Feed.of entry.feed).price, (Feed.of entry.feed).confidence,
          (Feed.of entry.feed).exponent, (Feed.of entry.feed).updatedAt with
      | some price, some confidence, some exponent, some updatedAt =>
        if price < 0 ∨ confidence < 0 then .error priceUnavailable
        else if now - updatedAt.tdiv 1000000 > maxPriceAgeSeconds then .error stalePrice
        else if confidence * 10000 > price * maxConfidenceBps then .error priceUncertain
        else .ok { confidence := confidence, exponent := exponent, price := price }
      | _, _, _, _ => .error priceUnavailable)
      (entry.feed.quote now) := by
  rw [entry.quote_feed]
  simp only [Feed.of, entry.feed_price, entry.feed_confidence, entry.feed_exponent,
    entry.feed_updatedAt, FeedEntry.quoted]
  cases entry.price with
  | none => exact Agree.error priceUnavailable_predicts
  | some price =>
    cases entry.confidence with
    | none => exact Agree.error priceUnavailable_predicts
    | some confidence =>
      cases entry.exponent with
      | none => exact Agree.error priceUnavailable_predicts
      | some exponent =>
        cases entry.updatedAt with
        | none => exact Agree.error priceUnavailable_predicts
        | some updatedAt =>
          simp only [Option.map_some]
          apply Agree.ite
          · rw [Int64.lt_iff_toInt_lt, Int64.lt_iff_toInt_lt, Int64.toInt_zero]
          · exact fun _ => Agree.error priceUnavailable_predicts
          · intro hsigned
            rw [not_or, not_lt, not_lt] at hsigned
            have htime : ((updatedAt.toNat : ℕ) : ℤ).tdiv 1000000 = (updatedAt.toNat / 1000000 : ℕ) :=
              (Int.ofNat_tdiv _ _).symm
            apply Agree.ite
            · rw [htime, maxPriceAgeSeconds]
              omega
            · exact fun _ => Agree.error (.code .stalePrice)
            · intro _
              apply Agree.ite Iff.rfl
              · exact fun _ => Agree.error (.code .priceUncertain)
              · intro _
                apply Agree.ok
                rw [Quote.of, LittleEndian.toNat_toUInt64 hsigned.1,
                  LittleEndian.toNat_toUInt64 hsigned.2]

theorem quote_agrees (message : List UInt8) (feedId : UInt32) (now : ℤ) :
    Agree Predicts (fun q q' => q = Quote.of q')
      (quote message feedId.toNat now maxPriceAgeSeconds) (Laterite.quote message feedId now) := by
  have hzero : feedId.toNat = 0 ↔ feedId = 0 := UInt32.toNat_inj (b := 0)
  apply Agree.ite hzero
  · intro _
    apply Agree.guard invalid_predicts
    · exact not_congr List.length_eq_zero_iff
    · exact fun _ => Agree.ok rfl
  · intro _
    apply (parsePythUpdate_agrees message).bind
    rintro update bytes rfl
    have hfind : Agree Predicts
        (fun found found' => found = found'.map Feed.of ∧
          ∀ feed, found' = some feed → ∃ entry : FeedEntry, entry.feed = feed)
        (findFeed update.payload feedId.toNat) (Laterite.findFeed update.payload feedId) := by
      apply (findFeed_agrees update.payload feedId).relate
      intro found found' _ hfound hof
      refine ⟨hof, fun feed hfeed => ?_⟩
      rw [hfeed] at hfound
      rcases findFeed_eq_ok.mp hfound with ⟨_, _, _, -, -, hamong⟩
      rcases findFeedAmong_eq_some.mp hamong with ⟨_, entry, _, -, -, -, -, hentry⟩
      exact ⟨entry, hentry⟩
    apply hfind.bind
    rintro _ found ⟨rfl, hentry⟩
    cases found with
    | none => exact Agree.error priceUnavailable_predicts
    | some feed =>
      rcases hentry feed rfl with ⟨entry, rfl⟩
      exact quoted_agrees entry now

theorem minOut_agrees (s : PricedSwap) :
    Agree Predicts (fun out out' => out = out'.toNat)
      (minOut s.amount.toNat (Quote.of s.payment) s.paymentDecimals.toNat (Quote.of s.asset)
        s.assetDecimals.toNat) s.minOut := by
  have hworth : ((s.amount.toNat : ℤ) *
      if (s.payment.price.toNat : ℤ) > s.payment.confidence.toNat then
        (s.payment.price.toNat : ℤ) - s.payment.confidence.toNat else 0) = s.worth := by
    rw [PricedSwap.worth, UInt64.toNat_saturatingSub, Nat.cast_mul]
    congr 1
    split <;> omega
  have hassetPrice : (s.asset.price.toNat : ℤ) + s.asset.confidence.toNat = s.assetPrice := by
    rw [PricedSwap.assetPrice, Nat.cast_add]
  have hfactor : (10 : ℤ) ^ s.scale.natAbs = s.factor := by
    rw [PricedSwap.factor, Nat.cast_pow]
    rfl
  have hnumerator : (if s.scale ≥ 0 then (s.worth : ℤ) * s.factor else s.worth) = s.numerator := by
    rw [PricedSwap.numerator]
    split <;> simp
  have hdenominator : (if s.scale ≥ 0 then (s.assetPrice : ℤ) else s.assetPrice * s.factor) =
      s.denominator := by
    rw [PricedSwap.denominator]
    split <;> simp
  have hscaled : (s.numerator : ℤ).tdiv s.denominator * (10000 - slippageBps) = s.scaled := by
    rw [PricedSwap.scaled, Nat.cast_mul, Int.ofNat_tdiv]
    rfl
  have hout : (s.scaled : ℤ).tdiv 10000 = s.out := (Int.ofNat_tdiv _ _).symm
  have hclient : minOut s.amount.toNat (Quote.of s.payment) s.paymentDecimals.toNat
      (Quote.of s.asset) s.assetDecimals.toNat =
      if (s.factor : ℤ) > u128Max then .error invalidPriceUpdate
      else if (s.numerator : ℤ) > u128Max ∨ (s.denominator : ℤ) > u128Max ∨ (s.denominator : ℤ) = 0
      then .error invalidPriceUpdate
      else if (s.scaled : ℤ) > u128Max then .error invalidPriceUpdate
      else if (s.out : ℤ) = 0 ∧ (s.amount.toNat : ℤ) ≠ 0 then .error amountTooSmall
      else if (s.out : ℤ) > u64Max then .error invalidPriceUpdate
      else .ok s.out := by
    rw [← hout, ← hscaled, ← hdenominator, ← hnumerator, ← hfactor, ← hworth, ← hassetPrice]
    rfl
  rw [hclient, PricedSwap.minOut_eq]
  have hword (x : ℕ) : (x : ℤ) > u128Max ↔ ¬x < 2 ^ 128 := by
    unfold u128Max
    omega
  by_cases hsteps : s.factor < 2 ^ 128 ∧ s.numerator < 2 ^ 128 ∧ s.denominator < 2 ^ 128 ∧
      0 < s.denominator ∧ s.scaled < 2 ^ 128
  · rcases id hsteps with ⟨hfactor, hnumerator, hdenominator, hpositive, hscaled⟩
    have hfraction : ¬((s.numerator : ℤ) > u128Max ∨ (s.denominator : ℤ) > u128Max ∨
        (s.denominator : ℤ) = 0) := by
      rw [hword, hword]
      omega
    rw [if_pos hsteps, if_neg (by rw [hword]; exact not_not.mpr hfactor), if_neg hfraction,
      if_neg (by rw [hword]; exact not_not.mpr hscaled)]
    apply Agree.ite
    · have hamount : s.amount.toNat = 0 ↔ s.amount = 0 := UInt64.toNat_inj (b := 0)
      rw [Nat.cast_eq_zero, Nat.cast_ne_zero, and_comm, Ne, hamount]
    · exact fun _ => Agree.error (.code .amountTooSmall)
    · intro _
      by_cases hlt : s.out < 2 ^ 64
      · rw [if_pos hlt, if_neg (by unfold u64Max; omega)]
        apply Agree.ok
        rw [UInt64.toNat_ofNat_of_lt' hlt]
      · rw [if_neg hlt, if_pos (by unfold u64Max; omega)]
        exact Agree.error invalid_predicts
  · rw [if_neg hsteps]
    split
    · exact Agree.error invalid_predicts
    · rename_i hfactor
      split
      · exact Agree.error invalid_predicts
      · rename_i hfraction
        split
        · exact Agree.error invalid_predicts
        · rename_i hscaled
          rw [hword] at hfactor hscaled
          rw [hword, hword] at hfraction
          omega

/-- The client's prices are the program's: the same quote of every message, the same minimum
output of every swap, or the same error. -/
theorem prices_agree :
    (∀ (message : List UInt8) (feedId : UInt32) (now : ℤ),
      Agree Predicts (fun q q' => q = Quote.of q')
        (quote message feedId.toNat now maxPriceAgeSeconds) (Laterite.quote message feedId now)) ∧
    ∀ (amount : UInt64) (payment : Laterite.Quote) (paymentDecimals : UInt8)
      (asset : Laterite.Quote) (assetDecimals : UInt8),
      Agree Predicts (fun out out' => out = out'.toNat)
        (minOut amount.toNat (Quote.of payment) paymentDecimals.toNat (Quote.of asset)
          assetDecimals.toNat)
        (Laterite.minOut amount payment paymentDecimals asset assetDecimals) :=
  ⟨quote_agrees, fun amount payment paymentDecimals asset assetDecimals =>
    minOut_agrees ⟨amount, payment, paymentDecimals, asset, assetDecimals⟩⟩

end Laterite.Client
