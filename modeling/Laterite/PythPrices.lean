import Laterite.ProgramState

/-!
# Pyth Pro prices

Reading a feed from a Solana-format update and deriving a swap's minimum output from it.
The signature of each update is verified elsewhere; these functions only read the bytes.
A reader takes the bytes left and returns what it read with the bytes after it.
-/

namespace Laterite

open CheckedComputation

/-- Oldest price accepted, by the feed's own update time. -/
def maxPriceAgeSeconds : ℤ := 60

/-- Widest confidence interval accepted, in basis points of the price. -/
def maxConfidenceBps : ℕ := 50

/-- How far below the oracle's worth a swap may fill, in basis points. -/
def slippageBps : ℕ := 55

def solanaFormatMagic : ℕ := 2182742457

def payloadFormatMagic : ℕ := 2479346549

/-- A price of `price * 10 ^ exponent` dollars, with its confidence in the same units. -/
structure Quote where
  price : UInt64
  confidence : UInt64
  exponent : Int16
  deriving DecidableEq, Repr

def Quote.dollar : Quote := ⟨1, 0, 0⟩

structure Feed where
  price : Option ℤ := none
  confidence : Option ℤ := none
  exponent : Option ℤ := none
  updatedAt : Option ℕ := none
  deriving DecidableEq, Repr

namespace Reader

def take (n : ℕ) (bytes : List UInt8) : Result (List UInt8 × List UInt8) := do
  require (n ≤ bytes.length) LateriteError.invalidPriceUpdate
  return (bytes.take n, bytes.drop n)

def skip (n : ℕ) (bytes : List UInt8) : Result (List UInt8) := do
  require (n ≤ bytes.length) LateriteError.invalidPriceUpdate
  return bytes.drop n

def word (n : ℕ) (bytes : List UInt8) : Result (ℕ × List UInt8) := do
  let (head, rest) ← take n bytes
  return (LittleEndian.toNat head, rest)

def u8 : List UInt8 → Result (ℕ × List UInt8) := word 1

def u16 : List UInt8 → Result (ℕ × List UInt8) := word 2

def u32 : List UInt8 → Result (ℕ × List UInt8) := word 4

def i16 (bytes : List UInt8) : Result (ℤ × List UInt8) := do
  let (value, rest) ← word 2 bytes
  return (LittleEndian.signed 16 value, rest)

/-- A signed 64-bit number where 0 encodes absence. -/
def nonzero (bytes : List UInt8) : Result (Option ℤ × List UInt8) := do
  let (value, rest) ← word 8 bytes
  return (if value = 0 then none else some (LittleEndian.signed 64 value), rest)

/-- A presence flag, then an unsigned 64-bit number when present. -/
def optional (bytes : List UInt8) : Result (Option ℕ × List UInt8) := do
  let (flag, rest) ← u8 bytes
  if flag = 0 then return (none, rest)
  else if flag = 1 then do
    let (value, rest) ← word 8 rest
    return (some value, rest)
  else .error (.error (.laterite .invalidPriceUpdate))

end Reader

def payload (message : List UInt8) : Result (List UInt8) := do
  let (magic, rest) ← Reader.u32 message
  require (magic = solanaFormatMagic) LateriteError.invalidPriceUpdate
  let rest ← Reader.skip 96 rest
  let (len, rest) ← Reader.u16 rest
  require (rest.length = len) LateriteError.invalidPriceUpdate
  return rest

def readProperty (property : ℕ) (feed : Feed) (bytes : List UInt8) : Result (Feed × List UInt8) :=
  match property with
  | 0 => do
    let (price, rest) ← Reader.nonzero bytes
    return ({ feed with price := price }, rest)
  | 4 => do
    let (exponent, rest) ← Reader.i16 bytes
    return ({ feed with exponent := some exponent }, rest)
  | 5 => do
    let (confidence, rest) ← Reader.nonzero bytes
    return ({ feed with confidence := confidence }, rest)
  | 12 => do
    let (updatedAt, rest) ← Reader.optional bytes
    return ({ feed with updatedAt := updatedAt }, rest)
  | 1 | 2 | 10 | 11 => do
    let rest ← Reader.skip 8 bytes
    return (feed, rest)
  | 3 | 9 => do
    let rest ← Reader.skip 2 bytes
    return (feed, rest)
  | 6 | 7 | 8 => do
    let (_, rest) ← Reader.optional bytes
    return (feed, rest)
  | _ => .error (.error (.laterite .invalidPriceUpdate))

def readProperties : ℕ → Feed → List UInt8 → Result (Feed × List UInt8)
  | 0, feed, bytes => return (feed, bytes)
  | n + 1, feed, bytes => do
    let (property, rest) ← Reader.u8 bytes
    let (feed, rest) ← readProperty property feed rest
    readProperties n feed rest

/-- The first of the next `n` feeds whose id is `feedId`. -/
def findFeedAmong (feedId : UInt32) : ℕ → List UInt8 → Result (Option Feed)
  | 0, _ => return none
  | n + 1, bytes => do
    let (id, rest) ← Reader.u32 bytes
    let (count, rest) ← Reader.u8 rest
    let (feed, rest) ← readProperties count {} rest
    if id = feedId.toNat then return some feed else findFeedAmong feedId n rest

def findFeed (payload : List UInt8) (feedId : UInt32) : Result (Option Feed) := do
  let (magic, rest) ← Reader.u32 payload
  require (magic = payloadFormatMagic) LateriteError.invalidPriceUpdate
  let rest ← Reader.skip 9 rest
  let (count, rest) ← Reader.u8 rest
  findFeedAmong feedId count rest

/-- A complete feed as a quote: positive prices, fresh at `now` and within the confidence
bound. -/
def Feed.quote (self : Feed) (now : ℤ) : Result Quote :=
  match self.price, self.confidence, self.exponent, self.updatedAt with
  | some price, some confidence, some exponent, some updatedAt => do
    require (0 ≤ price) LateriteError.priceUnavailable
    require (0 ≤ confidence) LateriteError.priceUnavailable
    require (I64.saturatingSub now (updatedAt / 1000000 : ℕ) ≤ maxPriceAgeSeconds)
      LateriteError.stalePrice
    require (confidence.toNat * 10000 ≤ price.toNat * maxConfidenceBps) LateriteError.priceUncertain
    return ⟨UInt64.ofNat price.toNat, UInt64.ofNat confidence.toNat, Int16.ofInt exponent⟩
  | _, _, _, _ => .error (.error (.laterite .priceUnavailable))

/-- The quote of `feedId` in one update. Feed 0 is one dollar and takes no update. -/
def quote (message : List UInt8) (feedId : UInt32) (now : ℤ) : Result Quote :=
  if feedId = 0 then do
    require (message = []) LateriteError.invalidPriceUpdate
    return Quote.dollar
  else do
    let bytes ← payload message
    let found ← findFeed bytes feedId
    let feed ← okOr found LateriteError.priceUnavailable
    feed.quote now

/-- A 128-bit unsigned value, when it fits. -/
def u128? (value : ℕ) : Option ℕ := if value < 2 ^ 128 then some value else none

/-- Minimum raw output of a swap of `amount` raw units of a payment token into an asset: the
amount's worth at the payment token's lowest price over the asset's highest, both within
confidence, less `slippageBps`. Refuses rather than return 0 for a positive amount. -/
def minOut (amount : UInt64) (payment : Quote) (paymentDecimals : UInt8) (asset : Quote)
    (assetDecimals : UInt8) : Result UInt64 := do
  let worth := amount.toNat * (payment.price.saturatingSub payment.confidence).toNat
  let assetPrice := asset.price.toNat + asset.confidence.toNat
  let scale : ℤ := payment.exponent.toInt - asset.exponent.toInt + assetDecimals.toNat
    - paymentDecimals.toNat
  let factor ← okOr (u128? (10 ^ scale.natAbs)) LateriteError.invalidPriceUpdate
  let numerator := if scale ≥ 0 then u128? (worth * factor) else some worth
  let denominator := if scale ≥ 0 then some assetPrice else u128? (assetPrice * factor)
  let scaled ← okOr (do
      let n ← numerator
      let d ← denominator.filter (· > 0)
      u128? (n / d * (10000 - slippageBps)))
    LateriteError.invalidPriceUpdate
  let out := scaled / 10000
  require (out > 0 ∨ amount = 0) LateriteError.amountTooSmall
  okOr (if out < 2 ^ 64 then some (UInt64.ofNat out) else none) LateriteError.invalidPriceUpdate

/-- A minimum output for a positive amount is positive. -/
theorem minOut_pos {amount out : UInt64} {payment asset : Quote} {paymentDecimals assetDecimals : UInt8}
    (h : minOut amount payment paymentDecimals asset assetDecimals = .ok out)
    (hamount : amount ≠ 0) : 0 < out.toNat := by
  simp only [minOut, bind_eq_ok, okOr_eq_ok, require_eq_ok] at h
  obtain ⟨factor, -, scaled, -, -, hpos, hout⟩ := h
  split at hout
  · rw [← Option.some.inj hout, UInt64.toNat_ofNat_of_lt' ‹_›]
    exact hpos.resolve_right hamount
  · cases hout

namespace Reader

theorem word_lt {n value : ℕ} {bytes rest : List UInt8} (h : word n bytes = .ok (value, rest)) :
    value < 256 ^ n := by
  simp only [word, take, bind_eq_ok, require_eq_ok, pure_eq_ok] at h
  obtain ⟨⟨head, tail⟩, ⟨-, hn, heq⟩, hvalue⟩ := h
  simp only [Prod.mk.injEq] at heq hvalue
  obtain ⟨rfl, rfl⟩ := heq
  rw [← hvalue.1]
  simpa [Nat.min_eq_left hn] using LittleEndian.toNat_lt (bytes.take n)

theorem optional_lt {value : ℕ} {bytes rest : List UInt8}
    (h : optional bytes = .ok (some value, rest)) : value < 2 ^ 64 := by
  simp only [optional, bind_eq_ok] at h
  obtain ⟨⟨flag, tail⟩, -, h⟩ := h
  split at h
  · simp at h
  · split at h
    · simp only [bind_eq_ok, pure_eq_ok] at h
      obtain ⟨⟨w, tail'⟩, hw, heq⟩ := h
      simp only [Prod.mk.injEq, Option.some.injEq] at heq
      rw [← heq.1]
      exact word_lt hw
    · simp at h

theorem noPanic_take (n : ℕ) (bytes : List UInt8) : NoPanic (take n bytes) :=
  NoPanic.bind (NoPanic.require _ _) fun _ _ => NoPanic.pure _

theorem noPanic_skip (n : ℕ) (bytes : List UInt8) : NoPanic (skip n bytes) :=
  NoPanic.bind (NoPanic.require _ _) fun _ _ => NoPanic.pure _

theorem noPanic_word (n : ℕ) (bytes : List UInt8) : NoPanic (word n bytes) :=
  NoPanic.bind (noPanic_take n bytes) fun _ _ => NoPanic.pure _

theorem noPanic_nonzero (bytes : List UInt8) : NoPanic (nonzero bytes) :=
  NoPanic.bind (noPanic_word 8 bytes) fun _ _ => NoPanic.pure _

theorem noPanic_i16 (bytes : List UInt8) : NoPanic (i16 bytes) :=
  NoPanic.bind (noPanic_word 2 bytes) fun _ _ => NoPanic.pure _

theorem noPanic_optional (bytes : List UInt8) : NoPanic (optional bytes) := by
  refine NoPanic.bind (noPanic_word 1 bytes) fun _ _ => ?_
  refine NoPanic.ite (fun _ => NoPanic.pure _) fun _ => NoPanic.ite (fun _ => ?_) fun _ => ?_
  · exact NoPanic.bind (noPanic_word 8 _) fun _ _ => NoPanic.pure _
  · exact NoPanic.refusal _

end Reader

/-- The update time a feed holds is a 64-bit word. -/
def Feed.Timed (feed : Feed) : Prop := ∀ t, feed.updatedAt = some t → t < 2 ^ 64

theorem readProperty_timed {property : ℕ} {feed feed' : Feed} {bytes rest : List UInt8}
    (h : readProperty property feed bytes = .ok (feed', rest)) (ht : feed.Timed) : feed'.Timed := by
  unfold readProperty at h
  split at h <;> simp only [bind_eq_ok, pure_eq_ok, Prod.mk.injEq, reduceCtorEq] at h
  case h_4 =>
    obtain ⟨⟨updatedAt, tail⟩, hread, rfl, -⟩ := h
    intro t htime
    have hsome : Reader.optional bytes = .ok (some t, tail) := by rw [hread, ← htime]
    exact Reader.optional_lt hsome
  all_goals
    obtain ⟨_, -, rfl, -⟩ := h
    exact ht

theorem readProperties_timed {n : ℕ} {feed feed' : Feed} {bytes rest : List UInt8}
    (h : readProperties n feed bytes = .ok (feed', rest)) (ht : feed.Timed) : feed'.Timed := by
  induction n generalizing feed bytes with
  | zero =>
    simp only [readProperties, pure_eq_ok, Prod.mk.injEq] at h
    exact h.1 ▸ ht
  | succ n ih =>
    simp only [readProperties, bind_eq_ok] at h
    obtain ⟨_, -, ⟨next, _⟩, hone, hrest⟩ := h
    exact ih hrest (readProperty_timed hone ht)

theorem findFeedAmong_timed {feedId : UInt32} {n : ℕ} {bytes : List UInt8} {feed : Feed}
    (h : findFeedAmong feedId n bytes = .ok (some feed)) : feed.Timed := by
  induction n generalizing bytes with
  | zero => simp [findFeedAmong] at h
  | succ n ih =>
    simp only [findFeedAmong, bind_eq_ok] at h
    obtain ⟨_, -, _, -, ⟨next, _⟩, hread, h⟩ := h
    split at h
    · rw [pure_eq_ok, Option.some.injEq] at h
      exact h ▸ readProperties_timed hread (by simp [Feed.Timed])
    · exact ih h

/-- A price is accepted only while the clock is within a minute of a 64-bit microsecond time. -/
theorem quote_clock {message : List UInt8} {feedId : UInt32} {now : ℤ} {q : Quote}
    (h : quote message feedId now = .ok q) (hfeed : feedId ≠ 0) : now < 2 ^ 45 := by
  simp only [quote, hfeed, if_false, bind_eq_ok, okOr_eq_ok] at h
  obtain ⟨bytes, -, found, hfound, feed, rfl, hquote⟩ := h
  simp only [findFeed, bind_eq_ok] at hfound
  obtain ⟨_, -, _, -, _, -, _, -, hfound⟩ := hfound
  have htimed := findFeedAmong_timed hfound
  unfold Feed.quote at hquote
  split at hquote
  · rename_i updatedAt _ _ _ hupdated
    simp only [bind_eq_ok, require_eq_ok] at hquote
    obtain ⟨_, -, _, -, _, hfresh, -⟩ := hquote
    have hlt := htimed _ hupdated
    unfold I64.saturatingSub I64.minValue I64.maxValue maxPriceAgeSeconds at hfresh
    omega
  · cases hquote

theorem noPanic_payload (message : List UInt8) : NoPanic (payload message) := by
  refine NoPanic.bind (Reader.noPanic_word 4 message) fun _ _ => ?_
  refine NoPanic.bind (NoPanic.require _ _) fun _ _ => ?_
  refine NoPanic.bind (Reader.noPanic_skip _ _) fun _ _ => ?_
  refine NoPanic.bind (Reader.noPanic_word 2 _) fun _ _ => ?_
  exact NoPanic.bind (NoPanic.require _ _) fun _ _ => NoPanic.pure _

theorem noPanic_readProperty (property : ℕ) (feed : Feed) (bytes : List UInt8) :
    NoPanic (readProperty property feed bytes) := by
  unfold readProperty
  split
  case h_1 | h_3 => exact NoPanic.bind (Reader.noPanic_nonzero _) fun _ _ => NoPanic.pure _
  case h_2 => exact NoPanic.bind (Reader.noPanic_i16 _) fun _ _ => NoPanic.pure _
  case h_4 | h_11 | h_12 | h_13 =>
    exact NoPanic.bind (Reader.noPanic_optional _) fun _ _ => NoPanic.pure _
  case h_14 => exact NoPanic.refusal _
  all_goals exact NoPanic.bind (Reader.noPanic_skip _ _) fun _ _ => NoPanic.pure _

theorem noPanic_readProperties (n : ℕ) (feed : Feed) (bytes : List UInt8) :
    NoPanic (readProperties n feed bytes) := by
  induction n generalizing feed bytes with
  | zero => exact NoPanic.pure _
  | succ n ih =>
    refine NoPanic.bind (Reader.noPanic_word 1 bytes) fun _ _ => ?_
    exact NoPanic.bind (noPanic_readProperty _ _ _) fun _ _ => ih _ _

theorem noPanic_findFeedAmong (feedId : UInt32) (n : ℕ) (bytes : List UInt8) :
    NoPanic (findFeedAmong feedId n bytes) := by
  induction n generalizing bytes with
  | zero => exact NoPanic.pure _
  | succ n ih =>
    refine NoPanic.bind (Reader.noPanic_word 4 bytes) fun _ _ => ?_
    refine NoPanic.bind (Reader.noPanic_word 1 _) fun _ _ => ?_
    refine NoPanic.bind (noPanic_readProperties _ _ _) fun _ _ => ?_
    exact NoPanic.ite (fun _ => NoPanic.pure _) fun _ => ih _

theorem noPanic_findFeed (payload : List UInt8) (feedId : UInt32) :
    NoPanic (findFeed payload feedId) := by
  refine NoPanic.bind (Reader.noPanic_word 4 payload) fun _ _ => ?_
  refine NoPanic.bind (NoPanic.require _ _) fun _ _ => ?_
  refine NoPanic.bind (Reader.noPanic_skip _ _) fun _ _ => ?_
  exact NoPanic.bind (Reader.noPanic_word 1 _) fun _ _ => noPanic_findFeedAmong _ _ _

theorem Feed.noPanic_quote (feed : Feed) (now : ℤ) : NoPanic (feed.quote now) := by
  unfold Feed.quote
  split
  · refine NoPanic.bind (NoPanic.require _ _) fun _ _ => ?_
    refine NoPanic.bind (NoPanic.require _ _) fun _ _ => ?_
    refine NoPanic.bind (NoPanic.require _ _) fun _ _ => ?_
    exact NoPanic.bind (NoPanic.require _ _) fun _ _ => NoPanic.pure _
  · exact NoPanic.refusal _

/-- No bytes make the price parser abort. -/
theorem noPanic_quote (message : List UInt8) (feedId : UInt32) (now : ℤ) :
    NoPanic (quote message feedId now) := by
  refine NoPanic.ite (fun _ => ?_) fun _ => ?_
  · exact NoPanic.bind (NoPanic.require _ _) fun _ _ => NoPanic.pure _
  · refine NoPanic.bind (noPanic_payload message) fun _ _ => ?_
    refine NoPanic.bind (noPanic_findFeed _ _) fun _ _ => ?_
    exact NoPanic.bind (NoPanic.okOr _ _) fun _ _ => Feed.noPanic_quote _ _

theorem noPanic_minOut (amount : UInt64) (payment asset : Quote)
    (paymentDecimals assetDecimals : UInt8) :
    NoPanic (minOut amount payment paymentDecimals asset assetDecimals) := by
  refine NoPanic.bind (NoPanic.okOr _ _) fun _ _ => ?_
  refine NoPanic.bind (NoPanic.okOr _ _) fun _ _ => ?_
  exact NoPanic.bind (NoPanic.require _ _) fun _ _ => NoPanic.okOr _ _

end Laterite
