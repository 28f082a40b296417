import Laterite.ExactReading
import Laterite.PythPrices

/-!
# The format of price updates

An update names feeds, each a list of properties in any order. Encoded into bytes and read
by the program, it yields the values of the first feed with the requested number, a later
property replacing an earlier one; and bytes that yield a quote begin as such an encoding
does, up to the feed that was found.
-/

namespace LittleEndian

/-- A 64-bit word read as two's complement is the signed word of the same bits. -/
theorem signed_toNat64 (value : UInt64) : signed 64 value.toNat = value.toInt64.toInt := by
  have hlt := value.toNat_lt
  rw [Int64.toInt, UInt64.toBitVec_toInt64, BitVec.toInt_eq_toNat_cond, UInt64.toNat_toBitVec]
  unfold signed
  split <;> split <;> omega

/-- A 16-bit word read as two's complement is the signed word of the same bits. -/
theorem signed_toNat16 (value : UInt16) : signed 16 value.toNat = value.toInt16.toInt := by
  have hlt := value.toNat_lt
  rw [Int16.toInt, UInt16.toBitVec_toInt16, BitVec.toInt_eq_toNat_cond, UInt16.toNat_toBitVec]
  unfold signed
  split <;> split <;> omega

/-- A signed word that is not negative is the unsigned word of the same bits. -/
theorem toNat_toUInt64 {value : Int64} (h : 0 ≤ value.toInt) :
    (value.toUInt64.toNat : ℤ) = value.toInt := by
  have hword := signed_toNat64 value.toUInt64
  have hlt := value.toUInt64.toNat_lt
  rw [Int64.toInt64_toUInt64] at hword
  unfold signed at hword
  split at hword
  · exact hword
  · omega

theorem ofNat_toInt_toNat {value : Int64} (h : 0 ≤ value.toInt) :
    UInt64.ofNat value.toInt.toNat = value.toUInt64 := by
  rw [← toNat_toUInt64 h, Int.toNat_natCast, UInt64.ofNat_toNat]

end LittleEndian

namespace Laterite

open CheckedComputation ExactReading

/-- One property of a feed. The parser skips those a quote does not use. -/
inductive Property where
  | price (value : Int64)
  | exponent (value : Int16)
  | confidence (value : Int64)
  | updatedAt (value : Option UInt64)
  | eightBytes (number : ℕ) (number_mem : number ∈ [1, 2, 10, 11]) (value : UInt64)
  | twoBytes (number : ℕ) (number_mem : number ∈ [3, 9]) (value : UInt16)
  | presence (number : ℕ) (number_mem : number ∈ [6, 7, 8]) (value : Option UInt64)

namespace Property

def number : Property → ℕ
  | price _ => 0
  | exponent _ => 4
  | confidence _ => 5
  | updatedAt _ => 12
  | eightBytes number _ _ => number
  | twoBytes number _ _ => number
  | presence number _ _ => number

/-- A presence flag and the value when present. -/
def optionalBytes : Option UInt64 → List UInt8
  | none => LittleEndian.bytes 1 0
  | some value => LittleEndian.bytes 1 1 ++ LittleEndian.bytes 8 value.toNat

def body : Property → List UInt8
  | price value => LittleEndian.bytes 8 value.toUInt64.toNat
  | exponent value => LittleEndian.bytes 2 value.toUInt16.toNat
  | confidence value => LittleEndian.bytes 8 value.toUInt64.toNat
  | updatedAt value => optionalBytes value
  | eightBytes _ _ value => LittleEndian.bytes 8 value.toNat
  | twoBytes _ _ value => LittleEndian.bytes 2 value.toNat
  | presence _ _ value => optionalBytes value

def encode (self : Property) : List UInt8 := LittleEndian.bytes 1 self.number ++ self.body

theorem number_lt (self : Property) : self.number < 256 := by
  cases self with
  | eightBytes number h | twoBytes number h | presence number h =>
    simp only [List.mem_cons, List.not_mem_nil, or_false] at h
    simp only [Property.number]
    omega
  | price | exponent | confidence | updatedAt => simp [Property.number]

/-- A price or a confidence, where 0 stands for none. -/
def nonzero (value : Int64) : Option ℤ := if value = 0 then none else some value.toInt

def store (feed : Feed) : Property → Feed
  | price value => { feed with price := nonzero value }
  | exponent value => { feed with exponent := some value.toInt }
  | confidence value => { feed with confidence := nonzero value }
  | updatedAt value => { feed with updatedAt := value.map UInt64.toNat }
  | eightBytes _ _ _ => feed
  | twoBytes _ _ _ => feed
  | presence _ _ _ => feed

/-- The number read from the word's bytes, or none. -/
theorem nonzero_toInt64 (word : UInt64) :
    nonzero word.toInt64 =
      if word.toNat = 0 then none else some (LittleEndian.signed 64 word.toNat) := by
  have hzero : word.toInt64 = 0 ↔ word.toNat = 0 := by
    constructor
    · intro h
      rw [← UInt64.toUInt64_toInt64 word, h]
      rfl
    · intro h
      have hword : word = 0 := UInt64.toNat_inj.mp h
      rw [hword]
      rfl
  unfold nonzero
  by_cases h : word.toNat = 0
  · rw [if_pos (hzero.mpr h), if_pos h]
  · rw [if_neg (mt hzero.mp h), if_neg h, LittleEndian.signed_toNat64]

def price? : Property → Option Int64
  | price value => some value
  | _ => none

def confidence? : Property → Option Int64
  | confidence value => some value
  | _ => none

def exponent? : Property → Option Int16
  | exponent value => some value
  | _ => none

def updatedAt? : Property → Option (Option UInt64)
  | updatedAt value => some value
  | _ => none

end Property

/-- A feed of an update: its number and its properties, in the order they are written. -/
structure FeedEntry where
  id : UInt32
  properties : List Property
  length_lt : properties.length < 256

namespace FeedEntry

def encode (self : FeedEntry) : List UInt8 :=
  LittleEndian.bytes 4 self.id.toNat ++ LittleEndian.bytes 1 self.properties.length ++
    self.properties.flatMap Property.encode

def price (self : FeedEntry) : Option Int64 :=
  (self.properties.filterMap Property.price?).getLast?.filter (· ≠ 0)

def confidence (self : FeedEntry) : Option Int64 :=
  (self.properties.filterMap Property.confidence?).getLast?.filter (· ≠ 0)

def exponent (self : FeedEntry) : Option Int16 :=
  (self.properties.filterMap Property.exponent?).getLast?

def updatedAt (self : FeedEntry) : Option UInt64 :=
  (self.properties.filterMap Property.updatedAt?).getLast?.join

def quoted (self : FeedEntry) (now : ℤ) : Result Quote :=
  match self.price, self.confidence, self.exponent, self.updatedAt with
  | some price, some confidence, some exponent, some updatedAt =>
    if price < 0 ∨ confidence < 0 then .error (.error (.laterite .priceUnavailable))
    else if ((updatedAt.toNat / 1000000 : ℕ) : ℤ) < now - 60 then
      .error (.error (.laterite .stalePrice))
    else if price.toInt * 50 < confidence.toInt * 10000 then
      .error (.error (.laterite .priceUncertain))
    else .ok ⟨price.toUInt64, confidence.toUInt64, exponent⟩
  | _, _, _, _ => .error (.error (.laterite .priceUnavailable))

end FeedEntry

def payloadBytes (stamp : Vector UInt8 9) (count : ℕ) (feeds : List FeedEntry)
    (trailing : List UInt8) : List UInt8 :=
  LittleEndian.bytes 4 payloadFormatMagic ++ stamp.toList ++ LittleEndian.bytes 1 count ++
    feeds.flatMap FeedEntry.encode ++ trailing

/-- A payload under its signature and public key. -/
def messageBytes (signed : Vector UInt8 96) (payload : List UInt8) : List UInt8 :=
  LittleEndian.bytes 4 solanaFormatMagic ++ signed.toList ++ LittleEndian.bytes 2 payload.length ++
    payload

structure PriceUpdate where
  signed : Vector UInt8 96
  stamp : Vector UInt8 9
  feeds : List FeedEntry
  trailing : List UInt8
  feeds_lt : feeds.length < 256
  payload_lt : (payloadBytes stamp feeds.length feeds trailing).length < 65536

def PriceUpdate.encode (self : PriceUpdate) : List UInt8 :=
  messageBytes self.signed (payloadBytes self.stamp self.feeds.length self.feeds self.trailing)

theorem exact_word (n : ℕ) :
    Exact (Reader.word n) fun value code => value < 256 ^ n ∧ code = LittleEndian.bytes n value := by
  have htake : Exact (Reader.take n) fun a code => code = a ∧ a.length = n :=
    ExactReading.exact_take n (ProgramError.laterite .invalidPriceUpdate)
  refine Exact.congr (htake.map LittleEndian.toNat) fun value code => ?_
  constructor
  · rintro ⟨_, ⟨rfl, rfl⟩, rfl⟩
    exact ⟨LittleEndian.toNat_lt code, (LittleEndian.bytes_toNat code).symm⟩
  · rintro ⟨hlt, hcode⟩
    obtain ⟨hlength, hvalue⟩ := (LittleEndian.bytes_eq_iff hlt).mp hcode.symm
    exact ⟨code, ⟨rfl, hlength⟩, hvalue⟩

theorem skip_eq_ok {n : ℕ} {bytes rest : List UInt8} :
    Reader.skip n bytes = .ok rest ↔ ∃ code : List UInt8, code.length = n ∧ bytes = code ++ rest := by
  rw [Reader.skip, bind_eq_ok]
  constructor
  · rintro ⟨_, hlength, hdrop⟩
    rw [require_eq_ok] at hlength
    rw [pure_eq_ok] at hdrop
    exact ⟨bytes.take n, List.length_take_of_le hlength, by rw [← hdrop, List.take_append_drop]⟩
  · rintro ⟨code, rfl, rfl⟩
    exact ⟨(), require_eq_ok.mpr (by simp), by rw [List.drop_left]; rfl⟩

theorem exact_nonzero :
    Exact Reader.nonzero fun value code =>
      ∃ word : Int64, code = LittleEndian.bytes 8 word.toUInt64.toNat ∧
        Property.nonzero word = value := by
  refine Exact.congr ((exact_word 8).map fun value =>
    if value = 0 then none else some (LittleEndian.signed 64 value)) fun value code => ?_
  constructor
  · rintro ⟨x, ⟨hlt, rfl⟩, rfl⟩
    have hword : (UInt64.ofNat x).toNat = x := UInt64.toNat_ofNat_of_lt' hlt
    refine ⟨(UInt64.ofNat x).toInt64, ?_, ?_⟩
    · rw [UInt64.toUInt64_toInt64, hword]
    · rw [Property.nonzero_toInt64, hword]
  · rintro ⟨word, rfl, rfl⟩
    refine ⟨word.toUInt64.toNat, ⟨word.toUInt64.toNat_lt, rfl⟩, ?_⟩
    rw [← Property.nonzero_toInt64, Int64.toInt64_toUInt64]

theorem exact_i16 :
    Exact Reader.i16 fun value code =>
      ∃ word : Int16, code = LittleEndian.bytes 2 word.toUInt16.toNat ∧ word.toInt = value := by
  refine Exact.congr ((exact_word 2).map (LittleEndian.signed 16)) fun value code => ?_
  constructor
  · rintro ⟨x, ⟨hlt, rfl⟩, rfl⟩
    have hword : (UInt16.ofNat x).toNat = x := UInt16.toNat_ofNat_of_lt' hlt
    refine ⟨(UInt16.ofNat x).toInt16, ?_, ?_⟩
    · rw [UInt16.toUInt16_toInt16, hword]
    · rw [← LittleEndian.signed_toNat16, hword]
  · rintro ⟨word, rfl, rfl⟩
    refine ⟨word.toUInt16.toNat, ⟨word.toUInt16.toNat_lt, rfl⟩, ?_⟩
    rw [LittleEndian.signed_toNat16, Int16.toInt16_toUInt16]

theorem exact_optional :
    Exact Reader.optional fun time code =>
      ∃ value : Option UInt64, code = Property.optionalBytes value ∧ value.map UInt64.toNat = time := by
  intro bytes time rest
  rw [Reader.optional, Reader.u8, (exact_word 1).bind_eq_ok]
  constructor
  · rintro ⟨flag, code, tail, ⟨-, rfl⟩, rfl, hread⟩
    dsimp only at hread
    split at hread
    · rename_i hflag
      rw [pure_eq_ok, Prod.mk.injEq] at hread
      exact ⟨_, ⟨none, rfl, hread.1⟩, by rw [hflag, hread.2]; rfl⟩
    · split at hread
      · rename_i hflag
        rw [(exact_word 8).bind_eq_ok] at hread
        obtain ⟨x, code, tail', ⟨hlt, rfl⟩, rfl, hpure⟩ := hread
        rw [pure_eq_ok, Prod.mk.injEq] at hpure
        obtain ⟨rfl, rfl⟩ := hpure
        have hword : (UInt64.ofNat x).toNat = x := UInt64.toNat_ofNat_of_lt' hlt
        refine ⟨_, ⟨some (UInt64.ofNat x), rfl, ?_⟩, ?_⟩
        · rw [Option.map_some, hword]
        · rw [Property.optionalBytes, hword, hflag, List.append_assoc]
      · cases hread
  · rintro ⟨_, ⟨value, rfl, rfl⟩, rfl⟩
    cases value with
    | none => exact ⟨0, _, rest, ⟨by decide, rfl⟩, rfl, rfl⟩
    | some word =>
      refine ⟨1, _, LittleEndian.bytes 8 word.toNat ++ rest, ⟨by decide, rfl⟩,
        List.append_assoc _ _ _, ?_⟩
      dsimp only
      rw [if_neg (by decide), if_pos rfl, (exact_word 8).bind_eq_ok]
      exact ⟨word.toNat, _, rest, ⟨word.toNat_lt, rfl⟩, rfl, rfl⟩

theorem readProperty_encoded (property : Property) (feed : Feed) (rest : List UInt8) :
    readProperty property.number feed (property.body ++ rest) = .ok (property.store feed, rest) := by
  have hskip (n : ℕ) (code : List UInt8) (hlength : code.length = n) :
      Reader.skip n (code ++ rest) = .ok rest := skip_eq_ok.mpr ⟨code, hlength, rfl⟩
  cases property with
  | price word =>
    have hread := (exact_nonzero _ _ rest).mpr ⟨_, ⟨word, rfl, rfl⟩, rfl⟩
    rw [Property.number, readProperty, Property.body, hread]
    rfl
  | exponent word =>
    have hread := (exact_i16 _ _ rest).mpr ⟨_, ⟨word, rfl, rfl⟩, rfl⟩
    rw [Property.number, readProperty, Property.body, hread]
    rfl
  | confidence word =>
    have hread := (exact_nonzero _ _ rest).mpr ⟨_, ⟨word, rfl, rfl⟩, rfl⟩
    rw [Property.number, readProperty, Property.body, hread]
    rfl
  | updatedAt value =>
    have hread := (exact_optional _ _ rest).mpr ⟨_, ⟨value, rfl, rfl⟩, rfl⟩
    rw [Property.number, readProperty, Property.body, hread]
    rfl
  | eightBytes number hnumber value =>
    have hread := hskip 8 (LittleEndian.bytes 8 value.toNat) (LittleEndian.length_bytes _ _)
    simp only [List.mem_cons, List.not_mem_nil, or_false] at hnumber
    rcases hnumber with rfl | rfl | rfl | rfl
    all_goals
      rw [Property.number, readProperty, Property.body, hread]
      rfl
  | twoBytes number hnumber value =>
    have hread := hskip 2 (LittleEndian.bytes 2 value.toNat) (LittleEndian.length_bytes _ _)
    simp only [List.mem_cons, List.not_mem_nil, or_false] at hnumber
    rcases hnumber with rfl | rfl
    all_goals
      rw [Property.number, readProperty, Property.body, hread]
      rfl
  | presence number hnumber value =>
    have hread := (exact_optional _ _ rest).mpr ⟨_, ⟨value, rfl, rfl⟩, rfl⟩
    simp only [List.mem_cons, List.not_mem_nil, or_false] at hnumber
    rcases hnumber with rfl | rfl | rfl
    all_goals
      rw [Property.number, readProperty, Property.body, hread]
      rfl

theorem exists_word64 {code : List UInt8} (h : code.length = 8) :
    ∃ value : UInt64, code = LittleEndian.bytes 8 value.toNat := by
  have hlt : LittleEndian.toNat code < 2 ^ 64 := by
    simpa [h] using LittleEndian.toNat_lt code
  refine ⟨UInt64.ofNat (LittleEndian.toNat code), ?_⟩
  rw [UInt64.toNat_ofNat_of_lt' hlt, ← h, LittleEndian.bytes_toNat]

theorem exists_word16 {code : List UInt8} (h : code.length = 2) :
    ∃ value : UInt16, code = LittleEndian.bytes 2 value.toNat := by
  have hlt : LittleEndian.toNat code < 2 ^ 16 := by
    simpa [h] using LittleEndian.toNat_lt code
  refine ⟨UInt16.ofNat (LittleEndian.toNat code), ?_⟩
  rw [UInt16.toNat_ofNat_of_lt' hlt, ← h, LittleEndian.bytes_toNat]

theorem readProperty_eq_ok {number : ℕ} {feed feed' : Feed} {bytes rest : List UInt8}
    (h : readProperty number feed bytes = .ok (feed', rest)) :
    ∃ property : Property, property.number = number ∧ property.store feed = feed' ∧
      bytes = property.body ++ rest := by
  unfold readProperty at h
  split at h
  case h_1 =>
    rw [exact_nonzero.bind_eq_ok] at h
    obtain ⟨_, _, _, ⟨word, rfl, rfl⟩, rfl, hpure⟩ := h
    cases hpure
    exact ⟨.price word, rfl, rfl, rfl⟩
  case h_2 =>
    rw [exact_i16.bind_eq_ok] at h
    obtain ⟨_, _, _, ⟨word, rfl, rfl⟩, rfl, hpure⟩ := h
    cases hpure
    exact ⟨.exponent word, rfl, rfl, rfl⟩
  case h_3 =>
    rw [exact_nonzero.bind_eq_ok] at h
    obtain ⟨_, _, _, ⟨word, rfl, rfl⟩, rfl, hpure⟩ := h
    cases hpure
    exact ⟨.confidence word, rfl, rfl, rfl⟩
  case h_4 =>
    rw [exact_optional.bind_eq_ok] at h
    obtain ⟨_, _, _, ⟨value, rfl, rfl⟩, rfl, hpure⟩ := h
    cases hpure
    exact ⟨.updatedAt value, rfl, rfl, rfl⟩
  case h_11 | h_12 | h_13 =>
    rw [exact_optional.bind_eq_ok] at h
    obtain ⟨_, _, _, ⟨value, rfl, rfl⟩, rfl, hpure⟩ := h
    cases hpure
    exact ⟨.presence _ (by decide) value, rfl, rfl, rfl⟩
  case h_14 => cases h
  case h_9 | h_10 =>
    rw [bind_eq_ok] at h
    obtain ⟨_, hskip, hpure⟩ := h
    cases hpure
    obtain ⟨code, hlength, rfl⟩ := skip_eq_ok.mp hskip
    obtain ⟨value, rfl⟩ := exists_word16 hlength
    exact ⟨.twoBytes _ (by decide) value, rfl, rfl, rfl⟩
  all_goals
    rw [bind_eq_ok] at h
    obtain ⟨_, hskip, hpure⟩ := h
    cases hpure
    obtain ⟨code, hlength, rfl⟩ := skip_eq_ok.mp hskip
    obtain ⟨value, rfl⟩ := exists_word64 hlength
    exact ⟨.eightBytes _ (by decide) value, rfl, rfl, rfl⟩

theorem exact_readProperty (number : ℕ) (feed : Feed) :
    Exact (readProperty number feed) fun feed' code =>
      ∃ property : Property, property.number = number ∧ property.store feed = feed' ∧
        property.body = code := by
  intro bytes feed' rest
  constructor
  · intro h
    obtain ⟨property, hnumber, hstore, hbytes⟩ := readProperty_eq_ok h
    exact ⟨property.body, ⟨property, hnumber, hstore, rfl⟩, hbytes⟩
  · rintro ⟨_, ⟨property, rfl, rfl, rfl⟩, rfl⟩
    exact readProperty_encoded property feed rest

theorem exact_readProperties (n : ℕ) (feed : Feed) :
    Exact (readProperties n feed) fun feed' code =>
      ∃ properties : List Property, properties.length = n ∧
        properties.foldl (fun feed property => property.store feed) feed = feed' ∧
        properties.flatMap Property.encode = code := by
  induction n generalizing feed with
  | zero =>
    intro bytes feed' rest
    rw [readProperties, pure_eq_ok, Prod.mk.injEq]
    constructor
    · rintro ⟨rfl, rfl⟩
      exact ⟨[], ⟨[], rfl, rfl, rfl⟩, rfl⟩
    · rintro ⟨_, ⟨properties, hlength, rfl, rfl⟩, rfl⟩
      rw [List.length_eq_zero_iff.mp hlength]
      exact ⟨rfl, rfl⟩
  | succ n ih =>
    intro bytes feed' rest
    rw [readProperties, Reader.u8, (exact_word 1).bind_eq_ok]
    constructor
    · rintro ⟨number, _, _, ⟨-, rfl⟩, rfl, hread⟩
      dsimp only at hread
      rw [(exact_readProperty number feed).bind_eq_ok] at hread
      obtain ⟨next, _, tail, ⟨property, rfl, rfl, rfl⟩, rfl, hrest⟩ := hread
      obtain ⟨_, ⟨properties, rfl, rfl, rfl⟩, rfl⟩ := (ih _ _ _ _).mp hrest
      refine ⟨_, ⟨property :: properties, rfl, rfl, rfl⟩, ?_⟩
      simp only [List.flatMap_cons, Property.encode, List.append_assoc]
    · rintro ⟨_, ⟨properties, hlength, rfl, rfl⟩, rfl⟩
      obtain ⟨property, properties, rfl⟩ := List.exists_cons_of_length_eq_add_one hlength
      refine ⟨property.number, _, property.body ++ (properties.flatMap Property.encode ++ rest),
        ⟨property.number_lt, rfl⟩, ?_, ?_⟩
      · simp only [List.flatMap_cons, Property.encode, List.append_assoc]
      · dsimp only
        rw [(exact_readProperty property.number feed).bind_eq_ok]
        refine ⟨_, _, _, ⟨property, rfl, rfl, rfl⟩, rfl, (ih _ _ _ _).mpr ?_⟩
        exact ⟨_, ⟨properties, by simpa using hlength, rfl, rfl⟩, rfl⟩

/-- A field each property sets or leaves alone holds what the last one to set it gave. -/
theorem foldl_field {γ : Type} {field : Feed → γ} {sets : Property → Option γ}
    (h : ∀ feed property, field (property.store feed) = (sets property).getD (field feed))
    (properties : List Property) (feed : Feed) :
    field (properties.foldl (fun feed property => property.store feed) feed) =
      (properties.filterMap sets).getLast?.getD (field feed) := by
  induction properties generalizing feed with
  | nil => rfl
  | cons property properties ih =>
    rw [List.foldl_cons, ih, h]
    cases hsets : sets property with
    | none => rw [List.filterMap_cons_none hsets, Option.getD_none]
    | some value => rw [List.filterMap_cons_some hsets, List.getLast?_cons, Option.getD_some,
        Option.getD_some]

theorem getLast?_filterMap_map {γ δ : Type} (sets : Property → Option γ) (convert : γ → δ)
    (properties : List Property) :
    (properties.filterMap fun property => (sets property).map convert).getLast? =
      (properties.filterMap sets).getLast?.map convert := by
  rw [← List.map_filterMap, List.getLast?_map]

theorem getD_map_nonzero (word : Option Int64) :
    (word.map Property.nonzero).getD none = (word.filter (· ≠ 0)).map Int64.toInt := by
  cases word with
  | none => rfl
  | some word => by_cases h : word = 0 <;> simp [Property.nonzero, h, Option.filter]

namespace FeedEntry

/-- What the program reads of the feed. -/
def feed (self : FeedEntry) : Feed :=
  self.properties.foldl (fun feed property => property.store feed) {}

theorem feed_price (self : FeedEntry) : self.feed.price = self.price.map Int64.toInt := by
  have hset (feed : Feed) (property : Property) : (property.store feed).price =
      (property.price?.map Property.nonzero).getD feed.price := by
    cases property <;> rfl
  rw [feed, foldl_field hset, getLast?_filterMap_map]
  exact getD_map_nonzero _

theorem feed_confidence (self : FeedEntry) :
    self.feed.confidence = self.confidence.map Int64.toInt := by
  have hset (feed : Feed) (property : Property) : (property.store feed).confidence =
      (property.confidence?.map Property.nonzero).getD feed.confidence := by
    cases property <;> rfl
  rw [feed, foldl_field hset, getLast?_filterMap_map]
  exact getD_map_nonzero _

theorem feed_exponent (self : FeedEntry) : self.feed.exponent = self.exponent.map Int16.toInt := by
  have hset (feed : Feed) (property : Property) : (property.store feed).exponent =
      (property.exponent?.map fun value => some value.toInt).getD feed.exponent := by
    cases property <;> rfl
  rw [feed, foldl_field hset, getLast?_filterMap_map, exponent]
  cases (self.properties.filterMap Property.exponent?).getLast? <;> rfl

theorem feed_updatedAt (self : FeedEntry) :
    self.feed.updatedAt = self.updatedAt.map UInt64.toNat := by
  have hset (feed : Feed) (property : Property) : (property.store feed).updatedAt =
      (property.updatedAt?.map fun value => value.map UInt64.toNat).getD feed.updatedAt := by
    cases property <;> rfl
  rw [feed, foldl_field hset, getLast?_filterMap_map, updatedAt]
  cases (self.properties.filterMap Property.updatedAt?).getLast? <;> rfl

/-- The program's checks on the feed it read are the conditions on the values written. -/
theorem quote_feed (self : FeedEntry) (now : ℤ) : self.feed.quote now = self.quoted now := by
  have hsaturating (time : ℕ) : I64.saturatingSub now time ≤ maxPriceAgeSeconds ↔
      ¬(time : ℤ) < now - 60 := by
    unfold I64.saturatingSub I64.minValue I64.maxValue maxPriceAgeSeconds
    omega
  unfold Feed.quote quoted
  rw [self.feed_price, self.feed_confidence, self.feed_exponent, self.feed_updatedAt]
  cases self.price with
  | none => rfl
  | some price =>
    cases self.confidence with
    | none => rfl
    | some confidence =>
      cases self.exponent with
      | none => rfl
      | some exponent =>
        cases self.updatedAt with
        | none => rfl
        | some updatedAt =>
          simp only [Option.map_some, hsaturating, Int64.lt_iff_toInt_lt, Int64.toInt_zero]
          by_cases hsigned : price.toInt < 0 ∨ confidence.toInt < 0
          · rw [if_pos hsigned]
            rcases hsigned with hprice | hconfidence
            · rw [require_of_not (by omega)]
              rfl
            · by_cases hprice : 0 ≤ price.toInt
              · rw [require_of hprice, require_of_not (by omega)]
                rfl
              · rw [require_of_not hprice]
                rfl
          · have hprice : 0 ≤ price.toInt := by omega
            have hconfidence : 0 ≤ confidence.toInt := by omega
            have hbound : confidence.toInt.toNat * 10000 ≤ price.toInt.toNat * maxConfidenceBps ↔
                ¬price.toInt * 50 < confidence.toInt * 10000 := by
              unfold maxConfidenceBps
              omega
            rw [if_neg hsigned, require_of hprice, require_of hconfidence]
            simp only [ok_bind, hbound]
            by_cases hstale : ((updatedAt.toNat / 1000000 : ℕ) : ℤ) < now - 60
            · rw [if_pos hstale, require_of_not (not_not.mpr hstale)]
              rfl
            · rw [if_neg hstale, require_of hstale, ok_bind]
              by_cases huncertain : price.toInt * 50 < confidence.toInt * 10000
              · rw [if_pos huncertain, require_of_not (not_not.mpr huncertain)]
                rfl
              · rw [if_neg huncertain, require_of huncertain, ok_bind, Int16.ofInt_toInt,
                  LittleEndian.ofNat_toInt_toNat hprice, LittleEndian.ofNat_toInt_toNat hconfidence]
                rfl

end FeedEntry

theorem findFeedAmong_succ {feedId : UInt32} {n : ℕ} {bytes : List UInt8} {found : Option Feed} :
    findFeedAmong feedId (n + 1) bytes = .ok found ↔
      ∃ (entry : FeedEntry) (rest : List UInt8), bytes = entry.encode ++ rest ∧
        if entry.id = feedId then found = some entry.feed
        else findFeedAmong feedId n rest = .ok found := by
  rw [findFeedAmong, Reader.u32, (exact_word 4).bind_eq_ok]
  constructor
  · rintro ⟨id, _, _, ⟨hid, rfl⟩, rfl, hread⟩
    dsimp only at hread
    rw [Reader.u8, (exact_word 1).bind_eq_ok] at hread
    obtain ⟨count, _, _, ⟨hcount, rfl⟩, rfl, hread⟩ := hread
    dsimp only at hread
    rw [(exact_readProperties count {}).bind_eq_ok] at hread
    obtain ⟨_, _, rest, ⟨properties, rfl, rfl, rfl⟩, rfl, hread⟩ := hread
    have hword : (UInt32.ofNat id).toNat = id := UInt32.toNat_ofNat_of_lt' hid
    refine ⟨⟨UInt32.ofNat id, properties, hcount⟩, rest, ?_, ?_⟩
    · simp only [FeedEntry.encode, hword, List.append_assoc]
    · dsimp only at hread ⊢
      have hfound : UInt32.ofNat id = feedId ↔ id = feedId.toNat := by
        rw [← UInt32.toNat_inj, hword]
      split at hread
      · rename_i h
        rw [if_pos (hfound.mpr h), ← (pure_eq_ok.mp hread)]
        rfl
      · rename_i h
        rw [if_neg (mt hfound.mp h)]
        exact hread
  · rintro ⟨entry, rest, rfl, hfound⟩
    refine ⟨entry.id.toNat, _, LittleEndian.bytes 1 entry.properties.length ++
      (entry.properties.flatMap Property.encode ++ rest), ⟨entry.id.toNat_lt, rfl⟩, ?_, ?_⟩
    · simp only [FeedEntry.encode, List.append_assoc]
    · dsimp only
      rw [Reader.u8, (exact_word 1).bind_eq_ok]
      refine ⟨_, _, _, ⟨entry.length_lt, rfl⟩, rfl, ?_⟩
      dsimp only
      rw [(exact_readProperties entry.properties.length {}).bind_eq_ok]
      refine ⟨_, _, rest, ⟨entry.properties, rfl, rfl, rfl⟩, rfl, ?_⟩
      dsimp only
      split at hfound
      · rename_i h
        rw [if_pos (congrArg UInt32.toNat h), hfound]
        rfl
      · rename_i h
        rw [if_neg (mt UInt32.toNat_inj.mp h)]
        exact hfound

/-- The feed found is the first of its number, among as many as the payload counts. -/
theorem findFeedAmong_eq_some {feedId : UInt32} {n : ℕ} {bytes : List UInt8} {feed : Feed} :
    findFeedAmong feedId n bytes = .ok (some feed) ↔
      ∃ (before : List FeedEntry) (entry : FeedEntry) (rest : List UInt8),
        bytes = before.flatMap FeedEntry.encode ++ (entry.encode ++ rest) ∧ before.length < n ∧
          (∀ other ∈ before, other.id ≠ feedId) ∧ entry.id = feedId ∧ entry.feed = feed := by
  induction n generalizing bytes with
  | zero => simp [findFeedAmong]
  | succ n ih =>
    rw [findFeedAmong_succ]
    constructor
    · rintro ⟨entry, rest, rfl, hfound⟩
      split at hfound
      · rename_i hid
        rw [Option.some.injEq] at hfound
        exact ⟨[], entry, rest, rfl, Nat.succ_pos n, by simp, hid, hfound.symm⟩
      · rename_i hid
        obtain ⟨before, found, rest, rfl, hlength, hbefore, hrest⟩ := ih.mp hfound
        refine ⟨entry :: before, found, rest, ?_, Nat.succ_lt_succ hlength, ?_, hrest⟩
        · rw [List.flatMap_cons, List.append_assoc]
        · exact List.forall_mem_cons.mpr ⟨hid, hbefore⟩
    · rintro ⟨before, entry, rest, rfl, hlength, hbefore, hid, rfl⟩
      cases before with
      | nil => exact ⟨entry, rest, rfl, by rw [if_pos hid]⟩
      | cons first before =>
        rw [List.forall_mem_cons] at hbefore
        refine ⟨first, _, by rw [List.flatMap_cons, List.append_assoc], ?_⟩
        rw [if_neg hbefore.1]
        exact ih.mpr ⟨before, entry, rest, rfl, Nat.lt_of_succ_lt_succ hlength, hbefore.2, hid, rfl⟩

theorem findFeedAmong_none {feedId : UInt32} {feeds : List FeedEntry} {rest : List UInt8}
    (h : ∀ entry ∈ feeds, entry.id ≠ feedId) :
    findFeedAmong feedId feeds.length (feeds.flatMap FeedEntry.encode ++ rest) = .ok none := by
  induction feeds with
  | nil => rfl
  | cons entry feeds ih =>
    rw [List.forall_mem_cons] at h
    rw [List.length_cons, List.flatMap_cons, List.append_assoc]
    exact findFeedAmong_succ.mpr ⟨entry, _, rfl, by rw [if_neg h.1]; exact ih h.2⟩

theorem exists_vector {n : ℕ} {code : List UInt8} (h : code.length = n) :
    ∃ v : Vector UInt8 n, v.toList = code := by
  subst h
  exact ⟨⟨code.toArray, rfl⟩, rfl⟩

theorem payload_eq_ok {message bytes : List UInt8} :
    payload message = .ok bytes ↔
      ∃ signed : Vector UInt8 96, message = messageBytes signed bytes ∧ bytes.length < 65536 := by
  rw [payload, Reader.u32, (exact_word 4).bind_eq_ok]
  constructor
  · rintro ⟨magic, _, _, ⟨-, rfl⟩, rfl, hread⟩
    dsimp only at hread
    rw [bind_eq_ok] at hread
    obtain ⟨_, hmagic, hread⟩ := hread
    rw [require_eq_ok] at hmagic
    rw [bind_eq_ok] at hread
    obtain ⟨_, hskip, hread⟩ := hread
    obtain ⟨code, hlength, rfl⟩ := skip_eq_ok.mp hskip
    obtain ⟨signed, rfl⟩ := exists_vector hlength
    rw [Reader.u16, (exact_word 2).bind_eq_ok] at hread
    obtain ⟨len, _, rest, ⟨hlen, rfl⟩, rfl, hread⟩ := hread
    dsimp only at hread
    rw [bind_eq_ok] at hread
    obtain ⟨_, hrest, hpure⟩ := hread
    rw [require_eq_ok] at hrest
    rw [pure_eq_ok] at hpure
    obtain rfl := hpure
    refine ⟨signed, ?_, hrest ▸ hlen⟩
    simp only [messageBytes, hmagic, hrest, List.append_assoc]
  · rintro ⟨signed, rfl, hlength⟩
    refine ⟨solanaFormatMagic, _, signed.toList ++ (LittleEndian.bytes 2 bytes.length ++ bytes),
      ⟨by decide, rfl⟩, by simp only [messageBytes, List.append_assoc], ?_⟩
    dsimp only
    rw [require_of rfl, ok_bind, bind_eq_ok]
    refine ⟨_, skip_eq_ok.mpr ⟨signed.toList, by simp, rfl⟩, ?_⟩
    rw [Reader.u16, (exact_word 2).bind_eq_ok]
    refine ⟨bytes.length, _, bytes, ⟨hlength, rfl⟩, rfl, ?_⟩
    dsimp only
    rw [require_of rfl]
    rfl

theorem findFeed_eq_ok {bytes : List UInt8} {feedId : UInt32} {found : Option Feed} :
    findFeed bytes feedId = .ok found ↔
      ∃ (stamp : Vector UInt8 9) (count : ℕ) (rest : List UInt8), count < 256 ∧
        bytes = payloadBytes stamp count [] rest ∧ findFeedAmong feedId count rest = .ok found := by
  rw [findFeed, Reader.u32, (exact_word 4).bind_eq_ok]
  constructor
  · rintro ⟨magic, _, _, ⟨-, rfl⟩, rfl, hread⟩
    dsimp only at hread
    rw [bind_eq_ok] at hread
    obtain ⟨_, hmagic, hread⟩ := hread
    rw [require_eq_ok] at hmagic
    rw [bind_eq_ok] at hread
    obtain ⟨_, hskip, hread⟩ := hread
    obtain ⟨code, hlength, rfl⟩ := skip_eq_ok.mp hskip
    obtain ⟨stamp, rfl⟩ := exists_vector hlength
    rw [Reader.u8, (exact_word 1).bind_eq_ok] at hread
    obtain ⟨count, _, rest, ⟨hcount, rfl⟩, rfl, hread⟩ := hread
    refine ⟨stamp, count, rest, hcount, ?_, hread⟩
    simp only [payloadBytes, hmagic, List.flatMap_nil, List.append_nil, List.append_assoc]
  · rintro ⟨stamp, count, rest, hcount, rfl, hfound⟩
    refine ⟨payloadFormatMagic, _, stamp.toList ++ (LittleEndian.bytes 1 count ++ rest),
      ⟨by decide, rfl⟩, ?_, ?_⟩
    · simp only [payloadBytes, List.flatMap_nil, List.append_nil, List.append_assoc]
    · dsimp only
      rw [require_of rfl, ok_bind, bind_eq_ok]
      refine ⟨_, skip_eq_ok.mpr ⟨stamp.toList, by simp, rfl⟩, ?_⟩
      rw [Reader.u8, (exact_word 1).bind_eq_ok]
      exact ⟨count, _, rest, ⟨hcount, rfl⟩, rfl, hfound⟩

theorem payloadBytes_eq (stamp : Vector UInt8 9) (count : ℕ) (feeds : List FeedEntry)
    (trailing : List UInt8) : payloadBytes stamp count feeds trailing =
      payloadBytes stamp count [] (feeds.flatMap FeedEntry.encode ++ trailing) := by
  simp only [payloadBytes, List.flatMap_nil, List.append_nil, List.append_assoc]

theorem quote_messageBytes {signed : Vector UInt8 96} {stamp : Vector UInt8 9} {count : ℕ}
    {bytes : List UInt8} {feedId : UInt32} {now : ℤ} (hfeed : feedId ≠ 0) (hcount : count < 256)
    (hlength : (payloadBytes stamp count [] bytes).length < 65536) {found : Option Feed}
    (hfound : findFeedAmong feedId count bytes = .ok found) :
    quote (messageBytes signed (payloadBytes stamp count [] bytes)) feedId now =
      match found with
      | some feed => feed.quote now
      | none => .error (.error (.laterite .priceUnavailable)) := by
  have hpayload := payload_eq_ok.mpr ⟨signed, rfl, hlength⟩
  have hfind := findFeed_eq_ok.mpr ⟨stamp, count, bytes, hcount, rfl, hfound⟩
  rw [quote, if_neg hfeed, hpayload, ok_bind, hfind, ok_bind]
  cases found <;> rfl

theorem PriceUpdate.quote_encode (self : PriceUpdate) {feedId : UInt32} (now : ℤ)
    (hfeed : feedId ≠ 0) :
    quote self.encode feedId now =
      match self.feeds.find? (·.id = feedId) with
      | some entry => entry.quoted now
      | none => .error (.error (.laterite .priceUnavailable)) := by
  have hlength := self.payload_lt
  rw [payloadBytes_eq] at hlength
  rw [encode, payloadBytes_eq]
  cases hfind : self.feeds.find? (·.id = feedId) with
  | none =>
    have hother : ∀ entry ∈ self.feeds, entry.id ≠ feedId := by
      simpa using hfind
    exact quote_messageBytes hfeed self.feeds_lt hlength (findFeedAmong_none hother)
  | some entry =>
    obtain ⟨hid, before, after, hfeeds, hbefore⟩ := List.find?_eq_some_iff_append.mp hfind
    have hfound : findFeedAmong feedId self.feeds.length
        (self.feeds.flatMap FeedEntry.encode ++ self.trailing) = .ok (some entry.feed) := by
      refine findFeedAmong_eq_some.mpr
        ⟨before, entry, after.flatMap FeedEntry.encode ++ self.trailing, ?_, ?_, ?_, ?_, rfl⟩
      · simp only [hfeeds, List.flatMap_append, List.flatMap_cons, List.append_assoc]
      · simp [hfeeds]
      · simpa using hbefore
      · simpa using hid
    rw [quote_messageBytes hfeed self.feeds_lt hlength hfound]
    exact entry.quote_feed now

/-- A quote comes from a message that begins as an encoded update does, up to its feed. -/
theorem exists_entry_of_quote {message : List UInt8} {feedId : UInt32} {now : ℤ} {q : Quote}
    (hfeed : feedId ≠ 0) (h : quote message feedId now = .ok q) :
    ∃ (signed : Vector UInt8 96) (stamp : Vector UInt8 9) (count : ℕ) (before : List FeedEntry)
      (entry : FeedEntry) (trailing : List UInt8),
      message = messageBytes signed (payloadBytes stamp count (before ++ [entry]) trailing) ∧
      (payloadBytes stamp count (before ++ [entry]) trailing).length < 65536 ∧
      before.length < count ∧ count < 256 ∧ (∀ other ∈ before, other.id ≠ feedId) ∧
      entry.id = feedId ∧ entry.quoted now = .ok q := by
  rw [quote, if_neg hfeed, bind_eq_ok] at h
  obtain ⟨bytes, hpayload, h⟩ := h
  rw [bind_eq_ok] at h
  obtain ⟨found, hfind, h⟩ := h
  rw [bind_eq_ok] at h
  obtain ⟨feed, hfeed, hquote⟩ := h
  rw [okOr_eq_ok] at hfeed
  obtain rfl := hfeed
  obtain ⟨signed, rfl, hlength⟩ := payload_eq_ok.mp hpayload
  obtain ⟨stamp, count, rest, hcount, rfl, hfound⟩ := findFeed_eq_ok.mp hfind
  obtain ⟨before, entry, trailing, rfl, hbefore, hother, hid, rfl⟩ := findFeedAmong_eq_some.mp hfound
  have hbytes : payloadBytes stamp count [] (before.flatMap FeedEntry.encode ++
      (entry.encode ++ trailing)) = payloadBytes stamp count (before ++ [entry]) trailing := by
    rw [payloadBytes_eq stamp count (before ++ [entry])]
    simp only [List.flatMap_append, List.flatMap_cons, List.flatMap_nil, List.append_nil,
      List.append_assoc]
  rw [hbytes] at hlength ⊢
  rw [entry.quote_feed] at hquote
  exact ⟨signed, stamp, count, before, entry, trailing, rfl, hlength, hbefore, hcount, hother, hid,
    hquote⟩

/-- Quoting an encoded update gives what its first feed of that number says, no bytes make the
parser read past their end, a quote comes only from the beginning of such an encoding in a
message of the length it declares, and feed 0 takes no bytes at all. -/
theorem quote_updates :
    (∀ (update : PriceUpdate) (feedId : UInt32) (now : ℤ), feedId ≠ 0 →
      quote update.encode feedId now =
        match update.feeds.find? (·.id = feedId) with
        | some entry => entry.quoted now
        | none => .error (.error (.laterite .priceUnavailable))) ∧
    (∀ (message : List UInt8) (feedId : UInt32) (now : ℤ), NoPanic (quote message feedId now)) ∧
    (∀ (message : List UInt8) (feedId : UInt32) (now : ℤ) (q : Quote), feedId ≠ 0 →
      quote message feedId now = .ok q →
      ∃ (signed : Vector UInt8 96) (stamp : Vector UInt8 9) (count : ℕ) (before : List FeedEntry)
        (entry : FeedEntry) (trailing : List UInt8),
        message = messageBytes signed (payloadBytes stamp count (before ++ [entry]) trailing) ∧
        (payloadBytes stamp count (before ++ [entry]) trailing).length < 65536 ∧
        before.length < count ∧ count < 256 ∧ (∀ other ∈ before, other.id ≠ feedId) ∧
        entry.id = feedId ∧ entry.quoted now = .ok q) ∧
    ∀ (message : List UInt8) (now : ℤ),
      quote message 0 now =
        if message = [] then .ok Quote.dollar else .error (.error (.laterite .invalidPriceUpdate)) := by
  refine ⟨fun update _ now hfeed => update.quote_encode now hfeed, noPanic_quote,
    fun _ _ _ _ hfeed h => exists_entry_of_quote hfeed h, fun message now => ?_⟩
  rw [quote, if_pos rfl]
  by_cases h : message = []
  · rw [require_of h, if_pos h]
    rfl
  · rw [require_of_not h, if_neg h]
    rfl

end Laterite
