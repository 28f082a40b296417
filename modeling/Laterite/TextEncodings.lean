import Laterite.MachineIntegers
import Mathlib.Data.Nat.Digits.Lemmas

/-!
# Bytes as text

Base 58 writes bytes as one number, most significant digit first, with a zero digit for each
leading zero byte; bytes of one length are told apart by their text. Base 64 writes three bytes
in four characters and is read back.
-/

namespace TextEncodings

abbrev Text := List Char

/-- A letter, a digit or an underscore. -/
def isWord (c : Char) : Bool := c.isAlphanum || c == '_'

/-- The text after a given beginning. -/
def stripPrefix : Text → Text → Option Text
  | [], rest => some rest
  | _ :: _, [] => none
  | c :: start, d :: rest => if c = d then stripPrefix start rest else none

@[simp] theorem stripPrefix_append (start rest : Text) :
    stripPrefix start (start ++ rest) = some rest := by
  induction start with
  | nil => rfl
  | cons c start ih => simpa [stripPrefix] using ih

theorem eq_append_of_stripPrefix {start text rest : Text} (h : stripPrefix start text = some rest) :
    text = start ++ rest := by
  induction start generalizing text with
  | nil => exact Option.some.inj h
  | cons c start ih =>
    cases text with
    | nil => cases h
    | cons d text =>
      rw [stripPrefix] at h
      split at h
      case isTrue hsame => rw [ih h, hsame, List.cons_append]
      case isFalse => cases h

def base58Alphabet : Text := "123456789ABCDEFGHJKLMNPQRSTUVWXYZabcdefghijkmnopqrstuvwxyz".toList

def base58Digit (digit : ℕ) : Char := base58Alphabet.getD digit '1'

/-- The bytes' number, the first byte the most significant. -/
def bigEndian (bytes : List UInt8) : ℕ := LittleEndian.toNat bytes.reverse

def base58 (bytes : List UInt8) : Text :=
  List.replicate (bytes.takeWhile (· = 0)).length '1' ++
    ((Nat.digits 58 (bigEndian bytes)).map base58Digit).reverse

/-- The number a text stands for. -/
def base58Value (text : Text) : ℕ := Nat.ofDigits 58 (text.reverse.map base58Alphabet.idxOf)

theorem idxOf_base58Digit {digit : ℕ} (h : digit < 58) :
    base58Alphabet.idxOf (base58Digit digit) = digit := by
  have hall : ∀ digit < 58, base58Alphabet.idxOf (base58Digit digit) = digit := by decide
  exact hall digit h

theorem isWord_base58Digit {digit : ℕ} (h : digit < 58) : isWord (base58Digit digit) = true := by
  have hall : ∀ digit < 58, isWord (base58Digit digit) = true := by decide
  exact hall digit h

theorem ofDigits_replicate_zero (base count : ℕ) :
    Nat.ofDigits base (List.replicate count 0) = 0 := by
  induction count with
  | zero => rfl
  | succ count ih => rw [List.replicate_succ, Nat.ofDigits_cons, ih, Nat.mul_zero]

theorem base58Value_base58 (bytes : List UInt8) : base58Value (base58 bytes) = bigEndian bytes := by
  have hdigits : ((Nat.digits 58 (bigEndian bytes)).map base58Digit).map base58Alphabet.idxOf =
      Nat.digits 58 (bigEndian bytes) := by
    rw [List.map_map]
    apply (List.map_congr_left _).trans (List.map_id _)
    intro digit hdigit
    exact idxOf_base58Digit (Nat.digits_lt_base (by decide) hdigit)
  have hone : base58Alphabet.idxOf '1' = 0 := by decide
  unfold base58Value base58
  rw [List.reverse_append, List.reverse_reverse, List.map_append, hdigits, List.reverse_replicate,
    List.map_replicate, hone, Nat.ofDigits_append, ofDigits_replicate_zero, Nat.mul_zero,
    Nat.add_zero, Nat.ofDigits_digits]

theorem base58_injective {a b : List UInt8} (hlength : a.length = b.length)
    (h : base58 a = base58 b) : a = b := by
  have hnumber : bigEndian a = bigEndian b := by
    rw [← base58Value_base58, h, base58Value_base58]
  have hbytes : LittleEndian.bytes a.reverse.length (bigEndian a) =
      LittleEndian.bytes b.reverse.length (bigEndian b) := by
    rw [hnumber, List.length_reverse, List.length_reverse, hlength]
  unfold bigEndian at hbytes
  rw [LittleEndian.bytes_toNat, LittleEndian.bytes_toNat] at hbytes
  exact List.reverse_injective hbytes

theorem isWord_of_mem_base58 {bytes : List UInt8} {c : Char} (h : c ∈ base58 bytes) :
    isWord c = true := by
  rcases List.mem_append.mp h with h | h
  · rw [(List.mem_replicate.mp h).2]
    rfl
  · rcases List.mem_map.mp (List.mem_reverse.mp h) with ⟨digit, hdigit, rfl⟩
    exact isWord_base58Digit (Nat.digits_lt_base (by decide) hdigit)

theorem base58_ne_nil {bytes : List UInt8} (h : bytes ≠ []) : base58 bytes ≠ [] := by
  cases bytes with
  | nil => exact absurd rfl h
  | cons byte bytes =>
    intro hnil
    rcases List.append_eq_nil_iff.mp hnil with ⟨hzeros, hdigits⟩
    have hfirst : byte ≠ 0 := by
      rintro rfl
      simp at hzeros
    have hnumber : bigEndian (byte :: bytes) = 0 := by
      rw [List.reverse_eq_nil_iff, List.map_eq_nil_iff] at hdigits
      exact Nat.digits_eq_nil_iff_eq_zero.mp hdigits
    have hlist : byte :: bytes = List.replicate (byte :: bytes).length 0 := by
      apply List.reverse_injective
      have hbytes := LittleEndian.bytes_toNat (byte :: bytes).reverse
      have hzero (n : ℕ) : LittleEndian.bytes n 0 = List.replicate n 0 := by
        induction n with
        | zero => rfl
        | succ n ih => rw [LittleEndian.bytes, Nat.zero_div, ih, List.replicate_succ]; rfl
      unfold bigEndian at hnumber
      rw [hnumber, hzero, List.length_reverse] at hbytes
      rw [List.reverse_replicate, ← hbytes]
    exact hfirst (List.cons.inj hlist).1

def base64Alphabet : Text :=
  "ABCDEFGHIJKLMNOPQRSTUVWXYZabcdefghijklmnopqrstuvwxyz0123456789+/".toList

def base64Digit (digit : ℕ) : Char := base64Alphabet.getD digit 'A'

/-- The digit of a character of the alphabet. -/
def base64Value (c : Char) : Option ℕ :=
  if base64Alphabet.idxOf c < 64 then some (base64Alphabet.idxOf c) else none

def base64 : List UInt8 → Text
  | [] => []
  | [a] => [base64Digit (a.toNat / 4), base64Digit (a.toNat % 4 * 16), '=', '=']
  | [a, b] => [base64Digit (a.toNat / 4), base64Digit (a.toNat % 4 * 16 + b.toNat / 16),
      base64Digit (b.toNat % 16 * 4), '=']
  | a :: b :: c :: rest =>
    base64Digit (a.toNat / 4) :: base64Digit (a.toNat % 4 * 16 + b.toNat / 16) ::
      base64Digit (b.toNat % 16 * 4 + c.toNat / 64) :: base64Digit (c.toNat % 64) :: base64 rest

/-- The bytes of a text; none for one that is not base 64. -/
def fromBase64 : Text → Option (List UInt8)
  | [] => some []
  | [p, q, '=', '='] => do
    let p ← base64Value p
    let q ← base64Value q
    return [UInt8.ofNat (p * 4 + q / 16)]
  | [p, q, r, '='] => do
    let p ← base64Value p
    let q ← base64Value q
    let r ← base64Value r
    return [UInt8.ofNat (p * 4 + q / 16), UInt8.ofNat (q * 16 + r / 4)]
  | p :: q :: r :: s :: rest => do
    let p ← base64Value p
    let q ← base64Value q
    let r ← base64Value r
    let s ← base64Value s
    let rest ← fromBase64 rest
    return UInt8.ofNat (p * 4 + q / 16) :: UInt8.ofNat (q * 16 + r / 4) :: UInt8.ofNat (r * 64 + s) ::
      rest
  | _ => none

theorem base64Value_base64Digit {digit : ℕ} (h : digit < 64) :
    base64Value (base64Digit digit) = some digit := by
  have hall : ∀ digit < 64, base64Value (base64Digit digit) = some digit := by decide +kernel
  exact hall digit h

theorem base64Digit_ne_pad {digit : ℕ} (h : digit < 64) : base64Digit digit ≠ '=' := by
  have hall : ∀ digit < 64, base64Digit digit ≠ '=' := by decide +kernel
  exact hall digit h

theorem ofNat_eq_of_toNat {byte : UInt8} {n : ℕ} (h : n % 256 = byte.toNat) : UInt8.ofNat n = byte := by
  apply UInt8.toNat_inj.mp
  rw [UInt8.toNat_ofNat']
  exact h

/-- What was written in base 64 is read back. -/
theorem fromBase64_base64 (bytes : List UInt8) : fromBase64 (base64 bytes) = some bytes := by
  induction bytes using base64.induct with
  | case1 => rfl
  | case2 a =>
    have ha := a.toNat_lt
    rw [base64, fromBase64, base64Value_base64Digit (by omega), base64Value_base64Digit (by omega)]
    have hbyte : UInt8.ofNat (a.toNat / 4 * 4 + a.toNat % 4 * 16 / 16) = a :=
      ofNat_eq_of_toNat (by omega)
    simp only [Option.bind_eq_bind, Option.bind_some, Option.pure_def, hbyte]
  | case3 a b =>
    have ha := a.toNat_lt
    have hb := b.toNat_lt
    rw [base64, fromBase64, base64Value_base64Digit (by omega), base64Value_base64Digit (by omega),
      base64Value_base64Digit (by omega)]
    · have hfirst : UInt8.ofNat (a.toNat / 4 * 4 + (a.toNat % 4 * 16 + b.toNat / 16) / 16) = a :=
        ofNat_eq_of_toNat (by omega)
      have hsecond : UInt8.ofNat ((a.toNat % 4 * 16 + b.toNat / 16) * 16 + b.toNat % 16 * 4 / 4) = b :=
        ofNat_eq_of_toNat (by omega)
      simp only [Option.bind_eq_bind, Option.bind_some, Option.pure_def, hfirst, hsecond]
    · exact base64Digit_ne_pad (by omega)
  | case4 a b c rest ih =>
    have ha := a.toNat_lt
    have hb := b.toNat_lt
    have hc := c.toNat_lt
    have hlast : base64Digit (c.toNat % 64) ≠ '=' := base64Digit_ne_pad (by omega)
    rw [base64, fromBase64, base64Value_base64Digit (by omega), base64Value_base64Digit (by omega),
      base64Value_base64Digit (by omega), base64Value_base64Digit (by omega), ih]
    · have hfirst : UInt8.ofNat (a.toNat / 4 * 4 + (a.toNat % 4 * 16 + b.toNat / 16) / 16) = a :=
        ofNat_eq_of_toNat (by omega)
      have hsecond : UInt8.ofNat ((a.toNat % 4 * 16 + b.toNat / 16) * 16 +
          (b.toNat % 16 * 4 + c.toNat / 64) / 4) = b := ofNat_eq_of_toNat (by omega)
      have hthird : UInt8.ofNat ((b.toNat % 16 * 4 + c.toNat / 64) * 64 + c.toNat % 64) = c :=
        ofNat_eq_of_toNat (by omega)
      simp only [Option.bind_eq_bind, Option.bind_some, Option.pure_def, hfirst, hsecond, hthird]
    · intro _ h
      exact absurd h hlast
    · intro h
      exact absurd h hlast

end TextEncodings
