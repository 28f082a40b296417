import Laterite.PythPrices
import Mathlib.Algebra.Order.Field.Rat
import Mathlib.Data.Nat.Cast.Order.Field
import Mathlib.Tactic.FieldSimp
import Mathlib.Tactic.GCongr
import Mathlib.Tactic.Linarith
import Mathlib.Tactic.Positivity
import Mathlib.Tactic.Ring

/-!
# How close the minimum output is to the oracle's worth

The program rounds down twice, before and after the slippage factor, in 128-bit steps that
refuse to overflow. The result lies less than two units below the exact fraction, moves
with its inputs as the fraction does, and fails only for the guards' own reasons.
-/

namespace RoundingDown

variable {n n' d d' k m : ℕ}

theorem div_lt_add_one (hd : 0 < d) : (n / d : ℚ) < (n / d : ℕ) + 1 := by
  have hlt := Nat.lt_mul_div_succ n hd
  rw [div_lt_iff₀ (Nat.cast_pos.mpr hd), mul_comm]
  exact_mod_cast hlt

theorem scaled_le (n d k m : ℕ) : ((n / d * k / m : ℕ) : ℚ) ≤ n / d * (k / m) :=
  calc ((n / d * k / m : ℕ) : ℚ) ≤ ((n / d * k : ℕ) : ℚ) / m := Nat.cast_div_le
    _ = ((n / d : ℕ) : ℚ) * (k / m) := by rw [Nat.cast_mul, mul_div_assoc]
    _ ≤ n / d * (k / m) := by
      have hfloor : ((n / d : ℕ) : ℚ) ≤ n / d := Nat.cast_div_le
      gcongr

/-- Each rounding loses less than one unit, the first scaled by a factor of at most one. -/
theorem lt_scaled (hd : 0 < d) (hm : 0 < m) (hk : 0 < k) (hkm : k ≤ m) :
    (n / d * (k / m) : ℚ) < (n / d * k / m : ℕ) + 2 := by
  have hratio : (k / m : ℚ) ≤ 1 := by
    rw [div_le_one₀ (Nat.cast_pos.mpr hm)]
    exact_mod_cast hkm
  have hpositive : (0 : ℚ) < k / m := by positivity
  calc (n / d * (k / m) : ℚ) < ((n / d : ℕ) + 1) * (k / m) := by
        have := div_lt_add_one (n := n) hd
        gcongr
    _ = ((n / d * k : ℕ) : ℚ) / m + k / m := by
        rw [Nat.cast_mul, add_mul, one_mul, mul_div_assoc]
    _ < (n / d * k / m : ℕ) + 1 + 1 := by
        have := div_lt_add_one (n := n / d * k) hm
        linarith
    _ = (n / d * k / m : ℕ) + 2 := by ring

theorem scaled_mono (hn : n ≤ n') (hd : d' ≤ d) (hd' : 0 < d') : n / d * k / m ≤ n' / d' * k / m :=
  Nat.div_le_div_right (Nat.mul_le_mul_right k (Nat.div_le_div hn hd hd'.ne'))

theorem cast_sub_eq_max (a b : ℕ) : ((a - b : ℕ) : ℚ) = max ((a : ℚ) - b) 0 := by
  rcases le_total b a with h | h
  · have hcast : (b : ℚ) ≤ a := Nat.cast_le.mpr h
    rw [Nat.cast_sub h, max_eq_left (sub_nonneg.mpr hcast)]
  · have hcast : (a : ℚ) ≤ b := Nat.cast_le.mpr h
    rw [Nat.sub_eq_zero_of_le h, Nat.cast_zero, max_eq_right (sub_nonpos.mpr hcast)]

end RoundingDown

namespace Laterite

open CheckedComputation RoundingDown

structure PricedSwap where
  amount : UInt64
  payment : Quote
  paymentDecimals : UInt8
  asset : Quote
  assetDecimals : UInt8

namespace PricedSwap

variable (self : PricedSwap)

def minOut : Result UInt64 :=
  Laterite.minOut self.amount self.payment self.paymentDecimals self.asset self.assetDecimals

/-- What the amount is worth at the exact prices within confidence, less the slippage. -/
def exactFill : ℚ :=
  self.amount.toNat *
    max ((self.payment.price.toNat : ℚ) - self.payment.confidence.toNat) 0 *
    10 ^ (self.payment.exponent.toInt - self.asset.exponent.toInt + self.assetDecimals.toNat -
      self.paymentDecimals.toNat) /
    (self.asset.price.toNat + self.asset.confidence.toNat) * (9945 / 10000)

def worth : ℕ :=
  self.amount.toNat * (self.payment.price.saturatingSub self.payment.confidence).toNat

def assetPrice : ℕ := self.asset.price.toNat + self.asset.confidence.toNat

def scale : ℤ := self.payment.exponent.toInt - self.asset.exponent.toInt +
  self.assetDecimals.toNat - self.paymentDecimals.toNat

def factor : ℕ := 10 ^ self.scale.natAbs

def numerator : ℕ := if 0 ≤ self.scale then self.worth * self.factor else self.worth

def denominator : ℕ := if 0 ≤ self.scale then self.assetPrice else self.assetPrice * self.factor

def scaled : ℕ := self.numerator / self.denominator * 9945

def out : ℕ := self.scaled / 10000

/-- Every step fits its word, the denominator is positive, and a positive amount gives a
positive output. -/
structure Fits (s : PricedSwap) : Prop where
  factor : s.factor < 2 ^ 128
  numerator : s.numerator < 2 ^ 128
  denominator : s.denominator < 2 ^ 128
  denominator_pos : 0 < s.denominator
  scaled : s.scaled < 2 ^ 128
  out_pos : s.amount ≠ 0 → 0 < s.out
  out : s.out < 2 ^ 64

variable {self}

/-- The two products the program does not check fit 128 bits. -/
theorem worth_lt (self : PricedSwap) : self.worth < 2 ^ 128 := by
  have hamount := self.amount.toNat_lt
  have hprice := (self.payment.price.saturatingSub self.payment.confidence).toNat_lt
  calc self.worth < 2 ^ 64 * 2 ^ 64 := Nat.mul_lt_mul'' hamount hprice
    _ = 2 ^ 128 := by norm_num

theorem assetPrice_lt (self : PricedSwap) : self.assetPrice < 2 ^ 128 := by
  have hprice := self.asset.price.toNat_lt
  have hconfidence := self.asset.confidence.toNat_lt
  unfold assetPrice
  omega

theorem u128?_of_lt {value : ℕ} (h : value < 2 ^ 128) : u128? value = some value := if_pos h

theorem u128?_of_not {value : ℕ} (h : ¬value < 2 ^ 128) : u128? value = none := if_neg h

theorem products_eq :
    ((if self.scale ≥ 0 then u128? (self.worth * self.factor) else some self.worth) >>= fun n =>
      (if self.scale ≥ 0 then some self.assetPrice
        else u128? (self.assetPrice * self.factor)).filter (· > 0) >>= fun d =>
        u128? (n / d * (10000 - slippageBps))) =
    if self.numerator < 2 ^ 128 ∧ self.denominator < 2 ^ 128 ∧ 0 < self.denominator ∧
      self.scaled < 2 ^ 128 then some self.scaled else none := by
  have hn : (if self.scale ≥ 0 then u128? (self.worth * self.factor) else some self.worth) =
      u128? self.numerator := by
    unfold numerator
    split
    · rfl
    · exact (u128?_of_lt self.worth_lt).symm
  have hd : (if self.scale ≥ 0 then some self.assetPrice else u128? (self.assetPrice * self.factor)) =
      u128? self.denominator := by
    unfold denominator
    split
    · exact (u128?_of_lt self.assetPrice_lt).symm
    · rfl
  rw [hn, hd]
  by_cases hnumerator : self.numerator < 2 ^ 128
  · rw [u128?_of_lt hnumerator]
    by_cases hdenominator : self.denominator < 2 ^ 128
    · rw [u128?_of_lt hdenominator]
      by_cases hpositive : 0 < self.denominator
      · rw [Option.filter_some_pos (by simpa using hpositive)]
        by_cases hscaled : self.scaled < 2 ^ 128
        · rw [if_pos ⟨hnumerator, hdenominator, hpositive, hscaled⟩]
          exact u128?_of_lt hscaled
        · rw [if_neg fun h => hscaled h.2.2.2]
          exact u128?_of_not hscaled
      · rw [Option.filter_some_neg (by simpa using hpositive), if_neg fun h => hpositive h.2.2.1]
        rfl
    · rw [u128?_of_not hdenominator, if_neg fun h => hdenominator h.2.1]
      rfl
  · rw [u128?_of_not hnumerator, if_neg fun h => hnumerator h.1]
    rfl

/-- The checked computation is the unbounded one whenever every step fits, and fails otherwise. -/
theorem minOut_eq : self.minOut =
    if self.factor < 2 ^ 128 ∧ self.numerator < 2 ^ 128 ∧ self.denominator < 2 ^ 128 ∧
        0 < self.denominator ∧ self.scaled < 2 ^ 128 then
      if self.amount ≠ 0 ∧ self.out = 0 then .error (.error (.laterite .amountTooSmall))
      else if self.out < 2 ^ 64 then .ok (UInt64.ofNat self.out)
      else .error (.error (.laterite .invalidPriceUpdate))
    else .error (.error (.laterite .invalidPriceUpdate)) := by
  have hproducts := @products_eq self
  have hunfold : self.minOut = (do
      let factor ← okOr (u128? self.factor) LateriteError.invalidPriceUpdate
      let scaled ← okOr
        ((if self.scale ≥ 0 then u128? (self.worth * factor) else some self.worth) >>= fun n =>
          (if self.scale ≥ 0 then some self.assetPrice
            else u128? (self.assetPrice * factor)).filter (· > 0) >>= fun d =>
            u128? (n / d * (10000 - slippageBps)))
        LateriteError.invalidPriceUpdate
      require (scaled / 10000 > 0 ∨ self.amount = 0) LateriteError.amountTooSmall
      okOr (if scaled / 10000 < 2 ^ 64 then some (UInt64.ofNat (scaled / 10000)) else none)
        LateriteError.invalidPriceUpdate) := rfl
  rw [hunfold]
  by_cases hfactor : self.factor < 2 ^ 128
  · rw [u128?_of_lt hfactor]
    simp only [okOr, ok_bind, hproducts]
    by_cases hsteps : self.numerator < 2 ^ 128 ∧ self.denominator < 2 ^ 128 ∧
        0 < self.denominator ∧ self.scaled < 2 ^ 128
    · rw [if_pos hsteps, if_pos ⟨hfactor, hsteps⟩]
      change ((require (self.out > 0 ∨ self.amount = 0) (.laterite .amountTooSmall) : Result Unit) >>=
        fun _ => _) = _
      by_cases hzero : self.amount ≠ 0 ∧ self.out = 0
      · rw [if_pos hzero, require_of_not (by simp [hzero])]
        rfl
      · have hpositive : self.out > 0 ∨ self.amount = 0 := by
          by_cases hamount : self.amount = 0
          · exact .inr hamount
          · exact .inl (Nat.pos_of_ne_zero fun hout => hzero ⟨hamount, hout⟩)
        rw [if_neg hzero, require_of hpositive, ok_bind]
        by_cases hout : self.out < 2 ^ 64
        · rw [if_pos hout]
          exact congrArg (okOr · _) (if_pos hout)
        · rw [if_neg hout]
          exact congrArg (okOr · _) (if_neg hout)
    · rw [if_neg hsteps, if_neg fun h => hsteps h.2]
      rfl
  · rw [u128?_of_not hfactor, if_neg fun h => hfactor h.1]
    rfl

theorem minOut_eq_ok {out : UInt64} : self.minOut = .ok out ↔ self.Fits ∧ out.toNat = self.out := by
  rw [minOut_eq]
  split
  · rename_i hsteps
    obtain ⟨hfactor, hnumerator, hdenominator, hpositive, hscaled⟩ := hsteps
    split
    · rename_i hzero
      simp only [reduceCtorEq, false_iff]
      rintro ⟨hfits, -⟩
      exact (hfits.out_pos hzero.1).ne' hzero.2
    · rename_i hzero
      split
      · rename_i hout
        have hword : (UInt64.ofNat self.out).toNat = self.out := UInt64.toNat_ofNat_of_lt' hout
        rw [Except.ok.injEq, ← UInt64.toNat_inj, hword]
        constructor
        · intro h
          refine ⟨⟨hfactor, hnumerator, hdenominator, hpositive, hscaled, fun hamount => ?_, hout⟩, h.symm⟩
          exact Nat.pos_of_ne_zero fun h0 => hzero ⟨hamount, h0⟩
        · exact fun h => h.2.symm
      · rename_i hout
        simp only [reduceCtorEq, false_iff]
        exact fun h => hout h.1.out
  · rename_i hsteps
    simp only [reduceCtorEq, false_iff]
    rintro ⟨h, -⟩
    exact hsteps ⟨h.factor, h.numerator, h.denominator, h.denominator_pos, h.scaled⟩

/-- The exact fill is the program's fraction before either rounding. -/
theorem exactFill_eq : self.exactFill = self.numerator / self.denominator * (9945 / 10000) := by
  have hworth : (self.worth : ℚ) = self.amount.toNat *
      max ((self.payment.price.toNat : ℚ) - self.payment.confidence.toNat) 0 := by
    rw [worth, UInt64.toNat_saturatingSub, Nat.cast_mul, cast_sub_eq_max]
  have hprice : (self.assetPrice : ℚ) = self.asset.price.toNat + self.asset.confidence.toNat := by
    rw [assetPrice, Nat.cast_add]
  have hscale : (10 : ℚ) ^ (self.payment.exponent.toInt - self.asset.exponent.toInt +
      self.assetDecimals.toNat - self.paymentDecimals.toNat) = 10 ^ self.scale := rfl
  rw [exactFill, hscale, ← hworth, ← hprice]
  congr 1
  unfold numerator denominator factor
  by_cases h : 0 ≤ self.scale
  · obtain ⟨k, hk⟩ := Int.eq_ofNat_of_zero_le h
    rw [if_pos h, if_pos h, hk]
    simp
  · obtain ⟨k, hk⟩ := Int.eq_ofNat_of_zero_le (show 0 ≤ -self.scale by omega)
    have hneg : self.scale = -(k : ℤ) := by omega
    rw [if_neg h, if_neg h, hneg]
    simp [zpow_neg, div_eq_mul_inv, mul_comm, mul_left_comm, mul_assoc]

/-- The same tokens, priced so that `other` is worth at least as much. -/
structure Exceeds (s other : PricedSwap) : Prop where
  paymentExponent : s.payment.exponent = other.payment.exponent
  assetExponent : s.asset.exponent = other.asset.exponent
  paymentDecimals : s.paymentDecimals = other.paymentDecimals
  assetDecimals : s.assetDecimals = other.assetDecimals
  amount : s.amount ≤ other.amount
  paymentPrice : s.payment.price ≤ other.payment.price
  paymentConfidence : other.payment.confidence ≤ s.payment.confidence
  assetPrice : other.asset.price ≤ s.asset.price
  assetConfidence : other.asset.confidence ≤ s.asset.confidence

variable {other : PricedSwap}

theorem Exceeds.scale_eq (h : self.Exceeds other) : self.scale = other.scale := by
  unfold scale
  rw [h.paymentExponent, h.assetExponent, h.paymentDecimals, h.assetDecimals]

theorem Exceeds.worth_le (h : self.Exceeds other) : self.worth ≤ other.worth := by
  have hamount := UInt64.le_iff_toNat_le.mp h.amount
  have hprice := UInt64.le_iff_toNat_le.mp h.paymentPrice
  have hconfidence := UInt64.le_iff_toNat_le.mp h.paymentConfidence
  unfold worth
  rw [UInt64.toNat_saturatingSub, UInt64.toNat_saturatingSub]
  exact Nat.mul_le_mul hamount (by omega)

theorem Exceeds.assetPrice_le (h : self.Exceeds other) : other.assetPrice ≤ self.assetPrice :=
  Nat.add_le_add (UInt64.le_iff_toNat_le.mp h.assetPrice) (UInt64.le_iff_toNat_le.mp h.assetConfidence)

theorem Exceeds.out_le (h : self.Exceeds other) (hpositive : 0 < other.denominator) :
    self.out ≤ other.out := by
  have hfactor : self.factor = other.factor := by
    rw [factor, factor, h.scale_eq]
  have hnumerator : self.numerator ≤ other.numerator := by
    unfold numerator
    rw [h.scale_eq, hfactor]
    split
    · exact Nat.mul_le_mul_right _ h.worth_le
    · exact h.worth_le
  have hdenominator : other.denominator ≤ self.denominator := by
    unfold denominator
    rw [h.scale_eq, hfactor]
    split
    · exact h.assetPrice_le
    · exact Nat.mul_le_mul_right _ h.assetPrice_le
  exact scaled_mono hnumerator hdenominator hpositive

theorem minOut_eq_error : (∃ fault, self.minOut = .error fault) ↔ ¬self.Fits := by
  constructor
  · rintro ⟨fault, hfault⟩ hfits
    have hword : (UInt64.ofNat self.out).toNat = self.out := UInt64.toNat_ofNat_of_lt' hfits.out
    have hok := minOut_eq_ok.mpr ⟨hfits, hword⟩
    rw [hfault] at hok
    cases hok
  · intro hfits
    cases hresult : self.minOut with
    | error fault => exact ⟨fault, rfl⟩
    | ok out => exact absurd (minOut_eq_ok.mp hresult).1 hfits

theorem not_fits : ¬self.Fits ↔
    2 ^ 128 ≤ self.factor ∨ 2 ^ 128 ≤ self.numerator ∨ 2 ^ 128 ≤ self.denominator ∨
      self.denominator = 0 ∨ 2 ^ 128 ≤ self.scaled ∨ (self.amount ≠ 0 ∧ self.out = 0) ∨
      2 ^ 64 ≤ self.out := by
  constructor
  · intro hfits
    by_contra hguards
    simp only [not_or, not_le, not_and] at hguards
    obtain ⟨hfactor, hnumerator, hdenominator, hpositive, hscaled, hout, hword⟩ := hguards
    exact hfits ⟨hfactor, hnumerator, hdenominator, Nat.pos_of_ne_zero hpositive, hscaled,
      fun hamount => Nat.pos_of_ne_zero (hout hamount), hword⟩
  · intro hguards hfits
    have hpositive := hfits.denominator_pos
    rcases hguards with h | h | h | h | h | h | h
    · exact absurd hfits.factor (by omega)
    · exact absurd hfits.numerator (by omega)
    · exact absurd hfits.denominator (by omega)
    · omega
    · exact absurd hfits.scaled (by omega)
    · exact (hfits.out_pos h.1).ne' h.2
    · exact absurd hfits.out (by omega)

/-- A minimum output is within two units of the exact fill, moves with its inputs as the fill
does, and is refused only where a step leaves its word, the asset has no price, or a positive
amount would give nothing. -/
theorem minOut_exactFill (self : PricedSwap) :
    (∀ out, self.minOut = .ok out →
      (out.toNat : ℚ) ≤ self.exactFill ∧ self.exactFill < out.toNat + 2 ∧
        (self.amount ≠ 0 → 0 < out)) ∧
    (∀ other out out', self.Exceeds other → self.minOut = .ok out → other.minOut = .ok out' →
      out ≤ out') ∧
    ((∃ fault, self.minOut = .error fault) ↔
      2 ^ 128 ≤ self.factor ∨ 2 ^ 128 ≤ self.numerator ∨ 2 ^ 128 ≤ self.denominator ∨
        self.denominator = 0 ∨ 2 ^ 128 ≤ self.scaled ∨ (self.amount ≠ 0 ∧ self.out = 0) ∨
        2 ^ 64 ≤ self.out) ∧
    NoPanic self.minOut ∧ self.worth < 2 ^ 128 ∧ self.assetPrice < 2 ^ 128 ∧
      |self.payment.exponent.toInt - self.asset.exponent.toInt| < 2 ^ 31 ∧
      |self.payment.exponent.toInt - self.asset.exponent.toInt + self.assetDecimals.toNat| < 2 ^ 31 ∧
      |self.scale| < 2 ^ 31 := by
  refine ⟨fun out hout => ?_, fun other out out' hexceeds hout hout' => ?_,
    minOut_eq_error.trans not_fits, noPanic_minOut _ _ _ _ _, self.worth_lt, self.assetPrice_lt, ?_⟩
  · obtain ⟨hfits, hword⟩ := minOut_eq_ok.mp hout
    rw [hword, exactFill_eq]
    have hle := scaled_le self.numerator self.denominator 9945 10000
    have hlt := lt_scaled (n := self.numerator) hfits.denominator_pos
      (show 0 < 10000 by norm_num) (show 0 < 9945 by norm_num) (by norm_num)
    refine ⟨by exact_mod_cast hle, by exact_mod_cast hlt, fun hamount => ?_⟩
    rw [UInt64.lt_iff_toNat_lt, hword]
    exact hfits.out_pos hamount
  · obtain ⟨-, hword⟩ := minOut_eq_ok.mp hout
    obtain ⟨hfits, hword'⟩ := minOut_eq_ok.mp hout'
    rw [UInt64.le_iff_toNat_le, hword, hword']
    exact hexceeds.out_le hfits.denominator_pos
  · have hpayment := self.payment.exponent.toInt_lt
    have hpayment' := self.payment.exponent.le_toInt
    have hasset := self.asset.exponent.toInt_lt
    have hasset' := self.asset.exponent.le_toInt
    have hdecimals := self.assetDecimals.toNat_lt
    have hdecimals' := self.paymentDecimals.toNat_lt
    unfold scale
    simp only [abs_lt]
    omega

end PricedSwap

end Laterite
