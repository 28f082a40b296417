import Laterite.CheckedComputation
import Mathlib.Data.Nat.Basic
import Mathlib.Order.Lattice
import Mathlib.Algebra.Group.Int.Defs
import Mathlib.Algebra.Group.Nat.Defs

/-!
# Fixed-width integers with saturating and checked arithmetic

Unsigned words are the types `UInt8` to `UInt64`; a signed 64-bit word is an integer
together with the bounds of its operations. A saturating operation stops at a bound, a
checked one aborts there. Every operation is characterized once by the number it
stands for.
-/

open CheckedComputation

namespace UInt64

/-- The largest 64-bit word. -/
def maxValue : UInt64 := 18446744073709551615

@[simp] theorem toNat_maxValue : maxValue.toNat = 2 ^ 64 - 1 := rfl

/-- Addition stopping at the largest word. -/
def saturatingAdd (a b : UInt64) : UInt64 :=
  if a.toNat + b.toNat < 2 ^ 64 then a + b else maxValue

/-- Subtraction stopping at zero. -/
def saturatingSub (a b : UInt64) : UInt64 := if b ≤ a then a - b else 0

/-- Multiplication stopping at the largest word. -/
def saturatingMul (a b : UInt64) : UInt64 :=
  if a.toNat * b.toNat < 2 ^ 64 then a * b else maxValue

/-- Addition aborting on overflow. -/
def checkedAdd {ε : Type} (a b : UInt64) : Checked ε UInt64 :=
  if a.toNat + b.toNat < 2 ^ 64 then .ok (a + b) else .error .panic

/-- Subtraction aborting below zero. -/
def checkedSub {ε : Type} (a b : UInt64) : Checked ε UInt64 :=
  if b ≤ a then .ok (a - b) else .error .panic

/-- Multiplication aborting on overflow. -/
def checkedMul {ε : Type} (a b : UInt64) : Checked ε UInt64 :=
  if a.toNat * b.toNat < 2 ^ 64 then .ok (a * b) else .error .panic

theorem toNat_saturatingAdd (a b : UInt64) :
    (saturatingAdd a b).toNat = min (a.toNat + b.toNat) (2 ^ 64 - 1) := by
  unfold saturatingAdd
  split
  · rw [UInt64.toNat_add]
    omega
  · rw [toNat_maxValue]
    omega

theorem toNat_saturatingMul (a b : UInt64) :
    (saturatingMul a b).toNat = min (a.toNat * b.toNat) (2 ^ 64 - 1) := by
  unfold saturatingMul
  split
  · rw [UInt64.toNat_mul, Nat.mod_eq_of_lt ‹_›]
    omega
  · rw [toNat_maxValue]
    omega

theorem toNat_saturatingSub (a b : UInt64) :
    (saturatingSub a b).toNat = a.toNat - b.toNat := by
  unfold saturatingSub
  split
  · exact UInt64.toNat_sub_of_le a b ‹_›
  · have h : a.toNat ≤ b.toNat := by
      rw [UInt64.le_iff_toNat_le] at *
      omega
    simp [Nat.sub_eq_zero_of_le h]

theorem checkedAdd_eq_ok {ε : Type} {a b c : UInt64} :
    (checkedAdd a b : Checked ε UInt64) = .ok c ↔ c.toNat = a.toNat + b.toNat := by
  unfold checkedAdd
  split
  · rw [Except.ok.injEq, ← UInt64.toNat_inj, UInt64.toNat_add]
    omega
  · have hc := c.toNat_lt
    constructor
    · simp
    · intro h
      omega

theorem checkedSub_eq_ok {ε : Type} {a b c : UInt64} :
    (checkedSub a b : Checked ε UInt64) = .ok c ↔ b.toNat ≤ a.toNat ∧ c.toNat = a.toNat - b.toNat := by
  unfold checkedSub
  split
  · have h : b.toNat ≤ a.toNat := UInt64.le_iff_toNat_le.mp ‹_›
    rw [Except.ok.injEq, ← UInt64.toNat_inj, UInt64.toNat_sub_of_le a b ‹_›]
    omega
  · rw [UInt64.le_iff_toNat_le] at *
    simp [*]

/-- Either the product fits a word and is returned, or it does not and the operation aborts. -/
theorem checkedMul_of_lt {ε : Type} {a b : UInt64} (h : a.toNat * b.toNat < 2 ^ 64) :
    ∃ c, (checkedMul a b : Checked ε UInt64) = .ok c ∧ c.toNat = a.toNat * b.toNat := by
  refine ⟨a * b, if_pos h, ?_⟩
  rw [UInt64.toNat_mul, Nat.mod_eq_of_lt h]

theorem NoPanic.checkedAdd {ε : Type} {a b : UInt64} (h : a.toNat + b.toNat < 2 ^ 64) :
    NoPanic (checkedAdd a b : Checked ε UInt64) := by
  rw [UInt64.checkedAdd, if_pos h]
  exact NoPanic.ok _

theorem NoPanic.checkedSub {ε : Type} {a b : UInt64} (h : b.toNat ≤ a.toNat) :
    NoPanic (checkedSub a b : Checked ε UInt64) := by
  rw [UInt64.checkedSub, if_pos (UInt64.le_iff_toNat_le.mpr h)]
  exact NoPanic.ok _

end UInt64

namespace UInt32

/-- Subtraction stopping at zero. -/
def saturatingSub (a b : UInt32) : UInt32 := if b ≤ a then a - b else 0

/-- Addition aborting on overflow. -/
def checkedAdd {ε : Type} (a b : UInt32) : Checked ε UInt32 :=
  if a.toNat + b.toNat < 2 ^ 32 then .ok (a + b) else .error .panic

theorem toNat_saturatingSub (a b : UInt32) :
    (saturatingSub a b).toNat = a.toNat - b.toNat := by
  unfold saturatingSub
  split
  · exact UInt32.toNat_sub_of_le a b ‹_›
  · have h : a.toNat ≤ b.toNat := by
      rw [UInt32.le_iff_toNat_le] at *
      omega
    simp [Nat.sub_eq_zero_of_le h]

theorem checkedAdd_eq_ok {ε : Type} {a b c : UInt32} :
    (checkedAdd a b : Checked ε UInt32) = .ok c ↔ c.toNat = a.toNat + b.toNat := by
  unfold checkedAdd
  split
  · rw [Except.ok.injEq, ← UInt32.toNat_inj, UInt32.toNat_add]
    omega
  · have hc := c.toNat_lt
    constructor
    · simp
    · intro h
      omega

theorem NoPanic.checkedAdd {ε : Type} {a b : UInt32} (h : a.toNat + b.toNat < 2 ^ 32) :
    NoPanic (checkedAdd a b : Checked ε UInt32) := by
  rw [UInt32.checkedAdd, if_pos h]
  exact NoPanic.ok _

end UInt32

namespace I64

/-- The bounds of a signed 64-bit word. -/
def maxValue : ℤ := 9223372036854775807

def minValue : ℤ := -9223372036854775808

/-- Addition stopping at the bounds. -/
def saturatingAdd (a b : ℤ) : ℤ := max minValue (min maxValue (a + b))

/-- Subtraction stopping at the bounds. -/
def saturatingSub (a b : ℤ) : ℤ := max minValue (min maxValue (a - b))

/-- Addition aborting outside the bounds. -/
def checkedAdd {ε : Type} (a b : ℤ) : Checked ε ℤ :=
  if minValue ≤ a + b ∧ a + b ≤ maxValue then .ok (a + b) else .error .panic

theorem checkedAdd_eq_ok {ε : Type} {a b c : ℤ} :
    (checkedAdd a b : Checked ε ℤ) = .ok c ↔ (minValue ≤ a + b ∧ a + b ≤ maxValue) ∧ a + b = c := by
  unfold checkedAdd
  split <;> simp [*]

theorem NoPanic.checkedAdd {ε : Type} {a b : ℤ} (hl : minValue ≤ a + b) (hu : a + b ≤ maxValue) :
    NoPanic (checkedAdd a b : Checked ε ℤ) := by
  rw [I64.checkedAdd, if_pos ⟨hl, hu⟩]
  exact NoPanic.ok _

end I64

namespace TruncatedDivision

variable {a d : ℤ}

/-- A truncated quotient lowered when the remainder is negative rounds down. -/
theorem tdiv_floor (hd : 0 < d) : (if a.tmod d < 0 then a.tdiv d - 1 else a.tdiv d) = a / d := by
  have hnonneg := Int.emod_nonneg a hd.ne'
  have hlt := Int.emod_lt_of_pos a hd
  rw [Int.tmod_eq_emod, Int.tdiv_eq_ediv]
  by_cases h : 0 ≤ a ∨ d ∣ a
  · rw [if_pos h, if_pos h, if_neg (by omega), Int.add_zero]
  · rw [if_neg h, if_neg h, if_pos (by omega), Int.sign_eq_one_of_pos hd, Int.add_sub_cancel]

/-- A remainder made positive by the divisor is the remainder of rounding down. -/
theorem tmod_floor (hd : 0 < d) : (a.tmod d + d).tmod d = a % d := by
  have hnonneg := Int.emod_nonneg a hd.ne'
  have hlt := Int.emod_lt_of_pos a hd
  have hpositive : 0 ≤ a.tmod d + d := by
    have := Int.lt_tmod_of_pos a hd
    omega
  rw [Int.tmod_eq_emod_of_nonneg hpositive, Int.tmod_eq_emod]
  by_cases h : 0 ≤ a ∨ d ∣ a
  · rw [if_pos h, Int.natCast_zero, Int.sub_zero, Int.add_emod_right, Int.emod_emod]
  · have habs : (d.natAbs : ℤ) = d := Int.natAbs_of_nonneg hd.le
    rw [if_neg h, habs, Int.sub_add_cancel, Int.emod_emod]

end TruncatedDivision

namespace LittleEndian

/-- The `n` low bytes of a number, least significant first. -/
def bytes : ℕ → ℕ → List UInt8
  | 0, _ => []
  | n + 1, x => UInt8.ofNat (x % 256) :: bytes n (x / 256)

/-- The number a list of bytes stands for, least significant first. -/
def toNat : List UInt8 → ℕ
  | [] => 0
  | b :: bs => b.toNat + 256 * toNat bs

/-- Two's complement reading of a `w`-bit number. -/
def signed (w x : ℕ) : ℤ := if x < 2 ^ (w - 1) then x else (x : ℤ) - 2 ^ w

@[simp] theorem length_bytes (n x : ℕ) : (bytes n x).length = n := by
  induction n generalizing x with
  | zero => rfl
  | succ n ih => simp [bytes, ih]

/-- Reading back what was written gives the number, as far as the bytes hold it. -/
theorem toNat_bytes (n x : ℕ) : toNat (bytes n x) = x % 256 ^ n := by
  induction n generalizing x with
  | zero => simp [bytes, toNat, Nat.mod_one]
  | succ n ih =>
    have hbyte : (UInt8.ofNat (x % 256)).toNat = x % 256 := by simp
    rw [bytes, toNat, hbyte, ih, Nat.pow_succ', Nat.mod_mul]

theorem toNat_lt (bs : List UInt8) : toNat bs < 256 ^ bs.length := by
  induction bs with
  | nil => simp [toNat]
  | cons b bs ih =>
    have hb := b.toNat_lt
    rw [toNat, List.length_cons, Nat.pow_succ]
    omega

/-- A list of bytes is what its number is written as, in as many bytes. -/
theorem bytes_toNat (bs : List UInt8) : bytes bs.length (toNat bs) = bs := by
  induction bs with
  | nil => rfl
  | cons b bs ih =>
    have hb := b.toNat_lt
    have hlow : (b.toNat + 256 * toNat bs) % 256 = b.toNat := by omega
    have hhigh : (b.toNat + 256 * toNat bs) / 256 = toNat bs := by omega
    rw [List.length_cons, toNat, bytes, hlow, hhigh, ih, UInt8.ofNat_toNat]

/-- A list of `n` bytes is what a number below `256 ^ n` is written as. -/
theorem bytes_eq_iff {n x : ℕ} {bs : List UInt8} (hx : x < 256 ^ n) :
    bytes n x = bs ↔ bs.length = n ∧ toNat bs = x := by
  constructor
  · rintro rfl
    exact ⟨length_bytes n x, by rw [toNat_bytes, Nat.mod_eq_of_lt hx]⟩
  · rintro ⟨rfl, rfl⟩
    exact bytes_toNat bs

end LittleEndian
