import Mathlib.Data.Nat.Bitwise
import Mathlib.Tactic.IntervalCases

/-!
# Bitmaps

A list of bytes read as a set of indices, the lowest bit of the first byte first. Marking an
index within the bytes adds it to the set and nothing else, and bitmaps of one length that hold
the same indices are the same bytes.
-/

namespace Bitmaps

/-- Whether an index is in the set; none past the bytes is. -/
def test (bytes : List UInt8) (index : ℕ) : Bool :=
  bytes[index / 8]?.any fun byte => byte.toNat.testBit (index % 8)

/-- Adds an index to the set; one past the bytes is lost. -/
def mark (bytes : List UInt8) (index : ℕ) : List UInt8 :=
  bytes.modify (index / 8) (· ||| (1 <<< UInt8.ofNat (index % 8)))

theorem toNat_one_shiftLeft {place : ℕ} (h : place < 8) :
    ((1 : UInt8) <<< UInt8.ofNat place).toNat = 2 ^ place := by
  interval_cases place <;> rfl

theorem testBit_or_shiftLeft (byte : UInt8) {place : ℕ} (h : place < 8) (other : ℕ) :
    (byte ||| (1 <<< UInt8.ofNat place)).toNat.testBit other =
      (byte.toNat.testBit other || decide (place = other)) := by
  rw [UInt8.toNat_or, toNat_one_shiftLeft h, Nat.testBit_or, Nat.testBit_two_pow]

@[simp] theorem length_mark (bytes : List UInt8) (index : ℕ) :
    (mark bytes index).length = bytes.length := List.length_modify _ _ _

@[simp] theorem test_zeros (length index : ℕ) : test (List.replicate length 0) index = false := by
  unfold test
  rw [List.getElem?_replicate]
  split <;> simp

theorem test_mark {bytes : List UInt8} {index : ℕ} (h : index / 8 < bytes.length) (other : ℕ) :
    test (mark bytes index) other = (test bytes other || decide (index = other)) := by
  unfold test mark
  rw [List.getElem?_modify]
  by_cases hbyte : index / 8 = other / 8
  · have hread : bytes[other / 8]? = some bytes[index / 8] := by
      rw [← hbyte]
      exact List.getElem?_eq_getElem h
    have hplace : index % 8 = other % 8 ↔ index = other := by omega
    rw [hread]
    simp only [hbyte, if_true, Option.map_eq_map, Option.map_some, Option.any_some]
    rw [testBit_or_shiftLeft _ (Nat.mod_lt _ (by decide)), decide_eq_decide.mpr hplace]
  · have hother : index ≠ other := fun heq => hbyte (by rw [heq])
    simp [hbyte, hother]

/-- Bytes are told apart by their bits. -/
theorem byte_ext {a b : UInt8} (h : ∀ place < 8, a.toNat.testBit place = b.toNat.testBit place) :
    a = b := by
  apply UInt8.toNat_inj.mp
  apply Nat.eq_of_testBit_eq
  intro place
  by_cases hplace : place < 8
  · exact h place hplace
  · have hlarge : 2 ^ 8 ≤ 2 ^ place := Nat.pow_le_pow_right (by decide) (not_lt.mp hplace)
    rw [Nat.testBit_lt_two_pow (lt_of_lt_of_le a.toNat_lt hlarge),
      Nat.testBit_lt_two_pow (lt_of_lt_of_le b.toNat_lt hlarge)]

theorem ext {a b : List UInt8} (hlength : a.length = b.length)
    (h : ∀ index, test a index = test b index) : a = b := by
  apply List.ext_getElem hlength
  intro place ha hb
  apply byte_ext
  intro bit hbit
  have htest := h (8 * place + bit)
  have hbyte : (8 * place + bit) / 8 = place := by omega
  have hplace : (8 * place + bit) % 8 = bit := by omega
  simpa only [test, hbyte, hplace, List.getElem?_eq_getElem ha, List.getElem?_eq_getElem hb,
    Option.any_some] using htest

end Bitmaps
