import Mathlib.Algebra.Order.Group.Unbundled.Int

/-!
# Readings of a clock that hold until a boundary

A reading of a clock is steady until a boundary when it does not change at any later instant
before it. Quotients by a period and comparisons with a deadline are steady until the next
instant that could change them, and whatever is computed from steady readings is steady.
-/

namespace SteadyReadings

variable {α β : Type*} {now boundary : ℤ}

/-- From `now` until just before `boundary` the reading stays what it is. -/
def Steady (reading : ℤ → α) (now boundary : ℤ) : Prop :=
  ∀ time, now ≤ time → time < boundary → reading time = reading now

namespace Steady

theorem map {reading : ℤ → α} (h : Steady reading now boundary) (f : α → β) :
    Steady (fun time => f (reading time)) now boundary :=
  fun time hnow hlt => congrArg f (h time hnow hlt)

/-- A deadline that passed stays passed, and one ahead is ahead until it comes. -/
theorem deadline (limit : ℤ) (h : now < limit → boundary ≤ limit) :
    Steady (fun time => decide (time < limit)) now boundary := by
  intro time hnow hlt
  apply decide_eq_decide.mpr
  constructor
  · intro htime
    exact lt_of_le_of_lt hnow htime
  · intro hahead
    exact lt_of_lt_of_le hlt (h hahead)

/-- The periods counted from a start stay the same until the next one begins. -/
theorem periods {period : ℤ} (hperiod : 0 < period) (start : ℤ)
    (h : boundary ≤ start + ((now - start) / period + 1) * period) :
    Steady (fun time => (time - start) / period) now boundary := by
  intro time hnow hlt
  have hlower : (now - start) / period ≤ (time - start) / period :=
    Int.ediv_le_ediv hperiod (by omega)
  have hupper : (time - start) / period < (now - start) / period + 1 :=
    Int.ediv_lt_of_lt_mul hperiod (by omega)
  exact le_antisymm (Int.lt_add_one_iff.mp hupper) hlower

end Steady

/-- The least of a first boundary and the rest, as a left fold keeps it. -/
def nearest (first : ℤ) (rest : List ℤ) : ℤ :=
  rest.foldl (fun next boundary => if boundary < next then boundary else next) first

theorem nearest_cons (first boundary : ℤ) (rest : List ℤ) :
    nearest first (boundary :: rest) = nearest (if boundary < first then boundary else first) rest :=
  rfl

theorem nearest_le_first (first : ℤ) (rest : List ℤ) : nearest first rest ≤ first := by
  induction rest generalizing first with
  | nil => exact le_rfl
  | cons boundary rest ih =>
    rw [nearest_cons]
    apply le_trans (ih _)
    split <;> omega

theorem nearest_le_of_mem {boundary : ℤ} {rest : List ℤ} (first : ℤ) (h : boundary ∈ rest) :
    nearest first rest ≤ boundary := by
  induction rest generalizing first with
  | nil => cases h
  | cons head rest ih =>
    rw [nearest_cons]
    rcases List.mem_cons.mp h with rfl | hrest
    · apply le_trans (nearest_le_first _ _)
      split <;> omega
    · exact ih _ hrest

theorem lt_nearest {first : ℤ} {rest : List ℤ} (hfirst : now < first)
    (hrest : ∀ boundary ∈ rest, now < boundary) : now < nearest first rest := by
  induction rest generalizing first with
  | nil => exact hfirst
  | cons head rest ih =>
    rw [nearest_cons]
    have hhead : now < head := hrest head (List.mem_cons_self ..)
    apply ih
    · split
      · exact hhead
      · exact hfirst
    · intro boundary hmem
      exact hrest boundary (List.mem_cons_of_mem head hmem)

end SteadyReadings
