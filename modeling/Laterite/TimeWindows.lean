import Mathlib.Algebra.BigOperators.Group.List.Basic
import Mathlib.Order.Monotone.Basic
import Mathlib.Data.Nat.Notation
import Mathlib.Algebra.GroupWithZero.Nat

/-!
# Allowances that start afresh with each window of time

Time is cut into windows that never go back. A meter remembers one key and what was spent
under it, and starts afresh whenever the key of the moment differs. The key may confuse two
windows but never splits one, so the meter shows at least what the current window has
spent, however rarely it is looked at.
-/

namespace TimeWindows

universe u v w

variable {τ : Type u} {ω : Type v} {κ : Type w}

/-- What was spent in one window, out of amounts each with its moment. -/
def spentIn [DecidableEq ω] (window : τ → ω) (here : ω) (log : List (τ × ℕ)) : ℕ :=
  ((log.filter fun entry => window entry.1 = here).map Prod.snd).sum

@[simp] theorem spentIn_nil [DecidableEq ω] (window : τ → ω) (here : ω) :
    spentIn window here [] = 0 := rfl

theorem spentIn_cons [DecidableEq ω] (window : τ → ω) (here : ω) (now : τ) (amount : ℕ)
    (log : List (τ × ℕ)) :
    spentIn window here ((now, amount) :: log) =
      (if window now = here then amount else 0) + spentIn window here log := by
  by_cases h : window now = here <;> simp [spentIn, h]

theorem spentIn_eq_zero [DecidableEq ω] {window : τ → ω} {here : ω} {log : List (τ × ℕ)}
    (h : ∀ entry ∈ log, window entry.1 ≠ here) : spentIn window here log = 0 := by
  have hnone : log.filter (fun entry => window entry.1 = here) = [] := by simpa using h
  rw [spentIn, hnone]
  rfl

/-- What was spent, under the key it was last charged with. -/
structure Meter (κ : Type w) where
  key : κ
  spent : ℕ

namespace Meter

variable [DecidableEq κ] (key : τ → κ) (meter : Meter κ)

/-- What the meter shows at a moment: nothing once the key has moved on. -/
def spentAt (now : τ) : ℕ := if key now = meter.key then meter.spent else 0

/-- Charge an amount at a moment. -/
def spend (amount : ℕ) (now : τ) : Meter κ := ⟨key now, meter.spentAt key now + amount⟩

variable [Preorder τ] [DecidableEq ω] {window : τ → ω} {key} {meter}
  {log : List (τ × ℕ)} {amount : ℕ} {now : τ}

/-- From the last entry on, the meter shows at least what the window of the moment spent. -/
def Covers (window : τ → ω) (key : τ → κ) (log : List (τ × ℕ)) (meter : Meter κ) : Prop :=
  ∀ now, (∀ entry ∈ log, entry.1 ≤ now) → spentIn window (window now) log ≤ meter.spentAt key now

theorem covers_nil : meter.Covers window key [] := fun _ _ => Nat.zero_le _

/-- Charging the meter keeps it covering, as long as moments come in order. -/
theorem Covers.spend [PartialOrder ω] (hm : meter.Covers window key log) (hwindow : Monotone window)
    (hkey : ∀ {s t}, window s = window t → key s = key t) (hlater : ∀ entry ∈ log, entry.1 ≤ now) :
    (meter.spend key amount now).Covers window key ((now, amount) :: log) := by
  intro t ht
  have hnow : now ≤ t := ht (now, amount) (by simp)
  rw [spentIn_cons]
  by_cases hsame : window now = window t
  · have hold := hm now hlater
    rw [hsame] at hold
    have hshown : (meter.spend key amount now).spentAt key t = meter.spentAt key now + amount := by
      simp [spentAt, Meter.spend, hkey hsame]
    rw [if_pos hsame, hshown]
    omega
  · have hpast : ∀ entry ∈ log, window entry.1 ≠ window t := by
      intro entry he heq
      exact hsame (le_antisymm (hwindow hnow) (heq ▸ hwindow (hlater entry he)))
    rw [if_neg hsame, spentIn_eq_zero hpast]
    exact Nat.zero_le _

/-- What a window spends stays within a cap when each charge fits under it. -/
theorem Covers.spend_le {cap : ℕ} (hm : meter.Covers window key log)
    (hlater : ∀ entry ∈ log, entry.1 ≤ now) (hroom : meter.spentAt key now + amount ≤ cap) :
    spentIn window (window now) ((now, amount) :: log) ≤ cap := by
  have hold := hm now hlater
  rw [spentIn_cons, if_pos rfl]
  omega

end Meter

/-- Moments whose keys differ fall in different windows, and so does any earlier moment from
the later one. -/
theorem window_ne_of_key_ne [Preorder τ] [PartialOrder ω] {window : τ → ω} {key : τ → κ}
    (hwindow : Monotone window) (hkey : ∀ {s t}, window s = window t → key s = key t)
    {earlier last now : τ} (h₁ : earlier ≤ last) (h₂ : last ≤ now) (hne : key last ≠ key now) :
    window earlier ≠ window now := by
  intro heq
  have hlast : window last = window now :=
    le_antisymm (hwindow h₂) (heq ▸ hwindow h₁)
  exact hne (hkey hlast)

end TimeWindows
