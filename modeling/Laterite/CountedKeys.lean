import Mathlib.Data.Set.Card

/-!
# Counting the keys whose entry has a property

A table gives each key of an unbounded set an entry. Replacing one entry moves the number of
keys with a property by at most one, in the direction the entry itself moved.
-/

namespace CountedKeys

universe u v

variable {κ : Type u} {α : Type v} {P : α → Prop} {f g : κ → α} {key : κ} {entry : α} {n : ℕ}

/-- The keys whose entry has the property. -/
def holders (P : α → Prop) (f : κ → α) : Set κ := {key | P (f key)}

@[simp] theorem mem_holders : key ∈ holders P f ↔ P (f key) := Iff.rfl

theorem holders_congr (h : ∀ key, P (f key) ↔ P (g key)) : holders P f = holders P g :=
  Set.ext h

theorem one_le_of_mem (hcount : (holders P f).encard = n) (hkey : P (f key)) : 1 ≤ n := by
  have hpos := Set.encard_pos.mpr ⟨key, mem_holders.mpr hkey⟩
  rw [hcount] at hpos
  exact_mod_cast hpos

variable [DecidableEq κ]

/-- A key that gains the property adds one. -/
theorem encard_update_enter (hcount : (holders P f).encard = n) (hold : ¬P (f key))
    (hnew : P entry) : (holders P (Function.update f key entry)).encard = (n + 1 : ℕ) := by
  have hset : holders P (Function.update f key entry) = insert key (holders P f) := by
    ext k
    by_cases hk : k = key
    · subst hk
      simp [hnew]
    · simp [hk]
  have hout : key ∉ holders P f := hold
  rw [hset, Set.encard_insert_of_notMem hout, hcount]
  rfl

/-- A key that loses the property takes one away. -/
theorem encard_update_leave (hcount : (holders P f).encard = n) (hold : P (f key))
    (hnew : ¬P entry) : (holders P (Function.update f key entry)).encard = (n - 1 : ℕ) := by
  have hset : holders P (Function.update f key entry) = holders P f \ {key} := by
    ext k
    by_cases hk : k = key
    · subst hk
      simp [hnew]
    · simp [hk]
  have hin : key ∈ holders P f := hold
  rw [hset, Set.encard_sdiff_singleton_of_mem hin, hcount]
  rfl

end CountedKeys
