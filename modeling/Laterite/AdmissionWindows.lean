import Mathlib.Data.List.Basic
import Mathlib.Data.List.Forall2

/-!
# Entries admitted within a limit

Entries are listed the latest first. One is admitted when, of the entries before it that count
and weigh against it, there are fewer than the limit. Entries may stop counting later on, never
start. Then no set of counting entries that weigh against each other exceeds the limit, whatever
times the entries carry.
-/

namespace AdmissionWindows

universe u

variable {α : Type u} {counts : α → Bool} {recent : α → α → Bool} {limit : ℕ}

def Admitted (counts : α → Bool) (recent : α → α → Bool) (limit : ℕ) : List α → Prop
  | [] => True
  | x :: earlier =>
    (counts x = true → earlier.countP (fun y => counts y && recent x y) < limit) ∧
      Admitted counts recent limit earlier

/-- `y` came to count less than `x` did, and weighs as it did. -/
structure Fades (counts : α → Bool) (recent : α → α → Bool) (x y : α) : Prop where
  counts : counts y = true → counts x = true
  recent_left : ∀ z, recent y z = recent x z
  recent_right : ∀ z, recent z y = recent z x

theorem countP_fades {l l' : List α} (h : List.Forall₂ (Fades counts recent) l l') (x : α) :
    l'.countP (fun y => counts y && recent x y) ≤ l.countP (fun y => counts y && recent x y) := by
  induction h with
  | nil => exact Nat.le_refl _
  | @cons a b l l' hab _ ih =>
    rw [List.countP_cons, List.countP_cons]
    have hstep : (counts b && recent x b) = true → (counts a && recent x a) = true := by
      rw [Bool.and_eq_true, Bool.and_eq_true, hab.recent_right]
      exact fun hb => ⟨hab.counts hb.1, hb.2⟩
    split
    · rename_i hb
      rw [if_pos (hstep hb)]
      omega
    · omega

theorem Admitted.fades {l l' : List α} (h : Admitted counts recent limit l)
    (hfades : List.Forall₂ (Fades counts recent) l l') : Admitted counts recent limit l' := by
  induction hfades with
  | nil => trivial
  | @cons a b l l' hab hrest ih =>
    refine ⟨fun hb => ?_, ih h.2⟩
    have hcount := countP_fades hrest b
    have hsame : l.countP (fun y => counts y && recent b y) =
        l.countP (fun y => counts y && recent a y) := by
      simp only [hab.recent_left]
    have hlimit := h.1 (hab.counts hb)
    omega

/-- Counting entries that weigh against each other are at most the limit. -/
theorem Admitted.countP_le {l : List α} {among : α → Bool} (h : Admitted counts recent limit l)
    (hcounts : ∀ x, among x = true → counts x = true)
    (hrecent : ∀ x y, among x = true → among y = true → recent x y = true) :
    l.countP among ≤ limit := by
  induction l with
  | nil => exact Nat.zero_le _
  | cons x earlier ih =>
    rw [List.countP_cons]
    split
    · rename_i hx
      have hle : earlier.countP among ≤ earlier.countP (fun y => counts y && recent x y) := by
        apply List.countP_mono_left
        intro y _ hy
        rw [Bool.and_eq_true]
        exact ⟨hcounts y hy, hrecent x y hx hy⟩
      have hlimit := h.1 (hcounts x hx)
      omega
    · have hle := ih h.2
      omega

end AdmissionWindows
