import Mathlib.Algebra.BigOperators.Group.List.Basic
import Mathlib.Data.Int.Order.Basic
import Mathlib.Order.WithBot
import Mathlib.Algebra.GroupWithZero.Nat
import Mathlib.Data.Int.ConditionallyCompleteOrder
import Mathlib.Order.ConditionallyCompleteLattice.Basic

/-!
# Runs of a clocked transition system

A transition records its clock, what happened and the states around it. A run joins
transitions end to end at non-decreasing clocks; its history lists them, the latest
first. Everything is stated over arbitrary states and events: the invariant rules, the
clock order of a history, the projection of a run along a view of the state, totals over a
history, and the list of states since a moment with what a watermark says about it.
-/

namespace TimedRuns

universe u v w x

/-- One step, with its clock, its event and the states before and after. -/
structure Transition (σ : Type u) (ε : Type v) where
  now : ℤ
  event : ε
  before : σ
  after : σ

variable {σ : Type u} {ε : Type v} {τ : Type w} {δ : Type x}
variable {step : Transition σ ε → Prop} {s₀ s : σ} {h : List (Transition σ ε)}

/-- The steps of `h`, latest first, lead from `s₀` to `s` at non-decreasing clocks. -/
inductive Run (step : Transition σ ε → Prop) (s₀ : σ) : List (Transition σ ε) → σ → Prop
  | start : Run step s₀ [] s₀
  | next {h : List (Transition σ ε)} {t : Transition σ ε} (past : Run step s₀ h t.before)
      (later : ∀ p ∈ h, p.now ≤ t.now) (taken : step t) : Run step s₀ (t :: h) t.after

namespace Run

/-- A property of the history and the state holds of every run if it holds at the start
and each step carries it over. The step may use that the run so far is one. -/
theorem induct {J : List (Transition σ ε) → σ → Prop} (hr : Run step s₀ h s)
    (start : J [] s₀)
    (next : ∀ h t, Run step s₀ h t.before → (∀ p ∈ h, p.now ≤ t.now) → step t →
      J h t.before → J (t :: h) t.after) : J h s := by
  induction hr with
  | start => exact start
  | next past later taken ih => exact next _ _ past later taken ih

theorem invariant {I : σ → Prop} (hr : Run step s₀ h s) (start : I s₀)
    (preserved : ∀ t, step t → I t.before → I t.after) : I s :=
  hr.induct (J := fun _ s => I s) start (fun _ t _ _ ht hi => preserved t ht hi)

theorem last {t : Transition σ ε} (hr : Run step s₀ (t :: h) s) :
    Run step s₀ h t.before ∧ (∀ p ∈ h, p.now ≤ t.now) ∧ step t ∧ s = t.after := by
  cases hr with
  | next past later taken => exact ⟨past, later, taken, rfl⟩

/-- Every transition of a history was a step, taken in a state the earlier ones reach. -/
theorem split {newer older : List (Transition σ ε)} {t : Transition σ ε}
    (hr : Run step s₀ (newer ++ t :: older) s) :
    Run step s₀ older t.before ∧ Run step s₀ (t :: older) t.after ∧ step t ∧
      (∀ p ∈ older, p.now ≤ t.now) ∧ ∀ q ∈ newer, t.now ≤ q.now := by
  induction newer generalizing s with
  | nil =>
    cases hr with
    | next past later taken => exact ⟨past, past.next later taken, taken, later, by simp⟩
  | cons q newer ih =>
    cases hr with
    | next past later taken =>
      obtain ⟨h₁, h₂, h₃, h₄, h₅⟩ := ih past
      refine ⟨h₁, h₂, h₃, h₄, ?_⟩
      intro p hp
      rcases List.mem_cons.mp hp with rfl | hp
      · exact later t (by simp)
      · exact h₅ p hp

theorem at_mem {t : Transition σ ε} (hr : Run step s₀ h s) (ht : t ∈ h) :
    ∃ older, Run step s₀ (t :: older) t.after ∧ Run step s₀ older t.before ∧ step t ∧
      ∀ p ∈ older, p.now ≤ t.now := by
  obtain ⟨newer, older, rfl⟩ := List.append_of_mem ht
  obtain ⟨h₁, h₂, h₃, h₄, -⟩ := hr.split
  exact ⟨older, h₂, h₁, h₃, h₄⟩

/-- The part of a run after a cut is a run from the state at the cut. -/
theorem suffix {newer older : List (Transition σ ε)} (hr : Run step s₀ (newer ++ older) s) :
    ∃ m, Run step s₀ older m ∧ Run step m newer s := by
  induction newer generalizing s with
  | nil => exact ⟨s, hr, .start⟩
  | cons t newer ih =>
    cases hr with
    | next past later taken =>
      obtain ⟨m, h₁, h₂⟩ := ih past
      exact ⟨m, h₁, h₂.next (fun p hp => later p (by simp [hp])) taken⟩

/-- A part of the state that only some steps write keeps what the last of them wrote. -/
theorem last_write {κ : Type w} (slot : σ → κ) {writes : Transition σ ε → Prop}
    (hr : Run step s₀ h s) (keeps : ∀ t, step t → ¬writes t → slot t.after = slot t.before) :
    ((∀ t ∈ h, ¬writes t) ∧ slot s = slot s₀) ∨
      ∃ newer t older, h = newer ++ t :: older ∧ (∀ q ∈ newer, ¬writes q) ∧ writes t ∧
        slot s = slot t.after := by
  induction hr with
  | start => exact .inl ⟨by simp, rfl⟩
  | @next h t past later taken ih =>
    by_cases hw : writes t
    · exact .inr ⟨[], t, h, rfl, by simp, hw, rfl⟩
    · rw [keeps t taken hw]
      obtain ⟨hnone, hslot⟩ | ⟨newer, p, older, rfl, hnewer, hp, hslot⟩ := ih
      · exact .inl ⟨by simpa [hw] using hnone, hslot⟩
      · exact .inr ⟨t :: newer, p, older, rfl, by simpa [hw] using hnewer, hp, hslot⟩

/-- Projection. A view of the state, together with what each concrete transition means to
the view, turns a run into a run of the viewed system: a transition that means nothing
must leave the view alone, and one that means something must be a step there. -/
theorem project {step' : Transition τ δ → Prop} (view : σ → τ)
    (meaning : Transition σ ε → Option δ)
    (silent : ∀ t, step t → meaning t = none → view t.after = view t.before)
    (visible : ∀ t d, step t → meaning t = some d →
      step' ⟨t.now, d, view t.before, view t.after⟩)
    (hr : Run step s₀ h s) :
    Run step' (view s₀)
      (h.filterMap fun t => (meaning t).map fun d => ⟨t.now, d, view t.before, view t.after⟩)
      (view s) := by
  induction hr with
  | start => exact .start
  | @next h t past later taken ih =>
    cases hm : meaning t with
    | none =>
      rw [List.filterMap_cons_none (by simp [hm]), silent t taken hm]
      exact ih
    | some d =>
      rw [List.filterMap_cons_some (by simp [hm]; rfl)]
      refine Run.next (t := ⟨t.now, d, view t.before, view t.after⟩) ih ?_ (visible t d taken hm)
      intro p hp
      obtain ⟨q, hq, hqp⟩ := List.mem_filterMap.mp hp
      obtain ⟨e, -, rfl⟩ := Option.map_eq_some_iff.mp hqp
      exact later q hq

end Run

/-- The sum of a quantity over a history. -/
def total (amount : Transition σ ε → ℕ) (h : List (Transition σ ε)) : ℕ := (h.map amount).sum

@[simp] theorem total_nil (amount : Transition σ ε → ℕ) : total amount [] = 0 := rfl

@[simp] theorem total_cons (amount : Transition σ ε → ℕ) (t : Transition σ ε)
    (h : List (Transition σ ε)) : total amount (t :: h) = amount t + total amount h := by
  simp [total]

theorem total_add (f g : Transition σ ε → ℕ) (h : List (Transition σ ε)) :
    total (fun t => f t + g t) h = total f h + total g h := by
  induction h with
  | nil => rfl
  | cons t h ih =>
    simp only [total_cons, ih]
    omega

section Ledgers

variable (balance : σ → ℕ) (credit debit : Transition σ ε → ℕ)

/-- When no step leaves more than its credits account for, neither does a run. -/
theorem Run.total_le (hr : Run step s₀ h s)
    (hstep : ∀ t, step t → balance t.after + debit t ≤ balance t.before + credit t) :
    balance s + total debit h ≤ balance s₀ + total credit h := by
  induction hr with
  | start => simp
  | @next h t past later taken ih =>
    have ht := hstep t taken
    rw [total_cons, total_cons]
    omega

theorem Run.total_eq (hr : Run step s₀ h s)
    (hstep : ∀ t ∈ h, step t → balance t.after + debit t = balance t.before + credit t) :
    balance s + total debit h = balance s₀ + total credit h := by
  induction hr with
  | start => simp
  | @next h t past later taken ih =>
    have ht := hstep t (by simp) taken
    have hpast := ih fun q hq => hstep q (by simp [hq])
    rw [total_cons, total_cons]
    omega

end Ledgers

/-- The states from the end of moment `e` on: the current one, and those before each step
taken after `e`. -/
def statesSince (e : ℤ) : List (Transition σ ε) → σ → List σ
  | [], s => [s]
  | t :: h, s => s :: if e < t.now then statesSince e h t.before else []

theorem mem_statesSince_self (e : ℤ) (h : List (Transition σ ε)) (s : σ) :
    s ∈ statesSince e h s := by
  cases h <;> simp [statesSince]

section Watermarks

variable {α : Type w} [Preorder α] (mark : σ → WithBot ℤ) (level : σ → α)

/-- A watermark that no step lowers, and that every step which may raise the level lifts to
the clock: since any moment at or above the mark, the level was never below the present one. -/
theorem Run.level_le_since (hr : Run step s₀ h s)
    (hmark : ∀ t, step t → mark t.before ≤ mark t.after)
    (hlevel : ∀ t, step t → level t.after ≤ level t.before ∨ (t.now : WithBot ℤ) ≤ mark t.after)
    {e : ℤ} (he : mark s ≤ e) : ∀ s' ∈ statesSince e h s, level s ≤ level s' := by
  induction hr with
  | start =>
    intro s' hs'
    obtain rfl := List.mem_singleton.mp hs'
    exact le_refl _
  | @next h t past later taken ih =>
    intro s' hs'
    rcases List.mem_cons.mp hs' with rfl | hs'
    · exact le_refl _
    · by_cases hafter : e < t.now
      · rw [if_pos hafter] at hs'
        have hold := ih ((hmark t taken).trans he) s' hs'
        obtain hle | hnow := hlevel t taken
        · exact hle.trans hold
        · exact absurd (WithBot.coe_le_coe.mp (hnow.trans he)) (not_le_of_gt hafter)
      · simp [hafter] at hs'

end Watermarks

end TimedRuns
