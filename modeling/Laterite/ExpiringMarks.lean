import Laterite.TimedRuns

/-!
# Marks that expire and may then be cleared

A mark is placed no later than its expiry and cleared only after it. The place it leaves free
can be marked again, but never with an expiry that has passed: so over a whole run no expiry
is placed twice, whoever clears the marks and whenever.
-/

namespace ExpiringMarks

open TimedRuns

inductive MarkAction where
  | place (expiry : ℤ)
  | clear
  deriving DecidableEq

/-- One step on the place of a mark. -/
inductive MarkStep : Transition (Option ℤ) MarkAction → Prop
  | place {now expiry : ℤ} (fresh : now ≤ expiry) :
      MarkStep ⟨now, .place expiry, none, some expiry⟩
  | clear {now expiry : ℤ} (expired : expiry < now) : MarkStep ⟨now, .clear, some expiry, none⟩

variable {h : List (Transition (Option ℤ) MarkAction)} {s : Option ℤ}
  {t : Transition (Option ℤ) MarkAction} {expiry : ℤ}

theorem MarkStep.fresh (ht : MarkStep t) (hplace : t.event = .place expiry) :
    t.before = none ∧ t.now ≤ expiry := by
  cases ht with
  | place fresh =>
    cases hplace
    exact ⟨rfl, fresh⟩
  | clear => cases hplace

/-- A placed mark is still there, or its expiry has passed. -/
theorem present_or_expired (run : Run MarkStep none h s) :
    ∀ p ∈ h, p.event = .place expiry → s = some expiry ∨ ∃ q ∈ h, expiry < q.now := by
  refine run.induct
    (J := fun h s => ∀ p ∈ h, p.event = .place expiry → s = some expiry ∨ ∃ q ∈ h, expiry < q.now)
    (by simp) ?_
  intro h t _ _ taken ih p hp hplace
  have hold : p ∈ h → (∃ q ∈ h, expiry < q.now) →
      t.after = some expiry ∨ ∃ q ∈ t :: h, expiry < q.now :=
    fun _ ⟨q, hq, hlt⟩ => .inr ⟨q, by simp [hq], hlt⟩
  cases taken with
  | @place now expiry' fresh =>
    rcases List.mem_cons.mp hp with rfl | hp
    · cases hplace
      exact .inl rfl
    · obtain habsurd | hpassed := ih p hp hplace
      · cases habsurd
      · exact hold hp hpassed
  | @clear now expiry' expired =>
    rcases List.mem_cons.mp hp with rfl | hp
    · cases hplace
    · obtain hpresent | hpassed := ih p hp hplace
      · cases hpresent
        exact .inr ⟨_, List.mem_cons_self, expired⟩
      · exact hold hp hpassed

theorem place_once (run : Run MarkStep none h s) (expiry : ℤ) :
    h.countP (fun p => p.event = .place expiry) ≤ 1 := by
  refine run.induct (J := fun h _ => h.countP (fun p => p.event = .place expiry) ≤ 1) (by simp) ?_
  intro h t past later taken ih
  by_cases hplace : t.event = .place expiry
  · obtain ⟨hnone, hfresh⟩ := taken.fresh hplace
    have hnever : h.countP (fun p => p.event = .place expiry) = 0 := by
      rw [List.countP_eq_zero]
      intro p hp hpplace
      obtain hpresent | ⟨q, hq, hlt⟩ := present_or_expired past p hp (of_decide_eq_true hpplace)
      · simp [hnone] at hpresent
      · have hnow := later q hq
        omega
    simp [hnever, hplace]
  · simpa [List.countP_cons, hplace] using ih

theorem exists_place (run : Run MarkStep none h (some expiry)) : ∃ p ∈ h, p.event = .place expiry := by
  refine run.induct (J := fun h s => ∀ expiry, s = some expiry → ∃ p ∈ h, p.event = .place expiry)
    (by simp) ?_ expiry rfl
  intro h t _ _ taken _ expiry hafter
  cases taken with
  | place =>
    cases hafter
    exact ⟨_, List.mem_cons_self, rfl⟩
  | clear => cases hafter

end ExpiringMarks
