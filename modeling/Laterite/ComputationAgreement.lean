import Laterite.CheckedComputation

/-!
# Computations that agree

Two computations, each with values and errors of its own, agree when both return related
values or both fail with related errors. Agreement goes through sequencing, guards and
case splits, so two programs written step for step are compared step by step.
-/

namespace ComputationAgreement

open CheckedComputation

variable {ε ε' α α' β β' : Type} {E : ε → ε' → Prop} {R : α → α' → Prop} {S : β → β' → Prop}

/-- Both return related values, or both fail with related errors. -/
inductive Agree (E : ε → ε' → Prop) (R : α → α' → Prop) : Except ε α → Except ε' α' → Prop
  | ok {a : α} {a' : α'} (h : R a a') : Agree E R (.ok a) (.ok a')
  | error {e : ε} {e' : ε'} (h : E e e') : Agree E R (.error e) (.error e')

theorem Agree.bind {x : Except ε α} {x' : Except ε' α'} {f : α → Except ε β}
    {f' : α' → Except ε' β'} (hx : Agree E R x x')
    (hf : ∀ a a', R a a' → Agree E S (f a) (f' a')) : Agree E S (x >>= f) (x' >>= f') := by
  cases hx with
  | ok h => exact hf _ _ h
  | error h => exact Agree.error h

theorem Agree.ite {c c' : Prop} [Decidable c] [Decidable c'] {x y : Except ε α}
    {x' y' : Except ε' α'} (hc : c ↔ c') (hx : c → Agree E R x x') (hy : ¬c → Agree E R y y') :
    Agree E R (if c then x else y) (if c' then x' else y') := by
  by_cases h : c
  · rw [if_pos h, if_pos (hc.mp h)]
    exact hx h
  · rw [if_neg h, if_neg (mt hc.mpr h)]
    exact hy h

theorem Agree.guard {ε' : Type} {E : ε → Fault ε' → Prop} {c c' : Prop} [Decidable c] [Decidable c']
    {e : ε} {e' : ε'} {x : Except ε α} {x' : Checked ε' α'} (he : E e (.error e')) (hc : c ↔ ¬c')
    (hx : c' → Agree E R x x') :
    Agree E R (if c then .error e else x) (require c' e' >>= fun _ => x') := by
  by_cases h : c'
  · rw [if_neg (fun hthrow => hc.mp hthrow h), require_of h]
    exact hx h
  · rw [if_pos (hc.mpr h), require_of_not h]
    exact Agree.error he

/-- What is known of either result may be used to relate them. -/
theorem Agree.relate {S : α → α' → Prop} {x : Except ε α} {x' : Except ε' α'} (h : Agree E R x x')
    (hrelate : ∀ a a', x = .ok a → x' = .ok a' → R a a' → S a a') : Agree E S x x' := by
  cases h with
  | ok h => exact Agree.ok (hrelate _ _ rfl rfl h)
  | error h => exact Agree.error h

end ComputationAgreement
