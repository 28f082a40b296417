import Mathlib.Data.Nat.Notation
import Mathlib.Logic.Basic

/-!
# Computations that refuse or abort

A checked computation ends in one of three ways: with a value, with a refusal the
caller can read, or with an abort of the whole program (an index out of range, an
arithmetic overflow). The last two leave no state behind. The rules below take a
successful computation apart step by step and carry freedom from aborts through
sequencing.
-/

namespace CheckedComputation

/-- How a computation ends early: it refuses with an error, or it aborts. -/
inductive Fault (ε : Type) where
  | error (e : ε)
  | panic
  deriving DecidableEq, Repr

/-- A computation with result `α` that may refuse with an `ε` or abort. -/
abbrev Checked (ε α : Type) := Except (Fault ε) α

variable {ε α β γ : Type}

/-- Refuse with `e` unless `c` holds. -/
def require (c : Prop) [Decidable c] (e : ε) : Checked ε Unit :=
  if c then .ok () else .error (.error e)

/-- The value of an option, or a refusal with `e`. -/
def okOr (o : Option α) (e : ε) : Checked ε α :=
  match o with
  | some a => .ok a
  | none => .error (.error e)

/-- The value of an option whose absence aborts, as an index out of range does. -/
def orPanic (o : Option α) : Checked ε α :=
  match o with
  | some a => .ok a
  | none => .error .panic

/-- The elements from index `i` on, aborting when there are fewer than `i`. -/
def sliceFrom (xs : List γ) (i : ℕ) : Checked ε (List γ) :=
  if i ≤ xs.length then .ok (xs.drop i) else .error .panic

/-- The elements from index `i` up to `j`, aborting out of range. -/
def slice (xs : List γ) (i j : ℕ) : Checked ε (List γ) :=
  if i ≤ j ∧ j ≤ xs.length then .ok ((xs.take j).drop i) else .error .panic

/-- The vector with element `i` replaced, aborting out of range. -/
def setAt {n : ℕ} (xs : Vector γ n) (i : ℕ) (a : γ) : Checked ε (Vector γ n) :=
  if i < n then .ok (xs.setIfInBounds i a) else .error .panic

/-- Run a check over every element, stopping at the first that does not pass. -/
def forEach (f : γ → Checked ε Unit) : List γ → Checked ε Unit
  | [] => .ok ()
  | a :: as => f a >>= fun _ => forEach f as

@[simp] theorem bind_eq_ok {x : Checked ε α} {f : α → Checked ε β} {b : β} :
    (x >>= f) = .ok b ↔ ∃ a, x = .ok a ∧ f a = .ok b := by
  cases x <;> simp [bind, Except.bind]

@[simp] theorem pure_eq_ok {a b : α} : (pure a : Checked ε α) = .ok b ↔ a = b := by
  simp [pure, Except.pure]

@[simp] theorem ok_bind (a : α) (f : α → Checked ε β) : (Except.ok a >>= f) = f a := rfl

@[simp] theorem error_bind (e : Fault ε) (f : α → Checked ε β) :
    ((Except.error e : Checked ε α) >>= f) = .error e := rfl

@[simp] theorem require_eq_ok {c : Prop} [Decidable c] {e : ε} {u : Unit} :
    require c e = .ok u ↔ c := by
  by_cases h : c <;> simp [require, h]

@[simp] theorem okOr_eq_ok {o : Option α} {e : ε} {a : α} : okOr o e = .ok a ↔ o = some a := by
  cases o <;> simp [okOr]

@[simp] theorem orPanic_eq_ok {o : Option α} {a : α} :
    (orPanic o : Checked ε α) = .ok a ↔ o = some a := by
  cases o <;> simp [orPanic]

@[simp] theorem sliceFrom_eq_ok {xs ys : List γ} {i : ℕ} :
    (sliceFrom xs i : Checked ε (List γ)) = .ok ys ↔ i ≤ xs.length ∧ xs.drop i = ys := by
  unfold sliceFrom
  split <;> simp [*]

@[simp] theorem setAt_eq_ok {n : ℕ} {xs ys : Vector γ n} {i : ℕ} {a : γ} :
    (setAt xs i a : Checked ε (Vector γ n)) = .ok ys ↔ i < n ∧ xs.setIfInBounds i a = ys := by
  unfold setAt
  split <;> simp [*]

theorem forEach_eq_ok {f : γ → Checked ε Unit} {as : List γ} {u : Unit} :
    forEach f as = .ok u ↔ ∀ a ∈ as, f a = .ok () := by
  induction as with
  | nil => simp [forEach]
  | cons a as ih =>
    rw [forEach, bind_eq_ok, List.forall_mem_cons, ← ih]
    exact ⟨fun ⟨_, ha, has⟩ => ⟨ha, has⟩, fun ⟨ha, has⟩ => ⟨(), ha, has⟩⟩

theorem require_of {c : Prop} [Decidable c] (h : c) (e : ε) : require c e = .ok () := if_pos h

theorem require_of_not {c : Prop} [Decidable c] (h : ¬c) (e : ε) :
    require c e = .error (.error e) := if_neg h

/-- The computation does not abort, whatever else it does. -/
def NoPanic (x : Checked ε α) : Prop := x ≠ .error .panic

theorem NoPanic.ok (a : α) : NoPanic (.ok a : Checked ε α) := by simp [NoPanic]

theorem NoPanic.pure (a : α) : NoPanic (Pure.pure a : Checked ε α) := NoPanic.ok a

theorem NoPanic.refusal (e : ε) : NoPanic (.error (.error e) : Checked ε α) := by simp [NoPanic]

theorem NoPanic.of_eq_ok {x : Checked ε α} {a : α} (h : x = .ok a) : NoPanic x := by
  simp [NoPanic, h]

/-- Sequencing aborts only if a part does; the later part may use what the earlier one returned. -/
theorem NoPanic.bind {x : Checked ε α} {f : α → Checked ε β} (hx : NoPanic x)
    (hf : ∀ a, x = .ok a → NoPanic (f a)) : NoPanic (x >>= f) := by
  cases x with
  | error e => simpa [NoPanic] using hx
  | ok a => exact hf a rfl

theorem NoPanic.require (c : Prop) [Decidable c] (e : ε) : NoPanic (require c e) := by
  by_cases h : c <;> simp [NoPanic, CheckedComputation.require, h]

theorem NoPanic.okOr (o : Option α) (e : ε) : NoPanic (okOr o e) := by
  cases o <;> simp [NoPanic, CheckedComputation.okOr]

theorem NoPanic.orPanic {o : Option α} (h : o.isSome) : NoPanic (orPanic o : Checked ε α) := by
  obtain ⟨a, rfl⟩ := Option.isSome_iff_exists.mp h
  exact NoPanic.ok a

theorem NoPanic.sliceFrom {xs : List γ} {i : ℕ} (h : i ≤ xs.length) :
    NoPanic (sliceFrom xs i : Checked ε (List γ)) := by
  simp [NoPanic, CheckedComputation.sliceFrom, h]

theorem NoPanic.slice {xs : List γ} {i j : ℕ} (hij : i ≤ j) (hj : j ≤ xs.length) :
    NoPanic (slice xs i j : Checked ε (List γ)) := by
  simp [NoPanic, CheckedComputation.slice, hij, hj]

theorem NoPanic.setAt {n : ℕ} {xs : Vector γ n} {i : ℕ} {a : γ} (h : i < n) :
    NoPanic (setAt xs i a : Checked ε (Vector γ n)) := by
  simp [NoPanic, CheckedComputation.setAt, h]

theorem NoPanic.forEach {f : γ → Checked ε Unit} {as : List γ}
    (h : ∀ a ∈ as, NoPanic (f a)) : NoPanic (forEach f as) := by
  induction as with
  | nil => exact NoPanic.ok _
  | cons a as ih =>
    exact NoPanic.bind (h a (by simp)) fun _ _ => ih fun b hb => h b (by simp [hb])

theorem NoPanic.ite {c : Prop} [Decidable c] {x y : Checked ε α} (hx : c → NoPanic x)
    (hy : ¬c → NoPanic y) : NoPanic (if c then x else y) := by
  split
  · exact hx ‹_›
  · exact hy ‹_›

/-- The computation refuses with nothing but the errors allowed. -/
def RefusesOnly (allowed : ε → Prop) (x : Checked ε α) : Prop := ∀ e, x = .error (.error e) → allowed e

variable {allowed : ε → Prop}

theorem RefusesOnly.of_eq_ok {x : Checked ε α} {a : α} (h : x = .ok a) : RefusesOnly allowed x := by
  intro e he
  rw [h] at he
  cases he

/-- Sequencing refuses only as its parts do. -/
theorem RefusesOnly.bind {x : Checked ε α} {f : α → Checked ε β} (hx : RefusesOnly allowed x)
    (hf : ∀ a, x = .ok a → RefusesOnly allowed (f a)) : RefusesOnly allowed (x >>= f) := by
  cases x with
  | error fault =>
    intro e he
    rw [error_bind] at he
    exact hx e (congrArg Except.error (Except.error.inj he))
  | ok a => exact hf a rfl

theorem RefusesOnly.require {c : Prop} [Decidable c] {e : ε} (h : ¬c → allowed e) :
    RefusesOnly allowed (require c e) := by
  intro e' he
  by_cases hc : c
  · rw [require_of hc] at he
    cases he
  · rw [require_of_not hc] at he
    cases he
    exact h hc

theorem RefusesOnly.okOr {o : Option α} {e : ε} (h : allowed e) : RefusesOnly allowed (okOr o e) := by
  intro e' he
  cases o with
  | some a => cases he
  | none =>
    cases he
    exact h

/-- A test that aborts when it fails refuses with nothing. -/
theorem RefusesOnly.ite_panic {c : Prop} [Decidable c] {a : α} :
    RefusesOnly allowed (if c then .ok a else .error .panic) := by
  intro e he
  split at he <;> cases he

end CheckedComputation
