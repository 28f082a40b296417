import Laterite.CheckedComputation
import Mathlib.Data.List.Basic

/-!
# Readers that accept exactly an encoding

A reader takes what is left of its input and returns a value with what it has not read. It
is exact for a relation between values and codes when it returns a value just for the inputs
that begin with one of the value's codes, and leaves what follows that code.
-/

namespace ExactReading

open CheckedComputation

variable {ε σ α β : Type} {read : List σ → Checked ε (α × List σ)} {Code : α → List σ → Prop}
  {input rest : List σ}

/-- The reader accepts the codes of its values, and nothing else. -/
def Exact (read : List σ → Checked ε (α × List σ)) (Code : α → List σ → Prop) : Prop :=
  ∀ input a rest, read input = .ok (a, rest) ↔ ∃ code, Code a code ∧ input = code ++ rest

/-- Whatever follows an exact reader runs on what is left after a code. -/
theorem Exact.bind_eq_ok (h : Exact read Code) {f : α × List σ → Checked ε β} {b : β} :
    (read input >>= f) = .ok b ↔
      ∃ a code rest, Code a code ∧ input = code ++ rest ∧ f (a, rest) = .ok b := by
  rw [CheckedComputation.bind_eq_ok]
  constructor
  · rintro ⟨⟨a, rest⟩, hread, hf⟩
    obtain ⟨code, hcode, hinput⟩ := (h input a rest).mp hread
    exact ⟨a, code, rest, hcode, hinput, hf⟩
  · rintro ⟨a, code, rest, hcode, hinput, hf⟩
    exact ⟨(a, rest), (h input a rest).mpr ⟨code, hcode, hinput⟩, hf⟩

/-- Applying a function to what was read keeps a reader exact. -/
theorem Exact.map (h : Exact read Code) (f : α → β) :
    Exact (fun input => read input >>= fun r => pure (f r.1, r.2))
      (fun b code => ∃ a, Code a code ∧ f a = b) := by
  intro input b rest
  rw [h.bind_eq_ok]
  constructor
  · rintro ⟨a, code, rest', hcode, hinput, hpure⟩
    rw [pure_eq_ok, Prod.mk.injEq] at hpure
    exact ⟨code, ⟨a, hcode, hpure.1⟩, hpure.2 ▸ hinput⟩
  · rintro ⟨code, ⟨a, hcode, rfl⟩, hinput⟩
    exact ⟨a, code, rest, hcode, hinput, rfl⟩

theorem Exact.congr {Code' : α → List σ → Prop} (h : Exact read Code)
    (hcode : ∀ a code, Code a code ↔ Code' a code) : Exact read Code' := by
  intro input a rest
  rw [h input a rest]
  exact exists_congr fun code => and_congr_left' (hcode a code)

/-- Taking a fixed number of elements is exact for any of that length. -/
theorem exact_take (n : ℕ) (e : ε) :
    Exact (fun input : List σ => require (n ≤ input.length) e >>= fun _ =>
      pure (input.take n, input.drop n)) (fun a code => code = a ∧ a.length = n) := by
  intro input a rest
  rw [CheckedComputation.bind_eq_ok]
  constructor
  · rintro ⟨_, hlength, htake⟩
    rw [require_eq_ok] at hlength
    rw [pure_eq_ok, Prod.mk.injEq] at htake
    obtain ⟨rfl, rfl⟩ := htake
    exact ⟨_, ⟨rfl, List.length_take_of_le hlength⟩, (List.take_append_drop n input).symm⟩
  · rintro ⟨code, ⟨rfl, hlength⟩, rfl⟩
    refine ⟨(), require_eq_ok.mpr (by simp [← hlength]), ?_⟩
    rw [List.take_left' hlength, List.drop_left' hlength]
    rfl

end ExactReading
