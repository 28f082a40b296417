import Mathlib.Data.List.Basic

/-!
# Traces of nested calls

What runs inside a call is a trace: entries it logs and calls it makes, in the order it makes
them, each call with what ran inside it. A trace lists its calls in the order they were entered
and its entries in the order they were logged, each with the call that was running. Over
arbitrary calls and entries: when each call of some kind makes just one mark of a kind nothing
else makes, the marks are in the order of the calls.
-/

namespace CallTraces

universe u v w

/-- What runs inside a call. -/
inductive Trace (ι : Type u) (ε : Type v) where
  | nothing
  | logs (entry : ε) (rest : Trace ι ε)
  | calls (call : ι) (body rest : Trace ι ε)

namespace Trace

variable {ι : Type u} {ε : Type v} {κ : Type w}

def entered : Trace ι ε → List ι
  | nothing => []
  | logs _ rest => rest.entered
  | calls call body rest => call :: (body.entered ++ rest.entered)

/-- What is logged outside the calls made. -/
def own : Trace ι ε → List ε
  | nothing => []
  | logs entry rest => entry :: rest.own
  | calls _ _ rest => rest.own

def marks (mark : ι → ε → Option κ) (running : Option ι) : Trace ι ε → List (ι × κ)
  | nothing => []
  | logs entry rest =>
    (running.bind fun call => (mark call entry).map fun k => (call, k)).toList ++
      rest.marks mark running
  | calls call body rest => body.marks mark (some call) ++ rest.marks mark running

/-- Every call of the trace satisfies `P` of itself and of what ran inside it. -/
def Each (P : ι → Trace ι ε → Prop) : Trace ι ε → Prop
  | nothing => True
  | logs _ rest => rest.Each P
  | calls call body rest => P call body ∧ body.Each P ∧ rest.Each P

theorem Each.mono {P Q : ι → Trace ι ε → Prop} {t : Trace ι ε} (h : t.Each P)
    (himp : ∀ call body, P call body → Q call body) : t.Each Q := by
  induction t with
  | nothing => trivial
  | logs entry rest ih => exact ih h
  | calls call body rest ihbody ihrest => exact ⟨himp call body h.1, ihbody h.2.1, ihrest h.2.2⟩

theorem Each.of_mem_entered {P : ι → Trace ι ε → Prop} {t : Trace ι ε} (h : t.Each P) {call : ι}
    (hmem : call ∈ t.entered) : ∃ body, P call body := by
  induction t with
  | nothing => cases hmem
  | logs entry rest ih => exact ih h hmem
  | calls other body rest ihbody ihrest =>
    rcases h with ⟨hother, hbody, hrest⟩
    rcases List.mem_cons.mp hmem with rfl | hmem
    · exact ⟨body, hother⟩
    · rcases List.mem_append.mp hmem with hmem | hmem
      · exact ihbody hbody hmem
      · exact ihrest hrest hmem

/-- A mark was logged by a call of the trace or outside the calls made, by the running one. -/
theorem mem_marks {P : ι → Trace ι ε → Prop} {mark : ι → ε → Option κ} {running : Option ι}
    {t : Trace ι ε} (h : t.Each P) {call : ι} {k : κ} (hmem : (call, k) ∈ t.marks mark running) :
    (∃ body, P call body ∧ ∃ entry ∈ body.own, mark call entry = some k) ∨
      (running = some call ∧ ∃ entry ∈ t.own, mark call entry = some k) := by
  induction t generalizing running with
  | nothing => cases hmem
  | logs entry rest ih =>
    rcases List.mem_append.mp hmem with hmem | hmem
    · rcases Option.bind_eq_some_iff.mp (Option.mem_toList.mp hmem) with ⟨other, hrunning, hentry⟩
      rcases Option.map_eq_some_iff.mp hentry with ⟨k', hk', hpair⟩
      cases hpair
      exact .inr ⟨hrunning, entry, List.mem_cons_self .., hk'⟩
    · rcases ih h hmem with hcall | ⟨hrunning, later, hlater, hk⟩
      · exact .inl hcall
      · exact .inr ⟨hrunning, later, List.mem_cons_of_mem _ hlater, hk⟩
  | calls inner body rest ihbody ihrest =>
    rcases h with ⟨hinner, hbody, hrest⟩
    rcases List.mem_append.mp hmem with hmem | hmem
    · rcases ihbody hbody hmem with hcall | ⟨hrunning, hlogged⟩
      · exact .inl hcall
      · cases hrunning
        exact .inl ⟨body, hinner, hlogged⟩
    · exact ihrest hrest hmem

/-- Marking fewer of the marks is leaving out the others. -/
theorem marks_filter {mark : ι → ε → Option κ} {running : Option ι} {t : Trace ι ε} (p : κ → Bool) :
    t.marks (fun call entry => (mark call entry).filter p) running =
      (t.marks mark running).filter fun marked => p marked.2 := by
  induction t generalizing running with
  | nothing => rfl
  | logs entry rest ih =>
    unfold marks
    rw [List.filter_append, ih]
    congr 1
    cases running with
    | none => rfl
    | some call =>
      rw [Option.bind_some, Option.bind_some]
      cases mark call entry with
      | none => rfl
      | some k =>
        by_cases hk : p k = true
        · simp [hk]
        · simp [hk]
  | calls call body rest ihbody ihrest =>
    unfold marks
    rw [List.filter_append, ihbody, ihrest]

theorem marks_eq_nil {mark : ι → ε → Option κ} {running : Option ι} {t : Trace ι ε}
    (hown : ∀ call, running = some call → ∀ entry ∈ t.own, mark call entry = none)
    (hcalls : ∀ call ∈ t.entered, ∀ entry, mark call entry = none) :
    t.marks mark running = [] := by
  induction t generalizing running with
  | nothing => rfl
  | logs entry rest ih =>
    have hrest := @ih running
      (fun call hrunning later hlater => hown call hrunning later (List.mem_cons_of_mem _ hlater))
      hcalls
    unfold marks
    rw [hrest, List.append_nil]
    cases running with
    | none => rfl
    | some call =>
      rw [Option.bind_some, hown call rfl entry (List.mem_cons_self ..)]
      rfl
  | calls call body rest ihbody ihrest =>
    have hbody : body.marks mark (some call) = [] := by
      apply ihbody
      · intro inner hinner entry _
        cases hinner
        exact hcalls _ (List.mem_cons_self ..) entry
      · intro inner hinner
        exact hcalls inner (List.mem_cons_of_mem _ (List.mem_append_left _ hinner))
    have hrest : rest.marks mark running = [] := by
      apply ihrest hown
      intro later hlater
      exact hcalls later (List.mem_cons_of_mem _ (List.mem_append_right _ hlater))
    unfold marks
    rw [hbody, hrest]
    rfl

/-- Outside the calls made, the marks are those of the running call's own entries. -/
theorem marks_of_own {mark : ι → ε → Option κ} {call : ι} {t : Trace ι ε}
    (hcalls : ∀ inner ∈ t.entered, ∀ entry, mark inner entry = none) :
    t.marks mark (some call) = (t.own.filterMap (mark call)).map fun k => (call, k) := by
  induction t with
  | nothing => rfl
  | logs entry rest ih =>
    unfold marks own
    rw [ih hcalls, Option.bind_some]
    cases hmark : mark call entry with
    | none => rw [List.filterMap_cons_none hmark]; rfl
    | some k => rw [List.filterMap_cons_some hmark]; rfl
  | calls inner body rest ihbody ihrest =>
    have hbody : body.marks mark (some inner) = [] := by
      apply marks_eq_nil
      · intro other hother entry _
        cases hother
        exact hcalls _ (List.mem_cons_self ..) entry
      · intro deeper hdeeper
        exact hcalls deeper (List.mem_cons_of_mem _ (List.mem_append_left _ hdeeper))
    unfold marks own
    rw [hbody, List.nil_append]
    apply ihrest
    intro later hlater
    exact hcalls later (List.mem_cons_of_mem _ (List.mem_append_right _ hlater))

/-- A call that marks makes one mark and runs none that marks; any other makes none itself. -/
def MarksOnce (mark : ι → ε → Option κ) (marking : ι → Bool) (call : ι) (body : Trace ι ε) : Prop :=
  if marking call then
    (body.own.filterMap (mark call)).length = 1 ∧ ∀ inner ∈ body.entered,
      marking inner = false ∧ ∀ entry, mark inner entry = none
  else ∀ entry ∈ body.own, mark call entry = none

theorem marks_in_order {mark : ι → ε → Option κ} {marking : ι → Bool} {running : Option ι}
    {t : Trace ι ε} (hown : ∀ call, running = some call → ∀ entry ∈ t.own, mark call entry = none)
    (h : t.Each (MarksOnce mark marking)) :
    (t.marks mark running).map Prod.fst = t.entered.filter marking := by
  induction t generalizing running with
  | nothing => rfl
  | logs entry rest ih =>
    have hrest := @ih running
      (fun call hrunning later hlater => hown call hrunning later (List.mem_cons_of_mem _ hlater)) h
    unfold marks entered
    rw [List.map_append, hrest]
    cases running with
    | none => rfl
    | some call =>
      rw [Option.bind_some, hown call rfl entry (List.mem_cons_self ..)]
      rfl
  | calls call body rest ihbody ihrest =>
    rcases h with ⟨honce, hbody, hrest⟩
    have hlater := ihrest hown hrest
    unfold marks entered
    rw [List.map_append, hlater, List.filter_cons, List.filter_append]
    unfold MarksOnce at honce
    by_cases hmarking : marking call = true
    · rw [if_pos hmarking] at honce ⊢
      rcases honce with ⟨hlength, hnested⟩
      have hinner : body.entered.filter marking = [] := by
        apply List.filter_eq_nil_iff.mpr
        intro inner hinner
        rw [(hnested inner hinner).1]
        exact Bool.false_ne_true
      rcases List.length_eq_one_iff.mp hlength with ⟨k, hk⟩
      rw [marks_of_own (fun inner hmem => (hnested inner hmem).2), hk, hinner]
      rfl
    · rw [if_neg hmarking] at honce ⊢
      rw [ihbody (fun other hother => by cases hother; exact honce) hbody]

end Trace

end CallTraces
