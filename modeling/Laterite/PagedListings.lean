import Mathlib.Data.List.Nodup
import Mathlib.Data.List.TakeWhile

/-!
# Paging through a newest-first listing

A page lists what is older than `before` down to but excluding `until`, at most `limit`
entries. Paging asks for the next page after the last entry of a full one, and may stop early
after an entry. The listing can grow at its head between two requests.
-/

namespace PagedListings

universe u v

variable {α : Type u} {κ : Type v} [DecidableEq κ] (key : α → κ)

def olderThan : Option κ → List α → List α
  | none, listing => listing
  | some k, listing => (listing.dropWhile (key · ≠ k)).tail

def newerThan : Option κ → List α → List α
  | none, listing => listing
  | some k, listing => listing.takeWhile (key · ≠ k)

def page (before endAt : Option κ) (limit : ℕ) (listing : List α) : List α :=
  (newerThan key endAt (olderThan key before listing)).take limit

/-- The pages in order, `listing n` as the `n`-th request finds it. -/
def collect (listing : ℕ → List α) (endAt : Option κ) (limit : ℕ) (stop : α → Bool) :
    (fuel n : ℕ) → (before : Option κ) → List α
  | 0, _, _ => []
  | fuel + 1, n, before =>
    let found := page key before endAt limit (listing n)
    match found.getLast? with
    | none => []
    | some last =>
      if found.length < limit ∨ stop last then found
      else found ++ collect listing endAt limit stop fuel (n + 1) (some (key last))

variable {key} {listing : ℕ → List α} {endAt : Option κ} {limit : ℕ} {stop : α → Bool}

theorem olderThan_suffix (before : Option κ) (entries : List α) :
    olderThan key before entries <:+ entries := by
  cases before with
  | none => exact List.suffix_refl _
  | some k => exact (List.tail_suffix _).trans (List.dropWhile_suffix _)

theorem newerThan_isPrefix (entries : List α) : newerThan key endAt entries <+: entries := by
  cases endAt with
  | none => exact List.prefix_refl _
  | some k => exact List.takeWhile_prefix _

theorem olderThan_append {newer older : List α} {a : α}
    (h : ((newer ++ a :: older).map key).Nodup) :
    olderThan key (some (key a)) (newer ++ a :: older) = older := by
  have hdrop : newer.dropWhile (key · ≠ key a) = [] := by
    rw [List.dropWhile_eq_nil_iff]
    intro b hb
    rw [List.map_append, List.nodup_append] at h
    have hne := h.2.2 (key b) (List.mem_map_of_mem hb) (key a) (by simp)
    exact decide_eq_true hne
  rw [olderThan, List.dropWhile_append, hdrop]
  simp

theorem newerThan_eq {newer older : List α} {a : α} (h : ((newer ++ a :: older).map key).Nodup) :
    newerThan key (some (key a)) (newer ++ a :: older) = newer := by
  have hnewer : ∀ b ∈ newer, decide (key b ≠ key a) = true := by
    intro b hb
    rw [List.map_append, List.nodup_append] at h
    exact decide_eq_true (h.2.2 (key b) (List.mem_map_of_mem hb) (key a) (by simp))
  rw [newerThan, List.takeWhile_append_of_pos hnewer, List.takeWhile_cons_of_neg (by simp),
    List.append_nil]

/-- What is newer than the end among the entries after a first part that is. -/
theorem newerThan_append {newer older rest : List α}
    (h : newerThan key endAt (newer ++ older) = newer ++ rest) :
    newerThan key endAt older = rest := by
  cases endAt with
  | none => exact List.append_cancel_left h
  | some k =>
    have hnewer : ∀ b ∈ newer, decide (key b ≠ k) = true := by
      intro b hb
      have hmem : b ∈ newerThan key (some k) (newer ++ older) := by
        rw [h]
        exact List.mem_append_left _ hb
      exact @List.mem_takeWhile_imp _ (fun a => decide (key a ≠ k)) _ _ hmem
    rw [newerThan, List.takeWhile_append_of_pos hnewer] at h
    exact List.append_cancel_left h

section Paging

variable (hgrows : ∀ i, ∃ newer, listing (i + 1) = newer ++ listing i)
  (hkeys : ∀ i, ((listing i).map key).Nodup)

include hgrows hkeys

/-- After a page that ends in `a`, the next request starts from what the page left. -/
theorem rest_after {n : ℕ} {before : Option κ} {found left : List α} {a : α}
    (h : newerThan key endAt (olderThan key before (listing n)) = (found ++ [a]) ++ left) :
    newerThan key endAt (olderThan key (some (key a)) (listing (n + 1))) = left := by
  obtain ⟨newest, hnewest⟩ := hgrows n
  obtain ⟨newer, hnewer⟩ := @olderThan_suffix _ _ _ key before (listing n)
  obtain ⟨oldest, holdest⟩ := @newerThan_isPrefix _ _ _ key endAt (olderThan key before (listing n))
  rw [h] at holdest
  have hsplit : listing (n + 1) = (newest ++ newer ++ found) ++ a :: (left ++ oldest) := by
    rw [hnewest, ← hnewer, ← holdest]
    simp only [List.append_assoc, List.cons_append, List.nil_append]
  have hnodup := hkeys (n + 1)
  rw [hsplit] at hnodup ⊢
  rw [olderThan_append hnodup]
  have hwindow : newerThan key endAt ((found ++ [a]) ++ (left ++ oldest)) = (found ++ [a]) ++ left := by
    rw [← List.append_assoc, holdest, h]
  exact newerThan_append hwindow

theorem collect_from (hlimit : 0 < limit) {fuel n : ℕ} {before : Option κ} {rest : List α}
    (h : newerThan key endAt (olderThan key before (listing n)) = rest) (hfuel : rest.length < fuel) :
    ∃ left, rest = collect key listing endAt limit stop fuel n before ++ left ∧
      (left ≠ [] → ∃ a ∈ (collect key listing endAt limit stop fuel n before).getLast?,
        stop a = true) := by
  induction fuel generalizing n before rest with
  | zero => cases hfuel
  | succ fuel ih =>
    have hpage : page key before endAt limit (listing n) = rest.take limit := congrArg _ h
    have htaken : rest = rest.take limit ++ rest.drop limit := (List.take_append_drop _ _).symm
    rw [collect, hpage]
    rcases List.eq_nil_or_concat (rest.take limit) with hnone | ⟨found, a, hfound⟩
    · rw [hnone]
      have hempty : rest = [] := by
        rw [List.take_eq_nil_iff] at hnone
        exact hnone.resolve_left (Nat.ne_of_gt hlimit)
      exact ⟨[], by rw [hempty]; rfl, fun hne => absurd rfl hne⟩
    rw [List.concat_eq_append] at hfound
    rw [hfound, List.getLast?_concat]
    dsimp only
    by_cases hlast : (found ++ [a]).length < limit ∨ stop a = true
    · rw [if_pos hlast, ← hfound]
      refine ⟨rest.drop limit, htaken, fun hleft => ?_⟩
      rcases hlast with hshort | hstop
      · rw [← hfound, List.length_take] at hshort
        have hnone : rest.drop limit = [] := List.drop_eq_nil_of_le (by omega)
        exact absurd hnone hleft
      · rw [hfound, List.getLast?_concat]
        exact ⟨a, rfl, hstop⟩
    · rw [if_neg hlast]
      have hnext := rest_after hgrows hkeys (h.trans (hfound ▸ htaken))
      have hshorter : (rest.drop limit).length < fuel := by
        rw [List.length_drop]
        have hsome : 0 < rest.length := by
          have hlength := congrArg List.length hfound
          rw [List.length_take, List.length_append, List.length_singleton] at hlength
          omega
        omega
      rcases ih hnext hshorter with ⟨left, hleft, hstop⟩
      refine ⟨left, ?_, fun hne => ?_⟩
      · rw [List.append_assoc, ← hleft, ← hfound]
        exact htaken
      · obtain ⟨b, hb, hstops⟩ := hstop hne
        refine ⟨b, ?_, hstops⟩
        rw [List.getLast?_append, hb]
        rfl

/-- Paging from the head lists what is newer than the end, or a first part of it that ends in an
entry it stops after. -/
theorem collect_eq (hlimit : 0 < limit) {fuel : ℕ} (hfuel : (listing 0).length < fuel) :
    ∃ left, newerThan key endAt (listing 0) =
        collect key listing endAt limit stop fuel 0 none ++ left ∧
      (left ≠ [] → ∃ a ∈ (collect key listing endAt limit stop fuel 0 none).getLast?,
        stop a = true) := by
  have hstart : newerThan key endAt (olderThan key none (listing 0)) =
      newerThan key endAt (listing 0) := rfl
  apply collect_from hgrows hkeys hlimit hstart
  have hlength := (@newerThan_isPrefix _ _ _ key endAt (listing 0)).length_le
  exact Nat.lt_of_le_of_lt hlength hfuel

end Paging

end PagedListings
