import Mathlib.Data.List.Count
import Mathlib.Data.List.Dedup

/-!
# A log of attempts with a final word for each key

Entries are listed the latest first. Each belongs to a key and either is an attempt or the key's
final word. A log says at most one final word for each key when one is only added where there is
none. Closing a log adds a final word for each key of a kind that has attempts alone.
-/

namespace FinalWords

universe u v

variable {α : Type u} {κ : Type v} {key : α → κ} {final : α → Bool} {entries : List α} {e : α} {k : κ}

def Decided (key : α → κ) (final : α → Bool) (entries : List α) (k : κ) : Prop :=
  ∃ e ∈ entries, key e = k ∧ final e = true

theorem decided_cons : Decided key final (e :: entries) k ↔
    key e = k ∧ final e = true ∨ Decided key final entries k := by
  simp [Decided]

theorem Decided.append_left {newer : List α} (h : Decided key final entries k) :
    Decided key final (newer ++ entries) k := by
  rcases h with ⟨e, he, hword⟩
  exact ⟨e, List.mem_append_right newer he, hword⟩

variable [DecidableEq κ]

instance : Decidable (Decided key final entries k) :=
  inferInstanceAs (Decidable (∃ e ∈ entries, key e = k ∧ final e = true))

def words (key : α → κ) (final : α → Bool) (entries : List α) (k : κ) : ℕ :=
  entries.countP fun e => key e = k && final e

def attempts (key : α → κ) (final : α → Bool) (entries : List α) (k : κ) : ℕ :=
  entries.countP fun e => key e = k && !final e

def Once (key : α → κ) (final : α → Bool) (entries : List α) : Prop :=
  ∀ k, words key final entries k ≤ 1

theorem decided_iff_words : Decided key final entries k ↔ 0 < words key final entries k := by
  simp [Decided, words, List.countP_pos_iff]

theorem words_cons : words key final (e :: entries) k =
    words key final entries k + if key e = k ∧ final e = true then 1 else 0 := by
  simp [words, List.countP_cons]

theorem attempts_cons : attempts key final (e :: entries) k =
    attempts key final entries k + if key e = k ∧ final e = false then 1 else 0 := by
  simp [attempts, List.countP_cons]

theorem attempts_pos (h : e ∈ entries) (hkey : key e = k) (hattempt : final e = false) :
    0 < attempts key final entries k := by
  have hmem : ∃ e ∈ entries, (key e = k && !final e) = true := ⟨e, h, by simp [hkey, hattempt]⟩
  exact List.countP_pos_iff.mpr hmem

/-- An entry keeps the words single unless it is the second final word of its key. -/
theorem Once.cons (h : Once key final entries)
    (hnew : final e = true → ¬Decided key final entries (key e)) : Once key final (e :: entries) := by
  intro k
  rw [words_cons]
  split
  · rename_i hword
    have hnone := hnew hword.2
    rw [decided_iff_words, hword.1] at hnone
    omega
  · exact h k

def unclosed (key : α → κ) (final : α → Bool) (kind : κ → Bool) (entries : List α) : List κ :=
  (entries.map key).dedup.filter fun k => kind k && !decide (Decided key final entries k)

def close (key : α → κ) (final : α → Bool) (kind : κ → Bool) (word : List α → κ → α)
    (entries : List α) : List α :=
  (unclosed key final kind entries).map (word entries) ++ entries

section

variable {kind : κ → Bool} {word : List α → κ → α}

theorem mem_unclosed : k ∈ unclosed key final kind entries ↔
    (∃ e ∈ entries, key e = k) ∧ kind k = true ∧ ¬Decided key final entries k := by
  simp [unclosed]

theorem mem_close : e ∈ close key final kind word entries ↔
    (∃ k ∈ unclosed key final kind entries, word entries k = e) ∨ e ∈ entries := by
  simp [close]

theorem decided_close (hkey : ∀ k, key (word entries k) = k) (hfinal : ∀ k, final (word entries k) = true)
    (hkind : kind k = true) (h : ∃ e ∈ entries, key e = k) :
    Decided key final (close key final kind word entries) k := by
  by_cases hdecided : Decided key final entries k
  · exact hdecided.append_left
  · have hmem : k ∈ unclosed key final kind entries := mem_unclosed.mpr ⟨h, hkind, hdecided⟩
    exact ⟨word entries k, mem_close.mpr (.inl ⟨k, hmem, rfl⟩), hkey k, hfinal k⟩

theorem attempts_close (hfinal : ∀ k, final (word entries k) = true) :
    attempts key final (close key final kind word entries) k = attempts key final entries k := by
  have hnone : ((unclosed key final kind entries).map (word entries)).countP
      (fun e => key e = k && !final e) = 0 := by
    rw [List.countP_eq_zero]
    intro e he
    rcases List.mem_map.mp he with ⟨other, _, rfl⟩
    simp [hfinal]
  rw [attempts, close, List.countP_append, hnone, Nat.zero_add]
  rfl

/-- Closing keeps the words single. -/
theorem Once.close (h : Once key final entries) (hkey : ∀ k, key (word entries k) = k) :
    Once key final (FinalWords.close key final kind word entries) := by
  intro k
  have hsplit : words key final (FinalWords.close key final kind word entries) k =
      ((unclosed key final kind entries).map (word entries)).countP
        (fun e => key e = k && final e) + words key final entries k :=
    List.countP_append
  have hat : ((unclosed key final kind entries).map (word entries)).countP
      (fun e => key e = k && final e) ≤ (unclosed key final kind entries).count k := by
    rw [List.countP_map, List.count]
    apply List.countP_mono_left
    intro other _ hother
    simp only [Function.comp_apply, hkey, Bool.and_eq_true, decide_eq_true_eq] at hother
    simp [hother.1]
  have hnodup : (unclosed key final kind entries).Nodup := (List.nodup_dedup _).filter _
  by_cases hmem : k ∈ unclosed key final kind entries
  · have hnone := (mem_unclosed.mp hmem).2.2
    rw [decided_iff_words] at hnone
    have hone := List.nodup_iff_count_le_one.mp hnodup k
    omega
  · rw [List.count_eq_zero_of_not_mem hmem] at hat
    have hone := h k
    omega

end

end FinalWords
