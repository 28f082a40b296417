import Mathlib.Data.List.Nodup

/-!
# Keyed tables and changes stored in batches

A table is a list of rows told apart by a key. An insertion skips the rows whose key is
there. A history of changes enters rows and marks the rows it finds; a batch enters all its
rows before it applies its marks, which comes to the same when no mark would have changed a
row entered after it.
-/

namespace KeyedTables

universe u v w

variable {α : Type u} {β : Type v} {κ : Type w}

/-- Insert the rows in order, each unless its key is there. -/
def insertMissing [DecidableEq κ] (key : α → κ) : List α → List α → List α
  | [], table => table
  | row :: rows, table =>
    insertMissing key rows (if key row ∈ table.map key then table else table ++ [row])

section Insertion

variable [DecidableEq κ] {key : α → κ} {rows table : List α}

/-- Rows with new keys, told apart among themselves, go to the end. -/
theorem insertMissing_of_fresh (h : ((table ++ rows).map key).Nodup) :
    insertMissing key rows table = table ++ rows := by
  induction rows generalizing table with
  | nil => rw [insertMissing, List.append_nil]
  | cons row rows ih =>
    have hsplit : table ++ row :: rows = (table ++ [row]) ++ rows := by
      rw [List.append_assoc, List.singleton_append]
    have hfresh : key row ∉ table.map key := by
      rw [List.map_append, List.map_cons, List.nodup_append] at h
      intro hmem
      exact h.2.2 _ hmem _ List.mem_cons_self rfl
    rw [hsplit] at h
    rw [insertMissing, if_neg hfresh, ih h, hsplit]

theorem insertMissing_of_present (h : ∀ row ∈ rows, key row ∈ table.map key) :
    insertMissing key rows table = table := by
  induction rows with
  | nil => rfl
  | cons row rows ih =>
    rw [insertMissing, if_pos (h row List.mem_cons_self)]
    exact ih fun other hother => h other (List.mem_cons_of_mem _ hother)

end Insertion

/-- One change of a table. -/
inductive Change (α : Type u) (β : Type v) where
  | enter (row : α)
  | mark (m : β)

namespace Change

def entered : Change α β → Option α
  | .enter row => some row
  | .mark _ => none

def marked : Change α β → Option β
  | .enter _ => none
  | .mark m => some m

variable (act : β → α → α)

def apply (table : List α) : Change α β → List α
  | .enter row => table ++ [row]
  | .mark m => table.map (act m)

def replay (changes : List (Change α β)) (table : List α) : List α :=
  changes.foldl (apply act) table

/-- A mark after which no row is entered that it would have changed. -/
def Keeps (earlier later : Change α β) : Prop :=
  ∀ m row, earlier = .mark m → later = .enter row → act m row = row

variable {act} {changes changes' : List (Change α β)} {table : List α}

@[simp] theorem replay_nil : replay act ([] : List (Change α β)) table = table := rfl

@[simp] theorem replay_enter {row : α} :
    replay act (.enter row :: changes) table = replay act changes (table ++ [row]) := rfl

@[simp] theorem replay_mark {m : β} :
    replay act (.mark m :: changes) table = replay act changes (table.map (act m)) := rfl

theorem replay_append :
    replay act (changes ++ changes') table = replay act changes' (replay act changes table) :=
  List.foldl_append

theorem replay_eq_batched (h : changes.Pairwise (Keeps act)) :
    replay act changes table =
      (changes.filterMap marked).foldl (fun rows m => rows.map (act m))
        (table ++ changes.filterMap entered) := by
  induction changes generalizing table with
  | nil => exact (List.append_nil table).symm
  | cons change changes ih =>
    rw [List.pairwise_cons] at h
    have hrest := h.2
    cases change with
    | enter row =>
      have hmarked : (enter row :: changes : List (Change α β)).filterMap marked =
          changes.filterMap marked := rfl
      have hentered : (enter row :: changes : List (Change α β)).filterMap entered =
          row :: changes.filterMap entered := rfl
      rw [replay_enter, ih hrest, hmarked, hentered, List.append_assoc, List.singleton_append]
    | mark m =>
      have hmarked : (mark m :: changes : List (Change α β)).filterMap marked =
          m :: changes.filterMap marked := rfl
      have hentered : (mark m :: changes : List (Change α β)).filterMap entered =
          changes.filterMap entered := rfl
      have hkept : (changes.filterMap entered).map (act m) = changes.filterMap entered := by
        apply (List.map_congr_left ?_).trans (List.map_id _)
        intro row hrow
        obtain ⟨later, hlater, hrow⟩ := List.mem_filterMap.mp hrow
        cases later with
        | enter other =>
          cases hrow
          exact h.1 _ hlater m row rfl rfl
        | mark m' => cases hrow
      rw [replay_mark, ih hrest, hmarked, hentered, List.foldl_cons, List.map_append, hkept]

theorem map_replay {key : α → κ} (hact : ∀ m row, key (act m row) = key row) :
    (replay act changes table).map key = table.map key ++ (changes.filterMap entered).map key := by
  induction changes generalizing table with
  | nil => exact (List.append_nil _).symm
  | cons change changes ih =>
    cases change with
    | enter row =>
      have hentered : (enter row :: changes : List (Change α β)).filterMap entered =
          row :: changes.filterMap entered := rfl
      rw [replay_enter, ih, hentered, List.map_append, List.append_assoc]
      rfl
    | mark m =>
      have hentered : (mark m :: changes : List (Change α β)).filterMap entered =
          changes.filterMap entered := rfl
      have hkeys : (table.map (act m)).map key = table.map key := by
        rw [List.map_map]
        exact List.map_congr_left fun row _ => hact m row
      rw [replay_mark, ih, hentered, hkeys]

end Change

end KeyedTables
