import Mathlib.Data.List.TakeWhile
/-! Lists: their runs, which are the longest fronts of one kind of elements, and entries that are found by their keys. -/
namespace LiveMarkup

variable {α : Type} {p : α → Bool} {a b rest more : List α}

theorem runTaken (all : ∀ x ∈ a, p x) (ends : ∀ x ∈ rest.head?, p x = false) : (a ++ rest).takeWhile p = a := by
  rw [List.takeWhile_append_of_pos all]
  cases rest with
  | nil => simp
  | cons x rest => simp [ends x rfl]

theorem runDropped (all : ∀ x ∈ a, p x) (ends : ∀ x ∈ rest.head?, p x = false) : (a ++ rest).dropWhile p = rest := by
  rw [List.dropWhile_append_of_pos all]
  cases rest with
  | nil => rfl
  | cons x rest => simp [ends x rfl]

theorem runSplit {l : List α} (h : l.dropWhile p = rest) : ∃ a, (∀ x ∈ a, p x) ∧ l = a ++ rest :=
  ⟨l.takeWhile p, fun _ mem => List.mem_takeWhile_imp mem, by rw [← h, List.takeWhile_append_dropWhile]⟩

theorem runUnique (same : a ++ rest = b ++ more) (first : ∀ x ∈ a, p x) (second : ∀ x ∈ b, p x)
    (ends : ∀ x ∈ rest.head?, p x = false) (ends' : ∀ x ∈ more.head?, p x = false) : a = b ∧ rest = more :=
  ⟨by rw [← runTaken first ends, same, runTaken second ends'],
    by rw [← runDropped first ends, same, runDropped second ends']⟩

theorem foundOnce [DecidableEq α] {β : Type} {entries : List (α × β)} {entry : α × β} (nodup : (entries.map (·.1)).Nodup)
    (mem : entry ∈ entries) : entries.find? (·.1 == entry.1) = some entry := by
  induction entries with
  | nil => exact absurd mem List.not_mem_nil
  | cons first rest ih =>
    obtain ⟨new, nodup⟩ := List.nodup_cons.mp nodup
    rcases List.mem_cons.mp mem with rfl | mem
    · exact List.find?_cons_of_pos (beq_self_eq_true _)
    · have other : first.1 ≠ entry.1 := by
        intro same
        refine new (List.mem_map.mpr ⟨entry, mem, same.symm⟩)
      rw [List.find?_cons_of_neg (by simpa using other)]
      exact ih nodup mem

end LiveMarkup
