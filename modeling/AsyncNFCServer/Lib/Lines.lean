import Mathlib.Data.List.Basic

/-!
# Delimited pieces of a list

`lines d xs` is the list of the pieces of `xs` that a delimiter `d` ends, in
order and without the delimiter.  What follows the last delimiter is not a piece.
-/

namespace Lines

variable {α : Type*} [DecidableEq α]

/-- The pieces of a list that the delimiter ends. -/
def lines (d : α) : List α → List (List α)
  | [] => []
  | x :: xs => if x = d then [] :: lines d xs else (lines d xs).modifyHead (x :: ·)

variable {d : α}

@[simp] theorem lines_cons_self (xs : List α) : lines d (d :: xs) = [] :: lines d xs := by
  simp [lines]

/-- What comes before the first delimiter belongs to the first piece. -/
theorem lines_append {l : List α} (hl : d ∉ l) (xs : List α) :
    lines d (l ++ xs) = (lines d xs).modifyHead (l ++ ·) := by
  induction l with
  | nil =>
      rw [List.nil_append]
      cases lines d xs <;> rfl
  | cons x l ih =>
      rw [List.mem_cons, not_or] at hl
      obtain ⟨hx, hl⟩ := hl
      rw [List.cons_append, lines, if_neg (Ne.symm hx), ih hl, List.modifyHead_modifyHead]
      rfl

/-- A piece and its delimiter come off at the front. -/
theorem lines_append_cons {l : List α} (hl : d ∉ l) (xs : List α) :
    lines d (l ++ d :: xs) = l :: lines d xs := by
  simp [lines_append hl]

/-- There are as many pieces as delimiters. -/
theorem length_lines (xs : List α) : (lines d xs).length = xs.count d := by
  induction xs with
  | nil => rfl
  | cons x xs ih =>
      rw [lines]
      split_ifs with hx
      · simp [hx, ih]
      · simp [ih, List.count_cons_of_ne hx]

theorem lines_of_notMem {xs : List α} (h : d ∉ xs) : lines d xs = [] := by
  rw [← List.length_eq_zero_iff, length_lines, List.count_eq_zero_of_not_mem h]

/-- A list with a delimiter splits at the first one. -/
theorem exists_first_of_mem {xs : List α} (h : d ∈ xs) :
    ∃ l r, xs = l ++ d :: r ∧ d ∉ l := by
  induction xs with
  | nil => exact absurd h (by simp)
  | cons x xs ih =>
      by_cases hx : x = d
      · exact ⟨[], xs, by rw [hx, List.nil_append], by simp⟩
      · obtain ⟨l, r, rfl, hl⟩ := ih (List.mem_of_ne_of_mem (Ne.symm hx) h)
        exact ⟨x :: l, r, rfl, by simp [hl, Ne.symm hx]⟩

end Lines
