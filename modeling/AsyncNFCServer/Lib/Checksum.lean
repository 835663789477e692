import Mathlib.Algebra.BigOperators.Group.List.Basic

/-!
# Additive check values

A list over a commutative group is balanced if its sum is zero.  Appending the
negated sum balances a list, there is one such value, and a change of a single
entry is always noticed.
-/

namespace Checksum

variable {α : Type*} [AddCommGroup α]

/-- The entries cancel. -/
def ZeroSum (xs : List α) : Prop := xs.sum = 0

instance [DecidableEq α] (xs : List α) : Decidable (ZeroSum xs) :=
  inferInstanceAs (Decidable (xs.sum = 0))

/-- The value that balances a list. -/
def check (xs : List α) : α := -xs.sum

variable {xs : List α}

theorem zeroSum_concat_iff {c : α} : ZeroSum (xs ++ [c]) ↔ c = check xs := by
  rw [ZeroSum, List.sum_append, List.sum_singleton, check, eq_neg_iff_add_eq_zero, add_comm]

theorem zeroSum_concat_check (xs : List α) : ZeroSum (xs ++ [check xs]) :=
  zeroSum_concat_iff.mpr rfl

theorem zeroSum_pair_iff {a c : α} : ZeroSum [a, c] ↔ c = -a := by
  have h : ZeroSum ([a] ++ [c]) ↔ c = check [a] := zeroSum_concat_iff
  simpa [check] using h

/-- A single changed entry unbalances a list. -/
theorem ZeroSum.not_set (h : ZeroSum xs) {i : Nat} (hi : i < xs.length) {y : α}
    (hy : y ≠ xs[i]) : ¬ ZeroSum (xs.set i y) := by
  intro hset
  rw [ZeroSum] at h hset
  rw [List.sum_set', h, dif_pos hi, zero_add, neg_add_eq_zero] at hset
  exact hy hset.symm

end Checksum
