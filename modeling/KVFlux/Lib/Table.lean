import Mathlib

/-!
# Sums over a table

A table gives every index an entry; the indices below `n` are in use.

* `total n f e`: the sum of `f` over the entries in use.
* **`total_update`**: what a change of one entry does to it; `total_same`, `total_congr`.
* `total_eq_countP`: a total of zeros and ones counts.
-/

namespace Table

open Finset

variable {α M : Type*} [AddCommMonoid M] {n i : ℕ} {f : α → M} {e e' : ℕ → α} {a : α}

/-- The sum of `f` over the entries below `n`. -/
def total (n : ℕ) (f : α → M) (e : ℕ → α) : M := ∑ i ∈ range n, f (e i)

/-- **One entry changes.** -/
theorem total_update (hi : i < n) (a : α) :
    total n f (Function.update e i a) + f (e i) = total n f e + f a := by
  have hmem : i ∈ range n := mem_range.mpr hi
  have hrest : ∑ j ∈ (range n).erase i, f (Function.update e i a j) =
      ∑ j ∈ (range n).erase i, f (e j) := by
    refine sum_congr rfl fun j hj => ?_
    rw [Function.update_of_ne (ne_of_mem_erase hj)]
  unfold total
  rw [← add_sum_erase _ _ hmem, ← add_sum_erase (range n) (fun j => f (e j)) hmem, hrest,
    Function.update_self]
  abel

theorem total_congr (h : ∀ i < n, f (e' i) = f (e i)) : total n f e' = total n f e :=
  sum_congr rfl fun i hi => h i (mem_range.mp hi)

/-- A change that `f` does not see. -/
theorem total_same (h : f a = f (e i)) : total n f (Function.update e i a) = total n f e := by
  refine total_congr fun j _ => ?_
  by_cases hj : j = i
  · rw [hj, Function.update_self, h]
  · rw [Function.update_of_ne hj]

theorem total_zero (h : ∀ i < n, f (e i) = 0) : total n f e = 0 :=
  sum_eq_zero fun i hi => h i (mem_range.mp hi)

/-- Counting the entries with a property. -/
theorem total_eq_countP (n : ℕ) (p : α → Bool) (e : ℕ → α) :
    total n (fun a => if p a = true then 1 else 0) e = (List.range n).countP fun i => p (e i) := by
  unfold total
  induction n with
  | zero => rfl
  | succ n ih =>
    rw [sum_range_succ, ih, List.range_succ, List.countP_append, List.countP_singleton]

end Table
