import Mathlib.Algebra.BigOperators.Field
import Mathlib.Algebra.Order.BigOperators.Ring.Finset
import Mathlib.Algebra.Order.Field.Basic
import Mathlib.Order.WithBot
import Mathlib.Tactic.Ring

/-!
# Softmax in one pass

Weighted averages with weights `exp score`, where every weight is kept relative to a pivot so that
no exponential is large. A pivot may be minus infinity, where the exponential is taken as zero.

* `Exponential`: a positive function that turns sums into products.
* `Accumulator`, `next`: the sums so far relative to a pivot; a term joins and the pivot moves.
* `Sums`: what an accumulator stands for. **`Sums.next`**, **`sums_run`**: whatever the pivots are, it
  stands for the sums over the terms so far.
* **`average_shift`**: weights relative to one pivot give the average.
* **`quotient_run`**: so does one pass.
-/

namespace OnlineSoftmax

variable {K : Type} [Field K] [LinearOrder K]

/-- A positive function that turns sums into products. -/
structure Exponential (K : Type) [Field K] [LinearOrder K] where
  exp : K → K
  exp_pos : ∀ x, 0 < exp x
  exp_add : ∀ x y, exp (x + y) = exp x * exp y

namespace Exponential

variable (e : Exponential K)

/-- The exponential with `exp ⊥ = 0`. -/
def extended : WithBot K → K
  | ⊥ => 0
  | (x : K) => e.exp x

@[simp] theorem extended_bot : e.extended ⊥ = 0 := rfl

@[simp] theorem extended_coe (x : K) : e.extended (x : WithBot K) = e.exp x := rfl

/-- `exp (p - q)`, which is zero at `p = ⊥`. -/
def shift (p : WithBot K) (q : K) : K := e.extended (p.map (· - q))

theorem exp_sub_mul (x q : K) : e.exp (x - q) * e.exp q = e.exp x := by
  rw [← e.exp_add, sub_add_cancel]

theorem shift_mul (p : WithBot K) (q : K) : e.shift p q * e.exp q = e.extended p := by
  cases p with
  | bot => exact zero_mul _
  | coe p => exact e.exp_sub_mul p q

theorem shift_nonneg (p : WithBot K) (q : K) : 0 ≤ e.shift p q := by
  cases p with
  | bot => exact le_rfl
  | coe p => exact (e.exp_pos _).le

end Exponential

variable (e : Exponential K)

/-- Sums of weights and of weighted values, relative to a pivot. -/
structure Accumulator (K : Type) where
  pivot : WithBot K
  denominator : K
  numerator : K

/-- The empty sums. -/
def Accumulator.empty : Accumulator K := ⟨⊥, 0, 0⟩

/-- A term joins, and `q` is the new pivot. -/
def Accumulator.next (a : Accumulator K) (q score value : K) : Accumulator K where
  pivot := q
  denominator := a.denominator * e.shift a.pivot q + e.exp (score - q)
  numerator := a.numerator * e.shift a.pivot q + e.exp (score - q) * value

/-- The accumulator stands for these sums. -/
structure Sums (a : Accumulator K) (weights weighted : K) : Prop where
  denominator : a.denominator * e.extended a.pivot = weights
  numerator : a.numerator * e.extended a.pivot = weighted

variable {e} {a : Accumulator K} {weights weighted : K}

theorem sums_empty : Sums e (Accumulator.empty : Accumulator K) 0 0 :=
  ⟨mul_zero _, mul_zero _⟩

/-- **A term joins the sums**, whatever the new pivot is. -/
theorem Sums.next (h : Sums e a weights weighted) (q score value : K) :
    Sums e (a.next e q score value) (weights + e.exp score) (weighted + e.exp score * value) := by
  constructor
  · calc (a.denominator * e.shift a.pivot q + e.exp (score - q)) * e.exp q
        = a.denominator * (e.shift a.pivot q * e.exp q) + e.exp (score - q) * e.exp q := by ring
      _ = weights + e.exp score := by rw [e.shift_mul, h.denominator, e.exp_sub_mul]
  · calc (a.numerator * e.shift a.pivot q + e.exp (score - q) * value) * e.exp q
        = a.numerator * (e.shift a.pivot q * e.exp q) +
          e.exp (score - q) * e.exp q * value := by ring
      _ = weighted + e.exp score * value := by rw [e.shift_mul, h.numerator, e.exp_sub_mul]

variable (score value : ℕ → K) {n : ℕ}

/-- The average with weights `exp score`. -/
def average (e : Exponential K) (score value : ℕ → K) (n : ℕ) : K :=
  (∑ t ∈ Finset.range n, e.exp (score t) * value t) / ∑ t ∈ Finset.range n, e.exp (score t)

theorem average_congr {score' value' : ℕ → K} (hscore : ∀ t < n, score t = score' t)
    (hvalue : ∀ t < n, value t = value' t) : average e score value n = average e score' value' n := by
  have hweights : ∑ t ∈ Finset.range n, e.exp (score t) = ∑ t ∈ Finset.range n, e.exp (score' t) :=
    Finset.sum_congr rfl fun t ht => by rw [hscore t (Finset.mem_range.mp ht)]
  unfold average
  rw [hweights]
  congr 1
  refine Finset.sum_congr rfl fun t ht => ?_
  rw [hscore t (Finset.mem_range.mp ht), hvalue t (Finset.mem_range.mp ht)]

/-- **The weights relative to any pivot give the same average.** -/
theorem average_shift (q : K) :
    ∑ t ∈ Finset.range n, e.exp (score t - q) / (∑ t ∈ Finset.range n, e.exp (score t - q)) *
      value t = average e score value n := by
  have hweights : (∑ t ∈ Finset.range n, e.exp (score t - q)) * e.exp q =
      ∑ t ∈ Finset.range n, e.exp (score t) := by
    rw [Finset.sum_mul]
    exact Finset.sum_congr rfl fun t _ => e.exp_sub_mul _ _
  have hweighted : (∑ t ∈ Finset.range n, e.exp (score t - q) * value t) * e.exp q =
      ∑ t ∈ Finset.range n, e.exp (score t) * value t := by
    rw [Finset.sum_mul]
    refine Finset.sum_congr rfl fun t _ => ?_
    rw [mul_right_comm, e.exp_sub_mul]
  have hterm : ∀ t ∈ Finset.range n,
      e.exp (score t - q) / (∑ t ∈ Finset.range n, e.exp (score t - q)) * value t =
        e.exp (score t - q) * value t / ∑ t ∈ Finset.range n, e.exp (score t - q) :=
    fun t _ => div_mul_eq_mul_div _ _ _
  rw [Finset.sum_congr rfl hterm, ← Finset.sum_div, average, ← hweights, ← hweighted,
    mul_div_mul_right _ _ (e.exp_pos q).ne']

/-! ## The one-pass average -/

/-- The accumulator after the first `n` terms. -/
def run (e : Exponential K) (pivot : Accumulator K → ℕ → K) (score value : ℕ → K) (n : ℕ) :
    Accumulator K :=
  (List.range n).foldl (fun a t => a.next e (pivot a t) (score t) (value t)) .empty

variable (pivot : Accumulator K → ℕ → K)

theorem run_succ : run e pivot score value (n + 1) =
    (run e pivot score value n).next e (pivot (run e pivot score value n) n) (score n) (value n) := by
  rw [run, List.range_succ, List.foldl_append]
  rfl

/-- **It stands for the sums of these terms**, by induction on `n`. -/
theorem sums_run : Sums e (run e pivot score value n)
    (∑ t ∈ Finset.range n, e.exp (score t)) (∑ t ∈ Finset.range n, e.exp (score t) * value t) := by
  induction n with
  | zero => exact sums_empty
  | succ n ih =>
    rw [run_succ, Finset.sum_range_succ, Finset.sum_range_succ]
    exact ih.next _ _ _

variable [IsStrictOrderedRing K]

/-- The weights relative to a pivot have a positive sum. -/
theorem weights_pos (q : K) (hn : 0 < n) : 0 < ∑ t ∈ Finset.range n, e.exp (score t - q) :=
  Finset.sum_pos (fun _ _ => e.exp_pos _) ⟨0, Finset.mem_range.mpr hn⟩

/-- The denominator is positive after the first term. -/
theorem denominator_pos (hn : 0 < n) : 0 < (run e pivot score value n).denominator := by
  obtain ⟨n, rfl⟩ := Nat.exists_eq_succ_of_ne_zero hn.ne'
  induction n with
  | zero =>
    have hone : (run e pivot score value 1).denominator =
        0 * e.shift ⊥ (pivot .empty 0) + e.exp (score 0 - pivot .empty 0) := rfl
    rw [hone, zero_mul, zero_add]
    exact e.exp_pos _
  | succ n ih =>
    rw [run_succ]
    exact add_pos_of_nonneg_of_pos (mul_nonneg (ih n.succ_pos).le (e.shift_nonneg _ _))
      (e.exp_pos _)

/-- **The one-pass average is the average.** -/
theorem quotient_run (hn : 0 < n) :
    (run e pivot score value n).numerator / (run e pivot score value n).denominator =
      average e score value n := by
  obtain ⟨hdenominator, hnumerator⟩ := sums_run (e := e) (n := n) score value pivot
  have hweights : 0 < ∑ t ∈ Finset.range n, e.exp (score t) := by
    simpa using weights_pos (e := e) score 0 hn
  have hpivot : e.extended (run e pivot score value n).pivot ≠ 0 := by
    intro hzero
    rw [hzero, mul_zero] at hdenominator
    exact hweights.ne hdenominator
  rw [average, ← hdenominator, ← hnumerator, mul_div_mul_right _ _ hpivot]

end OnlineSoftmax
