import Mathlib

/-!
# Row-major indices

A coordinate in an array of shape `rs = [r₁, …, rₖ]` is a list of `k` numbers below the extents. Its
row-major index is found by Horner's rule, the last axis varying fastest.

* `Within rs ds`: the coordinate `ds` lies in the shape `rs`.
* `index a rs ds`: Horner's rule from the accumulator `a`.
* `index_lt`, `index_inj`, `exists_index`: the index lies below the number of cells, tells
  coordinates apart and reaches every cell.
* **`bijOn_index`**: the index numbers the cells; **`bijOn_scaled`**: in units of `u`, their offsets
  are the multiples of `u` below the size.
* `split_last`, `split_quotient`: the last axis and the others by remainder and quotient.
-/

namespace RowMajor

/-- Each coordinate is below its extent. -/
def Within (rs ds : List ℕ) : Prop := List.Forall₂ (· < ·) ds rs

/-- Horner's rule. -/
def index (a : ℕ) : List ℕ → List ℕ → ℕ
  | r :: rs, d :: ds => index (a * r + d) rs ds
  | _, _ => a

theorem index_lt {rs ds : List ℕ} (h : Within rs ds) {a n : ℕ} (ha : a < n) :
    index a rs ds < n * rs.prod := by
  induction h generalizing a n with
  | nil => simpa [index] using ha
  | @cons d r ds rs hd _ ih =>
    have hstep : a * r + d < n * r := by nlinarith
    have := ih hstep
    rwa [mul_assoc, ← List.prod_cons] at this

/-- An intermediate value of Horner's rule is at most the index. -/
theorem le_index {rs ds : List ℕ} (h : Within rs ds) (a : ℕ) : a * rs.prod ≤ index a rs ds := by
  induction h generalizing a with
  | nil => simp [index]
  | @cons d r ds rs hd _ ih =>
    calc a * (r :: rs).prod = a * r * rs.prod := by rw [List.prod_cons, mul_assoc]
      _ ≤ (a * r + d) * rs.prod := Nat.mul_le_mul_right _ (Nat.le_add_right _ _)
      _ ≤ index (a * r + d) rs ds := ih _

theorem index_inj {rs ds ds' : List ℕ} (h : Within rs ds) (h' : Within rs ds') {a a' : ℕ}
    (heq : index a rs ds = index a' rs ds') : a = a' ∧ ds = ds' := by
  induction h generalizing a a' ds' with
  | nil =>
    cases h'
    exact ⟨heq, rfl⟩
  | @cons d r ds rs hd _ ih =>
    obtain _ | @⟨d', _, ds', _, hd', hds'⟩ := h'
    have hpair := ih hds' heq
    have hlast : d = d' := by
      have := congrArg (· % r) hpair.1
      simpa [Nat.add_mod, Nat.mod_eq_of_lt hd, Nat.mod_eq_of_lt hd'] using this
    have hfirst : a * r = a' * r := by
      have := hpair.1
      omega
    exact ⟨Nat.eq_of_mul_eq_mul_right (Nat.zero_lt_of_lt hd) hfirst, by rw [hlast, hpair.2]⟩

theorem exists_index (rs : List ℕ) {k n : ℕ} (hk : k < n * rs.prod) :
    ∃ a < n, ∃ ds, Within rs ds ∧ index a rs ds = k := by
  induction rs generalizing n with
  | nil => exact ⟨k, by simpa using hk, [], .nil, rfl⟩
  | cons r rs ih =>
    rw [List.prod_cons, ← mul_assoc] at hk
    obtain ⟨b, hb, ds, hds, hindex⟩ := ih hk
    have hr : 0 < r := by
      apply Nat.pos_of_ne_zero
      intro h
      simp [h] at hb
    refine ⟨b / r, Nat.div_lt_of_lt_mul (by rwa [mul_comm]), b % r :: ds,
      .cons (Nat.mod_lt _ hr) hds, ?_⟩
    unfold index
    rw [mul_comm, Nat.div_add_mod]
    exact hindex

/-- **The row-major index numbers the cells of a shape.** -/
theorem bijOn_index (rs : List ℕ) :
    Set.BijOn (index 0 rs) {ds | Within rs ds} {n | n < rs.prod} := by
  refine ⟨?_, ?_, ?_⟩
  · intro ds hds
    simpa using index_lt hds Nat.one_pos
  · intro ds hds ds' hds' heq
    exact (index_inj hds hds' heq).2
  · intro k hk
    obtain ⟨a, ha, ds, hds, hindex⟩ := exists_index rs (n := 1) (by simpa using hk)
    obtain rfl : a = 0 := by omega
    exact ⟨ds, hds, hindex⟩

/-- **In units of `u`, the offsets of the cells are the multiples of `u` below the size.** -/
theorem bijOn_scaled (rs : List ℕ) {u : ℕ} (hu : 0 < u) :
    Set.BijOn (fun ds => index 0 rs ds * u) {ds | Within rs ds}
      {n | n < rs.prod * u ∧ u ∣ n} := by
  have hscale : Set.BijOn (· * u) {n | n < rs.prod} {n | n < rs.prod * u ∧ u ∣ n} := by
    refine ⟨?_, ?_, ?_⟩
    · intro n hn
      exact ⟨Nat.mul_lt_mul_of_pos_right hn hu, Nat.dvd_mul_left u n⟩
    · intro a _ b _ hab
      exact Nat.eq_of_mul_eq_mul_right hu hab
    · rintro n ⟨hn, k, rfl⟩
      refine ⟨k, ?_, Nat.mul_comm k u⟩
      rw [Nat.mul_comm u k] at hn
      exact Nat.lt_of_mul_lt_mul_right hn
  exact hscale.comp (bijOn_index rs)

/-! ## The axes of a flat index -/

variable {a r d : ℕ}

theorem split_last (hd : d < r) : (a * r + d) % r = d := by
  rw [Nat.mul_add_mod', Nat.mod_eq_of_lt hd]

theorem split_quotient (hd : d < r) : (a * r + d) / r = a := by
  rw [Nat.mul_comm, Nat.mul_add_div (Nat.zero_lt_of_lt hd), Nat.div_eq_of_lt hd, Nat.add_zero]

end RowMajor
