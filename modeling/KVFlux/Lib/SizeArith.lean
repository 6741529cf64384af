import Mathlib

/-!
# Unsigned machine arithmetic

Expressions of unsigned arithmetic modulo `m`, kept as syntax trees so that one expression has both
the value a machine computes and the value it would have over the naturals.

* `Expr`: literals, sums, differences, products, quotients and remainders.
* `value`: over the naturals; `wrapped`: every intermediate result is reduced modulo `m`.
* `Fits`: no intermediate result leaves the word, no difference is negative, no divisor is zero.
* **`wrapped_eq`**: an expression that fits is computed exactly; `fits_step`, `fits_horner`: a step
  of Horner's rule fits.
-/

namespace SizeArith

/-- An expression of unsigned arithmetic. -/
inductive Expr
  | lit (n : ℕ)
  | add (a b : Expr)
  | sub (a b : Expr)
  | mul (a b : Expr)
  | div (a b : Expr)
  | mod (a b : Expr)
deriving DecidableEq, Repr

namespace Expr

instance : Coe ℕ Expr := ⟨lit⟩
instance (n : ℕ) : OfNat Expr n := ⟨lit n⟩
instance : Add Expr := ⟨add⟩
instance : Sub Expr := ⟨sub⟩
instance : Mul Expr := ⟨mul⟩
instance : Div Expr := ⟨div⟩
instance : Mod Expr := ⟨mod⟩

/-- The value over the naturals. -/
def value : Expr → ℕ
  | lit n => n
  | add a b => a.value + b.value
  | sub a b => a.value - b.value
  | mul a b => a.value * b.value
  | div a b => a.value / b.value
  | mod a b => a.value % b.value

/-- The value in words of modulus `m`: every intermediate result wraps around. -/
def wrapped (m : ℕ) : Expr → ℕ
  | lit n => n % m
  | add a b => (a.wrapped m + b.wrapped m) % m
  | sub a b => (a.wrapped m + (m - b.wrapped m)) % m
  | mul a b => a.wrapped m * b.wrapped m % m
  | div a b => a.wrapped m / b.wrapped m
  | mod a b => a.wrapped m % b.wrapped m

/-- No intermediate result wraps around. -/
def Fits (m : ℕ) : Expr → Prop
  | lit n => n < m
  | add a b => a.Fits m ∧ b.Fits m ∧ a.value + b.value < m
  | sub a b => a.Fits m ∧ b.Fits m ∧ b.value ≤ a.value
  | mul a b => a.Fits m ∧ b.Fits m ∧ a.value * b.value < m
  | div a b => a.Fits m ∧ b.Fits m ∧ 0 < b.value
  | mod a b => a.Fits m ∧ b.Fits m ∧ 0 < b.value

section Value

variable (n : ℕ) (a b : Expr)

@[simp] theorem value_lit : (lit n).value = n := rfl

@[simp] theorem value_ofNat : (OfNat.ofNat n : Expr).value = n := rfl

@[simp] theorem value_add : (a + b).value = a.value + b.value := rfl

@[simp] theorem value_sub : (a - b).value = a.value - b.value := rfl

@[simp] theorem value_mul : (a * b).value = a.value * b.value := rfl

@[simp] theorem value_div : (a / b).value = a.value / b.value := rfl

@[simp] theorem value_mod : (a % b).value = a.value % b.value := rfl

end Value

section Fits

variable {m : ℕ} (n : ℕ) (a b : Expr)

@[simp] theorem fits_lit : (lit n).Fits m ↔ n < m := Iff.rfl

@[simp] theorem fits_ofNat : (OfNat.ofNat n : Expr).Fits m ↔ n < m := Iff.rfl

@[simp] theorem fits_add : (a + b).Fits m ↔ a.Fits m ∧ b.Fits m ∧ a.value + b.value < m := Iff.rfl

@[simp] theorem fits_sub : (a - b).Fits m ↔ a.Fits m ∧ b.Fits m ∧ b.value ≤ a.value := Iff.rfl

@[simp] theorem fits_mul : (a * b).Fits m ↔ a.Fits m ∧ b.Fits m ∧ a.value * b.value < m := Iff.rfl

@[simp] theorem fits_div : (a / b).Fits m ↔ a.Fits m ∧ b.Fits m ∧ 0 < b.value := Iff.rfl

@[simp] theorem fits_mod : (a % b).Fits m ↔ a.Fits m ∧ b.Fits m ∧ 0 < b.value := Iff.rfl

end Fits

variable {m : ℕ} {e : Expr}

theorem Fits.value_lt (h : e.Fits m) : e.value < m := by
  induction e with
  | lit n => exact h
  | add a b _ _ => exact h.2.2
  | sub a b iha _ => exact (Nat.sub_le _ _).trans_lt (iha h.1)
  | mul a b _ _ => exact h.2.2
  | div a b iha _ => exact (Nat.div_le_self _ _).trans_lt (iha h.1)
  | mod a b iha _ => exact (Nat.mod_le _ _).trans_lt (iha h.1)

/-- **An expression that fits is computed exactly.** -/
theorem wrapped_eq (h : e.Fits m) : e.wrapped m = e.value := by
  induction e with
  | lit n => exact Nat.mod_eq_of_lt h
  | add a b iha ihb =>
    unfold wrapped
    rw [iha h.1, ihb h.2.1]
    exact Nat.mod_eq_of_lt h.2.2
  | sub a b iha ihb =>
    have hb := h.2.1.value_lt
    have ha := h.1.value_lt
    have hle := h.2.2
    have hsum : a.value + (m - b.value) = (a.value - b.value) + m := by omega
    unfold wrapped
    rw [iha h.1, ihb h.2.1, hsum, Nat.add_mod_right]
    exact Nat.mod_eq_of_lt (by omega)
  | mul a b iha ihb =>
    unfold wrapped
    rw [iha h.1, ihb h.2.1]
    exact Nat.mod_eq_of_lt h.2.2
  | div a b iha ihb =>
    unfold wrapped
    rw [iha h.1, ihb h.2.1]
    rfl
  | mod a b iha ihb =>
    unfold wrapped
    rw [iha h.1, ihb h.2.1]
    rfl

/-- **One step of Horner's rule** with a digit below its radix: the bound grows by the radix. -/
theorem fits_step {d : Expr} {n r : ℕ} (he : e.Fits m) (hv : e.value < n) (hdf : d.Fits m)
    (hd : d.value < r) (hm : n * r < m) :
    (e * (r : Expr) + d).Fits m ∧ (e * (r : Expr) + d).value < n * r := by
  have hbound : e.value * r + d.value < n * r := by nlinarith
  have hr : r < m := (Nat.le_mul_of_pos_left r (Nat.zero_lt_of_lt hv)).trans_lt hm
  have hmul : e.value * r < m := by omega
  exact ⟨⟨⟨he, hr, hmul⟩, hdf, hbound.trans hm⟩, hbound⟩

theorem fits_horner {n r d : ℕ} (he : e.Fits m) (hv : e.value < n) (hd : d < r) (hm : n * r < m) :
    (e * (r : Expr) + (d : Expr)).Fits m ∧ (e * (r : Expr) + (d : Expr)).value < n * r := by
  have hr : r < m := (Nat.le_mul_of_pos_left r (Nat.zero_lt_of_lt hv)).trans_lt hm
  exact fits_step (d := lit d) he hv (hd.trans hr) hd hm

end Expr

end SizeArith
