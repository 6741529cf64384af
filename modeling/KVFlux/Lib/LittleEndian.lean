import Mathlib

/-!
# Little-endian words

* `bytes k n`: the low `k` bytes of `n`, least significant first.
* `value bs`: the number that a byte string spells.
* **`value_bytes`**, **`bytes_value`**: the two are inverse up to the width.
-/

namespace LittleEndian

/-- The low `k` bytes of `n`. -/
def bytes : ℕ → ℕ → List UInt8
  | 0, _ => []
  | k + 1, n => UInt8.ofNat n :: bytes k (n / 256)

/-- The number a byte string spells. -/
def value : List UInt8 → ℕ
  | [] => 0
  | b :: bs => b.toNat + 256 * value bs

@[simp] theorem length_bytes (k n : ℕ) : (bytes k n).length = k := by
  induction k generalizing n with
  | zero => rfl
  | succ k ih => simp [bytes, ih]

theorem value_lt (bs : List UInt8) : value bs < 256 ^ bs.length := by
  induction bs with
  | nil => simp [value]
  | cons b bs ih =>
    have := b.toNat_lt
    rw [List.length_cons, pow_succ]
    unfold value
    omega

/-- **A word reads back modulo its width.** -/
theorem value_bytes (k n : ℕ) : value (bytes k n) = n % 256 ^ k := by
  induction k generalizing n with
  | zero => simp [value, bytes, Nat.mod_one]
  | succ k ih =>
    unfold bytes value
    rw [ih, UInt8.toNat_ofNat', pow_succ' 256 k, Nat.mod_mul]

theorem value_bytes_of_lt {k n : ℕ} (h : n < 256 ^ k) : value (bytes k n) = n := by
  rw [value_bytes, Nat.mod_eq_of_lt h]

/-- **A byte string is the word of its value.** -/
theorem bytes_value (bs : List UInt8) : bytes bs.length (value bs) = bs := by
  induction bs with
  | nil => rfl
  | cons b bs ih =>
    have hlt := b.toNat_lt
    have hmod : (b.toNat + 256 * value bs) % 256 = b.toNat := by omega
    have hdiv : (b.toNat + 256 * value bs) / 256 = value bs := by omega
    unfold value
    rw [List.length_cons]
    unfold bytes
    rw [hdiv, ih]
    congr 1
    apply UInt8.toNat_inj.mp
    rw [UInt8.toNat_ofNat']
    exact hmod

end LittleEndian
