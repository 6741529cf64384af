import KVFlux.Lib.Fallible

/-!
# Postconditions of calls that may throw

`Post Q E r`: the result `r` of a call is a return with `Q` or a throw with `E`. A call is verified
from a state `s` by walking through `Post Q E (x s)`, one rule for each form of call.

* `Post.bind`, `Post.check`, `Post.ensure`, `Post.ite`, `Post.onError`: the rules.
* `Post.mono`: weaker postconditions; `Post.of_ok`, `Post.of_error`: what a known result gives.
* `Throws E x`, `Fails E x`: whatever the call `x`, or the pure call `x`, throws satisfies `E`. The
  rules follow the forms above.
-/

namespace Fallible

variable {ε σ τ α β : Type}

/-- A return with `Q` or a throw with `E`. -/
def Post (Q : α → σ → Prop) (E : ε → σ → Prop) : EStateM.Result ε σ α → Prop
  | .ok a s => Q a s
  | .error e s => E e s

@[simp] theorem post_ok {Q : α → σ → Prop} {E : ε → σ → Prop} {a : α} {s : σ} :
    Post Q E (.ok a s) ↔ Q a s := Iff.rfl

@[simp] theorem post_error {Q : α → σ → Prop} {E : ε → σ → Prop} {e : ε} {s : σ} :
    Post Q E (.error e s : EStateM.Result ε σ α) ↔ E e s := Iff.rfl

namespace Post

variable {Q Q' : α → σ → Prop} {E E' : ε → σ → Prop} {s : σ}

theorem mono {r : EStateM.Result ε σ α} (h : Post Q E r) (hq : ∀ a s, Q a s → Q' a s)
    (he : ∀ e s, E e s → E' e s) : Post Q' E' r := by
  cases r with
  | ok a s => exact hq a s h
  | error e s => exact he e s h

theorem of_ok {r : EStateM.Result ε σ α} {a : α} (h : Post Q E r) (hr : r = .ok a s) : Q a s := by
  rw [hr] at h
  exact h

theorem of_error {r : EStateM.Result ε σ α} {e : ε} (h : Post Q E r) (hr : r = .error e s) :
    E e s := by
  rw [hr] at h
  exact h

/-- **The rule of sequencing.** -/
theorem bind {x : EStateM ε σ β} {f : β → EStateM ε σ α} {R : β → σ → Prop}
    (hx : Post R E (x s)) (hf : ∀ b s', R b s' → Post Q E (f b s')) : Post Q E ((x >>= f) s) := by
  rw [bind_apply]
  cases hr : x s with
  | ok b s' => exact hf b s' (hx.of_ok hr)
  | error e s' => exact hx.of_error hr

theorem check {x : Except ε β} {f : β → EStateM ε σ α} (hok : ∀ b, x = .ok b → Post Q E (f b s))
    (herror : ∀ e, x = .error e → E e s) : Post Q E ((Fallible.check x >>= f) s) := by
  cases hx : x with
  | ok b => exact hok b hx
  | error e => exact herror e hx

theorem ensure {p : Prop} [Decidable p] {e : ε} {f : PUnit → EStateM ε σ α}
    (hok : p → Post Q E (f ⟨⟩ s)) (herror : ¬ p → E e s) :
    Post Q E ((Fallible.ensure p e >>= f) s) := by
  rw [bind_apply]
  unfold Fallible.ensure
  by_cases hp : p
  · rw [if_pos hp]
    exact hok hp
  · rw [if_neg hp]
    exact herror hp

theorem ite {p : Prop} [Decidable p] {x y : EStateM ε σ α} (hx : p → Post Q E (x s))
    (hy : ¬ p → Post Q E (y s)) : Post Q E ((if p then x else y) s) := by
  split_ifs with hp
  · exact hx hp
  · exact hy hp

/-- **The rule of clean-up code**: what it leaves behind is thrown on with the first exception, or
with its own. -/
theorem onError {x : EStateM ε σ α} {c : EStateM ε σ PUnit} {C : ε → σ → Prop}
    (hx : Post Q C (x s)) (hc : ∀ e s', C e s' → Post (fun _ => E e) E (c s')) :
    Post Q E (onError x c s) := by
  unfold Fallible.onError
  cases hr : x s with
  | ok a s' => exact hx.of_ok hr
  | error e s' =>
    have hclean := hc e s' (hx.of_error hr)
    simp only
    cases hr' : c s' with
    | ok u s'' => exact hclean.of_ok hr'
    | error e' s'' => exact hclean.of_error hr'

theorem finalState {I : σ → Prop} {r : EStateM.Result ε σ α} (h : Post (fun _ => I) (fun _ => I) r) :
    I (finalState r) := by
  cases r with
  | ok a s => exact h
  | error e s => exact h

end Post

/-! ## What a call throws -/

/-- From any state, what `x` throws satisfies `E`. -/
def Throws (E : ε → Prop) (x : EStateM ε σ α) : Prop :=
  ∀ s, Post (fun _ _ => True) (fun e _ => E e) (x s)

namespace Throws

variable {E : ε → Prop}

theorem of_error {x : EStateM ε σ α} (h : Throws E x) {s s' : σ} {e : ε} (hx : x s = .error e s') :
    E e := (h s).of_error hx

theorem pure (a : α) : Throws E (Pure.pure a : EStateM ε σ α) := fun _ => trivial

theorem throw {e : ε} (h : E e) : Throws E (MonadExcept.throw e : EStateM ε σ α) := fun _ => h

theorem get : Throws E (MonadState.get : EStateM ε σ σ) := fun _ => trivial

theorem modify (f : σ → σ) : Throws E (modify f : EStateM ε σ PUnit) := fun _ => trivial

theorem check {x : Except ε α} (h : ∀ e, x = .error e → E e) :
    Throws E (Fallible.check x : EStateM ε σ α) := fun s => by
  cases hx : x with
  | ok a => exact trivial
  | error e => exact h e hx

theorem ensure {p : Prop} [Decidable p] {e : ε} (h : E e) :
    Throws E (Fallible.ensure p e : EStateM ε σ PUnit) := fun s => by
  unfold Fallible.ensure
  split_ifs
  · exact trivial
  · exact h

theorem bind {x : EStateM ε σ β} {f : β → EStateM ε σ α} (hx : Throws E x)
    (hf : ∀ b, Throws E (f b)) : Throws E (x >>= f) := fun s =>
  (hx s).bind fun b s' _ => hf b s'

theorem onError {x : EStateM ε σ α} {c : EStateM ε σ PUnit} (hx : Throws E x) (hc : Throws E c) :
    Throws E (Fallible.onError x c) := fun s =>
  Post.onError ((hx s).mono (fun _ _ _ => trivial) fun _ _ he => he) fun _ s' he =>
    (hc s').mono (fun _ _ _ => he) fun _ _ he' => he'

end Throws

/-- What the pure call `x` throws satisfies `E`. -/
def Fails (E : ε → Prop) (x : Except ε α) : Prop := ∀ e, x = .error e → E e

namespace Fails

variable {E : ε → Prop}

theorem ok (a : α) : Fails E (.ok a : Except ε α) := fun _ h => by cases h

theorem error {e : ε} (h : E e) : Fails E (.error e : Except ε α) := fun _ h' => by
  cases h'
  exact h

theorem bind {x : Except ε β} {f : β → Except ε α} (hx : Fails E x) (hf : ∀ b, Fails E (f b)) :
    Fails E (x >>= f) := by
  cases x with
  | ok b => exact hf b
  | error e => exact .error (hx e rfl)

/-- A check between the steps of a pure call. -/
theorem guard {p : Prop} [Decidable p] {e : ε} {f : PUnit → Except ε α} (h : E e)
    (hf : Fails E (f ⟨⟩)) :
    Fails E (if p then (MonadExcept.throw e : Except ε PUnit) >>= f else f ⟨⟩) := by
  split_ifs
  · exact .error h
  · exact hf

end Fails

end Fallible
