import Mathlib

/-!
# Calls that may throw

`EStateM ε σ` models calls that read and write a state and may throw; a throw keeps the state
reached so far. This file has the equations of the monad at a state and the two derived forms
used for clean-up code.

* `bind_apply`, `tryCatch_apply`, …: a call applied to a state.
* `check`, `ensure`: checks that do not touch the state.
* `onError x c`: run the clean-up `c` when `x` throws, then throw again.
* `onFst`, `onSnd`: a call on one part of a state.
* `finalState`: the state after a call, whether or not it threw; `returned`: its result if it did not.
* `bind_ok`, `returns_bind`, `mapM_returns`, `ensure_ok`, `check_bind_ok`, `onError_ok`, …: what a
  call that returns has done.
* `Keeps I x`: the call `x` keeps `I`, also when it throws. The rules follow the forms above.
* `Projects π x y`: on the part `π` of its state, `x` is `y`.
* `observed x f`: the call `x` beside a log that gets the events `f s a` when `x` returns `a` from
  the state `s`.
-/

namespace Fallible

variable {ε σ α β : Type}

@[simp] theorem pure_apply (a : α) (s : σ) : (pure a : EStateM ε σ α) s = .ok a s := rfl

@[simp] theorem bind_apply (x : EStateM ε σ α) (f : α → EStateM ε σ β) (s : σ) :
    (x >>= f) s = match x s with
      | .ok a s' => f a s'
      | .error e s' => .error e s' := rfl

@[simp] theorem map_apply (f : α → β) (x : EStateM ε σ α) (s : σ) :
    (f <$> x) s = match x s with
      | .ok a s' => .ok (f a) s'
      | .error e s' => .error e s' := by
  show EStateM.map f x s = _
  unfold EStateM.map
  cases x s <;> rfl

@[simp] theorem throw_apply (e : ε) (s : σ) : (throw e : EStateM ε σ α) s = .error e s := rfl

@[simp] theorem get_apply (s : σ) : (get : EStateM ε σ σ) s = .ok s s := rfl

@[simp] theorem set_apply (s' s : σ) : (set s' : EStateM ε σ PUnit) s = .ok ⟨⟩ s' := rfl

@[simp] theorem modify_apply (f : σ → σ) (s : σ) :
    (modify f : EStateM ε σ PUnit) s = .ok ⟨⟩ (f s) := rfl

@[simp] theorem tryCatch_apply (x : EStateM ε σ α) (f : ε → EStateM ε σ α) (s : σ) :
    (tryCatch x f) s = match x s with
      | .ok a s' => .ok a s'
      | .error e s' => f e s' := by
  show EStateM.tryCatch x f s = _
  unfold EStateM.tryCatch
  cases x s <;> rfl

/-- A check that leaves the state alone. -/
def check (x : Except ε α) : EStateM ε σ α := fun s =>
  match x with
  | .ok a => .ok a s
  | .error e => .error e s

@[simp] theorem check_ok (a : α) (s : σ) : check (.ok a : Except ε α) s = .ok a s := rfl

@[simp] theorem check_error (e : ε) (s : σ) : check (.error e : Except ε α) s = .error e s := rfl

/-- Throw `e` unless `p` holds. -/
def ensure (p : Prop) [Decidable p] (e : ε) : EStateM ε σ PUnit := fun s =>
  if p then .ok ⟨⟩ s else .error e s

/-- Clean up and throw again when `x` throws. -/
def onError (x : EStateM ε σ α) (c : EStateM ε σ PUnit) : EStateM ε σ α := fun s =>
  match x s with
  | .ok a s' => .ok a s'
  | .error e s' => match c s' with
    | .ok _ s'' => .error e s''
    | .error e' s'' => .error e' s''

/-- A call on the first part of the state. -/
def onFst {τ : Type} (x : EStateM ε σ α) : EStateM ε (σ × τ) α := fun (s, t) =>
  match x s with
  | .ok a s' => .ok a (s', t)
  | .error e s' => .error e (s', t)

@[simp] theorem onFst_apply {τ : Type} (x : EStateM ε σ α) (s : σ) (t : τ) :
    onFst x (s, t) = match x s with
      | .ok a s' => .ok a (s', t)
      | .error e s' => .error e (s', t) := rfl

/-- A call on the second part of the state. -/
def onSnd {τ : Type} (x : EStateM ε τ α) : EStateM ε (σ × τ) α := fun (s, t) =>
  match x t with
  | .ok a t' => .ok a (s, t')
  | .error e t' => .error e (s, t')

@[simp] theorem onSnd_apply {τ : Type} (x : EStateM ε τ α) (s : σ) (t : τ) :
    onSnd x (s, t) = match x t with
      | .ok a t' => .ok a (s, t')
      | .error e t' => .error e (s, t') := rfl

/-- The state a call leaves behind, also when it throws. -/
def finalState : EStateM.Result ε σ α → σ
  | .ok _ s => s
  | .error _ s => s

@[simp] theorem finalState_ok (a : α) (s : σ) : finalState (.ok a s : EStateM.Result ε σ α) = s := rfl

@[simp] theorem finalState_error (e : ε) (s : σ) :
    finalState (.error e s : EStateM.Result ε σ α) = s := rfl

/-- What a call returns. -/
def returned : EStateM.Result ε σ α → Option α
  | .ok a _ => some a
  | .error _ _ => none

/-- A pure call returns when both of its parts do. -/
theorem returns_bind {x : Except ε α} {f : α → Except ε β} {b : β} :
    (x >>= f) = .ok b ↔ ∃ a, x = .ok a ∧ f a = .ok b := by
  rcases x with e | a <;> simp [bind, Except.bind]

/-- A pure call over a list, element by element. -/
theorem mapM_returns {f : α → Except ε β} {as : List α} {bs : List β} :
    as.mapM f = .ok bs ↔ List.Forall₂ (fun a b => f a = .ok b) as bs := by
  induction as generalizing bs with
  | nil =>
    rw [List.mapM_nil, List.forall₂_nil_left_iff]
    exact ⟨fun h => (Except.ok.inj h).symm, fun h => h ▸ rfl⟩
  | cons a as ih =>
    rw [List.mapM_cons, returns_bind, List.forall₂_cons_left_iff]
    constructor
    · rintro ⟨b, hb, h⟩
      obtain ⟨bs', hbs, h⟩ := returns_bind.mp h
      exact ⟨b, bs', hb, ih.mp hbs, (Except.ok.inj h).symm⟩
    · rintro ⟨b, bs', hb, hbs, rfl⟩
      exact ⟨b, hb, returns_bind.mpr ⟨bs', ih.mpr hbs, rfl⟩⟩

theorem bind_ok {x : EStateM ε σ α} {f : α → EStateM ε σ β} {s s' : σ} {b : β}
    (h : (x >>= f) s = .ok b s') : ∃ a s₁, x s = .ok a s₁ ∧ f a s₁ = .ok b s' := by
  rw [bind_apply] at h
  cases hx : x s with
  | ok a s₁ => rw [hx] at h; exact ⟨a, s₁, rfl, h⟩
  | error e s₁ => rw [hx] at h; cases h

theorem bind_of_ok {x : EStateM ε σ α} {f : α → EStateM ε σ β} {s s' : σ} {a : α}
    (h : x s = .ok a s') : (x >>= f) s = f a s' := by
  rw [bind_apply, h]

theorem bind_of_error {x : EStateM ε σ α} {f : α → EStateM ε σ β} {s s' : σ} {e : ε}
    (h : x s = .error e s') : (x >>= f) s = .error e s' := by
  rw [bind_apply, h]

theorem bind_of_check {x : Except ε α} {a : α} {f : α → EStateM ε σ β} {s : σ} (h : x = .ok a) :
    (check x >>= f) s = f a s := by
  rw [h]
  rfl

theorem ensure_apply {p : Prop} [Decidable p] {e : ε} {s : σ} (h : p) :
    (ensure p e : EStateM ε σ PUnit) s = .ok ⟨⟩ s := if_pos h

theorem ensure_ok {p : Prop} [Decidable p] {e : ε} {s s' : σ} {u : PUnit}
    (h : ensure p e s = .ok u s') : p ∧ s' = s := by
  unfold ensure at h
  split_ifs at h with hp
  cases h
  exact ⟨hp, rfl⟩

/-- A check that lets the call go on. -/
theorem check_bind_ok {x : Except ε α} {f : α → EStateM ε σ β} {s s' : σ} {b : β}
    (h : (check x >>= f) s = .ok b s') : ∃ a, x = .ok a ∧ f a s = .ok b s' := by
  rcases x with e | a
  · cases h
  · exact ⟨a, rfl, h⟩

theorem ensure_bind_ok {p : Prop} [Decidable p] {e : ε} {f : PUnit → EStateM ε σ β} {s s' : σ} {b : β}
    (h : (ensure p e >>= f) s = .ok b s') : p ∧ f ⟨⟩ s = .ok b s' := by
  obtain ⟨u, s₁, hensure, hf⟩ := bind_ok h
  obtain ⟨hp, rfl⟩ := ensure_ok hensure
  exact ⟨hp, hf⟩

theorem onError_ok {x : EStateM ε σ α} {c : EStateM ε σ PUnit} {s s' : σ} {a : α} :
    onError x c s = .ok a s' ↔ x s = .ok a s' := by
  unfold onError
  cases hx : x s with
  | ok b s₁ => exact Iff.rfl
  | error e s₁ =>
    refine ⟨fun h => ?_, fun h => by cases h⟩
    simp only at h
    cases hc : c s₁ <;> rw [hc] at h <;> cases h

theorem onError_error {x : EStateM ε σ α} {c : EStateM ε σ PUnit} {s s' : σ} {e : ε}
    (h : x s = .error e s') : ∃ e' s'', onError x c s = .error e' s'' := by
  unfold onError
  rw [h]
  simp only
  cases c s' with
  | ok u s'' => exact ⟨e, s'', rfl⟩
  | error e' s'' => exact ⟨e', s'', rfl⟩

/-- A clean-up that returns. -/
theorem onError_clean {x : EStateM ε σ α} {c : EStateM ε σ PUnit} {s s' s'' : σ} {e : ε}
    (h : x s = .error e s') (hc : c s' = .ok ⟨⟩ s'') : onError x c s = .error e s'' := by
  unfold onError
  rw [h]
  simp only [hc]

/-! ## Invariants of calls -/

/-- `x` keeps `I`, whether or not it throws. -/
def Keeps (I : σ → Prop) (x : EStateM ε σ α) : Prop := ∀ s, I s → I (finalState (x s))

namespace Keeps

variable {I : σ → Prop}

theorem pure (a : α) : Keeps I (Pure.pure a : EStateM ε σ α) := fun _ hs => hs

theorem get : Keeps I (MonadState.get : EStateM ε σ σ) := fun _ hs => hs

theorem check (x : Except ε α) : Keeps I (Fallible.check x : EStateM ε σ α) := fun s hs => by
  cases x <;> exact hs

theorem modify {f : σ → σ} (hf : ∀ s, I s → I (f s)) :
    Keeps I (modify f : EStateM ε σ PUnit) := fun s hs => hf s hs

theorem bind {x : EStateM ε σ α} {f : α → EStateM ε σ β} (hx : Keeps I x)
    (hf : ∀ a, Keeps I (f a)) : Keeps I (x >>= f) := by
  intro s hs
  have := hx s hs
  rw [bind_apply]
  cases he : x s with
  | ok a s' => rw [he] at this; exact hf a s' this
  | error e s' => rw [he] at this; exact this

theorem onError {x : EStateM ε σ α} {c : EStateM ε σ PUnit} (hx : Keeps I x) (hc : Keeps I c) :
    Keeps I (onError x c) := by
  intro s hs
  have := hx s hs
  unfold Fallible.onError
  cases he : x s with
  | ok a s' => rw [he] at this; exact this
  | error e s' =>
    rw [he] at this
    have := hc s' this
    simp only
    cases hc' : c s' with
    | ok u s'' => rw [hc'] at this; exact this
    | error e' s'' => rw [hc'] at this; exact this

theorem onFst {τ : Type} {x : EStateM ε σ α} (hx : Keeps I x) :
    Keeps (fun s : σ × τ => I s.1) (onFst x) := by
  intro s hs
  have := hx s.1 hs
  unfold Fallible.onFst
  cases he : x s.1 with
  | ok a s' => rw [he] at this; simpa [he] using this
  | error e s' => rw [he] at this; simpa [he] using this

end Keeps

/-! ## Projections -/

section Projections

variable {τ ρ : Type}

/-- A result with another state. -/
def mapState (π : τ → σ) : EStateM.Result ε τ α → EStateM.Result ε σ α
  | .ok a t => .ok a (π t)
  | .error e t => .error e (π t)

/-- On the part `π` of its state, `x` is `y`. -/
def Projects (π : τ → σ) (x : EStateM ε τ α) (y : EStateM ε σ α) : Prop :=
  ∀ t, mapState π (x t) = y (π t)

/-- `x` beside a log of what it did; a call that returns `a` from `s` appends `f s a`. -/
def observed {ω : Type} (x : EStateM ε σ α) (f : σ → α → List ω) : EStateM ε (σ × List ω) α :=
  fun (s, log) =>
    match x s with
    | .ok a s' => .ok a (s', log ++ f s a)
    | .error e s' => .error e (s', log)

namespace Projects

variable {π : τ → σ} {x : EStateM ε τ α} {y : EStateM ε σ α}

theorem pure (a : α) : Projects π (Pure.pure a : EStateM ε τ α) (Pure.pure a) := fun _ => rfl

theorem modify {f : τ → τ} {g : σ → σ} (h : ∀ t, π (f t) = g (π t)) :
    Projects π (modify f : EStateM ε τ PUnit) (modify g) := fun t =>
  congrArg (EStateM.Result.ok PUnit.unit) (h t)

theorem bind {f : α → EStateM ε τ β} {g : α → EStateM ε σ β} (hx : Projects π x y)
    (hf : ∀ a, Projects π (f a) (g a)) : Projects π (x >>= f) (y >>= g) := by
  intro t
  have h := hx t
  rw [bind_apply, bind_apply, ← h]
  cases x t with
  | ok a t' => exact hf a t'
  | error e t' => rfl

theorem onError {c : EStateM ε τ PUnit} {d : EStateM ε σ PUnit} (hx : Projects π x y)
    (hc : Projects π c d) : Projects π (onError x c) (onError y d) := by
  intro t
  have h := hx t
  unfold Fallible.onError
  rw [← h]
  cases x t with
  | ok a t' => rfl
  | error e t' =>
    have h' := hc t'
    simp only [mapState]
    rw [← h']
    cases c t' <;> rfl

theorem onFst (hx : Projects π x y) :
    Projects (Prod.map π id : τ × ρ → σ × ρ) (Fallible.onFst x) (Fallible.onFst y) := by
  rintro ⟨t, r⟩
  have h := hx t
  show mapState _ (Fallible.onFst x (t, r)) = Fallible.onFst y (π t, r)
  rw [onFst_apply, onFst_apply, ← h]
  cases x t <;> rfl

/-- A call on the other part of the state. -/
theorem onFst_beside (z : EStateM ε ρ α) :
    Projects (Prod.map id π : ρ × τ → ρ × σ) (Fallible.onFst z) (Fallible.onFst z) := by
  rintro ⟨r, t⟩
  show mapState _ (Fallible.onFst z (r, t)) = Fallible.onFst z (r, π t)
  rw [onFst_apply, onFst_apply]
  cases z r <;> rfl

theorem onSnd (hx : Projects π x y) :
    Projects (Prod.map id π : ρ × τ → ρ × σ) (Fallible.onSnd x) (Fallible.onSnd y) := by
  rintro ⟨r, t⟩
  have h := hx t
  show mapState _ (Fallible.onSnd x (r, t)) = Fallible.onSnd y (r, π t)
  rw [onSnd_apply, onSnd_apply, ← h]
  cases x t <;> rfl

theorem throw (e : ε) : Projects π (throw e : EStateM ε τ α) (throw e) := fun _ => rfl

theorem check (v : Except ε α) :
    Projects π (Fallible.check v : EStateM ε τ α) (Fallible.check v) := fun t => by
  cases v <;> rfl

theorem ensure (p : Prop) [Decidable p] (e : ε) :
    Projects π (Fallible.ensure p e : EStateM ε τ PUnit) (Fallible.ensure p e) := fun t => by
  unfold Fallible.ensure
  split_ifs <;> rfl

/-- What is read is in the part of the state. -/
theorem read {f : σ → EStateM ε τ α} {g : σ → EStateM ε σ α} (hf : ∀ s, Projects π (f s) (g s)) :
    Projects π (get >>= fun t => f (π t)) (get >>= g) := fun t => hf (π t) t

theorem finalState (hx : Projects π x y) (t : τ) :
    π (finalState (x t)) = Fallible.finalState (y (π t)) := by
  rw [← hx t]
  cases x t <;> rfl

/-- Without its log an observed call is the call. -/
theorem observed {ω : Type} (y : EStateM ε σ α) (f : σ → α → List ω) :
    Projects Prod.fst (observed y f) y := by
  rintro ⟨s, log⟩
  unfold Fallible.observed
  simp only
  cases y s <;> rfl

end Projects

end Projections

end Fallible
