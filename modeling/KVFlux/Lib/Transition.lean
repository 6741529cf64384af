import Mathlib

/-!
# Transition systems

A system is a partial step function: `step a s` is the state after the action `a` in `s`, or `none`
when `a` is not enabled there.

* `Reachable step start allowed s`: `s` is reached by a run from a `start` state whose steps are all
  `allowed`.
* `run`: a list of actions in order.
* **`Reachable.invariant`**: what holds at the start and survives every allowed step holds in every
  reachable state. The step lemma may use that its source is reachable.
* `Reachable.run`, `Reachable.runChecked`: running a list of actions.
-/

namespace Transition

variable {σ α : Type} {step : α → σ → Option σ} {start : σ → Prop}
  {allowed : σ → α → Prop} {s s' : σ} {a : α}

/-- The states of the runs from `start` whose steps are `allowed`. -/
inductive Reachable (step : α → σ → Option σ) (start : σ → Prop) (allowed : σ → α → Prop) :
    σ → Prop
  | start {s : σ} (h : start s) : Reachable step start allowed s
  | step {s s' : σ} {a : α} (hr : Reachable step start allowed s) (ha : allowed s a)
      (hs : step a s = some s') : Reachable step start allowed s'

/-- Every action is allowed. -/
def Any (_ : σ) (_ : α) : Prop := True

/-- **The invariant rule.** -/
theorem Reachable.invariant {I : σ → Prop} (hr : Reachable step start allowed s)
    (hstart : ∀ s, start s → I s)
    (hstep : ∀ s a s', Reachable step start allowed s → I s → allowed s a → step a s = some s' →
      I s') : I s := by
  induction hr with
  | start h => exact hstart _ h
  | step hr ha hs ih => exact hstep _ _ _ hr ih ha hs

/-- The actions of a list in order. -/
def run (step : α → σ → Option σ) : List α → σ → Option σ
  | [], s => some s
  | a :: as, s => (step a s).bind (run step as)

/-- Running a list of actions that are always allowed. -/
theorem Reachable.run (hr : Reachable step start allowed s) {as : List α}
    (ha : ∀ a ∈ as, ∀ s, allowed s a) (h : run step as s = some s') :
    Reachable step start allowed s' := by
  induction as generalizing s with
  | nil => cases h; exact hr
  | cons a as ih =>
    obtain ⟨s₁, hs, h⟩ := Option.bind_eq_some_iff.mp h
    exact ih (.step hr (ha a List.mem_cons_self s) hs)
      (fun b hb => ha b (List.mem_cons_of_mem a hb)) h

/-- The actions of a list in order, each checked before it is taken. -/
def runChecked (step : α → σ → Option σ) (check : σ → α → Bool) : List α → σ → Option σ
  | [], s => some s
  | a :: as, s => if check s a then (step a s).bind (runChecked step check as) else none

/-- Running a list of actions that pass a check when they are taken. -/
theorem Reachable.runChecked (hr : Reachable step start allowed s) {check : σ → α → Bool}
    {as : List α} (ha : ∀ a ∈ as, ∀ s, check s a = true → allowed s a)
    (h : runChecked step check as s = some s') : Reachable step start allowed s' := by
  induction as generalizing s with
  | nil => cases h; exact hr
  | cons a as ih =>
    rw [Transition.runChecked] at h
    split_ifs at h with hc
    obtain ⟨s₁, hs, h⟩ := Option.bind_eq_some_iff.mp h
    exact ih (.step hr (ha a List.mem_cons_self s hc) hs)
      (fun b hb => ha b (List.mem_cons_of_mem a hb)) h

end Transition
