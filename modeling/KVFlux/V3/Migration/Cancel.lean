import KVFlux.V3.Migration.Lifecycle

/-!
# Cancelled tasks

* `cancelReturns`: what `cancel` is about to return.
* `Flagged`, `step_flagged`: a cancelled task does not complete.
* `Discarding`: what holds of a task after `cancel` has returned true.
* **`cancel_final`**: a cancelled task never publishes its destination and ends CANCELLED, or FAILED
  when its copy or I/O fails, and `cancel` returns false for tasks that had ended before the call.
* `cancel_fails`: a cancelled task that ends FAILED.
-/

namespace KVFlux.V3

open Fallible Transition

namespace Engine

/-- The task and the value that `cancel` returns in the next step of the owner. -/
def cancelReturns (e : Engine) (unlinked : Bool) : Option (ℕ × Bool) :=
  match e.owner with
  | .cancelLoad id => (e.tasks id).bind fun t =>
    if t.state.terminal then some (id, false) else none
  | .cancelFlag id state => if state = .RUNNING then some (id, true) else none
  | .cancelFinalize id => (e.tasks id).bind fun t =>
    match finalizeCancelled t unlinked { e with owner := .idle } with
    | .ok _ _ => some (id, true)
    | .error _ _ => none
  | _ => none

/-- The owner is inside a call. -/
def Busy (e : Engine) (_ : Action) : Prop := e.owner ≠ .idle

/-- A task that ends without its destination, and if it fails, fails by itself. -/
structure Discarding (e : Engine) (id : ℕ) : Prop where
  state : ∃ t, e.tasks id = some t ∧
    (t.state.terminal = true → t.state = .CANCELLED ∨ (t.state = .FAILED ∧ t.Failed))
  unpublished : ∀ t, e.tasks id = some t → t.state.terminal = false →
    ∃ r s, e.directory.record t.key = some r ∧
      r.replica t.destination = some ⟨t.destinationLoc, s⟩ ∧ s ≠ .READY
  removed : ∀ a e' t t', step a e = some e' → e.tasks id = some t → e'.tasks id = some t' →
    t.state.terminal = false → t'.state.terminal = true →
    ∃ r, e'.directory.record t.key = some r ∧ r.replica t.destination = none

/-- A task that does not complete. -/
def Flagged (e : Engine) (id : ℕ) : Prop :=
  ∃ t, e.tasks id = some t ∧ (t.state.terminal = false → t.cancelRequested = true) ∧
    (t.state.terminal = true → t.state = .CANCELLED ∨ (t.state = .FAILED ∧ t.Failed))

variable {H : Tokens → UInt64} {e e' e₀ e₁ : Engine} {a : Action} {id : ℕ} {t t' : Task}
  {unlinked : Bool}

/-- **A cancelled task does not complete.** -/
theorem step_flagged (hl : e.Inv H) (h : step a e = some e') (hf : e.Flagged id) :
    e'.Flagged id := by
  obtain ⟨t, ht, hflag, hend⟩ := hf
  obtain ⟨t', ht', hstep⟩ := step_task hl h ht
  refine ⟨t', ht', ?_⟩
  cases hstep with
  | same => exact ⟨hflag, hend⟩
  | flag => exact ⟨fun _ => rfl, hend⟩
  | take hq hs => exact ⟨fun _ => hflag (by rw [hs]; rfl), fun h => by cases h⟩
  | copy s hs hc =>
    refine ⟨hflag, fun h => ?_⟩
    rw [show t.state.terminal = true from h] at hs
    cases hs
  | result r hs =>
    refine ⟨hflag, fun h => ?_⟩
    have h : t.state.terminal = true := h
    rw [hs] at h
    cases h
  | @finish state error hn hd hrun hcompleted hfailed =>
    refine ⟨fun h => absurd (hd.terminal.symm.trans h) nofun, fun _ => ?_⟩
    cases hstate : state with
    | CANCELLED => exact .inl rfl
    | FAILED => exact .inr ⟨rfl, hfailed hstate⟩
    | COMPLETED =>
      have := (hcompleted hstate).2
      rw [hflag hn] at this
      cases this
    | QUEUED | RUNNING => rw [hstate] at hd; cases hd.terminal

theorem Flagged.removed (hl : e.Inv H) (h : step a e = some e') (hf : e'.Flagged id)
    (ht : e.tasks id = some t) (ht' : e'.tasks id = some t') (hn : t.state.terminal = false)
    (hend : t'.state.terminal = true) :
    ∃ r, e'.directory.record t.key = some r ∧ r.replica t.destination = none := by
  obtain ⟨rfl, -⟩ := hl.queue.task id t ht
  obtain ⟨s, hs, -, hstate⟩ := hf
  obtain rfl : s = t' := Option.some.inj (hs.symm.trans ht')
  refine (step_ends hl h ht ht' hn hend).removed (fun hc => ?_)
    (hl.locks.tiers_ne _ _ (move_task ht hn))
  rw [hc] at hstate
  rcases hstate rfl with h | ⟨h, -⟩ <;> cases h

theorem Flagged.discarding (hl : e.Inv H) (hf : e.Flagged id) : e.Discarding id := by
  have hf' := hf
  obtain ⟨t, ht, -, hend⟩ := hf'
  refine ⟨⟨t, ht, hend⟩, fun s hs hn => ?_, fun a e' s s' h hs hs' =>
    Flagged.removed hl h (step_flagged hl h hf) hs hs'⟩
  obtain ⟨r, hr, -, ⟨state, hd, hne⟩, -⟩ := (hl.guarded hs hn).registered
  exact ⟨r, state, hr, hd, hne⟩

/-- When `cancel` returns true, its task was unfinished, and is flagged or cancelled by now. -/
theorem cancelReturns_true (hl : e.Inv H) (hi : e.Inside) (hs : step (.owner unlinked) e = some e')
    (hret : e.cancelReturns unlinked = some (id, true)) :
    e'.Flagged id ∧ ∃ t, e.tasks id = some t ∧ t.state.terminal = false := by
  unfold cancelReturns at hret
  split at hret
  · rename_i i ho
    obtain ⟨t, ht, h⟩ := Option.bind_eq_some_iff.mp hret
    split_ifs at h
    cases h
  · rename_i i state ho
    split_ifs at hret
    cases hret
    obtain ⟨t, ht, hn⟩ := hi _ (by rw [ho]; rfl)
    have hs : e.ownerStep unlinked = some e' := hs
    simp only [ownerStep, ho, ht, Option.map_some] at hs
    cases hs
    obtain ⟨rfl, -⟩ := hl.queue.task _ t ht
    refine ⟨⟨{ t with cancelRequested := true }, Function.update_self _ _ _, fun _ => rfl,
      fun h => ?_⟩, t, ht, hn⟩
    rw [show t.state.terminal = true from h] at hn
    cases hn
  · rename_i i ho
    obtain ⟨t, ht, h⟩ := Option.bind_eq_some_iff.mp hret
    obtain ⟨rfl, -⟩ := hl.queue.task _ t ht
    obtain ⟨s, hs', hn⟩ := hi t.id (by rw [ho]; rfl)
    obtain rfl : t = s := Option.some.inj (ht.symm.trans hs')
    have hs : e.ownerStep unlinked = some e' := hs
    simp only [ownerStep, ho, ht, Option.map_some] at hs
    cases hs
    have hidle : Inv H { e with owner := .idle } := hl.setOwner nofun
    rcases finalizeCancelled_run hidle ht hn unlinked with ⟨-, -, -, err, he⟩ |
      ⟨d, store, r, he, -⟩
    · rw [he] at h
      cases h
    · rw [he] at h ⊢
      cases h
      exact ⟨⟨{ t with state := .CANCELLED }, Function.update_self _ _ _, fun h => (by cases h),
        fun _ => .inl rfl⟩, t, ht, hn⟩
  · cases hret

theorem cancelReturns_false (hret : e.cancelReturns unlinked = some (id, false)) :
    e.owner = .cancelLoad id ∧ ∃ t, e.tasks id = some t ∧ t.state.terminal = true := by
  unfold cancelReturns at hret
  split at hret
  · rename_i i ho
    obtain ⟨t, ht, h⟩ := Option.bind_eq_some_iff.mp hret
    split_ifs at h with hend
    cases h
    exact ⟨ho, t, ht, hend⟩
  · split_ifs at hret
    cases hret
  · obtain ⟨t, ht, h⟩ := Option.bind_eq_some_iff.mp hret
    split at h <;> cases h
  · cases hret

/-- Inside `cancel(id)` with an unfinished task, or back from it. -/
def Cancelling (e : Engine) (id : ℕ) : Prop :=
  e.owner = .idle ∨ ((e.owner = .cancelLoad id ∨ e.owner.cancelling = some id) ∧
    ∃ t, e.tasks id = some t ∧ t.state.terminal = false)

/-- The calls of the owner do not leave `cancel` for another call. -/
theorem step_in_cancel (hl : e.Inv H) (h : step a e = some e')
    (ho : e.owner = .cancelLoad id ∨ e.owner.cancelling = some id) :
    e'.owner = .idle ∨ e'.owner = .cancelLoad id ∨ e'.owner.cancelling = some id := by
  cases step_cases hl h with
  | call ho' he => rw [he.threads.1]; exact .inl ho'
  | enter ho' => rw [ho'] at ho; rcases ho with ho | ho <;> cases ho
  | owner hm =>
    cases hm with
    | cancelDone => exact .inl rfl
    | cancelLoad ho' =>
      rw [ho'] at ho
      rcases ho with ho | ho <;> cases ho
      exact .inr (.inr rfl)
    | retry ho' =>
      rw [ho'] at ho
      rcases ho with ho | ho <;> cases ho
      exact .inr (.inl rfl)
    | waitDone ho' | waitQueued ho' | waitCopy ho' | waitRunning ho' | lock ho' | again ho' | ended ho'
    | notYet ho' | sleep ho' | event ho' | eventError ho' =>
      rw [ho'] at ho
      rcases ho with ho | ho <;> cases ho
  | poll ho' => rw [ho'] at ho; rcases ho with ho | ho <;> cases ho
  | @flag unlinked t s ho' ht =>
    rw [ho'] at ho
    rcases ho with ho | ho <;> cases ho
    show (if s = .RUNNING then OwnerState.idle else .cancelDequeue t.id) = .idle ∨ _
    split_ifs
    · exact .inl rfl
    · exact .inr (.inr rfl)
  | dequeue ho' =>
    rw [ho'] at ho
    rcases ho with ho | ho <;> cases ho
    exact .inr (.inr rfl)
  | finalize ho' ht hstate he => exact .inl he.threads.1
  | notify hw =>
    have hwoken : e.woken = e.owner := by
      unfold woken
      split
      · rename_i h'
        rw [h'] at ho
        rcases ho with ho | ho <;> cases ho
      · rfl
    show e.woken = _ ∨ e.woken = _ ∨ e.woken.cancelling = _
    rw [hwoken]
    exact .inr ho
  | @device o => cases o <;> exact .inr ho
  | _ => exact .inr ho

theorem step_stays (hl : e.Inv H) (hb : e.owner ≠ .idle) (h : step a e = some e')
    (hc : e.Cancelling id) : e'.Cancelling id := by
  obtain ⟨ho, t, ht, hn⟩ := hc.resolve_left hb
  rcases step_in_cancel hl h ho with h' | ho'
  · exact .inl h'
  · obtain ⟨t', ht', -⟩ := step_task hl h ht
    refine .inr ⟨ho', t', ht', ?_⟩
    by_contra hend
    have hpolls : e.owner.polls = false := by
      rcases ho with ho | ho
      · rw [ho]; rfl
      · exact OwnerState.polls_cancelling ho
    rcases step_finish hl h ht ht' hn (Bool.not_eq_false _ ▸ hend) with h | ⟨-, h, -⟩
    · rw [hpolls] at h; cases h
    · rw [h] at ho'
      rcases ho' with ho' | ho' <;> cases ho'

/-- **Main result.** After `cancel` has returned true, the destination of the task never becomes
READY, and the task ends CANCELLED, or FAILED when its copy or I/O fails. `cancel` returns false only
for a task that had ended when it was called. -/
theorem cancel_final :
    (∀ e e' unlinked id, Transition.Reachable step (Start H) Any e →
      step (.owner unlinked) e = some e' → e.cancelReturns unlinked = some (id, true) →
      (∃ t, e.tasks id = some t ∧ ∀ t', e'.tasks id = some t' → t'.state.terminal = true →
        ∃ r, e'.directory.record t.key = some r ∧ r.replica t.destination = none) ∧
      ∀ e'', Transition.Reachable step (· = e') Any e'' → e''.Discarding id) ∧
    (∀ e₀ e₁ e unlinked id, Transition.Reachable step (Start H) Any e₀ →
      step (.cancel id) e₀ = some e₁ → Transition.Reachable step (· = e₁) Busy e →
      e.cancelReturns unlinked = some (id, false) →
      ∃ t, e₀.tasks id = some t ∧ t.state.terminal = true) := by
  refine ⟨fun e e' unlinked id hr hs hret => ?_, fun e₀ e₁ e unlinked id hr hs hrun hret => ?_⟩
  · have hl := reachable_inv hr
    obtain ⟨hf, t, ht, hn⟩ := cancelReturns_true hl (reachable_inside hr) hs hret
    refine ⟨⟨t, ht, fun t' ht' hend => hf.removed hl hs ht ht' hn hend⟩, fun e'' hr' => ?_⟩
    have hboth : e''.Inv H ∧ e''.Flagged id := by
      refine Reachable.invariant (I := fun e => e.Inv H ∧ e.Flagged id) hr' (fun e₂ h => ?_)
        fun _ a _ _ hi _ h => ⟨step_inv hi.1 a h, step_flagged hi.1 h hi.2⟩
      rw [h]
      exact ⟨step_inv hl _ hs, hf⟩
    exact hboth.2.discarding hboth.1
  · obtain ⟨ho, t, ht, hend⟩ := cancelReturns_false hret
    by_contra hnot
    have hl := reachable_inv hr
    have hl₁ := step_inv hl _ hs
    have hin : e₁.Cancelling id := by
      cases step_cases hl hs with
      | enter ho hsome hc =>
        rcases hc with ⟨h, -⟩ | ⟨h, rfl⟩
        · cases h
        cases h
        obtain ⟨t₀, ht₀⟩ := Option.isSome_iff_exists.mp hsome
        exact .inr ⟨.inl rfl, t₀, ht₀, Bool.eq_false_iff.mpr fun h => hnot ⟨t₀, ht₀, h⟩⟩
      | unknown ho => exact .inl ho
    have hboth : e.Inv H ∧ e.Cancelling id := by
      refine Reachable.invariant (I := fun e => e.Inv H ∧ e.Cancelling id) hrun (fun e₂ h => ?_)
        fun _ a _ _ hi hb h => ⟨step_inv hi.1 a h, step_stays hi.1 hb h hi.2⟩
      rw [h]
      exact ⟨hl₁, hin⟩
    rcases hboth.2 with h | ⟨-, s, hs, hn⟩
    · rw [ho] at h; cases h
    · rw [ht] at hs
      cases hs
      rw [hend] at hn
      cases hn

/-- A copy to the GPU that is cancelled and then fails. -/
def failRun : List Action :=
  [.call (.directory (.create (chunk 1))), .call (.provide (chunk 1) .CPU 1 [1, 2, 3, 4] .none),
    .call (.submit (chunk 1) .GPU 1 0 {}), .cancel 1, .owner true]

theorem cancel_fails : ∃ e e' e'', Transition.Reachable step (Start fun _ => 0) Any e ∧
    step (.owner true) e = some e' ∧ e.cancelReturns true = some (1, true) ∧
    Transition.Reachable step (· = e') Any e'' ∧ (e''.tasks 1).map Task.state = some .FAILED := by
  have hret : (run step failRun (small 1000 1)).bind (fun e => e.cancelReturns true) =
      some (1, true) := rfl
  obtain ⟨e, he, hret⟩ := Option.bind_eq_some_iff.mp hret
  have hend : ((run step failRun (small 1000 1)).bind fun e => (step (.owner true) e).bind fun e' =>
      run step [.device (.task 1) (.fail []), .call (.poll 1 true)] e').map
        (fun e => (e.tasks 1).map Task.state) = some (some .FAILED) := rfl
  rw [he, Option.bind_some] at hend
  obtain ⟨e'', hrun, hstate⟩ := Option.map_eq_some_iff.mp hend
  obtain ⟨e', hs, hrun⟩ := Option.bind_eq_some_iff.mp hrun
  exact ⟨e, e', e'', reachable_small one_ne_zero he, hs, hret,
    .run (.start rfl) (fun _ _ _ => trivial) hrun, hstate⟩

/-- A task that is cancelled twice: the first call returns true, and after the task has ended the
second one returns false. -/
theorem cancel_final_twice : ∃ e e' e₀ e₁,
    e.cancelReturns true = some (1, true) ∧ step (.owner true) e = some e' ∧
    run step [.device (.task 1) .land, .device (.task 1) .reach, .call (.poll 1 true)] e' = some e₀ ∧
    step (.cancel 1) e₀ = some e₁ ∧ e₁.cancelReturns true = some (1, false) ∧ e₀.Discarding 1 ∧
    (∃ t, e₀.tasks 1 = some t ∧ t.state.terminal = true) := by
  have hret : (run step failRun (small 1000 1)).bind (fun e => e.cancelReturns true) =
      some (1, true) := rfl
  obtain ⟨e, he, hret⟩ := Option.bind_eq_some_iff.mp hret
  have hend : (((run step failRun (small 1000 1)).bind fun e => (step (.owner true) e).bind fun e' =>
      (run step [.device (.task 1) .land, .device (.task 1) .reach, .call (.poll 1 true)] e').bind
        fun e₀ => step (.cancel 1) e₀)).bind (fun e₁ => e₁.cancelReturns true) =
          some (1, false) := rfl
  rw [he, Option.bind_some] at hend
  obtain ⟨e₁, h, hret'⟩ := Option.bind_eq_some_iff.mp hend
  obtain ⟨e', hs, h⟩ := Option.bind_eq_some_iff.mp h
  obtain ⟨e₀, hrun, hs₁⟩ := Option.bind_eq_some_iff.mp h
  have hr := @reachable_small e 1000 1 one_ne_zero _ he
  have hr₀ : Transition.Reachable step (Start fun _ => 0) Any e₀ :=
    .run (.step hr trivial hs) (fun _ _ _ => trivial) hrun
  refine ⟨e, e', e₀, e₁, hret, hs, hrun, hs₁, hret', ?_, ?_⟩
  · exact (cancel_final.1 e e' true 1 hr hs hret).2 e₀ (.run (.start rfl) (fun _ _ _ => trivial) hrun)
  · exact cancel_final.2 e₀ e₁ e₁ true 1 hr₀ hs₁ (.start rfl) hret'

end Engine

end KVFlux.V3
