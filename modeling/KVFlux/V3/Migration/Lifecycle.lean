import KVFlux.V3.Migration.Exclusive

/-!
# The life of a task

* `TaskStep.forward`: states only move forward.
* `step_finish`: a task ends in a call of the owner that polls or cancels it.
* `Inside`, `step_inside`: `cancel` works on unfinished tasks.
* `InHand`, `step_inHand`: a running file task without a result is in the hands of a worker.
* `Begun`, `Written`, `step_begun`, `step_written`: **the I/O of a task begins once**.
-/

namespace KVFlux.V3

open Fallible Transition

/-- QUEUED -> RUNNING -> terminal, or QUEUED -> CANCELLED. -/
inductive MigrationState.Forward : MigrationState → MigrationState → Prop
  | same {s : MigrationState} : Forward s s
  | take : Forward .QUEUED .RUNNING
  | finish {s : MigrationState} (h : s.terminal = true) : Forward .RUNNING s
  | cancel : Forward .QUEUED .CANCELLED

theorem MigrationState.Forward.queued {s : MigrationState} (h : s.Forward .QUEUED) : s = .QUEUED := by
  generalize hs : MigrationState.QUEUED = s' at h
  cases h with
  | same => rfl
  | take => cases hs
  | finish h => subst hs; cases h
  | cancel => cases hs

/-- The task that a running `cancel` has found unfinished. -/
def OwnerState.cancelling : OwnerState → Option ℕ
  | .cancelFlag id _ | .cancelDequeue id | .cancelFinalize id => some id
  | _ => none

theorem Ends.terminal {d d' : CacheDirectory} {m : Move} {s : MigrationState}
    (h : Ends d d' m s) : s.terminal = true := by
  cases h with
  | completed => rfl
  | discarded hr hs => rcases hs with rfl | rfl <;> rfl

/-- A task that ends without being completed loses its destination. -/
theorem Ends.removed {d d' : CacheDirectory} {m : Move} {s : MigrationState} (h : Ends d d' m s)
    (hs : s ≠ .COMPLETED) (hne : m.source ≠ m.destination) :
    ∃ r, d'.record m.key = some r ∧ r.replica m.destination = none := by
  cases h with
  | completed => exact absurd rfl hs
  | @discarded r s hr hstate hd =>
    refine ⟨r.discarded m, by rw [hd.record', Function.update_self], ?_⟩
    simp [ChunkRecord.discarded, Ne.symm hne]

/-- A call, or the `poll` at the end of `wait`. -/
def OwnerState.polls : OwnerState → Bool
  | .idle | .waitPoll _ => true
  | _ => false

theorem OwnerState.polls_cancelling {s : OwnerState} {id : ℕ} (h : s.cancelling = some id) :
    s.polls = false := by
  cases s with
  | cancelFlag | cancelDequeue | cancelFinalize => rfl
  | _ => cases h

namespace Engine

variable {H : Tokens → UInt64} {e e' : Engine} {a : Action} {id w : ℕ} {t t' : Task}

/-- **States only move forward.** -/
theorem TaskStep.forward (h : TaskStep e e' t t') : t.state.Forward t'.state := by
  cases h with
  | same | flag | copy | result => exact .same
  | take hq hs => rw [hs]; exact .take
  | finish hn hd hend hcompleted hfailed hqueued =>
    rcases hend with ⟨hs, -⟩ | ⟨hs, -⟩
    · rw [hs]; exact .finish hd.terminal
    · show t.state.Forward _
      rw [hs, hqueued hs]; exact .cancel

/-- The states of the owner in which a task can end. -/
theorem step_finish (hl : e.Inv H) (h : step a e = some e') (ht : e.tasks id = some t)
    (ht' : e'.tasks id = some t') (hn : t.state.terminal = false) (hend : t'.state.terminal = true) :
    e.owner.polls = true ∨ (e.owner = .cancelFinalize id ∧ e'.owner = .idle ∧ t'.state = .CANCELLED) := by
  have hsame : ∀ {p : Prop}, e.tasks id = some t' → p := by
    intro p h
    obtain rfl : t = t' := Option.some.inj (ht.symm.trans h)
    rw [hn] at hend
    cases hend
  have hkeep : ∀ {s s' : Task}, e.tasks s.id = some s →
      Function.update e.tasks s.id (some s') id = some t' →
      (s'.state.terminal = true → s.state.terminal = true) → ∀ {p : Prop}, p := by
    intro s s' hs hu hterm p
    by_cases hi : id = s.id
    · rw [hi, Function.update_self] at hu
      rw [hi, hs] at ht
      cases hu
      cases ht
      rw [hterm hend] at hn
      cases hn
    · rw [Function.update_of_ne hi] at hu
      exact hsame hu
  cases step_cases hl h with
  | call ho he => rw [ho]; exact .inl rfl
  | poll ho he => rw [ho]; exact .inl rfl
  | @finalize unlinked s ho hs hstate he =>
    have hidle : Inv H { e with owner := .idle } := hl.setOwner nofun
    rcases finalizeCancelled_run hidle hs (by rw [hstate]; rfl) unlinked with ⟨-, -, -, err, hx⟩ |
      ⟨d, store, r, hx, -⟩
    · rw [hx] at ht'
      exact hsame ht'
    · rw [hx] at ht'
      have ht' : Function.update e.tasks s.id (some { s with state := .CANCELLED }) id =
        some t' := ht'
      by_cases hi : id = s.id
      · rw [hi, Function.update_self] at ht'
        cases ht'
        exact .inr ⟨hi ▸ ho, he.threads.1, rfl⟩
      · rw [Function.update_of_ne hi] at ht'
        exact hsame ht'
  | flag ho hs => exact hkeep hs ht' fun h => h
  | take hlt hw hfree hq hs => exact hkeep hs ht' fun h => by cases h
  | result hw hs => exact hkeep hs ht' fun h => h
  | @device o event m s s' b hm hs =>
    cases o with
    | transfer key => exact hsame ht'
    | task i =>
      obtain ⟨u, hu, -⟩ := copyState_task hs
      obtain ⟨rfl, -⟩ := hl.queue.task i u hu
      have hu' : (e.setMem m.destination m.destinationLoc.slot b).tasks u.id = some u := hu
      have ht' : Function.update e.tasks u.id
        (((e.setMem m.destination m.destinationLoc.slot b).tasks u.id).map
          fun t => { t with copy := s' }) id = some t' := ht'
      rw [hu', Option.map_some] at ht'
      exact hkeep hu ht' fun h => h
  | _ => exact hsame ht'

/-- `cancel` works on an unfinished task. -/
def Inside (e : Engine) : Prop :=
  ∀ id, e.owner.cancelling = some id → ∃ t, e.tasks id = some t ∧ t.state.terminal = false

/-- How a call of `cancel` gets to its task. -/
theorem step_cancelling (hl : e.Inv H) (h : step a e = some e')
    (hc : e'.owner.cancelling = some id) : e.owner.cancelling = some id ∨
      ∃ t, e.owner = .cancelLoad id ∧ e.tasks id = some t ∧ t.state.terminal = false := by
  cases step_cases hl h with
  | call ho he => rw [he.threads.1, ho] at hc; cases hc
  | enter ho ht hs => rcases hs with ⟨-, rfl⟩ | ⟨-, rfl⟩ <;> cases hc
  | owner hm =>
    cases hm with
    | cancelLoad ho ht hs => cases hc; exact .inr ⟨_, ho, ht, hs⟩
    | _ => cases hc
  | poll ho he => rw [he.threads.1] at hc; cases hc
  | @flag unlinked t s ho ht =>
    have hc : (if s = .RUNNING then OwnerState.idle else .cancelDequeue t.id).cancelling = some id := hc
    split_ifs at hc
    · cases hc
    · cases hc
      rw [ho]
      exact .inl rfl
  | dequeue ho hq =>
    cases hc
    rw [ho]
    exact .inl rfl
  | finalize ho ht hstate he => rw [he.threads.1] at hc; cases hc
  | notify hw =>
    have hc : e.woken.cancelling = some id := hc
    unfold woken at hc
    split at hc
    · cases hc
    · exact .inl hc
  | @device o => cases o <;> exact .inl hc
  | _ => exact .inl hc

/-- `cancel` keeps working on an unfinished task. -/
theorem step_inside (hl : e.Inv H) (h : step a e = some e') (hi : e.Inside) : e'.Inside := by
  intro id hc
  have hold : ∃ t, e.tasks id = some t ∧ t.state.terminal = false ∧
      (e.owner.cancelling = some id ∨ e.owner = .cancelLoad id) := by
    rcases step_cancelling hl h hc with hc | ⟨t, ho, ht, hn⟩
    · obtain ⟨t, ht, hn⟩ := hi id hc
      exact ⟨t, ht, hn, .inl hc⟩
    · exact ⟨t, ht, hn, .inr ho⟩
  obtain ⟨t, ht, hn, ho⟩ := hold
  have hpolls : e.owner.polls = false := by
    rcases ho with ho | ho
    · exact OwnerState.polls_cancelling ho
    · rw [ho]; rfl
  obtain ⟨t', ht', -⟩ := step_task hl h ht
  refine ⟨t', ht', ?_⟩
  by_contra hend
  rcases step_finish hl h ht ht' hn (Bool.not_eq_false _ ▸ hend) with h | ⟨-, h, -⟩
  · rw [hpolls] at h; cases h
  · rw [h] at hc; cases hc

theorem start_inside (h : Start H e) : e.Inside := by
  obtain ⟨-, -, -, -, -, -, ho⟩ := h.fresh
  intro id hc
  rw [ho] at hc
  cases hc

theorem reachable_inside {allowed : Engine → Action → Prop}
    (hr : Transition.Reachable step (Start H) allowed e) : e.Inside :=
  hr.invariant (fun _ => start_inside) fun _ _ _ hr hi _ hs => step_inside (reachable_inv hr) hs hi

/-! ## File tasks in hand -/

/-- A running file task without a result is in the hands of a worker, and a worker's result says
something. -/
structure InHand (e : Engine) : Prop where
  held : ∀ id t, e.tasks id = some t → t.state = .RUNNING → t.usesCuda = false → t.ioResult = 0 →
    ∃ w, (e.workers w).task = some id
  result : ∀ w id r error, e.workers w = .finished id r error → r ≠ 0

/-- A worker keeps its task until it stores a result. -/
theorem WorkerStep.task {s : WorkerState} (h : WorkerStep e w s)
    (ht : (e.workers w).task = some id) : s.task = some id ∨ s = .notifying := by
  cases h with
  | same => exact .inl ht
  | take h => rw [h] at ht; cases ht
  | skip h | start h | write h => rw [h] at ht; exact .inl ht
  | finish hr h =>
    rcases h with h | ⟨p, h⟩
    · rw [h] at ht; exact .inl ht
    · rw [h] at ht; exact .inl ht
  | store h => exact .inr rfl
  | notify h => rw [h] at ht; cases ht

theorem WorkerStep.result {s : WorkerState} {r : ℤ} {error : String} (h : WorkerStep e w s)
    (hs : s = .finished id r error) : r ≠ 0 ∨ e.workers w = .finished id r error := by
  cases h with
  | same => exact .inr hs
  | skip h => cases hs; exact .inl (by decide)
  | finish hr h => cases hs; exact .inl hr
  | _ => cases hs

/-- A worker that gives up its task has stored its result. -/
theorem step_stored (hl : e.Inv H) (h : step a e = some e') (hw : (e.workers w).task = some id)
    (hn : e'.workers w = .notifying) : ∃ (t : Task) (r : ℤ) (error error' : String),
      e.workers w = .finished id r error ∧ e'.tasks id = some { t with ioResult := r, error := error' } := by
  have hsame : ∀ {p : Prop}, e.workers w = .notifying → p := fun h => by rw [h] at hw; cases hw
  have hother : ∀ {v : ℕ} {s : WorkerState}, Function.update e.workers v s w = .notifying →
      s ≠ .notifying → ∀ {p : Prop}, p := by
    intro v s h hs p
    by_cases hv : w = v
    · rw [hv, Function.update_self] at h
      exact absurd h hs
    · rw [Function.update_of_ne hv] at h
      exact hsame h
  cases step_cases hl h with
  | call ho he => rw [he.threads.2.1] at hn; exact hsame hn
  | poll ho he => rw [he.threads.2.1] at hn; exact hsame hn
  | finalize ho ht hstate he => rw [he.threads.2.1] at hn; exact hsame hn
  | take | skip | start | refuse | accept | readError | read | abort | commit | notify =>
    exact hother hn nofun
  | @result v t r error error' hv ht =>
    have hn : Function.update e.workers v .notifying w = .notifying := hn
    by_cases hwv : w = v
    · subst hwv
      rw [hv] at hw
      cases hw
      exact ⟨t, r, error, error', hv, Function.update_self _ _ _⟩
    · rw [Function.update_of_ne hwv] at hn
      exact hsame hn
  | @device o => cases o <;> exact hsame hn
  | _ => exact hsame hn

theorem step_inHand (hl : e.Inv H) (h : step a e = some e') (hi : e.InHand) : e'.InHand := by
  refine ⟨fun id t' ht' hrun hc hres => ?_, fun w id r error hw => ?_⟩
  · cases ht : e.tasks id with
    | none =>
      obtain ⟨-, hcr⟩ := step_created hl h ht ht'
      have hq := hcr.state
      rw [hc, if_neg (by decide), hrun] at hq
      cases hq
    | some t =>
      have hkeep : t.state = .RUNNING → t.usesCuda = false → t.ioResult = 0 →
          ∃ w, (e'.workers w).task = some id := by
        intro h₁ h₂ h₃
        obtain ⟨w, hw⟩ := hi.held id t ht h₁ h₂ h₃
        rcases (step_worker hl h w).task hw with hw' | hw'
        · exact ⟨w, hw'⟩
        · obtain ⟨s, r, error, error', hf, hs⟩ := step_stored hl h hw hw'
          rw [ht'] at hs
          cases hs
          exact absurd hres (hi.result w _ _ _ hf)
      obtain ⟨s, hs, hstep⟩ := step_task hl h ht
      obtain rfl : s = t' := Option.some.inj (hs.symm.trans ht')
      cases hstep with
      | same | flag | copy => exact hkeep hrun hc hres
      | @take w hq hs hw =>
        obtain ⟨rfl, -⟩ := hl.queue.task id t ht
        exact ⟨w, by rw [hw]; rfl⟩
      | result r hs hc' hw hw' => exact absurd hres (hi.result _ _ _ _ hw)
      | @finish state error hn hd =>
        have hterm := hd.terminal
        rw [show state = .RUNNING from hrun] at hterm
        cases hterm
  · rcases (step_worker hl h w).result hw with hr | hw
    · exact hr
    · exact hi.result w id r error hw

theorem reachable_inHand {allowed : Engine → Action → Prop}
    (hr : Transition.Reachable step (Start H) allowed e) : e.InHand := by
  refine hr.invariant (fun e h => ?_) fun _ _ _ hr hi _ hs => step_inHand (reachable_inv hr) hs hi
  obtain ⟨ht, -, -, -, -, hw, -⟩ := h.fresh
  refine ⟨fun id t h => ?_, fun w id r error h => ?_⟩
  · rw [ht] at h; cases h
  · rw [hw] at h; cases h

/-! ## The I/O of a task begins once -/

/-- The task has been taken, and the worker has looked at its flag. -/
def Begun (e : Engine) (id : ℕ) : Prop :=
  (e.tasks id).isSome ∧ id ∉ e.ioQueue ∧ ∀ w, e.workers w ≠ .taken id ∧ e.workers w ≠ .started id

/-- The write of the task, if it has one, is over. -/
def Written (e : Engine) (id : ℕ) : Prop := e.Begun id ∧ ∀ w p, e.workers w ≠ .writing id p

theorem WorkerStep.begun {s : WorkerState} (h : WorkerStep e w s) (hb : e.Begun id) :
    s ≠ .taken id ∧ s ≠ .started id := by
  obtain ⟨-, hq, hw⟩ := hb
  cases h with
  | same => exact hw w
  | take h hlt hq' => exact ⟨fun hs => by cases hs; exact hq hq', nofun⟩
  | start h => exact ⟨nofun, fun hs => by cases hs; exact (hw w).1 h⟩
  | _ => exact ⟨nofun, nofun⟩

/-- **No worker begins it again.** -/
theorem step_begun (hl : e.Inv H) (h : step a e = some e') (hb : e.Begun id) : e'.Begun id := by
  obtain ⟨t, ht⟩ := Option.isSome_iff_exists.mp hb.1
  obtain ⟨t', ht', -⟩ := step_task hl h ht
  refine ⟨by rw [ht']; rfl, fun hq => ?_, fun w => (step_worker hl h w).begun hb⟩
  rcases step_queue hl h hq with hq | hn
  · exact hb.2.1 hq
  · rw [ht] at hn; cases hn

theorem step_written (hl : e.Inv H) (h : step a e = some e') (hb : e.Written id) :
    e'.Written id := by
  refine ⟨step_begun hl h hb.1, fun w p hw => ?_⟩
  have hstep := step_worker hl h w
  rw [hw] at hstep
  generalize hs : WorkerState.writing id p = s at hstep
  cases hstep with
  | same => exact hb.2 w p hs.symm
  | write h => cases hs; exact (hb.1.2.2 w).2 h
  | _ => cases hs

end Engine

end KVFlux.V3
