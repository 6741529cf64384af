import KVFlux.V3.Migration.Lifecycle

/-!
# The discipline of the task queue

* `Unlinks`: the file in the way of a cancelled task can be deleted.
* `Listed`, `step_listed`: a QUEUED task is in the queue, or `cancel` has just taken it out.
* `LastRound`, `step_lastRound`: after a failed dequeue, `cancel` needs one more round.
* `Discipline`, **`queue_discipline`**: in runs where these files can be deleted, the queue holds the
  QUEUED tasks, I/O is done once by one worker, and nobody waits for a task that nobody can take.
* `cancel_spins`, `queue_broken`: when such a file cannot be deleted, the task is QUEUED for ever.
-/

namespace KVFlux.V3

open Fallible Transition

/-- The owner is in `wait`, at the condition variable. -/
def OwnerState.awaiting : OwnerState → Option ℕ
  | .waitLock id _ | .waitEval id _ | .waitSleep id _ | .asleep id _ => some id
  | _ => none

namespace Engine

/-- When `cancel` ends a task it has taken out of the queue, `unlink` does not fail. -/
def Unlinks (e : Engine) (a : Action) : Prop :=
  ∀ id t, e.owner = .cancelFinalize id → e.tasks id = some t → t.destination = .NVME →
    e.store.existsAt t.destinationLoc.slot = true → a ≠ .owner false

/-- A QUEUED task is in the queue, or `cancel` has just taken it out. -/
def Listed (e : Engine) : Prop :=
  ∀ id t, e.tasks id = some t → t.state = .QUEUED → id ∈ e.ioQueue ∨ e.owner = .cancelFinalize id

/-- The second round of `cancel(id)`, or the time after the call. -/
def LastRound (e : Engine) (id : ℕ) : Prop :=
  e.owner = .idle ∨ ((e.owner = .cancelLoad id ∨ e.owner = .cancelFlag id .RUNNING) ∧
    ∃ t, e.tasks id = some t ∧ t.state = .RUNNING)

structure Discipline (e : Engine) : Prop where
  /-- A task is QUEUED exactly while it is in the queue, once; between the two halves of `cancel` it
  is QUEUED and about to be cancelled. -/
  queued_iff : ∀ id t, e.tasks id = some t →
    (t.state = .QUEUED ∧ e.owner ≠ .cancelFinalize id ↔ e.ioQueue.count id = 1)
  one_worker : ∀ w w' id, (e.workers w).task = some id → (e.workers w').task = some id → w = w'
  /-- The I/O of a task is done once. -/
  io_once : ∀ w fault e' id, e.workers w = .started id → step (.io w fault) e = some e' →
    ∀ e'', Transition.Reachable step (· = e') Any e'' → ∀ v, e''.workers v ≠ .started id
  commit_once : ∀ w fault e' id p, e.workers w = .writing id p → step (.commit w fault) e = some e' →
    ∀ e'', Transition.Reachable step (· = e') Any e'' → ∀ v,
      e''.workers v ≠ .started id ∧ ∀ q, e''.workers v ≠ .writing id q
  forward : ∀ a e' id t, step a e = some e' → e.tasks id = some t →
    ∃ t', e'.tasks id = some t' ∧ t.state.Forward t'.state
  /-- After a retry `cancel` returns in its next round. -/
  retry : ∀ unlinked e' id, e.owner = .cancelDequeue id → step (.owner unlinked) e = some e' →
    e'.owner = .cancelLoad id →
    ∀ e'', Transition.Reachable step (· = e') (fun e _ => e.owner ≠ .idle) e'' → e''.LastRound id
  /-- A task that the owner waits for can be taken, or is in the hands of a worker, or is done. -/
  waits : ∀ id t, e.owner.awaiting = some id → e.tasks id = some t → t.usesCuda = false →
    (t.state = .QUEUED ∧ id ∈ e.ioQueue) ∨ (∃ w, (e.workers w).task = some id) ∨ t.ioResult ≠ 0 ∨
      t.state.terminal = true

variable {H : Tokens → UInt64} {e e' : Engine} {a : Action} {id : ℕ} {t t' : Task}

/-- The steps while `cancel` is about to end a task. -/
theorem step_cancelFinalize (hl : e.Inv H) (h : step a e = some e') (ha : Unlinks e a)
    (ho : e.owner = .cancelFinalize id) (ht : e.tasks id = some t) : e'.owner = .cancelFinalize id ∨
      ∃ t', e'.tasks id = some t' ∧ t'.state = .CANCELLED := by
  cases step_cases hl h with
  | call ho' => rw [ho] at ho'; cases ho'
  | enter ho' => rw [ho] at ho'; cases ho'
  | owner hm =>
    cases hm with
    | waitDone ho' | waitQueued ho' | waitCopy ho' | waitRunning ho' | lock ho' | again ho' | ended ho'
    | notYet ho' | sleep ho' | event ho' | eventError ho' | cancelDone ho' | cancelLoad ho'
    | retry ho' =>
      rw [ho] at ho'; cases ho'
  | poll ho' => rw [ho] at ho'; cases ho'
  | flag ho' => rw [ho] at ho'; cases ho'
  | dequeue ho' => rw [ho] at ho'; cases ho'
  | @finalize unlinked s ho' hs hstate =>
    rw [ho] at ho'
    cases ho'
    have hidle : Inv H { e with owner := .idle } := hl.setOwner nofun
    rcases finalizeCancelled_run hidle hs (by rw [hstate]; rfl) unlinked with
      ⟨rfl, hd, hx, -⟩ | ⟨d, store, r, hx, -⟩
    · exact absurd rfl (ha s.id s ho hs hd hx)
    · rw [hx]
      exact .inr ⟨_, Function.update_self _ _ _, rfl⟩
  | notify hw =>
    left
    show e.woken = _
    unfold woken
    rw [ho]
  | @device o => cases o <;> exact .inl ho
  | _ => exact .inl ho

theorem step_listed (hl : e.Inv H) (h : step a e = some e') (ha : Unlinks e a) (hi : e.Listed) :
    e'.Listed := by
  intro id t' ht' hq
  cases ht : e.tasks id with
  | none =>
    obtain ⟨rfl, hcr⟩ := step_created hl h ht ht'
    have hstate := hcr.state
    rw [hq] at hstate
    cases hc : t'.usesCuda with
    | true => rw [hc] at hstate; cases hstate
    | false => exact .inl (hcr.queued hc)
  | some t =>
    obtain ⟨s, hs, hstep⟩ := step_task hl h ht
    obtain rfl : s = t' := Option.some.inj (hs.symm.trans ht')
    have hforward := hstep.forward
    rw [hq] at hforward
    rcases hi id t ht hforward.queued with hmem | ho
    · rcases step_queue_keep hl h hmem with hmem | ⟨w, u, -, hu, hrun⟩ | ⟨-, ho⟩
      · exact .inl hmem
      · rw [ht'] at hu
        cases hu
        rw [hq] at hrun
        cases hrun
      · exact .inr ho
    · rcases step_cancelFinalize hl h ha ho ht with ho | ⟨u, hu, hstate⟩
      · exact .inr ho
      · rw [ht'] at hu
        cases hu
        rw [hq] at hstate
        cases hstate

/-- The owner in the last round of `cancel`. -/
theorem step_lastRound_owner (hl : e.Inv H) (h : step a e = some e')
    (ho : e.owner = .cancelLoad id ∨ e.owner = .cancelFlag id .RUNNING)
    (ht : e.tasks id = some t) (hrun : t.state = .RUNNING) : e'.owner = .idle ∨
      e'.owner = .cancelLoad id ∨ e'.owner = .cancelFlag id .RUNNING := by
  cases step_cases hl h with
  | call ho' he => rw [he.threads.1]; exact .inl ho'
  | enter ho' => rw [ho'] at ho; rcases ho with ho | ho <;> cases ho
  | owner hm =>
    cases hm with
    | cancelDone => exact .inl rfl
    | cancelLoad ho' ht' =>
      rw [ho'] at ho
      rcases ho with ho | ho <;> cases ho
      rw [ht] at ht'
      cases ht'
      exact .inr (.inr (by rw [hrun]))
    | retry ho' | waitDone ho' | waitQueued ho' | waitCopy ho' | waitRunning ho' | lock ho'
    | again ho' | ended ho' | notYet ho' | sleep ho' | event ho' | eventError ho' =>
      rw [ho'] at ho
      rcases ho with ho | ho <;> cases ho
  | poll ho' => rw [ho'] at ho; rcases ho with ho | ho <;> cases ho
  | flag ho' =>
    rw [ho'] at ho
    rcases ho with ho | ho <;> cases ho
    exact .inl rfl
  | dequeue ho' => rw [ho'] at ho; rcases ho with ho | ho <;> cases ho
  | finalize ho' => rw [ho'] at ho; rcases ho with ho | ho <;> cases ho
  | notify hw =>
    have hwoken : e.woken = e.owner := by
      unfold woken
      rcases ho with ho | ho <;> rw [ho]
    rw [← hwoken] at ho
    exact .inr ho
  | @device o => cases o <;> exact .inr ho
  | _ => exact .inr ho

/-- `cancel` stays in its last round until it returns. -/
theorem step_lastRound (hl : e.Inv H) (hb : e.owner ≠ .idle) (h : step a e = some e')
    (hi : e.LastRound id) : e'.LastRound id := by
  obtain ⟨ho, t, ht, hrun⟩ := hi.resolve_left hb
  rcases step_lastRound_owner hl h ho ht hrun with h' | ho'
  · exact .inl h'
  · obtain ⟨t', ht', hstep⟩ := step_task hl h ht
    refine .inr ⟨ho', t', ht', ?_⟩
    have hn : t.state.terminal = false := by rw [hrun]; rfl
    have hlive : t'.state.terminal = false := by
      by_contra hend
      rcases step_finish hl h ht ht' hn (Bool.not_eq_false _ ▸ hend) with h | ⟨h, -⟩
      · rcases ho with ho | ho <;> rw [ho] at h <;> cases h
      · rcases ho with ho | ho <;> rw [ho] at h <;> cases h
    have hforward := hstep.forward
    rw [hrun] at hforward
    generalize t'.state = s at hforward hlive
    cases hforward with
    | same => rfl
    | finish h => rw [h] at hlive; cases hlive

/-! ## The I/O of a task is done once -/

/-- The worker that holds a task is past the start of its I/O. -/
theorem begun_of_hand (hl : e.Inv H) (h : step a e = some e') {w : ℕ}
    (hw : (e.workers w).task = some id)
    (hw' : e'.workers w ≠ .taken id ∧ e'.workers w ≠ .started id) : e'.Begun id := by
  obtain ⟨-, t, ht, hrun, -⟩ := hl.queue.taken w id hw
  have hn : id ∉ e.ioQueue := by
    intro hq
    obtain ⟨s, hs, hstate, -⟩ := hl.queue.queued id hq
    rw [ht] at hs
    cases hs
    rw [hrun] at hstate
    cases hstate
  obtain ⟨t', ht', -⟩ := step_task hl h ht
  refine ⟨by rw [ht']; rfl, fun hq => ?_, fun v => ?_⟩
  · rcases step_queue hl h hq with hq | hnone
    · exact hn hq
    · rw [ht] at hnone; cases hnone
  · by_cases hv : v = w
    · rw [hv]; exact hw'
    have honly : (e.workers v).task ≠ some id := fun h => hv (hl.queue.taken_once v w id h hw)
    have hstep := step_worker hl h v
    generalize e'.workers v = s at hstep
    cases hstep with
    | same => exact ⟨fun h => honly (by rw [h]; rfl), fun h => honly (by rw [h]; rfl)⟩
    | take hi hlt hq => exact ⟨fun h => by cases h; exact hn hq, nofun⟩
    | start hs => exact ⟨nofun, fun h => by cases h; exact honly (by rw [hs]; rfl)⟩
    | _ => exact ⟨nofun, nofun⟩

theorem step_io_begun (hl : e.Inv H) {w : ℕ} {fault : ReadFault} (hw : e.workers w = .started id)
    (h : step (.io w fault) e = some e') : e'.Begun id := by
  refine begun_of_hand hl h (w := w) (by rw [hw]; rfl) ?_
  have hset : ∀ s : WorkerState, s ≠ .taken id → s ≠ .started id →
      Function.update e.workers w s w ≠ .taken id ∧ Function.update e.workers w s w ≠ .started id := by
    intro s h₁ h₂
    rw [Function.update_self]
    exact ⟨h₁, h₂⟩
  cases step_cases hl h with
  | refuse | accept | readError | read => exact hset _ nofun nofun
  | enter ho ht hs => rcases hs with ⟨h, -⟩ | ⟨h, -⟩ <;> cases h
  | unknown ho ht hs => rcases hs with h | h <;> cases h

theorem step_commit_written (hl : e.Inv H) {w : ℕ} {fault : WriteFault} {p : PendingWrite}
    (hw : e.workers w = .writing id p) (h : step (.commit w fault) e = some e') :
    e'.Written id := by
  have hfinished : ∃ r error, e'.workers w = .finished id r error := by
    cases step_cases hl h with
    | abort hw' => rw [hw] at hw'; cases hw'; exact ⟨_, _, Function.update_self _ _ _⟩
    | commit hw' => rw [hw] at hw'; cases hw'; exact ⟨_, _, Function.update_self _ _ _⟩
    | enter ho ht hs => rcases hs with ⟨h, -⟩ | ⟨h, -⟩ <;> cases h
    | unknown ho ht hs => rcases hs with h | h <;> cases h
  obtain ⟨r, error, hf⟩ := hfinished
  have htask : (e.workers w).task = some id := by rw [hw]; rfl
  refine ⟨begun_of_hand hl h htask (by rw [hf]; exact ⟨nofun, nofun⟩), fun v q hv => ?_⟩
  have hne : v ≠ w := by
    rintro rfl
    rw [hf] at hv
    cases hv
  have honly : (e.workers v).task ≠ some id := fun h => hne (hl.queue.taken_once v w id h htask)
  have hstep := step_worker hl h v
  rw [hv] at hstep
  generalize hs : WorkerState.writing id q = s at hstep
  cases hstep with
  | same => exact honly (by rw [← hs]; rfl)
  | write h => cases hs; exact honly (by rw [h]; rfl)
  | _ => cases hs

/-- `cancel` spins on a QUEUED task that is in no queue. -/
theorem cancel_spins (ho : e.owner = .cancelLoad id) (ht : e.tasks id = some t) (hid : t.id = id)
    (hs : t.state = .QUEUED) (hq : id ∉ e.ioQueue) (unlinked : Bool) :
    run step [.owner unlinked, .owner unlinked, .owner unlinked] e =
      some { e.setTask { t with cancelRequested := true } with owner := .cancelLoad id } := by
  subst hid
  simp [run, step, ownerStep, ho, ht, hs, setTask, hq, MigrationState.terminal]

/-- **Main result.** In runs where the file in the way of a cancelled task can be deleted, the queue
and the workers are disciplined in every reachable state. -/
theorem queue_discipline (hr : Transition.Reachable step (Start H) Unlinks e) : e.Discipline := by
  have hl := reachable_inv hr
  have hlisted : e.Listed := by
    refine hr.invariant (fun e h => ?_) fun e a e' hr hi ha hs => step_listed (reachable_inv hr) hs ha hi
    obtain ⟨ht, -⟩ := h.fresh
    intro id t h
    rw [ht] at h
    cases h
  have hhand := reachable_inHand hr
  have hcount : ∀ id, e.ioQueue.count id = 1 ↔ id ∈ e.ioQueue := by
    intro id
    constructor
    · intro h
      exact List.count_pos_iff.mp (by omega)
    · exact List.count_eq_one_of_mem hl.queue.nodup
  refine ⟨fun id t ht => ?_, hl.queue.taken_once, fun w fault e' id hw hs e'' hr' v => ?_,
    fun w fault e' id p hw hs e'' hr' v => ?_, fun a e' id t hs ht => ?_,
    fun unlinked e' id ho hs ho' e'' hr' => ?_, fun id t ho ht hc => ?_⟩
  · rw [hcount]
    constructor
    · rintro ⟨hq, hne⟩
      exact (hlisted id t ht hq).resolve_right hne
    · intro hq
      obtain ⟨s, hs, hstate, -⟩ := hl.queue.queued id hq
      rw [ht] at hs
      cases hs
      exact ⟨hstate, fun ho => (hl.queue.cancelling id ho).1 hq⟩
  · have hboth : e''.Inv H ∧ e''.Begun id := by
      refine Reachable.invariant (I := fun e => e.Inv H ∧ e.Begun id) hr' (fun e₂ h => ?_)
        fun _ a _ _ hi _ h => ⟨step_inv hi.1 a h, step_begun hi.1 h hi.2⟩
      rw [h]
      exact ⟨step_inv hl _ hs, step_io_begun hl hw hs⟩
    exact (hboth.2.2.2 v).2
  · have hboth : e''.Inv H ∧ e''.Written id := by
      refine Reachable.invariant (I := fun e => e.Inv H ∧ e.Written id) hr' (fun e₂ h => ?_)
        fun _ a _ _ hi _ h => ⟨step_inv hi.1 a h, step_written hi.1 h hi.2⟩
      rw [h]
      exact ⟨step_inv hl _ hs, step_commit_written hl hw hs⟩
    exact ⟨(hboth.2.1.2.2 v).2, hboth.2.2 v⟩
  · obtain ⟨t', ht', hstep⟩ := step_task hl hs ht
    exact ⟨t', ht', hstep.forward⟩
  · have hstart : e'.LastRound id := by
      obtain ⟨t, ht, hn⟩ := reachable_inside hr id (by rw [ho]; rfl)
      have hs : e.ownerStep unlinked = some e' := hs
      simp only [ownerStep, ho] at hs
      cases hs
      by_cases hq : id ∈ e.ioQueue
      · rw [if_pos hq] at ho'
        cases ho'
      · rw [if_neg hq]
        refine .inr ⟨.inl rfl, t, ht, ?_⟩
        cases hstate : t.state with
        | RUNNING => rfl
        | QUEUED =>
          rcases hlisted id t ht hstate with h | h
          · exact absurd h hq
          · rw [ho] at h; cases h
        | _ => rw [hstate] at hn; cases hn
    have hboth : e''.Inv H ∧ e''.LastRound id := by
      refine Reachable.invariant (I := fun e => e.Inv H ∧ e.LastRound id) hr' (fun e₂ h => ?_)
        fun _ a _ _ hi hb h => ⟨step_inv hi.1 a h, step_lastRound hi.1 hb h hi.2⟩
      rw [h]
      exact ⟨step_inv hl _ hs, hstart⟩
    exact hboth.2
  · cases hstate : t.state with
    | QUEUED =>
      refine .inl ⟨rfl, (hlisted id t ht hstate).resolve_right fun h => ?_⟩
      rw [h] at ho
      cases ho
    | RUNNING =>
      by_cases h0 : t.ioResult = 0
      · exact .inr (.inl (hhand.held id t ht hstate hc h0))
      · exact .inr (.inr (.inl h0))
    | _ => exact .inr (.inr (.inr rfl))

/-- A chunk whose file outlived its replica is on its way to the same slot again, and is cancelled. -/
def staleRun (unlinked : Bool) : List Action :=
  [.call (.directory (.create (chunk 1))), .call (.provide (chunk 1) .NVME 1 [1, 2, 3, 4] .none),
    .call (.directory (.remove (chunk 1) .NVME)), .call (.provide (chunk 1) .CPU 1 [1, 2, 3, 4] .none),
    .call (.submit (chunk 1) .NVME 1 0 {}), .cancel 1, .owner true, .owner true, .owner true,
    .owner unlinked]

theorem queue_discipline_stale : ∃ e, run step (staleRun true) (small 1000 1) = some e ∧
    (e.tasks 1).map Task.state = some .CANCELLED ∧ e.Discipline := by
  have hstate : (run step (staleRun true) (small 1000 1)).bind (fun e => (e.tasks 1).map Task.state) =
      some .CANCELLED := rfl
  obtain ⟨e, he, hs⟩ := Option.bind_eq_some_iff.mp hstate
  refine ⟨e, he, hs, queue_discipline (H := fun _ => 0) (.run
    (.start (small_start 1000 1 one_ne_zero)) (fun a ha e => ?_) he)⟩
  rintro id t - - - - rfl
  simp [staleRun] at ha

/-- The file cannot be deleted: the task is QUEUED and in no queue, and nobody is in `cancel`. -/
theorem queue_broken : ∃ e, Transition.Reachable step (Start fun _ => 0) Any e ∧
    e.owner = .idle ∧ e.ioQueue.count 1 = 0 ∧ (e.tasks 1).map Task.state = some .QUEUED := by
  have hrun : (run step (staleRun false) (small 1000 1)).map (fun e =>
      (e.owner, e.ioQueue.count 1, (e.tasks 1).map Task.state)) = some (.idle, 0, some .QUEUED) := rfl
  obtain ⟨e, he, hs⟩ := Option.map_eq_some_iff.mp hrun
  obtain ⟨ho, hs⟩ := Prod.mk.inj hs
  obtain ⟨hq, hs⟩ := Prod.mk.inj hs
  exact ⟨e, reachable_small one_ne_zero he, ho, hq, hs⟩

end Engine

end KVFlux.V3
