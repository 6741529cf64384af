import KVFlux.V3.Migration.Exclusive

/-!
# Wakeups of the waiting owner

A worker stores `io_result` without the lock and then notifies. The owner evaluates its predicate and
falls asleep under the lock. When the worker stores and notifies between the two, the owner sleeps on.

* `Lost`: the owner sleeps although the result is there and nobody is about to notify.
* `Early`: a notification that comes before the owner sleeps, although the owner needs it.
* **`no_lost_wakeup`**: a run without early notifications loses no wakeup.
* `early_loses`: after an early notification the owner falls asleep for good.
* `lost_wakeup`: a run that loses one.
-/

namespace KVFlux.V3

open Fallible Transition

/-- The task on which the owner has found its predicate false. -/
def OwnerState.sleeper : OwnerState → Option ℕ
  | .waitSleep id _ => some id
  | .asleep id _ => some id
  | _ => none

namespace Engine

/-- The owner is asleep in `wait(id)`, the task has its result, and no worker still notifies. -/
def Lost (e : Engine) : Prop :=
  ∃ id queued t, e.owner = .asleep id queued ∧ e.tasks id = some t ∧ t.ioResult ≠ 0 ∧
    ∀ w, e.workers w ≠ .notifying

/-- The owner has found its predicate false and does not sleep yet, the task has its result by now,
and the worker `w` is the last one that notifies. -/
def Early (e : Engine) (w : ℕ) : Prop :=
  ∃ id queued t, e.owner = .waitSleep id queued ∧ e.tasks id = some t ∧ t.ioResult ≠ 0 ∧
    ∀ v, v ≠ w → e.workers v ≠ .notifying

/-- No early notification. -/
def InTime (e : Engine) (a : Action) : Prop := ∀ w, a = .notify w → ¬ e.Early w

/-- While the owner sleeps, or is about to, a task with a result has a worker that notifies. -/
def Awaited (e : Engine) : Prop :=
  ∀ id t, e.owner.sleeper = some id → e.tasks id = some t → t.ioResult ≠ 0 →
    ∃ w, e.workers w = .notifying

variable {H : Tokens → UInt64} {e e' : Engine} {a : Action} {id w : ℕ}

/-- A step that keeps the results and lets no worker stop notifying. -/
theorem Awaited.keep (h : e.Awaited) (howner : ∀ id, e'.owner.sleeper = some id →
      e.owner.sleeper = some id)
    (hresult : ∀ id t', e'.tasks id = some t' → t'.ioResult ≠ 0 →
      ∃ t, e.tasks id = some t ∧ t.ioResult ≠ 0)
    (hworkers : ∀ w, e.workers w = .notifying → e'.workers w = .notifying) : e'.Awaited := by
  intro id t' ho ht' hr
  obtain ⟨t, ht, hr⟩ := hresult id t' ht' hr
  obtain ⟨w, hw⟩ := h id t (howner id ho) ht hr
  exact ⟨w, hworkers w hw⟩

/-- A step of a worker that does not notify. -/
theorem Awaited.setWorker (h : e.Awaited) {s : WorkerState} (hw : e.workers w ≠ .notifying)
    (howner : e'.owner = e.owner) (htasks : e'.tasks = e.tasks)
    (hworkers : e'.workers = Function.update e.workers w s) : e'.Awaited := by
  refine h.keep (fun id ho => howner ▸ ho) (fun id t ht hr => ⟨t, htasks ▸ ht, hr⟩) fun v hv => ?_
  have hne : v ≠ w := by
    rintro rfl
    exact hw hv
  rw [hworkers, Function.update_of_ne hne, hv]

/-- A new version of a task with the same result. -/
theorem result_update {s s' u : Task} (hs : e.tasks s.id = some s)
    (hu : Function.update e.tasks s.id (some s') id = some u) (hr : s'.ioResult = s.ioResult)
    (h0 : u.ioResult ≠ 0) :
    ∃ t, e.tasks id = some t ∧ t.ioResult ≠ 0 := by
  by_cases hi : id = s.id
  · rw [hi, Function.update_self] at hu
    obtain rfl : s' = u := Option.some.inj hu
    exact ⟨s, by rw [hi, hs], hr ▸ h0⟩
  · rw [Function.update_of_ne hi] at hu
    exact ⟨u, hu, h0⟩

/-- An owner that does not sleep needs no worker. -/
theorem Awaited.of_awake (h : e.owner.sleeper = none) : e.Awaited := by
  intro id t ho
  rw [h] at ho
  cases ho

/-- The steps of the owner inside `wait` and `cancel`. -/
theorem OwnerMove.awaited {s : OwnerState} (h : e.Awaited) (hm : OwnerMove e s) :
    Awaited { e with owner := s } := by
  cases hm with
  | @notYet id queued t ho ht ha =>
    intro i s hs hi hr
    cases hs
    obtain rfl : t = s := Option.some.inj (ht.symm.trans hi)
    -- the predicate was false: there is no result
    unfold Task.awaited at ha
    simp only [decide_eq_false_iff_not, not_or, ne_eq, not_not] at ha
    exact absurd ha.1 hr
  | @sleep id queued ho =>
    intro i t hs hi hr
    cases hs
    exact h _ t (by rw [ho]; rfl) hi hr
  | _ => exact .of_awake rfl

theorem woken_sleeper {e : Engine} {id : ℕ} (h : e.woken.sleeper = some id) :
    ∃ queued, e.owner = .waitSleep id queued := by
  unfold woken at h
  cases ho : e.owner with
  | waitSleep i queued =>
    rw [ho] at h
    cases h
    exact ⟨queued, rfl⟩
  | _ => rw [ho] at h; cases h

/-- **A step that notifies in time keeps the waiting owner awaited.** -/
theorem step_awaited (hl : e.Inv H) (h : e.Awaited) (ha : InTime e a)
    (hstep : step a e = some e') : e'.Awaited := by
  cases step_cases hl hstep with
  | call ho he => exact .of_awake (by rw [he.threads.1, ho]; rfl)
  | enter ho ht hs => rcases hs with ⟨-, rfl⟩ | ⟨-, rfl⟩ <;> exact .of_awake rfl
  | unknown ho => exact h
  | owner hm => exact hm.awaited h
  | poll ho he => exact .of_awake (by rw [he.threads.1]; rfl)
  | flag ho ht => exact .of_awake (by show OwnerState.sleeper (ite _ _ _) = _; split_ifs <;> rfl)
  | dequeue ho hq => exact .of_awake rfl
  | finalize ho ht hstate he => exact .of_awake (by rw [he.threads.1]; rfl)
  | @take w t hlt hw hfree hq ht =>
    refine h.keep (fun _ ho => ho) (fun id u hu h0 => ?_) fun v hv => ?_
    · have hu : Function.update e.tasks t.id (some { t with state := .RUNNING }) id = some u := hu
      exact result_update ht hu rfl h0
    have hne : v ≠ w := by
      rintro rfl
      rw [hw] at hv
      cases hv
    exact (Function.update_of_ne hne _ _).trans hv
  | skip hw ht hc => exact h.setWorker (by rw [hw]; nofun) rfl rfl rfl
  | start hw ht hc => exact h.setWorker (by rw [hw]; nofun) rfl rfl rfl
  | refuse hw ht hd => exact h.setWorker (by rw [hw]; nofun) rfl rfl rfl
  | accept hw ht hd hp => exact h.setWorker (by rw [hw]; nofun) rfl rfl rfl
  | readError hw ht hd hlen => exact h.setWorker (by rw [hw]; nofun) rfl rfl rfl
  | read hw ht hd hlen himage => exact h.setWorker (by rw [hw]; nofun) rfl rfl rfl
  | abort hw ht hs => exact h.setWorker (by rw [hw]; nofun) rfl rfl rfl
  | commit hw ht hs => exact h.setWorker (by rw [hw]; nofun) rfl rfl rfl
  | @result w t r error error' hw ht =>
    exact fun _ _ _ _ _ => ⟨w, Function.update_self _ _ _⟩
  | @notify w hw =>
    intro id t ho ht hr
    obtain ⟨queued, ho⟩ := woken_sleeper ho
    -- the notification is in time: another worker notifies too
    by_contra hnone
    refine ha w rfl ⟨id, queued, t, ho, ht, hr, fun v hne hv => hnone ⟨v, ?_⟩⟩
    exact (Function.update_of_ne hne _ _).trans hv
  | @device o event m s s' b hm hs =>
    cases o with
    | transfer key => exact h.keep (fun _ ho => ho) (fun id t ht hr => ⟨t, ht, hr⟩) fun _ hv => hv
    | task i =>
      obtain ⟨u, hu, -⟩ := copyState_task hs
      obtain ⟨rfl, -⟩ := hl.queue.task i u hu
      refine h.keep (fun _ ho => ho) (fun id t ht h0 => ?_) fun _ hv => hv
      have hu' : (e.setMem m.destination m.destinationLoc.slot b).tasks u.id = some u := hu
      have ht : Function.update e.tasks u.id
        (((e.setMem m.destination m.destinationLoc.slot b).tasks u.id).map
          fun t => { t with copy := s' }) id = some t := ht
      rw [hu', Option.map_some] at ht
      exact result_update hu ht rfl h0
  | scribble hb => exact h

/-- **Main result.** A run without early notifications loses no wakeup. -/
theorem no_lost_wakeup (hr : Transition.Reachable step (Start H) InTime e) : ¬ e.Lost := by
  have hl := reachable_inv hr
  have hawaited : e.Awaited := by
    refine hr.invariant (fun e h => .of_awake ?_) fun e a e' hr h ha hs =>
      step_awaited (reachable_inv hr) h ha hs
    obtain ⟨-, -, -, -, -, -, ho⟩ := h.fresh
    rw [ho]
    rfl
  rintro ⟨id, queued, t, ho, ht, h0, hw⟩
  obtain ⟨w, hn⟩ := hawaited id t (by rw [ho]; rfl) ht h0
  exact hw w hn

/-- Every early notification loses the wakeup: the owner falls asleep with nobody left to notify. -/
theorem early_loses (h : e.Early w) (hs : step (.notify w) e = some e') :
    ∃ e'', step (.owner true) e' = some e'' ∧ e''.Lost := by
  obtain ⟨id, queued, t, ho, ht, h0, hlast⟩ := h
  obtain ⟨hw, -⟩ := notify_cases hs
  simp only [step, notify, hw, ho] at hs
  cases hs
  refine ⟨{ e.setWorker w .idle with owner := .asleep id queued }, rfl, id, queued, t, rfl, ht, h0,
    fun v hv => ?_⟩
  have hv : Function.update e.workers w .idle v = .notifying := hv
  by_cases hvw : v = w
  · rw [hvw, Function.update_self] at hv
    cases hv
  · rw [Function.update_of_ne hvw] at hv
    exact hlast v hvw hv

/-- A worker serves a file task while the owner is about to sleep on it. -/
def lostRun : List Action :=
  [.call (.directory (.create (chunk 1))), .call (.provide (chunk 1) .CPU 1 [1, 2, 3, 4] .none),
    .call (.submit (chunk 1) .NVME 1 0 {}), .take 0, .wait 1, .owner true, .owner true, .owner true,
    .checkCancel 0, .io 0 .none, .commit 0 .none, .storeResult 0, .notify 0, .owner true]

/-- The wakeup of a finished write is lost. -/
theorem lost_wakeup : ∃ e, Transition.Reachable step (Start fun _ => 0) Any e ∧ e.Lost := by
  have hrun : (run step lostRun (small 1000 1)).isSome = true := rfl
  refine ⟨(run step lostRun (small 1000 1)).get hrun,
    reachable_small one_ne_zero (Option.some_get hrun).symm, 1, false, _, rfl, rfl, ?_, fun w => ?_⟩
  · decide
  · rcases w with _ | w
    · nofun
    · nofun

/-- The owner is asleep before the worker has its result. -/
def asleepRun : List Action := lostRun.take 8 ++ .owner true :: (lostRun.drop 8).take 4

theorem no_lost_wakeup_asleep : ∃ e e', run step asleepRun (small 1000 1) = some e ∧
    step (.notify 0) e = some e' ∧ e'.owner = .waitLock 1 false ∧ ¬ e'.Lost := by
  have howner : (run step asleepRun (small 1000 1)).map Engine.owner = some (.asleep 1 false) := rfl
  obtain ⟨e, he, ho⟩ := Option.map_eq_some_iff.mp howner
  have hwoken : ((run step asleepRun (small 1000 1)).bind (step (.notify 0))).map Engine.owner =
      some (.waitLock 1 false) := rfl
  rw [he, Option.bind_some] at hwoken
  obtain ⟨e', hs, ho'⟩ := Option.map_eq_some_iff.mp hwoken
  refine ⟨e, e', he, hs, ho', no_lost_wakeup (H := fun _ => 0) (.step (.run
    (.start (small_start 1000 1 one_ne_zero)) (fun a ha e w hw => ?_) he) (fun w hw => ?_) hs)⟩
  · subst hw
    simp [asleepRun, lostRun] at ha
  · rintro ⟨id, queued, t, hsleep, -⟩
    rw [ho] at hsleep
    cases hsleep

end Engine

end KVFlux.V3
