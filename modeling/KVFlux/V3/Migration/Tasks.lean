import KVFlux.V3.Migration.Cases

/-!
# What a step does to a task

* `Ends`, `TaskStep`: the changes of one task, with the change of its record when it ends.
* `WorkerStep`: the changes of one worker.
* **`step_task`**, `step_created`, `step_queue`, `step_worker`: every step is made of these.
-/

namespace KVFlux.V3

open Fallible ChunkRecord Transition

/-- The move of a task is over: its pin is gone, its source is READY, and its destination is READY
or has gone back to its tier. Other chunks are as they were. -/
inductive Ends (d d' : CacheDirectory) (m : Move) : MigrationState → Prop
  | completed {r : ChunkRecord} (hr : d.record m.key = some r)
      (hr' : d'.record = Function.update d.record m.key (some (r.completed m))) :
      Ends d d' m .COMPLETED
  | discarded {r : ChunkRecord} {state : MigrationState} (hr : d.record m.key = some r)
      (hstate : state = .FAILED ∨ state = .CANCELLED) (hd : Discards d d' m r) :
      Ends d d' m state

namespace Engine

/-- The changes of one task. -/
inductive TaskStep (e e' : Engine) (t : Task) : Task → Prop
  | same : TaskStep e e' t t
  | flag : TaskStep e e' t { t with cancelRequested := true }
  | take {w : ℕ} (hq : t.id ∈ e.ioQueue) (hs : t.state = .QUEUED) (hw : e'.workers w = .taken t.id) :
      TaskStep e e' t { t with state := .RUNNING }
  | copy (s : CopyState) (hs : t.state.terminal = false) (hc : t.usesCuda = true) :
      TaskStep e e' t { t with copy := s }
  | result {w : ℕ} {error error' : String} (r : ℤ) (hs : t.state = .RUNNING) (hc : t.usesCuda = false)
      (hw : e.workers w = .finished t.id r error) (hw' : e'.workers w = .notifying) :
      TaskStep e e' t { t with ioResult := r, error := error' }
  | finish {state : MigrationState} {error : String} (hn : t.state.terminal = false)
      (hd : Ends e.directory e'.directory t.move state)
      (hend : (t.state = .RUNNING ∧ t.Ended) ∨ (t.state = .QUEUED ∧ t.id ∉ e.ioQueue))
      (hcompleted : state = .COMPLETED → t.state = .RUNNING ∧ t.cancelRequested = false)
      (hfailed : state = .FAILED → t.Failed)
      (hqueued : t.state = .QUEUED → state = .CANCELLED) :
      TaskStep e e' t { t with state := state, error := error }

/-- The changes of one worker. -/
inductive WorkerStep (e : Engine) (w : ℕ) : WorkerState → Prop
  | same : WorkerStep e w (e.workers w)
  | take {id : ℕ} (h : e.workers w = .idle) (hw : w < e.ioThreads) (hq : id ∈ e.ioQueue) :
      WorkerStep e w (.taken id)
  | skip {id : ℕ} (h : e.workers w = .taken id) : WorkerStep e w (.finished id 1 "")
  | start {id : ℕ} (h : e.workers w = .taken id) : WorkerStep e w (.started id)
  | write {id : ℕ} {p : PendingWrite} (h : e.workers w = .started id) : WorkerStep e w (.writing id p)
  | finish {id : ℕ} {r : ℤ} {error : String} (hr : r ≠ 0)
      (h : e.workers w = .started id ∨ ∃ p, e.workers w = .writing id p) :
      WorkerStep e w (.finished id r error)
  | store {id : ℕ} {r : ℤ} {error : String} (h : e.workers w = .finished id r error) :
      WorkerStep e w .notifying
  | notify (h : e.workers w = .notifying) : WorkerStep e w .idle

variable {H : Tokens → UInt64} {e e' : Engine} {a : Action} {c : Option ClientCall} {id w : ℕ}
  {t t' : Task}

/-! ## The calls of the owner -/

/-- A call leaves the owner, the workers and their number alone. -/
theorem Effect.threads (he : Effect H c e e') :
    e'.owner = e.owner ∧ e'.workers = e.workers ∧ e'.ioThreads = e.ioThreads := by
  cases he <;> exact ⟨rfl, rfl, rfl⟩

/-- One task changes, the others stay. -/
theorem TaskStep.update {s s' : Task} (h : TaskStep e e' s s')
    (hs : e.tasks s.id = some s) (htasks : e'.tasks = Function.update e.tasks s.id (some s'))
    (ht : e.tasks id = some t) : ∃ t', e'.tasks id = some t' ∧ TaskStep e e' t t' := by
  rw [htasks]
  by_cases hi : id = s.id
  · rw [hi, hs] at ht
    obtain rfl : s = t := Option.some.inj ht
    exact ⟨s', by rw [hi, Function.update_self], h⟩
  · exact ⟨t, (Function.update_of_ne hi _ _).trans ht, .same⟩

theorem TaskStep.same_id (h : TaskStep e e' t t') : t'.id = t.id := by
  cases h <;> rfl

theorem TaskStep.move (h : TaskStep e e' t t') : t'.move = t.move := by
  cases h <;> rfl

theorem TaskStep.of_owner {s : OwnerState} (h : TaskStep { e with owner := s } e' t t') :
    TaskStep e e' t t' := by
  cases h with
  | same => exact .same
  | flag => exact .flag
  | take hq hs hw => exact .take hq hs hw
  | copy s hs hc => exact .copy s hs hc
  | result r hs hc hw hw' => exact .result r hs hc hw hw'
  | finish hn hd hend hcompleted hfailed hqueued =>
    exact .finish hn hd hend hcompleted hfailed hqueued

/-- **A call ends a task or leaves it alone.** -/
theorem Effect.task (hl : e.Inv H) (he : Effect H c e e') (ht : e.tasks id = some t) :
    ∃ t', e'.tasks id = some t' ∧ TaskStep e e' t t' := by
  obtain ⟨rfl, hid, -⟩ := hl.queue.task id t ht
  cases he with
  | quiet | client | provide | abandon | beginTransfer | finishTransfer | nvme =>
    exact ⟨t, ht, .same⟩
  | @submit d s r r' validTokens hi hb hnew =>
    have hne : t.id ≠ s.id := by omega
    exact ⟨t, (Function.update_of_ne hne _ _).trans ht, .same⟩
  | @complete d s r hs hrun hend harrived hi hr hr' =>
    exact TaskStep.update (.finish (by rw [hrun]; rfl) (.completed hr hr') (.inl ⟨hrun, hend⟩)
      (fun _ => ⟨hrun, harrived.1⟩) nofun fun hq => by rw [hrun] at hq; cases hq) hs rfl ht
  | @discard d store s state error r hs hstate hend hi hr hd hst hwhy =>
    refine TaskStep.update (.finish ?_ (.discarded hr hstate hd) ?_ ?_ (fun h => (hwhy h).2) ?_)
      hs rfl ht
    · rcases hend with ⟨h, -⟩ | ⟨h, -⟩ <;> rw [h] <;> rfl
    · rcases hend with hend | ⟨hq, -, hn⟩
      · exact .inl hend
      · exact .inr ⟨hq, hn⟩
    · rintro rfl
      rcases hstate with h | h <;> cases h
    · intro hq
      rcases hstate with rfl | h
      · -- a task that fails was running
        have hrun := (hwhy rfl).1
        rw [hrun] at hq
        cases hq
      · exact h

/-- A task that `submit` has registered. -/
structure Created (e e' : Engine) (t : Task) : Prop where
  id_eq : t.id = e.nextId
  state : t.state = if t.usesCuda then .RUNNING else .QUEUED
  queued : t.usesCuda = false → t.id ∈ e'.ioQueue
  result : t.ioResult = 0
  copy : t.copy = .running
  cancel : t.cancelRequested = false

theorem Effect.created (he : Effect H c e e') (hn : e.tasks id = none)
    (ht : e'.tasks id = some t) : t.id = id ∧ Created e e' t := by
  have hother : ∀ {s : Task} {s' : Option Task}, Function.update e.tasks s.id s' id = some t →
      id = s.id := by
    intro s s' h
    by_contra hne
    rw [Function.update_of_ne hne, hn] at h
    cases h
  cases he with
  | quiet | client | provide | abandon | beginTransfer | finishTransfer | nvme =>
    rw [hn] at ht; cases ht
  | @submit d s r r' validTokens hi hb hid hdirect hmeta hresult hcopy hcancel hstate =>
    obtain rfl := hother ht
    have ht : Function.update e.tasks s.id (some s) s.id = some t := ht
    rw [Function.update_self] at ht
    obtain rfl : s = t := Option.some.inj ht
    refine ⟨rfl, hid, hstate, fun hc => ?_, hresult, hcopy, hcancel⟩
    show s.id ∈ if s.usesCuda then e.ioQueue else e.ioQueue ++ [s.id]
    rw [hc]
    exact List.mem_append_right _ (List.mem_singleton_self _)
  | @complete d s r hs =>
    obtain rfl := hother ht
    rw [hn] at hs; cases hs
  | @discard d store s state error r hs =>
    obtain rfl := hother ht
    rw [hn] at hs; cases hs

theorem Effect.queue (he : Effect H c e e') (hl : e.Inv H) (hq : id ∈ e'.ioQueue) :
    id ∈ e.ioQueue ∨ e.tasks id = none := by
  cases he with
  | quiet | client | provide | abandon | beginTransfer | finishTransfer | nvme | complete | discard =>
    exact .inl hq
  | @submit d s r r' validTokens hi hb hid =>
    have hq : id ∈ if s.usesCuda then e.ioQueue else e.ioQueue ++ [s.id] := hq
    split at hq
    · exact .inl hq
    · rcases List.mem_append.mp hq with hq | hq
      · exact .inl hq
      · right
        obtain rfl := List.mem_singleton.mp hq
        by_contra hne
        obtain ⟨t, ht⟩ := Option.ne_none_iff_exists'.mp hne
        have := (hl.queue.task _ t ht).2.1
        omega

theorem Effect.queue_keep (he : Effect H c e e') (hq : id ∈ e.ioQueue) : id ∈ e'.ioQueue := by
  cases he with
  | quiet | client | provide | abandon | beginTransfer | finishTransfer | nvme | complete | discard =>
    exact hq
  | @submit d s =>
    show id ∈ if s.usesCuda then e.ioQueue else e.ioQueue ++ [s.id]
    split
    · exact hq
    · exact List.mem_append_left _ hq

/-! ## The steps -/

/-- **Every step changes a task in one of these ways.** -/
theorem step_task (hl : e.Inv H) (h : step a e = some e') (ht : e.tasks id = some t) :
    ∃ t', e'.tasks id = some t' ∧ TaskStep e e' t t' := by
  have hidle : Inv H { e with owner := .idle } := hl.setOwner nofun
  have hend : Effect H none { e with owner := .idle } e' →
      ∃ t', e'.tasks id = some t' ∧ TaskStep e e' t t' := by
    intro he
    obtain ⟨t', ht', hstep⟩ := he.task hidle ht
    exact ⟨t', ht', hstep.of_owner⟩
  cases step_cases hl h with
  | call ho he => exact he.task hl ht
  | poll ho he => exact hend he
  | finalize ho hs hstate he => exact hend he
  | flag ho hs => exact TaskStep.update .flag hs rfl ht
  | take hlt hw hfree hq hs hstate hc =>
    exact TaskStep.update (.take hq hstate (Function.update_self _ _ _)) hs rfl ht
  | @result w s r error error' hw hs =>
    obtain ⟨-, s', hs', hrun, hc, -⟩ := hl.queue.taken w s.id (by rw [hw]; rfl)
    obtain rfl : s = s' := Option.some.inj (hs.symm.trans hs')
    exact TaskStep.update (.result r hrun hc hw (Function.update_self _ _ _)) hs rfl ht
  | @device o event m s s' b hm hs =>
    cases o with
    | transfer key => exact ⟨t, ht, .same⟩
    | task i =>
      obtain ⟨u, hu, hn, hc, -⟩ := copyState_task hs
      obtain ⟨rfl, -⟩ := hl.queue.task i u hu
      refine TaskStep.update (.copy s' hn hc) hu ?_ ht
      have hu' : (e.setMem m.destination m.destinationLoc.slot b).tasks u.id = some u := hu
      show Function.update e.tasks u.id _ = _
      rw [hu']
      rfl
  | _ => exact ⟨t, ht, .same⟩

/-- No step but a call makes a task. -/
theorem update_none {s : Task} {s' : Option Task} (hs : e.tasks s.id = some s)
    (hn : e.tasks id = none) : Function.update e.tasks s.id s' id = none := by
  have hne : id ≠ s.id := by
    rintro rfl
    rw [hs] at hn
    cases hn
  rw [Function.update_of_ne hne, hn]

/-- **A new task comes from `submit`.** -/
theorem step_created (hl : e.Inv H) (h : step a e = some e') (hn : e.tasks id = none)
    (ht : e'.tasks id = some t) : t.id = id ∧ Created e e' t := by
  have hold : ∀ {p : Prop}, none = some t → p := fun h => by cases h
  cases step_cases hl h with
  | call ho he => exact he.created hn ht
  | poll ho he =>
    obtain ⟨hid, hcr⟩ := he.created hn ht
    exact ⟨hid, hcr.id_eq, hcr.state, hcr.queued, hcr.result, hcr.copy, hcr.cancel⟩
  | finalize ho hs hstate he =>
    obtain ⟨hid, hcr⟩ := he.created hn ht
    exact ⟨hid, hcr.id_eq, hcr.state, hcr.queued, hcr.result, hcr.copy, hcr.cancel⟩
  | flag ho hs => exact hold ((update_none hs hn).symm.trans ht)
  | take hlt hw hfree hq hs => exact hold ((update_none hs hn).symm.trans ht)
  | result hw hs => exact hold ((update_none hs hn).symm.trans ht)
  | @device o event m s s' b hm hs =>
    cases o with
    | transfer key => exact hold (hn.symm.trans ht)
    | task i =>
      obtain ⟨u, hu, -⟩ := copyState_task hs
      obtain ⟨rfl, -⟩ := hl.queue.task i u hu
      exact hold ((update_none hu hn).symm.trans ht)
  | _ => exact hold (hn.symm.trans ht)

/-- The queue grows by new tasks only. -/
theorem step_queue (hl : e.Inv H) (h : step a e = some e') (hq : id ∈ e'.ioQueue) :
    id ∈ e.ioQueue ∨ e.tasks id = none := by
  have hidle : Inv H { e with owner := .idle } := hl.setOwner nofun
  cases step_cases hl h with
  | call ho he => exact he.queue hl hq
  | poll ho he => exact he.queue hidle hq
  | finalize ho hs hstate he => exact he.queue hidle hq
  | dequeue ho hq' => exact .inl (List.mem_of_mem_erase hq)
  | take hlt hw hfree hq' => exact .inl (List.mem_of_mem_erase hq)
  | @device o => cases o <;> exact .inl hq
  | _ => exact .inl hq

/-- A task leaves the queue by a worker or by `cancel`. -/
theorem step_queue_keep (hl : e.Inv H) (h : step a e = some e') (hq : id ∈ e.ioQueue) :
    id ∈ e'.ioQueue ∨ (∃ w t, e'.workers w = .taken id ∧ e'.tasks id = some t ∧ t.state = .RUNNING) ∨
      (e.owner = .cancelDequeue id ∧ e'.owner = .cancelFinalize id) := by
  cases step_cases hl h with
  | call ho he => exact .inl (he.queue_keep hq)
  | poll ho he => exact .inl (he.queue_keep hq)
  | finalize ho hs hstate he => exact .inl (he.queue_keep hq)
  | @dequeue unlinked i ho hq' =>
    by_cases hi : id = i
    · subst hi; exact .inr (.inr ⟨ho, rfl⟩)
    · exact .inl ((List.mem_erase_of_ne hi).mpr hq)
  | @take w t hlt hw hfree hq' ht hs hc =>
    by_cases hi : id = t.id
    · subst hi
      exact .inr (.inl ⟨w, _, Function.update_self _ _ _, Function.update_self _ _ _, rfl⟩)
    · exact .inl ((List.mem_erase_of_ne hi).mpr hq)
  | @device o => cases o <;> exact .inl hq
  | _ => exact .inl hq

/-- One worker changes, the others stay. -/
theorem WorkerStep.update {v : ℕ} {s : WorkerState} (h : WorkerStep e w s) :
    WorkerStep e v (Function.update e.workers w s v) := by
  by_cases hv : v = w
  · rw [hv, Function.update_self]; exact h
  · rw [Function.update_of_ne hv]; exact .same

/-- **Every step changes a worker in one of these ways.** -/
theorem step_worker (hl : e.Inv H) (h : step a e = some e') (v : ℕ) :
    WorkerStep e v (e'.workers v) := by
  cases step_cases hl h with
  | call ho he => rw [he.threads.2.1]; exact .same
  | poll ho he => rw [he.threads.2.1]; exact .same
  | finalize ho hs hstate he => rw [he.threads.2.1]; exact .same
  | take hlt hw hfree hq => exact (WorkerStep.take hw hlt hq).update
  | skip hw => exact (WorkerStep.skip hw).update
  | start hw => exact (WorkerStep.start hw).update
  | refuse hw => exact (WorkerStep.finish (by decide) (.inl hw)).update
  | accept hw => exact (WorkerStep.write hw).update
  | readError hw => exact (WorkerStep.finish (by decide) (.inl hw)).update
  | read hw => exact (WorkerStep.finish (by decide) (.inl hw)).update
  | abort hw => exact (WorkerStep.finish (by decide) (.inr ⟨_, hw⟩)).update
  | commit hw => exact (WorkerStep.finish (by decide) (.inr ⟨_, hw⟩)).update
  | result hw => exact (WorkerStep.store hw).update
  | notify hw => exact (WorkerStep.notify hw).update
  | @device o => cases o <;> exact .same
  | _ => exact .same

end Engine

end KVFlux.V3
