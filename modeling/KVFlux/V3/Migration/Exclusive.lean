import KVFlux.V3.Migration.Tasks

/-!
# Exclusive use of the replicas of a task

* `Guarded`: what the directory holds for an unfinished task.
* `Exclusive`: every unfinished task is guarded and alone on its chunk, work is only done for
  unfinished tasks, and a task that ends gives everything back.
* **`migration_exclusive`**: every reachable state is exclusive.
* `small`: a small engine for concrete runs.
-/

namespace KVFlux.V3

open Fallible ChunkRecord Transition

namespace Engine

/-- The replicas of an unfinished task: registered where the task says, neither READY, pinned, in
slots that are allocated and belong to no other chunk. -/
structure Guarded (e : Engine) (t : Task) : Prop where
  registered : ∃ r, e.directory.record t.key = some r ∧
    (∃ s, r.replica t.source = some ⟨t.sourceLoc, s⟩ ∧ s ≠ .READY) ∧
    (∃ s, r.replica t.destination = some ⟨t.destinationLoc, s⟩ ∧ s ≠ .READY) ∧ 1 ≤ r.pinCount
  source_live : e.directory.tiers.Live t.source t.sourceLoc
  destination_live : e.directory.tiers.Live t.destination t.destinationLoc
  source_private : ∀ key r slot, e.directory.record key = some r → r.replica t.source = some slot →
    slot.location.slot = t.sourceLoc.slot → key = t.key
  destination_private : ∀ key r slot, e.directory.record key = some r →
    r.replica t.destination = some slot → slot.location.slot = t.destinationLoc.slot → key = t.key

structure Exclusive (e : Engine) : Prop where
  guarded : ∀ id t, e.tasks id = some t → t.state.terminal = false → e.Guarded t
  /-- No chunk has two unfinished tasks. -/
  unique : ∀ id id' t t', e.tasks id = some t → e.tasks id' = some t' → t.state.terminal = false →
    t'.state.terminal = false → t.key = t'.key → id = id'
  queued : ∀ id ∈ e.ioQueue, ∃ t, e.tasks id = some t ∧ t.state.terminal = false
  /-- A worker holds an unfinished task. -/
  taken : ∀ w id, (e.workers w).task = some id → ∃ t, e.tasks id = some t ∧ t.state.terminal = false
  /-- A copy that may still run belongs to an unfinished task. -/
  copied : ∀ id t, e.tasks id = some t → t.usesCuda = true → t.copy = .running ∨ t.copy = .landed →
    t.state.terminal = false
  ends : ∀ a e' id t t', step a e = some e' → e.tasks id = some t → e'.tasks id = some t' →
    t.state.terminal = false → t'.state.terminal = true →
    Ends e.directory e'.directory t.move t'.state

variable {H : Tokens → UInt64} {e e' : Engine} {a : Action} {id : ℕ} {t t' : Task}

theorem Inv.guarded (hl : e.Inv H) (ht : e.tasks id = some t) (hn : t.state.terminal = false) :
    e.Guarded t := by
  obtain ⟨rfl, -⟩ := hl.queue.task id t ht
  obtain ⟨r, hr, ⟨s, hs, hs', -⟩, ⟨d, hd, hd', -⟩, hpin⟩ := hl.locks.held _ _ (move_task ht hn)
  have hlive : ∀ {tier slot}, r.replica tier = some slot →
      e.directory.tiers.Live tier slot.location := fun h =>
    Tiers.Inv.live hl.directory _ (CacheDirectory.mem_locations.mpr ⟨_, r, _, hr, h, rfl⟩)
  exact ⟨⟨r, hr, ⟨s, hs, hs'⟩, ⟨d, hd, hd'⟩, by omega⟩, hlive hs, hlive hd,
    fun key r' slot hr' h he => hl.directory.slot_key hr' hr h hs he,
    fun key r' slot hr' h he => hl.directory.slot_key hr' hr h hd he⟩

/-- A step that ends a task gives everything back. -/
theorem step_ends (hl : e.Inv H) (h : step a e = some e') (ht : e.tasks id = some t)
    (ht' : e'.tasks id = some t') (hn : t.state.terminal = false) (hend : t'.state.terminal = true) :
    Ends e.directory e'.directory t.move t'.state := by
  obtain ⟨s, hs, hstep⟩ := step_task hl h ht
  obtain rfl : s = t' := Option.some.inj (hs.symm.trans ht')
  have hrun : ∀ {p : Prop}, t.state.terminal = true → p := fun h => by rw [hn] at h; cases h
  cases hstep with
  | finish hn hd => exact hd
  | take => cases hend
  | same | flag | copy | result => exact hrun hend

/-- **Main result.** In every reachable state the replicas of unfinished tasks are exclusively
theirs. -/
theorem migration_exclusive (hr : Transition.Reachable step (Start H) Any e) : e.Exclusive := by
  have hl := reachable_inv hr
  refine ⟨fun id t => hl.guarded, fun id id' t t' ht ht' hn hn' hk => ?_, fun id hq => ?_,
    fun w id hw => ?_, fun id t ht hc hcopy => ?_, fun a e' id t t' => step_ends hl⟩
  · obtain ⟨rfl, -⟩ := hl.queue.task id t ht
    obtain ⟨rfl, -⟩ := hl.queue.task id' t' ht'
    have := hl.locks.unique _ _ _ _ (move_task ht hn) (move_task ht' hn') hk
    exact CopyOwner.task.inj this
  · obtain ⟨t, ht, hs, -⟩ := hl.queue.queued id hq
    exact ⟨t, ht, by rw [hs]; rfl⟩
  · obtain ⟨-, t, ht, hs, -⟩ := hl.queue.taken w id hw
    exact ⟨t, ht, by rw [hs]; rfl⟩
  · by_contra hterm
    rcases hl.queue.ended id t ht (Bool.not_eq_false _ ▸ hterm) hc with h | h
    · rw [h] at hcopy
      rcases hcopy with h | h <;> cases h
    · rw [h] at hcopy
      rcases hcopy with h | h <;> cases h

/-! ## A small engine -/

/-- Two slots in every tier, chunks of four bytes. -/
def small (quota : UInt64) (ioThreads : ℕ) : Engine where
  directory := ⟨⟨BlockManager.init 2 1, ⟨4, 0⟩, .init .CPU 2 4, .init .NVME 2 4⟩, ∅⟩
  chunkBytes := 4
  gpuSlots := 2
  cpuSlots := 2
  gpu _ := [0, 0, 0, 0]
  cpu _ := [0, 0, 0, 0]
  store := .new "" quota ∅ ∅
  ioThreads := ioThreads

theorem small_start (quota : UInt64) (ioThreads : ℕ) (h : ioThreads ≠ 0) :
    Start (fun _ => 0) (small quota ioThreads) where
  directory := @Reachable.init (fun _ => 0) 2 1 4 2 4 2 4 (some fun _ => .ok 0) _ _ _ _ _
    rfl rfl rfl rfl rfl
  records := rfl
  engine := ⟨2, 2, ioThreads, if_neg h⟩
  chunkBytes_lt := by show 4 < 2 ^ 64; decide
  gpu_length _ := rfl
  cpu_length _ := rfl

/-- A chunk of the small engine. -/
def chunk (n : UInt8) : CacheKey := { modelId := [n], prefixTokens := [1] }

/-- A run reaches its final state. -/
theorem reachable_small {quota : UInt64} {ioThreads : ℕ} (h : ioThreads ≠ 0) {as : List Action}
    (hrun : run step as (small quota ioThreads) = some e) :
    Transition.Reachable step (Start fun _ => 0) Any e :=
  Transition.Reachable.run (.start (small_start quota ioThreads h)) (fun _ _ _ => trivial) hrun

/-- A chunk goes to a file and its task is cancelled while a worker has it. -/
def cancelRun : List Action :=
  [.call (.directory (.create (chunk 1))), .call (.provide (chunk 1) .CPU 1 [1, 2, 3, 4] .none),
    .call (.submit (chunk 1) .NVME 1 0 {}), .take 0, .cancel 1, .owner true]

theorem migration_exclusive_cancel : ∃ e, run step cancelRun (small 1000 1) = some e ∧
    (e.tasks 1).map Task.state = some .RUNNING ∧ e.Exclusive := by
  have hstate : (run step cancelRun (small 1000 1)).bind (fun e => (e.tasks 1).map Task.state) =
      some .RUNNING := rfl
  obtain ⟨e, he, hs⟩ := Option.bind_eq_some_iff.mp hstate
  exact ⟨e, he, hs, migration_exclusive (reachable_small one_ne_zero he)⟩

end Engine

end KVFlux.V3
