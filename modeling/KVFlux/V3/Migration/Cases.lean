import KVFlux.V3.Migration.Invariant

/-!
# The steps one by one

`Step` lists what a step of the engine can do, with the new state written out.

* `OwnerMove`: the steps of `wait` and `cancel` that only move the owner thread on.
* `Step`: all steps.
* **`step_cases`**: every step is on the list.
-/

namespace KVFlux.V3

open Fallible Transition

namespace Engine

/-- The steps of `wait` and `cancel` that only move the owner on. -/
inductive OwnerMove (e : Engine) : OwnerState → Prop
  | waitDone {id : ℕ} {t : Task} (ho : e.owner = .waitLoad id) (ht : e.tasks id = some t)
      (hs : t.state.terminal = true) : OwnerMove e .idle
  | waitQueued {id : ℕ} {t : Task} (ho : e.owner = .waitLoad id) (ht : e.tasks id = some t)
      (hs : t.state = .QUEUED) : OwnerMove e (.waitLock id true)
  | waitCopy {id : ℕ} {t : Task} (ho : e.owner = .waitLoad id) (ht : e.tasks id = some t)
      (hs : t.state = .RUNNING) (hc : t.usesCuda = true) : OwnerMove e (.waitEvent id)
  | waitRunning {id : ℕ} {t : Task} (ho : e.owner = .waitLoad id) (ht : e.tasks id = some t)
      (hs : t.state = .RUNNING) (hc : t.usesCuda = false) : OwnerMove e (.waitLock id false)
  | lock {id : ℕ} {queued : Bool} (ho : e.owner = .waitLock id queued) :
      OwnerMove e (.waitEval id queued)
  | again {id : ℕ} {t : Task} (ho : e.owner = .waitEval id true) (ht : e.tasks id = some t)
      (ha : t.awaited true = true) : OwnerMove e (.waitLoad id)
  | ended {id : ℕ} {t : Task} (ho : e.owner = .waitEval id false) (ht : e.tasks id = some t)
      (ha : t.awaited false = true) : OwnerMove e (.waitPoll id)
  | notYet {id : ℕ} {queued : Bool} {t : Task} (ho : e.owner = .waitEval id queued)
      (ht : e.tasks id = some t) (ha : t.awaited queued = false) : OwnerMove e (.waitSleep id queued)
  | sleep {id : ℕ} {queued : Bool} (ho : e.owner = .waitSleep id queued) :
      OwnerMove e (.asleep id queued)
  | event {id : ℕ} {t : Task} (ho : e.owner = .waitEvent id) (ht : e.tasks id = some t)
      (hc : t.copy = .done) : OwnerMove e (.waitPoll id)
  | eventError {id : ℕ} {t : Task} (ho : e.owner = .waitEvent id) (ht : e.tasks id = some t)
      (hc : t.copy = .failed) : OwnerMove e .idle
  | cancelDone {id : ℕ} {t : Task} (ho : e.owner = .cancelLoad id) (ht : e.tasks id = some t)
      (hs : t.state.terminal = true) : OwnerMove e .idle
  | cancelLoad {id : ℕ} {t : Task} (ho : e.owner = .cancelLoad id) (ht : e.tasks id = some t)
      (hs : t.state.terminal = false) : OwnerMove e (.cancelFlag id t.state)
  | retry {id : ℕ} (ho : e.owner = .cancelDequeue id) (hq : id ∉ e.ioQueue) :
      OwnerMove e (.cancelLoad id)

/-- The owner after `notify_all`. -/
def woken (e : Engine) : OwnerState :=
  match e.owner with
  | .asleep id queued => .waitLock id queued
  | s => s

/-- The steps of the engine. -/
inductive Step (H : Tokens → UInt64) (e : Engine) : Action → Engine → Prop
  | call {c : ClientCall} {e' : Engine} (ho : e.owner = .idle) (he : Effect H (some c) e e') :
      Step H e (.call c) e'
  | enter {a : Action} {id : ℕ} {s : OwnerState} (ho : e.owner = .idle) (ht : (e.tasks id).isSome)
      (hs : (a = .wait id ∧ s = .waitLoad id) ∨ (a = .cancel id ∧ s = .cancelLoad id)) :
      Step H e a { e with owner := s }
  | unknown {a : Action} {id : ℕ} (ho : e.owner = .idle) (ht : e.tasks id = none)
      (ha : a = .wait id ∨ a = .cancel id) : Step H e a e
  | owner {unlinked : Bool} {s : OwnerState} (h : OwnerMove e s) :
      Step H e (.owner unlinked) { e with owner := s }
  | poll {unlinked : Bool} {id : ℕ} {e' : Engine} (ho : e.owner = .waitPoll id)
      (he : Effect H none { e with owner := .idle } e') : Step H e (.owner unlinked) e'
  | flag {unlinked : Bool} {t : Task} {s : MigrationState} (ho : e.owner = .cancelFlag t.id s)
      (ht : e.tasks t.id = some t) :
      Step H e (.owner unlinked) { e.setTask { t with cancelRequested := true } with
        owner := if s = .RUNNING then .idle else .cancelDequeue t.id }
  | dequeue {unlinked : Bool} {id : ℕ} (ho : e.owner = .cancelDequeue id) (hq : id ∈ e.ioQueue) :
      Step H e (.owner unlinked) { e with
        ioQueue := e.ioQueue.erase id, owner := .cancelFinalize id }
  | finalize {unlinked : Bool} {t : Task} (ho : e.owner = .cancelFinalize t.id)
      (ht : e.tasks t.id = some t) (hs : t.state = .QUEUED)
      (he : Effect H none { e with owner := .idle }
        (finalState (finalizeCancelled t unlinked { e with owner := .idle }))) :
      Step H e (.owner unlinked) (finalState (finalizeCancelled t unlinked { e with owner := .idle }))
  | take {w : ℕ} {t : Task} (hlt : w < e.ioThreads) (hw : e.workers w = .idle)
      (hfree : e.ownerLocks = false) (hq : t.id ∈ e.ioQueue) (ht : e.tasks t.id = some t)
      (hs : t.state = .QUEUED) (hc : t.usesCuda = false) :
      Step H e (.take w)
        (({ e with ioQueue := e.ioQueue.erase t.id }.setTask { t with state := .RUNNING }).setWorker w
          (.taken t.id))
  | skip {w : ℕ} {t : Task} (hw : e.workers w = .taken t.id) (ht : e.tasks t.id = some t)
      (hc : t.cancelRequested = true) :
      Step H e (.checkCancel w) (e.setWorker w (.finished t.id 1 ""))
  | start {w : ℕ} {t : Task} (hw : e.workers w = .taken t.id) (ht : e.tasks t.id = some t)
      (hc : t.cancelRequested = false) : Step H e (.checkCancel w) (e.setWorker w (.started t.id))
  | refuse {w : ℕ} {fault : ReadFault} {t : Task} {error : String} (hw : e.workers w = .started t.id)
      (ht : e.tasks t.id = some t) (hd : t.destination = .NVME) :
      Step H e (.io w fault) (e.setWorker w (.finished t.id (-1) error))
  | accept {w : ℕ} {fault : ReadFault} {t : Task} {p : PendingWrite} (hw : e.workers w = .started t.id)
      (ht : e.tasks t.id = some t) (hd : t.destination = .NVME)
      (hp : e.store.writeCheck t.destinationLoc.slot t.fileMeta (e.cpu t.sourceLoc.slot) = .ok p) :
      Step H e (.io w fault) (e.setWorker w (.writing t.id p))
  | readError {w : ℕ} {fault : ReadFault} {t : Task} {out : Bytes} {error : String}
      (hw : e.workers w = .started t.id) (ht : e.tasks t.id = some t) (hd : t.destination ≠ .NVME)
      (hlen : out.length = e.chunkBytes) :
      Step H e (.io w fault)
        ((e.setMem .CPU t.destinationLoc.slot out).setWorker w (.finished t.id (-1) error))
  | read {w : ℕ} {fault : ReadFault} {t : Task} {out : Bytes} (hw : e.workers w = .started t.id)
      (ht : e.tasks t.id = some t) (hd : t.destination ≠ .NVME) (hlen : out.length = e.chunkBytes)
      (himage : ∀ key validTokens bytes,
        t.fileMeta = makeFileMeta key validTokens (UInt64.ofNat e.chunkBytes) →
        bytes.length = e.chunkBytes →
        Image e.chunkBytes key .NVME bytes (e.store.files.lookup t.sourceLoc.slot) → out = bytes) :
      Step H e (.io w fault)
        ((e.setMem .CPU t.destinationLoc.slot out).setWorker w (.finished t.id 1 ""))
  | abort {w : ℕ} {fault : WriteFault} {t : Task} {p : PendingWrite} {s : ChunkFileStore}
      {error : String} (hw : e.workers w = .writing t.id p) (ht : e.tasks t.id = some t)
      (hs : s.Same e.store) :
      Step H e (.commit w fault) ({ e with store := s }.setWorker w (.finished t.id (-1) error))
  | commit {w : ℕ} {fault : WriteFault} {t : Task} {p : PendingWrite} {s : ChunkFileStore}
      (hw : e.workers w = .writing t.id p) (ht : e.tasks t.id = some t)
      (hs : s.Same (e.store.writeCommit p (e.cpu t.sourceLoc.slot))) :
      Step H e (.commit w fault) ({ e with store := s }.setWorker w (.finished t.id 1 ""))
  | result {w : ℕ} {t : Task} {r : ℤ} {error error' : String}
      (hw : e.workers w = .finished t.id r error) (ht : e.tasks t.id = some t) :
      Step H e (.storeResult w)
        ((e.setTask { t with ioResult := r, error := error' }).setWorker w .notifying)
  | notify {w : ℕ} (hw : e.workers w = .notifying) :
      Step H e (.notify w) { e.setWorker w .idle with owner := e.woken }
  | device {o : CopyOwner} {event : DeviceEvent} {m : Move} {s s' : CopyState} {b : Bytes}
      (hm : e.move o = some m) (hs : e.copyState o = some s)
      (hb : b.length = (e.mem m.destination m.destinationLoc.slot).length)
      (hev : (s = .running ∧ s' = .landed ∧ b = overwrite (e.mem m.destination m.destinationLoc.slot)
          (e.mem m.source m.sourceLoc.slot)) ∨
        (s = .landed ∧ s' = .done ∧ b = e.mem m.destination m.destinationLoc.slot) ∨
        s' = .failed) :
      Step H e (.device o event) ((e.setMem m.destination m.destinationLoc.slot b).setCopy o s')
  | scribble {b : Orphan} {garbage : Bytes} (hb : b ∈ e.orphans) :
      Step H e (.scribble b garbage) (e.setMem b.tier b.slot (overwrite (e.mem b.tier b.slot) garbage))

variable {H : Tokens → UInt64} {e e' : Engine} {a : Action}

theorem step_owner (hl : e.Inv H) {unlinked : Bool} (h : e.ownerStep unlinked = some e') :
    Step H e (.owner unlinked) e' := by
  have hidle : Inv H { e with owner := .idle } := hl.setOwner nofun
  unfold ownerStep at h
  split at h
  · cases h
  · cases h
  · rename_i id ho
    obtain ⟨t, ht, rfl⟩ := Option.map_eq_some_iff.mp h
    refine .owner ?_
    cases hs : t.state with
    | COMPLETED => exact .waitDone ho ht (by rw [hs]; rfl)
    | FAILED => exact .waitDone ho ht (by rw [hs]; rfl)
    | CANCELLED => exact .waitDone ho ht (by rw [hs]; rfl)
    | QUEUED => exact .waitQueued ho ht hs
    | RUNNING =>
      show OwnerMove e (if t.usesCuda = true then .waitEvent id else .waitLock id false)
      cases hc : t.usesCuda with
      | true => exact .waitCopy ho ht hs hc
      | false => exact .waitRunning ho ht hs hc
  · rename_i ho
    cases h
    exact .owner (.lock ho)
  · rename_i id queued ho
    obtain ⟨t, ht, rfl⟩ := Option.map_eq_some_iff.mp h
    refine .owner ?_
    cases ha : t.awaited queued with
    | false => exact .notYet ho ht ha
    | true =>
      cases queued with
      | true => exact .again ho ht ha
      | false => exact .ended ho ht ha
  · rename_i ho
    cases h
    exact .owner (.sleep ho)
  · rename_i id ho
    obtain ⟨t, ht, h⟩ := Option.bind_eq_some_iff.mp h
    split at h
    · cases h
    · cases h
    · rename_i hc
      cases h
      exact .owner (.event ho ht hc)
    · rename_i hc
      cases h
      exact .owner (.eventError ho ht hc)
  · rename_i id ho
    cases h
    exact .poll ho (poll_effect hidle id unlinked)
  · rename_i id ho
    obtain ⟨t, ht, rfl⟩ := Option.map_eq_some_iff.mp h
    refine .owner ?_
    cases hs : t.state.terminal with
    | true => exact .cancelDone ho ht hs
    | false => exact .cancelLoad ho ht hs
  · rename_i id s ho
    obtain ⟨t, ht, rfl⟩ := Option.map_eq_some_iff.mp h
    obtain ⟨rfl, -⟩ := hl.queue.task id t ht
    exact .flag ho ht
  · rename_i id ho
    cases h
    split_ifs with hq
    · exact .dequeue ho hq
    · exact .owner (.retry ho hq)
  · rename_i id ho
    obtain ⟨t, ht, rfl⟩ := Option.map_eq_some_iff.mp h
    obtain ⟨rfl, -⟩ := hl.queue.task id t ht
    obtain ⟨hn, s, hs, hstate, hc⟩ := hl.queue.cancelling t.id ho
    obtain rfl : t = s := Option.some.inj (ht.symm.trans hs)
    exact .finalize ho ht hstate (finalizeCancelled_effect hidle ht (by rw [hstate]; rfl)
      (.inr ⟨hstate, hc, hn⟩) unlinked)

theorem step_take (hl : e.Inv H) {w : ℕ} (h : e.take w = some e') : Step H e (.take w) e' := by
  obtain ⟨id, t, hq, ht, hlt, hw, hfree, rfl⟩ := take_cases h
  obtain ⟨s, hs, hstate, hc, -⟩ := hl.queue.queued id hq
  obtain rfl : t = s := Option.some.inj (ht.symm.trans hs)
  obtain ⟨rfl, -⟩ := hl.queue.task id t ht
  exact .take hlt hw hfree hq ht hstate hc

theorem step_checkCancel (hl : e.Inv H) {w : ℕ} (h : e.checkCancel w = some e') :
    Step H e (.checkCancel w) e' := by
  unfold checkCancel at h
  split at h
  · rename_i id hw
    obtain ⟨t, ht, rfl⟩ := Option.map_eq_some_iff.mp h
    obtain ⟨rfl, -⟩ := hl.queue.task id t ht
    cases hc : t.cancelRequested with
    | true => exact .skip hw ht hc
    | false => exact .start hw ht hc
  · cases h

theorem step_io (hl : e.Inv H) {w : ℕ} {fault : ReadFault} (h : e.io w fault = some e') :
    Step H e (.io w fault) e' := by
  obtain ⟨id, t, hw, ht, hcase⟩ := io_cases hl.sized h
  obtain ⟨rfl, -⟩ := hl.queue.task id t ht
  rcases hcase with ⟨hd, ⟨err, rfl⟩ | ⟨p, hp, rfl⟩⟩ | ⟨hd, out, hlen, ⟨err, rfl⟩ | ⟨rfl, himage⟩⟩
  · exact .refuse hw ht hd
  · exact .accept hw ht hd hp
  · exact .readError hw ht hd hlen
  · exact .read hw ht hd hlen himage

theorem step_commit (hl : e.Inv H) {w : ℕ} {fault : WriteFault} (h : e.commit w fault = some e') :
    Step H e (.commit w fault) e' := by
  obtain ⟨id, p, t, s, hw, ht, hcase⟩ := commit_cases h
  obtain ⟨rfl, -⟩ := hl.queue.task id t ht
  rcases hcase with ⟨⟨err, rfl⟩, hs⟩ | ⟨rfl, hs⟩
  · exact .abort hw ht hs
  · exact .commit hw ht hs

/-- **Every step is on the list.** -/
theorem step_cases (hl : e.Inv H) (h : step a e = some e') : Step H e a e' := by
  cases a with
  | call c =>
    simp only [step] at h
    split_ifs at h with hc
    obtain ⟨res, hres, rfl⟩ := Option.map_eq_some_iff.mp h
    exact .call hc.1 (call_effect hl c hc.2 hres)
  | wait id =>
    simp only [step, enter] at h
    split_ifs at h with ho ht
    · cases h
      exact .enter ho ht (.inl ⟨rfl, rfl⟩)
    · cases h
      exact .unknown ho (Option.not_isSome_iff_eq_none.mp ht) (.inl rfl)
  | cancel id =>
    simp only [step, enter] at h
    split_ifs at h with ho ht
    · cases h
      exact .enter ho ht (.inr ⟨rfl, rfl⟩)
    · cases h
      exact .unknown ho (Option.not_isSome_iff_eq_none.mp ht) (.inr rfl)
  | owner unlinked => exact step_owner hl h
  | take w => exact step_take hl h
  | checkCancel w => exact step_checkCancel hl h
  | io w fault => exact step_io hl h
  | commit w fault => exact step_commit hl h
  | storeResult w =>
    obtain ⟨id, t, r, error, error', hw, ht, rfl⟩ := storeResult_cases h
    obtain ⟨rfl, -⟩ := hl.queue.task id t ht
    exact .result hw ht
  | notify w =>
    obtain ⟨hw, -⟩ := notify_cases h
    simp only [step, notify, hw] at h
    cases h
    exact .notify hw
  | device o event =>
    obtain ⟨m, s, s', b, hm, hs, hb, rfl, hev⟩ := deviceStep_cases h
    exact .device hm hs hb hev
  | scribble o garbage =>
    simp only [step, scribble] at h
    split_ifs at h with hb
    cases h
    exact .scribble hb

end Engine

end KVFlux.V3
