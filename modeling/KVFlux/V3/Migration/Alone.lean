import KVFlux.V3.Migration.Invariant
import KVFlux.V3.Migration.Submitted

/-!
# A task that runs alone

`submit` has returned a task, and from then on only the device, the workers and `poll` or `wait`
work on it.

* `Own`: the steps that only concern one task.
* `Moved`, `Delivered`: the bytes of the chunk, and the whole chunk, at the destination.
* `Stage`: where the task stands. `poll_stage`, `take_phase`, `io_phase`, …: the steps keep it.
* **`own_phase`**: so every step of the run does.
-/

namespace KVFlux.V3

open Fallible ChunkRecord Transition

namespace Engine

/-! ## Runs of one task -/

/-- The task id is new to the manager. -/
structure Unused (e : Engine) (id : ℕ) : Prop where
  queue : id ∉ e.ioQueue
  workers : ∀ w, (e.workers w).task ≠ some id

end Engine

/-- The owner is idle or waits for the task. -/
def OwnerState.WaitsOnly (id : ℕ) : OwnerState → Prop
  | .idle => True
  | .waitLoad i | .waitLock i _ | .waitEval i _ | .waitSleep i _ | .asleep i _ | .waitEvent i
  | .waitPoll i => i = id
  | .cancelLoad _ | .cancelFlag _ _ | .cancelDequeue _ | .cancelFinalize _ => False

/-- A thread that is woken up waits for the same task. -/
theorem OwnerState.waitsOnly_woken (id : ℕ) (s : OwnerState) : s.WaitsOnly id →
    OwnerState.WaitsOnly id (match s with | .asleep id queued => .waitLock id queued | s => s) := by
  intro h
  cases s <;> exact h

namespace Engine

variable {H : Tokens → UInt64} {e e₀ e₁ e' e'' : Engine} {d : CacheDirectory} {key : CacheKey}
  {r : ChunkRecord} {t t' : Task} {source destination : StorageTier} {id w : ℕ} {a : Action}
  {unlinked : Bool}

/-- The steps that only concern the task: it is polled, awaited, served and copied, and workers
notify. -/
def Own (id : ℕ) (e : Engine) : Action → Prop
  | .call (.poll i _) => i = id
  | .wait i => i = id
  | .owner _ => True
  | .take _ => e.best = some id
  | .checkCancel w | .io w _ | .commit w _ | .storeResult w => (e.workers w).task = some id
  | .notify _ => True
  | .device o _ => o = .task id
  | _ => False

/-- The memories and the files. -/
def data (e : Engine) : (ℕ → Bytes) × (ℕ → Bytes) × ChunkFileStore := (e.gpu, e.cpu, e.store)

def shape (e : Engine) : ℕ × ℕ × ℕ := (e.chunkBytes, e.gpuSlots, e.cpuSlots)

/-- The bytes of the chunk are at the destination. -/
inductive Moved (e : Engine) (t : Task) : (ℕ → Bytes) × (ℕ → Bytes) × ChunkFileStore → Prop
  | copy (hc : t.usesCuda = true) :
      Moved e t (e.setMem t.destination t.destinationLoc.slot
        (overwrite (e.mem t.destination t.destinationLoc.slot)
          (e.mem t.source t.sourceLoc.slot))).data
  | write {fault : WriteFault} {s : ChunkFileStore} (hs : t.source = .CPU)
      (hd : t.destination = .NVME) (hb : e.buffer .CPU t.sourceLoc.slot = .ok ())
      (hw : ChunkFileStore.write fault t.destinationLoc.slot t.fileMeta (e.cpu t.sourceLoc.slot)
        e.store = .ok () s) : Moved e t (e.gpu, e.cpu, s)
  | read {fault : ReadFault} {m : ChunkFileMeta} {out : Bytes} (hs : t.source = .NVME)
      (hd : t.destination = .CPU) (hb : e.buffer .CPU t.destinationLoc.slot = .ok ())
      (hr : e.store.read fault t.sourceLoc.slot t.fileMeta e.chunkBytes
        (e.cpu t.destinationLoc.slot) = .ok (some m) out) :
      Moved e t (e.setMem .CPU t.destinationLoc.slot out).data

/-- The chunk is at the destination, and the source and the pins are as before: the pin of the move
has not made the counter wrap around. -/
structure Delivered (e : Engine) (r : ChunkRecord) (t : Task) (tiers : Tiers) (e' : Engine) :
    Prop where
  pins : (onWay r t).pinCount ≠ 0
  record : e'.directory.record = Function.update e.directory.record t.key
    (some (r.setReplica t.destination (some ⟨t.destinationLoc, .READY⟩)))
  tiers : e'.directory.tiers = tiers
  data : Moved e t e'.data

/-- The bytes of a copy are determined. -/
theorem Moved.of_copy {data : (ℕ → Bytes) × (ℕ → Bytes) × ChunkFileStore} (h : Moved e t data)
    (hc : t.usesCuda = true) : data = (e.setMem t.destination t.destinationLoc.slot
      (overwrite (e.mem t.destination t.destinationLoc.slot)
        (e.mem t.source t.sourceLoc.slot))).data := by
  cases h with
  | copy => rfl
  | write hs hd => simp [Task.usesCuda, hs, hd] at hc
  | read hs hd => simp [Task.usesCuda, hs, hd] at hc

/-- What a worker with the task has done. -/
inductive Work (e : Engine) (t : Task) : (ℕ → Bytes) × (ℕ → Bytes) × ChunkFileStore →
    WorkerState → Prop
  | taken : Work e t e.data (.taken t.id)
  | started : Work e t e.data (.started t.id)
  | writing {p : PendingWrite} (hd : t.destination = .NVME)
      (hb : e.buffer .CPU t.sourceLoc.slot = .ok ())
      (hp : e.store.writeCheck t.destinationLoc.slot t.fileMeta (e.cpu t.sourceLoc.slot) = .ok p) :
      Work e t e.data (.writing t.id p)
  | finished {data : (ℕ → Bytes) × (ℕ → Bytes) × ChunkFileStore} {n : ℤ} {error : String}
      (hn : n ≠ 0) (h : 0 < n → Moved e t data) : Work e t data (.finished t.id n error)

theorem Work.task {data : (ℕ → Bytes) × (ℕ → Bytes) × ChunkFileStore} {s : WorkerState}
    (h : Work e t data s) : s.task = some t.id := by
  cases h <;> rfl

/-- What the device has done. -/
def Copied (e : Engine) (t : Task) (data : (ℕ → Bytes) × (ℕ → Bytes) × ChunkFileStore) :
    CopyState → Prop
  | .running => data = e.data
  | .landed | .done => Moved e t data
  | .failed => True

/-- No worker has the task, and it is not in the queue. -/
structure Free (e : Engine) (id : ℕ) (e' : Engine) : Prop where
  queue : e'.ioQueue = e.ioQueue
  workers : ∀ w, (e'.workers w).task ≠ some id

/-- Where the task `t` stands that was submitted in `e` with `r` as the record of its chunk. A task
is stuck when its pin has made the counter wrap around. -/
inductive Stage (e : Engine) (r : ChunkRecord) (t : Task) (d : CacheDirectory) (e' : Engine) : Prop
  | queued (ht : e'.tasks t.id = some t) (hc : t.usesCuda = false) (hd : e'.directory = d)
      (hq : e'.ioQueue = e.ioQueue ++ [t.id]) (hw : ∀ w, (e'.workers w).task ≠ some t.id)
      (hdata : e'.data = e.data)
  | held {w : ℕ} (ht : e'.tasks t.id = some { t with state := .RUNNING }) (hc : t.usesCuda = false)
      (hd : e'.directory = d) (hq : e'.ioQueue = e.ioQueue) (hwork : Work e t e'.data (e'.workers w))
      (hw : ∀ v, v ≠ w → (e'.workers v).task ≠ some t.id)
  | served {n : ℤ} {error : String} (hn : n ≠ 0)
      (ht : e'.tasks t.id = some { t with state := .RUNNING, ioResult := n, error := error })
      (hc : t.usesCuda = false) (hd : e'.directory = d) (hfree : Free e t.id e')
      (hdata : 0 < n → Moved e t e'.data)
  | copying {c : CopyState} (ht : e'.tasks t.id = some { t with copy := c })
      (hc : t.usesCuda = true) (hd : e'.directory = d) (hfree : Free e t.id e')
      (hdata : Copied e t e'.data c)
  | stuck {t' : Task} {r' : ChunkRecord} (ht : e'.tasks t.id = some t') (hid : t'.id = t.id)
      (hkey : t'.key = t.key) (hcancel : t'.cancelRequested = false) (hrun : t'.state = .RUNNING)
      (hfree : Free e t.id e') (hr : e'.directory.record t.key = some r') (hpin : r'.pinCount = 0)
  | ended {t' : Task} (ht : e'.tasks t.id = some t') (hend : t'.state.terminal = true)
      (hfree : Free e t.id e') (h : t'.state = .COMPLETED → Delivered e r t d.tiers e')

/-- A state of the run. -/
structure Phase (e : Engine) (r : ChunkRecord) (t : Task) (d : CacheDirectory) (e' : Engine) :
    Prop where
  shape : e'.shape = e.shape
  owner : e'.owner.WaitsOnly t.id
  stage : Stage e r t d e'

/-! ## The steps of the task -/

/-- The stages look at the task, the queue, the workers, the directory and the bytes. -/
theorem Stage.congr (h : Stage e r t d e') (ht : e''.tasks = e'.tasks) (hd : e''.directory = e'.directory)
    (hq : e''.ioQueue = e'.ioQueue) (hw : ∀ v, (e'.workers v).task = some t.id ∨
      (e''.workers v).task = some t.id → e''.workers v = e'.workers v)
    (hdata : e''.data = e'.data) : Stage e r t d e'' := by
  have hno : ∀ v, (e'.workers v).task ≠ some t.id → (e''.workers v).task ≠ some t.id :=
    fun v hv h => hv (hw v (.inr h) ▸ h)
  have hfree : Free e t.id e' → Free e t.id e'' :=
    fun h => ⟨hq.trans h.queue, fun v => hno v (h.workers v)⟩
  cases h with
  | queued h₁ hc h₂ h₃ h₄ h₅ =>
    exact .queued (ht ▸ h₁) hc (hd.trans h₂) (hq.trans h₃) (fun v => hno v (h₄ v)) (hdata.trans h₅)
  | @held w h₁ hc h₂ h₃ h₄ h₅ =>
    refine .held (ht ▸ h₁) hc (hd.trans h₂) (hq.trans h₃) ?_ fun v hv => hno v (h₅ v hv)
    rw [hw w (.inl h₄.task), hdata]
    exact h₄
  | served hn h₁ hc h₂ h₃ h₄ =>
    exact .served hn (ht ▸ h₁) hc (hd.trans h₂) (hfree h₃) (hdata ▸ h₄)
  | copying h₁ hc h₂ h₃ h₄ => exact .copying (ht ▸ h₁) hc (hd.trans h₂) (hfree h₃) (hdata ▸ h₄)
  | stuck h₁ hid hkey hcancel hrun h₂ h₃ hpin =>
    exact .stuck (ht ▸ h₁) hid hkey hcancel hrun (hfree h₂) (hd ▸ h₃) hpin
  | ended h₁ hend h₂ h₃ =>
    refine .ended (ht ▸ h₁) hend (hfree h₂) fun h => ?_
    obtain ⟨hp, h₄, h₅, h₆⟩ := h₃ h
    exact ⟨hp, hd ▸ h₄, hd ▸ h₅, hdata ▸ h₆⟩

theorem Phase.setOwner (h : Phase e r t d e') {s : OwnerState} (hs : s.WaitsOnly t.id) :
    Phase e r t d { e' with owner := s } :=
  ⟨h.shape, hs, h.stage.congr rfl rfl rfl (fun _ _ => rfl) rfl⟩

theorem notify_phase (h : Phase e r t d e') (hstep : e'.notify w = some e'') : Phase e r t d e'' := by
  unfold notify at hstep
  split at hstep
  · rename_i hw
    cases hstep
    refine ⟨h.shape, OwnerState.waitsOnly_woken _ _ h.owner, h.stage.congr rfl rfl rfl (fun v hv => ?_) rfl⟩
    refine Function.update_of_ne ?_ _ _
    rintro rfl
    rcases hv with hv | hv
    · rw [hw] at hv
      cases hv
    · have hv : (Function.update e'.workers v .idle v).task = some t.id := hv
      rw [Function.update_self] at hv
      cases hv
  · cases hstep

/-- What holds of every new task. -/
structure New (e : Engine) (r : ChunkRecord) (t : Task) (d : CacheDirectory) : Prop where
  unused : Unused e t.id
  direct : direct t.source t.destination = true
  source : r.replica t.source = some ⟨t.sourceLoc, .READY⟩
  destination : r.replica t.destination = none
  record : d.record = Function.update e.directory.record t.key (some (onWay r t))
  pins : r.pinCount < 2 ^ 64
  state : t.state = if t.usesCuda then .RUNNING else .QUEUED
  cancelRequested : t.cancelRequested = false
  ioResult : t.ioResult = 0
  copy : t.copy = .running

/-- A task whose bytes have moved is completed, unless its pin wrapped around. -/
theorem finalize_stage (hn : New e r t d) (hd : e'.directory = d) (hfree : Free e t.id e')
    (hdata : Moved e t e'.data) (ht : e'.tasks t.id = some t') (hid : t'.id = t.id)
    (hmove : t'.move = t.move) (hrun : t'.state = .RUNNING) (hcancel : t'.cancelRequested = false) :
    Stage e r t d (finalState (finalize t' unlinked e')) := by
  obtain ⟨hkey, hsrc, -, hdst, -⟩ := Move.mk.inj hmove
  have hne := direct_ne hn.direct
  have hrec : e'.directory.record t'.key = some (onWay r t) := by
    rw [hd, hn.record, hkey, Function.update_self]
  by_cases hpin : (onWay r t).pinCount = 0
  · obtain ⟨err, d', h, r', hr', hpin'⟩ := @settle_unpinned _ t'.key t'.source t'.destination
      ⟨_, hrec, hpin⟩
    rw [finalize_error hcancel h]
    exact .stuck ht hid hkey hcancel hrun ⟨hfree.queue, hfree.workers⟩ (hkey ▸ hr') hpin'
  · have hs : (onWay r t).replica t'.source = some ⟨t.sourceLoc, .COPYING⟩ := by
      rw [hsrc]
      simp [onWay, hne]
    have hdest : (onWay r t).replica t'.destination =
        some ⟨t.destinationLoc, taskState t.destination⟩ := by
      rw [hdst]
      simp [onWay]
    obtain ⟨d', h, htiers, hrec'⟩ := settle_exact hrec hs hdest (by rw [hsrc, hdst]; exact hne) hpin
    rw [finalize_ok hcancel h]
    refine @Stage.ended _ _ _ _ _ { t' with state := .COMPLETED } (hid ▸ Function.update_self _ _ _) rfl
      ⟨hfree.queue, hfree.workers⟩ fun _ => ⟨hpin, ?_, htiers.trans (congrArg _ hd), hdata⟩
    refine hrec'.trans ?_
    rw [hd, hn.record, hkey, Function.update_idem, hsrc, hdst]
    rw [onWay_settled hne hn.source hn.pins hpin]

theorem fail_stage (hfree : Free e t.id e') (hid : t'.id = t.id) :
    Stage e r t d (finalState (fail t' e')) := by
  obtain ⟨d', h⟩ := fail_frame t' e'
  rw [h]
  exact @Stage.ended _ _ _ _ _ { t' with state := .FAILED } (hid ▸ Function.update_self _ _ _) rfl
    ⟨hfree.queue, hfree.workers⟩ nofun

theorem poll_idle (ht : e'.tasks id = some t') (hrun : t'.state ≠ .RUNNING) :
    poll id unlinked e' = .ok () e' := by
  simp only [poll, bind_apply, get_apply, find, ht, check_ok, if_pos hrun, pure_apply]

theorem poll_io (ht : e'.tasks id = some t') (hrun : t'.state = .RUNNING)
    (hc : t'.usesCuda = false) : poll id unlinked e' =
      if t'.ioResult = 0 then .ok () e'
      else if t'.ioResult > 0 then finalize t' unlinked e' else fail t' e' := by
  simp only [poll, bind_apply, get_apply, find, ht, check_ok, hrun, ne_eq, not_true_eq_false,
    if_false, hc, Bool.false_eq_true]
  split_ifs <;> rfl

theorem poll_copy (ht : e'.tasks id = some t') (hrun : t'.state = .RUNNING)
    (hc : t'.usesCuda = true) : poll id unlinked e' =
      match t'.copy with
      | .running | .landed => .ok () e'
      | .failed => fail { t' with error := "cudaEventQuery" } e'
      | .done => finalize t' unlinked e' := by
  simp only [poll, bind_apply, get_apply, find, ht, check_ok, hrun, ne_eq, not_true_eq_false,
    if_false, hc, if_true]
  cases t'.copy <;> rfl

/-- A stuck task stays stuck or fails. -/
theorem stuck_poll (ht : e'.tasks t.id = some t') (hid : t'.id = t.id) (hkey : t'.key = t.key)
    (hcancel : t'.cancelRequested = false) (hrun : t'.state = .RUNNING) (hfree : Free e t.id e')
    (hpin : Unpinned t.key e'.directory) :
    Stage e r t d (finalState (poll t.id unlinked e')) := by
  have hstay : Stage e r t d e' := by
    obtain ⟨r', hr', hpin⟩ := hpin
    exact .stuck ht hid hkey hcancel hrun hfree hr' hpin
  have hfinal : Stage e r t d (finalState (finalize t' unlinked e')) := by
    obtain ⟨err, d', h, r', hr', hpin'⟩ := @settle_unpinned _ t'.key t'.source t'.destination
      (hkey ▸ hpin)
    rw [finalize_error hcancel h]
    exact .stuck ht hid hkey hcancel hrun ⟨hfree.queue, hfree.workers⟩ (hkey ▸ hr') hpin'
  cases hc : t'.usesCuda with
  | true =>
    rw [poll_copy ht hrun hc]
    cases t'.copy with
    | running => exact hstay
    | landed => exact hstay
    | done => exact hfinal
    | failed => exact fail_stage hfree hid
  | false =>
    rw [poll_io ht hrun hc]
    split_ifs
    · exact hstay
    · exact hfinal
    · exact fail_stage hfree hid

theorem poll_stage (hn : New e r t d) (h : Stage e r t d e') :
    Stage e r t d (finalState (poll t.id unlinked e')) := by
  cases h with
  | queued ht hc hd hq hw hdata =>
    have hrun : t.state ≠ .RUNNING := by
      rw [hn.state, hc]
      exact nofun
    rw [poll_idle ht hrun]
    exact .queued ht hc hd hq hw hdata
  | held ht hc hd hq hwork hw =>
    rw [poll_io ht rfl hc, if_pos hn.ioResult]
    exact .held ht hc hd hq hwork hw
  | @served n error hn' ht hc hd hfree hdata =>
    rw [poll_io ht rfl hc, if_neg hn']
    split_ifs with hpos
    · exact finalize_stage hn hd hfree (hdata hpos) ht rfl rfl rfl hn.cancelRequested
    · exact fail_stage hfree rfl
  | @copying c ht hc hd hfree hdata =>
    have hrun : t.state = .RUNNING := by
      rw [hn.state, hc]
      rfl
    rw [poll_copy ht hrun hc]
    cases c with
    | running => exact .copying ht hc hd hfree hdata
    | landed => exact .copying ht hc hd hfree hdata
    | done => exact finalize_stage hn hd hfree hdata ht rfl rfl hrun hn.cancelRequested
    | failed => exact fail_stage hfree rfl
  | stuck ht hid hkey hcancel hrun hfree hr hpin =>
    exact stuck_poll ht hid hkey hcancel hrun hfree ⟨_, hr, hpin⟩
  | @ended t' ht hend hfree h =>
    have hrun : t'.state ≠ .RUNNING := by
      intro h
      rw [h] at hend
      cases hend
    rw [poll_idle ht hrun]
    exact .ended ht hend hfree h

/-- `poll` leaves the owner and the sizes of the buffers alone. -/
theorem poll_frame (id : ℕ) (unlinked : Bool) (e : Engine) :
    (finalState (poll id unlinked e)).owner = e.owner ∧
      (finalState (poll id unlinked e)).shape = e.shape := by
  let I : Engine → Prop := fun e' => e'.owner = e.owner ∧ e'.shape = e.shape
  have hdirectory : ∀ x : Call CacheDirectory Unit, Keeps I (onDirectory x) := fun x s hs => by
    unfold onDirectory
    split <;> exact hs
  have hstore : ∀ x : Call ChunkFileStore Unit, Keeps I (onStore x) := fun x s hs => by
    unfold onStore
    split <;> exact hs
  have htask : ∀ t, Keeps I (modify fun e => e.setTask t : Call Engine PUnit) :=
    fun t => .modify fun s hs => hs
  have hcancelled : ∀ t, Keeps I (finalizeCancelled t unlinked) := fun t => by
    refine .bind .get fun s => ?_
    split_ifs
    · exact .bind (hstore _) fun _ => .bind (hdirectory _) fun _ => htask _
    · exact .bind (hdirectory _) fun _ => htask _
  have hfinal : ∀ t, Keeps I (finalize t unlinked) := fun t => by
    unfold finalize
    split_ifs
    · exact hcancelled t
    · exact .bind (hdirectory _) fun _ => htask _
  have hfail : ∀ t, Keeps I (fail t) := fun t => .bind (htask _) fun _ => hdirectory _
  have hk : Keeps I (poll id unlinked) := by
    refine .bind .get fun s => .bind (.check _) fun t => ?_
    split_ifs
    · exact .pure _
    · split
      · exact .pure _
      · exact .pure _
      · exact hfail _
      · exact hfinal _
    · exact .pure _
    · exact hfinal _
    · exact hfail _
  exact hk e ⟨rfl, rfl⟩

theorem Phase.poll (hn : New e r t d) (h : Phase e r t d e') :
    Phase e r t d (finalState (Engine.poll t.id unlinked e')) := by
  obtain ⟨ho, hs⟩ := poll_frame t.id unlinked e'
  exact ⟨hs.trans h.shape, ho.symm ▸ h.owner, poll_stage hn h.stage⟩

theorem wait_phase (h : Phase e r t d e') : Phase e r t d (e'.enter t.id (.waitLoad t.id)) := by
  unfold enter
  split_ifs
  · exact h.setOwner rfl
  · exact h

/-- The steps of `wait`. -/
theorem owner_phase (hn : New e r t d) (h : Phase e r t d e')
    (hstep : e'.ownerStep unlinked = some e'') : Phase e r t d e'' := by
  have ho := h.owner
  unfold ownerStep at hstep
  split at hstep
  · cases hstep
  · cases hstep
  · obtain ⟨t', ht, rfl⟩ := Option.map_eq_some_iff.mp hstep
    rename_i heq
    rw [heq] at ho
    refine h.setOwner ?_
    split_ifs
    · trivial
    · exact ho
    · exact ho
    · exact ho
  · rename_i heq
    rw [heq] at ho
    cases hstep
    exact h.setOwner ho
  · obtain ⟨t', ht, rfl⟩ := Option.map_eq_some_iff.mp hstep
    rename_i heq
    rw [heq] at ho
    refine h.setOwner ?_
    split_ifs
    · exact ho
    · exact ho
    · exact ho
  · rename_i heq
    rw [heq] at ho
    cases hstep
    exact h.setOwner ho
  · rename_i heq
    rw [heq] at ho
    obtain ⟨t', ht, hstep⟩ := Option.bind_eq_some_iff.mp hstep
    split at hstep
    · cases hstep
    · cases hstep
    · cases hstep
      exact h.setOwner ho
    · cases hstep
      exact h.setOwner trivial
  · rename_i heq
    rw [heq] at ho
    cases hstep
    obtain rfl := ho
    exact (h.setOwner (s := .idle) trivial).poll hn
  all_goals
    rename_i heq
    rw [heq] at ho
    exact ho.elim

/-! ## The worker -/

section Data

variable {data : (ℕ → Bytes) × (ℕ → Bytes) × ChunkFileStore} {p : PendingWrite}

theorem Work.taken_data (h : Work e t data (.taken id)) : data = e.data := by
  cases h
  rfl

theorem Work.started_data (h : Work e t data (.started id)) : data = e.data := by
  cases h
  rfl

theorem Work.writing_data (h : Work e t data (.writing id p)) : data = e.data ∧
    t.destination = .NVME ∧ e.buffer .CPU t.sourceLoc.slot = .ok () ∧
    e.store.writeCheck t.destinationLoc.slot t.fileMeta (e.cpu t.sourceLoc.slot) = .ok p := by
  cases h with
  | writing hd hb hp => exact ⟨rfl, hd, hb, hp⟩

theorem Work.finished_data {n : ℤ} {error : String} (h : Work e t data (.finished id n error)) :
    n ≠ 0 ∧ (0 < n → Moved e t data) := by
  cases h with
  | finished hn h => exact ⟨hn, h⟩

end Data

theorem buffer_shape (h : e'.shape = e.shape) (tier : StorageTier) (i : ℕ) :
    e'.buffer tier i = e.buffer tier i := by
  obtain ⟨-, hg, hc⟩ : e'.chunkBytes = e.chunkBytes ∧ e'.gpuSlots = e.gpuSlots ∧
      e'.cpuSlots = e.cpuSlots := by simpa [shape] using h
  unfold buffer
  rw [hg, hc]

theorem data_inj (h : e'.data = e.data) :
    e'.gpu = e.gpu ∧ e'.cpu = e.cpu ∧ e'.store = e.store := by
  simpa [data] using h

theorem mem_data (h : e'.data = e.data) : e'.mem = e.mem := by
  obtain ⟨hg, hc, -⟩ := data_inj h
  funext tier
  cases tier with
  | GPU => exact hg
  | CPU => exact hc
  | NVME => rfl

theorem setMem_data (h : e'.data = e.data) (tier : StorageTier) (i : ℕ) (b : Bytes) :
    (e'.setMem tier i b).data = (e.setMem tier i b).data := by
  obtain ⟨hg, hc, hs⟩ := data_inj h
  unfold setMem data
  simp only [hg, hc, hs]

/-- The task of a worker that has it. -/
theorem Stage.of_task (h : Stage e r t d e') (hw : (e'.workers w).task = some t.id) :
    e'.tasks t.id = some { t with state := .RUNNING } ∧ t.usesCuda = false ∧ e'.directory = d ∧
      e'.ioQueue = e.ioQueue ∧ Work e t e'.data (e'.workers w) ∧
      ∀ v, v ≠ w → (e'.workers v).task ≠ some t.id := by
  cases h with
  | queued _ _ _ _ hno _ => exact absurd hw (hno w)
  | @held w' ht hc hd hq hwork hother =>
    by_cases h : w = w'
    · subst h
      exact ⟨ht, hc, hd, hq, hwork, hother⟩
    · exact absurd hw (hother w h)
  | served _ _ _ _ hfree _ => exact absurd hw (hfree.workers w)
  | copying _ _ _ hfree _ => exact absurd hw (hfree.workers w)
  | stuck _ _ _ _ _ hfree _ _ => exact absurd hw (hfree.workers w)
  | ended _ _ hfree _ => exact absurd hw (hfree.workers w)

/-- The worker goes on. -/
theorem Stage.work (h : Stage e r t d e') (hw : (e'.workers w).task = some t.id)
    {s : WorkerState} (ht : e''.tasks = e'.tasks) (hd : e''.directory = e'.directory)
    (hq : e''.ioQueue = e'.ioQueue) (hs : e''.workers = Function.update e'.workers w s)
    (hwork : Work e t e''.data s) : Stage e r t d e'' := by
  obtain ⟨ht', hc, hd', hq', -, hother⟩ := h.of_task hw
  refine .held (w := w) (ht ▸ ht') hc (hd.trans hd') (hq.trans hq') ?_ fun v hv => ?_
  · rw [hs, Function.update_self]
    exact hwork
  · rw [hs, Function.update_of_ne hv]
    exact hother v hv

theorem take_phase (hn : New e r t d) (h : Phase e r t d e') (hbest : e'.best = some t.id)
    (hstep : e'.take w = some e'') : Phase e r t d e'' := by
  have hmem := best_mem hbest
  unfold take at hstep
  split_ifs at hstep
  rw [hbest, Option.bind_some] at hstep
  obtain ⟨t', ht', rfl⟩ := Option.map_eq_some_iff.mp hstep
  refine ⟨h.shape, h.owner, ?_⟩
  have hno : e'.ioQueue ≠ e.ioQueue := fun hq => hn.unused.queue (hq ▸ hmem)
  cases h.stage with
  | queued ht hc hd hq hw hdata =>
    obtain rfl : t = t' := Option.some.inj (ht.symm.trans ht')
    refine .held (w := w) (Function.update_self _ _ _) hc hd ?_ ?_ fun v hv => ?_
    · show e'.ioQueue.erase t.id = e.ioQueue
      rw [hq, List.erase_append_right _ hn.unused.queue, List.erase_cons_head, List.append_nil]
    · show Work e t e'.data (Function.update e'.workers w (.taken t.id) w)
      rw [Function.update_self, hdata]
      exact .taken
    · show (Function.update e'.workers w (.taken t.id) v).task ≠ some t.id
      rw [Function.update_of_ne hv]
      exact hw v
  | held _ _ _ hq _ _ => exact absurd hq hno
  | served _ _ _ _ hfree _ => exact absurd hfree.queue hno
  | copying _ _ _ hfree _ => exact absurd hfree.queue hno
  | stuck _ _ _ _ _ hfree _ _ => exact absurd hfree.queue hno
  | ended _ _ hfree _ => exact absurd hfree.queue hno

theorem checkCancel_phase (hn : New e r t d) (h : Phase e r t d e')
    (hown : (e'.workers w).task = some t.id) (hstep : e'.checkCancel w = some e'') :
    Phase e r t d e'' := by
  obtain ⟨ht, -, -, -, hwork, -⟩ := h.stage.of_task hown
  unfold checkCancel at hstep
  split at hstep
  · rename_i i hw
    obtain ⟨t', ht', rfl⟩ := Option.map_eq_some_iff.mp hstep
    rw [hw] at hown hwork
    obtain rfl : i = t.id := Option.some.inj hown
    obtain rfl : { t with state := .RUNNING } = t' := Option.some.inj (ht.symm.trans ht')
    refine ⟨h.shape, h.owner, h.stage.work (hw ▸ rfl) rfl rfl rfl rfl ?_⟩
    rw [if_neg (by rw [hn.cancelRequested]; exact Bool.false_ne_true)]
    show Work e t e'.data _
    rw [hwork.taken_data]
    exact .started
  · cases hstep

theorem readChunk_ok_inv {i j : ℕ} {expected : ChunkFileMeta} {fault : ReadFault}
    (h : readChunk i expected j fault e = .ok () e') : ∃ m out, e.buffer .CPU j = .ok () ∧
      e.store.read fault i expected e.chunkBytes (e.cpu j) = .ok (some m) out ∧
      e' = e.setMem .CPU j out := by
  unfold readChunk at h
  cases hb : e.buffer .CPU j with
  | error err => rw [hb] at h; cases h
  | ok _ =>
    rw [hb] at h
    simp only at h
    cases hr : e.store.read fault i expected e.chunkBytes (e.cpu j) with
    | error err out => rw [hr] at h; cases h
    | ok found out =>
      rw [hr] at h
      cases found with
      | none => cases h
      | some m => cases h; exact ⟨m, out, rfl, rfl, rfl⟩

/-- A read changes at most the bytes of its slot. -/
theorem readChunk_error_inv {i j : ℕ} {expected : ChunkFileMeta} {fault : ReadFault} {err : Exn}
    (h : readChunk i expected j fault e = .error err e') :
    e' = e ∨ ∃ out, e' = e.setMem .CPU j out := by
  unfold readChunk at h
  cases hb : e.buffer .CPU j with
  | error err => rw [hb] at h; cases h; exact .inl rfl
  | ok _ =>
    rw [hb] at h
    simp only at h
    cases hr : e.store.read fault i expected e.chunkBytes (e.cpu j) with
    | error err out => rw [hr] at h; cases h; exact .inr ⟨out, rfl⟩
    | ok found out =>
      rw [hr] at h
      cases found with
      | none => cases h; exact .inr ⟨out, rfl⟩
      | some m => cases h

/-- The source of a file transfer. -/
theorem New.file_source (hn : New e r t d) (hc : t.usesCuda = false) :
    (t.source = .CPU ∧ t.destination = .NVME) ∨ (t.source = .NVME ∧ t.destination = .CPU) := by
  have hd := hn.direct
  unfold Task.usesCuda at hc
  cases hs : t.source <;> cases hd' : t.destination <;> rw [hs, hd'] at hd hc <;> simp_all [V3.Engine.direct]

theorem failed_work {data : (ℕ → Bytes) × (ℕ → Bytes) × ChunkFileStore} (error : String) :
    Work e t data (.finished t.id (-1) error) :=
  .finished (by decide) fun h => absurd h (by decide)

theorem io_phase (hn : New e r t d) (h : Phase e r t d e') {fault : ReadFault}
    (hown : (e'.workers w).task = some t.id) (hstep : e'.io w fault = some e'') :
    Phase e r t d e'' := by
  obtain ⟨ht, hc, -, -, hwork, -⟩ := h.stage.of_task hown
  unfold io at hstep
  split at hstep
  swap
  · cases hstep
  rename_i i hw
  obtain ⟨t', ht', rfl⟩ := Option.map_eq_some_iff.mp hstep
  have htask := hown
  rw [hw] at hown hwork
  obtain rfl : i = t.id := Option.some.inj hown
  obtain rfl : { t with state := .RUNNING } = t' := Option.some.inj (ht.symm.trans ht')
  have hdata := hwork.started_data
  obtain ⟨hgpu, hcpu, hstore⟩ := data_inj hdata
  rcases hn.file_source hc with ⟨hs, hd⟩ | ⟨hs, hd⟩
  · -- a write up to the quota check
    simp only [hd, if_true]
    cases hb : e'.buffer .CPU t.sourceLoc.slot with
    | error err => exact ⟨h.shape, h.owner, h.stage.work htask rfl rfl rfl rfl (failed_work _)⟩
    | ok _ =>
      simp only
      cases hp : e'.store.writeCheck t.destinationLoc.slot t.fileMeta (e'.cpu t.sourceLoc.slot) with
      | error err => exact ⟨h.shape, h.owner, h.stage.work htask rfl rfl rfl rfl (failed_work _)⟩
      | ok p =>
        refine ⟨h.shape, h.owner, h.stage.work htask rfl rfl rfl rfl ?_⟩
        show Work e t e'.data _
        rw [hdata]
        refine .writing hd ?_ ?_
        · rw [← buffer_shape h.shape, hb]
        · rw [← hstore, ← hcpu, hp]
  · -- a read
    have hne : ¬ t.destination = .NVME := by rw [hd]; exact nofun
    simp only [if_neg hne]
    cases hread : readChunk t.sourceLoc.slot t.fileMeta t.destinationLoc.slot fault e' with
    | error err e₁ =>
      rcases readChunk_error_inv hread with rfl | ⟨out, rfl⟩
      · exact ⟨h.shape, h.owner, h.stage.work htask rfl rfl rfl rfl (failed_work _)⟩
      · exact ⟨h.shape, h.owner, h.stage.work htask rfl rfl rfl rfl (failed_work _)⟩
    | ok u e₁ =>
      obtain ⟨m, out, hb, hr, rfl⟩ := readChunk_ok_inv hread
      refine ⟨h.shape, h.owner, h.stage.work htask rfl rfl rfl rfl (.finished one_ne_zero fun _ => ?_)⟩
      show Moved e t (e'.setMem .CPU t.destinationLoc.slot out).data
      rw [setMem_data hdata]
      have hchunk : e'.chunkBytes = e.chunkBytes := congrArg Prod.fst h.shape
      rw [buffer_shape h.shape] at hb
      rw [hstore, hcpu, hchunk] at hr
      exact .read hs hd hb hr

theorem commit_phase (hn : New e r t d) (h : Phase e r t d e') {fault : WriteFault}
    (hown : (e'.workers w).task = some t.id) (hstep : e'.commit w fault = some e'') :
    Phase e r t d e'' := by
  obtain ⟨ht, hc, -, -, hwork, -⟩ := h.stage.of_task hown
  unfold commit at hstep
  split at hstep
  swap
  · cases hstep
  rename_i i p hw
  obtain ⟨t', ht', rfl⟩ := Option.map_eq_some_iff.mp hstep
  have htask := hown
  rw [hw] at hown hwork
  obtain rfl : i = t.id := Option.some.inj hown
  obtain rfl : { t with state := .RUNNING } = t' := Option.some.inj (ht.symm.trans ht')
  obtain ⟨hdata, hd, hb, hp⟩ := hwork.writing_data
  obtain ⟨hgpu, hcpu, hstore⟩ := data_inj hdata
  simp only
  cases htemp : ChunkFileStore.writeTemp fault p (e'.cpu t.sourceLoc.slot) e'.store with
  | error err s => exact ⟨h.shape, h.owner, h.stage.work htask rfl rfl rfl rfl (failed_work _)⟩
  | ok u s =>
    refine ⟨h.shape, h.owner, h.stage.work htask rfl rfl rfl rfl (.finished one_ne_zero fun _ => ?_)⟩
    show Moved e t (e'.gpu, e'.cpu, s.writeCommit p (e'.cpu t.sourceLoc.slot))
    rw [hcpu, hstore] at htemp
    rw [hgpu, hcpu]
    have hs : t.source = .CPU := by
      rcases hn.file_source hc with ⟨hs, -⟩ | ⟨-, hd'⟩
      · exact hs
      · rw [hd] at hd'
        cases hd'
    refine @Moved.write _ _ fault _ hs hd hb ?_
    simp only [ChunkFileStore.write, bind_apply, get_apply, hp, check_ok, htemp, modify_apply]

theorem storeResult_phase (h : Phase e r t d e') (hown : (e'.workers w).task = some t.id)
    (hstep : e'.storeResult w = some e'') : Phase e r t d e'' := by
  obtain ⟨ht, hc, hd, hq, hwork, hother⟩ := h.stage.of_task hown
  unfold storeResult at hstep
  split at hstep
  swap
  · cases hstep
  rename_i i n error hw
  obtain ⟨t', ht', rfl⟩ := Option.map_eq_some_iff.mp hstep
  rw [hw] at hown hwork
  obtain rfl : i = t.id := Option.some.inj hown
  obtain rfl : { t with state := .RUNNING } = t' := Option.some.inj (ht.symm.trans ht')
  obtain ⟨hn, hmoved⟩ := hwork.finished_data
  refine ⟨h.shape, h.owner, .served hn (Function.update_self _ _ _) hc hd ⟨hq, fun v => ?_⟩ hmoved⟩
  show (Function.update e'.workers w .notifying v).task ≠ some t.id
  by_cases hv : v = w
  · subst hv
    rw [Function.update_self]
    exact nofun
  · rw [Function.update_of_ne hv]
    exact hother v hv

/-! ## The device -/

theorem device_phase (h : Phase e r t d e') {event : DeviceEvent}
    (hstep : e'.deviceStep (.task t.id) event = some e'') : Phase e r t d e'' := by
  obtain ⟨m, c, c', b, hm, hcopy, -, rfl, hcases⟩ := deviceStep_cases hstep
  obtain ⟨t', ht', hterm, hc', rfl⟩ := copyState_task hcopy
  have hm' : e'.move (.task t.id) = some t'.move := by simp [move, ht', hterm]
  obtain rfl : t'.move = m := Option.some.inj (hm'.symm.trans hm)
  refine ⟨h.shape, h.owner, ?_⟩
  have hself : Function.update e'.tasks t.id
      ((e'.tasks t.id).map fun t => { t with copy := c' }) t.id = some { t' with copy := c' } := by
    rw [Function.update_self, ht', Option.map_some]
  have hfile : ∀ s : Task, e'.tasks t.id = some s → s.usesCuda = false → False := by
    intro s hs hc
    obtain rfl : t' = s := Option.some.inj (ht'.symm.trans hs)
    rw [hc] at hc'
    cases hc'
  cases h.stage with
  | queued ht hc _ _ _ _ => exact (hfile _ ht hc).elim
  | held ht hc _ _ _ _ => exact (hfile _ ht hc).elim
  | served _ ht hc _ _ _ => exact (hfile _ ht hc).elim
  | stuck ht hid hkey hcancel hrun hfree hr hpin =>
    obtain rfl := Option.some.inj (ht'.symm.trans ht)
    exact @Stage.stuck _ _ _ _ _ { t' with copy := c' } _ hself hid hkey hcancel hrun
      ⟨hfree.queue, hfree.workers⟩ hr hpin
  | ended ht hend _ _ =>
    obtain rfl := Option.some.inj (ht'.symm.trans ht)
    rw [hend] at hterm
    cases hterm
  | @copying c ht hc hd hfree hdata =>
    obtain rfl := Option.some.inj (ht'.symm.trans ht)
    refine .copying (c := c') hself hc hd ⟨hfree.queue, hfree.workers⟩ ?_
    show Copied e t (e'.setMem t.destination t.destinationLoc.slot b).data c'
    rcases hcases with ⟨hrunning, rfl, rfl⟩ | ⟨hlanded, rfl, rfl⟩ | rfl
    · obtain rfl : c = .running := hrunning
      have hdata : e'.data = e.data := hdata
      show Moved e t (e'.setMem _ _ (overwrite (e'.mem t.destination _) (e'.mem t.source _))).data
      rw [setMem_data hdata, mem_data hdata]
      exact .copy hc
    · obtain rfl : c = .landed := hlanded
      have hmem : (e'.setMem t.destination t.destinationLoc.slot
          (e'.mem t.destination t.destinationLoc.slot)) = e' := setMem_self _ _ _
      rw [show (Task.move { t with copy := CopyState.landed }).destination = t.destination from rfl,
        show (Task.move { t with copy := CopyState.landed }).destinationLoc = t.destinationLoc from rfl,
        hmem]
      exact hdata
    · trivial

/-- **The steps of the task keep it in a stage.** -/
theorem own_phase (hn : New e r t d) (h : Phase e r t d e') (hown : Own t.id e' a)
    (hstep : step a e' = some e'') : Phase e r t d e'' := by
  cases a with
  | call c =>
    cases c with
    | poll i unlinked =>
      obtain rfl : i = t.id := hown
      simp only [step] at hstep
      split_ifs at hstep
      cases hstep
      exact h.poll hn
    | directory => exact hown.elim
    | provide => exact hown.elim
    | submit => exact hown.elim
    | beginTransfer => exact hown.elim
    | finishTransfer => exact hown.elim
    | offload => exact hown.elim
    | onload => exact hown.elim
  | wait i =>
    obtain rfl : i = t.id := hown
    simp only [step] at hstep
    split_ifs at hstep
    cases hstep
    exact wait_phase h
  | cancel => exact hown.elim
  | owner unlinked => exact owner_phase hn h hstep
  | take w => exact take_phase hn h hown hstep
  | checkCancel w => exact checkCancel_phase hn h hown hstep
  | io w fault => exact io_phase hn h hown hstep
  | commit w fault => exact commit_phase hn h hown hstep
  | storeResult w => exact storeResult_phase h hown hstep
  | notify w => exact notify_phase h hstep
  | device o event =>
    obtain rfl : o = .task t.id := hown
    exact device_phase h hstep
  | scribble => exact hown.elim

end Engine

end KVFlux.V3
