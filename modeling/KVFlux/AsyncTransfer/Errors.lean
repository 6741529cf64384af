import KVFlux.AsyncTransfer.Submit

/-!
# What the calls of a runtime throw

* **`submit_throws`**, **`synchronize_throws`**: a runtime never reports a lack of blocks; only
  allocations do.
-/

namespace KVFlux.AsyncTransfer

open Fallible BlockManager GpuMemoryPool

/-- Any exception but `CapacityError`. -/
def NotCapacity (e : Exn) : Prop := e ≠ .capacityError

theorem notCapacity_cudaError (operation message : String) :
    NotCapacity (cudaError operation message) := fun h => by cases h

theorem release_throws (h : BlockHandle) : Throws NotCapacity (BlockManager.release h) := fun m => by
  rcases release_cases h m with hc | hc | hc
  · rw [hc.2]
    exact fun he => by cases he
  · rw [hc.2.2]
    exact fun he => by cases he
  · rw [hc.2.2]
    exact trivial

theorem retain_throws (h : BlockHandle) : Throws NotCapacity (BlockManager.retain h) := fun m => by
  rcases retain_cases h m with hc | hc | hc
  · rw [hc.2]
    exact fun he => by cases he
  · rw [hc.2.2]
    exact fun he => by cases he
  · rw [hc.2.2]
    exact trivial

theorem releaseAll_throws (hs : List BlockHandle) : Throws NotCapacity (releaseAll hs) := by
  induction hs with
  | nil => exact .pure ()
  | cons h hs ih => exact .bind (release_throws h) fun _ => ih

theorem retainAll_throws (hs : List BlockHandle) : ∀ done,
    Throws NotCapacity (retainAll done hs) := by
  induction hs with
  | nil => exact fun done => .pure ()
  | cons h hs ih =>
    exact fun done => .bind (.onError (retain_throws h) (releaseAll_throws done)) fun _ => ih _

theorem onManager_throws {α : Type} {x : Call BlockManager α} (hx : Throws NotCapacity x) :
    Throws NotCapacity (onManager x) := fun pool => by
  have h := hx pool.manager
  unfold onManager
  cases hr : x pool.manager with
  | ok a m => exact trivial
  | error e m => exact h.of_error hr

theorem onPool_throws {α : Type} {x : Call GpuMemoryPool α} (hx : Throws NotCapacity x) :
    Throws NotCapacity (onPool x) := fun t => by
  have h := hx t.pool
  unfold onPool
  cases hr : x t.pool with
  | ok a pool => exact trivial
  | error e pool => exact h.of_error hr

theorem finishBlocks_throws (success write : Bool) (hs : List BlockHandle) :
    Throws NotCapacity (finishBlocks success write hs) := by
  induction hs with
  | nil => exact .pure ()
  | cons h hs ih =>
    have hend : Throws NotCapacity (do
        modify (setInFlight h.id false)
        GpuMemoryPool.release h) :=
      .bind (.modify _) fun _ => onManager_throws (release_throws h)
    refine .bind ?_ fun _ => ih
    cases write with
    | false => exact hend
    | true => exact .bind (.modify _) fun _ => hend

theorem finish_throws (success : Bool) : Throws NotCapacity (finish success) := by
  have hbatches : ∀ ws, Throws NotCapacity (finishBatches success ws) := fun ws => by
    induction ws with
    | nil => exact .pure ()
    | cons w ws ih =>
      exact .bind (onPool_throws (finishBlocks_throws _ _ _)) fun _ => .bind (.modify _) fun _ => ih
  have hend : Throws NotCapacity (do
      let t ← get
      finishBatches success t.runtime.pending
      modify clearPending) :=
    .bind .get fun t => .bind (hbatches _) fun _ => .modify _
  cases success with
  | false => exact .bind (.modify _) fun _ => hend
  | true => exact hend

theorem abandon_throws (damage : Damage) : Throws NotCapacity (abandon damage) :=
  .bind (.modify _) fun _ => finish_throws false

theorem deviceGuard_throws {fault : Option GuardFault} {e : Exn}
    (h : deviceGuard fault = .error e) : NotCapacity e := by
  rcases fault with _ | ⟨message⟩ | ⟨message⟩
  · cases h
  · cases h
    exact notCapacity_cudaError _ _
  · cases h
    exact notCapacity_cudaError _ _

theorem deviceAddress_throws {pool : GpuMemoryPool} {h : BlockHandle} {e : Exn}
    (he : pool.deviceAddress h = .error e) : NotCapacity e := by
  obtain ⟨text, rfl⟩ := deviceAddress_error he
  exact fun h => by cases h

/-! ## Submitting -/

theorem refCount_throws {m : BlockManager} {h : BlockHandle} {e : Exn}
    (he : m.refCount h = .error e) : NotCapacity e := by
  unfold BlockManager.refCount BlockManager.checked at he
  split_ifs at he
  · cases he
  · cases he
    exact fun h => by cases h

theorem isPublished_throws {m : BlockManager} {h : BlockHandle} {e : Exn}
    (he : m.isPublished h = .error e) : NotCapacity e := by
  unfold BlockManager.isPublished BlockManager.checked at he
  split_ifs at he
  · cases he
  · cases he
    exact fun h => by cases h

theorem notCapacity_invalidArgument (text : String) : NotCapacity (.invalidArgument text) :=
  fun h => by cases h

theorem notCapacity_logicError (text : String) : NotCapacity (.logicError text) :=
  fun h => by cases h

theorem validateBlocks_throws (pool : GpuMemoryPool) (write : Bool) (hs : List BlockHandle) :
    ∀ seen, Fails NotCapacity (validateBlocks pool write seen hs) := by
  induction hs with
  | nil => exact fun seen => .ok ()
  | cons h hs ih =>
    intro seen
    rw [validateBlocks]
    refine .bind (fun e he => deviceAddress_throws he) fun _ => ?_
    refine .guard (notCapacity_invalidArgument _) ?_
    refine .guard (notCapacity_logicError _) ?_
    refine .bind (fun e he => refCount_throws he) fun _ => ?_
    refine .bind (fun e he => isPublished_throws he) fun _ => ?_
    refine .guard (notCapacity_invalidArgument _) ?_
    exact .guard (notCapacity_invalidArgument _) (ih _)

theorem validate_throws (t : Transfers) (blocks : List BlockHandle) (buffer : ℕ) (write : Bool) :
    Fails NotCapacity (validate t blocks buffer write) := by
  unfold validate
  refine .guard (notCapacity_invalidArgument _) ?_
  refine .guard (notCapacity_invalidArgument _) ?_
  exact .guard (notCapacity_logicError _) (validateBlocks_throws _ _ _ _)

theorem newEvents_throws (fault : Option SubmitFault) : Fails NotCapacity (newEvents fault) := by
  intro e he
  rcases fault with _ | fault | message | message | fault | ⟨call, message, damage⟩
  · cases he
  · exact deviceGuard_throws he
  · cases he
    exact notCapacity_cudaError _ _
  · cases he
    exact notCapacity_cudaError _ _
  · cases he
  · cases he

theorem takeEvents_throws (fault : Option SubmitFault) : Throws NotCapacity (takeEvents fault) := by
  refine .bind .get fun t => ?_
  split_ifs
  · exact .check (newEvents_throws fault)
  · exact .modify _

theorem streamCall_throws (fault : Option SubmitFault) (call : StreamCall) (operation : String) :
    Fails NotCapacity (streamCall fault call operation) := by
  intro e he
  unfold streamCall at he
  split at he
  · split_ifs at he
    cases he
    exact notCapacity_cudaError _ _
  · cases he

theorem issueCopies_throws (pool : GpuMemoryPool) (fault : Option SubmitFault)
    (hs : List BlockHandle) : ∀ i, Fails NotCapacity (issueCopies pool fault i hs) := by
  induction hs with
  | nil => exact fun i => .ok ()
  | cons h hs ih =>
    exact fun i => .bind (fun e he => deviceAddress_throws he) fun _ =>
      .bind (streamCall_throws _ _ _) fun _ => ih _

theorem issue_throws (pool : GpuMemoryPool) (fault : Option SubmitFault)
    (blocks : List BlockHandle) : Fails NotCapacity (issue pool fault blocks) :=
  .bind (streamCall_throws _ _ _) fun _ => .bind (issueCopies_throws _ _ _ _) fun _ =>
    streamCall_throws _ _ _

/-- **A submission never lacks blocks.** -/
theorem submit_throws (fault : Option SubmitFault) (blocks : List BlockHandle) (buffer : ℕ)
    (write : Bool) : Throws NotCapacity (submit fault blocks buffer write) :=
  .bind .get fun t => .bind (.check (validate_throws t blocks buffer write)) fun _ =>
    .bind (takeEvents_throws fault) fun _ =>
    .bind (.check fun _ he => deviceGuard_throws he) fun _ =>
    .bind (onPool_throws (onManager_throws (retainAll_throws blocks []))) fun _ =>
    .bind (.modify _) fun _ => .bind .get fun _ =>
    .onError (.check (issue_throws _ _ _)) (abandon_throws _)

/-! ## Waiting -/

theorem measure_throws (t : Transfers) (fault : Option SyncFault) (ws : List Pending) :
    ∀ i metrics, Fails NotCapacity (measure t fault i ws metrics) := by
  induction ws with
  | nil => exact fun i metrics => .ok metrics
  | cons w ws ih =>
    intro i metrics
    unfold measure
    split
    · split_ifs
      · exact .error (notCapacity_cudaError _ _)
      · exact ih _ _
    · exact ih _ _

theorem awaitStream_throws (fault : Option SyncFault) : Fails NotCapacity (awaitStream fault) := by
  intro e he
  rcases fault with _ | ⟨fault, damage⟩ | ⟨message, damage⟩ | ⟨i, message, damage⟩
  · cases he
  · cases he
  · cases he
    exact notCapacity_cudaError _ _
  · cases he

/-- **Waiting for the stream never lacks blocks.** -/
theorem synchronize_throws (fault : Option SyncFault) : Throws NotCapacity (synchronize fault) := by
  have hawait : Throws NotCapacity (awaitCopies fault) :=
    .bind (.check fun e he => deviceGuard_throws he) fun _ =>
    .bind (.check (awaitStream_throws fault)) fun _ => .bind (.modify _) fun _ =>
    .bind .get fun t => .bind (.check (measure_throws _ _ _ _ _)) fun _ => .modify _
  exact .bind (.onError hawait (abandon_throws _)) fun _ => finish_throws true

/-! ## Reading -/

/-- **A blocking read never lacks blocks.** -/
theorem readBlock_throws (fault : Option ReadFault) (h : BlockHandle) (size : Option ℕ) :
    Throws NotCapacity (GpuMemoryPool.readBlock fault h size) := by
  refine .bind .get fun state => ?_
  obtain ⟨pool, memory⟩ := state
  refine .bind (.check fun e he => deviceAddress_throws he) fun _ => ?_
  refine .bind (.ensure (notCapacity_logicError _)) fun _ => ?_
  refine .bind (.ensure (notCapacity_invalidArgument _)) fun _ => ?_
  refine .bind (.ensure (notCapacity_invalidArgument _)) fun _ => ?_
  refine .bind (.check fun e he => deviceGuard_throws he) fun _ => ?_
  rcases fault with _ | ⟨fault⟩ | ⟨message⟩
  · exact .pure _
  · exact .pure _
  · exact .throw (notCapacity_cudaError _ _)

end KVFlux.AsyncTransfer
