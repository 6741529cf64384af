import KVFlux.GpuMemoryPool
import KVFlux.BlockManager.Ownership

/-!
# What the calls on the GPU memory pool do

* `deviceAddress_of_valid`, `deviceAddress_ok_iff`: an address is handed out for a live block with
  references.
* `onManager_ok`, `onManager_error`, `allocate_ok`, `allocate_error`: the calls on the block manager.
* `Writable`: what `write_block` demands of a block; **`writeBlock_cases`**: a write is rejected,
  fails in the device, or completes.
* `Readable`: what `read_block` and `publish` demand; **`readBlock_cases`**, **`publish_cases`**.
-/

namespace KVFlux.GpuMemoryPool

open Fallible BlockManager

variable {pool pool' : GpuMemoryPool} {memory : SlotMemory} {h : BlockHandle} {m : BlockManager}

/-- **The address of a live block with references.** -/
theorem deviceAddress_of_valid (hv : pool.manager.Valid h)
    (hr : (pool.manager.slots h.id).refs ≠ 0) :
    pool.deviceAddress h = .ok (pool.base + h.id * pool.blockBytes) := by
  have hlt : ¬ h.id ≥ pool.totalBlocks := not_le.mpr hv.1
  unfold GpuMemoryPool.deviceAddress BlockManager.refCount
  rw [checked_ok h hv]
  simp [hr, Except.map, bind, Except.bind, GpuMemoryPool.addressOf, hlt]

theorem deviceAddress_ok_iff : (∃ a, pool.deviceAddress h = .ok a) ↔
    pool.manager.Valid h ∧ (pool.manager.slots h.id).refs ≠ 0 := by
  by_cases hv : pool.manager.Valid h
  · by_cases hr : (pool.manager.slots h.id).refs = 0
    · unfold GpuMemoryPool.deviceAddress BlockManager.refCount
      rw [checked_ok h hv]
      exact iff_of_false (fun ⟨a, ha⟩ => by simp [hr, Except.map, bind, Except.bind] at ha)
        fun hc => hc.2 hr
    · exact iff_of_true ⟨_, deviceAddress_of_valid hv hr⟩ ⟨hv, hr⟩
  · unfold GpuMemoryPool.deviceAddress BlockManager.refCount
    rw [checked_error h hv]
    exact iff_of_false (fun ⟨a, ha⟩ => by cases ha) fun hc => hv hc.1

theorem refCount_of_valid (hv : pool.manager.Valid h) :
    pool.manager.refCount h = .ok (pool.manager.slots h.id).refs := by
  unfold BlockManager.refCount
  rw [checked_ok h hv]
  rfl

theorem isPublished_of_valid (hv : pool.manager.Valid h) :
    pool.manager.isPublished h = .ok (pool.manager.slots h.id).cached := by
  unfold BlockManager.isPublished
  rw [checked_ok h hv]
  rfl

/-! ## Calls on the block manager -/

theorem onManager_ok {α : Type} {x : Call BlockManager α} {a : α} (hx : x pool.manager = .ok a m) :
    onManager x pool = .ok a { pool with manager := m } := by
  unfold onManager
  simp only [hx]

theorem onManager_error {α : Type} {x : Call BlockManager α} {e : Exn}
    (hx : x pool.manager = .error e m) : onManager x pool = .error e { pool with manager := m } := by
  unfold onManager
  simp only [hx]

theorem allocate_ok (ha : BlockManager.allocate pool.manager = .ok h m) : allocate pool = .ok h
    { pool with manager := m, initialized := Function.update pool.initialized h.id false } := by
  unfold allocate
  rw [bind_of_ok (onManager_ok ha)]
  rfl

theorem allocate_error {e : Exn} (ha : BlockManager.allocate pool.manager = .error e m) :
    allocate pool = .error e { pool with manager := m } :=
  bind_of_error (onManager_error ha)

/-! ## Whole blocks -/

/-- What `write_block` demands of a block. -/
structure Writable (pool : GpuMemoryPool) (h : BlockHandle) : Prop where
  valid : pool.manager.Valid h
  landed : pool.inFlight h.id = false
  refs_eq : (pool.manager.slots h.id).refs = 1
  unpublished : (pool.manager.slots h.id).cached = false

/-- The device fails a write, as opposed to a rejection. -/
def writeFails (fault : Option WriteFault) (e : Exn) : Bool :=
  match fault with
  | some (.copy message _) => e = cudaError "write_block cudaMemcpy" message
  | some (.synchronize message _) => e = cudaError "write_block synchronize" message
  | _ => false

theorem writeFails_invalidArgument (fault : Option WriteFault) (text : String) :
    writeFails fault (.invalidArgument text) = false := by
  rcases fault with _ | ⟨_ | _ | _⟩ <;> rfl

theorem writeFails_logicError (fault : Option WriteFault) (text : String) :
    writeFails fault (.logicError text) = false := by
  rcases fault with _ | ⟨_ | _ | _⟩ <;> rfl

theorem deviceAddress_error {e : Exn} (he : pool.deviceAddress h = .error e) :
    ∃ text, e = .invalidArgument text := by
  unfold deviceAddress BlockManager.refCount at he
  by_cases hv : pool.manager.Valid h
  · rw [checked_ok h hv] at he
    by_cases hr : (pool.manager.slots h.id).refs = 0
    · simp only [hr, Except.map, bind, Except.bind, if_true] at he
      exact ⟨_, (Except.error.inj he).symm⟩
    · obtain ⟨a, ha⟩ := deviceAddress_ok_iff.mpr ⟨hv, hr⟩
      unfold deviceAddress BlockManager.refCount at ha
      rw [checked_ok h hv, he] at ha
      cases ha
  · rw [checked_error h hv] at he
    exact ⟨_, (Except.error.inj he).symm⟩

/-- **The outcomes of `write_block`**: rejected without a change, failed with unknown bytes in the
slot, or completed. -/
theorem writeBlock_cases (fault : Option WriteFault) (h : BlockHandle) (host : Option Bytes)
    (pool : GpuMemoryPool) (memory : SlotMemory) :
    (∃ e, writeBlock fault h host (pool, memory) = .error e (pool, memory) ∧
      writeFails fault e = false) ∨
    (∃ bytes, host = some bytes ∧ bytes.length = pool.blockBytes ∧ Writable pool h ∧
      (writeBlock fault h host (pool, memory) =
          .ok () (setInitialized h.id true pool, Function.update memory h.id bytes) ∨
        ∃ e left, writeBlock fault h host (pool, memory) = .error e
          (setInitialized h.id false pool, Function.update memory h.id left) ∧
          writeFails fault e = true)) := by
  unfold writeBlock
  rw [bind_of_ok (get_apply _)]
  dsimp only
  cases haddr : pool.deviceAddress h with
  | error e =>
    obtain ⟨text, rfl⟩ := deviceAddress_error haddr
    exact .inl ⟨_, rfl, writeFails_invalidArgument fault text⟩
  | ok a =>
    obtain ⟨hv, -⟩ := deviceAddress_ok_iff.mp ⟨a, haddr⟩
    rw [bind_of_check (a := a) rfl]
    by_cases hflight : pool.inFlight h.id = true
    · exact .inl ⟨_, bind_of_error (if_neg (not_not.mpr hflight)),
        writeFails_logicError fault _⟩
    rw [bind_of_ok (ensure_apply hflight)]
    cases host with
    | none => exact .inl ⟨_, rfl, writeFails_invalidArgument fault _⟩
    | some bytes =>
      by_cases hlength : bytes.length = pool.blockBytes
      swap
      · exact .inl ⟨_, bind_of_error (if_neg hlength), writeFails_invalidArgument fault _⟩
      dsimp only
      rw [bind_of_ok (ensure_apply hlength), bind_of_check (refCount_of_valid hv),
        bind_of_check (isPublished_of_valid hv)]
      by_cases hshared : (pool.manager.slots h.id).refs ≠ 1 ∨
          (pool.manager.slots h.id).cached = true
      · exact .inl ⟨_, bind_of_error (if_neg (not_not.mpr hshared)),
          writeFails_invalidArgument fault _⟩
      rw [bind_of_ok (ensure_apply hshared)]
      have hw : Writable pool h := by
        push Not at hshared
        exact ⟨hv, by simpa using hflight, hshared.1, by simpa using hshared.2⟩
      have hdone : (fun _ => setInitialized h.id true (setInitialized h.id false pool)) () =
          setInitialized h.id true pool := by
        unfold setInitialized
        simp
      rcases fault with _ | ⟨fault | ⟨message, left⟩ | ⟨message, left⟩⟩
      · exact .inr ⟨bytes, rfl, hlength, hw, .inl (congrArg (EStateM.Result.ok ()) (Prod.ext hdone rfl))⟩
      · left
        cases fault with
        | getDevice message => exact ⟨_, rfl, rfl⟩
        | setDevice message => exact ⟨_, rfl, rfl⟩
      · exact .inr ⟨bytes, rfl, hlength, hw, .inr ⟨_, left, rfl, by simp [writeFails]⟩⟩
      · exact .inr ⟨bytes, rfl, hlength, hw, .inr ⟨_, left, rfl, by simp [writeFails]⟩⟩

/-- What `read_block` demands of a block. -/
structure Readable (pool : GpuMemoryPool) (h : BlockHandle) : Prop where
  valid : pool.manager.Valid h
  refs_ne : (pool.manager.slots h.id).refs ≠ 0
  landed : pool.inFlight h.id = false
  written : pool.initialized h.id = true

/-- **The outcomes of `read_block`**: it changes nothing, and what it delivers are the bytes of a
readable slot. -/
theorem readBlock_cases (fault : Option ReadFault) (h : BlockHandle) (size : Option ℕ)
    (pool : GpuMemoryPool) (memory : SlotMemory) :
    (∃ e, readBlock fault h size (pool, memory) = .error e (pool, memory)) ∨
      (Readable pool h ∧
        readBlock fault h size (pool, memory) = .ok (memory h.id) (pool, memory)) := by
  unfold readBlock
  rw [bind_of_ok (get_apply _)]
  dsimp only
  cases haddr : pool.deviceAddress h with
  | error e => exact .inl ⟨e, rfl⟩
  | ok a =>
    obtain ⟨hv, hr⟩ := deviceAddress_ok_iff.mp ⟨a, haddr⟩
    rw [bind_of_check (a := a) rfl]
    by_cases hflight : pool.inFlight h.id = true
    · exact .inl ⟨_, bind_of_error (if_neg (not_not.mpr hflight))⟩
    rw [bind_of_ok (ensure_apply hflight)]
    by_cases hsize : size = some pool.blockBytes
    swap
    · exact .inl ⟨_, bind_of_error (if_neg hsize)⟩
    rw [bind_of_ok (ensure_apply hsize)]
    by_cases hwritten : pool.initialized h.id = true
    swap
    · exact .inl ⟨_, bind_of_error (if_neg hwritten)⟩
    rw [bind_of_ok (ensure_apply hwritten)]
    have hreadable : Readable pool h := ⟨hv, hr, by simpa using hflight, hwritten⟩
    rcases fault with _ | ⟨fault | message⟩
    · exact .inr ⟨hreadable, rfl⟩
    · left
      cases fault with
      | getDevice message => exact ⟨_, rfl⟩
      | setDevice message => exact ⟨_, rfl⟩
    · exact .inl ⟨_, rfl⟩

/-- **The outcomes of `publish`**: rejected without a change of the flags, or done by the block
manager for a complete block. -/
theorem publish_cases (h : BlockHandle) (p : Tokens) (pool : GpuMemoryPool) :
    (∃ e, publish h p pool = .error e pool) ∨
      (Readable pool h ∧
        publish h p pool = onManager (BlockManager.publish hasher h p) pool) := by
  unfold publish
  rw [bind_of_ok (get_apply _)]
  cases haddr : pool.deviceAddress h with
  | error e => exact .inl ⟨e, rfl⟩
  | ok a =>
    obtain ⟨hv, hr⟩ := deviceAddress_ok_iff.mp ⟨a, haddr⟩
    rw [bind_of_check (a := a) rfl]
    by_cases hflight : pool.inFlight h.id = true
    · exact .inl ⟨_, bind_of_error (if_neg (not_not.mpr hflight))⟩
    rw [bind_of_ok (ensure_apply hflight)]
    by_cases hwritten : pool.initialized h.id = true
    swap
    · exact .inl ⟨_, bind_of_error (if_neg hwritten)⟩
    rw [bind_of_ok (ensure_apply hwritten)]
    exact .inr ⟨⟨hv, hr, by simpa using hflight, hwritten⟩, rfl⟩

end KVFlux.GpuMemoryPool
