import KVFlux.KVLayout
import KVFlux.PhysicalBlockPool

/-!
# The GPU memory pool

Equal blocks of one device allocation, handed out by a block manager, with two flags for each slot:
`initialized` (completely written since it was allocated) and `inFlight` (part of an unfinished
transfer).

* `GuardFault`, `WriteFault`, `ReadFault`: the CUDA calls that fail, with the text of the error.
* `GpuMemoryPool`: the pool; `SlotMemory`: the device memory, slot by slot. `PoolCall`: a call on both.
* `make`, `deviceAddress`, `addressOf`, `allocate`, `retain`, `release`, `writeBlock`, `readBlock`,
  `publish`, `lookup`.
-/

namespace KVFlux

open Fallible

/-- `cuda_check`: a failed CUDA call with its message. -/
def cudaError (operation message : String) : Exn := .runtimeError (operation ++ ": " ++ message)

/-- The failures of a `DeviceGuard`. -/
inductive GuardFault
  | getDevice (message : String)
  | setDevice (message : String)
deriving DecidableEq

/-- `DeviceGuard guard(device)`. -/
def deviceGuard : Option GuardFault → Except Exn Unit
  | none => .ok ()
  | some (.getDevice message) => .error (cudaError "cudaGetDevice" message)
  | some (.setDevice message) => .error (cudaError "cudaSetDevice" message)

/-- The bytes of every slot of a device allocation. -/
abbrev SlotMemory := ℕ → Bytes

structure GpuMemoryPool where
  manager : BlockManager
  blockBytes : ℕ
  allocatedBytes : ℕ
  /-- the address of the allocation -/
  base : ℕ
  initialized : ℕ → Bool := fun _ => false
  inFlight : ℕ → Bool := fun _ => false

/-- A call on a pool and the memory behind it. -/
abbrev PoolCall (α : Type) := Call (GpuMemoryPool × SlotMemory) α

/-- The failures of a blocking write; a failed copy leaves `left` in the slot. -/
inductive WriteFault
  | guard (fault : GuardFault)
  | copy (message : String) (left : Bytes)
  | synchronize (message : String) (left : Bytes)

/-- The failures of a blocking read. -/
inductive ReadFault
  | guard (fault : GuardFault)
  | copy (message : String)

namespace GpuMemoryPool

/-- `checked_pool_bytes`. -/
def checkedPoolBytes (blocks bytes : ℕ) : Except Exn ℕ :=
  if blocks = 0 ∨ bytes = 0 then .error (.invalidArgument "pool dimensions must be positive")
  else if blocks > sizeMax / bytes then .error (.overflowError "GPU pool byte size overflow")
  else .ok (blocks * bytes)

/-- The hash function of the block manager of a pool. -/
def hasher : Hasher := fun p => .ok (BlockManager.prefixHash p)

/-- What the device answers to the constructor: the number of devices, the guard and the address
of the allocation, or the message of the CUDA call that fails. -/
structure Allocation where
  deviceCount : Except String ℕ
  guard : Option GuardFault
  address : Except String ℕ

/-- The constructor. -/
def make (blocks bytes tokensPerBlock : ℕ) (device : ℤ) (cuda : Allocation) :
    Except Exn GpuMemoryPool := do
  let allocated ← checkedPoolBytes blocks bytes
  let manager ← BlockManager.new (allocated / bytes) tokensPerBlock (some hasher)
  if device < 0 then throw (.invalidArgument "device must be nonnegative")
  match cuda.deviceCount with
  | .error message => throw (cudaError "cudaGetDeviceCount" message)
  | .ok count =>
    if device ≥ count then throw (.invalidArgument "GPU device index out of range")
    deviceGuard cuda.guard
    match cuda.address with
    | .error message => throw (cudaError "cudaMalloc KV pool" message)
    | .ok base =>
      return { manager := manager, blockBytes := bytes, allocatedBytes := allocated, base := base }

theorem checkedPoolBytes_ok {blocks bytes n : ℕ} (h : checkedPoolBytes blocks bytes = .ok n) :
    0 < blocks ∧ 0 < bytes ∧ n = blocks * bytes ∧ n ≤ sizeMax := by
  unfold checkedPoolBytes at h
  split_ifs at h with hzero hover
  push Not at hzero
  have hbytes := Nat.pos_of_ne_zero hzero.2
  obtain rfl := Except.ok.inj h
  exact ⟨Nat.pos_of_ne_zero hzero.1, hbytes, rfl,
    (Nat.le_div_iff_mul_le hbytes).mp (not_lt.mp hover)⟩

/-- A new pool has a new block manager and no flag set. -/
theorem make_eq {blocks bytes tokensPerBlock : ℕ} {device : ℤ} {cuda : Allocation}
    {pool : GpuMemoryPool} (h : make blocks bytes tokensPerBlock device cuda = .ok pool) :
    0 < bytes ∧ ∃ manager allocated base,
      BlockManager.new blocks tokensPerBlock (some hasher) = .ok manager ∧
        pool = ⟨manager, bytes, allocated, base, fun _ => false, fun _ => false⟩ := by
  obtain ⟨allocated, hallocated, h⟩ := returns_bind.mp h
  obtain ⟨manager, hmanager, h⟩ := returns_bind.mp h
  obtain ⟨-, hbytes, rfl, -⟩ := checkedPoolBytes_ok hallocated
  rw [Nat.mul_div_cancel _ hbytes] at hmanager
  by_cases hneg : device < 0
  · rw [if_pos hneg] at h
    cases h
  rw [if_neg hneg] at h
  cases hcount : cuda.deviceCount with
  | error message => simp only [hcount] at h; cases h
  | ok count =>
    simp only [hcount] at h
    by_cases hrange : device ≥ count
    · rw [if_pos hrange] at h
      cases h
    rw [if_neg hrange] at h
    obtain ⟨-, -, h⟩ := returns_bind.mp h
    cases haddress : cuda.address with
    | error message => simp only [haddress] at h; cases h
    | ok base =>
      simp only [haddress] at h
      exact ⟨hbytes, manager, _, base, hmanager, (Except.ok.inj h).symm⟩

/-- A new pool: all slots free, nothing written. -/
theorem make_ok {blocks bytes tokensPerBlock : ℕ} {device : ℤ} {cuda : Allocation}
    {pool : GpuMemoryPool} (h : make blocks bytes tokensPerBlock device cuda = .ok pool) :
    pool.manager.capacity = blocks ∧ pool.blockBytes = bytes ∧
      BlockManager.new blocks tokensPerBlock (some hasher) = .ok pool.manager := by
  obtain ⟨-, manager, allocated, base, hmanager, rfl⟩ := make_eq h
  refine ⟨?_, rfl, hmanager⟩
  unfold BlockManager.new at hmanager
  split_ifs at hmanager
  obtain rfl := Except.ok.inj hmanager
  rfl

/-- `total_blocks()`. -/
def totalBlocks (pool : GpuMemoryPool) : ℕ := pool.manager.capacity

/-- `remaining_blocks()`. -/
def remainingBlocks (pool : GpuMemoryPool) : ℕ :=
  pool.manager.stats.free + pool.manager.stats.cachedIdle

/-- `device_address(id)`. -/
def addressOf (pool : GpuMemoryPool) (id : ℕ) : Except Exn ℕ :=
  if id ≥ pool.totalBlocks then .error (.outOfRange "GPU block id out of range")
  else .ok (pool.base + id * pool.blockBytes)

/-- `device_address(h)`. -/
def deviceAddress (pool : GpuMemoryPool) (h : BlockHandle) : Except Exn ℕ := do
  let refs ← pool.manager.refCount h
  if refs = 0 then throw (.invalidArgument "GPU block has no active reference")
  pool.addressOf h.id

/-- A call on the block manager of the pool. -/
def onManager {α : Type} (x : Call BlockManager α) : Call GpuMemoryPool α := fun pool =>
  match x pool.manager with
  | .ok a m => .ok a { pool with manager := m }
  | .error e m => .error e { pool with manager := m }

/-- `allocate()`. -/
def allocate : Call GpuMemoryPool BlockHandle := do
  let h ← onManager BlockManager.allocate
  modify fun pool => { pool with initialized := Function.update pool.initialized h.id false }
  return h

/-- `retain(h)`. -/
def retain (h : BlockHandle) : Call GpuMemoryPool Unit := onManager (BlockManager.retain h)

/-- `release(h)`. -/
def release (h : BlockHandle) : Call GpuMemoryPool Unit := onManager (BlockManager.release h)

/-- `lookup(prefix, out)`. -/
def lookup (p : Tokens) : Call GpuMemoryPool (Option BlockHandle) :=
  onManager (BlockManager.lookup hasher p)

/-- `publish(h, prefix)`. -/
def publish (h : BlockHandle) (p : Tokens) : Call GpuMemoryPool Unit := do
  let pool ← get
  let _ ← check (pool.deviceAddress h)
  ensure (¬ pool.inFlight h.id = true) (.logicError "block transfer is in flight")
  ensure (pool.initialized h.id = true) (.invalidArgument "cannot publish unwritten GPU block")
  onManager (BlockManager.publish hasher h p)

def setInitialized (id : ℕ) (value : Bool) (pool : GpuMemoryPool) : GpuMemoryPool :=
  { pool with initialized := Function.update pool.initialized id value }

def setInFlight (id : ℕ) (value : Bool) (pool : GpuMemoryPool) : GpuMemoryPool :=
  { pool with inFlight := Function.update pool.inFlight id value }

/-- The copy of `write_block` and its wait. -/
def writeSlot (fault : Option WriteFault) (id : ℕ) (bytes : Bytes) : Call SlotMemory Unit :=
  fun memory =>
    match fault with
    | some (.copy message left) =>
      .error (cudaError "write_block cudaMemcpy" message) (Function.update memory id left)
    | some (.synchronize message left) =>
      .error (cudaError "write_block synchronize" message) (Function.update memory id left)
    | _ => .ok () (Function.update memory id bytes)

/-- `write_block(h, host, bytes)`; a null pointer is `none`. -/
def writeBlock (fault : Option WriteFault) (h : BlockHandle) (host : Option Bytes) :
    PoolCall Unit := do
  let (pool, _) ← get
  let _ ← check (pool.deviceAddress h)
  ensure (¬ pool.inFlight h.id = true) (.logicError "block transfer is in flight")
  match host with
  | none => throw (.invalidArgument "write requires one full host block")
  | some bytes =>
    ensure (bytes.length = pool.blockBytes) (.invalidArgument "write requires one full host block")
    let refs ← check (pool.manager.refCount h)
    let published ← check (pool.manager.isPublished h)
    ensure (¬ (refs ≠ 1 ∨ published = true))
      (.invalidArgument "cannot overwrite a shared or published block")
    check (deviceGuard (match fault with | some (.guard g) => some g | _ => none))
    onFst (modify (setInitialized h.id false))
    onSnd (writeSlot fault h.id bytes)
    onFst (modify (setInitialized h.id true))

/-- `read_block(h, host, bytes)`: the bytes delivered; `size` is none for a null pointer. -/
def readBlock (fault : Option ReadFault) (h : BlockHandle) (size : Option ℕ) : PoolCall Bytes := do
  let (pool, memory) ← get
  let _ ← check (pool.deviceAddress h)
  ensure (¬ pool.inFlight h.id = true) (.logicError "block transfer is in flight")
  ensure (size = some pool.blockBytes) (.invalidArgument "read requires one full host block")
  ensure (pool.initialized h.id = true) (.invalidArgument "block has not been written")
  check (deviceGuard (match fault with | some (.guard g) => some g | _ => none))
  match fault with
  | some (.copy message) => throw (cudaError "read_block cudaMemcpy" message)
  | _ => return memory h.id

end GpuMemoryPool

end KVFlux
