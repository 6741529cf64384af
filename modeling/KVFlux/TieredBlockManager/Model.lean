import KVFlux.AsyncTransfer.Model

/-!
# The tiered block manager

Logical blocks with a pinned host buffer each, of which some also occupy a GPU slot. One runtime
moves blocks between the two tiers; a move is submitted by one call and ends in a later one.

* `BlockLocation`, `Move`, `Entry`: where a block is; `TieredBlockManager`: the state. The buffer of
  the logical block `i` is number `i` of the runtime's buffers.
* `CudaAnswer`: what a CUDA call answers. The calls read their answers from the front of the list
  `answers`; when it is empty, every call succeeds.
* `startLoad`, `startOffload`, `finish`, `dispatchQueued`, `wait`, `poll`: the moves.
* `create`, `retain`, `release`, `acquireGpu`, `unpin`, `readBlock`, `offload`, `load`,
  `prefetchNext`: the calls of a client.
* `stats`, `metrics`.
-/

namespace KVFlux

open Fallible

/-- A type of its own: a logical id is not a GPU slot. -/
structure LogicalBlockHandle where
  id : ℕ
  generation : ℕ
deriving DecidableEq, Repr

inductive BlockLocation
  | gpuResident
  | cpuResident
  | transferring
deriving DecidableEq, Repr

inductive TieredBlockManager.Move
  | none
  | toCpu
  | toGpu
  | queuedLoad
deriving DecidableEq, Repr

structure TieredBlockManager.Entry where
  live : Bool := false
  handle : LogicalBlockHandle := ⟨0, 0⟩
  location : BlockLocation := .cpuResident
  move : TieredBlockManager.Move := .none
  gpu : Option BlockHandle := none
  pins : ℕ := 0
  prefetched : Bool := false
deriving DecidableEq

/-- What the device answers to a submission, to a synchronisation, to a blocking read and to the
query of `poll`. An answer of another kind stands for success. -/
inductive TieredBlockManager.CudaAnswer
  | success
  | submit (fault : SubmitFault)
  | sync (fault : SyncFault)
  | read (fault : ReadFault)
  | guard (fault : GuardFault)
  | notReady

/-- The manager. `entries` is total; only the ids below the capacity of `logical` are entries of the
vector. `dispatch_work_` is empty between calls and stands for a local list. The ghost field
`faults` counts the CUDA calls that failed, and `undefined` is set when an empty handle is
dereferenced or a function that must not throw throws. -/
structure TieredBlockManager where
  logical : BlockManager
  transfers : Transfers
  entries : ℕ → TieredBlockManager.Entry := fun _ => {}
  residentLru : IndexLru := {}
  pending : List LogicalBlockHandle := []
  queued : List LogicalBlockHandle := []
  cpuReservedBytes : ℕ
  offloads : ℕ := 0
  loads : ℕ := 0
  prefetchSubmitted : ℕ := 0
  prefetchSkipped : ℕ := 0
  prefetchHits : ℕ := 0
  prefetchMisses : ℕ := 0
  prefetchLate : ℕ := 0
  prefetchUnused : ℕ := 0
  demandCount : ℕ := 0
  gpuDemandHits : ℕ := 0
  answers : List TieredBlockManager.CudaAnswer := []
  faults : ℕ := 0
  undefined : Bool := false

/-- A lease: the block and the address of its slot. -/
structure GpuLease where
  handle : LogicalBlockHandle
  address : ℕ
deriving DecidableEq

/-- A call on a tiered block manager. -/
abbrev TieredCall (α : Type) := Call TieredBlockManager α

namespace TieredBlockManager

/-! ## Parts of the state -/

/-- `raw(h)`. -/
def raw (h : LogicalBlockHandle) : BlockHandle := ⟨h.id, h.generation⟩

/-- `block_bytes()`. -/
def blockBytes (m : TieredBlockManager) : ℕ := m.transfers.pool.blockBytes

def onLogical {α : Type} (x : Call BlockManager α) : TieredCall α := fun m =>
  match x m.logical with
  | .ok a logical => .ok a { m with logical := logical }
  | .error e logical => .error e { m with logical := logical }

def onTransfers {α : Type} (x : Call Transfers α) : TieredCall α := fun m =>
  match x m.transfers with
  | .ok a t => .ok a { m with transfers := t }
  | .error e t => .error e { m with transfers := t }

def onGpu {α : Type} (x : Call GpuMemoryPool α) : TieredCall α :=
  onTransfers (AsyncTransfer.onPool x)

/-- A call that reads the slots. -/
def onSlots {α : Type} (x : PoolCall α) : TieredCall α := fun m =>
  match x (m.transfers.pool, m.transfers.memory) with
  | .ok a _ => .ok a m
  | .error e _ => .error e m

def setEntry (id : ℕ) (e : Entry) (m : TieredBlockManager) : TieredBlockManager :=
  { m with entries := Function.update m.entries id e }

/-- Change one entry. -/
def modifyEntry (id : ℕ) (f : Entry → Entry) (m : TieredBlockManager) : TieredBlockManager :=
  m.setEntry id (f (m.entries id))

/-- The next answer of the device, as a fault of the kind that the call can have. -/
def draw {φ : Type} (pick : CudaAnswer → Option φ) : TieredCall (Option φ) := fun m =>
  let fault := pick (m.answers.headD .success)
  .ok fault { m with
    answers := m.answers.tail
    faults := if fault.isSome = true then m.faults + 1 else m.faults }

def CudaAnswer.submitFault : CudaAnswer → Option SubmitFault
  | .submit fault => some fault
  | _ => none

def CudaAnswer.syncFault : CudaAnswer → Option SyncFault
  | .sync fault => some fault
  | _ => none

def CudaAnswer.readFault : CudaAnswer → Option ReadFault
  | .read fault => some fault
  | _ => none

def CudaAnswer.guardFault : CudaAnswer → Option GuardFault
  | .guard fault => some fault
  | _ => none

def CudaAnswer.isReady : CudaAnswer → Bool
  | .notReady => false
  | _ => true

/-- `cudaStreamQuery`: an answer other than `cudaErrorNotReady`. -/
def query : TieredCall Bool := fun m =>
  .ok (m.answers.headD .success).isReady { m with answers := m.answers.tail }

/-- Something undefined has happened. -/
def setUndefined (m : TieredBlockManager) : TieredBlockManager := { m with undefined := true }

/-- `*e.gpu`. -/
def deref (e : Entry) : TieredCall BlockHandle :=
  match e.gpu with
  | some g => pure g
  | none => do
    modify setUndefined
    throw (.logicError "empty handle")

/-- A function that is declared `noexcept`. -/
def noexcept (x : TieredCall Unit) : TieredCall Unit := onError x (modify setUndefined)

/-- `try { x } catch (...) {}`. -/
def ignoreErrors (x : TieredCall Unit) : TieredCall Unit := fun m => .ok () (finalState (x m))

/-- `checked(h)`. -/
def checked (h : LogicalBlockHandle) : TieredCall Entry := do
  let m ← get
  let _ ← check (m.logical.refCount (raw h))
  return m.entries h.id

/-- `entries_[id]`, read again through a reference. -/
def entry (id : ℕ) : TieredCall Entry := do
  let m ← get
  return m.entries id

/-- `location(h)`. -/
def location (h : LogicalBlockHandle) : TieredCall BlockLocation := do
  let e ← checked h
  return e.location

/-- `ref_count(h)`. -/
def refCount (h : LogicalBlockHandle) : TieredCall ℕ := do
  let m ← get
  check (m.logical.refCount (raw h))

/-- `retain(h)`. -/
def retain (h : LogicalBlockHandle) : TieredCall Unit := do
  let _ ← checked h
  onLogical (BlockManager.retain (raw h))

/-- `resident_lru_.erase(id)`. -/
def eraseLru (id : ℕ) (m : TieredBlockManager) : TieredBlockManager :=
  { m with residentLru := m.residentLru.erase id }

/-- `resident_lru_.touch(id)`. -/
def touchLru (id : ℕ) (m : TieredBlockManager) : TieredBlockManager :=
  { m with residentLru := m.residentLru.touch id }

/-- `discard_prefetch(entries_[id])`. -/
def discardPrefetch (id : ℕ) (m : TieredBlockManager) : TieredBlockManager :=
  if (m.entries id).prefetched = true then
    { m.modifyEntry id (fun e => { e with prefetched := false }) with
      prefetchUnused := m.prefetchUnused + 1 }
  else m

/-! ## Ending the moves -/

/-- `transfers_.synchronize()`. -/
def synchronizeTransfers : TieredCall Unit := do
  let fault ← draw CudaAnswer.syncFault
  onTransfers (AsyncTransfer.synchronize fault)

/-- The block is on the host again, its GPU slot is returned. -/
def settleOnCpu (h : LogicalBlockHandle) : TieredCall Unit := do
  let e ← entry h.id
  let g ← deref e
  onGpu (GpuMemoryPool.release g)
  modify (modifyEntry h.id fun e => { e with gpu := none, location := .cpuResident })

/-- The block is in its GPU slot. -/
def settleOnGpu (h : LogicalBlockHandle) (m : TieredBlockManager) : TieredBlockManager :=
  (m.modifyEntry h.id fun e => { e with location := .gpuResident }).touchLru h.id

def countMove (toCpu : Bool) (m : TieredBlockManager) : TieredBlockManager :=
  if toCpu = true then { m with offloads := m.offloads + 1 } else { m with loads := m.loads + 1 }

/-- One move of `finish(success)`. -/
def finishEntry (success : Bool) (h : LogicalBlockHandle) : TieredCall Unit := do
  if success = false then modify (discardPrefetch h.id)
  let e ← entry h.id
  let toCpu : Bool := e.move = .toCpu
  if (success && toCpu) || (!success && !toCpu) then settleOnCpu h else modify (settleOnGpu h)
  if success = true then modify (countMove toCpu)
  modify (modifyEntry h.id fun e => { e with move := .none })

def finishEntries (success : Bool) : List LogicalBlockHandle → TieredCall Unit
  | [] => pure ()
  | h :: hs => do
    finishEntry success h
    finishEntries success hs

/-- A queued load is given up. -/
def cancelLoad (m : TieredBlockManager) (h : LogicalBlockHandle) : TieredBlockManager :=
  (m.discardPrefetch h.id).modifyEntry h.id fun e =>
    { e with location := .cpuResident, move := .none }

def cancelLoads (hs : List LogicalBlockHandle) (m : TieredBlockManager) : TieredBlockManager :=
  hs.foldl cancelLoad m

def clearPending (m : TieredBlockManager) : TieredBlockManager := { m with pending := [] }

def clearQueued (m : TieredBlockManager) : TieredBlockManager :=
  { m.cancelLoads m.queued with queued := [] }

/-- `finish(success)`. -/
def finish (success : Bool) : TieredCall Unit := noexcept do
  let m ← get
  finishEntries success m.pending
  modify clearPending
  if success = false then modify clearQueued

/-! ## Starting a move -/

def beginMove (h : LogicalBlockHandle) (move : Move) (m : TieredBlockManager) :
    TieredBlockManager :=
  { m.modifyEntry h.id (fun e => { e with location := .transferring, move := move }) with
    pending := m.pending ++ [h] }

/-- `transfers_.write_block` or `read_block` between the slot and the buffer of the block. -/
def submitMove (h : LogicalBlockHandle) (write : Bool) : TieredCall Unit := do
  let e ← entry h.id
  let g ← deref e
  let fault ← draw CudaAnswer.submitFault
  onTransfers (if write = true then AsyncTransfer.writeBlock fault g h.id
    else AsyncTransfer.readBlock fault g h.id)

/-- What follows a submission that throws. -/
def giveUp : TieredCall Unit := do
  ignoreErrors synchronizeTransfers
  finish false

/-- `start_load(h)`. -/
def startLoad (h : LogicalBlockHandle) : TieredCall Unit := do
  let _ ← checked h
  let g ← onGpu GpuMemoryPool.allocate
  modify (modifyEntry h.id fun e => { e with gpu := some g })
  modify (beginMove h .toGpu)
  onError (submitMove h true) giveUp

/-- `start_offload(h)`. -/
def startOffload (h : LogicalBlockHandle) : TieredCall Unit := do
  let _ ← checked h
  modify (eraseLru h.id)
  modify (beginMove h .toCpu)
  onError (do submitMove h false; modify (discardPrefetch h.id)) giveUp

/-! ## Waiting for the moves -/

/-- The loop of `dispatch_queued`. A throw gives up the load that failed and those behind it. -/
def dispatchLoop : List LogicalBlockHandle → TieredCall Unit
  | [] => pure ()
  | h :: hs => do
    modify (modifyEntry h.id fun e => { e with location := .cpuResident, move := .none })
    onError (startLoad h) (modify (cancelLoads (h :: hs)))
    dispatchLoop hs

/-- `dispatch_queued()`. -/
def dispatchQueued : TieredCall Unit := do
  let m ← get
  modify fun m => { m with queued := [] }
  dispatchLoop m.queued

/-- What ends the moves on the stream and starts the queued loads. -/
def advance : TieredCall Unit := do
  onError synchronizeTransfers (finish false)
  finish true
  dispatchQueued

/-- The first rounds of the loop of `wait`. -/
def waitLoop : ℕ → TieredCall Unit
  | 0 => pure ()
  | n + 1 => do
    let m ← get
    if m.pending = [] ∧ m.queued = [] then pure ()
    else do
      advance
      waitLoop n

/-- `wait()`: two rounds are enough, see `waitLoop_eq`. -/
def wait : TieredCall Unit := waitLoop 2

/-- `poll()`. -/
def poll : TieredCall Bool := do
  let m ← get
  if m.pending = [] ∧ m.queued = [] then return true
  else
    let fault ← draw CudaAnswer.guardFault
    check (deviceGuard fault)
    let ready ← query
    if ready = false then return false
    else
      advance
      let m ← get
      return m.pending = []

/-! ## Room on the GPU -/

def remainingBlocks (m : TieredBlockManager) : ℕ := m.transfers.pool.remainingBlocks

/-- The loop of `victim`. -/
def victimFrom (lru : IndexLru) (isProtected : ℕ → Bool) : ℕ → Option ℕ → Option ℕ
  | _, none => none
  | 0, some _ => none
  | n + 1, some id =>
    if isProtected id = true then victimFrom lru isProtected n (lru.next id) else some id

/-- `victim(protected_ids)`. The list has at most one node for each entry. -/
def victim (m : TieredBlockManager) (isProtected : ℕ → Bool) : Option ℕ :=
  victimFrom m.residentLru isProtected m.logical.capacity m.residentLru.oldest

/-- `make_room()`. -/
def makeRoom : TieredCall Unit := do
  let m ← get
  if m.remainingBlocks ≠ 0 then pure ()
  else do
    wait
    let m ← get
    if m.remainingBlocks ≠ 0 then pure ()
    else
      match m.victim fun _ => false with
      | none => throw .capacityError
      | some id => do
        startOffload (m.entries id).handle
        wait

/-- `offload(h)`. -/
def offload (h : LogicalBlockHandle) : TieredCall Unit := do
  let e ← checked h
  ensure (e.pins = 0) (.logicError "cannot offload a GPU-leased block")
  if e.move = .toCpu then pure ()
  else do
    if e.location = .transferring then wait
    let e ← entry h.id
    if e.location = .gpuResident then startOffload h

/-- `load(h)`. -/
def load (h : LogicalBlockHandle) : TieredCall Unit := do
  let e ← checked h
  if e.move = .toCpu then wait
  let e ← entry h.id
  match e.location with
  | .gpuResident => if e.pins = 0 then modify (touchLru h.id) else pure ()
  | .transferring => pure ()
  | .cpuResident => do
    makeRoom
    startLoad h

/-! ## The calls of a client -/

/-- The reset of an entry by the last reference. -/
def destroy (h : LogicalBlockHandle) : TieredCall Unit := do
  modify (discardPrefetch h.id)
  modify (eraseLru h.id)
  let e ← entry h.id
  match e.gpu with
  | some g => onGpu (GpuMemoryPool.release g)
  | none => pure ()
  modify (setEntry h.id {})

/-- `release(h)`. -/
def release (h : LogicalBlockHandle) : TieredCall Unit := do
  let e ← checked h
  let refs ← refCount h
  if refs = 1 then do
    if e.location = .transferring then wait
    destroy h
  onLogical (BlockManager.release (raw h))

/-- `create(host, bytes)`; a null pointer is `none`. -/
def create (host : Option Bytes) : TieredCall LogicalBlockHandle := do
  let m ← get
  match host with
  | none => throw (.invalidArgument "create requires one full host block")
  | some bytes => do
    ensure (bytes.length = m.blockBytes) (.invalidArgument "create requires one full host block")
    let slot ← onLogical BlockManager.allocate
    let h : LogicalBlockHandle := ⟨slot.id, slot.generation⟩
    modify (setEntry h.id { live := true, handle := h })
    onError (do copyIn h.id bytes; load h; wait) (release h)
    return h
where
  /-- `backing_[id]->copy_from(host, bytes)`. -/
  copyIn (id : ℕ) (bytes : Bytes) : TieredCall Unit := fun m =>
    let r := PinnedStorage.copyFrom (some bytes) 0 (m.transfers.buffers id)
    let m' := { m with
      transfers := { m.transfers with
        buffers := Function.update m.transfers.buffers id (finalState r) } }
    match r with
    | .ok _ _ => .ok () m'
    | .error e _ => .error e m'

/-- The counters of a demand. -/
def countDemand (resident prefetched : Bool) (m : TieredBlockManager) : TieredBlockManager :=
  { m with
    demandCount := m.demandCount + 1
    gpuDemandHits := if resident = true then m.gpuDemandHits + 1 else m.gpuDemandHits
    prefetchMisses := if resident = true then m.prefetchMisses else m.prefetchMisses + 1
    prefetchHits :=
      if prefetched = true ∧ resident = true then m.prefetchHits + 1 else m.prefetchHits
    prefetchLate :=
      if prefetched = true ∧ resident = false then m.prefetchLate + 1 else m.prefetchLate }

/-- `acquire_gpu(h)`. -/
def acquireGpu (h : LogicalBlockHandle) : TieredCall GpuLease := do
  let before ← checked h
  let resident : Bool := before.location = .gpuResident
  let prefetched := before.prefetched
  load h
  let e ← checked h
  if e.location = .transferring then wait
  let e ← checked h
  ensure (e.pins ≠ sizeMax) (.overflowError "GPU lease count overflow")
  retain h
  modify (modifyEntry h.id fun e => { e with pins := e.pins + 1 })
  modify (eraseLru h.id)
  modify (countDemand resident prefetched)
  if prefetched = true then modify (modifyEntry h.id fun e => { e with prefetched := false })
  let e ← entry h.id
  let g ← deref e
  let m ← get
  let address ← check (m.transfers.pool.deviceAddress g)
  return ⟨h, address⟩

/-- `unpin(h)`, the end of a lease. The count wraps around at zero. -/
def unpin (h : LogicalBlockHandle) : TieredCall Unit := noexcept do
  modify (modifyEntry h.id fun e => { e with pins := if e.pins = 0 then sizeMax else e.pins - 1 })
  let e ← entry h.id
  if e.pins = 0 then modify (touchLru h.id)
  release h

/-- `gpu_.read_block(h, host, bytes)`. -/
def readSlot (g : BlockHandle) (size : Option ℕ) : TieredCall Bytes := do
  let fault ← draw CudaAnswer.readFault
  onSlots (GpuMemoryPool.readBlock fault g size)

/-- `read_block(h, host, bytes)`; `size` is none for a null pointer. The lease ends with the call,
also when the read throws. -/
def readBlock (h : LogicalBlockHandle) (size : Option ℕ) : TieredCall Bytes := do
  let m ← get
  ensure (size = some m.blockBytes) (.invalidArgument "read requires one full host block")
  let lease ← acquireGpu h
  let bytes ← onError (do
    let e ← checked h
    let g ← deref e
    readSlot g size) (unpin lease.handle)
  unpin lease.handle
  return bytes

/-- One block of the window of `prefetch_next`: whether it was accepted. -/
def prefetchBlock (isProtected : ℕ → Bool) (h : LogicalBlockHandle) : TieredCall Bool := do
  let e ← checked h
  if e.location ≠ .cpuResident then return false
  else
    let m ← get
    if m.remainingBlocks ≠ 0 then
      startLoad h
      modify accept
      return true
    else
      match m.victim isProtected with
      | none =>
        modify fun m => { m with prefetchSkipped := m.prefetchSkipped + 1 }
        return false
      | some id =>
        startOffload (m.entries id).handle
        modify enqueue
        modify accept
        return true
where
  accept (m : TieredBlockManager) : TieredBlockManager :=
    { m.modifyEntry h.id (fun e => { e with prefetched := true }) with
      prefetchSubmitted := m.prefetchSubmitted + 1 }
  enqueue (m : TieredBlockManager) : TieredBlockManager :=
    { m.modifyEntry h.id (fun e => { e with location := .transferring, move := .queuedLoad }) with
      queued := m.queued ++ [h] }

/-- The loop of `prefetch_next` over the window behind the current block. -/
def prefetchLoop (isProtected : ℕ → Bool) : List LogicalBlockHandle → ℕ → TieredCall ℕ
  | [], submitted => return submitted
  | h :: hs, submitted => do
    let accepted ← prefetchBlock isProtected h
    prefetchLoop isProtected hs (if accepted = true then submitted + 1 else submitted)

/-- The first loop of `prefetch_next`. -/
def checkAll : List LogicalBlockHandle → TieredCall Unit
  | [] => pure ()
  | h :: hs => do
    let _ ← checked h
    checkAll hs

/-- `prefetch_next(order, current, next_n)`. -/
def prefetchNext (order : List LogicalBlockHandle) (current nextN : ℕ) : TieredCall ℕ := do
  ensure (current < order.length) (.outOfRange "prefetch current index out of range")
  let count := min nextN (order.length - current - 1)
  let window := (order.drop current).take (count + 1)
  checkAll window
  let _ ← poll
  prefetchLoop (fun id => id ∈ window.map LogicalBlockHandle.id) window.tail 0

/-! ## Observations -/

structure Stats where
  logicalBlocks : ℕ
  gpuResident : ℕ
  cpuResident : ℕ
  transferring : ℕ
  gpuFree : ℕ
  gpuCapacity : ℕ
  cpuCapacity : ℕ
  cpuReservedBytes : ℕ
  offloads : ℕ
  loads : ℕ
  prefetchSubmitted : ℕ
  prefetchSkipped : ℕ
deriving DecidableEq, Repr

/-- The number of live entries with a property. -/
def countLive (m : TieredBlockManager) (p : Entry → Bool) : ℕ :=
  (List.range m.logical.capacity).countP fun i => (m.entries i).live && p (m.entries i)

/-- `stats()`. -/
def stats (m : TieredBlockManager) : Stats where
  logicalBlocks := m.countLive fun _ => true
  gpuResident := m.countLive fun e => e.location = .gpuResident
  cpuResident := m.countLive fun e => e.location = .cpuResident
  transferring := m.countLive fun e => e.location = .transferring
  gpuFree := m.remainingBlocks
  gpuCapacity := m.transfers.pool.totalBlocks
  cpuCapacity := m.logical.capacity
  cpuReservedBytes := m.cpuReservedBytes
  offloads := m.offloads
  loads := m.loads
  prefetchSubmitted := m.prefetchSubmitted
  prefetchSkipped := m.prefetchSkipped

/-- `CacheMetrics`, without the times. -/
structure CacheMetrics where
  gpuBlocksTotal : ℕ
  gpuBlocksUsed : ℕ
  gpuBlocksFree : ℕ
  cpuCachedBlocks : ℕ
  logicalBlocks : ℕ
  transferringBlocks : ℕ
  transfers : TransferMetrics
  offloadCount : ℕ
  loadCount : ℕ
  prefetchCount : ℕ
  prefetchSkipped : ℕ
  prefetchHits : ℕ
  prefetchMisses : ℕ
  prefetchLate : ℕ
  prefetchUnused : ℕ
  prefetchOutstanding : ℕ
  demandCount : ℕ
  gpuDemandHits : ℕ
deriving DecidableEq, Repr

/-- `metrics()`. -/
def metrics (m : TieredBlockManager) : CacheMetrics where
  gpuBlocksTotal := m.stats.gpuCapacity
  gpuBlocksUsed := m.stats.gpuCapacity - m.stats.gpuFree
  gpuBlocksFree := m.stats.gpuFree
  cpuCachedBlocks := m.stats.cpuResident
  logicalBlocks := m.stats.logicalBlocks
  transferringBlocks := m.stats.transferring
  transfers := m.transfers.runtime.metrics
  offloadCount := m.stats.offloads
  loadCount := m.stats.loads
  prefetchCount := m.stats.prefetchSubmitted
  prefetchSkipped := m.stats.prefetchSkipped
  prefetchHits := m.prefetchHits
  prefetchMisses := m.prefetchMisses
  prefetchLate := m.prefetchLate
  prefetchUnused := m.prefetchUnused
  prefetchOutstanding := m.countLive Entry.prefetched
  demandCount := m.demandCount
  gpuDemandHits := m.gpuDemandHits

/-! ## The constructor -/

/-- `checked_capacity`. -/
def checkedCapacity (cpu gpu bytes : ℕ) : Except Exn ℕ :=
  if gpu = 0 ∨ cpu < gpu ∨ bytes = 0 then
    .error (.invalidArgument "require 0 < GPU blocks <= CPU backing blocks")
  else if cpu > sizeMax / bytes then .error (.overflowError "CPU backing size overflow")
  else .ok cpu

/-- The failures of the two stream constructors. -/
inductive StreamFault
  | count (message : String)
  | guard (fault : GuardFault)
  | create (message : String)

/-- A `CudaStream`. -/
def newStream : Option StreamFault → Except Exn Unit
  | none => .ok ()
  | some (.count message) => .error (cudaError "cudaGetDeviceCount" message)
  | some (.guard fault) => deviceGuard (some fault)
  | some (.create message) => .error (cudaError "cudaStreamCreateWithFlags" message)

/-- What the device answers to the constructor; `fresh i` is what the memory of buffer `i` holds. -/
structure Construction where
  pool : GpuMemoryPool.Allocation
  computeStream : Option StreamFault := none
  transferStream : Option StreamFault := none
  hostFault : ℕ → Option String := fun _ => none
  fresh : ℕ → ℕ → UInt8 := fun _ _ => 0
  memory : SlotMemory := fun _ => []

/-- The backing buffers. -/
def makeBacking (c : Construction) (bytes : ℕ) : ℕ → Except Exn (ℕ → PinnedStorage)
  | 0 => .ok fun _ => { bytes := [] }
  | i + 1 => do
    let buffers ← makeBacking c bytes i
    let storage ← PinnedStorage.make (c.hostFault i) ((List.range bytes).map (c.fresh i))
    return Function.update buffers i storage

/-- The constructor. -/
def make (gpu cpu bytes tokens : ℕ) (device : ℤ) (c : Construction) :
    Except Exn TieredBlockManager := do
  let capacity ← checkedCapacity cpu gpu bytes
  let logical ← BlockManager.new capacity tokens (some GpuMemoryPool.hasher)
  let pool ← GpuMemoryPool.make gpu bytes tokens device c.pool
  newStream c.computeStream
  newStream c.transferStream
  let buffers ← makeBacking c bytes cpu
  return {
    logical := logical
    transfers := { pool := pool, memory := c.memory, buffers := buffers }
    cpuReservedBytes := cpu * bytes }

end TieredBlockManager

end KVFlux
