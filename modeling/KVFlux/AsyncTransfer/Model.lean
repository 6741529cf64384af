import KVFlux.GpuMemoryPool

/-!
# Asynchronous transfers

A runtime copies batches of blocks between a GPU pool and page-locked host buffers on one stream.
A batch holds a reference to each of its blocks until `synchronize` ends it.

* `PinnedStorage`: the memory behind a pinned buffer, which the runtime keeps alive while it is in
  flight; `copyFrom`, `copyTo`: host access to it.
* `Pending`: a submitted batch; `AsyncTransferRuntime`; `Transfers`: the state a call works on.
* `SubmitFault`, `SyncFault`: the CUDA calls that fail. The copies of the batches that are given up
  then leave arbitrary bytes (`Damage`) in what they were to write.
* `submit`, `finish`, `synchronize`: the calls. A copy takes effect when its batch ends; until then
  no call reads or writes the blocks and the buffer of the batch.
-/

namespace KVFlux

open Fallible

/-! ## Pinned buffers -/

/-- `PinnedBuffer::Storage`. -/
structure PinnedStorage where
  bytes : Bytes
  busy : Bool := false
deriving DecidableEq

namespace PinnedStorage

/-- `size()`. -/
def size (s : PinnedStorage) : ℕ := s.bytes.length

/-- The constructor; `fault` is the message of a failed `cudaHostAlloc`, `fresh` what the memory
holds. -/
def make (fault : Option String) (fresh : Bytes) : Except Exn PinnedStorage :=
  if fresh = [] then .error (.invalidArgument "pinned buffer size must be positive")
  else
    match fault with
    | some message => .error (cudaError "cudaHostAlloc" message)
    | none => .ok { bytes := fresh }

/-- `data()`. -/
def data (s : PinnedStorage) : Except Exn Bytes :=
  if s.busy = true then
    .error (.logicError "pinned buffer is in flight; synchronize before host access")
  else .ok s.bytes

/-- `copy_from(source, bytes, offset)`; a null pointer is `none`. -/
def copyFrom (source : Option Bytes) (offset : ℕ) : Call PinnedStorage Unit := do
  let s ← get
  match source with
  | none => throw (.invalidArgument "invalid staging source/range")
  | some bytes =>
    ensure (offset ≤ s.size ∧ bytes.length ≤ s.size - offset)
      (.invalidArgument "invalid staging source/range")
    let old ← check s.data
    set { s with bytes := old.take offset ++ bytes ++ old.drop (offset + bytes.length) }

/-- `copy_to(destination, bytes, offset)`: the bytes delivered; `count` is none for a null
pointer. -/
def copyTo (s : PinnedStorage) (count : Option ℕ) (offset : ℕ) : Except Exn Bytes :=
  match count with
  | none => .error (.invalidArgument "invalid staging destination/range")
  | some n =>
    if ¬ (offset ≤ s.size ∧ n ≤ s.size - offset) then
      .error (.invalidArgument "invalid staging destination/range")
    else do
      let bytes ← s.data
      return (bytes.drop offset).take n

end PinnedStorage

/-! ## Batches -/

structure TransferDirectionMetrics where
  bytes : ℕ := 0
  batches : ℕ := 0
deriving DecidableEq, Repr

structure TransferMetrics where
  gpuToCpu : TransferDirectionMetrics := {}
  cpuToGpu : TransferDirectionMetrics := {}
  failedBatches : ℕ := 0
deriving DecidableEq, Repr

/-- A submitted batch; `write` is the direction from the host to the device. -/
structure Pending where
  blocks : List BlockHandle
  buffer : ℕ
  write : Bool
deriving DecidableEq, Repr

/-- `recycled` counts the event pairs of ended batches that wait for reuse. -/
structure AsyncTransferRuntime where
  pending : List Pending := []
  recycled : ℕ := 0
  metrics : TransferMetrics := {}

/-- A runtime with its pool, the memory of the device and the pinned buffers. The ghost field
`history` has every batch ever submitted. -/
structure Transfers where
  pool : GpuMemoryPool
  memory : SlotMemory
  buffers : ℕ → PinnedStorage
  runtime : AsyncTransferRuntime := {}
  history : List Pending := []

/-- The bytes that a copy leaves which was given up, by slot and by buffer. -/
structure Damage where
  slot : ℕ → ℕ → UInt8
  host : ℕ → ℕ → UInt8

/-- The CUDA calls that put a batch on the stream. -/
inductive StreamCall
  | recordBegin
  | copy (i : ℕ)
  | recordEnd
deriving DecidableEq

/-- The failures of a submission: new events, the device guard, or a call on the stream. -/
inductive SubmitFault
  | eventGuard (fault : GuardFault)
  | eventBegin (message : String)
  | eventEnd (message : String)
  | guard (fault : GuardFault)
  | stream (call : StreamCall) (message : String) (damage : Damage)

/-- The failures of `synchronize`. -/
inductive SyncFault
  | guard (fault : GuardFault) (damage : Damage)
  | stream (message : String) (damage : Damage)
  | elapsed (i : ℕ) (message : String) (damage : Damage)

/-- The blocks of some batches. -/
def batchBlocks (ws : List Pending) : List BlockHandle := ws.flatMap Pending.blocks

/-- The slots of some batches. -/
def batchIds (ws : List Pending) : List ℕ := (batchBlocks ws).map BlockHandle.id

/-- The buffers of some batches. -/
def batchBuffers (ws : List Pending) : List ℕ := ws.map Pending.buffer

/-- The batches to the device. -/
def writeBatches (ws : List Pending) : List Pending := ws.filter Pending.write

namespace AsyncTransfer

/-! ## What the copies do -/

/-- The copies of a batch to the device: consecutive blocks of the buffer. -/
def toDevice (blockBytes : ℕ) : Bytes → List BlockHandle → SlotMemory → SlotMemory
  | _, [], memory => memory
  | bytes, h :: hs, memory =>
    toDevice blockBytes (bytes.drop blockBytes) hs
      (Function.update memory h.id (bytes.take blockBytes))

/-- The copies of a batch to the host. -/
def toHost (blocks : List BlockHandle) (memory : SlotMemory) : Bytes :=
  (blocks.map fun h => memory h.id).flatten

/-- The copies of one batch. -/
def deliverBatch (t : Transfers) (w : Pending) : Transfers :=
  let buffer := t.buffers w.buffer
  if w.write = true then
    { t with memory := toDevice t.pool.blockBytes buffer.bytes w.blocks t.memory }
  else
    { t with
      buffers := Function.update t.buffers w.buffer
        { buffer with bytes := toHost w.blocks t.memory } }

/-- The copies on the stream, in order. -/
def deliver (t : Transfers) : Transfers := t.runtime.pending.foldl deliverBatch t

def spoilBytes (left : ℕ → UInt8) (bytes : Bytes) : Bytes := (List.range bytes.length).map left

/-- What is left of copies that are given up. -/
def spoil (damage : Damage) (t : Transfers) : Transfers :=
  let written := writeBatches t.runtime.pending
  let read := t.runtime.pending.filter fun w => ¬ w.write = true
  { t with
    memory := fun i =>
      if i ∈ batchIds written then spoilBytes (damage.slot i) (t.memory i) else t.memory i
    buffers := fun b =>
      if b ∈ batchBuffers read then
        { t.buffers b with bytes := spoilBytes (damage.host b) (t.buffers b).bytes }
      else t.buffers b }

/-! ## Ending the batches -/

def onPool {α : Type} (x : Call GpuMemoryPool α) : Call Transfers α := fun t =>
  match x t.pool with
  | .ok a pool => .ok a { t with pool := pool }
  | .error e pool => .error e { t with pool := pool }

/-- One block of an ended batch. -/
def finishBlock (success write : Bool) (h : BlockHandle) : Call GpuMemoryPool Unit := do
  if write = true then modify (GpuMemoryPool.setInitialized h.id success)
  modify (GpuMemoryPool.setInFlight h.id false)
  GpuMemoryPool.release h

def finishBlocks (success write : Bool) : List BlockHandle → Call GpuMemoryPool Unit
  | [] => pure ()
  | h :: hs => do finishBlock success write h; finishBlocks success write hs

/-- The buffer of an ended batch is free again, its events are kept. -/
def retire (w : Pending) (t : Transfers) : Transfers :=
  { t with
    buffers := Function.update t.buffers w.buffer { t.buffers w.buffer with busy := false }
    runtime := { t.runtime with recycled := t.runtime.recycled + 1 } }

def finishBatches (success : Bool) : List Pending → Call Transfers Unit
  | [] => pure ()
  | w :: ws => do
    onPool (finishBlocks success w.write w.blocks)
    modify (retire w)
    finishBatches success ws

def countFailed (t : Transfers) : Transfers :=
  { t with
    runtime := { t.runtime with
      metrics := { t.runtime.metrics with
        failedBatches := t.runtime.metrics.failedBatches + t.runtime.pending.length } } }

def clearPending (t : Transfers) : Transfers :=
  { t with runtime := { t.runtime with pending := [] } }

/-- `finish(success)`. -/
def finish (success : Bool) : Call Transfers Unit := do
  if success = false then modify countFailed
  let t ← get
  finishBatches success t.runtime.pending
  modify clearPending

/-- Give up every pending batch. -/
def abandon (damage : Damage) : Call Transfers Unit := do
  modify (spoil damage)
  finish false

/-! ## Submitting a batch -/

/-- The checks of `submit` on the blocks; `seen` has the ids before. -/
def validateBlocks (pool : GpuMemoryPool) (write : Bool) :
    List ℕ → List BlockHandle → Except Exn Unit
  | _, [] => .ok ()
  | seen, h :: hs => do
    let _ ← pool.deviceAddress h
    if h.id ∈ seen then throw (.invalidArgument "duplicate block in batch")
    if pool.inFlight h.id = true then throw (.logicError "block is already in flight")
    let refs ← pool.manager.refCount h
    let published ← pool.manager.isPublished h
    if write = true ∧ (refs ≠ 1 ∨ published = true) then
      throw (.invalidArgument "async write requires an exclusive unpublished block")
    if write = false ∧ pool.initialized h.id = false then
      throw (.invalidArgument "block has not been written")
    validateBlocks pool write (h.id :: seen) hs

/-- The checks of `submit`. -/
def validate (t : Transfers) (blocks : List BlockHandle) (buffer : ℕ) (write : Bool) :
    Except Exn Unit := do
  let b := t.buffers buffer
  if blocks = [] then throw (.invalidArgument "empty transfer batch")
  if b.size / t.pool.blockBytes ≠ blocks.length ∨ b.size % t.pool.blockBytes ≠ 0 then
    throw (.invalidArgument "batch buffer must contain exactly N full blocks")
  if b.busy = true then throw (.logicError "pinned buffer is already in flight")
  validateBlocks t.pool write [] blocks

/-- The constructor of `Pending`: a pair of events. -/
def newEvents : Option SubmitFault → Except Exn Unit
  | some (.eventGuard fault) => deviceGuard (some fault)
  | some (.eventBegin message) => .error (cudaError "transfer begin event" message)
  | some (.eventEnd message) => .error (cudaError "transfer end event" message)
  | _ => .ok ()

/-- The events of a batch, recycled ones if there are any. -/
def takeEvents (fault : Option SubmitFault) : Call Transfers Unit := do
  let t ← get
  if t.runtime.recycled = 0 then check (newEvents fault)
  else modify fun t => { t with runtime := { t.runtime with recycled := t.runtime.recycled - 1 } }

def submitGuard : Option SubmitFault → Option GuardFault
  | some (.guard fault) => some fault
  | _ => none

/-- The flags, the buffer and the list of pending batches once the references are taken. -/
def enter (w : Pending) (t : Transfers) : Transfers :=
  let ids := w.blocks.map BlockHandle.id
  { t with
    pool := { t.pool with
      inFlight := fun i => if i ∈ ids then true else t.pool.inFlight i
      initialized := fun i =>
        if w.write = true ∧ i ∈ ids then false else t.pool.initialized i }
    buffers := Function.update t.buffers w.buffer { t.buffers w.buffer with busy := true }
    runtime := { t.runtime with pending := t.runtime.pending ++ [w] }
    history := t.history ++ [w] }

/-- One call on the stream. -/
def streamCall (fault : Option SubmitFault) (call : StreamCall) (operation : String) :
    Except Exn Unit :=
  match fault with
  | some (.stream failing message _) =>
    if failing = call then .error (cudaError operation message) else .ok ()
  | _ => .ok ()

/-- The copies of a batch are put on the stream; `i` is the number of the next one. -/
def issueCopies (pool : GpuMemoryPool) (fault : Option SubmitFault) :
    ℕ → List BlockHandle → Except Exn Unit
  | _, [] => .ok ()
  | i, h :: hs => do
    let _ ← pool.deviceAddress h
    streamCall fault (.copy i) "batch cudaMemcpyAsync"
    issueCopies pool fault (i + 1) hs

/-- A batch between its two events is put on the stream. -/
def issue (pool : GpuMemoryPool) (fault : Option SubmitFault) (blocks : List BlockHandle) :
    Except Exn Unit := do
  streamCall fault .recordBegin "record transfer begin"
  issueCopies pool fault 0 blocks
  streamCall fault .recordEnd "record transfer end"

def submitDamage : Option SubmitFault → Damage
  | some (.stream _ _ damage) => damage
  | _ => ⟨fun _ _ => 0, fun _ _ => 0⟩

/-- `submit(blocks, buffer, write)`. When the stream refuses a call, what is already on it is waited
for and every pending batch is given up. -/
def submit (fault : Option SubmitFault) (blocks : List BlockHandle) (buffer : ℕ) (write : Bool) :
    Call Transfers Unit := do
  let t ← get
  check (validate t blocks buffer write)
  takeEvents fault
  check (deviceGuard (submitGuard fault))
  onPool (GpuMemoryPool.onManager (BlockManager.retainAll [] blocks))
  modify (enter ⟨blocks, buffer, write⟩)
  let t ← get
  onError (check (issue t.pool fault blocks)) (abandon (submitDamage fault))

/-- `write_batch(blocks, source)`. -/
def writeBatch (fault : Option SubmitFault) (blocks : List BlockHandle) (source : ℕ) :
    Call Transfers Unit :=
  submit fault blocks source true

/-- `read_batch(blocks, destination)`. -/
def readBatch (fault : Option SubmitFault) (blocks : List BlockHandle) (destination : ℕ) :
    Call Transfers Unit :=
  submit fault blocks destination false

/-- `write_block(block, source)`. -/
def writeBlock (fault : Option SubmitFault) (block : BlockHandle) (source : ℕ) :
    Call Transfers Unit :=
  writeBatch fault [block] source

/-- `read_block(block, destination)`. -/
def readBlock (fault : Option SubmitFault) (block : BlockHandle) (destination : ℕ) :
    Call Transfers Unit :=
  readBatch fault [block] destination

/-! ## Waiting for the batches -/

def syncGuard : Option SyncFault → Option GuardFault
  | some (.guard fault _) => some fault
  | _ => none

def syncDamage : Option SyncFault → Damage
  | some (.guard _ damage) | some (.stream _ damage) | some (.elapsed _ _ damage) => damage
  | none => ⟨fun _ _ => 0, fun _ _ => 0⟩

/-- `transfer_.synchronize()`. -/
def awaitStream : Option SyncFault → Except Exn Unit
  | some (.stream message _) => .error (cudaError "cudaStreamSynchronize" message)
  | _ => .ok ()

def TransferDirectionMetrics.add (d : TransferDirectionMetrics) (bytes : ℕ) :
    TransferDirectionMetrics :=
  ⟨d.bytes + bytes, d.batches + 1⟩

/-- The loop of `synchronize` that measures the batches; `i` is the number of the next one. -/
def measure (t : Transfers) (fault : Option SyncFault) :
    ℕ → List Pending → TransferMetrics → Except Exn TransferMetrics
  | _, [], updated => .ok updated
  | i, w :: ws, updated =>
    match fault with
    | some (.elapsed failing message _) =>
      if failing = i then .error (cudaError "transfer elapsed time" message)
      else measure t fault (i + 1) ws (count updated w)
    | _ => measure t fault (i + 1) ws (count updated w)
where
  count (updated : TransferMetrics) (w : Pending) : TransferMetrics :=
    let bytes := (t.buffers w.buffer).size
    if w.write = true then
      { updated with cpuToGpu := TransferDirectionMetrics.add updated.cpuToGpu bytes }
    else { updated with gpuToCpu := TransferDirectionMetrics.add updated.gpuToCpu bytes }

/-- The copies on the stream are over and counted. -/
def awaitCopies (fault : Option SyncFault) : Call Transfers Unit := do
  check (deviceGuard (syncGuard fault))
  check (awaitStream fault)
  modify deliver
  let t ← get
  let updated ← check (measure t fault 0 t.runtime.pending t.runtime.metrics)
  modify fun t => { t with runtime := { t.runtime with metrics := updated } }

/-- `synchronize()`. -/
def synchronize (fault : Option SyncFault) : Call Transfers Unit := do
  onError (awaitCopies fault) (abandon (syncDamage fault))
  finish true

end AsyncTransfer

end KVFlux
