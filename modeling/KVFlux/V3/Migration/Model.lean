import KVFlux.V3.ChunkFileStore
import KVFlux.V3.DirectoryRun

/-!
# The migration engines

`MigrationManager` moves chunks between neighbouring tiers by tasks: copies between GPU and CPU run
on a stream and are watched through an event, file transfers are queued for I/O workers.
`GpuCpuTransfer` and `NvmeTransfer` are the older, direct ways to move a chunk.

* `Engine`: the directory, the memories, the file store, the tasks, the queue, the workers and the
  owner thread.
* `submit`, `rollbackSubmit`, `finalize`, `finalizeCancelled`, `poll`: the calls of
  `MigrationManager` that run in one piece.
* `beginTransfer`, `finishTransfer`: `GpuCpuTransfer`; `finish` waits for the event of its copy.
* `offload`, `onload`: `NvmeTransfer`.

Faults are arguments: they say which device or file operation of a call fails.
-/

namespace KVFlux.V3

open Fallible

inductive MigrationState
  | QUEUED
  | RUNNING
  | COMPLETED
  | FAILED
  | CANCELLED
deriving DecidableEq, Repr

def MigrationState.terminal : MigrationState → Bool
  | .QUEUED | .RUNNING => false
  | .COMPLETED | .FAILED | .CANCELLED => true

/-- A copy on a stream: not yet effective, effective, its event reached, or its event an error. -/
inductive CopyState
  | running
  | landed
  | done
  | failed
deriving DecidableEq, Repr

/-- `cudaEventSynchronize` on the event of a copy: it waits (`none`) while the copy is on its way. -/
def CopyState.eventSynchronize : CopyState → Option (Except Exn Unit)
  | .running | .landed => none
  | .done => some (.ok ())
  | .failed => some (.error (.runtimeError "cudaEventSynchronize"))

theorem CopyState.eventSynchronize_none {c : CopyState} :
    c.eventSynchronize = none ↔ c = .running ∨ c = .landed := by
  cases c <;> simp [eventSynchronize]

theorem CopyState.eventSynchronize_ok {c : CopyState} :
    c.eventSynchronize = some (.ok ()) ↔ c = .done := by
  cases c <;> simp [eventSynchronize]

/-- `copy` stands for the event `done`. -/
structure Task where
  id : ℕ
  key : CacheKey
  source : StorageTier
  destination : StorageTier
  priority : ℤ
  sourceLoc : TierLocation
  destinationLoc : TierLocation
  fileMeta : ChunkFileMeta
  state : MigrationState := .QUEUED
  cancelRequested : Bool := false
  ioResult : ℤ := 0
  error : String := ""
  copy : CopyState := .running
deriving DecidableEq

/-- `uses_cuda()`. -/
def Task.usesCuda (t : Task) : Bool := t.source = .GPU ∨ t.destination = .GPU

/-- An entry of `GpuCpuTransfer::pending_`. -/
structure Pending where
  source : TierLocation
  destination : TierLocation
  offload : Bool
  copy : CopyState := .running
deriving DecidableEq

/-- The destination of a copy that was submitted and whose end nobody has observed. -/
structure Orphan where
  tier : StorageTier
  slot : ℕ
deriving DecidableEq

/-- Where a worker stands in `worker_loop`: waiting for work, with a task it has taken, before
`do_io`, between the two halves of a file write, with a result it has not stored, or before
`notify_all`. -/
inductive WorkerState
  | idle
  | taken (id : ℕ)
  | started (id : ℕ)
  | writing (id : ℕ) (w : PendingWrite)
  | finished (id : ℕ) (result : ℤ) (error : String)
  | notifying
deriving DecidableEq

/-- Where the owner thread stands. In `waitLock` it is about to lock `io_mu_`, in `waitEval` to
evaluate the predicate (`queued` tells the two predicates of `wait` apart), in `waitSleep` the
predicate was false and the lock is still held. -/
inductive OwnerState
  | idle
  | waitLoad (id : ℕ)
  | waitLock (id : ℕ) (queued : Bool)
  | waitEval (id : ℕ) (queued : Bool)
  | waitSleep (id : ℕ) (queued : Bool)
  | asleep (id : ℕ) (queued : Bool)
  | waitEvent (id : ℕ)
  | waitPoll (id : ℕ)
  | cancelLoad (id : ℕ)
  | cancelFlag (id : ℕ) (state : MigrationState)
  | cancelDequeue (id : ℕ)
  | cancelFinalize (id : ℕ)
deriving DecidableEq, Repr

/-- The whole system. The task ids count up without wrapping around. `clientPins` counts the pins
that the client holds itself, `written` is what it wrote last for a chunk. -/
structure Engine where
  directory : CacheDirectory
  chunkBytes : ℕ
  gpuSlots : ℕ
  cpuSlots : ℕ
  gpu : ℕ → Bytes
  cpu : ℕ → Bytes
  store : ChunkFileStore
  nextId : ℕ := 1
  tasks : ℕ → Option Task := fun _ => none
  ioQueue : List ℕ := []
  ioThreads : ℕ
  workers : ℕ → WorkerState := fun _ => .idle
  owner : OwnerState := .idle
  pending : CacheKey → Option Pending := fun _ => none
  orphans : List Orphan := []
  clientPins : CacheKey → ℕ := fun _ => 0
  written : CacheKey → Bytes := fun _ => []

/-- The step of a copy submission that fails, the bytes a copy that fails leaves behind, and whether
the stream can be synchronized afterwards. -/
structure CopyFault where
  eventCreate : Bool := false
  memcpy : Bool := false
  eventRecord : Bool := false
  garbage : Bytes := []
  syncOk : Bool := true

namespace Engine

/-- New bytes over the beginning of a buffer. -/
def overwrite (buffer bytes : Bytes) : Bytes :=
  bytes.take buffer.length ++ buffer.drop bytes.length

/-- The memory of a tier; files are not memory. -/
def mem (e : Engine) : StorageTier → ℕ → Bytes
  | .GPU => e.gpu
  | .CPU => e.cpu
  | .NVME => fun _ => []

def setMem (e : Engine) (tier : StorageTier) (slot : ℕ) (bytes : Bytes) : Engine :=
  { e with
    gpu := if tier = .GPU then Function.update e.gpu slot bytes else e.gpu
    cpu := if tier = .CPU then Function.update e.cpu slot bytes else e.cpu }

def setTask (e : Engine) (t : Task) : Engine :=
  { e with tasks := Function.update e.tasks t.id (some t) }

def setWorker (e : Engine) (w : ℕ) (s : WorkerState) : Engine :=
  { e with workers := Function.update e.workers w s }

/-- A call of the directory. -/
def onDirectory {α : Type} (x : Call CacheDirectory α) : Call Engine α := fun e =>
  match x e.directory with
  | .ok a d => .ok a { e with directory := d }
  | .error err d => .error err { e with directory := d }

/-- A call of the file store. -/
def onStore {α : Type} (x : Call ChunkFileStore α) : Call Engine α := fun e =>
  match x e.store with
  | .ok a s => .ok a { e with store := s }
  | .error err s => .error err { e with store := s }

/-- `GpuChunkStore::device_ptr` and `HostChunkBuffers::data`: the range check. -/
def buffer (e : Engine) (tier : StorageTier) (slot : ℕ) : Except Exn Unit :=
  match tier with
  | .GPU => if slot < e.gpuSlots then .ok () else .error (.outOfRange "GPU block id out of range")
  | _ => if slot < e.cpuSlots then .ok () else .error (.invalidArgument "chunk slot out of range")

/-- `cudaEventCreateWithFlags`, `cudaMemcpyAsync` and `cudaEventRecord`. From the copy on, the
destination may change until the stream is synchronized. -/
def submitCopy (tier : StorageTier) (slot : ℕ) (fault : CopyFault) : Call Engine Unit := do
  ensure (fault.eventCreate = false) (.runtimeError "cudaEventCreateWithFlags")
  modify fun e => { e with orphans := ⟨tier, slot⟩ :: e.orphans }
  ensure (fault.memcpy = false) (.runtimeError "cudaMemcpyAsync")
  ensure (fault.eventRecord = false) (.runtimeError "cudaEventRecord")
  modify fun e => { e with orphans := e.orphans.erase ⟨tier, slot⟩ }

/-- `stream_.synchronize()` in an error handler: on success the failed copy has ended. -/
def synchronize (tier : StorageTier) (slot : Option ℕ) (fault : CopyFault) : Call Engine Unit := do
  ensure (fault.syncOk = true) (.runtimeError "cudaStreamSynchronize")
  match slot with
  | none => pure ()
  | some slot => modify fun e =>
    if ⟨tier, slot⟩ ∈ e.orphans then
      { e.setMem tier slot (overwrite (e.mem tier slot) fault.garbage) with
        orphans := e.orphans.erase ⟨tier, slot⟩ }
    else e

/-! ## MigrationManager -/

/-- NVMe and GPU are not neighbours. -/
def direct (source destination : StorageTier) : Bool :=
  source ≠ destination ∧ ¬ (source = .GPU ∧ destination = .NVME) ∧
    ¬ (source = .NVME ∧ destination = .GPU)

/-- The loop of `submit` over the tiers: the READY replicas that reach the destination. -/
def inferSource (r : ChunkRecord) (destination : StorageTier) : Except Exn (Option StorageTier) :=
  [StorageTier.GPU, .CPU, .NVME].foldl (fun found t =>
    match found with
    | .error e => .error e
    | .ok found =>
      if direct t destination ∧ (r.replica t).map Replica.state = some .READY then
        if found.isSome then .error (.logicError "ambiguous source: multiple READY replicas")
        else .ok (some t)
      else .ok found) (.ok none)

/-- `rollback_submit(task)`. -/
def rollbackSubmit (key : CacheKey) (source destination : StorageTier) (fault : CopyFault) :
    Call Engine Unit := do
  let e ← get
  let r ← check (e.directory.lookup key)
  synchronize destination ((r.replica destination).map fun slot => slot.location.slot) fault
  onDirectory do
    if (r.replica destination).isSome then do
      CacheDirectory.setState key destination .ERROR
      CacheDirectory.remove key destination
      CacheDirectory.unpin key
      CacheDirectory.setState key source .READY
    else CacheDirectory.setState key source .READY

/-- The `try` block of `submit`. -/
def startTask (task : Task) (fault : CopyFault) : Call Engine Task := do
  let loc ← onDirectory (CacheDirectory.place task.key task.destination
    (if task.destination = .GPU then .LOADING else .COPYING))
  let task := { task with destinationLoc := loc }
  onDirectory (CacheDirectory.pin task.key)
  if task.usesCuda then do
    let e ← get
    check (e.buffer task.destination loc.slot)
    check (e.buffer task.source task.sourceLoc.slot)
    submitCopy task.destination loc.slot fault
    return { task with state := .RUNNING }
  else do
    modify fun e => { e with ioQueue := e.ioQueue ++ [task.id] }
    return task

/-- `submit(key, destination, valid_tokens, priority)`. -/
def submit (key : CacheKey) (destination : StorageTier) (validTokens : UInt64) (priority : ℤ)
    (fault : CopyFault) : Call Engine ℕ := do
  let e ← get
  let r ← check (e.directory.lookup key)
  let found ← check (inferSource r destination)
  match found.bind fun source => (r.replica source).map fun slot => (source, slot.location) with
  | none => throw (.logicError "no READY source replica for migration")
  | some (source, sourceLoc) => do
    ensure ((r.replica destination).isNone)
      (.logicError "destination tier already holds a replica")
    ensure (direct source destination)
      (.invalidArgument "NVMe<->GPU migration must go through CPU")
    let task : Task :=
      { id := e.nextId, key := key, source := source, destination := destination,
        priority := priority, sourceLoc := sourceLoc, destinationLoc := ⟨0, 0⟩,
        fileMeta := makeFileMeta key validTokens (UInt64.ofNat e.chunkBytes) }
    modify fun e => { e with nextId := e.nextId + 1 }
    onDirectory (CacheDirectory.setState key source .COPYING)
    let task ← onError (startTask task fault) (rollbackSubmit key source destination fault)
    modify fun e => e.setTask task
    return task.id

def unknownTask : Exn := .outOfRange "unknown migration task"

/-- `find(id)`. -/
def find (e : Engine) (id : ℕ) : Except Exn Task :=
  match e.tasks id with
  | some t => .ok t
  | none => .error unknownTask

/-- `finalize_cancelled(task)`; `unlinked` says whether the file can be deleted. -/
def finalizeCancelled (t : Task) (unlinked : Bool) : Call Engine Unit := do
  let e ← get
  if t.destination = .NVME ∧ e.store.existsAt t.destinationLoc.slot then
    onStore (ChunkFileStore.erase unlinked t.destinationLoc.slot)
  else pure ()
  onDirectory do
    CacheDirectory.setState t.key t.destination .ERROR
    CacheDirectory.remove t.key t.destination
    CacheDirectory.setState t.key t.source .READY
    CacheDirectory.unpin t.key
  modify fun e => e.setTask { t with state := .CANCELLED }

/-- `finalize(task)`. -/
def finalize (t : Task) (unlinked : Bool) : Call Engine Unit :=
  if t.cancelRequested then finalizeCancelled t unlinked
  else do
    onDirectory do
      CacheDirectory.setState t.key t.destination .READY
      CacheDirectory.setState t.key t.source .READY
      CacheDirectory.unpin t.key
    modify fun e => e.setTask { t with state := .COMPLETED }

/-- The end of a task whose copy or I/O failed, in `poll`. -/
def fail (t : Task) : Call Engine Unit := do
  modify fun e => e.setTask { t with state := .FAILED }
  onDirectory do
    CacheDirectory.setState t.key t.destination .ERROR
    CacheDirectory.remove t.key t.destination
    CacheDirectory.setState t.key t.source .READY
    CacheDirectory.unpin t.key

/-- `poll(id)`. -/
def poll (id : ℕ) (unlinked : Bool) : Call Engine Unit := do
  let e ← get
  let t ← check (e.find id)
  if t.state ≠ .RUNNING then pure ()
  else if t.usesCuda then
    match t.copy with
    | .running | .landed => pure ()
    | .failed => fail { t with error := "cudaEventQuery" }
    | .done => finalize t unlinked
  else if t.ioResult = 0 then pure ()
  else if t.ioResult > 0 then finalize t unlinked
  else fail t

/-- `pending_count()`. -/
def pendingCount (e : Engine) : ℕ :=
  (List.range e.nextId).countP fun id => (e.tasks id).any fun t => !t.state.terminal

/-! ## GpuCpuTransfer -/

/-- The `try` blocks of `begin_offload` and `begin_onload`. -/
def beginCopy (key : CacheKey) (source : StorageTier) (sourceLoc : TierLocation)
    (destination : StorageTier) (fault : CopyFault) : Call Engine TierLocation := do
  let loc ← onDirectory (CacheDirectory.place key destination
    (if destination = .GPU then .LOADING else .COPYING))
  ensure (fault.eventCreate = false) (.runtimeError "cudaEventCreateWithFlags")
  let e ← get
  check (e.buffer destination loc.slot)
  check (e.buffer source sourceLoc.slot)
  submitCopy destination loc.slot fault
  return loc

/-- Their `catch` blocks. -/
def rollbackBegin (key : CacheKey) (source destination : StorageTier) (fault : CopyFault) :
    Call Engine Unit := do
  let e ← get
  let r ← check (e.directory.lookup key)
  synchronize destination ((r.replica destination).map fun slot => slot.location.slot) fault
  onDirectory do
    if (r.replica destination).isSome then do
      CacheDirectory.setState key destination .ERROR
      CacheDirectory.remove key destination
      CacheDirectory.setState key source .READY
    else CacheDirectory.setState key source .READY

/-- `begin_offload(key)` and `begin_onload(key)`. -/
def beginTransfer (offload : Bool) (key : CacheKey) (fault : CopyFault) : Call Engine Unit := do
  let source : StorageTier := if offload then .GPU else .CPU
  let destination : StorageTier := if offload then .CPU else .GPU
  let e ← get
  ensure ((e.pending key).isNone) (.logicError "transfer already pending")
  let r ← check (e.directory.lookup key)
  match r.replica source with
  | some ⟨sourceLoc, .READY⟩ => do
    ensure ((r.replica destination).isNone)
      (.logicError (if offload then "cpu replica already exists" else "gpu replica already exists"))
    onDirectory (CacheDirectory.setState key source .COPYING)
    let loc ← onError (beginCopy key source sourceLoc destination fault)
      (rollbackBegin key source destination fault)
    onDirectory (CacheDirectory.pin key)
    modify fun e => { e with
      pending := Function.update e.pending key
        (some { source := sourceLoc, destination := loc, offload := offload }) }
  | _ => throw (.logicError (if offload then "offload requires a READY gpu replica"
      else "onload requires a READY cpu replica"))

/-- `finish(key, offload, release_source)` from the return of `cudaEventSynchronize` on; `reached`
is its result, and `destroyed` says whether `cudaEventDestroy` succeeds. -/
def finishReached (offload : Bool) (key : CacheKey) (releaseSource : Bool) (p : Pending)
    (reached : Except Exn Unit) (destroyed : Bool) : Call Engine Unit := do
  check reached
  ensure (destroyed = true) (.runtimeError "cudaEventDestroy")
  modify fun e => { e with pending := Function.update e.pending key none }
  let source : StorageTier := if offload then .GPU else .CPU
  let destination : StorageTier := if offload then .CPU else .GPU
  let e ← get
  let r ← check (e.directory.lookup key)
  ensure ((r.replica source).map Replica.location = some p.source ∧
      (r.replica destination).map Replica.location = some p.destination)
    (.logicError "transfer replicas were modified while in flight")
  onDirectory do
    CacheDirectory.setState key destination .READY
    CacheDirectory.setState key source .READY
    CacheDirectory.unpin key
  if releaseSource then onDirectory (CacheDirectory.remove key source) else pure ()

/-- `finish(key, offload, release_source)`; `none` while it waits for the event. -/
def finishTransfer (offload : Bool) (key : CacheKey) (releaseSource destroyed : Bool) (e : Engine) :
    Option (EStateM.Result Exn Engine Unit) :=
  match e.pending key with
  | none => some (.error (.logicError "no pending transfer for this chunk") e)
  | some p =>
    if p.offload = offload then
      p.copy.eventSynchronize.map fun reached =>
        finishReached offload key releaseSource p reached destroyed e
    else some (.error (.logicError "pending transfer direction mismatch") e)

/-! ## NvmeTransfer -/

/-- The `catch` blocks of `NvmeTransfer`. -/
def rollbackNvme (key : CacheKey) (source destination : StorageTier) : Call Engine Unit := do
  let e ← get
  let r ← check (e.directory.lookup key)
  onDirectory do
    if (r.replica destination).isSome then do
      CacheDirectory.setState key destination .ERROR
      CacheDirectory.remove key destination
      CacheDirectory.setState key source .READY
    else CacheDirectory.setState key source .READY

/-- `offload(key, valid_tokens, release_cpu)`. -/
def offload (key : CacheKey) (validTokens : UInt64) (releaseCpu : Bool) (fault : WriteFault) :
    Call Engine Unit := do
  let e ← get
  let r ← check (e.directory.lookup key)
  match r.cpu with
  | some ⟨source, .READY⟩ => do
    ensure r.nvme.isNone (.logicError "nvme replica already exists")
    onDirectory (CacheDirectory.setState key .CPU .COPYING)
    onError
      (do
        let loc ← onDirectory (CacheDirectory.place key .NVME .COPYING)
        let e ← get
        check (e.buffer .CPU source.slot)
        onStore (ChunkFileStore.write fault loc.slot
          (makeFileMeta key validTokens (UInt64.ofNat e.chunkBytes)) (e.cpu source.slot)))
      (rollbackNvme key .CPU .NVME)
    onDirectory do
      CacheDirectory.setState key .NVME .READY
      CacheDirectory.setState key .CPU .READY
    if releaseCpu then onDirectory (CacheDirectory.remove key .CPU) else pure ()
  | _ => throw (.logicError "nvme offload requires a READY cpu replica")

/-- `store_.read(slot, expected, cpu_buffers_.data(destination), chunk_bytes)` with the check of its
result. -/
def readChunk (slot : ℕ) (expected : ChunkFileMeta) (destination : ℕ) (fault : ReadFault) :
    Call Engine Unit := fun e =>
  match e.buffer .CPU destination with
  | .error err => .error err e
  | .ok _ =>
    match e.store.read fault slot expected e.chunkBytes (e.cpu destination) with
    | .error err out => .error err (e.setMem .CPU destination out)
    | .ok none out =>
      .error (.chunkMissError "nvme chunk file missing for registered replica")
        (e.setMem .CPU destination out)
    | .ok (some _) out => .ok () (e.setMem .CPU destination out)

/-- `onload(key, release_nvme)`. -/
def onload (key : CacheKey) (releaseNvme : Bool) (fault : ReadFault) (unlinked : Bool) :
    Call Engine Unit := do
  let e ← get
  let r ← check (e.directory.lookup key)
  match r.nvme with
  | some ⟨source, .READY⟩ => do
    ensure r.cpu.isNone (.logicError "cpu replica already exists")
    onDirectory (CacheDirectory.setState key .NVME .COPYING)
    onError
      (do
        let loc ← onDirectory (CacheDirectory.place key .CPU .LOADING)
        readChunk source.slot (makeFileMeta key 0 (UInt64.ofNat e.chunkBytes)) loc.slot fault)
      (rollbackNvme key .NVME .CPU)
    onDirectory do
      CacheDirectory.setState key .CPU .READY
      CacheDirectory.setState key .NVME .READY
    if releaseNvme then do
      onStore (ChunkFileStore.erase unlinked source.slot)
      onDirectory (CacheDirectory.remove key .NVME)
    else pure ()
  | _ => throw (.logicError "nvme onload requires a READY nvme replica")

end Engine

end KVFlux.V3
