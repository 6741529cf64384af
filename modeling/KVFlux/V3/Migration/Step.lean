import KVFlux.Lib.Transition
import KVFlux.V3.Migration.Model

/-!
# The steps of the migration engine

One owner thread calls the directory and the engines, any number of I/O workers serve the queue, and
the device runs the copies. The steps of `wait`, `cancel` and `worker_loop` interleave, the other
calls run in one piece.

* `Move`, `CopyOwner`, `Engine.move`: the moves that have begun and not ended.
* `ClientCall`, `ownerStep`: the owner thread.
* `take`, `checkCancel`, `io`, `commit`, `storeResult`, `notify`: a worker.
* `deviceStep`, `scribble`: the device.
* `Action`, `Engine.step`, `Engine.new`, `Engine.Start`: the transition system.
-/

namespace KVFlux.V3

open Fallible

/-- A chunk on its way between two tiers. -/
structure Move where
  key : CacheKey
  source : StorageTier
  sourceLoc : TierLocation
  destination : StorageTier
  destinationLoc : TierLocation
deriving DecidableEq

def Task.move (t : Task) : Move :=
  ⟨t.key, t.source, t.sourceLoc, t.destination, t.destinationLoc⟩

/-- The predicates of `wait`. -/
def Task.awaited (t : Task) (queued : Bool) : Bool :=
  t.ioResult ≠ 0 ∨ (queued = true ∧ t.state ≠ .QUEUED)

def Pending.move (key : CacheKey) (p : Pending) : Move :=
  ⟨key, if p.offload then .GPU else .CPU, p.source, if p.offload then .CPU else .GPU,
    p.destination⟩

/-- The two kinds of moves. -/
inductive CopyOwner
  | task (id : ℕ)
  | transfer (key : CacheKey)
deriving DecidableEq

/-- What the device does to a copy. A copy that fails leaves any bytes behind. -/
inductive DeviceEvent
  | land
  | reach
  | fail (garbage : Bytes)
deriving DecidableEq

/-- A call of the client. -/
inductive ClientCall
  | directory (op : DirOp)
  | provide (key : CacheKey) (tier : StorageTier) (validTokens : UInt64) (bytes : Bytes)
      (fault : WriteFault)
  | submit (key : CacheKey) (destination : StorageTier) (validTokens : UInt64) (priority : ℤ)
      (fault : CopyFault)
  | poll (id : ℕ) (unlinked : Bool)
  | beginTransfer (offload : Bool) (key : CacheKey) (fault : CopyFault)
  | finishTransfer (offload : Bool) (key : CacheKey) (releaseSource destroyed : Bool)
  | offload (key : CacheKey) (validTokens : UInt64) (releaseCpu : Bool) (fault : WriteFault)
  | onload (key : CacheKey) (releaseNvme : Bool) (fault : ReadFault) (unlinked : Bool)

inductive Action
  | call (c : ClientCall)
  | wait (id : ℕ)
  | cancel (id : ℕ)
  | owner (unlinked : Bool)
  | take (w : ℕ)
  | checkCancel (w : ℕ)
  | io (w : ℕ) (fault : ReadFault)
  | commit (w : ℕ) (fault : WriteFault)
  | storeResult (w : ℕ)
  | notify (w : ℕ)
  | device (o : CopyOwner) (event : DeviceEvent)
  | scribble (o : Orphan) (garbage : Bytes)

namespace Engine

/-- The moves that have not ended. -/
def move (e : Engine) : CopyOwner → Option Move
  | .task id => (e.tasks id).bind fun t => if t.state.terminal then none else some t.move
  | .transfer key => (e.pending key).map (Pending.move key)

/-- The state of the copy of a move that the device runs. -/
def copyState (e : Engine) : CopyOwner → Option CopyState
  | .task id => (e.tasks id).bind fun t =>
    if t.state.terminal ∨ ¬ t.usesCuda then none else some t.copy
  | .transfer key => (e.pending key).map Pending.copy

def setCopy (e : Engine) (o : CopyOwner) (c : CopyState) : Engine :=
  match o with
  | .task id =>
    { e with
      tasks := Function.update e.tasks id ((e.tasks id).map fun t => { t with copy := c }) }
  | .transfer key =>
    { e with
      pending := Function.update e.pending key
        ((e.pending key).map fun p => { p with copy := c }) }

/-! ## The owner thread -/

/-- A directory call of the client, which counts its own pins. -/
def clientDirectory (op : DirOp) : Call Engine Unit := do
  onDirectory op.exec
  match op with
  | .pin key => modify fun e =>
    { e with clientPins := Function.update e.clientPins key (e.clientPins key + 1) }
  | .unpin key => modify fun e =>
    { e with clientPins := Function.update e.clientPins key (e.clientPins key - 1) }
  | _ => pure ()

/-- The client writes a chunk into a slot. -/
def fill (key : CacheKey) (tier : StorageTier) (slot : ℕ) (validTokens : UInt64) (bytes : Bytes)
    (fault : WriteFault) : Call Engine Unit := do
  let e ← get
  match tier with
  | .NVME => onStore (ChunkFileStore.write fault slot
      (makeFileMeta key validTokens (UInt64.ofNat e.chunkBytes)) bytes)
  | _ => do
    check (e.buffer tier slot)
    modify fun e => e.setMem tier slot (overwrite (e.mem tier slot) bytes)

/-- The client places a chunk and writes it; when that fails it gives the slot back. -/
def provide (key : CacheKey) (tier : StorageTier) (validTokens : UInt64) (bytes : Bytes)
    (fault : WriteFault) : Call Engine Unit := do
  let loc ← onDirectory (CacheDirectory.place key tier .READY)
  onError (fill key tier loc.slot validTokens bytes fault)
    (onDirectory (CacheDirectory.remove key tier))
  modify fun e => { e with written := Function.update e.written key bytes }

/-- The client does not set states, releases only pins it holds, and does not exhaust the pin
counter. -/
def pinsOk (e : Engine) : DirOp → Bool
  | .setState _ _ _ => false
  | .pin key => e.clientPins key + 2 < 2 ^ 64
  | .unpin key => 0 < e.clientPins key
  | _ => true

end Engine

namespace ClientCall

def enabled (e : Engine) : ClientCall → Bool
  | .directory op => e.pinsOk op
  | _ => true

/-- The call; `none` while it waits. -/
def exec : ClientCall → Engine → Option (EStateM.Result Exn Engine Unit)
  | .directory op, e => some (Engine.clientDirectory op e)
  | .provide key tier validTokens bytes fault, e =>
    some (Engine.provide key tier validTokens bytes fault e)
  | .submit key destination validTokens priority fault, e =>
    some ((do let _ ← Engine.submit key destination validTokens priority fault) e)
  | .poll id unlinked, e => some (Engine.poll id unlinked e)
  | .beginTransfer down key fault, e => some (Engine.beginTransfer down key fault e)
  | .finishTransfer down key releaseSource destroyed, e =>
    Engine.finishTransfer down key releaseSource destroyed e
  | .offload key validTokens releaseCpu fault, e =>
    some (Engine.offload key validTokens releaseCpu fault e)
  | .onload key releaseNvme fault unlinked, e =>
    some (Engine.onload key releaseNvme fault unlinked e)

end ClientCall

namespace Engine

/-- `wait` and `cancel` look the task up first. -/
def enter (e : Engine) (id : ℕ) (s : OwnerState) : Engine :=
  if (e.tasks id).isSome then { e with owner := s } else e

/-- The next step of the owner thread inside `wait` or `cancel`. -/
def ownerStep (e : Engine) (unlinked : Bool) : Option Engine :=
  match e.owner with
  | .idle => none
  | .asleep _ _ => none
  | .waitLoad id => (e.tasks id).map fun t =>
    { e with owner :=
        if t.state.terminal then .idle
        else if t.state = .QUEUED then .waitLock id true
        else if t.usesCuda then .waitEvent id
        else .waitLock id false }
  | .waitLock id queued => some { e with owner := .waitEval id queued }
  | .waitEval id queued => (e.tasks id).map fun t =>
    { e with owner :=
        if t.awaited queued then if queued then .waitLoad id else .waitPoll id
        else .waitSleep id queued }
  | .waitSleep id queued => some { e with owner := .asleep id queued }
  | .waitEvent id => (e.tasks id).bind fun t =>
    match t.copy with
    | .running | .landed => none
    | .done => some { e with owner := .waitPoll id }
    | .failed => some { e with owner := .idle }
  | .waitPoll id => some (finalState (poll id unlinked { e with owner := .idle }))
  | .cancelLoad id => (e.tasks id).map fun t =>
    { e with owner := if t.state.terminal then .idle else .cancelFlag id t.state }
  | .cancelFlag id state => (e.tasks id).map fun t =>
    { e.setTask { t with cancelRequested := true } with
      owner := if state = .RUNNING then .idle else .cancelDequeue id }
  | .cancelDequeue id =>
    some (if id ∈ e.ioQueue then
        { e with ioQueue := e.ioQueue.erase id, owner := .cancelFinalize id }
      else { e with owner := .cancelLoad id })
  | .cancelFinalize id => (e.tasks id).map fun t =>
    finalState (finalizeCancelled t unlinked { e with owner := .idle })

/-- The owner holds `io_mu_` across steps. -/
def ownerLocks (e : Engine) : Bool :=
  match e.owner with
  | .waitEval _ _ | .waitSleep _ _ => true
  | _ => false

/-! ## The workers -/

/-- The comparison of the loop over the queue. -/
def before (e : Engine) (it best : ℕ) : Bool :=
  match e.tasks it, e.tasks best with
  | some t, some b => t.priority > b.priority ∨ (t.priority = b.priority ∧ t.id < b.id)
  | _, _ => false

/-- The loop over the queue. -/
def best (e : Engine) : Option ℕ :=
  match e.ioQueue with
  | [] => none
  | id :: ids => some (ids.foldl (fun best it => if e.before it best then it else best) id)

/-- A worker takes a task. -/
def take (e : Engine) (w : ℕ) : Option Engine :=
  if w < e.ioThreads ∧ e.workers w = .idle ∧ ¬ e.ownerLocks then
    e.best.bind fun id => (e.tasks id).map fun t =>
      ({ e with ioQueue := e.ioQueue.erase id }.setTask { t with state := .RUNNING }).setWorker w
        (.taken id)
  else none

/-- The worker looks at `cancel_requested`. -/
def checkCancel (e : Engine) (w : ℕ) : Option Engine :=
  match e.workers w with
  | .taken id => (e.tasks id).map fun t =>
    e.setWorker w (if t.cancelRequested then .finished id 1 "" else .started id)
  | _ => none

/-- `do_io` up to the quota check of a write, or all of a read. -/
def io (e : Engine) (w : ℕ) (fault : ReadFault) : Option Engine :=
  match e.workers w with
  | .started id => (e.tasks id).map fun t =>
    if t.destination = .NVME then
      match e.buffer .CPU t.sourceLoc.slot with
      | .error err => e.setWorker w (.finished id (-1) err.what)
      | .ok _ =>
        match e.store.writeCheck t.destinationLoc.slot t.fileMeta (e.cpu t.sourceLoc.slot) with
        | .error err => e.setWorker w (.finished id (-1) err.what)
        | .ok p => e.setWorker w (.writing id p)
    else
      match readChunk t.sourceLoc.slot t.fileMeta t.destinationLoc.slot fault e with
      | .error err e => e.setWorker w (.finished id (-1) err.what)
      | .ok _ e => e.setWorker w (.finished id 1 "")
  | _ => none

/-- The rest of a write. -/
def commit (e : Engine) (w : ℕ) (fault : WriteFault) : Option Engine :=
  match e.workers w with
  | .writing id p => (e.tasks id).map fun t =>
    match ChunkFileStore.writeTemp fault p (e.cpu t.sourceLoc.slot) e.store with
    | .error err s => { e with store := s }.setWorker w (.finished id (-1) err.what)
    | .ok _ s =>
      { e with store := s.writeCommit p (e.cpu t.sourceLoc.slot) }.setWorker w (.finished id 1 "")
  | _ => none

/-- The worker stores `io_result`. -/
def storeResult (e : Engine) (w : ℕ) : Option Engine :=
  match e.workers w with
  | .finished id result error => (e.tasks id).map fun t =>
    (e.setTask { t with ioResult := result, error := if result < 0 then error else t.error }).setWorker
      w .notifying
  | _ => none

/-- `io_done_cv_.notify_all()` wakes the owner if it is asleep. -/
def notify (e : Engine) (w : ℕ) : Option Engine :=
  match e.workers w with
  | .notifying => some
    { e.setWorker w .idle with
      owner := match e.owner with
        | .asleep id queued => .waitLock id queued
        | s => s }
  | _ => none

/-! ## The device -/

/-- A copy lands, its event is reached, or it fails. -/
def deviceStep (e : Engine) (o : CopyOwner) (event : DeviceEvent) : Option Engine :=
  match e.move o, e.copyState o, event with
  | some m, some .running, .land => some
    ((e.setMem m.destination m.destinationLoc.slot
      (overwrite (e.mem m.destination m.destinationLoc.slot) (e.mem m.source m.sourceLoc.slot))).setCopy
        o .landed)
  | some _, some .landed, .reach => some (e.setCopy o .done)
  | some m, some _, .fail garbage => some
    ((e.setMem m.destination m.destinationLoc.slot
      (overwrite (e.mem m.destination m.destinationLoc.slot) garbage)).setCopy o .failed)
  | _, _, _ => none

/-- A copy whose end nobody has observed writes to its destination. -/
def scribble (e : Engine) (o : Orphan) (garbage : Bytes) : Option Engine :=
  if o ∈ e.orphans then some (e.setMem o.tier o.slot (overwrite (e.mem o.tier o.slot) garbage))
  else none

/-! ## The transition system -/

/-- One step; `none` where the action is not enabled or its call waits. A call that throws leaves the
state it reached. -/
def step : Action → Engine → Option Engine
  | .call c, e => if e.owner = .idle ∧ c.enabled e then (c.exec e).map finalState else none
  | .wait id, e => if e.owner = .idle then some (e.enter id (.waitLoad id)) else none
  | .cancel id, e => if e.owner = .idle then some (e.enter id (.cancelLoad id)) else none
  | .owner unlinked, e => e.ownerStep unlinked
  | .take w, e => e.take w
  | .checkCancel w, e => e.checkCancel w
  | .io w fault, e => e.io w fault
  | .commit w fault, e => e.commit w fault
  | .storeResult w, e => e.storeResult w
  | .notify w, e => e.notify w
  | .device o event, e => e.deviceStep o event
  | .scribble o garbage, e => e.scribble o garbage

/-- The constructors of the memories and the engines over a directory. -/
def new (directory : CacheDirectory) (chunkBytes gpuSlots cpuSlots : ℕ) (gpu cpu : ℕ → Bytes)
    (store : ChunkFileStore) (ioThreads : ℕ) : Except Exn Engine :=
  if ioThreads = 0 then .error (.invalidArgument "io_threads must be positive")
  else .ok
    { directory := directory, chunkBytes := chunkBytes, gpuSlots := gpuSlots, cpuSlots := cpuSlots,
      gpu := gpu, cpu := cpu, store := store, ioThreads := ioThreads }

/-- The engine over a new directory. -/
structure Start (H : Tokens → UInt64) (e : Engine) : Prop where
  directory : Reachable H e.directory 0
  records : e.directory.records = ∅
  engine : ∃ gpuSlots cpuSlots ioThreads, new e.directory e.chunkBytes gpuSlots cpuSlots e.gpu e.cpu
    e.store ioThreads = .ok e
  chunkBytes_lt : e.chunkBytes < 2 ^ 64
  gpu_length : ∀ i, (e.gpu i).length = e.chunkBytes
  cpu_length : ∀ i, (e.cpu i).length = e.chunkBytes

end Engine

end KVFlux.V3
