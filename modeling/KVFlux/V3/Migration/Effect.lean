import KVFlux.V3.Migration.Locks

/-!
# What a call of the owner does

A call runs many steps on the directory, the memories and the files, and may fail at each. `Effect`
lists what can come of it, with the new state written out.

* `Engine.cell`, `Image`: the bytes of a slot, and a chunk's bytes in the form a tier stores them.
* `Kept`: the slots that stay registered keep their bytes.
* `Queue`, `Inv`: the invariant of the engine.
* `Begins`, `ChunkRecord.completed`, `Discards`: how a move changes the records.
* **`Effect`**: the effects of the calls.
-/

namespace KVFlux.V3

open Fallible ChunkRecord

/-- The bytes of the chunk `key` in the form in which `tier` stores them. -/
def Image (chunkBytes : ℕ) (key : CacheKey) (tier : StorageTier) (bytes : Bytes)
    (cell : Option Bytes) : Prop :=
  match tier with
  | .GPU | .CPU => cell = some bytes
  | .NVME => ∃ validTokens sum, cell =
    some (encodeHeader (makeFileMeta key validTokens (UInt64.ofNat chunkBytes)) sum ++ bytes)

/-- The copy or the I/O of the task has ended. -/
def Task.Ended (t : Task) : Prop :=
  (t.usesCuda = true → t.copy = .done ∨ t.copy = .failed) ∧ (t.usesCuda = false → t.ioResult ≠ 0)

/-- The copy or the I/O of the task failed. -/
def Task.Failed (t : Task) : Prop := if t.usesCuda then t.copy = .failed else t.ioResult < 0

/-- The task a worker has taken and not finished. -/
def WorkerState.task : WorkerState → Option ℕ
  | .idle => none
  | .taken id => some id
  | .started id => some id
  | .writing id _ => some id
  | .finished id _ _ => some id
  | .notifying => none

namespace Engine

/-- The bytes of a slot. -/
def cell (e : Engine) : StorageTier → ℕ → Option Bytes
  | .GPU, i => some (e.gpu i)
  | .CPU, i => some (e.cpu i)
  | .NVME, i => e.store.files.lookup i

/-- The buffers have the size of a chunk. -/
structure Sized (e : Engine) : Prop where
  chunkBytes_lt : e.chunkBytes < 2 ^ 64
  gpu : ∀ i, (e.gpu i).length = e.chunkBytes
  cpu : ∀ i, (e.cpu i).length = e.chunkBytes

/-- No record has the slot. -/
def Fresh (e : Engine) (tier : StorageTier) (i : ℕ) : Prop :=
  ∀ key r slot, e.directory.record key = some r → r.replica tier = some slot →
    slot.location.slot ≠ i

/-- The slots that stay registered keep their bytes, and the buffers their sizes. -/
structure Kept (e e' : Engine) : Prop where
  cell : ∀ key r r' tier slot slot', e.directory.record key = some r →
    r.replica tier = some slot → e'.directory.record key = some r' → r'.replica tier = some slot' →
    slot'.location = slot.location → e'.cell tier slot.location.slot = e.cell tier slot.location.slot
  gpu : ∀ i, (e'.gpu i).length = (e.gpu i).length
  cpu : ∀ i, (e'.cpu i).length = (e.cpu i).length

/-- The tasks, the queue and the workers. -/
structure Queue (e : Engine) : Prop where
  task : ∀ id t, e.tasks id = some t → t.id = id ∧ id < e.nextId ∧
    direct t.source t.destination = true ∧
    ∃ validTokens, t.fileMeta = makeFileMeta t.key validTokens (UInt64.ofNat e.chunkBytes)
  queued : ∀ id ∈ e.ioQueue, ∃ t, e.tasks id = some t ∧ t.state = .QUEUED ∧ t.usesCuda = false ∧
    t.ioResult = 0
  nodup : e.ioQueue.Nodup
  taken : ∀ w id, (e.workers w).task = some id → w < e.ioThreads ∧ ∃ t, e.tasks id = some t ∧
    t.state = .RUNNING ∧ t.usesCuda = false ∧ t.ioResult = 0
  taken_once : ∀ w w' id, (e.workers w).task = some id → (e.workers w').task = some id → w = w'
  cancelling : ∀ id, e.owner = .cancelFinalize id → id ∉ e.ioQueue ∧ ∃ t, e.tasks id = some t ∧
    t.state = .QUEUED ∧ t.usesCuda = false
  ended : ∀ id t, e.tasks id = some t → t.state.terminal = true → t.usesCuda = true →
    t.copy = .done ∨ t.copy = .failed

/-- **The invariant of the engine.** -/
structure Inv (H : Tokens → UInt64) (e : Engine) : Prop where
  directory : e.directory.Inv H 0
  locks : Locks e.directory.record e.clientPins e.move e.orphans
  sized : e.Sized
  queue : e.Queue

end Engine

/-! ## Moves and records -/

/-- Both replicas of the move are held and a pin is added. -/
structure Begins (d d' : CacheDirectory) (m : Move) (r r' : ChunkRecord) : Prop where
  record : d.record m.key = some r
  source : r.replica m.source = some ⟨m.sourceLoc, .READY⟩
  destination : r.replica m.destination = none
  tiers_ne : m.source ≠ m.destination
  record' : d'.record = Function.update d.record m.key (some r')
  source' : r'.Held m.source m.sourceLoc
  destination' : r'.Held m.destination m.destinationLoc
  pinCount : r'.pinCount = r.pinCount + 1
  other : ∀ t, t ≠ m.source → t ≠ m.destination → r'.replica t = r.replica t

/-- The record during a move. -/
def ChunkRecord.moving (r : ChunkRecord) (m : Move) (state : ChunkState) (n : ℕ) : ChunkRecord :=
  ((r.setReplica m.source (some ⟨m.sourceLoc, .COPYING⟩)).setReplica m.destination
    (some ⟨m.destinationLoc, state⟩)).setPins n

/-- The record after a move that arrived. -/
def ChunkRecord.completed (r : ChunkRecord) (m : Move) : ChunkRecord :=
  ((r.setReplica m.destination (some ⟨m.destinationLoc, .READY⟩)).setReplica m.source
    (some ⟨m.sourceLoc, .READY⟩)).setPins (r.pinCount - 1)

/-- The record after a move that was given up. -/
def ChunkRecord.discarded (r : ChunkRecord) (m : Move) : ChunkRecord :=
  ((r.setReplica m.destination none).setReplica m.source
    (some ⟨m.sourceLoc, .READY⟩)).setPins (r.pinCount - 1)

/-- The destination slot goes back to its tier. -/
structure Discards (d d' : CacheDirectory) (m : Move) (r : ChunkRecord) : Prop where
  record' : d'.record = Function.update d.record m.key (some (r.discarded m))
  allocated : d'.tiers.allocatedChunks m.destination + 1 = d.tiers.allocatedChunks m.destination

namespace ChunkRecord

variable {r : ChunkRecord} {m : Move} {state : ChunkState} {n : ℕ} {t : StorageTier}

theorem moving_source (hne : m.source ≠ m.destination) :
    (r.moving m state n).replica m.source = some ⟨m.sourceLoc, .COPYING⟩ := by
  simp [moving, hne]

theorem moving_destination :
    (r.moving m state n).replica m.destination = some ⟨m.destinationLoc, state⟩ := by
  simp [moving]

theorem moving_other (hs : t ≠ m.source) (hd : t ≠ m.destination) :
    (r.moving m state n).replica t = r.replica t := by
  simp [moving, hs, hd]

theorem moving_held (hne : m.source ≠ m.destination) (h₁ : state ≠ .READY) (h₂ : state ≠ .ERROR) :
    (r.moving m state n).Held m.source m.sourceLoc ∧
      (r.moving m state n).Held m.destination m.destinationLoc :=
  ⟨⟨.COPYING, moving_source hne, nofun, nofun⟩, ⟨state, moving_destination, h₁, h₂⟩⟩

theorem moving_two (hne : m.source ≠ m.destination) (h₁ : state ≠ .READY) (h₂ : state ≠ .ERROR) :
    (r.moving m state n).TwoHeld :=
  have hheld := @moving_held r m state n hne h₁ h₂
  ⟨m.source, m.destination, _, _, hne, hheld.1, hheld.2⟩

/-- No replica becomes READY. -/
theorem moving_ready (h₁ : state ≠ .READY) {l : TierLocation}
    (h : (r.moving m state n).replica t = some ⟨l, .READY⟩) : r.replica t = some ⟨l, .READY⟩ := by
  by_cases hd : t = m.destination
  · subst hd
    rw [moving_destination] at h
    cases h
    exact absurd rfl h₁
  · by_cases hs : t = m.source
    · subst hs
      rw [moving_source hd] at h
      cases h
    · rwa [moving_other hs hd] at h

/-- A move that is undone. -/
theorem moving_back (hs : r.replica m.source = some ⟨m.sourceLoc, .READY⟩)
    (hd : r.replica m.destination = none) :
    (((r.moving m state n).setReplica m.destination none).setReplica m.source
      (some ⟨m.sourceLoc, .READY⟩)).setPins r.pinCount = r := by
  refine ext_replica (by simp [moving]) (by simp [moving]) (by simp [moving]) (by simp) fun t => ?_
  by_cases ht : t = m.source
  · simp [ht, hs]
  · by_cases ht' : t = m.destination
    · subst ht'; simp [ht, hd]
    · simp [ht, ht', moving]

end ChunkRecord

namespace Engine

/-! ## Effects -/

/-- A directory call of the client. -/
inductive ClientChange (record : CacheKey → Option ChunkRecord) (pins : CacheKey → ℕ) (op : DirOp) :
    (CacheKey → Option ChunkRecord) → (CacheKey → ℕ) → Prop
  | change {key : CacheKey} {r r' : ChunkRecord} {n : ℕ} (hr : record key = some r)
      (hheld : ∀ tier l, r.Held tier l → r'.Held tier l) (hbound : n + 1 < 2 ^ 64)
      (hpin : r'.pinCount + pins key = r.pinCount + n)
      (hnew : ∀ tier slot, r'.replica tier = some slot →
        r.replica tier = some slot ∨ op = .place key tier slot.state) :
      ClientChange record pins op (Function.update record key (some r')) (Function.update pins key n)
  | create {key : CacheKey} (hr : record key = none) :
      ClientChange record pins op (Function.update record key (some { key := key })) pins
  | destroy {key : CacheKey} {r : ChunkRecord} (hr : record key = some r)
      (hnone : ∀ t, r.replica t = none) (hpin : r.pinCount = 0) :
      ClientChange record pins op (Function.update record key none) pins

/-- What a call of the owner does to the engine. -/
inductive Effect (H : Tokens → UInt64) (c : Option ClientCall) (e : Engine) : Engine → Prop
  /-- Nothing registered changes. -/
  | quiet {d : CacheDirectory} {n : ℕ} {gpu cpu : ℕ → Bytes} {store : ChunkFileStore}
      (hi : d.Inv H 0) (hr : d.record = e.directory.record) (hn : e.nextId ≤ n)
      (hs : store.Same e.store)
      (hk : Kept e { e with directory := d, nextId := n, gpu := gpu, cpu := cpu, store := store }) :
      Effect H c e { e with directory := d, nextId := n, gpu := gpu, cpu := cpu, store := store }
  | client {d : CacheDirectory} {pins : CacheKey → ℕ} {op : DirOp} (hop : c = some (.directory op))
      (hi : d.Inv H 0) (hc : ClientChange e.directory.record e.clientPins op d.record pins) :
      Effect H c e { e with directory := d, clientPins := pins }
  /-- The client has placed and written a chunk. -/
  | provide {d : CacheDirectory} {gpu cpu : ℕ → Bytes} {store : ChunkFileStore} {key : CacheKey}
      {tier : StorageTier} {validTokens : UInt64} {bytes : Bytes} {fault : WriteFault}
      {r : ChunkRecord} {l : TierLocation}
      (hcall : c = some (.provide key tier validTokens bytes fault)) (hi : d.Inv H 0)
      (hr : e.directory.record key = some r) (hnone : r.replica tier = none)
      (hr' : d.record = Function.update e.directory.record key
        (some (r.setReplica tier (some ⟨l, .READY⟩))))
      (hfresh : e.Fresh tier l.slot)
      (hs : store.Same e.store ∨ (tier = .NVME ∧ ∃ fileMeta w,
        e.store.writeCheck l.slot fileMeta bytes = .ok w ∧
        store.Same (e.store.writeCommit w bytes)))
      (hk : Kept e { e with directory := d, gpu := gpu, cpu := cpu, store := store })
      (himage : bytes.length = e.chunkBytes → Image e.chunkBytes key tier bytes
        (cell { e with gpu := gpu, cpu := cpu, store := store } tier l.slot)) :
      Effect H c e { e with
        directory := d, gpu := gpu, cpu := cpu, store := store,
        written := Function.update e.written key bytes }
  /-- A transfer failed and could not be undone. -/
  | abandon {d : CacheDirectory} {n : ℕ} {orphans : List Orphan} {key : CacheKey}
      {r r' : ChunkRecord} {source destination : StorageTier} {l : TierLocation} (hi : d.Inv H 0)
      (hn : e.nextId ≤ n) (hr : e.directory.record key = some r)
      (hready : r.replica source = some ⟨l, .READY⟩) (hnone : r.replica destination = none)
      (hne : source ≠ destination)
      (hr' : d.record = Function.update e.directory.record key (some r'))
      (hpin : r'.pinCount = r.pinCount ∨ (r'.pinCount = r.pinCount + 1 ∧ r'.TwoHeld))
      (horphan : ∀ b ∈ orphans, b ∈ e.orphans ∨
        (r'.TwoHeld ∧ ∃ l, r'.Held b.tier l ∧ l.slot = b.slot))
      (hnew : ∀ tier l, r'.replica tier = some ⟨l, .READY⟩ → r.replica tier = some ⟨l, .READY⟩) :
      Effect H c e { e with directory := d, nextId := n, orphans := orphans }
  | submit {d : CacheDirectory} {t : Task} {r r' : ChunkRecord} {validTokens : UInt64}
      (hi : d.Inv H 0) (hb : Begins e.directory d t.move r r') (hid : t.id = e.nextId)
      (hdirect : direct t.source t.destination = true)
      (hmeta : t.fileMeta = makeFileMeta t.key validTokens (UInt64.ofNat e.chunkBytes))
      (hresult : t.ioResult = 0) (hcopy : t.copy = .running) (hcancel : t.cancelRequested = false)
      (hstate : t.state = if t.usesCuda then .RUNNING else .QUEUED) :
      Effect H c e { e with
        directory := d, nextId := e.nextId + 1
        ioQueue := if t.usesCuda then e.ioQueue else e.ioQueue ++ [t.id]
        tasks := Function.update e.tasks t.id (some t) }
  | beginTransfer {d : CacheDirectory} {key : CacheKey} {p : Pending} {r r' : ChunkRecord}
      (hi : d.Inv H 0) (hb : Begins e.directory d (p.move key) r r') (hnone : e.pending key = none)
      (hcopy : p.copy = .running) :
      Effect H c e { e with
        directory := d, pending := Function.update e.pending key (some p) }
  /-- A task arrived. -/
  | complete {d : CacheDirectory} {t : Task} {r : ChunkRecord}
      (ht : e.tasks t.id = some t) (hrun : t.state = .RUNNING) (hend : t.Ended)
      (harrived : t.cancelRequested = false ∧ (t.usesCuda = true → t.copy = .done) ∧
        (t.usesCuda = false → 0 < t.ioResult))
      (hi : d.Inv H 0) (hr : e.directory.record t.key = some r)
      (hr' : d.record = Function.update e.directory.record t.key (some (r.completed t.move))) :
      Effect H c e { e with
        directory := d, tasks := Function.update e.tasks t.id (some { t with state := .COMPLETED }) }
  /-- A task failed or was cancelled. -/
  | discard {d : CacheDirectory} {store : ChunkFileStore} {t : Task} {state : MigrationState}
      {error : String} {r : ChunkRecord} (ht : e.tasks t.id = some t)
      (hstate : state = .FAILED ∨ state = .CANCELLED)
      (hend : (t.state = .RUNNING ∧ t.Ended) ∨
        (t.state = .QUEUED ∧ t.usesCuda = false ∧ t.id ∉ e.ioQueue))
      (hi : d.Inv H 0) (hr : e.directory.record t.key = some r)
      (hd : Discards e.directory d t.move r)
      (hs : store = e.store ∨ (t.destination = .NVME ∧ ∃ file,
        e.store.files.lookup t.destinationLoc.slot = some file ∧
        store = { e.store with
          files := e.store.files.erase t.destinationLoc.slot
          storedBytes := e.store.storedBytes - ChunkFileStore.size file }))
      (hwhy : state = .FAILED → t.state = .RUNNING ∧ t.Failed) :
      Effect H c e { e with
        directory := d, store := store
        tasks := Function.update e.tasks t.id (some { t with state := state, error := error }) }
  | finishTransfer {d : CacheDirectory} {key : CacheKey} {p : Pending} {r r' : ChunkRecord}
      (hp : e.pending key = some p) (hcopy : p.copy = .done) (hi : d.Inv H 0)
      (hr : e.directory.record key = some r)
      (hr' : d.record = Function.update e.directory.record key (some r'))
      (hpin : r'.pinCount + 1 = r.pinCount)
      (hnew : ∀ tier slot, r'.replica tier = some slot →
        (r.completed (p.move key)).replica tier = some slot) :
      Effect H c e { e with directory := d, pending := Function.update e.pending key none }
  /-- A chunk went through a file. -/
  | nvme {d : CacheDirectory} {cpu : ℕ → Bytes} {store : ChunkFileStore} {key : CacheKey}
      {r r' : ChunkRecord} {source destination : StorageTier} {l : TierLocation}
      (loc : TierLocation) (hi : d.Inv H 0) (hr : e.directory.record key = some r)
      (hready : r.replica source = some ⟨l, .READY⟩) (hnone : r.replica destination = none)
      (hr' : d.record = Function.update e.directory.record key (some r'))
      (hpin : r'.pinCount = r.pinCount)
      (hheld : ∀ tier l, r.Held tier l → r'.Held tier l)
      (hnew : ∀ tier slot, r'.replica tier = some slot →
        r.replica tier = some slot ∨ (tier = destination ∧ slot = ⟨loc, .READY⟩))
      (hs : store.Same e.store ∨
        (e.Fresh .NVME loc.slot ∧ (∃ validTokens releaseCpu fault,
            c = some (.offload key validTokens releaseCpu fault)) ∧ ∃ fileMeta w,
          e.store.writeCheck loc.slot fileMeta (e.cpu l.slot) = .ok w ∧
          store.Same (e.store.writeCommit w (e.cpu l.slot))) ∨
        (source = .NVME ∧ ∃ file, e.store.files.lookup l.slot = some file ∧
          store = { e.store with
            files := e.store.files.erase l.slot
            storedBytes := e.store.storedBytes - ChunkFileStore.size file }))
      (hk : Kept e { e with directory := d, cpu := cpu, store := store })
      (himage : ∀ bytes, bytes.length = e.chunkBytes →
        Image e.chunkBytes key source bytes (e.cell source l.slot) →
        Image e.chunkBytes key destination bytes
          (cell { e with cpu := cpu, store := store } destination loc.slot)) :
      Effect H c e { e with directory := d, cpu := cpu, store := store }

end Engine

end KVFlux.V3
