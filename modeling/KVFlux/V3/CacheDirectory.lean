import KVFlux.KVLayout
import KVFlux.Lib.Assoc
import KVFlux.V3.TierInvariant

/-!
# The cache directory

The directory records for each chunk its identity, its replicas in the three tiers with their
states, and its reference and pin counts. Slots are taken from the tiers and given back only here.

* `CacheKey`, `Replica`, `ChunkRecord`, `CacheDirectory`.
* `create`, `place`, `remove`, `setState`, `addRef`, `releaseRef`, `pin`, `unpin`, `bumpVersion`,
  `destroy`, `stats`.

The times of last access are left out: no call reads them.
-/

namespace KVFlux

namespace V3

open Fallible

inductive ChunkState
  | READY
  | COPYING
  | LOADING
  | EVICTING
  | ERROR
deriving DecidableEq, Repr

/-- The identity of a chunk; the model id is a byte string. -/
structure CacheKey where
  modelId : List UInt8
  layoutVersion : UInt32 := 0
  dtype : DType := .Float16
  firstLayer : UInt32 := 0
  lastLayer : UInt32 := 0
  prefixHash : UInt64 := 0
  prefixTokens : Tokens
deriving DecidableEq

/-- `make_cache_key`. -/
def makeCacheKey (modelId : List UInt8) (layoutVersion : UInt32) (dtype : DType)
    (firstLayer lastLayer : UInt32) (p : Tokens) : Except Exn CacheKey :=
  if firstLayer ≥ lastLayer then .error (.invalidArgument "layer range must be non-empty")
  else .ok ⟨modelId, layoutVersion, dtype, firstLayer, lastLayer, BlockManager.prefixHash p, p⟩

structure Replica where
  location : TierLocation
  state : ChunkState := .READY
deriving DecidableEq, Repr

/-- The counters are machine words. -/
structure ChunkRecord where
  key : CacheKey
  version : ℕ := 1
  refCount : ℕ := 0
  pinCount : ℕ := 0
  gpu : Option Replica := none
  cpu : Option Replica := none
  nvme : Option Replica := none
deriving DecidableEq

namespace ChunkRecord

/-- `replica_slot(record, tier)`, read. -/
def replica (r : ChunkRecord) : StorageTier → Option Replica
  | .GPU => r.gpu
  | .CPU => r.cpu
  | .NVME => r.nvme

/-- `replica_slot(record, tier)`, written. -/
def setReplica (r : ChunkRecord) (tier : StorageTier) (slot : Option Replica) : ChunkRecord :=
  match tier with
  | .GPU => { r with gpu := slot }
  | .CPU => { r with cpu := slot }
  | .NVME => { r with nvme := slot }

end ChunkRecord

structure CacheDirectory where
  tiers : Tiers
  records : AList (fun _ : CacheKey => ChunkRecord) := ∅

namespace CacheDirectory

/-- The constructor. -/
def new (tiers : Tiers) : Except Exn CacheDirectory :=
  if tiers.cpu.kind = .CPU ∧ tiers.nvme.kind = .NVME then .ok { tiers := tiers }
  else .error (.invalidArgument "tier kind does not match its directory slot")

def unknownKey : Exn := .outOfRange "cache key not registered"

def setRecord (d : CacheDirectory) (key : CacheKey) (r : ChunkRecord) : CacheDirectory :=
  { d with records := d.records.insert key r }

/-- `create(key)`. -/
def create (key : CacheKey) : Call CacheDirectory Unit := fun d =>
  match d.records.lookup key with
  | some _ => .error (.invalidArgument "cache key already registered") d
  | none => .ok () (d.setRecord key { key := key })

/-- `contains(key)`. -/
def contains (d : CacheDirectory) (key : CacheKey) : Bool := (d.records.lookup key).isSome

/-- `at(key)` and `lookup(key)`. -/
def lookup (d : CacheDirectory) (key : CacheKey) : Except Exn ChunkRecord :=
  match d.records.lookup key with
  | some r => .ok r
  | none => .error unknownKey

/-- `place(key, tier, state)`. -/
def place (key : CacheKey) (tier : StorageTier) (state : ChunkState := .READY) :
    Call CacheDirectory TierLocation := fun d =>
  match d.lookup key with
  | .error e => .error e d
  | .ok r =>
    if (r.replica tier).isSome then
      .error (.logicError "tier already holds a replica of this chunk") d
    else
      match Tiers.allocate tier d.tiers with
      | .error e tiers => .error e { d with tiers := tiers }
      | .ok loc tiers =>
        .ok loc ({ d with tiers := tiers }.setRecord key (r.setReplica tier (some ⟨loc, state⟩)))

/-- `remove(key, tier)`: replicas in transfer stay. -/
def remove (key : CacheKey) (tier : StorageTier) : Call CacheDirectory Unit := fun d =>
  match d.lookup key with
  | .error e => .error e d
  | .ok r =>
    match r.replica tier with
    | none => .error (.logicError "tier holds no replica of this chunk") d
    | some slot =>
      if slot.state ≠ .READY ∧ slot.state ≠ .ERROR then
        .error (.logicError "replica is not ready; finish or fail its transfer first") d
      else
        match Tiers.release tier slot.location d.tiers with
        | .error e tiers => .error e { d with tiers := tiers }
        | .ok _ tiers => .ok () ({ d with tiers := tiers }.setRecord key (r.setReplica tier none))

/-- `set_state(key, tier, state)`. -/
def setState (key : CacheKey) (tier : StorageTier) (state : ChunkState) :
    Call CacheDirectory Unit := fun d =>
  match d.lookup key with
  | .error e => .error e d
  | .ok r =>
    match r.replica tier with
    | none => .error (.logicError "tier holds no replica of this chunk") d
    | some slot => .ok () (d.setRecord key (r.setReplica tier (some { slot with state := state })))

/-- A change of the counters of a registered record. -/
def count (key : CacheKey) (f : ChunkRecord → Except Exn ChunkRecord) :
    Call CacheDirectory Unit := fun d =>
  match d.lookup key with
  | .error e => .error e d
  | .ok r =>
    match f r with
    | .error e => .error e d
    | .ok r' => .ok () (d.setRecord key r')

/-- `add_ref(key)`: the counter wraps around. -/
def addRef (key : CacheKey) : Call CacheDirectory Unit :=
  count key fun r => .ok { r with refCount := (r.refCount + 1) % 2 ^ 64 }

/-- `release_ref(key)`. -/
def releaseRef (key : CacheKey) : Call CacheDirectory Unit :=
  count key fun r =>
    if r.refCount = 0 then .error (.logicError "reference count already zero")
    else .ok { r with refCount := r.refCount - 1 }

/-- `pin(key)`. -/
def pin (key : CacheKey) : Call CacheDirectory Unit :=
  count key fun r => .ok { r with pinCount := (r.pinCount + 1) % 2 ^ 64 }

/-- `unpin(key)`. -/
def unpin (key : CacheKey) : Call CacheDirectory Unit :=
  count key fun r =>
    if r.pinCount = 0 then .error (.logicError "pin count already zero")
    else .ok { r with pinCount := r.pinCount - 1 }

/-- `bump_version(key)`. -/
def bumpVersion (key : CacheKey) : Call CacheDirectory Unit :=
  count key fun r => .ok { r with version := (r.version + 1) % 2 ^ 64 }

/-- `replica_count(key)`. -/
def replicaCount (d : CacheDirectory) (key : CacheKey) : Except Exn ℕ :=
  (d.lookup key).map fun r => r.gpu.isSome.toNat + r.cpu.isSome.toNat + r.nvme.isSome.toNat

structure TierStats where
  capacity : ℕ
  available : ℕ
  allocatedChunks : ℕ
  usedBytes : ℕ
  availableBytes : ℕ
  replicas : ℕ
deriving DecidableEq, Repr

/-- `stats(tier)`: one pass over the records. -/
def stats (d : CacheDirectory) (tier : StorageTier) : TierStats :=
  ⟨d.tiers.capacity tier, d.tiers.available tier, d.tiers.allocatedChunks tier,
    d.tiers.usedBytes tier, d.tiers.availableBytes tier,
    d.records.entries.countP fun e => (e.2.replica tier).isSome⟩

/-- `destroy(key)`. -/
def destroy (key : CacheKey) : Call CacheDirectory Unit := fun d =>
  match d.lookup key with
  | .error e => .error e d
  | .ok r =>
    if r.gpu.isSome ∨ r.cpu.isSome ∨ r.nvme.isSome then
      .error (.logicError "chunk still has replicas") d
    else if r.refCount ≠ 0 ∨ r.pinCount ≠ 0 then
      .error (.logicError "chunk is still referenced or pinned") d
    else .ok () { d with records := d.records.erase key }

end CacheDirectory

end V3

end KVFlux
