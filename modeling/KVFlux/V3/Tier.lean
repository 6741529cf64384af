import KVFlux.PhysicalBlockPool

/-!
# Storage tiers

A tier hands out slots that hold one chunk each. The CPU and NVMe tiers are slot pools with a
threaded free list, the GPU tier borrows pages from a shared physical block pool.

* `SlotTier`, `GpuTier` with `allocate` and `release`.
* `Tiers`: the three tiers and the pool behind the GPU tier; `Tiers.allocate`, `Tiers.release`
  are the virtual calls.
-/

namespace KVFlux.V3

open Fallible

inductive StorageTier
  | GPU
  | CPU
  | NVME
deriving DecidableEq, Repr

structure TierLocation where
  slot : ℕ
  generation : ℕ
deriving DecidableEq, Repr

/-- `a - b` on `size_t`. -/
def sizeSub (a b : ℕ) : ℕ := if b ≤ a then a - b else sizeMax + 1 - (b - a)

theorem sizeSub_of_le {a b : ℕ} (h : b ≤ a) : sizeSub a b = a - b := if_pos h

@[simp] theorem sizeSub_succ (n : ℕ) : sizeSub (n + 1) 1 = n := sizeSub_of_le (Nat.le_add_left 1 n)

structure SlotTier.Slot where
  generation : ℕ := 0
  free : Bool := true
  nextFree : Option ℕ := none
deriving DecidableEq, Repr

/-- `slots` is total; only the ids below `capacity` are slots of the vector. -/
structure SlotTier where
  kind : StorageTier
  chunkBytes : ℕ
  capacity : ℕ
  slots : ℕ → SlotTier.Slot
  freeHead : Option ℕ := some 0
  allocated : ℕ := 0

namespace SlotTier

/-- The free list starts in id order. -/
def init (kind : StorageTier) (chunkSlots chunkBytes : ℕ) : SlotTier where
  kind := kind
  chunkBytes := chunkBytes
  capacity := chunkSlots
  slots i := { nextFree := if i + 1 < chunkSlots then some (i + 1) else none }

/-- The constructor. -/
def new (kind : StorageTier) (chunkSlots chunkBytes : ℕ) : Except Exn SlotTier :=
  if chunkSlots = 0 ∨ chunkBytes = 0 then
    .error (.invalidArgument "chunk slots and chunk bytes must be positive")
  else .ok (init kind chunkSlots chunkBytes)

def setSlot (t : SlotTier) (id : ℕ) (s : Slot) : SlotTier :=
  { t with slots := Function.update t.slots id s }

/-- `available()`. -/
def available (t : SlotTier) : ℕ := sizeSub t.capacity t.allocated

/-- `allocate()`: the slot leaves the free list before its generation is checked. -/
def allocate : Call SlotTier TierLocation := fun t =>
  match t.freeHead with
  | none => .error .capacityError t
  | some id =>
    let s := t.slots id
    let t := { t with freeHead := s.nextFree }
    let s := { s with nextFree := none, free := false }
    if s.generation = u64Max then
      .error (.overflowError "slot generation exhausted") (t.setSlot id s)
    else
      .ok ⟨id, s.generation + 1⟩
        { t.setSlot id { s with generation := s.generation + 1 } with allocated := t.allocated + 1 }

/-- `release(location)`. -/
def release (location : TierLocation) : Call SlotTier Unit := fun t =>
  if location.slot ≥ t.capacity ∨ (t.slots location.slot).generation ≠ location.generation then
    .error (.invalidArgument "invalid or stale tier location") t
  else
    let s := t.slots location.slot
    if s.free then .error (.invalidArgument "tier location already released") t
    else
      .ok () { t.setSlot location.slot { s with free := true, nextFree := t.freeHead } with
        freeHead := some location.slot, allocated := sizeSub t.allocated 1 }

end SlotTier

/-- The pool is not part of the tier. -/
structure GpuTier where
  chunkBytes : ℕ
  allocated : ℕ := 0
deriving DecidableEq, Repr

namespace GpuTier

/-- The constructor. -/
def new (chunkBytes : ℕ) : Except Exn GpuTier :=
  if chunkBytes = 0 then .error (.invalidArgument "chunk bytes must be positive")
  else .ok { chunkBytes := chunkBytes }

/-- `allocate()`. -/
def allocate : Call (PhysicalBlockPool × GpuTier) TierLocation := do
  let handle ← onFst PhysicalBlockPool.allocate
  modify fun (pool, t) => (pool, { t with allocated := t.allocated + 1 })
  let (pool, _) ← get
  let slot ← check (pool.id handle)
  return ⟨slot, handle.generation⟩

/-- `release(location)`. -/
def release (location : TierLocation) : Call (PhysicalBlockPool × GpuTier) Unit := do
  onFst (PhysicalBlockPool.free ⟨location.slot, location.generation⟩)
  modify fun (pool, t) => (pool, { t with allocated := sizeSub t.allocated 1 })

end GpuTier

/-- The three tiers of a directory and the pool the GPU tier borrows from. -/
structure Tiers where
  pool : PhysicalBlockPool
  gpu : GpuTier
  cpu : SlotTier
  nvme : SlotTier

namespace Tiers

/-- `tier_for(tier).allocate()`. -/
def allocate (tier : StorageTier) : Call Tiers TierLocation := fun t =>
  match tier with
  | .GPU => match GpuTier.allocate (t.pool, t.gpu) with
    | .ok loc (pool, gpu) => .ok loc { t with pool := pool, gpu := gpu }
    | .error e (pool, gpu) => .error e { t with pool := pool, gpu := gpu }
  | .CPU => match SlotTier.allocate t.cpu with
    | .ok loc cpu => .ok loc { t with cpu := cpu }
    | .error e cpu => .error e { t with cpu := cpu }
  | .NVME => match SlotTier.allocate t.nvme with
    | .ok loc nvme => .ok loc { t with nvme := nvme }
    | .error e nvme => .error e { t with nvme := nvme }

/-- `tier_for(tier).release(location)`. -/
def release (tier : StorageTier) (location : TierLocation) : Call Tiers Unit := fun t =>
  match tier with
  | .GPU => match GpuTier.release location (t.pool, t.gpu) with
    | .ok _ (pool, gpu) => .ok () { t with pool := pool, gpu := gpu }
    | .error e (pool, gpu) => .error e { t with pool := pool, gpu := gpu }
  | .CPU => match SlotTier.release location t.cpu with
    | .ok _ cpu => .ok () { t with cpu := cpu }
    | .error e cpu => .error e { t with cpu := cpu }
  | .NVME => match SlotTier.release location t.nvme with
    | .ok _ nvme => .ok () { t with nvme := nvme }
    | .error e nvme => .error e { t with nvme := nvme }

def capacity (t : Tiers) : StorageTier → ℕ
  | .GPU => t.pool.capacity
  | .CPU => t.cpu.capacity
  | .NVME => t.nvme.capacity

def available (t : Tiers) : StorageTier → ℕ
  | .GPU => t.pool.available
  | .CPU => t.cpu.available
  | .NVME => t.nvme.available

def allocatedChunks (t : Tiers) : StorageTier → ℕ
  | .GPU => t.gpu.allocated
  | .CPU => t.cpu.allocated
  | .NVME => t.nvme.allocated

def chunkBytes (t : Tiers) : StorageTier → ℕ
  | .GPU => t.gpu.chunkBytes
  | .CPU => t.cpu.chunkBytes
  | .NVME => t.nvme.chunkBytes

/-- `used_bytes()`. -/
def usedBytes (t : Tiers) (tier : StorageTier) : ℕ := t.allocatedChunks tier * t.chunkBytes tier

/-- `available_bytes()`. -/
def availableBytes (t : Tiers) (tier : StorageTier) : ℕ := t.available tier * t.chunkBytes tier

end Tiers

end KVFlux.V3
