import KVFlux.GpuMemoryPool
import KVFlux.V2.BlockTable
import KVFlux.V2.PagedKVLayout

/-!
# The device memory of the paged cache

One allocation of `2 * capacity` pages: the first half holds the keys, the second half the values.
The backing pool is used for its raw addresses only; pages are owned by the page pool.

* `PagedKVStorage`, `make`, `keyBase`, `valueBase`, `pageAddress`, `elementAddress`, `slotAddress`.
* `Fits`: the storage belongs to a page pool; `make_ok`: so does every one that is constructed.
-/

namespace KVFlux.V2

open Fallible

/-- `backing_pages`. -/
def backingPages (physicalPages : ℕ) : Except Exn ℕ :=
  if physicalPages > sizeMax / 2 then .error (.overflowError "K/V backing page count overflow")
  else .ok (2 * physicalPages)

/-- `pool` is the address of the page pool. -/
structure PagedKVStorage where
  pool : ℕ
  layout : PagedKVLayout
  backing : GpuMemoryPool

namespace PagedKVStorage

/-- The constructor; `here` is the address of the page pool. -/
def make (here : ℕ) (pool : PhysicalBlockPool) (numKvHeads headSize : ℕ) (dtype : DType)
    (device : ℤ) (cuda : GpuMemoryPool.Allocation) : Except Exn PagedKVStorage := do
  let layout ← PagedKVLayout.make pool.capacity numKvHeads pool.blockSize headSize dtype
  let pages ← backingPages pool.capacity
  let backing ← GpuMemoryPool.make pages layout.pageBytes pool.blockSize device cuda
  return ⟨here, layout, backing⟩

variable (storage : PagedKVStorage) (pool : PhysicalBlockPool)

/-- `uses_pool(table)`. -/
def usesPool (table : BlockTable) : Prop := table.pool = some storage.pool

/-- `key_base()`. -/
def keyBase : Except Exn ℕ := storage.backing.addressOf 0

/-- `value_base()`. -/
def valueBase : Except Exn ℕ := storage.backing.addressOf pool.capacity

/-- `page_address`. -/
def pageAddress (kind : KVKind) (handle : PhysicalBlockHandle) : Except Exn ℕ := do
  let id ← pool.id handle
  let offset ← storage.layout.pageByteOffset kind id
  let base ← storage.keyBase
  return base + offset

/-- `element_address`. -/
def elementAddress (kind : KVKind) (handle : PhysicalBlockHandle) (head token dimension : ℕ) :
    Except Exn ℕ := do
  let id ← pool.id handle
  let offset ← storage.layout.byteOffset kind id head token dimension
  let base ← storage.keyBase
  return base + offset

/-- `slot_address`. -/
def slotAddress (kind : KVKind) (slot head dimension : ℕ) : Except Exn ℕ := do
  let offset ← storage.layout.slotByteOffset kind slot head dimension
  let base ← storage.keyBase
  return base + offset

/-- What the constructor has set up; `here` is the address of the page pool. -/
structure Fits (here : ℕ) : Prop where
  here : storage.pool = here
  valid : storage.layout.Valid
  blocks : storage.layout.numBlocks = pool.capacity
  blockSize : storage.layout.blockSize = pool.blockSize
  pages : storage.backing.totalBlocks = 2 * pool.capacity
  pageBytes : storage.backing.blockBytes = storage.layout.pageBytes

variable {storage pool}

theorem make_ok {here numKvHeads headSize : ℕ} {dtype : DType} {device : ℤ}
    {cuda : GpuMemoryPool.Allocation}
    (h : make here pool numKvHeads headSize dtype device cuda = .ok storage) :
    storage.Fits pool here := by
  obtain ⟨layout, hlayout, h⟩ := returns_bind.mp h
  obtain ⟨pages, hpages, h⟩ := returns_bind.mp h
  obtain ⟨backing, hbacking, h⟩ := returns_bind.mp h
  obtain rfl := Except.ok.inj h
  obtain ⟨valid, hblocks, -, hsize, -, -⟩ := PagedKVLayout.make_ok hlayout
  obtain ⟨htotal, hbytes, -⟩ := GpuMemoryPool.make_ok hbacking
  unfold backingPages at hpages
  split_ifs at hpages with hover
  obtain rfl := Except.ok.inj hpages
  exact ⟨rfl, valid, hblocks, hsize, htotal, hbytes⟩

/-- The constructor asks the pool for its sizes only. -/
theorem make_congr {pool' : PhysicalBlockPool} (hcapacity : pool.capacity = pool'.capacity)
    (hsize : pool.blockSize = pool'.blockSize) (here numKvHeads headSize : ℕ) (dtype : DType)
    (device : ℤ) (cuda : GpuMemoryPool.Allocation) :
    make here pool numKvHeads headSize dtype device cuda =
      make here pool' numKvHeads headSize dtype device cuda := by
  unfold make
  rw [hcapacity, hsize]

end PagedKVStorage

end KVFlux.V2
