import KVFlux.V2.Device
import KVFlux.V2.PagedKVStorage
import KVFlux.V2.SlotMapping

/-!
# Writing and reading pages on the device

The two kernels copy elements between contiguous buffers and the cache, one element of the keys and
one of the values for each thread index.

* `tokenOfIndex`, `headOfIndex`, `dimensionOfIndex`, `writeIndex`, `readIndex`: the index arithmetic
  of the kernels; `writeBody`, `readBody`: what they do for one thread index.
* `writePagedKv`, `readPagedKv`: the calls with their checks.
-/

namespace KVFlux.V2

open Fallible SizeArith Threads

/-- `sizeof(Element)` of the copies that move `dtype`. -/
def copyElementBytes : DType → ℕ
  | .Float16 | .BFloat16 => 2
  | .Float32 => 4

/-! ## The kernels -/

section Kernels

variable {E F : Type} (heads blockSize headSize : ℕ)

/-- `index / elements_per_token`. -/
def tokenOfIndex (index : ℕ) : Expr := (index : Expr) / (heads * headSize)

/-- `(index / head_size) % heads`. -/
def headOfIndex (index : ℕ) : Expr := (index : Expr) / headSize % heads

/-- `index % head_size`. -/
def dimensionOfIndex (index : ℕ) : Expr := (index : Expr) % headSize

/-- `cache_index` of the write kernel. -/
def writeIndex (slot head dimension : ℕ) : Expr :=
  let physicalBlock : Expr := (slot : Expr) / blockSize
  let tokenOffset : Expr := (slot : Expr) % blockSize
  ((physicalBlock * heads + head) * blockSize + tokenOffset) * headSize + dimension

/-- `cache_index` of the read kernel. -/
def readIndex (physicalBlock token head dimension : ℕ) : Expr :=
  let tokenOffset : Expr := (token : Expr) % blockSize
  ((physicalBlock * heads + head) * blockSize + tokenOffset) * headSize + dimension

/-- `paged_kv_write_kernel` for one index; array 0 holds the slots. -/
def writeBody (elementBytes keyNew valueNew keyCache valueCache index : ℕ) :
    KernelCode E F Unit := do
  let batchIndex := (tokenOfIndex heads headSize index).wrapped wordSize
  let head := (headOfIndex heads headSize index).wrapped wordSize
  let dimension := (dimensionOfIndex headSize index).wrapped wordSize
  let slot ← Code.read (.word 0 batchIndex)
  let cacheIndex := (writeIndex heads blockSize headSize slot head dimension).wrapped wordSize
  let key ← Code.read (.element (keyNew + index * elementBytes))
  Code.write (.element (keyCache + cacheIndex * elementBytes)) key
  let value ← Code.read (.element (valueNew + index * elementBytes))
  Code.write (.element (valueCache + cacheIndex * elementBytes)) value

/-- `paged_kv_read_kernel` for one index; array 0 holds the block table. -/
def readBody (elementBytes keyOut valueOut keyCache valueCache index : ℕ) :
    KernelCode E F Unit := do
  let token := (tokenOfIndex heads headSize index).wrapped wordSize
  let head := (headOfIndex heads headSize index).wrapped wordSize
  let dimension := (dimensionOfIndex headSize index).wrapped wordSize
  let physicalBlock ← Code.read (.word 0 (token / blockSize))
  let cacheIndex := (readIndex heads blockSize headSize physicalBlock token head dimension).wrapped
    wordSize
  let key ← Code.read (.element (keyCache + cacheIndex * elementBytes))
  Code.write (.element (keyOut + index * elementBytes)) key
  let value ← Code.read (.element (valueCache + cacheIndex * elementBytes))
  Code.write (.element (valueOut + index * elementBytes)) value

end Kernels

/-! ## The calls -/

/-- The loop over the slots of a write. -/
def checkSlots (slotCount : ℕ) : List ℕ → List ℕ → Except Exn Unit
  | _, [] => .ok ()
  | seen, slot :: slots =>
    if slot ≥ slotCount then .error (.outOfRange "KV write slot out of range")
    else if slot ∈ seen then .error (.invalidArgument "duplicate KV write slot")
    else checkSlots slotCount (slot :: seen) slots

variable {E F : Type}

/-- `write_paged_kv`; a null pointer is `none`. -/
def writePagedKv (storage : PagedKVStorage) (pool : PhysicalBlockPool) (cuda : Cuda)
    (keyNew valueNew : Option ℕ) (slots : List ℕ) : Call (DeviceMemory E F) Unit :=
  if slots = [] then pure ()
  else
    match keyNew, valueNew with
    | some keyNew, some valueNew => do
      let layout := storage.layout
      let multiply := checkedMultiply "paged KV write size overflow"
      check (checkSlots layout.slotCount [] slots)
      let rows ← check (multiply slots.length layout.numKvHeads)
      let totalElements ← check (multiply rows layout.headSize)
      let _ ← check (multiply totalElements layout.elementBytes)
      let _ ← check (multiply slots.length 8)
      check (deviceGuard cuda.guard)
      check (validateDevicePointer cuda.firstPointer "K_new")
      check (validateDevicePointer cuda.secondPointer "V_new")
      check (cudaCheck "cudaMalloc slot_mapping" cuda.allocate)
      check (cudaCheck "upload slot_mapping" cuda.upload)
      modify (upload 0 slots)
      let keyCache ← check storage.keyBase
      let valueCache ← check (storage.valueBase pool)
      runKernel cuda "paged KV write kernel launch" "paged KV write synchronize" totalElements
        (writeBody layout.numKvHeads layout.blockSize layout.headSize
          (copyElementBytes layout.dtype) keyNew valueNew keyCache valueCache)
    | _, _ => throw (.invalidArgument "K_new and V_new device pointers are required")

/-- `read_paged_kv`. -/
def readPagedKv (storage : PagedKVStorage) (pool : PhysicalBlockPool) (cuda : Cuda)
    (sequence : SequenceState) (keyOut valueOut : Option ℕ) : Call (DeviceMemory E F) Unit := do
  let layout := storage.layout
  ensure (sequence.blockTable.pool = some storage.pool)
    (.invalidArgument "sequence and KV storage must use one physical pool")
  ensure (sequence.blockSize = layout.blockSize)
    (.invalidArgument "sequence and KV storage block sizes differ")
  if sequence.numTokens = 0 then pure ()
  else
    match keyOut, valueOut with
    | some keyOut, some valueOut => do
      let multiply := checkedMultiply "paged KV read size overflow"
      let hostBlocks ← check (buildReadBlockTable pool sequence)
      ensure (∀ block ∈ hostBlocks, ¬ block ≥ layout.numBlocks)
        (.outOfRange "KV read block out of range")
      let rows ← check (multiply sequence.numTokens layout.numKvHeads)
      let totalElements ← check (multiply rows layout.headSize)
      let outputBytes ← check (multiply totalElements layout.elementBytes)
      let _ ← check (multiply hostBlocks.length 8)
      check (deviceGuard cuda.guard)
      check (validateDevicePointer cuda.firstPointer "K_out")
      check (validateDevicePointer cuda.secondPointer "V_out")
      let keyCache ← check storage.keyBase
      ensure (¬ (overlaps keyOut outputBytes valueOut outputBytes ∨
          overlaps keyOut outputBytes keyCache layout.totalBytes ∨
          overlaps valueOut outputBytes keyCache layout.totalBytes))
        (.invalidArgument "KV read outputs must not overlap each other or the cache")
      check (cudaCheck "cudaMalloc read block table" cuda.allocate)
      check (cudaCheck "upload read block table" cuda.upload)
      modify (upload 0 hostBlocks)
      let valueCache ← check (storage.valueBase pool)
      runKernel cuda "paged KV read kernel launch" "paged KV read synchronize" totalElements
        (readBody layout.numKvHeads layout.blockSize layout.headSize
          (copyElementBytes layout.dtype) keyOut valueOut keyCache valueCache)
    | _, _ => throw (.invalidArgument "K and V output device pointers are required")

end KVFlux.V2
