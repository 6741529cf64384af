import KVFlux.V2.BatchBlockTable
import KVFlux.V2.Device
import KVFlux.V2.PagedKernels

/-!
# Paged attention

One thread index computes one output element by an online softmax over the pages of a sequence. The
arithmetic is a parameter, so that the kernels can be read with floating point or exactly.

* `Arithmetic`: the operations on floats and doubles.
* `attentionBase`, `attentionElement`, `attentionBody`, `attentionBatchBody`: the kernels.
* `pagedAttention`, `pagedAttentionBatch`: the calls with their checks.
-/

namespace KVFlux.V2

open Fallible SizeArith Threads

/-- The operations on elements `E` of the cache, floats `F` and doubles `D`. -/
structure Arithmetic (E F D : Type) where
  toFloat : E → F
  widen : F → D
  narrow : D → F
  add : D → D → D
  sub : D → D → D
  mul : D → D → D
  div : D → D → D
  exp : D → D
  sqrt : D → D
  greater : D → D → Bool
  negativeInfinity : D
  zero : D
  one : D
  ofSize : ℕ → D
  isFinite : F → Bool

namespace Arithmetic

variable {E F D : Type} (ops : Arithmetic E F D)

/-- `1.0 / std::sqrt(static_cast<double>(head_size))`. -/
def scale (headSize : ℕ) : D := ops.div ops.one (ops.sqrt (ops.ofSize headSize))

/-- `a > b ? a : b`. -/
def larger (a b : D) : D := if ops.greater a b = true then a else b

end Arithmetic

/-- `sizeof(float)`. -/
def floatBytes : ℕ := 4

/-- `sizeof(Element)` of the attention kernels for `dtype`: `__half`, `__nv_bfloat16` or `float`. -/
def attentionElementBytes : DType → ℕ
  | .Float16 | .BFloat16 => 2
  | .Float32 => floatBytes

/-- The accumulators of the online softmax. -/
structure Softmax (D : Type) where
  maximum : D
  denominator : D
  numerator : D

section Kernels

variable {E F D : Type} (ops : Arithmetic E F D)

/-- `cache_base`. -/
def attentionBase (kvHeads headSize blockSize physicalBlock kvHead token : ℕ) : Expr :=
  (((physicalBlock : Expr) * kvHeads + kvHead) * blockSize + (token : Expr) % blockSize) * headSize

/-- The arrays an attention kernel reads; `row` is the start of the block table of the sequence. -/
structure AttentionArrays where
  query : ℕ
  keyCache : ℕ
  valueCache : ℕ
  elementBytes : ℕ
  row : ℕ

/-- The place of one output element in the shape. -/
structure AttentionPlace where
  queryBase : ℕ
  dimension : ℕ
  kvHead : ℕ
  kvHeads : ℕ
  headSize : ℕ
  blockSize : ℕ

/-- One term of the dot product. -/
def dotTerm (arrays : AttentionArrays) (place : AttentionPlace) (cacheBase : Expr) (dot : D)
    (dim : ℕ) : KernelCode E F D := do
  let q ← Code.read (.float (arrays.query +
    ((place.queryBase : Expr) + dim).wrapped wordSize * floatBytes))
  let k ← Code.read (.element (arrays.keyCache +
    (cacheBase + dim).wrapped wordSize * arrays.elementBytes))
  return ops.add dot (ops.mul (ops.widen q) (ops.widen (ops.toFloat k)))

/-- One round of the online softmax. -/
def softmaxRound (arrays : AttentionArrays) (place : AttentionPlace) (scale : D) (s : Softmax D)
    (token : ℕ) : KernelCode E F (Softmax D) := do
  let physicalBlock ← Code.read (.word 0 (arrays.row + token / place.blockSize))
  let cacheBase := attentionBase place.kvHeads place.headSize place.blockSize physicalBlock
    place.kvHead token
  let dot ← (List.range place.headSize).foldlM (dotTerm ops arrays place cacheBase) ops.zero
  let score := ops.mul dot scale
  -- a larger score rescales what has been accumulated
  let nextMaximum := ops.larger score s.maximum
  let rescale := ops.exp (ops.sub s.maximum nextMaximum)
  let weight := ops.exp (ops.sub score nextMaximum)
  let v ← Code.read (.element (arrays.valueCache +
    (cacheBase + place.dimension).wrapped wordSize * arrays.elementBytes))
  return {
    maximum := nextMaximum
    denominator := ops.add (ops.mul s.denominator rescale) weight
    numerator := ops.add (ops.mul s.numerator rescale)
      (ops.mul weight (ops.widen (ops.toFloat v))) }

/-- `attention_element`. -/
def attentionElement (arrays : AttentionArrays) (place : AttentionPlace) (lastVisible : ℕ)
    (scale : D) : KernelCode E F F := do
  let s ← (List.range (lastVisible + 1)).foldlM (softmaxRound ops arrays place scale)
    ⟨ops.negativeInfinity, ops.zero, ops.zero⟩
  return ops.narrow (ops.div s.numerator s.denominator)

/-- The place of the output element `index`. -/
def placeOfIndex (queryHeads kvHeads headSize blockSize index : ℕ) : AttentionPlace :=
  let dimension := (dimensionOfIndex headSize index).wrapped wordSize
  let queryHead := (headOfIndex queryHeads headSize index).wrapped wordSize
  { queryBase := ((index : Expr) - dimension).wrapped wordSize
    dimension := dimension
    kvHead := queryHead / (queryHeads / kvHeads)
    kvHeads := kvHeads
    headSize := headSize
    blockSize := blockSize }

/-- `paged_attention_kernel` for one index; array 0 holds the block table. -/
def attentionBody (query keyCache valueCache elementBytes output queryTokens kvTokens queryHeads
    kvHeads headSize blockSize : ℕ) (scale : D) (index : ℕ) : KernelCode E F Unit := do
  let queryToken := (tokenOfIndex queryHeads headSize index).wrapped wordSize
  let lastVisible := ((kvTokens : Expr) - queryTokens + queryToken).wrapped wordSize
  let result ← attentionElement ops ⟨query, keyCache, valueCache, elementBytes, 0⟩
    (placeOfIndex queryHeads kvHeads headSize blockSize index) lastVisible scale
  Code.write (.float (output + index * floatBytes)) result

/-- `paged_attention_batch_kernel` for one index; array 0 holds the block table, array 1 the lengths
of the sequences. -/
def attentionBatchBody (query keyCache valueCache elementBytes output maxBlocksPerSequence queryHeads
    kvHeads headSize blockSize : ℕ) (scale : D) (index : ℕ) : KernelCode E F Unit := do
  let request := (tokenOfIndex queryHeads headSize index).wrapped wordSize
  let row := ((request : Expr) * maxBlocksPerSequence).wrapped wordSize
  let length ← Code.read (.word 1 request)
  let result ← attentionElement ops ⟨query, keyCache, valueCache, elementBytes, row⟩
    (placeOfIndex queryHeads kvHeads headSize blockSize index)
    ((((length : ℕ) : Expr) - 1).wrapped wordSize) scale
  Code.write (.float (output + index * floatBytes)) result

end Kernels

/-! ## The calls -/

variable {E F D : Type} (ops : Arithmetic E F D)

/-- `paged_attention`; a null pointer is `none`. -/
def pagedAttention (storage : PagedKVStorage) (pool : PhysicalBlockPool) (cuda : Cuda)
    (sequence : SequenceState) (query output : Option ℕ) (queryTokens queryHeads : ℕ) :
    Call (DeviceMemory E F) Unit := do
  let layout := storage.layout
  ensure (sequence.blockTable.pool = some storage.pool)
    (.invalidArgument "sequence and KV storage must use one physical pool")
  ensure (¬ (sequence.blockSize ≠ layout.blockSize ∨ queryHeads = 0 ∨
      queryHeads % layout.numKvHeads ≠ 0 ∨ queryTokens > sequence.numTokens))
    (.invalidArgument "invalid paged attention shape")
  let multiply := checkedMultiply "paged attention size overflow"
  let rows ← check (multiply queryTokens queryHeads)
  let totalElements ← check (multiply rows layout.headSize)
  let outputBytes ← check (multiply totalElements floatBytes)
  if queryTokens = 0 then pure ()
  else
    match query, output with
    | some query, some output => do
      let hostBlocks ← check (buildReadBlockTable pool sequence)
      ensure (∀ block ∈ hostBlocks, ¬ block ≥ layout.numBlocks)
        (.outOfRange "attention block out of range")
      let _ ← check (multiply hostBlocks.length 8)
      check (deviceGuard cuda.guard)
      check (validateDevicePointer cuda.firstPointer "Q")
      check (validateDevicePointer cuda.secondPointer "attention output")
      let keyCache ← check storage.keyBase
      ensure (¬ (overlaps query outputBytes output outputBytes ∨
          overlaps query outputBytes keyCache layout.totalBytes ∨
          overlaps output outputBytes keyCache layout.totalBytes))
        (.invalidArgument "Q and attention output must not overlap each other or KV cache")
      check (cudaCheck "cudaMalloc attention metadata" cuda.allocate)
      check (cudaCheck "upload attention block table" cuda.upload)
      modify (upload 0 hostBlocks)
      let valueCache ← check (storage.valueBase pool)
      runKernel cuda "paged attention kernel launch" "paged attention synchronize" totalElements
        (attentionBody ops query keyCache valueCache (attentionElementBytes layout.dtype) output
          queryTokens sequence.numTokens queryHeads layout.numKvHeads layout.headSize
          layout.blockSize (ops.scale layout.headSize))
    | _, _ => throw (.invalidArgument "Q and attention output device pointers are required")

/-- `paged_attention_batch`; a null pointer is `none`. -/
def pagedAttentionBatch (storage : PagedKVStorage) (pool : PhysicalBlockPool) (cuda : Cuda)
    (sequences : List (Option SequenceState)) (query output : Option ℕ) (queryHeads : ℕ) :
    Call (DeviceMemory E F) Unit := do
  let layout := storage.layout
  ensure (¬ (queryHeads = 0 ∨ queryHeads % layout.numKvHeads ≠ 0))
    (.invalidArgument "invalid batch attention head count")
  let hostTable ← check (BatchBlockTable.build pool sequences)
  ensure (∀ row ∈ (sequences.filterMap fun s => s).zip hostTable.sequenceLengths,
      row.1.blockTable.pool = some storage.pool ∧ row.1.blockSize = layout.blockSize ∧ row.2 ≠ 0)
    (.invalidArgument "invalid batch attention sequence")
  ensure (∀ block ∈ hostTable.blockTable,
      ¬ (block ≠ BatchBlockTable.invalidBlock ∧ block ≥ layout.numBlocks))
    (.outOfRange "batch attention block out of range")
  let multiply := checkedMultiply "paged attention size overflow"
  let rows ← check (multiply sequences.length queryHeads)
  let totalElements ← check (multiply rows layout.headSize)
  let tensorBytes ← check (multiply totalElements floatBytes)
  if sequences = [] then pure ()
  else
    match query, output with
    | some query, some output => do
      let _ ← check (multiply hostTable.blockTable.length 8)
      let _ ← check (multiply sequences.length 8)
      check (deviceGuard cuda.guard)
      check (validateDevicePointer cuda.firstPointer "Q")
      check (validateDevicePointer cuda.secondPointer "attention output")
      let keyCache ← check storage.keyBase
      ensure (¬ (overlaps query tensorBytes output tensorBytes ∨
          overlaps query tensorBytes keyCache layout.totalBytes ∨
          overlaps output tensorBytes keyCache layout.totalBytes))
        (.invalidArgument "Q and attention output must not overlap each other or KV cache")
      check (cudaCheck "cudaMalloc attention metadata" cuda.allocate)
      check (cudaCheck "cudaMalloc attention metadata" cuda.allocateSecond)
      check (cudaCheck "upload batch block table" cuda.upload)
      check (cudaCheck "upload sequence lengths" cuda.uploadSecond)
      modify (upload 0 hostTable.blockTable)
      modify (upload 1 hostTable.sequenceLengths)
      let valueCache ← check (storage.valueBase pool)
      runKernel cuda "paged attention batch kernel launch" "paged attention batch synchronize"
        totalElements
        (attentionBatchBody ops query keyCache valueCache (attentionElementBytes layout.dtype) output
          hostTable.maxBlocksPerSequence queryHeads layout.numKvHeads layout.headSize
          layout.blockSize (ops.scale layout.headSize))
    | _, _ => throw (.invalidArgument "Q and attention output device pointers are required")

end KVFlux.V2
