import KVFlux.Lib.OnlineSoftmax
import KVFlux.V2.AttentionKernel
import KVFlux.V2.ReferenceAttention
import Mathlib.Analysis.SpecialFunctions.Exp

/-!
# Paged attention in exact arithmetic

The doubles are an ordered field with minus infinity, `exp` is a positive function that turns sums
into products, and is zero at minus infinity.

* `exact`: the operations. `exact_onlineAttention`, `exact_referenceElement`: in it an output element
  of the kernel, and one of the reference, is the average of the values with weights `exp score`.
* `gathered`: the keys or the values of a sequence in token order.
* **`paged_attention_exact`**: the output of paged attention is what the reference returns on them.
-/

namespace KVFlux.V2

open Fallible SizeArith Threads OnlineSoftmax

/-! ## Exact arithmetic -/

section Exact

variable {E K : Type} [Field K] [LinearOrder K]

/-- The doubles as a field with minus infinity. -/
def exact (e : Exponential K) (toFloat : E → K) (sqrt : K → K) : Arithmetic E K (WithBot K) where
  toFloat := toFloat
  widen x := x
  narrow x := x.unbotD 0
  add := WithBot.map₂ (· + ·)
  sub := WithBot.map₂ (· - ·)
  mul := WithBot.map₂ (· * ·)
  div := WithBot.map₂ (· / ·)
  exp x := e.extended x
  sqrt := WithBot.map sqrt
  greater x y := decide (y < x)
  negativeInfinity := ⊥
  zero := (0 : K)
  one := (1 : K)
  ofSize n := (n : K)
  isFinite _ := true

variable (e : Exponential K) (toFloat : E → K) (sqrt : K → K)

section Operations

variable (x y : K)

theorem exact_add : (exact e toFloat sqrt).add x y = (x + y : K) := rfl

theorem exact_mul : (exact e toFloat sqrt).mul x y = (x * y : K) := rfl

/-- A maximum may be minus infinity. -/
theorem exact_rescale (p : WithBot K) : (exact e toFloat sqrt).exp ((exact e toFloat sqrt).sub p y) =
    (e.shift p y : K) := by
  cases p <;> rfl

/-- The larger of a score and a maximum. -/
theorem exact_larger (p : WithBot K) :
    (exact e toFloat sqrt).larger x p = ((p.unbotD x ⊔ x : K) : WithBot K) := by
  unfold Arithmetic.larger
  cases p with
  | bot => simp [exact]
  | coe p =>
    rcases lt_or_ge p x with h | h
    · simp [exact, h, h.le]
    · simp [exact, h, h.not_gt]

end Operations

/-- A sum, term by term. -/
theorem exact_sum (f : ℕ → K) (n : ℕ) :
    (List.range n).foldl (fun s t => (exact e toFloat sqrt).add s (f t : K)) (0 : K) =
      ((∑ t ∈ Finset.range n, f t : K) : WithBot K) := by
  induction n with
  | zero => rfl
  | succ n ih =>
    rw [List.range_succ, List.foldl_append, ih, Finset.sum_range_succ]
    rfl

/-- The scaled product of two rows. -/
def scaledProduct (sqrt : K → K) (headSize : ℕ) (q k : ℕ → K) : K :=
  (∑ d ∈ Finset.range headSize, q d * k d) * (1 / sqrt headSize)

omit [LinearOrder K] in
theorem scaledProduct_congr {sqrt : K → K} {headSize : ℕ} {q q' k k' : ℕ → K}
    (hq : ∀ d < headSize, q d = q' d) (hk : ∀ d < headSize, k d = k' d) :
    scaledProduct sqrt headSize q k = scaledProduct sqrt headSize q' k' := by
  unfold scaledProduct
  congr 1
  refine Finset.sum_congr rfl fun d hd => ?_
  rw [hq d (Finset.mem_range.mp hd), hk d (Finset.mem_range.mp hd)]

theorem exact_score (headSize : ℕ) (q : ℕ → K) (k : ℕ → E) :
    (exact e toFloat sqrt).score headSize q k =
      (scaledProduct sqrt headSize q (fun d => toFloat (k d)) : K) := by
  have hsum := exact_sum e toFloat sqrt (fun d => q d * toFloat (k d)) headSize
  unfold Arithmetic.score
  exact congrArg (fun x => (exact e toFloat sqrt).mul x _) hsum

/-- The accumulators of the kernel. -/
def softmaxOf (a : Accumulator K) : Softmax (WithBot K) := ⟨a.pivot, a.denominator, a.numerator⟩

/-- The pivot that the kernel moves to. -/
def largest (score : ℕ → K) (a : Accumulator K) (t : ℕ) : K := a.pivot.unbotD (score t) ⊔ score t

theorem exact_next (a : Accumulator K) (score : ℕ → K) (t : ℕ) (value : K) :
    (exact e toFloat sqrt).next (softmaxOf a) (score t : K) (value : K) =
      softmaxOf (a.next e (largest score a t) (score t) value) := by
  unfold Arithmetic.next softmaxOf
  simp only [exact_larger, exact_rescale, exact_mul, exact_add]
  rfl

/-- **The kernel's loop** is one pass with the largest score as pivot. -/
theorem exact_accumulate (headSize : ℕ) (q : ℕ → K) (k : ℕ → ℕ → E) (v : ℕ → E) (tokens : ℕ) :
    (exact e toFloat sqrt).accumulate headSize q k v tokens =
      softmaxOf (run e (largest fun t => scaledProduct sqrt headSize q fun d => toFloat (k t d))
        (fun t => scaledProduct sqrt headSize q fun d => toFloat (k t d)) (fun t => toFloat (v t))
        tokens) := by
  induction tokens with
  | zero => rfl
  | succ n ih =>
    rw [run_succ, ← exact_next e toFloat sqrt, ← ih]
    unfold Arithmetic.accumulate
    rw [List.range_succ, List.foldl_append, List.foldl_cons, List.foldl_nil, exact_score]
    rfl

variable [IsStrictOrderedRing K]

/-- **An output element of the kernel** is the average. -/
theorem exact_onlineAttention {headSize tokens : ℕ} (q : ℕ → K) (k : ℕ → ℕ → E) (v : ℕ → E)
    (htokens : 0 < tokens) : (exact e toFloat sqrt).onlineAttention headSize q k v tokens =
      average e (fun t => scaledProduct sqrt headSize q fun d => toFloat (k t d))
        (fun t => toFloat (v t)) tokens := by
  unfold Arithmetic.onlineAttention
  rw [exact_accumulate, ← quotient_run _ _ _ htokens]
  rfl

/-! ## The reference -/

omit [IsStrictOrderedRing K]

theorem exact_referenceScore (query key : List K) (shape : AttentionShape)
    (kvHead qOffset kvToken : ℕ) :
    referenceScore (exact e toFloat sqrt) query key shape kvHead qOffset kvToken =
      (scaledProduct sqrt shape.headSize (fun d => query.getD (qOffset + d) 0)
        (fun d => key.getD ((kvToken * shape.kvHeads + kvHead) * shape.headSize + d) 0) : K) := by
  have hsum := exact_sum e toFloat sqrt (fun d => query.getD (qOffset + d) 0 *
    key.getD ((kvToken * shape.kvHeads + kvHead) * shape.headSize + d) 0) shape.headSize
  unfold referenceScore
  exact congrArg (fun x => (exact e toFloat sqrt).mul x _) hsum

/-- The weights are relative to the last maximum. -/
theorem exact_weights (f : ℕ → K) (n : ℕ) : ∃ q : K,
    referenceWeights (exact e toFloat sqrt) ((List.range (n + 1)).map fun t => (f t : WithBot K)) =
      (List.range (n + 1)).map fun t => ((e.exp (f t - q) : K) : WithBot K) := by
  have hmaximum : ∃ q : K, referenceMaximum (exact e toFloat sqrt)
      ((List.range (n + 1)).map fun t => (f t : WithBot K)) = q := by
    unfold referenceMaximum
    rw [List.range_succ, List.map_append, List.foldl_append]
    exact ⟨_, exact_larger e toFloat sqrt _ _⟩
  obtain ⟨q, hq⟩ := hmaximum
  refine ⟨q, ?_⟩
  unfold referenceWeights
  rw [hq, List.map_map]
  rfl

theorem exact_denominator (f : ℕ → K) (n : ℕ) :
    referenceDenominator (exact e toFloat sqrt) ((List.range n).map fun t => (f t : WithBot K)) =
      (∑ t ∈ Finset.range n, f t : K) := by
  unfold referenceDenominator
  rw [List.foldl_map]
  exact exact_sum e toFloat sqrt f n

/-- The scores that the reference computes. -/
def referenceValue (sqrt : K → K) (query key : List K) (shape : AttentionShape)
    (qToken qHead t : ℕ) : K :=
  scaledProduct sqrt shape.headSize (fun d => query.getD (shape.qOffset qToken qHead + d) 0)
    fun d => key.getD ((t * shape.kvHeads + shape.kvHead qHead) * shape.headSize + d) 0

variable (query key value : List K) (shape : AttentionShape) (qToken qHead : ℕ)

theorem exact_scores : referenceScores (exact e toFloat sqrt) query key shape qToken qHead =
    (List.range (shape.lastVisible qToken + 1)).map fun t =>
      ((referenceValue sqrt query key shape qToken qHead t : K) : WithBot K) :=
  List.map_congr_left fun _ _ => exact_referenceScore e toFloat sqrt ..

/-- **An output element of the reference** is the average. -/
theorem exact_referenceElement (dim : ℕ) :
    referenceElement (exact e toFloat sqrt) value shape
      (referenceWeights (exact e toFloat sqrt)
        (referenceScores (exact e toFloat sqrt) query key shape qToken qHead)) qToken qHead dim =
      average e (referenceValue sqrt query key shape qToken qHead)
        (fun t => value.getD ((t * shape.kvHeads + shape.kvHead qHead) * shape.headSize + dim) 0)
        (shape.lastVisible qToken + 1) := by
  obtain ⟨q, hq⟩ := exact_weights e toFloat sqrt (referenceValue sqrt query key shape qToken qHead)
    (shape.lastVisible qToken)
  have hfold := exact_sum e toFloat sqrt (fun t =>
    e.exp (referenceValue sqrt query key shape qToken qHead t - q) /
      (∑ t ∈ Finset.range (shape.lastVisible qToken + 1),
        e.exp (referenceValue sqrt query key shape qToken qHead t - q)) *
      value.getD ((t * shape.kvHeads + shape.kvHead qHead) * shape.headSize + dim) 0)
    (shape.lastVisible qToken + 1)
  rw [average_shift] at hfold
  rw [exact_scores, hq]
  unfold referenceElement
  rw [exact_denominator]
  refine Eq.trans (congrArg (exact e toFloat sqrt).narrow (Eq.trans ?_ hfold)) rfl
  apply List.foldl_ext
  intro s t ht
  have hweight : ((List.range (shape.lastVisible qToken + 1)).map fun t =>
      ((e.exp (referenceValue sqrt query key shape qToken qHead t - q) : K) : WithBot K)).getD t
        (exact e toFloat sqrt).zero =
      (e.exp (referenceValue sqrt query key shape qToken qHead t - q) : K) := by
    rw [List.getD_eq_getElem _ _ (by simpa using ht), List.getElem_map, List.getElem_range]
  rw [hweight]
  rfl

/-- The denominators of the reference. -/
theorem exact_referenceDenominator [IsStrictOrderedRing K] : ∃ x : K, 0 < x ∧
    referenceDenominator (exact e toFloat sqrt) (referenceWeights (exact e toFloat sqrt)
      (referenceScores (exact e toFloat sqrt) query key shape qToken qHead)) = x := by
  obtain ⟨q, hq⟩ := exact_weights e toFloat sqrt (referenceValue sqrt query key shape qToken qHead)
    (shape.lastVisible qToken)
  rw [exact_scores, hq, exact_denominator]
  exact ⟨_, weights_pos _ q (Nat.succ_pos _), rfl⟩

end Exact

/-! ## The two paths -/

section Index

variable {heads headSize row head dim : ℕ}

/-- The coordinates of an element of a buffer. -/
theorem flatIndex_split (hhead : head < heads) (hdim : dim < headSize) :
    flatIndex heads headSize row head dim / headSize / heads = row ∧
      flatIndex heads headSize row head dim / headSize % heads = head ∧
      flatIndex heads headSize row head dim % headSize = dim := by
  unfold flatIndex
  rw [RowMajor.split_quotient hdim, RowMajor.split_quotient hhead, RowMajor.split_last hhead,
    RowMajor.split_last hdim]
  exact ⟨rfl, rfl, rfl⟩

end Index

section Buffers

variable {E F : Type} (m : DeviceMemory E F)

/-- The floats from an address on. -/
def floatBuffer (address n : ℕ) : List F :=
  (List.range n).map fun i => m (.float (address + i * floatBytes))

/-- The elements from an address on. -/
def elementBuffer (address elementBytes n : ℕ) : List E :=
  (List.range n).map fun i => m (.element (address + i * elementBytes))

/-- The keys or the values of a sequence in token order. -/
def gathered (storage : PagedKVStorage) (s : SequenceState) (kind : KVKind) : List E :=
  (List.range (storage.layout.rowElements s.numTokens)).map fun i =>
    m (.element (storage.slotCell kind
      (s.slotOf (i / storage.layout.headSize / storage.layout.numKvHeads))
      (i / storage.layout.headSize % storage.layout.numKvHeads) (i % storage.layout.headSize)))

variable {m} {m' : DeviceMemory E F} {storage : PagedKVStorage} {s : SequenceState}
  {pool : PhysicalBlockPool} {here : ℕ}

theorem getD_map_range {α : Type} (f : ℕ → α) {n i : ℕ} (h : i < n) (x : α) :
    ((List.range n).map f).getD i x = f i := by
  rw [List.getD_eq_getElem _ _ (by simpa using h), List.getElem_map, List.getElem_range]

theorem floatBuffer_getElem? {address n i : ℕ} (h : i < n) :
    (floatBuffer m address n)[i]? = some (m (.float (address + i * floatBytes))) := by
  unfold floatBuffer
  rw [List.getElem?_map, List.getElem?_range h, Option.map_some]

theorem floatBuffer_getD {address n i : ℕ} (h : i < n) (x : F) :
    (floatBuffer m address n).getD i x = m (.float (address + i * floatBytes)) :=
  getD_map_range _ h x

theorem gathered_getD {K : Type} (toFloat : E → K) (kind : KVKind) {token head dim : ℕ}
    (htoken : token < s.numTokens) (hhead : head < storage.layout.numKvHeads)
    (hdim : dim < storage.layout.headSize) (x : K) :
    ((gathered m storage s kind).map toFloat).getD
        (flatIndex storage.layout.numKvHeads storage.layout.headSize token head dim) x =
      toFloat (m (.element (storage.slotCell kind (s.slotOf token) head dim))) := by
  have hlt : flatIndex storage.layout.numKvHeads storage.layout.headSize token head dim <
      storage.layout.rowElements s.numTokens := flatIndex_lt htoken hhead hdim
  obtain ⟨h₁, h₂, h₃⟩ := @flatIndex_split _ _ token _ _ hhead hdim
  unfold gathered
  rw [List.map_map, getD_map_range _ hlt]
  refine congrArg (fun n => toFloat (m (.element n))) ?_
  rw [h₁, h₂, h₃]

/-- What `read_paged_kv` returns is the gathered tensor. -/
theorem Gathered.elementBuffer_eq {keyOut valueOut : ℕ}
    (hg : Gathered storage s keyOut valueOut m m') (kind : KVKind) :
    elementBuffer m' (bufferOf keyOut valueOut kind) storage.layout.elementBytes
      (storage.layout.rowElements s.numTokens) = gathered m storage s kind := by
  apply List.map_congr_left
  intro i hi
  obtain ⟨token, htoken, head, hhead, dim, hdim, rfl⟩ := exists_flatIndex (List.mem_range.mp hi)
  obtain ⟨h₁, h₂, h₃⟩ := @flatIndex_split _ _ token _ _ hhead hdim
  rw [hg.tokens kind token htoken head hhead dim hdim]
  refine congrArg (fun n => m (.element n)) ?_
  rw [h₁, h₂, h₃]

/-- The attention kernels read tokens in their slots. -/
theorem PagedKVStorage.Fits.tokenAddress_eq (hf : storage.Fits pool here) (hs : s.Resident pool)
    (kind : KVKind) {t head dim : ℕ} (ht : t < s.numTokens) (hword : t < wordSize)
    (hhead : head < storage.layout.numKvHeads) (hdim : dim < storage.layout.headSize) :
    storage.tokenAddress s kind head t dim = storage.slotCell kind (s.slotOf t) head dim := by
  obtain ⟨-, hpage, hblock, hoffset⟩ := hf.slotOf_split hs ht
  have hindex := (@PagedKVLayout.Valid.attentionIndex_eq _ hf.valid _ _ _ _ hpage hhead
    (Nat.mod_lt _ hf.valid.block_pos) hdim t rfl hword).2
  unfold PagedKVStorage.tokenAddress PagedKVStorage.attentionAddress PagedKVStorage.slotCell
    PagedKVStorage.cellAddress
  rw [hindex, hblock, hoffset]

end Buffers

/-- The last token that a row of the query sees, when the shape is valid. -/
theorem lastVisible_eq {kvTokens queryTokens row : ℕ} (hle : queryTokens ≤ kvTokens)
    (hrow : row < queryTokens) (hword : kvTokens ≤ sizeMax) :
    lastVisible kvTokens queryTokens row = kvTokens - queryTokens + row := by
  have hlt : kvTokens < wordSize := Nat.lt_succ_of_le hword
  have hfits : ((kvTokens : Expr) - queryTokens + row).Fits wordSize := by
    refine ⟨⟨hlt, hle.trans_lt hlt, hle⟩, (hrow.trans_le hle).trans hlt, ?_⟩
    show kvTokens - queryTokens + row < wordSize
    omega
  exact Expr.wrapped_eq hfits

section Paths

variable {E K : Type} [Field K] [LinearOrder K] (e : Exponential K) (toFloat : E → K) (sqrt : K → K)
  (storage : PagedKVStorage) (pool : PhysicalBlockPool) (s : SequenceState)

/-- The shape of a call for the reference. -/
def PagedKVStorage.attentionShape (queryTokens queryHeads : ℕ) : AttentionShape :=
  ⟨queryTokens, s.numTokens, queryHeads, storage.layout.numKvHeads, storage.layout.headSize⟩

/-- **Paged attention and the contiguous reference** for one sequence, in exact arithmetic. -/
structure ExactAttention : Prop where
  /-- a call returns on a healthy device -/
  returns : ∀ (m : DeviceMemory E K) (cuda : Cuda) query output queryTokens queryHeads, cuda.Healthy →
    0 < queryHeads → queryHeads % storage.layout.numKvHeads = 0 → queryTokens ≤ s.numTokens →
    queryTokens * queryHeads * storage.layout.headSize * floatBytes ≤ sizeMax →
    s.pages.length * 8 ≤ sizeMax →
    AttentionBuffers storage query output
      (queryTokens * queryHeads * storage.layout.headSize * floatBytes) →
    ∃ m', pagedAttention (exact e toFloat sqrt) storage pool cuda s (some query) (some output)
      queryTokens queryHeads m = .ok () m'
  /-- a read gathers the keys and the values in token order -/
  gathers : ∀ (m m' : DeviceMemory E K) (cuda : Cuda) keyOut valueOut,
    readPagedKv storage pool cuda s (some keyOut) (some valueOut) m = .ok () m' → ∀ kind,
    elementBuffer m' (bufferOf keyOut valueOut kind) storage.layout.elementBytes
      (storage.layout.rowElements s.numTokens) = gathered m storage s kind
  /-- the output is what the reference returns on them, unless their size is no machine word -/
  equal : ∀ (m m' : DeviceMemory E K) (cuda : Cuda) query output queryTokens queryHeads,
    pagedAttention (exact e toFloat sqrt) storage pool cuda s (some query) (some output) queryTokens
      queryHeads m = .ok () m' → storage.layout.rowElements s.numTokens ≤ sizeMax →
    referenceAttention (exact e toFloat sqrt)
      (floatBuffer m query (queryTokens * queryHeads * storage.layout.headSize))
      ((gathered m storage s .Key).map toFloat) ((gathered m storage s .Value).map toFloat)
      (storage.attentionShape s queryTokens queryHeads) =
    .ok (floatBuffer m' output (queryTokens * queryHeads * storage.layout.headSize))
  /-- no denominator of the kernel is zero -/
  denominator : ∀ (headSize : ℕ) (q : ℕ → K) (k : ℕ → ℕ → E) (v : ℕ → E) (tokens : ℕ), 0 < tokens →
    ∃ x : K, 0 < x ∧ ((exact e toFloat sqrt).accumulate headSize q k v tokens).denominator = x
  /-- no denominator of the reference is zero -/
  referenceDenominator : ∀ (query key : List K) (shape : AttentionShape) (qToken qHead : ℕ),
    ∃ x : K, 0 < x ∧ referenceDenominator (exact e toFloat sqrt)
      (referenceWeights (exact e toFloat sqrt)
        (referenceScores (exact e toFloat sqrt) query key shape qToken qHead)) = x
  /-- a row reads its page numbers, its query and the slots of the tokens it sees -/
  inside : ∀ (m : DeviceMemory E K) query output queryTokens queryHeads,
    queryHeads % storage.layout.numKvHeads = 0 → queryTokens ≤ s.numTokens → s.numTokens ≤ sizeMax →
    queryTokens * queryHeads * storage.layout.headSize * floatBytes ≤ sizeMax →
    ∀ row < queryTokens, ∀ head < queryHeads, ∀ dim < storage.layout.headSize,
    ∀ a ∈ (attentionKernel (exact e toFloat sqrt) storage query output queryTokens s.numTokens
        queryHeads (flatIndex queryHeads storage.layout.headSize row head dim)).loads
        (upload 0 s.pages m),
      (∃ l < s.pages.length, a = .word 0 l) ∨
      (∃ d < storage.layout.headSize, a = .float (query +
        flatIndex queryHeads storage.layout.headSize row head d * floatBytes)) ∨
      ∃ kind, ∃ t ≤ s.numTokens - queryTokens + row, ∃ d < storage.layout.headSize,
        a = .element (storage.slotCell kind (s.slotOf t)
          (head / (queryHeads / storage.layout.numKvHeads)) d)

variable {storage pool s} {here : ℕ}
variable [IsStrictOrderedRing K]

/-- **One element** of both paths. -/
theorem exact_element (hf : storage.Fits pool here) (hs : s.Resident pool) (m : DeviceMemory E K)
    (query : ℕ) {queryTokens queryHeads row head dim : ℕ}
    (hdvd : queryHeads % storage.layout.numKvHeads = 0) (hle : queryTokens ≤ s.numTokens)
    (hword : s.numTokens ≤ sizeMax) (hrow : row < queryTokens) (hhead : head < queryHeads)
    (hdim : dim < storage.layout.headSize) :
    attend (exact e toFloat sqrt) storage m s
        (queryRow m query queryHeads storage.layout.headSize row head)
        (head / (queryHeads / storage.layout.numKvHeads)) dim
        (lastVisible s.numTokens queryTokens row + 1) =
      referenceElement (exact e toFloat sqrt) ((gathered m storage s .Value).map toFloat)
        (storage.attentionShape s queryTokens queryHeads)
        (referenceWeights (exact e toFloat sqrt) (referenceScores (exact e toFloat sqrt)
          (floatBuffer m query (queryTokens * queryHeads * storage.layout.headSize))
          ((gathered m storage s .Key).map toFloat)
          (storage.attentionShape s queryTokens queryHeads) row head)) row head dim := by
  have hkv : head / (queryHeads / storage.layout.numKvHeads) < storage.layout.numKvHeads :=
    kvHead_lt hdvd hhead
  have hlast := lastVisible_eq hle hrow hword
  have hword' : s.numTokens < wordSize := Nat.lt_succ_of_le hword
  unfold attend
  rw [exact_onlineAttention e toFloat sqrt _ _ _ (Nat.succ_pos _), exact_referenceElement, hlast]
  apply average_congr
  · intro t ht
    have ht : t < s.numTokens := by omega
    apply scaledProduct_congr
    · intro d hd
      exact (floatBuffer_getD (flatIndex_lt hrow hhead hd) 0).symm
    · intro d hd
      rw [hf.tokenAddress_eq hs .Key ht (ht.trans hword') hkv hd]
      exact (gathered_getD toFloat .Key ht hkv hd 0).symm
  · intro t ht
    have ht : t < s.numTokens := by omega
    rw [hf.tokenAddress_eq hs .Value ht (ht.trans hword') hkv hdim]
    exact (gathered_getD toFloat .Value ht hkv hdim 0).symm

/-- **The two paths agree** on a sequence that is resident. -/
theorem exactAttention_of_resident (hf : storage.Fits pool here) (hs : s.Resident pool)
    (hpool : s.blockTable.pool = some storage.pool) :
    ExactAttention e toFloat sqrt storage pool s := by
  constructor
  · intro m cuda query output queryTokens queryHeads hc hheads hdvd hle hsize hpages hb
    exact pagedAttention_returns hf hs hpool hc hheads hdvd hle hsize hpages hb
  · intro m m' cuda keyOut valueOut h
    exact (readPagedKv_ok hf hs h).elementBuffer_eq
  · intro m m' cuda query output queryTokens queryHeads h hkv
    obtain ⟨⟨hheads, hdvd, hle⟩, hsize⟩ := pagedAttention_shape hf h
    have hword : s.numTokens ≤ sizeMax :=
      ((Nat.le_mul_of_pos_right _ hf.valid.heads_pos).trans
        (Nat.le_mul_of_pos_right _ hf.valid.head_pos)).trans hkv
    obtain ⟨out, hout, hlength, hset⟩ := @referenceAttention_returns _ _ _ (exact e toFloat sqrt)
      (floatBuffer m query (queryTokens * queryHeads * storage.layout.headSize))
      ((gathered m storage s .Key).map toFloat) ((gathered m storage s .Value).map toFloat)
      (storage.attentionShape s queryTokens queryHeads) hheads hf.valid.heads_pos hf.valid.head_pos
      hdvd hle (by simp [floatBuffer, PagedKVStorage.attentionShape])
      (by simp [gathered, PagedKVStorage.attentionShape, PagedKVLayout.rowElements])
      (by simp [gathered, PagedKVStorage.attentionShape, PagedKVLayout.rowElements]) hsize hkv
      fun _ => rfl
    rw [hout]
    congr 1
    apply List.ext_getElem?
    intro i
    by_cases hi : i < queryTokens * queryHeads * storage.layout.headSize
    · obtain ⟨row, hrow, head, hhead, dim, hdim, rfl⟩ := exists_flatIndex hi
      have hkernel := (pagedAttention_ok hf hs (by omega) h).result row hrow head hhead dim hdim
      rw [exact_element e toFloat sqrt hf hs m query hdvd hle hword hrow hhead hdim] at hkernel
      rw [floatBuffer_getElem? hi, hkernel]
      exact hset row hrow head hhead dim hdim
    · rw [List.getElem?_eq_none (by rw [hlength]; exact not_lt.mp hi),
        List.getElem?_eq_none (by simpa [floatBuffer] using hi)]
  · intro headSize q k v tokens htokens
    rw [exact_accumulate]
    exact ⟨_, denominator_pos _ _ _ htokens, rfl⟩
  · exact fun query key shape qToken qHead =>
      exact_referenceDenominator e toFloat sqrt query key shape qToken qHead
  · intro m query output queryTokens queryHeads hdvd hle hword hsize row hrow head hhead dim hdim a ha
    have hfits := lt_wordSize_of_bytes hsize
    have hword' : s.numTokens < wordSize := Nat.lt_succ_of_le hword
    rw [attentionKernel_eq hfits hrow hhead hdim] at ha
    simp only [Code.loads_bind, Code.loads_write, List.append_nil] at ha
    obtain ⟨t, ht, h⟩ := attentionElement_reads _ (sees_upload s _) hrow hhead hdim hfits ha
    rw [lastVisible_eq hle hrow hword] at ht
    have hlt : t < s.numTokens := by omega
    rcases h with rfl | h | ⟨kind, d, hd, rfl⟩
    · have hblock : storage.layout.blockSize = s.blockSize :=
        hf.blockSize.trans hs.blockSize.symm
      exact .inl ⟨_, hblock ▸ hs.page_lt hlt, by rw [Nat.zero_add]⟩
    · exact .inr (.inl h)
    · exact .inr (.inr ⟨kind, t, ht, d, hd, congrArg _
        (hf.tokenAddress_eq hs kind hlt (hlt.trans hword') (kvHead_lt hdvd hhead) hd)⟩)

/-- **Main result.** For every sequence of the pool, whatever its pages hold: the output of paged
attention in exact arithmetic is what the contiguous reference returns on its keys and values. -/
theorem paged_attention_exact {H : Tokens → UInt64} {f : Family} {numKvHeads headSize : ℕ}
    {dtype : DType} {device : ℤ} {allocation : GpuMemoryPool.Allocation}
    (hreachable : Transition.Reachable (Family.step here) (Family.Start H) (Family.Allowed H) f)
    (hstorage : PagedKVStorage.make here f.pool numKvHeads headSize dtype device allocation =
      .ok storage) (hs : s ∈ f.sequences) (hpool : s.blockTable.pool = some here) :
    ExactAttention e toFloat sqrt storage f.pool s := by
  have hf := PagedKVStorage.make_ok hstorage
  exact exactAttention_of_resident e toFloat sqrt hf
    ((Family.intact_of_reachable hreachable).resident hs) (hpool.trans (congrArg some hf.here.symm))

end Paths

/-- A sequence of three tokens on pages of two tokens, with the exponential of the reals. -/
theorem paged_attention_exact_real : ∃ (f : Family) (storage : PagedKVStorage) (s : SequenceState),
    s.numTokens = 3 ∧ s.pages = [0, 1] ∧
      ExactAttention ⟨Real.exp, Real.exp_pos, Real.exp_add⟩ (fun x : ℝ => x) Real.sqrt storage f.pool
        s := by
  have hcheck : (Transition.run (Family.step 7) [.create 1, .appendTokens 0 3 fun _ => none]
      (⟨BlockManager.init 2 2, [], 0⟩ : Family)).any (fun f => f.sequences.head?.any fun s => decide (
        s.numTokens = 3 ∧ s.pages = [0, 1] ∧ s.blockTable.pool = some 7 ∧ f.pool.capacity = 2 ∧
        f.pool.blockSize = 2)) = true := by
    decide +kernel
  obtain ⟨f, hrun, hf⟩ := (Option.any_eq_true _ _).mp hcheck
  obtain ⟨s, hs, hs'⟩ := (Option.any_eq_true _ _).mp hf
  obtain ⟨htokens, hpages, hpool, hcapacity, hsize⟩ := of_decide_eq_true hs'
  have hreachable := (Family.reachable_init (by decide) (by decide)).run
    (fun a ha s => by fin_cases ha <;> exact trivial) hrun
  obtain ⟨storage, hmake⟩ : ∃ storage, PagedKVStorage.make 7 (BlockManager.init 2 2) 1 1 .Float32 0
      ⟨.ok 1, none, .ok 4096⟩ = .ok storage := ⟨_, rfl⟩
  have hstorage := (PagedKVStorage.make_congr hcapacity hsize 7 1 1 .Float32 0
    ⟨.ok 1, none, .ok 4096⟩).trans hmake
  exact ⟨f, storage, s, htokens, hpages,
    paged_attention_exact _ _ _ hreachable hstorage (List.mem_of_head? hs) hpool⟩

end KVFlux.V2
