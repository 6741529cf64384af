import KVFlux.V2.PagedAttention
import KVFlux.V2.PagedRoundTrip

/-!
# What the attention kernels compute

* `score`, `Softmax.next`, `onlineAttention`: the online softmax as a function of what is read.
* **`attentionElement_eval`**, **`attentionElement_loads`**: the device code returns it and reads
  nothing else.
* `attend`: it for one query row, head and dimension over the pages of a sequence.
* `attentionKernel_attends`, `attentionBatchKernel_attends`: one index of the two kernels.
* **`pagedAttention_ok`**, **`pagedAttentionBatch_ok`**: what the calls leave in device memory.
-/

namespace KVFlux.V2

open Fallible SizeArith Threads

/-! ## The online softmax -/

section Pure

variable {E F D : Type}

namespace Arithmetic

variable (ops : Arithmetic E F D)

/-- The scaled product of a query row and a row of keys. -/
def score (headSize : ℕ) (q : ℕ → F) (k : ℕ → E) : D :=
  ops.mul ((List.range headSize).foldl (fun dot dim =>
    ops.add dot (ops.mul (ops.widen (q dim)) (ops.widen (ops.toFloat (k dim))))) ops.zero)
    (ops.scale headSize)

/-- A score and a value join the accumulators. -/
def next (s : Softmax D) (score value : D) : Softmax D :=
  let nextMaximum := ops.larger score s.maximum
  let rescale := ops.exp (ops.sub s.maximum nextMaximum)
  let weight := ops.exp (ops.sub score nextMaximum)
  { maximum := nextMaximum
    denominator := ops.add (ops.mul s.denominator rescale) weight
    numerator := ops.add (ops.mul s.numerator rescale) (ops.mul weight value) }

/-- The accumulators after `tokens` tokens. -/
def accumulate (headSize : ℕ) (q : ℕ → F) (k : ℕ → ℕ → E) (v : ℕ → E) (tokens : ℕ) : Softmax D :=
  (List.range tokens).foldl
    (fun s t => ops.next s (ops.score headSize q (k t)) (ops.widen (ops.toFloat (v t))))
    ⟨ops.negativeInfinity, ops.zero, ops.zero⟩

/-- One output element: a query row, rows of keys and a column of values. -/
def onlineAttention (headSize : ℕ) (q : ℕ → F) (k : ℕ → ℕ → E) (v : ℕ → E) (tokens : ℕ) : F :=
  let s := ops.accumulate headSize q k v tokens
  ops.narrow (ops.div s.numerator s.denominator)

theorem score_congr {headSize : ℕ} {q q' : ℕ → F} {k k' : ℕ → E} (hq : ∀ d < headSize, q d = q' d)
    (hk : ∀ d < headSize, k d = k' d) : ops.score headSize q k = ops.score headSize q' k' := by
  unfold score
  congr 1
  apply List.foldl_ext
  intro dot d hd
  rw [hq d (List.mem_range.mp hd), hk d (List.mem_range.mp hd)]

/-- The result depends on the visible tokens only. -/
theorem onlineAttention_congr {headSize tokens : ℕ} {q q' : ℕ → F} {k k' : ℕ → ℕ → E}
    {v v' : ℕ → E} (hq : ∀ d < headSize, q d = q' d)
    (hk : ∀ t < tokens, ∀ d < headSize, k t d = k' t d) (hv : ∀ t < tokens, v t = v' t) :
    ops.onlineAttention headSize q k v tokens = ops.onlineAttention headSize q' k' v' tokens := by
  have haccumulate : ops.accumulate headSize q k v tokens =
      ops.accumulate headSize q' k' v' tokens := by
    apply List.foldl_ext
    intro s t ht
    have ht := List.mem_range.mp ht
    rw [ops.score_congr hq (hk t ht), hv t ht]
  unfold onlineAttention
  rw [haccumulate]

end Arithmetic

/-! ## The device code -/

variable (ops : Arithmetic E F D) (arrays : AttentionArrays) (place : AttentionPlace)
  (m : DeviceMemory E F)

/-- The address of the query element of a dimension. -/
def queryAddress (dim : ℕ) : ℕ :=
  arrays.query + ((place.queryBase : Expr) + dim).wrapped wordSize * floatBytes

/-- The address of a token and a dimension in one half of the cache. -/
def cacheAddress (cache token dim : ℕ) : ℕ :=
  let physicalBlock : ℕ := m (.word 0 (arrays.row + token / place.blockSize))
  cache + (attentionBase place.kvHeads place.headSize place.blockSize physicalBlock
    place.kvHead token + dim).wrapped wordSize * arrays.elementBytes

variable (s : Softmax D) (token : ℕ)

theorem dotTerm_loads (cacheBase : Expr) (dot : D) (dim : ℕ) :
    (dotTerm ops arrays place cacheBase dot dim).loads m = [.float (queryAddress arrays place dim),
      .element (arrays.keyCache + (cacheBase + dim).wrapped wordSize * arrays.elementBytes)] := by
  simp [dotTerm, queryAddress]

theorem dotTerm_stores (cacheBase : Expr) (dot : D) (dim : ℕ) :
    (dotTerm ops arrays place cacheBase dot dim).stores m = [] := by
  simp [dotTerm]

theorem softmaxRound_eval :
    (softmaxRound ops arrays place (ops.scale place.headSize) s token).eval m =
      ops.next s (ops.score place.headSize (fun d => m (.float (queryAddress arrays place d)))
        (fun d => m (.element (cacheAddress arrays place m arrays.keyCache token d))))
        (ops.widen (ops.toFloat
          (m (.element (cacheAddress arrays place m arrays.valueCache token place.dimension))))) := by
  simp only [softmaxRound, Code.eval_bind, Code.eval_read, Code.eval_pure, Code.eval_foldlM,
    dotTerm]
  rfl

theorem softmaxRound_stores (scale : D) :
    (softmaxRound ops arrays place scale s token).stores m = [] := by
  simp only [softmaxRound, Code.stores_bind, Code.stores_read, Code.stores_pure, List.append_nil,
    List.nil_append]
  exact Code.stores_foldlM m _ (fun dot dim => dotTerm_stores ops arrays place m _ dot dim) _ _

theorem softmaxRound_loads (scale : D) :
    (softmaxRound ops arrays place scale s token).loads m =
      .word 0 (arrays.row + token / place.blockSize) ::
        (List.range place.headSize).flatMap (fun dim => [.float (queryAddress arrays place dim),
          .element (cacheAddress arrays place m arrays.keyCache token dim)]) ++
        [.element (cacheAddress arrays place m arrays.valueCache token place.dimension)] := by
  have hdot := Code.loads_foldlM m
    (dotTerm ops arrays place (attentionBase place.kvHeads place.headSize place.blockSize
      (m (.word 0 (arrays.row + token / place.blockSize))) place.kvHead token))
    _ (fun dot dim => dotTerm_loads ops arrays place m _ dot dim) (List.range place.headSize) ops.zero
  simp only [softmaxRound, Code.loads_bind, Code.loads_read, Code.loads_pure, Code.eval_read,
    List.append_nil, hdot]
  rfl

/-- **The device code computes the online softmax** of what it reads. -/
theorem attentionElement_eval (last : ℕ) :
    (attentionElement ops arrays place last (ops.scale place.headSize)).eval m =
      ops.onlineAttention place.headSize (fun d => m (.float (queryAddress arrays place d)))
        (fun t d => m (.element (cacheAddress arrays place m arrays.keyCache t d)))
        (fun t => m (.element (cacheAddress arrays place m arrays.valueCache t place.dimension)))
        (last + 1) := by
  simp only [attentionElement, Code.eval_bind, Code.eval_pure, Code.eval_foldlM,
    softmaxRound_eval]
  rfl

theorem attentionElement_stores (last : ℕ) (scale : D) :
    (attentionElement ops arrays place last scale).stores m = [] := by
  simp only [attentionElement, Code.stores_bind, Code.stores_pure, List.append_nil]
  exact Code.stores_foldlM m _ (fun s t => softmaxRound_stores ops arrays place m s t scale) _ _

/-- **The cells the device code reads**: for every visible token its table entry, its keys and its
value, and the query row. -/
theorem attentionElement_loads {last : ℕ} {scale : D} {a : Address}
    (ha : a ∈ (attentionElement ops arrays place last scale).loads m) :
    ∃ t ≤ last, a = .word 0 (arrays.row + t / place.blockSize) ∨
      (∃ d < place.headSize, a = .float (queryAddress arrays place d)) ∨
      (∃ d < place.headSize, a = .element (cacheAddress arrays place m arrays.keyCache t d)) ∨
      a = .element (cacheAddress arrays place m arrays.valueCache t place.dimension) := by
  have hloads := Code.loads_foldlM m (softmaxRound ops arrays place scale) _
    (fun s t => softmaxRound_loads ops arrays place m s t scale) (List.range (last + 1))
    ⟨ops.negativeInfinity, ops.zero, ops.zero⟩
  simp only [attentionElement, Code.loads_bind, Code.loads_pure, List.append_nil, hloads,
    List.mem_flatMap, List.mem_range, List.mem_append, List.mem_cons, List.not_mem_nil, or_false]
    at ha
  obtain ⟨t, ht, (rfl | ⟨d, hd, rfl | rfl⟩) | rfl⟩ := ha
  · exact ⟨t, by omega, .inl rfl⟩
  · exact ⟨t, by omega, .inr (.inl ⟨d, hd, rfl⟩)⟩
  · exact ⟨t, by omega, .inr (.inr (.inl ⟨d, hd, rfl⟩))⟩
  · exact ⟨t, by omega, .inr (.inr (.inr rfl))⟩

end Pure

/-! ## The pages of a sequence -/

section Sequence

variable {E F D : Type} (ops : Arithmetic E F D) (storage : PagedKVStorage) (m : DeviceMemory E F)

/-- The address at which the attention kernels read token `t` of page `block`. -/
def PagedKVStorage.attentionAddress (kind : KVKind) (block kvHead t dim : ℕ) : ℕ :=
  storage.regionBase kind + (attentionBase storage.layout.numKvHeads storage.layout.headSize
    storage.layout.blockSize block kvHead t + dim).wrapped wordSize * storage.layout.elementBytes

/-- The address for token `t` of a sequence. -/
def PagedKVStorage.tokenAddress (s : SequenceState) (kind : KVKind) (kvHead t dim : ℕ) : ℕ :=
  storage.attentionAddress kind (s.pages.getD (t / storage.layout.blockSize) 0) kvHead t dim

/-- One output element for a sequence: the query row `q` over the first `tokens` tokens. -/
def attend (s : SequenceState) (q : ℕ → F) (kvHead dim tokens : ℕ) : F :=
  ops.onlineAttention storage.layout.headSize q
    (fun t d => m (.element (storage.tokenAddress s .Key kvHead t d)))
    (fun t => m (.element (storage.tokenAddress s .Value kvHead t dim))) tokens

end Sequence

/-! ## The query -/

section Query

variable {queryHeads kvHeads headSize rows row head dim blockSize : ℕ}

/-- The key-value head of a query head. -/
theorem kvHead_lt (hdvd : queryHeads % kvHeads = 0) (hhead : head < queryHeads) :
    head / (queryHeads / kvHeads) < kvHeads := by
  have hsplit := Nat.div_add_mod queryHeads kvHeads
  rw [hdvd, Nat.add_zero] at hsplit
  apply Nat.div_lt_of_lt_mul
  rw [Nat.mul_comm, hsplit]
  exact hhead

variable (hrow : row < rows) (hhead : head < queryHeads) (hdim : dim < headSize)
  (hfits : rows * queryHeads * headSize < wordSize)
include hrow hhead hdim hfits

omit hhead hdim in
/-- A row of the query is no more than the query. -/
theorem row_cells_lt : queryHeads * headSize < wordSize := by
  refine lt_of_le_of_lt ?_ hfits
  rw [mul_assoc]
  exact Nat.le_mul_of_pos_left _ (by omega)

/-- The place of an output element. -/
theorem placeOfIndex_eq : placeOfIndex queryHeads kvHeads headSize blockSize
    (flatIndex queryHeads headSize row head dim) =
      ⟨flatIndex queryHeads headSize row head 0, dim, head / (queryHeads / kvHeads), kvHeads, headSize,
        blockSize⟩ := by
  have hlt := (flatIndex_lt hrow hhead hdim).trans hfits
  have hcells := row_cells_lt hrow hfits
  have hhead' := headOfIndex_eq hhead hdim hlt hcells
  have hdim' := dimensionOfIndex_eq hhead hdim hlt hcells
  have hbase : ((flatIndex queryHeads headSize row head dim : Expr) - dim).Fits wordSize := by
    refine ⟨hlt, ?_, Nat.le_add_left ..⟩
    have : dim ≤ flatIndex queryHeads headSize row head dim := Nat.le_add_left ..
    exact this.trans_lt hlt
  simp only [placeOfIndex, hhead', hdim', Expr.wrapped_eq hbase]
  congr 1
  exact Nat.add_sub_cancel ..

/-- The query elements of a row and a head. -/
theorem queryIndex_eq : ((flatIndex queryHeads headSize row head 0 : Expr) + dim).wrapped wordSize =
    flatIndex queryHeads headSize row head dim := by
  have hlt := (flatIndex_lt hrow hhead hdim).trans hfits
  have hsum : ((flatIndex queryHeads headSize row head 0 : Expr) + dim).Fits wordSize :=
    ⟨lt_of_le_of_lt (Nat.le_add_right _ dim) hlt, lt_of_le_of_lt (Nat.le_add_left dim _) hlt, hlt⟩
  rw [Expr.wrapped_eq hsum]
  rfl

end Query

/-! ## One output element -/

section Element

variable {E F D : Type} (ops : Arithmetic E F D) {storage : PagedKVStorage} {s : SequenceState}
  {m m' : DeviceMemory E F}

/-- Device memory `m` after the upload of the table that has the pages of `s` from `start` on. -/
structure Sees (storage : PagedKVStorage) (s : SequenceState) (start last : ℕ)
    (m m' : DeviceMemory E F) : Prop where
  float : ∀ n, m' (.float n) = m (.float n)
  element : ∀ n, m' (.element n) = m (.element n)
  table : ∀ t ≤ last, m' (.word 0 (start + t / storage.layout.blockSize)) =
    s.pages.getD (t / storage.layout.blockSize) 0

/-- The arrays of a call. -/
def PagedKVStorage.arrays (storage : PagedKVStorage) (query start : ℕ) : AttentionArrays :=
  ⟨query, storage.regionBase .Key, storage.regionBase .Value, storage.layout.elementBytes, start⟩

/-- The place of an output element. -/
def PagedKVStorage.place (storage : PagedKVStorage) (queryHeads row head dim : ℕ) :
    AttentionPlace :=
  ⟨flatIndex queryHeads storage.layout.headSize row head 0, dim,
    head / (queryHeads / storage.layout.numKvHeads), storage.layout.numKvHeads,
    storage.layout.headSize, storage.layout.blockSize⟩

/-- The query elements that an output element depends on. -/
def queryRow (m : DeviceMemory E F) (query queryHeads headSize row head : ℕ) (d : ℕ) : F :=
  m (.float (query + flatIndex queryHeads headSize row head d * floatBytes))

variable {query queryHeads rows row head dim start last : ℕ}

/-- The cache elements of a visible token. -/
theorem Sees.cacheAddress_eq (hsees : Sees storage s start last m m') (kind : KVKind) {t : ℕ}
    (ht : t ≤ last) (d : ℕ) :
    cacheAddress (storage.arrays query start) (storage.place queryHeads row head dim) m'
      (storage.regionBase kind) t d =
    storage.tokenAddress s kind (head / (queryHeads / storage.layout.numKvHeads)) t d := by
  simp only [cacheAddress, PagedKVStorage.arrays, PagedKVStorage.place]
  rw [hsees.table t ht]
  rfl

theorem queryAddress_eq (hrow : row < rows) (hhead : head < queryHeads) {d : ℕ}
    (hd : d < storage.layout.headSize) (hfits : rows * queryHeads * storage.layout.headSize < wordSize) :
    queryAddress (storage.arrays query start) (storage.place queryHeads row head dim) d =
      query + flatIndex queryHeads storage.layout.headSize row head d * floatBytes := by
  simp only [queryAddress, PagedKVStorage.arrays, PagedKVStorage.place]
  rw [queryIndex_eq hrow hhead hd hfits]

variable (hsees : Sees storage s start last m m')
  (hrow : row < rows) (hhead : head < queryHeads) (hdim : dim < storage.layout.headSize)
  (hfits : rows * queryHeads * storage.layout.headSize < wordSize)
include hsees hrow hhead hfits

/-- **One output element** is attention over the pages of the sequence. -/
theorem attentionElement_eq :
    (attentionElement ops (storage.arrays query start) (storage.place queryHeads row head dim) last
      (ops.scale storage.layout.headSize)).eval m' =
    attend ops storage m s (queryRow m query queryHeads storage.layout.headSize row head)
      (head / (queryHeads / storage.layout.numKvHeads)) dim (last + 1) := by
  have heval := attentionElement_eval ops (storage.arrays query start)
    (storage.place queryHeads row head dim) m' last
  refine heval.trans (ops.onlineAttention_congr (fun d hd => ?_) (fun t ht d _ => ?_) fun t ht => ?_)
  · rw [queryAddress_eq hrow hhead hd hfits]
    exact hsees.float _
  · refine Eq.trans ?_ (hsees.element _)
    exact congrArg (fun n => m' (.element n))
      (hsees.cacheAddress_eq .Key (Nat.le_of_lt_succ ht) d)
  · refine Eq.trans ?_ (hsees.element _)
    exact congrArg (fun n => m' (.element n))
      (hsees.cacheAddress_eq .Value (Nat.le_of_lt_succ ht) dim)

include hdim

/-- **What an output element reads**: the table entries and cache elements of visible tokens, and
its query row. -/
theorem attentionElement_reads {scale : D} {a : Address}
    (ha : a ∈ (attentionElement ops (storage.arrays query start)
      (storage.place queryHeads row head dim) last scale).loads m') :
    ∃ t ≤ last, a = .word 0 (start + t / storage.layout.blockSize) ∨
      (∃ d < storage.layout.headSize, a = .float (query +
        flatIndex queryHeads storage.layout.headSize row head d * floatBytes)) ∨
      ∃ kind, ∃ d < storage.layout.headSize, a = .element (storage.tokenAddress s kind
        (head / (queryHeads / storage.layout.numKvHeads)) t d) := by
  obtain ⟨t, ht, rfl | ⟨d, hd, rfl⟩ | ⟨d, hd, rfl⟩ | rfl⟩ := attentionElement_loads ops _ _ m' ha
  · exact ⟨t, ht, .inl rfl⟩
  · exact ⟨t, ht, .inr (.inl ⟨d, hd, congrArg _ (queryAddress_eq hrow hhead hd hfits)⟩)⟩
  · exact ⟨t, ht, .inr (.inr ⟨.Key, d, hd, congrArg _ (hsees.cacheAddress_eq .Key ht d)⟩)⟩
  · exact ⟨t, ht, .inr (.inr ⟨.Value, dim, hdim, congrArg _ (hsees.cacheAddress_eq .Value ht dim)⟩)⟩

end Element

/-! ## The kernels -/

section Kernels

variable {E F D : Type} (ops : Arithmetic E F D) {storage : PagedKVStorage}
  {m m' : DeviceMemory E F} {query output queryHeads rows : ℕ}

/-- **What an attention kernel does**: for every row of the output it computes attention over the
first `last row + 1` tokens of the sequence `s row`, whose pages start at `start row` in the table,
and it reads nothing else but lengths. -/
structure Attends (storage : PagedKVStorage) (m m' : DeviceMemory E F)
    (query output queryHeads rows : ℕ) (s : ℕ → SequenceState) (start last : ℕ → ℕ)
    (body : ℕ → KernelCode E F Unit) : Prop where
  stores : ∀ row < rows, ∀ head < queryHeads, ∀ dim < storage.layout.headSize,
    (body (flatIndex queryHeads storage.layout.headSize row head dim)).stores m' =
      [⟨.float (output + flatIndex queryHeads storage.layout.headSize row head dim * floatBytes),
        attend ops storage m (s row) (queryRow m query queryHeads storage.layout.headSize row head)
          (head / (queryHeads / storage.layout.numKvHeads)) dim (last row + 1)⟩]
  loads : ∀ row < rows, ∀ head < queryHeads, ∀ dim < storage.layout.headSize,
    ∀ a ∈ (body (flatIndex queryHeads storage.layout.headSize row head dim)).loads m',
      a = .word 1 row ∨ ∃ t ≤ last row,
        a = .word 0 (start row + t / storage.layout.blockSize) ∨
        (∃ d < storage.layout.headSize, a = .float (query +
          flatIndex queryHeads storage.layout.headSize row head d * floatBytes)) ∨
        ∃ kind, ∃ d < storage.layout.headSize, a = .element (storage.tokenAddress (s row) kind
          (head / (queryHeads / storage.layout.numKvHeads)) t d)

/-- The kernel of `paged_attention`. -/
abbrev attentionKernel (storage : PagedKVStorage) (query output queryTokens kvTokens queryHeads : ℕ) :
    ℕ → KernelCode E F Unit :=
  attentionBody ops query (storage.regionBase .Key) (storage.regionBase .Value)
    storage.layout.elementBytes output queryTokens kvTokens queryHeads storage.layout.numKvHeads
    storage.layout.headSize storage.layout.blockSize (ops.scale storage.layout.headSize)

/-- The kernel of `paged_attention_batch`. -/
abbrev attentionBatchKernel (storage : PagedKVStorage) (query output width queryHeads : ℕ) :
    ℕ → KernelCode E F Unit :=
  attentionBatchBody ops query (storage.regionBase .Key) (storage.regionBase .Value)
    storage.layout.elementBytes output width queryHeads storage.layout.numKvHeads
    storage.layout.headSize storage.layout.blockSize (ops.scale storage.layout.headSize)

/-- `kv_tokens - query_tokens + query_token`. -/
def lastVisible (kvTokens queryTokens queryToken : ℕ) : ℕ :=
  ((kvTokens : Expr) - queryTokens + queryToken).wrapped wordSize

/-- `sequence_lengths[request] - 1`. -/
def lastToken (length : ℕ) : ℕ := ((length : Expr) - 1).wrapped wordSize

variable {ops}

/-- The uploaded table of a sequence. -/
theorem sees_upload (s : SequenceState) (last : ℕ) : Sees storage s 0 last m (upload 0 s.pages m) :=
  ⟨fun _ => rfl, fun _ => rfl, fun t _ => by rw [Nat.zero_add, upload_word]⟩

/-- One index of the kernel. -/
theorem attentionKernel_eq {kvTokens row head dim : ℕ}
    (hfits : rows * queryHeads * storage.layout.headSize < wordSize) (hrow : row < rows)
    (hhead : head < queryHeads) (hdim : dim < storage.layout.headSize) :
    attentionKernel ops storage query output rows kvTokens queryHeads
      (flatIndex queryHeads storage.layout.headSize row head dim) = (do
        let result ← attentionElement ops (storage.arrays query 0)
          (storage.place queryHeads row head dim) (lastVisible kvTokens rows row)
          (ops.scale storage.layout.headSize)
        Code.write (.float (output +
          flatIndex queryHeads storage.layout.headSize row head dim * floatBytes)) result) := by
  have hlt := (flatIndex_lt hrow hhead hdim).trans hfits
  unfold attentionKernel attentionBody
  rw [tokenOfIndex_eq hhead hdim hlt (row_cells_lt hrow hfits),
    placeOfIndex_eq hrow hhead hdim hfits]
  rfl

theorem attentionKernel_attends (s : SequenceState) {kvTokens : ℕ}
    (hfits : rows * queryHeads * storage.layout.headSize < wordSize) :
    Attends ops storage m (upload 0 s.pages m) query output queryHeads rows (fun _ => s)
      (fun _ => 0) (lastVisible kvTokens rows)
      (attentionKernel ops storage query output rows kvTokens queryHeads) := by
  constructor
  · intro row hrow head hhead dim hdim
    rw [attentionKernel_eq hfits hrow hhead hdim]
    simp only [Code.stores_bind, attentionElement_stores, Code.stores_write, List.nil_append]
    rw [attentionElement_eq ops (sees_upload s _) hrow hhead hfits]
  · intro row hrow head hhead dim hdim a ha
    rw [attentionKernel_eq hfits hrow hhead hdim] at ha
    simp only [Code.loads_bind, Code.loads_write, List.append_nil] at ha
    exact .inr (attentionElement_reads ops (sees_upload s _) hrow hhead hdim hfits ha)

/-- For the batch kernel every row of the table must hold the pages of its sequence. -/
theorem attentionBatchKernel_attends (ss : ℕ → SequenceState) {width : ℕ}
    (hfits : rows * queryHeads * storage.layout.headSize < wordSize)
    (hwidth : rows * width < wordSize) (hword : width < wordSize)
    (hlength : ∀ row < rows, m' (.word 1 row) = (ss row).numTokens)
    (hsees : ∀ row < rows,
      Sees storage (ss row) (row * width) (lastToken (ss row).numTokens) m m') :
    Attends ops storage m m' query output queryHeads rows ss (· * width)
      (fun row => lastToken (ss row).numTokens)
      (attentionBatchKernel ops storage query output width queryHeads) := by
  have hbody : ∀ row < rows, ∀ head < queryHeads, ∀ dim < storage.layout.headSize,
      attentionBatchKernel ops storage query output width queryHeads
        (flatIndex queryHeads storage.layout.headSize row head dim) = (do
          let length ← Code.read (.word 1 row)
          let result ← attentionElement ops (storage.arrays query (row * width))
            (storage.place queryHeads row head dim) (lastToken length)
            (ops.scale storage.layout.headSize)
          Code.write (.float (output +
            flatIndex queryHeads storage.layout.headSize row head dim * floatBytes)) result) := by
    intro row hrow head hhead dim hdim
    have hlt := (flatIndex_lt hrow hhead hdim).trans hfits
    have hrowlt : row < wordSize := by
      refine lt_of_le_of_lt ?_ hlt
      unfold flatIndex
      nlinarith [Nat.le_mul_of_pos_right row (show 0 < queryHeads by omega),
        Nat.le_mul_of_pos_right (row * queryHeads) (show 0 < storage.layout.headSize by omega)]
    have hstart : ((row : Expr) * width).Fits wordSize :=
      ⟨hrowlt, hword, lt_of_le_of_lt (Nat.mul_le_mul_right _ hrow.le) hwidth⟩
    unfold attentionBatchKernel attentionBatchBody
    rw [tokenOfIndex_eq hhead hdim hlt (row_cells_lt hrow hfits),
      placeOfIndex_eq hrow hhead hdim hfits]
    dsimp only
    rw [Expr.wrapped_eq hstart]
    rfl
  constructor
  · intro row hrow head hhead dim hdim
    rw [hbody row hrow head hhead dim hdim]
    simp only [Code.stores_bind, Code.stores_read, Code.eval_read, attentionElement_stores,
      Code.stores_write, List.nil_append]
    rw [hlength row hrow, attentionElement_eq ops (hsees row hrow) hrow hhead hfits]
  · intro row hrow head hhead dim hdim a ha
    rw [hbody row hrow head hhead dim hdim] at ha
    simp only [Code.loads_bind, Code.loads_read, Code.eval_read, Code.loads_write,
      List.append_nil, List.singleton_append, List.mem_cons] at ha
    rcases ha with rfl | ha
    · exact .inl rfl
    · rw [hlength row hrow] at ha
      exact .inr (attentionElement_reads ops (hsees row hrow) hrow hhead hdim hfits ha)

/-! ## Running them -/

variable {s : ℕ → SequenceState} {start last : ℕ → ℕ} {body : ℕ → KernelCode E F Unit}
  {m'' : DeviceMemory E F} {cuda : Cuda}

/-- What a finished attention kernel leaves in device memory. -/
structure Attended (ops : Arithmetic E F D) (storage : PagedKVStorage) (m m'' : DeviceMemory E F)
    (query output queryHeads rows : ℕ) (s : ℕ → SequenceState) (last : ℕ → ℕ) : Prop where
  result : ∀ row < rows, ∀ head < queryHeads, ∀ dim < storage.layout.headSize,
    m'' (.float (output +
        flatIndex queryHeads storage.layout.headSize row head dim * floatBytes)) =
      attend ops storage m (s row) (queryRow m query queryHeads storage.layout.headSize row head)
        (head / (queryHeads / storage.layout.numKvHeads)) dim (last row + 1)
  float : ∀ n, (∀ i < rows * queryHeads * storage.layout.headSize, n ≠ output + i * floatBytes) →
    m'' (.float n) = m (.float n)
  element : ∀ n, m'' (.element n) = m (.element n)

namespace Attends

variable (ha : Attends ops storage m m' query output queryHeads rows s start last body)
  (hover : ¬ overlaps query (rows * queryHeads * storage.layout.headSize * floatBytes) output
    (rows * queryHeads * storage.layout.headSize * floatBytes))
include ha

/-- An index writes its output element. -/
theorem target {i : ℕ} (hi : i < rows * queryHeads * storage.layout.headSize) :
    (body i).targets m' = [.float (output + i * floatBytes)] := by
  obtain ⟨row, hrow, head, hhead, dim, hdim, rfl⟩ := exists_flatIndex hi
  rw [Code.targets, ha.stores row hrow head hhead dim hdim]
  rfl

include hover

/-- The threads do not interfere. -/
theorem apart : Grid.Apart (rows * queryHeads * storage.layout.headSize) body m' := by
  have hbytes : 0 < floatBytes := by decide
  refine ⟨fun i hi => ?_, fun i hi j hj a hai haj => ?_, fun i hi j hj a hai haj => ?_⟩
  · rw [ha.target hi]
    exact List.nodup_singleton _
  · rw [ha.target hi, List.mem_singleton] at hai
    rw [ha.target hj, List.mem_singleton, hai] at haj
    have hmul : i * floatBytes = j * floatBytes := Nat.add_left_cancel (Address.float.inj haj)
    exact Nat.eq_of_mul_eq_mul_right hbytes hmul
  · rw [ha.target hi, List.mem_singleton] at hai
    subst hai
    obtain ⟨row, hrow, head, hhead, dim, hdim, rfl⟩ := exists_flatIndex hj
    rcases ha.loads row hrow head hhead dim hdim _ haj with h | ⟨t, -, h | ⟨d, hd, h⟩ | ⟨_, _, -, h⟩⟩
    · cases h
    · cases h
    · have hd' := Nat.mul_lt_mul_of_pos_right (flatIndex_lt hrow hhead hd) hbytes
      have hi' := Nat.mul_lt_mul_of_pos_right hi hbytes
      exact ne_of_not_overlaps hover hd' hi' (Address.float.inj h).symm
    · cases h

/-- **A finished attention kernel.** -/
theorem run {launchText waitText : String} (hfloat : ∀ n, m' (.float n) = m (.float n))
    (helement : ∀ n, m' (.element n) = m (.element n))
    (hpos : 0 < rows * queryHeads * storage.layout.headSize)
    (hsize : rows * queryHeads * storage.layout.headSize * floatBytes ≤ sizeMax)
    (h : runKernel cuda launchText waitText (rows * queryHeads * storage.layout.headSize) body m' =
      .ok () m'') : Attended ops storage m m'' query output queryHeads rows s last := by
  have htwo : rows * queryHeads * storage.layout.headSize * 2 ≤ sizeMax :=
    (Nat.mul_le_mul_left _ (by decide)).trans hsize
  obtain ⟨hstored, hother⟩ := runKernel_ok hpos htwo (ha.apart hover) h
  refine ⟨fun row hrow head hhead dim hdim => ?_, fun n hn => ?_, fun n => ?_⟩
  · apply hstored _ (flatIndex_lt hrow hhead hdim)
    rw [ha.stores row hrow head hhead dim hdim]
    exact List.mem_singleton.mpr rfl
  · rw [← hfloat n]
    apply hother
    intro i hi hmem
    rw [ha.target hi, List.mem_singleton] at hmem
    exact hn i hi (Address.float.inj hmem)
  · rw [← helement n]
    apply hother
    intro i hi hmem
    rw [ha.target hi, List.mem_singleton] at hmem
    cases hmem

end Attends

end Kernels

/-! ## The calls -/

section Calls

variable {E F D : Type} {ops : Arithmetic E F D} {storage : PagedKVStorage}
  {pool : PhysicalBlockPool} {here : ℕ} {m m' : DeviceMemory E F} {cuda : Cuda}
  {query output queryTokens queryHeads : ℕ}

/-- The query and the output overlap neither each other nor the cache. -/
structure AttentionBuffers (storage : PagedKVStorage) (query output bytes : ℕ) : Prop where
  apart : ¬ overlaps query bytes output bytes
  query : storage.Outside query bytes
  output : storage.Outside output bytes

/-- The checks of a call, and the kernel it runs. -/
theorem pagedAttention_run {s : SequenceState} (hf : storage.Fits pool here) (hs : s.Resident pool)
    (hrows : queryTokens ≠ 0) (h : pagedAttention ops storage pool cuda s (some query) (some output)
      queryTokens queryHeads m = .ok () m') :
    (0 < queryHeads ∧ queryHeads % storage.layout.numKvHeads = 0 ∧ queryTokens ≤ s.numTokens) ∧
      queryTokens * queryHeads * storage.layout.headSize * floatBytes ≤ sizeMax ∧
      AttentionBuffers storage query output
        (queryTokens * queryHeads * storage.layout.headSize * floatBytes) ∧
      runKernel cuda "paged attention kernel launch" "paged attention synchronize"
        (queryTokens * queryHeads * storage.layout.headSize)
        (attentionKernel ops storage query output queryTokens s.numTokens queryHeads)
        (upload 0 s.pages m) = .ok () m' := by
  unfold pagedAttention at h
  obtain ⟨-, h⟩ := ensure_bind_ok h
  obtain ⟨hshape, h⟩ := ensure_bind_ok h
  push Not at hshape
  obtain ⟨-, hheads, hdvd, hle⟩ := hshape
  have hheads := Nat.pos_of_ne_zero hheads
  obtain ⟨rows, hrows', h⟩ := check_bind_ok h
  obtain ⟨rfl, -⟩ := checkedMultiply_ok hrows' hheads
  obtain ⟨total, htotal, h⟩ := check_bind_ok h
  obtain ⟨rfl, -⟩ := checkedMultiply_ok htotal hf.valid.head_pos
  obtain ⟨bytes, hbytes, h⟩ := check_bind_ok h
  obtain ⟨rfl, hsize⟩ := checkedMultiply_ok hbytes (by decide)
  rw [if_neg hrows] at h
  obtain ⟨blocks, hblocks, h⟩ := check_bind_ok h
  rw [buildReadBlockTable_eq hs] at hblocks
  obtain rfl := Except.ok.inj hblocks
  obtain ⟨-, h⟩ := ensure_bind_ok h
  obtain ⟨_, -, h⟩ := check_bind_ok h
  obtain ⟨_, -, h⟩ := check_bind_ok h
  obtain ⟨_, -, h⟩ := check_bind_ok h
  obtain ⟨_, -, h⟩ := check_bind_ok h
  obtain ⟨base, hbase, h⟩ := check_bind_ok h
  rw [hf.keyBase_eq] at hbase
  obtain rfl := Except.ok.inj hbase
  obtain ⟨hover, h⟩ := ensure_bind_ok h
  push Not at hover
  obtain ⟨_, -, h⟩ := check_bind_ok h
  obtain ⟨_, -, h⟩ := check_bind_ok h
  rw [bind_of_ok (modify_apply _ m), hf.valueBase_eq, hf.attentionElementBytes_eq] at h
  exact ⟨⟨hheads, hdvd, hle⟩, hsize, ⟨hover.1, hover.2.1, hover.2.2⟩, h⟩

/-- The shape of a call that returns, with no query tokens too. -/
theorem pagedAttention_shape (hf : storage.Fits pool here) {s : SequenceState}
    {query output : Option ℕ}
    (h : pagedAttention ops storage pool cuda s query output queryTokens queryHeads m = .ok () m') :
    (0 < queryHeads ∧ queryHeads % storage.layout.numKvHeads = 0 ∧ queryTokens ≤ s.numTokens) ∧
      queryTokens * queryHeads * storage.layout.headSize ≤ sizeMax := by
  unfold pagedAttention at h
  obtain ⟨-, h⟩ := ensure_bind_ok h
  obtain ⟨hshape, h⟩ := ensure_bind_ok h
  push Not at hshape
  have hheads := Nat.pos_of_ne_zero hshape.2.1
  obtain ⟨rows, hrows, h⟩ := check_bind_ok h
  obtain ⟨rfl, -⟩ := checkedMultiply_ok hrows hheads
  obtain ⟨total, htotal, h⟩ := check_bind_ok h
  exact ⟨⟨hheads, hshape.2.2⟩, (checkedMultiply_ok htotal hf.valid.head_pos).2⟩

theorem lt_wordSize_of_bytes {n : ℕ} (h : n * floatBytes ≤ sizeMax) : n < wordSize :=
  Nat.lt_succ_of_le ((Nat.le_mul_of_pos_right n (by decide)).trans h)

/-- **A call that returns** has computed attention for every query row. -/
theorem pagedAttention_ok {s : SequenceState} (hf : storage.Fits pool here) (hs : s.Resident pool)
    (hrows : queryTokens ≠ 0) (h : pagedAttention ops storage pool cuda s (some query) (some output)
      queryTokens queryHeads m = .ok () m') :
    Attended ops storage m m' query output queryHeads queryTokens (fun _ => s)
      (lastVisible s.numTokens queryTokens) := by
  obtain ⟨⟨hheads, -, -⟩, hsize, hb, hrun⟩ := pagedAttention_run hf hs hrows h
  have hpos : 0 < queryTokens * queryHeads * storage.layout.headSize :=
    Nat.mul_pos (Nat.mul_pos (Nat.pos_of_ne_zero hrows) hheads) hf.valid.head_pos
  exact (attentionKernel_attends s (lt_wordSize_of_bytes hsize)).run hb.apart (fun _ => rfl)
    (fun _ => rfl) hpos hsize hrun

/-- The last token of a sequence that is not empty. -/
theorem lastToken_lt {n : ℕ} (h : n ≠ 0) : lastToken n < n := by
  have heq : lastToken n = (n % wordSize + (wordSize - 1)) % wordSize := rfl
  have hword : wordSize = 18446744073709551616 := by decide
  rw [heq, hword]
  omega

/-- One query token sees the whole sequence. -/
theorem lastVisible_one (n : ℕ) : lastVisible n 1 0 = lastToken n := by
  have heq : lastVisible n 1 0 = (lastToken n + 0) % wordSize := rfl
  rw [heq, Nat.add_zero]
  exact Nat.mod_eq_of_lt (Nat.mod_lt _ (by decide))

variable {ss : List SequenceState} {t : BatchBlockTable}

/-- A row of the batch table is the table of its sequence. -/
theorem BatchBlockTable.Of.sees (ht : t.Of ss) (hf : storage.Fits pool here) {r : ℕ}
    {s : SequenceState} (hs : ss[r]? = some s) (hr : s.Resident pool) (hne : s.numTokens ≠ 0) :
    Sees storage s (r * t.maxBlocksPerSequence) (lastToken s.numTokens) m
      (upload 1 t.sequenceLengths (upload 0 t.blockTable m)) := by
  refine ⟨fun _ => rfl, fun _ => rfl, fun token htoken => ?_⟩
  have hsize : storage.layout.blockSize = s.blockSize := hf.blockSize.trans hr.blockSize.symm
  have hpage := hr.page_lt (htoken.trans_lt (lastToken_lt hne))
  have hwidth := hpage.trans_le (ht.page_le (List.mem_of_getElem? hs))
  rw [hsize, upload_word_of_ne (by decide), upload_word, ht.entry_eq hs hwidth, if_pos hpage]

/-- The checks of a batch call, and the kernel it runs. -/
theorem pagedAttentionBatch_run (hf : storage.Fits pool here) (hr : ∀ s ∈ ss, s.Resident pool)
    (hss : ss ≠ []) (h : pagedAttentionBatch ops storage pool cuda (ss.map some) (some query)
      (some output) queryHeads m = .ok () m') :
    ∃ t, BatchBlockTable.build pool (ss.map some) = .ok t ∧
      (0 < queryHeads ∧ queryHeads % storage.layout.numKvHeads = 0 ∧ ∀ s ∈ ss, s.numTokens ≠ 0) ∧
      ss.length * queryHeads * storage.layout.headSize * floatBytes ≤ sizeMax ∧
      t.blockTable.length * 8 ≤ sizeMax ∧
      AttentionBuffers storage query output
        (ss.length * queryHeads * storage.layout.headSize * floatBytes) ∧
      runKernel cuda "paged attention batch kernel launch" "paged attention batch synchronize"
        (ss.length * queryHeads * storage.layout.headSize)
        (attentionBatchKernel ops storage query output t.maxBlocksPerSequence queryHeads)
        (upload 1 t.sequenceLengths (upload 0 t.blockTable m)) = .ok () m' := by
  unfold pagedAttentionBatch at h
  obtain ⟨hshape, h⟩ := ensure_bind_ok h
  push Not at hshape
  have hheads := Nat.pos_of_ne_zero hshape.1
  obtain ⟨t, ht, h⟩ := check_bind_ok h
  have hof := BatchBlockTable.build_ok hr ht
  obtain ⟨hall, h⟩ := ensure_bind_ok h
  obtain ⟨-, h⟩ := ensure_bind_ok h
  obtain ⟨rows, hrows, h⟩ := check_bind_ok h
  obtain ⟨rfl, -⟩ := checkedMultiply_ok hrows hheads
  obtain ⟨total, htotal, h⟩ := check_bind_ok h
  obtain ⟨rfl, -⟩ := checkedMultiply_ok htotal hf.valid.head_pos
  obtain ⟨bytes, hbytes, h⟩ := check_bind_ok h
  obtain ⟨rfl, hsize⟩ := checkedMultiply_ok hbytes (by decide)
  rw [if_neg (by simpa using hss)] at h
  obtain ⟨_, htable, h⟩ := check_bind_ok h
  obtain ⟨-, htable⟩ := checkedMultiply_ok htable (by decide)
  obtain ⟨_, -, h⟩ := check_bind_ok h
  obtain ⟨_, -, h⟩ := check_bind_ok h
  obtain ⟨_, -, h⟩ := check_bind_ok h
  obtain ⟨_, -, h⟩ := check_bind_ok h
  obtain ⟨base, hbase, h⟩ := check_bind_ok h
  rw [hf.keyBase_eq] at hbase
  obtain rfl := Except.ok.inj hbase
  obtain ⟨hover, h⟩ := ensure_bind_ok h
  push Not at hover
  obtain ⟨_, -, h⟩ := check_bind_ok h
  obtain ⟨_, -, h⟩ := check_bind_ok h
  obtain ⟨_, -, h⟩ := check_bind_ok h
  obtain ⟨_, -, h⟩ := check_bind_ok h
  rw [bind_of_ok (modify_apply _ m), bind_of_ok (modify_apply _ _), hf.valueBase_eq,
    hf.attentionElementBytes_eq] at h
  rw [List.length_map] at hsize hover h
  refine ⟨t, ht, ⟨hheads, hshape.2, fun s hs => ?_⟩, hsize, htable,
    ⟨hover.1, hover.2.1, hover.2.2⟩, h⟩
  have hfilter : (ss.map some).filterMap (fun s => s) = ss := by simp [List.filterMap_map]
  have hzip : (s, s.numTokens) ∈ ss.zip (ss.map SequenceState.numTokens) := by
    rw [← List.map_prod_left_eq_zip]
    exact List.mem_map_of_mem hs
  rw [hfilter, hof.lengths] at hall
  exact (hall _ hzip).2.2

/-- The kernel of a batch, on the uploaded table. -/
theorem BatchBlockTable.Of.attends (ht : t.Of ss) (hf : storage.Fits pool here)
    (hr : ∀ s ∈ ss, s.Resident pool) (hne : ∀ s ∈ ss, s.numTokens ≠ 0) (first : SequenceState)
    (hsize : ss.length * queryHeads * storage.layout.headSize * floatBytes ≤ sizeMax)
    (htable : t.blockTable.length * 8 ≤ sizeMax) :
    Attends ops storage m (upload 1 t.sequenceLengths (upload 0 t.blockTable m)) query output
      queryHeads ss.length (fun r => ss.getD r first) (· * t.maxBlocksPerSequence)
      (fun r => lastToken (ss.getD r first).numTokens)
      (attentionBatchKernel ops storage query output t.maxBlocksPerSequence queryHeads) := by
  have hat : ∀ r < ss.length, ss[r]? = some (ss.getD r first) := by
    intro r hlt
    rw [List.getElem?_eq_getElem hlt, List.getD_eq_getElem _ _ hlt]
  have htotal : ss.length * t.maxBlocksPerSequence < wordSize := by
    rw [ht.table_length] at htable
    exact Nat.lt_succ_of_le ((Nat.le_mul_of_pos_right _ (by decide)).trans htable)
  have hwidth : t.maxBlocksPerSequence < wordSize := by
    cases ss with
    | nil => exact lt_of_le_of_lt ((ht.width 0).mpr (by simp)) (by decide)
    | cons => exact lt_of_le_of_lt (Nat.le_mul_of_pos_left _ (by simp)) htotal
  apply attentionBatchKernel_attends _ (lt_wordSize_of_bytes hsize) htotal hwidth
  · intro r hlt
    rw [upload_word, ht.length_eq (hat r hlt)]
  · intro r hlt
    have hmem := List.mem_of_getElem? (hat r hlt)
    exact ht.sees hf (hat r hlt) (hr _ hmem) (hne _ hmem)

/-- **A batch call that returns** has computed attention for the last token of every sequence. -/
theorem pagedAttentionBatch_ok (hf : storage.Fits pool here) (hr : ∀ s ∈ ss, s.Resident pool)
    (hss : ss ≠ []) (first : SequenceState) (h : pagedAttentionBatch ops storage pool cuda
      (ss.map some) (some query) (some output) queryHeads m = .ok () m') :
    Attended ops storage m m' query output queryHeads ss.length (fun r => ss.getD r first)
      (fun r => lastToken (ss.getD r first).numTokens) := by
  obtain ⟨t, ht, ⟨hheads, -, hne⟩, hsize, htable, hb, hrun⟩ := pagedAttentionBatch_run hf hr hss h
  have hof := BatchBlockTable.build_ok hr ht
  have hpos : 0 < ss.length * queryHeads * storage.layout.headSize :=
    Nat.mul_pos (Nat.mul_pos (List.length_pos_iff.mpr hss) hheads) hf.valid.head_pos
  exact (hof.attends hf hr hne first hsize htable).run hb.apart (fun _ => rfl) (fun _ => rfl) hpos
    hsize hrun

/-- The size of a query, as the calls compute it. -/
theorem multiply_query (text : String) {rows headSize : ℕ} (hhead : 0 < headSize) (h :
    rows * queryHeads * headSize * floatBytes ≤ sizeMax) :
    checkedMultiply text rows queryHeads = .ok (rows * queryHeads) ∧
      checkedMultiply text (rows * queryHeads) headSize = .ok (rows * queryHeads * headSize) ∧
      checkedMultiply text (rows * queryHeads * headSize) floatBytes =
        .ok (rows * queryHeads * headSize * floatBytes) := by
  have htotal : rows * queryHeads * headSize ≤ sizeMax :=
    (Nat.le_mul_of_pos_right _ (by decide)).trans h
  have hrows : rows * queryHeads ≤ sizeMax := (Nat.le_mul_of_pos_right _ hhead).trans htotal
  exact ⟨checkedMultiply_of_le hrows, checkedMultiply_of_le htotal, checkedMultiply_of_le h⟩

/-- **A call returns** on a healthy device when the shape is valid, the sizes are machine words and
the buffers overlap nothing. -/
theorem pagedAttention_returns {s : SequenceState} (hf : storage.Fits pool here)
    (hs : s.Resident pool) (hpool : s.blockTable.pool = some storage.pool) (hc : cuda.Healthy)
    (hheads : 0 < queryHeads) (hdvd : queryHeads % storage.layout.numKvHeads = 0)
    (hle : queryTokens ≤ s.numTokens)
    (hsize : queryTokens * queryHeads * storage.layout.headSize * floatBytes ≤ sizeMax)
    (hpages : s.pages.length * 8 ≤ sizeMax)
    (hb : AttentionBuffers storage query output
      (queryTokens * queryHeads * storage.layout.headSize * floatBytes)) :
    ∃ m', pagedAttention ops storage pool cuda s (some query) (some output) queryTokens queryHeads m =
      .ok () m' := by
  have hblock : s.blockSize = storage.layout.blockSize := hs.blockSize.trans hf.blockSize.symm
  have hshape : ¬ (s.blockSize ≠ storage.layout.blockSize ∨ queryHeads = 0 ∨
      queryHeads % storage.layout.numKvHeads ≠ 0 ∨ queryTokens > s.numTokens) := by
    push Not
    exact ⟨hblock, hheads.ne', hdvd, hle⟩
  have hrange : ∀ block ∈ s.pages, ¬ block ≥ storage.layout.numBlocks := by
    intro block hmem
    obtain ⟨h, hh, rfl⟩ := List.mem_map.mp hmem
    rw [hf.blocks]
    exact not_le.mpr (hs.id_lt h hh)
  obtain ⟨hrows, htotal, hbytes⟩ :=
    multiply_query "paged attention size overflow" hf.valid.head_pos hsize
  have hfirst : validateDevicePointer cuda.firstPointer "Q" = .ok () := if_pos hc.pointers.1
  have hsecond : validateDevicePointer cuda.secondPointer "attention output" = .ok () :=
    if_pos hc.pointers.2
  unfold pagedAttention
  rw [bind_of_ok (ensure_apply hpool), bind_of_ok (ensure_apply hshape)]
  dsimp only
  rw [bind_of_check hrows, bind_of_check htotal, bind_of_check hbytes]
  split_ifs with hzero
  · exact ⟨m, rfl⟩
  rw [bind_of_check (buildReadBlockTable_eq hs), bind_of_ok (ensure_apply hrange),
    bind_of_check (checkedMultiply_of_le hpages), bind_of_check hc.deviceGuard_eq,
    bind_of_check hfirst, bind_of_check hsecond, bind_of_check hf.keyBase_eq,
    bind_of_ok (ensure_apply (by push Not; exact ⟨hb.apart, hb.query, hb.output⟩)),
    bind_of_check (hc.allocate_eq _), bind_of_check (hc.upload_eq _),
    bind_of_ok (modify_apply _ m), bind_of_check hf.valueBase_eq]
  exact hc.runKernel_returns _ _ _ _

/-- **A batch call returns** under the same conditions. -/
theorem pagedAttentionBatch_returns (hf : storage.Fits pool here) (hr : ∀ s ∈ ss, s.Resident pool)
    (hpool : ∀ s ∈ ss, s.blockTable.pool = some storage.pool) (hne : ∀ s ∈ ss, s.numTokens ≠ 0)
    (hc : cuda.Healthy) (hheads : 0 < queryHeads)
    (hdvd : queryHeads % storage.layout.numKvHeads = 0)
    (hsize : ss.length * queryHeads * storage.layout.headSize * floatBytes ≤ sizeMax)
    (hpages : ∀ s ∈ ss, ss.length * s.pages.length * 8 ≤ sizeMax) (hlength : ss.length * 8 ≤ sizeMax)
    (hb : AttentionBuffers storage query output
      (ss.length * queryHeads * storage.layout.headSize * floatBytes)) :
    ∃ m', pagedAttentionBatch ops storage pool cuda (ss.map some) (some query) (some output)
      queryHeads m = .ok () m' := by
  have hshape : ¬ (queryHeads = 0 ∨ queryHeads % storage.layout.numKvHeads ≠ 0) := by
    push Not
    exact ⟨hheads.ne', hdvd⟩
  obtain ⟨t, ht⟩ := BatchBlockTable.build_returns hr hpool fun s hs => by
    have hpos := List.length_pos_of_mem hs
    rw [Nat.le_div_iff_mul_le hpos, Nat.mul_comm]
    exact (Nat.le_mul_of_pos_right _ (by decide)).trans (hpages s hs)
  have hof := BatchBlockTable.build_ok hr ht
  have hall : ∀ row ∈ ((ss.map some).filterMap fun s => s).zip t.sequenceLengths,
      row.1.blockTable.pool = some storage.pool ∧ row.1.blockSize = storage.layout.blockSize ∧
        row.2 ≠ 0 := by
    intro row hrow
    have hfilter : (ss.map some).filterMap (fun s => s) = ss := by simp [List.filterMap_map]
    rw [hfilter, hof.lengths, ← List.map_prod_left_eq_zip] at hrow
    obtain ⟨s, hs, rfl⟩ := List.mem_map.mp hrow
    exact ⟨hpool s hs, (hr s hs).blockSize.trans hf.blockSize.symm, hne s hs⟩
  have hrange : ∀ block ∈ t.blockTable,
      ¬ (block ≠ BatchBlockTable.invalidBlock ∧ block ≥ storage.layout.numBlocks) := by
    rintro block hblock ⟨hvalid, hge⟩
    have := hof.entry_lt hr hblock hvalid
    rw [hf.blocks] at hge
    omega
  have htable : t.blockTable.length * 8 ≤ sizeMax := by
    rw [hof.table_length]
    rcases Nat.eq_zero_or_pos ss.length with hzero | hpos
    · rw [hzero, Nat.zero_mul, Nat.zero_mul]
      exact Nat.zero_le _
    · have hle : t.maxBlocksPerSequence ≤ sizeMax / 8 / ss.length := by
        rw [hof.width]
        intro s hs
        rw [Nat.le_div_iff_mul_le hpos, Nat.le_div_iff_mul_le (by decide), Nat.mul_comm s.pages.length]
        exact hpages s hs
      rw [Nat.le_div_iff_mul_le hpos, Nat.le_div_iff_mul_le (by decide)] at hle
      rwa [Nat.mul_comm ss.length]
  obtain ⟨hrows, htotal, hbytes⟩ :=
    multiply_query "paged attention size overflow" hf.valid.head_pos hsize
  have hfirst : validateDevicePointer cuda.firstPointer "Q" = .ok () := if_pos hc.pointers.1
  have hsecond : validateDevicePointer cuda.secondPointer "attention output" = .ok () :=
    if_pos hc.pointers.2
  unfold pagedAttentionBatch
  dsimp only
  rw [bind_of_ok (ensure_apply hshape), bind_of_check ht, bind_of_ok (ensure_apply hall),
    bind_of_ok (ensure_apply hrange), List.length_map, bind_of_check hrows, bind_of_check htotal,
    bind_of_check hbytes]
  split_ifs with hzero
  · exact ⟨m, rfl⟩
  rw [bind_of_check (checkedMultiply_of_le htable), bind_of_check (checkedMultiply_of_le hlength),
    bind_of_check hc.deviceGuard_eq, bind_of_check hfirst, bind_of_check hsecond,
    bind_of_check hf.keyBase_eq,
    bind_of_ok (ensure_apply (by push Not; exact ⟨hb.apart, hb.query, hb.output⟩)),
    bind_of_check (hc.allocate_eq _), bind_of_check (hc.allocateSecond_eq _),
    bind_of_check (hc.upload_eq _), bind_of_check (hc.uploadSecond_eq _),
    bind_of_ok (modify_apply _ m), bind_of_ok (modify_apply _ _), bind_of_check hf.valueBase_eq]
  exact hc.runKernel_returns _ _ _ _

end Calls

end KVFlux.V2
