import KVFlux.KVLayout

/-!
# The layout of the paged cache

`K[num_blocks][num_kv_heads][block_size][head_size]`, then `V` of the same shape. Only the
constructor checks for overflow.

* `PagedKVLayout`, `make`, `pageByteOffset`, `byteOffset`, `slotByteOffset`.
* `make_ok`: what the constructor has checked.
* **`bijOn_byteOffset`**: offsets number the elements, keys first; **`offsetExpr_fits`**: nothing
  overflows; **`slotByteOffset_eq`**: a slot is a page and a token of it.
-/

namespace KVFlux.V2

open SizeArith

structure PagedKVLayout where
  numBlocks : ℕ
  numKvHeads : ℕ
  blockSize : ℕ
  headSize : ℕ
  dtype : DType
  elementBytes : ℕ
  pageBytes : ℕ
  cacheBytes : ℕ
  totalBytes : ℕ
  slotCount : ℕ
deriving DecidableEq, Repr

namespace PagedKVLayout

/-- The constructor. -/
def make (numBlocks numKvHeads blockSize headSize : ℕ) (dtype : DType) :
    Except Exn PagedKVLayout := do
  let elementBytes := dtype.bytes
  if numBlocks = 0 ∨ numKvHeads = 0 ∨ blockSize = 0 ∨ headSize = 0 then
    throw (.invalidArgument "paged KV dimensions must be positive")
  let multiply := checkedMultiply "paged KV layout size overflow"
  let rows ← multiply numKvHeads blockSize
  let elements ← multiply rows headSize
  let pageBytes ← multiply elements elementBytes
  let cacheBytes ← multiply numBlocks pageBytes
  let totalBytes ← multiply 2 cacheBytes
  let slotCount ← multiply numBlocks blockSize
  return ⟨numBlocks, numKvHeads, blockSize, headSize, dtype, elementBytes, pageBytes, cacheBytes,
    totalBytes, slotCount⟩

variable (layout : PagedKVLayout)

/-- The arithmetic of `page_byte_offset`. -/
def pageExpr (kind : KVKind) (block : ℕ) : Expr :=
  (if kind = .Value then layout.cacheBytes else 0 : ℕ) + block * layout.pageBytes

/-- `page_byte_offset`. -/
def pageByteOffset (kind : KVKind) (block : ℕ) : Except Exn ℕ :=
  if block ≥ layout.numBlocks then .error (.outOfRange "physical block out of range")
  else .ok ((layout.pageExpr kind block).wrapped wordSize)

/-- The arithmetic of `byte_offset` from the offset of a page on. -/
def offsetExpr (page head token dimension : ℕ) : Expr :=
  let element : Expr := (head * layout.blockSize + token) * layout.headSize + dimension
  page + element * layout.elementBytes

/-- `byte_offset`. -/
def byteOffset (kind : KVKind) (block head token dimension : ℕ) : Except Exn ℕ := do
  let page ← layout.pageByteOffset kind block
  if head ≥ layout.numKvHeads ∨ token ≥ layout.blockSize ∨ dimension ≥ layout.headSize then
    throw (.outOfRange "paged KV coordinate out of range")
  return (layout.offsetExpr page head token dimension).wrapped wordSize

/-- `slot_byte_offset`. -/
def slotByteOffset (kind : KVKind) (slot head dimension : ℕ) : Except Exn ℕ :=
  if slot ≥ layout.slotCount then .error (.outOfRange "physical slot out of range")
  else layout.byteOffset kind (slot / layout.blockSize) head (slot % layout.blockSize) dimension

/-- The coordinate of an element. -/
structure Coordinate where
  kind : KVKind
  block : ℕ
  head : ℕ
  token : ℕ
  dimension : ℕ
deriving DecidableEq, Repr

/-- The coordinate is in range. -/
structure InRange (c : Coordinate) : Prop where
  block : c.block < layout.numBlocks
  head : c.head < layout.numKvHeads
  token : c.token < layout.blockSize
  dimension : c.dimension < layout.headSize

/-- What the constructor has checked. -/
structure Valid : Prop where
  blocks_pos : 0 < layout.numBlocks
  heads_pos : 0 < layout.numKvHeads
  block_pos : 0 < layout.blockSize
  head_pos : 0 < layout.headSize
  element : layout.elementBytes = layout.dtype.bytes
  page : layout.pageBytes =
    layout.numKvHeads * layout.blockSize * layout.headSize * layout.elementBytes
  cache : layout.cacheBytes = layout.numBlocks * layout.pageBytes
  total : layout.totalBytes = 2 * layout.cacheBytes
  total_le : layout.totalBytes ≤ sizeMax
  slots : layout.slotCount = layout.numBlocks * layout.blockSize
  slots_le : layout.slotCount ≤ sizeMax

variable {layout}

/-- A checked product and what follows. -/
theorem checkedMultiply_bind {α : Type} {overflow : String} {a b : ℕ} {f : ℕ → Except Exn α} {x : α}
    (hb : 0 < b) (h : (checkedMultiply overflow a b >>= f) = .ok x) :
    a * b ≤ sizeMax ∧ f (a * b) = .ok x := by
  obtain ⟨n, hab, h⟩ := Fallible.returns_bind.mp h
  obtain ⟨rfl, hle⟩ := checkedMultiply_ok hab hb
  exact ⟨hle, h⟩

theorem make_ok {numBlocks numKvHeads blockSize headSize : ℕ} {dtype : DType}
    (h : make numBlocks numKvHeads blockSize headSize dtype = .ok layout) :
    layout.Valid ∧ layout.numBlocks = numBlocks ∧ layout.numKvHeads = numKvHeads ∧
      layout.blockSize = blockSize ∧ layout.headSize = headSize ∧ layout.dtype = dtype := by
  unfold make at h
  by_cases hzero : numBlocks = 0 ∨ numKvHeads = 0 ∨ blockSize = 0 ∨ headSize = 0
  · rw [if_pos hzero] at h
    cases h
  rw [if_neg hzero] at h
  push Not at hzero
  obtain ⟨hn, hh, hb, hs⟩ := hzero
  have hn := Nat.pos_of_ne_zero hn
  have hh := Nat.pos_of_ne_zero hh
  have hb := Nat.pos_of_ne_zero hb
  have hs := Nat.pos_of_ne_zero hs
  have he := dtype.bytes_pos
  obtain ⟨-, h⟩ := checkedMultiply_bind hb h
  obtain ⟨-, h⟩ := checkedMultiply_bind hs h
  obtain ⟨-, h⟩ := checkedMultiply_bind he h
  obtain ⟨-, h⟩ := checkedMultiply_bind (by positivity) h
  obtain ⟨htotal, h⟩ := checkedMultiply_bind (by positivity) h
  obtain ⟨hslots, h⟩ := checkedMultiply_bind hb h
  obtain rfl := Except.ok.inj h
  exact ⟨⟨hn, hh, hb, hs, rfl, rfl, rfl, rfl, htotal, rfl, hslots⟩, rfl, rfl, rfl, rfl, rfl⟩

/-! ## Addressing -/

/-- The extents of the axes. -/
def shape (layout : PagedKVLayout) : List ℕ :=
  [2, layout.numBlocks, layout.numKvHeads, layout.blockSize, layout.headSize]

/-- The coordinate along the axes. -/
def Coordinate.digits (c : Coordinate) : List ℕ :=
  [c.kind.toNat, c.block, c.head, c.token, c.dimension]

theorem bijOn_digits : Set.BijOn Coordinate.digits {c | layout.InRange c}
    {ds | RowMajor.Within layout.shape ds} := by
  refine ⟨?_, ?_, ?_⟩
  · intro c hc
    exact .cons c.kind.toNat_lt (.cons hc.block (.cons hc.head (.cons hc.token
      (.cons hc.dimension .nil))))
  · intro c _ c' _ heq
    simp only [Coordinate.digits, List.cons.injEq, and_true] at heq
    obtain ⟨hkind, hblock, hhead, htoken, hdim⟩ := heq
    have hkind := KVKind.toNat_injective hkind
    cases c
    cases c'
    simp_all
  · intro ds hds
    obtain _ | ⟨hkind, _ | ⟨hblock, _ | ⟨hhead, _ | ⟨htoken, _ | ⟨hdim, _ | _⟩⟩⟩⟩⟩ := hds
    obtain ⟨kind, rfl⟩ := KVKind.exists_toNat hkind
    exact ⟨⟨kind, _, _, _, _⟩, ⟨hblock, hhead, htoken, hdim⟩, rfl⟩

namespace Valid

variable (valid : layout.Valid) {c : Coordinate} (hc : layout.InRange c)
include valid

theorem element_pos : 0 < layout.elementBytes := by
  rw [valid.element]
  exact layout.dtype.bytes_pos

theorem page_pos : 0 < layout.pageBytes := by
  have := valid.heads_pos
  have := valid.block_pos
  have := valid.head_pos
  have := valid.element_pos
  rw [valid.page]
  positivity

theorem totalBytes_eq : layout.totalBytes = layout.shape.prod * layout.elementBytes := by
  rw [valid.total, valid.cache, valid.page]
  simp only [shape, List.prod_cons, List.prod_nil]
  ring

/-- Some size is below the size of the cache. -/
theorem lt_word {n : ℕ} (h : n ≤ layout.cacheBytes) : n < wordSize := by
  have := valid.total
  have := valid.total_le
  unfold wordSize
  omega

/-- The pages of one kind lie in its half. -/
theorem page_le {block : ℕ} (hblock : block < layout.numBlocks) :
    block * layout.pageBytes + layout.pageBytes ≤ layout.cacheBytes := by
  rw [valid.cache, ← Nat.succ_mul]
  exact Nat.mul_le_mul_right _ hblock

theorem page_le_cache : layout.pageBytes ≤ layout.cacheBytes := by
  have := valid.page_le valid.blocks_pos
  omega

/-- The part of a page that a shorter product of extents spans. -/
theorem le_page {n k : ℕ} (h : n * k = layout.pageBytes) : n ≤ layout.pageBytes := by
  have hk : 0 < k := by
    apply Nat.pos_of_ne_zero
    rintro rfl
    have := valid.page_pos
    omega
  exact h ▸ Nat.le_mul_of_pos_right n hk

theorem pageExpr_fits (kind : KVKind) {block : ℕ} (hblock : block < layout.numBlocks) :
    (layout.pageExpr kind block).Fits wordSize ∧
      (layout.pageExpr kind block).value =
        kind.toNat * layout.cacheBytes + block * layout.pageBytes := by
  have hpage := valid.page_le hblock
  have hblock_le : block ≤ block * layout.pageBytes := Nat.le_mul_of_pos_right _ valid.page_pos
  have htotal := valid.total
  have hle := valid.total_le
  have hkind : (if kind = .Value then layout.cacheBytes else 0) = kind.toNat * layout.cacheBytes := by
    cases kind <;> simp
  have hhalf : kind.toNat * layout.cacheBytes ≤ layout.cacheBytes := by
    cases kind <;> simp
  unfold pageExpr
  rw [hkind]
  refine ⟨⟨valid.lt_word hhalf, ⟨valid.lt_word (by omega), valid.lt_word valid.page_le_cache,
    valid.lt_word (show block * layout.pageBytes ≤ _ by omega)⟩, ?_⟩, rfl⟩
  show kind.toNat * layout.cacheBytes + block * layout.pageBytes < sizeMax + 1
  omega

theorem pageByteOffset_eq (kind : KVKind) {block : ℕ} (hblock : block < layout.numBlocks) :
    layout.pageByteOffset kind block =
      .ok (kind.toNat * layout.cacheBytes + block * layout.pageBytes) := by
  obtain ⟨hfits, hvalue⟩ := valid.pageExpr_fits kind hblock
  unfold pageByteOffset
  rw [if_neg (by omega), Expr.wrapped_eq hfits, hvalue]

/-- An element of a page, in units of elements. -/
theorem element_lt {head token dimension : ℕ} (hhead : head < layout.numKvHeads)
    (htoken : token < layout.blockSize) (hdim : dimension < layout.headSize) :
    ((head * layout.blockSize + token) * layout.headSize + dimension) * layout.elementBytes <
      layout.pageBytes := by
  have hindex := RowMajor.index_lt (a := head) (n := layout.numKvHeads)
    (.cons htoken (.cons hdim .nil)) hhead
  rw [valid.page]
  apply Nat.mul_lt_mul_of_pos_right _ valid.element_pos
  simpa [RowMajor.index, mul_assoc] using hindex

/-- No intermediate result of `byte_offset` overflows. -/
theorem offsetExpr_fits (kind : KVKind) {block head token dimension : ℕ}
    (hblock : block < layout.numBlocks) (hhead : head < layout.numKvHeads)
    (htoken : token < layout.blockSize) (hdim : dimension < layout.headSize) :
    (layout.offsetExpr (kind.toNat * layout.cacheBytes + block * layout.pageBytes) head token
      dimension).Fits wordSize := by
  have hpage := valid.page_le hblock
  have htotal := valid.total
  have hle := valid.total_le
  have helement := valid.element_lt hhead htoken hdim
  have hhalf : kind.toNat * layout.cacheBytes ≤ layout.cacheBytes := by
    cases kind <;> simp
  have hheads : layout.numKvHeads ≤ layout.pageBytes :=
    valid.le_page (k := layout.blockSize * layout.headSize * layout.elementBytes) (by
      rw [valid.page]; ring)
  have hrows : layout.numKvHeads * layout.blockSize ≤ layout.pageBytes :=
    valid.le_page (k := layout.headSize * layout.elementBytes) (by rw [valid.page]; ring)
  have hcells : layout.numKvHeads * layout.blockSize * layout.headSize ≤ layout.pageBytes :=
    valid.le_page (k := layout.elementBytes) (by rw [valid.page])
  have hbytes : layout.elementBytes ≤ layout.pageBytes :=
    valid.le_page (k := layout.numKvHeads * layout.blockSize * layout.headSize) (by
      rw [valid.page]; ring)
  have hfits : (head : Expr).Fits wordSize :=
    valid.lt_word (hhead.le.trans (hheads.trans valid.page_le_cache))
  obtain ⟨f1, v1⟩ := Expr.fits_horner hfits hhead htoken
    (valid.lt_word (hrows.trans valid.page_le_cache))
  obtain ⟨f2, v2⟩ := Expr.fits_horner f1 v1 hdim (valid.lt_word (hcells.trans valid.page_le_cache))
  refine ⟨?_, ⟨f2, valid.lt_word (hbytes.trans valid.page_le_cache), ?_⟩, ?_⟩
  · show kind.toNat * layout.cacheBytes + block * layout.pageBytes < sizeMax + 1
    omega
  · exact valid.lt_word (helement.le.trans valid.page_le_cache)
  · show kind.toNat * layout.cacheBytes + block * layout.pageBytes +
      ((head * layout.blockSize + token) * layout.headSize + dimension) * layout.elementBytes <
        sizeMax + 1
    omega

/-- `byte_offset` returns. -/
theorem byteOffset_eq (kind : KVKind) {block head token dimension : ℕ}
    (hblock : block < layout.numBlocks) (hhead : head < layout.numKvHeads)
    (htoken : token < layout.blockSize) (hdim : dimension < layout.headSize) :
    layout.byteOffset kind block head token dimension =
      .ok (kind.toNat * layout.cacheBytes + block * layout.pageBytes +
        ((head * layout.blockSize + token) * layout.headSize + dimension) *
          layout.elementBytes) := by
  have hrange : ¬ (head ≥ layout.numKvHeads ∨ token ≥ layout.blockSize ∨
      dimension ≥ layout.headSize) := by omega
  unfold byteOffset
  rw [valid.pageByteOffset_eq kind hblock]
  show (if head ≥ layout.numKvHeads ∨ token ≥ layout.blockSize ∨ dimension ≥ layout.headSize then
    throw _ else pure _) = _
  rw [if_neg hrange, Expr.wrapped_eq (valid.offsetExpr_fits kind hblock hhead htoken hdim)]
  rfl

include hc

/-- The offset is the row-major index in units of an element. -/
theorem byteOffset_index : layout.byteOffset c.kind c.block c.head c.token c.dimension =
    .ok (RowMajor.index 0 layout.shape c.digits * layout.elementBytes) := by
  rw [valid.byteOffset_eq c.kind hc.block hc.head hc.token hc.dimension, valid.cache, valid.page]
  simp only [RowMajor.index, shape, Coordinate.digits]
  congr 1
  ring

/-- Keys lie below the cache size, values at or above it. -/
theorem key_iff_below {n : ℕ}
    (h : layout.byteOffset c.kind c.block c.head c.token c.dimension = .ok n) :
    c.kind = .Key ↔ n < layout.cacheBytes := by
  rw [valid.byteOffset_eq c.kind hc.block hc.head hc.token hc.dimension] at h
  obtain rfl := Except.ok.inj h
  have hpage := valid.page_le hc.block
  have helement := valid.element_lt hc.head hc.token hc.dimension
  cases c.kind with
  | Key =>
    rw [KVKind.toNat_key]
    exact ⟨fun _ => by omega, fun _ => rfl⟩
  | Value =>
    rw [KVKind.toNat_value]
    exact ⟨fun h => (by cases h), fun h => (by omega)⟩

omit hc

/-- **Offsets number the elements of the cache.** -/
theorem bijOn_byteOffset : Set.BijOn
    (fun c : Coordinate => layout.byteOffset c.kind c.block c.head c.token c.dimension)
    {c | layout.InRange c}
    (Except.ok '' {n | n < layout.totalBytes ∧ layout.elementBytes ∣ n}) := by
  have hoffset := (RowMajor.bijOn_scaled layout.shape valid.element_pos).comp bijOn_digits
  rw [← valid.totalBytes_eq] at hoffset
  have hinj : Function.Injective (Except.ok : ℕ → Except Exn ℕ) := fun _ _ h => Except.ok.inj h
  have hok := hinj.injOn.bijOn_image.comp hoffset
  exact hok.congr fun c hc => (valid.byteOffset_index hc).symm

/-- **A slot is a page and a token of it.** -/
theorem slotByteOffset_eq (kind : KVKind) {block token : ℕ} (hblock : block < layout.numBlocks)
    (htoken : token < layout.blockSize) (head dimension : ℕ) :
    block * layout.blockSize + token < layout.slotCount ∧
      layout.slotByteOffset kind (block * layout.blockSize + token) head dimension =
        layout.byteOffset kind block head token dimension := by
  have hslot : block * layout.blockSize + token < layout.slotCount := by
    have := Nat.mul_le_mul_right layout.blockSize (Nat.succ_le_of_lt hblock)
    rw [Nat.succ_mul] at this
    rw [valid.slots]
    omega
  refine ⟨hslot, ?_⟩
  unfold slotByteOffset
  rw [if_neg (by omega), RowMajor.split_quotient htoken, RowMajor.split_last htoken]

end Valid

end PagedKVLayout

end KVFlux.V2
