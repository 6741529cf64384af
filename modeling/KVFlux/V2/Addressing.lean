import KVFlux.V2.PagedAttention

/-!
# One address for every element

The layout, the storage and the three kernels compute the address of an element in different ways.

* `cell`: the number of an element within the keys or the values; `regionBase`: where they start.
* `writeIndex_eq`, `readIndex_eq`, `attentionIndex_eq`: the kernels compute `cell` without overflow.
* **`addressing_exact`**: offsets number the elements of the allocation, nothing overflows, and all
  users agree.
-/

namespace KVFlux.V2

open SizeArith

namespace PagedKVLayout

variable (layout : PagedKVLayout)

/-- The number of an element within the keys or the values. -/
def cell (block head token dimension : ℕ) : ℕ :=
  ((block * layout.numKvHeads + head) * layout.blockSize + token) * layout.headSize + dimension

variable {layout}

namespace Valid

variable (valid : layout.Valid) {block head token dimension : ℕ}
include valid

/-- The number of elements of the keys. -/
theorem cacheBytes_eq : layout.cacheBytes =
    layout.numBlocks * layout.numKvHeads * layout.blockSize * layout.headSize *
      layout.elementBytes := by
  rw [valid.cache, valid.page]
  ring

/-- Fewer axes have fewer elements, and their number is a machine word. -/
theorem prefix_lt {n k : ℕ} (h : n * k = layout.cacheBytes) : n < wordSize := by
  have hk : 0 < k := by
    apply Nat.pos_of_ne_zero
    rintro rfl
    have := valid.page_pos
    have := valid.page_le_cache
    omega
  exact valid.lt_word (h ▸ Nat.le_mul_of_pos_right n hk)

/-- Horner's rule for a cell with the token offset left as an expression. -/
theorem cell_fits {b t : Expr} (hb : b.Fits wordSize) (hblock : b.value < layout.numBlocks)
    (hhead : head < layout.numKvHeads) (ht : t.Fits wordSize) (htoken : t.value < layout.blockSize)
    (hdim : dimension < layout.headSize) :
    (((b * (layout.numKvHeads : Expr) + (head : Expr)) * (layout.blockSize : Expr) + t) *
      (layout.headSize : Expr) + (dimension : Expr)).Fits wordSize := by
  have heq := valid.cacheBytes_eq
  obtain ⟨f1, v1⟩ := Expr.fits_horner hb hblock hhead
    (valid.prefix_lt (k := layout.blockSize * layout.headSize * layout.elementBytes) (by
      rw [heq]; ring))
  obtain ⟨f2, v2⟩ := Expr.fits_step f1 v1 ht htoken
    (valid.prefix_lt (k := layout.headSize * layout.elementBytes) (by rw [heq]; ring))
  exact (Expr.fits_horner f2 v2 hdim
    (valid.prefix_lt (k := layout.elementBytes) (by rw [heq]))).1

variable (hblock : block < layout.numBlocks) (hhead : head < layout.numKvHeads)
  (htoken : token < layout.blockSize) (hdim : dimension < layout.headSize)
include hblock hhead htoken hdim

theorem cell_lt : layout.cell block head token dimension * layout.elementBytes <
    layout.cacheBytes := by
  have hindex := RowMajor.index_lt (a := block) (n := layout.numBlocks)
    (.cons hhead (.cons htoken (.cons hdim .nil))) hblock
  rw [valid.cacheBytes_eq]
  apply Nat.mul_lt_mul_of_pos_right _ valid.element_pos
  simpa [RowMajor.index, cell, mul_assoc] using hindex

/-- An element of the keys or the values. -/
theorem byteOffset_cell (kind : KVKind) : layout.byteOffset kind block head token dimension =
    .ok (kind.toNat * layout.cacheBytes +
      layout.cell block head token dimension * layout.elementBytes) := by
  rw [valid.byteOffset_eq kind hblock hhead htoken hdim, valid.page, cell]
  congr 1
  ring

/-- The write kernel's index of the slot of a token. -/
theorem writeIndex_eq {slot : ℕ} (hslot : slot = block * layout.blockSize + token) :
    (writeIndex layout.numKvHeads layout.blockSize layout.headSize slot head dimension).Fits
      wordSize ∧
    (writeIndex layout.numKvHeads layout.blockSize layout.headSize slot head dimension).wrapped
      wordSize = layout.cell block head token dimension := by
  have hquotient : slot / layout.blockSize = block := by
    rw [hslot, RowMajor.split_quotient htoken]
  have hremainder : slot % layout.blockSize = token := by
    rw [hslot, RowMajor.split_last htoken]
  have hlt : slot < wordSize := by
    have := (valid.slotByteOffset_eq .Key hblock htoken 0 0).1
    have := valid.slots_le
    unfold wordSize
    omega
  have hsize : layout.blockSize < wordSize := valid.prefix_lt
    (k := layout.numBlocks * layout.numKvHeads * layout.headSize * layout.elementBytes) (by
      rw [valid.cacheBytes_eq]; ring)
  have hfits : (writeIndex layout.numKvHeads layout.blockSize layout.headSize slot head
      dimension).Fits wordSize := by
    refine valid.cell_fits ⟨hlt, hsize, valid.block_pos⟩ ?_ hhead ⟨hlt, hsize, valid.block_pos⟩ ?_
      hdim
    · show slot / layout.blockSize < layout.numBlocks
      rwa [hquotient]
    · show slot % layout.blockSize < layout.blockSize
      rwa [hremainder]
  refine ⟨hfits, ?_⟩
  rw [Expr.wrapped_eq hfits]
  simp [writeIndex, cell, hquotient, hremainder]

/-- The read kernel's index of a token with this offset in its page. -/
theorem readIndex_eq {position : ℕ} (hposition : position % layout.blockSize = token)
    (hlt : position < wordSize) :
    (readIndex layout.numKvHeads layout.blockSize layout.headSize block position head
      dimension).Fits wordSize ∧
    (readIndex layout.numKvHeads layout.blockSize layout.headSize block position head
      dimension).wrapped wordSize = layout.cell block head token dimension := by
  have hsize : layout.blockSize < wordSize := valid.prefix_lt
    (k := layout.numBlocks * layout.numKvHeads * layout.headSize * layout.elementBytes) (by
      rw [valid.cacheBytes_eq]; ring)
  have hblocks : block < wordSize := hblock.trans (valid.prefix_lt
    (k := layout.numKvHeads * layout.blockSize * layout.headSize * layout.elementBytes) (by
      rw [valid.cacheBytes_eq]; ring))
  have hfits : (readIndex layout.numKvHeads layout.blockSize layout.headSize block position head
      dimension).Fits wordSize := by
    refine valid.cell_fits hblocks hblock hhead ⟨hlt, hsize, valid.block_pos⟩ ?_ hdim
    show position % layout.blockSize < layout.blockSize
    rwa [hposition]
  refine ⟨hfits, ?_⟩
  rw [Expr.wrapped_eq hfits]
  simp [readIndex, cell, hposition]

/-- The attention kernels' index of a token with this offset in its page. -/
theorem attentionIndex_eq {position : ℕ} (hposition : position % layout.blockSize = token)
    (hlt : position < wordSize) :
    (attentionBase layout.numKvHeads layout.headSize layout.blockSize block head position +
      dimension).Fits wordSize ∧
    (attentionBase layout.numKvHeads layout.headSize layout.blockSize block head position +
      dimension).wrapped wordSize = layout.cell block head token dimension :=
  valid.readIndex_eq hblock hhead htoken hdim hposition hlt

omit hblock hhead htoken hdim

omit valid in
/-- Different elements have different numbers. -/
theorem cell_inj {block' head' token' dimension' : ℕ} (hhead : head < layout.numKvHeads)
    (htoken : token < layout.blockSize) (hdim : dimension < layout.headSize)
    (hhead' : head' < layout.numKvHeads) (htoken' : token' < layout.blockSize)
    (hdim' : dimension' < layout.headSize)
    (h : layout.cell block head token dimension = layout.cell block' head' token' dimension') :
    block = block' ∧ head = head' ∧ token = token' ∧ dimension = dimension' := by
  have hindex : RowMajor.index block [layout.numKvHeads, layout.blockSize, layout.headSize]
      [head, token, dimension] = RowMajor.index block'
        [layout.numKvHeads, layout.blockSize, layout.headSize] [head', token', dimension'] := by
    simpa [RowMajor.index, cell] using h
  have hinj := RowMajor.index_inj (.cons hhead (.cons htoken (.cons hdim .nil)))
    (.cons hhead' (.cons htoken' (.cons hdim' .nil))) hindex
  simpa using hinj

end Valid

end PagedKVLayout

namespace PagedKVStorage

variable {storage : PagedKVStorage} {pool : PhysicalBlockPool} {here : ℕ}

/-- Where the keys or the values start. -/
def regionBase (storage : PagedKVStorage) (kind : KVKind) : ℕ :=
  storage.backing.base + kind.toNat * storage.layout.cacheBytes

theorem Fits.keyBase_eq (hf : storage.Fits pool here) :
    storage.keyBase = .ok (storage.regionBase .Key) := by
  have := hf.valid.blocks_pos
  have := hf.blocks
  have := hf.pages
  unfold keyBase GpuMemoryPool.addressOf
  rw [if_neg (by omega)]
  simp [regionBase]

theorem Fits.valueBase_eq (hf : storage.Fits pool here) :
    storage.valueBase pool = .ok (storage.regionBase .Value) := by
  have := hf.valid.blocks_pos
  have := hf.blocks
  have := hf.pages
  unfold valueBase GpuMemoryPool.addressOf
  rw [if_neg (by omega), hf.pageBytes, ← hf.blocks, ← hf.valid.cache]
  simp [regionBase]

/-- The address of an element. -/
def cellAddress (storage : PagedKVStorage) (kind : KVKind) (block head token dimension : ℕ) : ℕ :=
  storage.regionBase kind +
    storage.layout.cell block head token dimension * storage.layout.elementBytes

/-- The copies move whole elements. -/
theorem Fits.copyElementBytes_eq (hf : storage.Fits pool here) :
    copyElementBytes storage.layout.dtype = storage.layout.elementBytes := by
  rw [hf.valid.element]
  cases storage.layout.dtype <;> rfl

/-- The attention kernels read whole elements. -/
theorem Fits.attentionElementBytes_eq (hf : storage.Fits pool here) :
    attentionElementBytes storage.layout.dtype = storage.layout.elementBytes := by
  rw [hf.valid.element]
  cases storage.layout.dtype <;> rfl

end PagedKVStorage

/-! ## Agreement -/

/-- Offsets number the elements of the allocation, and no offset is computed with an overflow. -/
structure PagedKVLayout.Dense (layout : PagedKVLayout) : Prop where
  bijective : Set.BijOn (fun c : PagedKVLayout.Coordinate =>
      layout.byteOffset c.kind c.block c.head c.token c.dimension)
    {c | layout.InRange c} (Except.ok '' {n | n < layout.totalBytes ∧ layout.elementBytes ∣ n})
  key_below : ∀ c, layout.InRange c → ∀ n,
    layout.byteOffset c.kind c.block c.head c.token c.dimension = .ok n →
      (c.kind = .Key ↔ n < layout.cacheBytes)
  page_fits : ∀ kind, ∀ block < layout.numBlocks, (layout.pageExpr kind block).Fits wordSize
  offset_fits : ∀ c, layout.InRange c → ∀ page, layout.pageByteOffset c.kind c.block = .ok page →
    (layout.offsetExpr page c.head c.token c.dimension).Fits wordSize
  slot : ∀ c, layout.InRange c →
    layout.slotByteOffset c.kind (c.block * layout.blockSize + c.token) c.head c.dimension =
      layout.byteOffset c.kind c.block c.head c.token c.dimension

/-- One element as its users address it: the storage, and the kernels from the bases they are given.
`position` is any position of a sequence with the token's offset in its page. -/
structure PagedKVStorage.Agrees (storage : PagedKVStorage) (pool : PhysicalBlockPool)
    (c : PagedKVLayout.Coordinate) (address : ℕ) : Prop where
  offset : ∃ base n, storage.keyBase = .ok base ∧ address = base + n ∧
    storage.layout.byteOffset c.kind c.block c.head c.token c.dimension = .ok n
  element : ∀ handle, pool.id handle = .ok c.block →
    storage.elementAddress pool c.kind handle c.head c.token c.dimension = .ok address
  slot : storage.slotAddress c.kind (c.block * storage.layout.blockSize + c.token) c.head
    c.dimension = .ok address
  kernels : ∃ base, (if c.kind = .Key then storage.keyBase else storage.valueBase pool) = .ok base ∧
    (base + (writeIndex storage.layout.numKvHeads storage.layout.blockSize storage.layout.headSize
      (c.block * storage.layout.blockSize + c.token) c.head c.dimension).wrapped wordSize *
        copyElementBytes storage.layout.dtype = address) ∧
    ∀ position < wordSize, position % storage.layout.blockSize = c.token →
      base + (readIndex storage.layout.numKvHeads storage.layout.blockSize storage.layout.headSize
        c.block position c.head c.dimension).wrapped wordSize *
          copyElementBytes storage.layout.dtype = address ∧
      base + (attentionBase storage.layout.numKvHeads storage.layout.headSize
        storage.layout.blockSize c.block c.head position + c.dimension).wrapped wordSize *
          attentionElementBytes storage.layout.dtype = address

theorem PagedKVLayout.Valid.dense {layout : PagedKVLayout} (valid : layout.Valid) :
    layout.Dense := by
  refine ⟨valid.bijOn_byteOffset, ?_, ?_, ?_, ?_⟩
  · intro c hc n hn
    exact valid.key_iff_below hc hn
  · intro kind block hblock
    exact (valid.pageExpr_fits kind hblock).1
  · intro c hc page hpage
    rw [valid.pageByteOffset_eq c.kind hc.block] at hpage
    obtain rfl := Except.ok.inj hpage
    exact valid.offsetExpr_fits c.kind hc.block hc.head hc.token hc.dimension
  · intro c hc
    exact (valid.slotByteOffset_eq c.kind hc.block hc.token c.head c.dimension).2

theorem PagedKVStorage.Fits.agrees {storage : PagedKVStorage} {pool : PhysicalBlockPool} {here : ℕ}
    (hf : storage.Fits pool here) {c : PagedKVLayout.Coordinate} (hc : storage.layout.InRange c) :
    storage.Agrees pool c (storage.cellAddress c.kind c.block c.head c.token c.dimension) := by
  have hoffset := hf.valid.byteOffset_cell hc.block hc.head hc.token hc.dimension c.kind
  have hslot := hf.valid.slotByteOffset_eq c.kind hc.block hc.token c.head c.dimension
  have hbase := hf.keyBase_eq
  have haddress : storage.cellAddress c.kind c.block c.head c.token c.dimension =
      storage.regionBase .Key + (c.kind.toNat * storage.layout.cacheBytes +
        storage.layout.cell c.block c.head c.token c.dimension *
          storage.layout.elementBytes) := by
    simp [cellAddress, regionBase, add_assoc]
  refine ⟨⟨_, _, hbase, haddress, hoffset⟩, ?_, ?_, storage.regionBase c.kind, ?_, ?_, ?_⟩
  · intro handle hid
    simp only [elementAddress, hid, hoffset, hbase, bind, Except.bind, pure, Except.pure, haddress]
  · simp only [slotAddress, hslot.2, hoffset, hbase, bind, Except.bind, pure, Except.pure, haddress]
  · cases c.kind with
    | Key => exact hbase
    | Value => exact hf.valueBase_eq
  · rw [(hf.valid.writeIndex_eq hc.block hc.head hc.token hc.dimension rfl).2,
      hf.copyElementBytes_eq]
    rfl
  · intro position hlt hposition
    rw [(hf.valid.readIndex_eq hc.block hc.head hc.token hc.dimension hposition hlt).2,
      (hf.valid.attentionIndex_eq hc.block hc.head hc.token hc.dimension hposition hlt).2,
      hf.copyElementBytes_eq, hf.attentionElementBytes_eq]
    exact ⟨rfl, rfl⟩

/-- **Main result.** For every accepted layout, offsets are a dense numbering of the elements without
overflow; and on every storage with this layout the storage and the kernels address an element by
its offset. -/
theorem PagedKVLayout.addressing_exact {numBlocks numKvHeads blockSize headSize : ℕ} {dtype : DType}
    {layout : PagedKVLayout}
    (h : PagedKVLayout.make numBlocks numKvHeads blockSize headSize dtype = .ok layout) :
    layout.Dense ∧ ∀ here pool device cuda storage,
      PagedKVStorage.make here pool numKvHeads headSize dtype device cuda = .ok storage →
      storage.layout = layout → ∀ c, layout.InRange c → ∃ address, storage.Agrees pool c address := by
  refine ⟨(PagedKVLayout.make_ok h).1.dense, ?_⟩
  rintro here pool device cuda storage hstorage rfl c hc
  exact ⟨_, (PagedKVStorage.make_ok hstorage).agrees hc⟩

/-- Three pages of two heads, four tokens and five dimensions in 16-bit elements, and the last value
of the cache. -/
theorem PagedKVLayout.addressing_exact_small : ∃ layout storage address,
    PagedKVLayout.make 3 2 4 5 .Float16 = .ok layout ∧ layout.Dense ∧
      PagedKVStorage.make 1 (BlockManager.init 3 4) 2 5 .Float16 0 ⟨.ok 1, none, .ok 4096⟩ =
        .ok storage ∧
      storage.Agrees (BlockManager.init 3 4) ⟨.Value, 2, 1, 3, 4⟩ address :=
  have h : PagedKVLayout.make 3 2 4 5 .Float16 =
      .ok ⟨3, 2, 4, 5, .Float16, 2, 80, 240, 480, 12⟩ := by decide
  have hall := addressing_exact h
  have hagrees := hall.2 1 (BlockManager.init 3 4) 0 ⟨.ok 1, none, .ok 4096⟩ _ rfl rfl
    ⟨.Value, 2, 1, 3, 4⟩ ⟨by decide, by decide, by decide, by decide⟩
  ⟨_, _, hagrees.choose, h, hall.1, rfl, hagrees.choose_spec⟩

end KVFlux.V2
