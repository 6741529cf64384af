import KVFlux.V2.Addressing
import KVFlux.V2.Family

/-!
# Reading back what was written

* `flatIndex`: a thread index as a row, a head and a dimension.
* `writeBody_eq`, `readBody_eq`: what the two kernels do for one index; `write_apart`, `read_apart`:
  their threads do not interfere.
* **`writePagedKv_ok`**, **`readPagedKv_ok`**: what the calls leave in device memory.
* **`write_then_read`**: a read returns the rows that were written, and every other token as it was.
-/

namespace KVFlux.V2

open Fallible SizeArith Threads

/-! ## Thread indices -/

/-- The index of an element in a buffer of rows. -/
def flatIndex (heads headSize row head dimension : ℕ) : ℕ :=
  (row * heads + head) * headSize + dimension

section Index

variable {heads headSize row head dimension rows : ℕ}

theorem flatIndex_lt (hrow : row < rows) (hhead : head < heads) (hdim : dimension < headSize) :
    flatIndex heads headSize row head dimension < rows * heads * headSize := by
  have := RowMajor.index_lt (a := row) (n := rows) (.cons hhead (.cons hdim .nil)) hrow
  simpa [RowMajor.index, flatIndex, mul_assoc] using this

theorem exists_flatIndex {index : ℕ} (h : index < rows * heads * headSize) :
    ∃ row < rows, ∃ head < heads, ∃ dimension < headSize,
      index = flatIndex heads headSize row head dimension := by
  obtain ⟨row, hrow, ds, hds, rfl⟩ := RowMajor.exists_index [heads, headSize] (k := index)
    (n := rows) (by simpa [mul_assoc] using h)
  obtain _ | ⟨hhead, _ | ⟨hdim, _ | _⟩⟩ := hds
  exact ⟨row, hrow, _, hhead, _, hdim, rfl⟩

theorem flatIndex_inj {row' head' dimension' : ℕ} (hhead : head < heads)
    (hdim : dimension < headSize) (hhead' : head' < heads) (hdim' : dimension' < headSize)
    (h : flatIndex heads headSize row head dimension =
      flatIndex heads headSize row' head' dimension') :
    row = row' ∧ head = head' ∧ dimension = dimension' := by
  have hindex : RowMajor.index row [heads, headSize] [head, dimension] =
      RowMajor.index row' [heads, headSize] [head', dimension'] := by
    simpa [RowMajor.index, flatIndex] using h
  have := RowMajor.index_inj (.cons hhead (.cons hdim .nil)) (.cons hhead' (.cons hdim' .nil)) hindex
  simpa using this

variable (hhead : head < heads) (hdim : dimension < headSize)
  (hlt : flatIndex heads headSize row head dimension < wordSize)
include hhead hdim hlt

/-- The token of a thread index. -/
theorem tokenOfIndex_eq (hcells : heads * headSize < wordSize) :
    (tokenOfIndex heads headSize (flatIndex heads headSize row head dimension)).wrapped wordSize =
      row := by
  have hhs : 0 < headSize := by omega
  have hh : 0 < heads := by omega
  have hheads : heads < wordSize := (Nat.le_mul_of_pos_right heads hhs).trans_lt hcells
  have hsize : headSize < wordSize := (Nat.le_mul_of_pos_left headSize hh).trans_lt hcells
  have hfits : (tokenOfIndex heads headSize
      (flatIndex heads headSize row head dimension)).Fits wordSize :=
    ⟨hlt, ⟨hheads, hsize, hcells⟩, Nat.mul_pos hh hhs⟩
  rw [Expr.wrapped_eq hfits]
  show flatIndex heads headSize row head dimension / (heads * headSize) = row
  rw [Nat.mul_comm heads, ← Nat.div_div_eq_div_mul, flatIndex, RowMajor.split_quotient hdim,
    RowMajor.split_quotient hhead]

/-- The head of a thread index. -/
theorem headOfIndex_eq (hcells : heads * headSize < wordSize) :
    (headOfIndex heads headSize (flatIndex heads headSize row head dimension)).wrapped wordSize =
      head := by
  have hhs : 0 < headSize := by omega
  have hh : 0 < heads := by omega
  have hheads : heads < wordSize := (Nat.le_mul_of_pos_right heads hhs).trans_lt hcells
  have hsize : headSize < wordSize := (Nat.le_mul_of_pos_left headSize hh).trans_lt hcells
  have hfits : (headOfIndex heads headSize
      (flatIndex heads headSize row head dimension)).Fits wordSize :=
    ⟨⟨hlt, hsize, hhs⟩, hheads, hh⟩
  rw [Expr.wrapped_eq hfits]
  show flatIndex heads headSize row head dimension / headSize % heads = head
  rw [flatIndex, RowMajor.split_quotient hdim, RowMajor.split_last hhead]

/-- The dimension of a thread index. -/
theorem dimensionOfIndex_eq (hcells : heads * headSize < wordSize) :
    (dimensionOfIndex headSize (flatIndex heads headSize row head dimension)).wrapped wordSize =
      dimension := by
  have hhs : 0 < headSize := by omega
  have hh : 0 < heads := by omega
  have hsize : headSize < wordSize := (Nat.le_mul_of_pos_left headSize hh).trans_lt hcells
  have hfits : (dimensionOfIndex headSize
      (flatIndex heads headSize row head dimension)).Fits wordSize := ⟨hlt, hsize, hhs⟩
  rw [Expr.wrapped_eq hfits]
  exact RowMajor.split_last hdim

end Index

/-! ## One index of the kernels -/

section Body

variable {E F : Type} {storage : PagedKVStorage} {pool : PhysicalBlockPool} {here : ℕ}
  {layout : PagedKVLayout} {m : DeviceMemory E F} {row head dimension block token : ℕ}
  (eb keyNew valueNew keyOut valueOut keyCache valueCache : ℕ)

/-- A row has a machine word of elements. -/
theorem PagedKVLayout.Valid.row_lt (valid : layout.Valid) :
    layout.numKvHeads * layout.headSize < wordSize := by
  apply valid.prefix_lt (k := layout.numBlocks * layout.blockSize * layout.elementBytes)
  rw [valid.cacheBytes_eq]
  ring

section

variable (valid : layout.Valid) (hblock : block < layout.numBlocks) (hhead : head < layout.numKvHeads)
  (htoken : token < layout.blockSize) (hdim : dimension < layout.headSize)
  (hlt : flatIndex layout.numKvHeads layout.headSize row head dimension < wordSize)
include valid hblock hhead htoken hdim hlt

/-- The write kernel copies an element of each buffer to the slot of its row. -/
theorem writeBody_eq (hslot : m (.word 0 row) = block * layout.blockSize + token) :
    (writeBody layout.numKvHeads layout.blockSize layout.headSize eb keyNew valueNew keyCache
      valueCache (flatIndex layout.numKvHeads layout.headSize row head dimension)).loads m =
      [.word 0 row,
        .element (keyNew + flatIndex layout.numKvHeads layout.headSize row head dimension * eb),
        .element (valueNew + flatIndex layout.numKvHeads layout.headSize row head dimension * eb)] ∧
    (writeBody layout.numKvHeads layout.blockSize layout.headSize eb keyNew valueNew keyCache
      valueCache (flatIndex layout.numKvHeads layout.headSize row head dimension)).stores m =
      [⟨.element (keyCache + layout.cell block head token dimension * eb),
        m (.element
          (keyNew + flatIndex layout.numKvHeads layout.headSize row head dimension * eb))⟩,
        ⟨.element (valueCache + layout.cell block head token dimension * eb),
        m (.element
          (valueNew + flatIndex layout.numKvHeads layout.headSize row head dimension * eb))⟩] := by
  have hindex := (valid.writeIndex_eq hblock hhead htoken hdim rfl).2
  unfold writeBody
  rw [tokenOfIndex_eq hhead hdim hlt valid.row_lt, headOfIndex_eq hhead hdim hlt valid.row_lt,
    dimensionOfIndex_eq hhead hdim hlt valid.row_lt]
  simp [hslot, hindex]

/-- The read kernel copies the element of a token from its page to each buffer. -/
theorem readBody_eq {position : ℕ} (hrow : row = position)
    (hposition : position % layout.blockSize = token) (hword : position < wordSize)
    (hpage : m (.word 0 (position / layout.blockSize)) = block) :
    (readBody layout.numKvHeads layout.blockSize layout.headSize eb keyOut valueOut keyCache
      valueCache (flatIndex layout.numKvHeads layout.headSize row head dimension)).loads m =
      [.word 0 (position / layout.blockSize),
        .element (keyCache + layout.cell block head token dimension * eb),
        .element (valueCache + layout.cell block head token dimension * eb)] ∧
    (readBody layout.numKvHeads layout.blockSize layout.headSize eb keyOut valueOut keyCache
      valueCache (flatIndex layout.numKvHeads layout.headSize row head dimension)).stores m =
      [⟨.element (keyOut + flatIndex layout.numKvHeads layout.headSize row head dimension * eb),
        m (.element (keyCache + layout.cell block head token dimension * eb))⟩,
        ⟨.element (valueOut + flatIndex layout.numKvHeads layout.headSize row head dimension * eb),
        m (.element (valueCache + layout.cell block head token dimension * eb))⟩] := by
  subst hrow
  have hindex : (readIndex layout.numKvHeads layout.blockSize layout.headSize
      (m (.word 0 (row / layout.blockSize))) row head dimension).wrapped wordSize =
        layout.cell block head token dimension := by
    rw [hpage]
    exact (valid.readIndex_eq hblock hhead htoken hdim hposition hword).2
  unfold readBody
  rw [tokenOfIndex_eq hhead hdim hlt valid.row_lt, headOfIndex_eq hhead hdim hlt valid.row_lt,
    dimensionOfIndex_eq hhead hdim hlt valid.row_lt]
  simp only [Code.loads_bind, Code.loads_read, Code.loads_write, Code.stores_bind,
    Code.stores_read, Code.stores_write, Code.eval_read]
  rw [hindex]
  exact ⟨rfl, rfl⟩

end

end Body

/-! ## Writing -/

/-- The address of an element of a slot. -/
def PagedKVStorage.slotCell (storage : PagedKVStorage) (kind : KVKind) (slot head dimension : ℕ) :
    ℕ :=
  storage.cellAddress kind (slot / storage.layout.blockSize) head (slot % storage.layout.blockSize)
    dimension

/-- An array of `bytes` bytes at `address` lies outside the cache. -/
def PagedKVStorage.Outside (storage : PagedKVStorage) (address bytes : ℕ) : Prop :=
  ¬ overlaps address bytes (storage.regionBase .Key) storage.layout.totalBytes

instance (storage : PagedKVStorage) (address bytes : ℕ) :
    Decidable (storage.Outside address bytes) := by
  unfold PagedKVStorage.Outside; infer_instance

section Cells

variable {storage : PagedKVStorage} {pool : PhysicalBlockPool} {here : ℕ} {kind : KVKind}
  {slot head dimension : ℕ}

/-- A slot is a page and an offset. -/
theorem PagedKVLayout.Valid.slot_split {layout : PagedKVLayout} (valid : layout.Valid) {slot : ℕ}
    (h : slot < layout.slotCount) :
    slot / layout.blockSize < layout.numBlocks ∧ slot % layout.blockSize < layout.blockSize ∧
      slot = slot / layout.blockSize * layout.blockSize + slot % layout.blockSize := by
  rw [valid.slots] at h
  exact ⟨Nat.div_lt_of_lt_mul (by rwa [Nat.mul_comm]), Nat.mod_lt _ valid.block_pos,
    (Nat.div_add_mod' _ _).symm⟩

namespace PagedKVStorage.Fits

variable (hf : storage.Fits pool here)
include hf

/-- Elements of slots lie in the half of their kind. -/
theorem slotCell_lt (kind : KVKind) (hslot : slot < storage.layout.slotCount)
    (hhead : head < storage.layout.numKvHeads) (hdim : dimension < storage.layout.headSize) :
    ∃ n, storage.slotCell kind slot head dimension = storage.regionBase kind + n ∧
      n < storage.layout.cacheBytes := by
  obtain ⟨hblock, htoken, -⟩ := hf.valid.slot_split hslot
  exact ⟨_, rfl, hf.valid.cell_lt hblock hhead htoken hdim⟩

/-- An array outside the cache has no element of a slot. -/
theorem outside_ne {address bytes i : ℕ} (hout : storage.Outside address bytes) (hi : i < bytes)
    (hslot : slot < storage.layout.slotCount) (hhead : head < storage.layout.numKvHeads)
    (hdim : dimension < storage.layout.headSize) :
    address + i ≠ storage.slotCell kind slot head dimension := by
  obtain ⟨n, hn, hlt⟩ := hf.slotCell_lt kind hslot hhead hdim
  have htotal := hf.valid.total
  have hbase : storage.regionBase kind + n =
      storage.regionBase .Key + (kind.toNat * storage.layout.cacheBytes + n) := by
    simp [regionBase, add_assoc]
  rw [hn, hbase]
  apply ne_of_not_overlaps hout hi
  cases kind with
  | Key => rw [KVKind.toNat_key]; omega
  | Value => rw [KVKind.toNat_value]; omega

/-- Different elements of slots have different addresses. -/
theorem slotCell_inj {kind' : KVKind} {slot' head' dimension' : ℕ}
    (hslot : slot < storage.layout.slotCount) (hhead : head < storage.layout.numKvHeads)
    (hdim : dimension < storage.layout.headSize) (hslot' : slot' < storage.layout.slotCount)
    (hhead' : head' < storage.layout.numKvHeads) (hdim' : dimension' < storage.layout.headSize)
    (h : storage.slotCell kind slot head dimension =
      storage.slotCell kind' slot' head' dimension') :
    kind = kind' ∧ slot = slot' ∧ head = head' ∧ dimension = dimension' := by
  obtain ⟨n, hn, hlt⟩ := hf.slotCell_lt kind hslot hhead hdim
  obtain ⟨n', hn', hlt'⟩ := hf.slotCell_lt kind' hslot' hhead' hdim'
  obtain ⟨hblock, htoken, hsplit⟩ := hf.valid.slot_split hslot
  obtain ⟨hblock', htoken', hsplit'⟩ := hf.valid.slot_split hslot'
  have hkind : kind = kind' := by
    rw [hn, hn'] at h
    unfold regionBase at h
    apply KVKind.toNat_injective
    have := kind.toNat_lt
    have := kind'.toNat_lt
    by_contra hne
    have hcases : kind.toNat = 0 ∧ kind'.toNat = 1 ∨ kind.toNat = 1 ∧ kind'.toNat = 0 := by omega
    rcases hcases with ⟨h₀, h₁⟩ | ⟨h₁, h₀⟩ <;> rw [h₀, h₁] at h <;> omega
  subst hkind
  have hcell : storage.layout.cell (slot / storage.layout.blockSize) head
      (slot % storage.layout.blockSize) dimension =
        storage.layout.cell (slot' / storage.layout.blockSize) head'
          (slot' % storage.layout.blockSize) dimension' := by
    apply Nat.eq_of_mul_eq_mul_right hf.valid.element_pos
    unfold slotCell cellAddress at h
    omega
  obtain ⟨h₁, h₂, h₃, h₄⟩ := PagedKVLayout.Valid.cell_inj hhead htoken hdim hhead' htoken' hdim' hcell
  refine ⟨rfl, ?_, h₂, h₄⟩
  rw [hsplit, hsplit', h₁, h₃]

end PagedKVStorage.Fits

end Cells

/-- The slots of a write are in range and pairwise different. -/
theorem checkSlots_ok {slotCount : ℕ} {seen slots : List ℕ}
    (h : checkSlots slotCount seen slots = .ok ()) :
    slots.Nodup ∧ ∀ slot ∈ slots, slot < slotCount ∧ slot ∉ seen := by
  induction slots generalizing seen with
  | nil => exact ⟨.nil, fun slot hslot => by cases hslot⟩
  | cons slot slots ih =>
    unfold checkSlots at h
    split_ifs at h with hrange hseen
    obtain ⟨hnodup, hall⟩ := ih h
    refine ⟨.cons (fun hs => (hall slot hs).2 (List.mem_cons_self ..)) hnodup, fun s hs => ?_⟩
    rcases List.mem_cons.mp hs with rfl | hs
    · exact ⟨by omega, hseen⟩
    · exact ⟨(hall s hs).1, fun hmem => (hall s hs).2 (List.mem_cons_of_mem _ hmem)⟩

section Write

variable {E F : Type} {storage : PagedKVStorage} {pool : PhysicalBlockPool} {here : ℕ}
  {m m' : DeviceMemory E F} {slots : List ℕ} {cuda : Cuda}

/-- The elements of a batch of rows. -/
def PagedKVLayout.rowElements (layout : PagedKVLayout) (rows : ℕ) : ℕ :=
  rows * layout.numKvHeads * layout.headSize

/-- The write kernel of a batch. -/
abbrev writeKernel (E F : Type) (storage : PagedKVStorage) (keyNew valueNew : ℕ) :
    ℕ → KernelCode E F Unit :=
  writeBody storage.layout.numKvHeads storage.layout.blockSize storage.layout.headSize
    storage.layout.elementBytes keyNew valueNew (storage.regionBase .Key)
    (storage.regionBase .Value)

/-- The buffer of a kind. -/
def bufferOf (key value : ℕ) : KVKind → ℕ
  | .Key => key
  | .Value => value

/-- **One index of the write kernel**: both elements of a row go to its slot. -/
theorem write_index (hf : storage.Fits pool here) (keyNew valueNew : ℕ)
    (hrange : ∀ slot ∈ slots, slot < storage.layout.slotCount)
    (hfits : storage.layout.rowElements slots.length < wordSize) {i : ℕ}
    (hi : i < storage.layout.rowElements slots.length) :
    ∃ row slot head dimension, slots[row]? = some slot ∧ head < storage.layout.numKvHeads ∧
      dimension < storage.layout.headSize ∧
      i = flatIndex storage.layout.numKvHeads storage.layout.headSize row head dimension ∧
      (writeKernel E F storage keyNew valueNew i).loads (upload 0 slots m) =
        [.word 0 row, .element (keyNew + i * storage.layout.elementBytes),
          .element (valueNew + i * storage.layout.elementBytes)] ∧
      (writeKernel E F storage keyNew valueNew i).stores (upload 0 slots m) =
        [⟨.element (storage.slotCell .Key slot head dimension),
          m (.element (keyNew + i * storage.layout.elementBytes))⟩,
        ⟨.element (storage.slotCell .Value slot head dimension),
          m (.element (valueNew + i * storage.layout.elementBytes))⟩] := by
  obtain ⟨row, hrow, head, hhead, dimension, hdim, rfl⟩ := exists_flatIndex hi
  have hslot := List.getElem?_eq_getElem hrow
  obtain ⟨hblock, htoken, hsplit⟩ :=
    hf.valid.slot_split (hrange _ (List.getElem_mem hrow))
  have hword : upload 0 slots m (.word 0 row) =
      slots[row] / storage.layout.blockSize * storage.layout.blockSize +
        slots[row] % storage.layout.blockSize := by
    rw [upload_word, List.getD_eq_getElem _ _ hrow, ← hsplit]
  obtain ⟨hloads, hstores⟩ := writeBody_eq storage.layout.elementBytes keyNew valueNew
    (storage.regionBase .Key) (storage.regionBase .Value) hf.valid hblock hhead htoken hdim
    (hi.trans hfits) hword
  exact ⟨row, slots[row], head, dimension, hslot, hhead, hdim, rfl, hloads, hstores⟩

/-- The threads of a write do not interfere. -/
theorem write_apart (hf : storage.Fits pool here) {keyNew valueNew : ℕ} (hnodup : slots.Nodup)
    (hrange : ∀ slot ∈ slots, slot < storage.layout.slotCount)
    (hfits : storage.layout.rowElements slots.length < wordSize)
    (hkey : storage.Outside keyNew
      (storage.layout.rowElements slots.length * storage.layout.elementBytes))
    (hvalue : storage.Outside valueNew
      (storage.layout.rowElements slots.length * storage.layout.elementBytes)) :
    Grid.Apart (storage.layout.rowElements slots.length)
      (writeKernel E F storage keyNew valueNew) (upload 0 slots m) := by
  have hel := hf.valid.element_pos
  refine ⟨fun i hi => ?_, fun i hi j hj a ha hb => ?_, fun i hi j hj a ha hb => ?_⟩
  · obtain ⟨row, slot, head, dim, hslot, hhead, hdim, -, -, hstores⟩ :=
      write_index (m := m) hf keyNew valueNew hrange hfits hi
    have hlt := hrange slot (List.mem_of_getElem? hslot)
    simp only [Code.targets, hstores, List.map_cons, List.map_nil, List.nodup_cons,
      List.mem_singleton, Address.element.injEq]
    refine ⟨fun h => ?_, by simp⟩
    have := (hf.slotCell_inj hlt hhead hdim hlt hhead hdim h).1
    cases this
  · obtain ⟨row, slot, head, dim, hslot, hhead, hdim, rfl, -, hstores⟩ :=
      write_index (m := m) hf keyNew valueNew hrange hfits hi
    obtain ⟨row', slot', head', dim', hslot', hhead', hdim', rfl, -, hstores'⟩ :=
      write_index (m := m) hf keyNew valueNew hrange hfits hj
    have hlt := hrange slot (List.mem_of_getElem? hslot)
    have hlt' := hrange slot' (List.mem_of_getElem? hslot')
    simp only [Code.targets, hstores, List.map_cons, List.map_nil, List.mem_cons,
      List.not_mem_nil, or_false] at ha
    simp only [Code.targets, hstores', List.map_cons, List.map_nil, List.mem_cons,
      List.not_mem_nil, or_false] at hb
    have hsame : ∃ kind kind', storage.slotCell kind slot head dim =
        storage.slotCell kind' slot' head' dim' := by
      rcases ha with rfl | rfl <;> rcases hb with h | h <;> exact ⟨_, _, Address.element.inj h⟩
    obtain ⟨kind, kind', hsame⟩ := hsame
    obtain ⟨-, rfl, rfl, rfl⟩ := hf.slotCell_inj hlt hhead hdim hlt' hhead' hdim' hsame
    have hrow : row < slots.length := (List.getElem?_eq_some_iff.mp hslot).1
    have := (List.getElem?_inj hrow hnodup).mp (hslot.trans hslot'.symm)
    rw [this]
  · obtain ⟨row, slot, head, dim, hslot, hhead, hdim, -, -, hstores⟩ :=
      write_index (m := m) hf keyNew valueNew hrange hfits hi
    obtain ⟨row', -, -, -, -, -, -, -, hloads, -⟩ :=
      write_index (m := m) hf keyNew valueNew hrange hfits hj
    have hlt := hrange slot (List.mem_of_getElem? hslot)
    have hj' := Nat.mul_lt_mul_of_pos_right hj hel
    simp only [Code.targets, hstores, List.map_cons, List.map_nil, List.mem_cons,
      List.not_mem_nil, or_false] at ha
    rw [hloads] at hb
    simp only [List.mem_cons, List.not_mem_nil, or_false] at hb
    rcases ha with rfl | rfl <;> rcases hb with h | h | h
    · cases h
    · exact hf.outside_ne hkey hj' hlt hhead hdim (Address.element.inj h).symm
    · exact hf.outside_ne hvalue hj' hlt hhead hdim (Address.element.inj h).symm
    · cases h
    · exact hf.outside_ne hkey hj' hlt hhead hdim (Address.element.inj h).symm
    · exact hf.outside_ne hvalue hj' hlt hhead hdim (Address.element.inj h).symm

/-- What a write leaves: the rows are in their slots, and nothing else has changed. -/
structure Written (storage : PagedKVStorage) (keyNew valueNew : ℕ) (slots : List ℕ)
    (m m' : DeviceMemory E F) : Prop where
  nodup : slots.Nodup
  range : ∀ slot ∈ slots, slot < storage.layout.slotCount
  rows : ∀ kind row slot, slots[row]? = some slot → ∀ head < storage.layout.numKvHeads,
    ∀ dimension < storage.layout.headSize,
      m' (.element (storage.slotCell kind slot head dimension)) =
        m (.element (bufferOf keyNew valueNew kind +
          flatIndex storage.layout.numKvHeads storage.layout.headSize row head dimension *
            storage.layout.elementBytes))
  other : ∀ n, (∀ kind, ∀ slot ∈ slots, ∀ head < storage.layout.numKvHeads,
    ∀ dimension < storage.layout.headSize, n ≠ storage.slotCell kind slot head dimension) →
      m' (.element n) = m (.element n)
  float : ∀ n, m' (.float n) = m (.float n)

/-- The checks of a write, and the kernel it runs. -/
theorem writePagedKv_run (hf : storage.Fits pool here) {keyNew valueNew : ℕ} (hslots : slots ≠ [])
    (h : writePagedKv storage pool cuda (some keyNew) (some valueNew) slots m = .ok () m') :
    slots.Nodup ∧ (∀ slot ∈ slots, slot < storage.layout.slotCount) ∧
      storage.layout.rowElements slots.length * storage.layout.elementBytes ≤ sizeMax ∧
      runKernel cuda "paged KV write kernel launch" "paged KV write synchronize"
        (storage.layout.rowElements slots.length) (writeKernel E F storage keyNew valueNew)
        (upload 0 slots m) = .ok () m' := by
  unfold writePagedKv at h
  rw [if_neg hslots] at h
  obtain ⟨_, hcheck, h⟩ := check_bind_ok h
  obtain ⟨hnodup, hrange⟩ := checkSlots_ok hcheck
  obtain ⟨rows, hrows, h⟩ := check_bind_ok h
  obtain ⟨rfl, -⟩ := checkedMultiply_ok hrows hf.valid.heads_pos
  obtain ⟨total, htotal, h⟩ := check_bind_ok h
  obtain ⟨rfl, -⟩ := checkedMultiply_ok htotal hf.valid.head_pos
  obtain ⟨bytes, hbytes, h⟩ := check_bind_ok h
  obtain ⟨-, hle⟩ := checkedMultiply_ok hbytes hf.valid.element_pos
  obtain ⟨_, -, h⟩ := check_bind_ok h
  obtain ⟨_, -, h⟩ := check_bind_ok h
  obtain ⟨_, -, h⟩ := check_bind_ok h
  obtain ⟨_, -, h⟩ := check_bind_ok h
  obtain ⟨_, -, h⟩ := check_bind_ok h
  obtain ⟨_, -, h⟩ := check_bind_ok h
  rw [bind_of_ok (modify_apply _ m), hf.keyBase_eq, hf.valueBase_eq, hf.copyElementBytes_eq] at h
  exact ⟨hnodup, fun slot hs => (hrange slot hs).1, hle, h⟩

/-- An element is at least two bytes. -/
theorem PagedKVLayout.Valid.two_le {layout : PagedKVLayout} (valid : layout.Valid) :
    2 ≤ layout.elementBytes := by
  rw [valid.element]
  cases layout.dtype <;> decide

theorem rowElements_pos (hf : storage.Fits pool here) {rows : ℕ} (h : 0 < rows) :
    0 < storage.layout.rowElements rows :=
  Nat.mul_pos (Nat.mul_pos h hf.valid.heads_pos) hf.valid.head_pos

/-- **A write that returns** has put every row into its slot, whatever the order of the threads. -/
theorem writePagedKv_ok (hf : storage.Fits pool here) {keyNew valueNew : ℕ}
    (hkey : storage.Outside keyNew
      (storage.layout.rowElements slots.length * storage.layout.elementBytes))
    (hvalue : storage.Outside valueNew
      (storage.layout.rowElements slots.length * storage.layout.elementBytes))
    (h : writePagedKv storage pool cuda (some keyNew) (some valueNew) slots m = .ok () m') :
    Written storage keyNew valueNew slots m m' := by
  by_cases hslots : slots = []
  · subst hslots
    obtain rfl : m = m' := by
      cases h
      rfl
    exact ⟨.nil, fun _ h => (by cases h), fun _ _ _ h => (by cases h), fun _ _ => rfl, fun _ => rfl⟩
  obtain ⟨hnodup, hrange, hle, hrun⟩ := writePagedKv_run hf hslots h
  have hel := hf.valid.element_pos
  have hpos := rowElements_pos hf (List.length_pos_iff.mpr hslots)
  have htwo : storage.layout.rowElements slots.length * 2 ≤ sizeMax :=
    (Nat.mul_le_mul_left _ hf.valid.two_le).trans hle
  have hfits : storage.layout.rowElements slots.length < wordSize := by
    unfold wordSize
    omega
  obtain ⟨hstored, hother⟩ :=
    runKernel_ok hpos htwo (write_apart hf hnodup hrange hfits hkey hvalue) hrun
  refine ⟨hnodup, hrange, ?_, ?_, ?_⟩
  · intro kind row slot hslot head hhead dim hdim
    have hrow : row < slots.length := (List.getElem?_eq_some_iff.mp hslot).1
    have hi : flatIndex storage.layout.numKvHeads storage.layout.headSize row head dim <
        storage.layout.rowElements slots.length := flatIndex_lt hrow hhead hdim
    obtain ⟨row', slot', head', dim', hslot', hhead', hdim', heq, -, hstores⟩ :=
      write_index (m := m) hf keyNew valueNew hrange hfits hi
    obtain ⟨rfl, rfl, rfl⟩ := flatIndex_inj hhead hdim hhead' hdim' heq
    obtain rfl := Option.some.inj (hslot.symm.trans hslot')
    apply hstored _ hi
    rw [hstores]
    cases kind with
    | Key => exact List.mem_cons_self ..
    | Value => exact List.mem_cons_of_mem _ (List.mem_cons_self ..)
  · intro n hn
    apply hother
    intro i hi hmem
    obtain ⟨row, slot, head, dim, hslot, hhead, hdim, -, -, hstores⟩ :=
      write_index (m := m) hf keyNew valueNew hrange hfits hi
    have hslot := List.mem_of_getElem? hslot
    simp only [Code.targets, hstores, List.map_cons, List.map_nil, List.mem_cons,
      List.not_mem_nil, or_false, Address.element.injEq] at hmem
    rcases hmem with h | h
    · exact hn .Key slot hslot head hhead dim hdim h
    · exact hn .Value slot hslot head hhead dim hdim h
  · intro n
    apply hother
    intro i hi hmem
    obtain ⟨row, slot, head, dim, -, -, -, -, -, hstores⟩ :=
      write_index (m := m) hf keyNew valueNew hrange hfits hi
    simp [Code.targets, hstores] at hmem

end Write

/-! ## Reading -/

section Read

variable {E F : Type} {storage : PagedKVStorage} {pool : PhysicalBlockPool} {here : ℕ}
  {m m' : DeviceMemory E F} {s : SequenceState} {cuda : Cuda}

/-- The slot of a token lies on its page. -/
theorem PagedKVStorage.Fits.slotOf_split (hf : storage.Fits pool here) (hs : s.Resident pool) {t : ℕ}
    (ht : t < s.numTokens) :
    s.slotOf t < storage.layout.slotCount ∧
      s.pages.getD (t / storage.layout.blockSize) 0 < storage.layout.numBlocks ∧
      s.slotOf t / storage.layout.blockSize = s.pages.getD (t / storage.layout.blockSize) 0 ∧
      s.slotOf t % storage.layout.blockSize = t % storage.layout.blockSize := by
  have hsize : storage.layout.blockSize = s.blockSize := hf.blockSize.trans hs.blockSize.symm
  have hpage : s.pages.getD (t / s.blockSize) 0 < storage.layout.numBlocks := by
    rw [hf.blocks]
    exact hs.page_mem_lt (hs.page_lt ht)
  have hoffset := hs.offset_lt t
  have htoken : t % s.blockSize < storage.layout.blockSize := by
    rw [hsize]
    exact hoffset
  have hslot := (hf.valid.slotByteOffset_eq .Key hpage htoken 0 0).1
  rw [hsize] at hslot ⊢
  exact ⟨hslot, hpage, RowMajor.split_quotient hoffset, RowMajor.split_last hoffset⟩

/-- The read kernel of a sequence. -/
abbrev readKernel (E F : Type) (storage : PagedKVStorage) (keyOut valueOut : ℕ) :
    ℕ → KernelCode E F Unit :=
  readBody storage.layout.numKvHeads storage.layout.blockSize storage.layout.headSize
    storage.layout.elementBytes keyOut valueOut (storage.regionBase .Key)
    (storage.regionBase .Value)

/-- **One index of the read kernel**: both elements come from the slot of the token. -/
theorem read_index (hf : storage.Fits pool here) (hs : s.Resident pool) (keyOut valueOut : ℕ)
    (hfits : storage.layout.rowElements s.numTokens < wordSize) {i : ℕ}
    (hi : i < storage.layout.rowElements s.numTokens) :
    ∃ token head dimension, token < s.numTokens ∧ head < storage.layout.numKvHeads ∧
      dimension < storage.layout.headSize ∧
      i = flatIndex storage.layout.numKvHeads storage.layout.headSize token head dimension ∧
      (readKernel E F storage keyOut valueOut i).loads (upload 0 s.pages m) =
        [.word 0 (token / s.blockSize),
          .element (storage.slotCell .Key (s.slotOf token) head dimension),
          .element (storage.slotCell .Value (s.slotOf token) head dimension)] ∧
      (readKernel E F storage keyOut valueOut i).stores (upload 0 s.pages m) =
        [⟨.element (keyOut + i * storage.layout.elementBytes),
          m (.element (storage.slotCell .Key (s.slotOf token) head dimension))⟩,
        ⟨.element (valueOut + i * storage.layout.elementBytes),
          m (.element (storage.slotCell .Value (s.slotOf token) head dimension))⟩] := by
  obtain ⟨token, htoken, head, hhead, dimension, hdim, rfl⟩ := exists_flatIndex hi
  have hsize : storage.layout.blockSize = s.blockSize := hf.blockSize.trans hs.blockSize.symm
  obtain ⟨-, hpage, hblock, hoffset⟩ := hf.slotOf_split hs htoken
  have hword : token < wordSize := by
    have hrows : s.numTokens ≤ storage.layout.rowElements s.numTokens := by
      unfold PagedKVLayout.rowElements
      exact (Nat.le_mul_of_pos_right _ hf.valid.heads_pos).trans
        (Nat.le_mul_of_pos_right _ hf.valid.head_pos)
    omega
  have hread := readBody_eq (m := upload 0 s.pages m) storage.layout.elementBytes keyOut valueOut
    (storage.regionBase .Key) (storage.regionBase .Value) hf.valid hpage hhead
    (Nat.mod_lt _ hf.valid.block_pos) hdim (hi.trans hfits) rfl rfl hword
    (upload_word 0 s.pages m _)
  refine ⟨token, head, dimension, htoken, hhead, hdim, rfl, ?_, ?_⟩
  · unfold PagedKVStorage.slotCell
    rw [hblock, hoffset, ← hsize]
    exact hread.1
  · unfold PagedKVStorage.slotCell
    rw [hblock, hoffset]
    exact hread.2

/-- Buffers for the output of a read. -/
structure Buffers (storage : PagedKVStorage) (keyOut valueOut bytes : ℕ) : Prop where
  apart : ¬ overlaps keyOut bytes valueOut bytes
  key : storage.Outside keyOut bytes
  value : storage.Outside valueOut bytes

/-- Elements of different buffers, or different elements of one. -/
theorem Buffers.inj {keyOut valueOut bytes i j : ℕ} (hb : Buffers storage keyOut valueOut bytes)
    {kind kind' : KVKind} (hi : i < bytes) (hj : j < bytes)
    (h : bufferOf keyOut valueOut kind + i = bufferOf keyOut valueOut kind' + j) :
    kind = kind' ∧ i = j := by
  cases kind with
  | Key =>
    cases kind' with
    | Key => exact ⟨rfl, Nat.add_left_cancel h⟩
    | Value => exact absurd h (ne_of_not_overlaps hb.apart hi hj)
  | Value =>
    cases kind' with
    | Key => exact absurd h.symm (ne_of_not_overlaps hb.apart hj hi)
    | Value => exact ⟨rfl, Nat.add_left_cancel h⟩

theorem Buffers.outside {keyOut valueOut bytes : ℕ} (hb : Buffers storage keyOut valueOut bytes)
    (kind : KVKind) : storage.Outside (bufferOf keyOut valueOut kind) bytes := by
  cases kind with
  | Key => exact hb.key
  | Value => exact hb.value

/-- The cells that one index of the read kernel writes. -/
theorem read_targets (hf : storage.Fits pool here) (hs : s.Resident pool) (keyOut valueOut : ℕ)
    (hfits : storage.layout.rowElements s.numTokens < wordSize) {i : ℕ}
    (hi : i < storage.layout.rowElements s.numTokens) :
    (readKernel E F storage keyOut valueOut i).targets (upload 0 s.pages m) =
      [.element (bufferOf keyOut valueOut .Key + i * storage.layout.elementBytes),
        .element (bufferOf keyOut valueOut .Value + i * storage.layout.elementBytes)] := by
  obtain ⟨_, _, _, _, _, _, _, _, hstores⟩ := read_index (m := m) hf hs keyOut valueOut hfits hi
  simp only [Code.targets, hstores, List.map_cons, List.map_nil, bufferOf]

/-- The threads of a read do not interfere. -/
theorem read_apart (hf : storage.Fits pool here) (hs : s.Resident pool) {keyOut valueOut : ℕ}
    (hfits : storage.layout.rowElements s.numTokens < wordSize)
    (hb : Buffers storage keyOut valueOut
      (storage.layout.rowElements s.numTokens * storage.layout.elementBytes)) :
    Grid.Apart (storage.layout.rowElements s.numTokens)
      (readKernel E F storage keyOut valueOut) (upload 0 s.pages m) := by
  have hel := hf.valid.element_pos
  have hmem : ∀ i < storage.layout.rowElements s.numTokens, ∀ a,
      a ∈ (readKernel E F storage keyOut valueOut i).targets (upload 0 s.pages m) →
      ∃ kind, a = .element (bufferOf keyOut valueOut kind + i * storage.layout.elementBytes) := by
    intro i hi a ha
    rw [read_targets hf hs keyOut valueOut hfits hi] at ha
    simp only [List.mem_cons, List.not_mem_nil, or_false] at ha
    rcases ha with rfl | rfl <;> exact ⟨_, rfl⟩
  refine ⟨fun i hi => ?_, fun i hi j hj a ha hb' => ?_, fun i hi j hj a ha hload => ?_⟩
  · rw [read_targets hf hs keyOut valueOut hfits hi]
    have hi' := Nat.mul_lt_mul_of_pos_right hi hel
    simp only [List.nodup_cons, List.mem_singleton, Address.element.injEq]
    refine ⟨fun h => ?_, by simp⟩
    have := (hb.inj hi' hi' h).1
    cases this
  · obtain ⟨kind, rfl⟩ := hmem i hi a ha
    obtain ⟨kind', h⟩ := hmem j hj _ hb'
    have := (hb.inj (Nat.mul_lt_mul_of_pos_right hi hel) (Nat.mul_lt_mul_of_pos_right hj hel)
      (Address.element.inj h)).2
    exact Nat.eq_of_mul_eq_mul_right hel this
  · obtain ⟨kind, rfl⟩ := hmem i hi a ha
    obtain ⟨token, head, dim, htoken, hhead, hdim, -, hloads, -⟩ :=
      read_index (m := m) hf hs keyOut valueOut hfits hj
    have hslot := (hf.slotOf_split hs htoken).1
    rw [hloads] at hload
    simp only [List.mem_cons, List.not_mem_nil, or_false, reduceCtorEq, false_or] at hload
    rcases hload with h | h <;>
      exact hf.outside_ne (hb.outside kind) (Nat.mul_lt_mul_of_pos_right hi hel) hslot hhead hdim
        (Address.element.inj h)

/-- What a read leaves: the tokens of the sequence in order, and nothing else has changed. -/
structure Gathered (storage : PagedKVStorage) (s : SequenceState) (keyOut valueOut : ℕ)
    (m m' : DeviceMemory E F) : Prop where
  tokens : ∀ kind, ∀ token < s.numTokens, ∀ head < storage.layout.numKvHeads,
    ∀ dimension < storage.layout.headSize,
      m' (.element (bufferOf keyOut valueOut kind +
        flatIndex storage.layout.numKvHeads storage.layout.headSize token head dimension *
          storage.layout.elementBytes)) =
        m (.element (storage.slotCell kind (s.slotOf token) head dimension))
  other : ∀ n, (∀ kind, ∀ i < storage.layout.rowElements s.numTokens,
    n ≠ bufferOf keyOut valueOut kind + i * storage.layout.elementBytes) →
      m' (.element n) = m (.element n)
  float : ∀ n, m' (.float n) = m (.float n)
  /-- over all threads, every output element is written exactly once -/
  once : ∀ kind, ∀ i < storage.layout.rowElements s.numTokens,
    ((List.range (gridStride (storage.layout.rowElements s.numTokens))).flatMap fun t =>
      (Grid.kernel wordSize (storage.layout.rowElements s.numTokens)
        (gridStride (storage.layout.rowElements s.numTokens))
        (readKernel E F storage keyOut valueOut) t).targets (upload 0 s.pages m)).count
      (.element (bufferOf keyOut valueOut kind + i * storage.layout.elementBytes)) = 1

/-- The checks of a read, and the kernel it runs. -/
theorem readPagedKv_run (hf : storage.Fits pool here) (hs : s.Resident pool) {keyOut valueOut : ℕ}
    (ht : s.numTokens ≠ 0)
    (h : readPagedKv storage pool cuda s (some keyOut) (some valueOut) m = .ok () m') :
    storage.layout.rowElements s.numTokens * storage.layout.elementBytes ≤ sizeMax ∧
      Buffers storage keyOut valueOut
        (storage.layout.rowElements s.numTokens * storage.layout.elementBytes) ∧
      runKernel cuda "paged KV read kernel launch" "paged KV read synchronize"
        (storage.layout.rowElements s.numTokens) (readKernel E F storage keyOut valueOut)
        (upload 0 s.pages m) = .ok () m' := by
  unfold readPagedKv at h
  obtain ⟨-, h⟩ := ensure_bind_ok h
  obtain ⟨-, h⟩ := ensure_bind_ok h
  rw [if_neg ht] at h
  obtain ⟨blocks, hblocks, h⟩ := check_bind_ok h
  rw [buildReadBlockTable_eq hs] at hblocks
  obtain rfl := Except.ok.inj hblocks
  obtain ⟨-, h⟩ := ensure_bind_ok h
  obtain ⟨rows, hrows, h⟩ := check_bind_ok h
  obtain ⟨rfl, -⟩ := checkedMultiply_ok hrows hf.valid.heads_pos
  obtain ⟨total, htotal, h⟩ := check_bind_ok h
  obtain ⟨rfl, -⟩ := checkedMultiply_ok htotal hf.valid.head_pos
  obtain ⟨bytes, hbytes, h⟩ := check_bind_ok h
  obtain ⟨rfl, hle⟩ := checkedMultiply_ok hbytes hf.valid.element_pos
  obtain ⟨_, -, h⟩ := check_bind_ok h
  obtain ⟨_, -, h⟩ := check_bind_ok h
  obtain ⟨_, -, h⟩ := check_bind_ok h
  obtain ⟨_, -, h⟩ := check_bind_ok h
  obtain ⟨base, hbase, h⟩ := check_bind_ok h
  rw [hf.keyBase_eq] at hbase
  obtain rfl := Except.ok.inj hbase
  obtain ⟨hover, h⟩ := ensure_bind_ok h
  push Not at hover
  obtain ⟨_, -, h⟩ := check_bind_ok h
  obtain ⟨_, -, h⟩ := check_bind_ok h
  rw [bind_of_ok (modify_apply _ m), hf.valueBase_eq, hf.copyElementBytes_eq] at h
  exact ⟨hle, ⟨hover.1, hover.2.1, hover.2.2⟩, h⟩

/-- **A read that returns** has gathered the tokens of the sequence. -/
theorem readPagedKv_ok (hf : storage.Fits pool here) (hs : s.Resident pool) {keyOut valueOut : ℕ}
    (h : readPagedKv storage pool cuda s (some keyOut) (some valueOut) m = .ok () m') :
    Gathered storage s keyOut valueOut m m' := by
  by_cases ht : s.numTokens = 0
  · obtain rfl : m = m' := by
      unfold readPagedKv at h
      obtain ⟨-, h⟩ := ensure_bind_ok h
      obtain ⟨-, h⟩ := ensure_bind_ok h
      rw [if_pos ht] at h
      cases h
      rfl
    have hzero : storage.layout.rowElements s.numTokens = 0 := by
      simp [PagedKVLayout.rowElements, ht]
    refine ⟨fun _ t h => (by omega), fun _ _ => rfl, fun _ => rfl, fun _ i hi => (by omega)⟩
  obtain ⟨hle, hb, hrun⟩ := readPagedKv_run hf hs ht h
  have hpos := rowElements_pos hf (Nat.pos_of_ne_zero ht)
  have htwo : storage.layout.rowElements s.numTokens * 2 ≤ sizeMax :=
    (Nat.mul_le_mul_left _ hf.valid.two_le).trans hle
  have hfits : storage.layout.rowElements s.numTokens < wordSize := by
    unfold wordSize
    omega
  have happart := read_apart (E := E) (F := F) (m := m) hf hs hfits hb
  obtain ⟨hstored, hother⟩ := runKernel_ok hpos htwo happart hrun
  refine ⟨?_, ?_, ?_, ?_⟩
  · intro kind token htoken head hhead dim hdim
    have hi : flatIndex storage.layout.numKvHeads storage.layout.headSize token head dim <
        storage.layout.rowElements s.numTokens := flatIndex_lt htoken hhead hdim
    obtain ⟨token', head', dim', -, hhead', hdim', heq, -, hstores⟩ :=
      read_index (m := m) hf hs keyOut valueOut hfits hi
    obtain ⟨rfl, rfl, rfl⟩ := flatIndex_inj hhead hdim hhead' hdim' heq
    apply hstored _ hi
    rw [hstores]
    cases kind with
    | Key => exact List.mem_cons_self ..
    | Value => exact List.mem_cons_of_mem _ (List.mem_cons_self ..)
  · intro n hn
    apply hother
    intro i hi hmem
    rw [read_targets hf hs keyOut valueOut hfits hi] at hmem
    simp only [List.mem_cons, List.not_mem_nil, or_false, Address.element.injEq] at hmem
    rcases hmem with h | h
    · exact hn .Key i hi h
    · exact hn .Value i hi h
  · intro n
    apply hother
    intro i hi hmem
    simp [read_targets hf hs keyOut valueOut hfits hi] at hmem
  · intro kind i hi
    apply Grid.count_targets (gridStride_fits htwo) (gridStride_pos hpos) happart hi
    rw [read_targets hf hs keyOut valueOut hfits hi]
    cases kind with
    | Key => exact List.mem_cons_self ..
    | Value => exact List.mem_cons_of_mem _ (List.mem_cons_self ..)

end Read

/-! ## Round trips -/

section RoundTrip

variable {E F : Type} {storage : PagedKVStorage} {pool : PhysicalBlockPool} {here : ℕ}
  {m m' : DeviceMemory E F} {slots : List ℕ} {cuda : Cuda}

/-- A call on a healthy device: no CUDA call fails and the pointers are device memory. -/
structure Cuda.Healthy (cuda : Cuda) : Prop where
  guard : cuda.guard = none
  pointers : cuda.firstPointer = true ∧ cuda.secondPointer = true
  allocate : cuda.allocate = none ∧ cuda.allocateSecond = none
  upload : cuda.upload = none ∧ cuda.uploadSecond = none
  launch : cuda.launch = none
  synchronize : cuda.synchronize = none

namespace Cuda.Healthy

variable (hc : cuda.Healthy)
include hc

theorem deviceGuard_eq : deviceGuard cuda.guard = .ok () := by
  rw [hc.guard]
  rfl

theorem allocate_eq (text : String) : cudaCheck text cuda.allocate = .ok () := by
  rw [hc.allocate.1]
  rfl

theorem upload_eq (text : String) : cudaCheck text cuda.upload = .ok () := by
  rw [hc.upload.1]
  rfl

theorem allocateSecond_eq (text : String) : cudaCheck text cuda.allocateSecond = .ok () := by
  rw [hc.allocate.2]
  rfl

theorem uploadSecond_eq (text : String) : cudaCheck text cuda.uploadSecond = .ok () := by
  rw [hc.upload.2]
  rfl

theorem runKernel_returns (launchText waitText : String) (total : ℕ)
    (body : ℕ → KernelCode E F Unit) :
    ∃ m', runKernel cuda launchText waitText total body m = .ok () m' := by
  unfold runKernel
  rw [hc.launch, hc.synchronize]
  exact ⟨_, rfl⟩

end Cuda.Healthy

/-- The size of a batch of rows, as the calls compute it. -/
theorem PagedKVLayout.Valid.multiply_rows {layout : PagedKVLayout} (valid : layout.Valid)
    {rows : ℕ} (text : String) (h : layout.rowElements rows * layout.elementBytes ≤ sizeMax) :
    checkedMultiply text rows layout.numKvHeads = .ok (rows * layout.numKvHeads) ∧
      checkedMultiply text (rows * layout.numKvHeads) layout.headSize =
        .ok (layout.rowElements rows) ∧
      checkedMultiply text (layout.rowElements rows) layout.elementBytes =
        .ok (layout.rowElements rows * layout.elementBytes) := by
  have htotal : layout.rowElements rows ≤ sizeMax :=
    (Nat.le_mul_of_pos_right _ valid.element_pos).trans h
  have hrows : rows * layout.numKvHeads ≤ sizeMax :=
    (Nat.le_mul_of_pos_right _ valid.head_pos).trans htotal
  exact ⟨checkedMultiply_of_le hrows, checkedMultiply_of_le htotal, checkedMultiply_of_le h⟩

theorem checkSlots_returns {slotCount : ℕ} {seen : List ℕ} (hnodup : slots.Nodup)
    (hall : ∀ slot ∈ slots, slot < slotCount ∧ slot ∉ seen) :
    checkSlots slotCount seen slots = .ok () := by
  induction slots generalizing seen with
  | nil => rfl
  | cons slot slots ih =>
    obtain ⟨hnotin, hnodup⟩ := List.nodup_cons.mp hnodup
    obtain ⟨hlt, hseen⟩ := hall slot (List.mem_cons_self ..)
    unfold checkSlots
    rw [if_neg (by omega), if_neg hseen]
    apply ih hnodup
    intro s hs
    obtain ⟨hs', hs''⟩ := hall s (List.mem_cons_of_mem _ hs)
    refine ⟨hs', fun h => ?_⟩
    rcases List.mem_cons.mp h with rfl | h
    · exact hnotin hs
    · exact hs'' h

/-- **A write returns** on a healthy device when the slots are in range and pairwise different and
the sizes are machine words. -/
theorem writePagedKv_returns (hf : storage.Fits pool here) (hc : cuda.Healthy) (keyNew valueNew : ℕ)
    (hnodup : slots.Nodup) (hrange : ∀ slot ∈ slots, slot < storage.layout.slotCount)
    (hsize : storage.layout.rowElements slots.length * storage.layout.elementBytes ≤ sizeMax)
    (hslots : slots.length * 8 ≤ sizeMax) :
    ∃ m', writePagedKv storage pool cuda (some keyNew) (some valueNew) slots m = .ok () m' := by
  unfold writePagedKv
  split_ifs with hempty
  · exact ⟨m, rfl⟩
  have hcheck : checkSlots storage.layout.slotCount [] slots = .ok () :=
    checkSlots_returns hnodup fun slot hs => ⟨hrange slot hs, List.not_mem_nil⟩
  obtain ⟨hrows, htotal, hbytes⟩ :=
    hf.valid.multiply_rows "paged KV write size overflow" hsize
  have hfirst : validateDevicePointer cuda.firstPointer "K_new" = .ok () := if_pos hc.pointers.1
  have hsecond : validateDevicePointer cuda.secondPointer "V_new" = .ok () := if_pos hc.pointers.2
  dsimp only
  rw [bind_of_check hcheck, bind_of_check hrows, bind_of_check htotal, bind_of_check hbytes,
    bind_of_check (checkedMultiply_of_le hslots), bind_of_check hc.deviceGuard_eq,
    bind_of_check hfirst, bind_of_check hsecond, bind_of_check (hc.allocate_eq _),
    bind_of_check (hc.upload_eq _), bind_of_ok (modify_apply _ m), bind_of_check hf.keyBase_eq,
    bind_of_check hf.valueBase_eq]
  exact hc.runKernel_returns _ _ _ _

/-- **A read returns** on a healthy device when its buffers overlap neither each other nor the
cache and the sizes are machine words. -/
theorem readPagedKv_returns {s : SequenceState} (hf : storage.Fits pool here) (hs : s.Resident pool)
    (hpool : s.blockTable.pool = some storage.pool) (hc : cuda.Healthy) {keyOut valueOut : ℕ}
    (hb : Buffers storage keyOut valueOut
      (storage.layout.rowElements s.numTokens * storage.layout.elementBytes))
    (hsize : storage.layout.rowElements s.numTokens * storage.layout.elementBytes ≤ sizeMax)
    (hpages : s.pages.length * 8 ≤ sizeMax) :
    ∃ m', readPagedKv storage pool cuda s (some keyOut) (some valueOut) m = .ok () m' := by
  unfold readPagedKv
  have hblock : s.blockSize = storage.layout.blockSize := hs.blockSize.trans hf.blockSize.symm
  rw [bind_of_ok (ensure_apply hpool), bind_of_ok (ensure_apply hblock)]
  split_ifs with ht
  · exact ⟨m, rfl⟩
  have hrange : ∀ block ∈ s.pages, ¬ block ≥ storage.layout.numBlocks := by
    intro block hmem
    obtain ⟨h, hh, rfl⟩ := List.mem_map.mp hmem
    rw [hf.blocks]
    exact not_le.mpr (hs.id_lt h hh)
  obtain ⟨hrows, htotal, hbytes⟩ := hf.valid.multiply_rows "paged KV read size overflow" hsize
  have hfirst : validateDevicePointer cuda.firstPointer "K_out" = .ok () := if_pos hc.pointers.1
  have hsecond : validateDevicePointer cuda.secondPointer "V_out" = .ok () := if_pos hc.pointers.2
  dsimp only
  rw [bind_of_check (buildReadBlockTable_eq hs), bind_of_ok (ensure_apply hrange),
    bind_of_check hrows, bind_of_check htotal, bind_of_check hbytes,
    bind_of_check (checkedMultiply_of_le hpages), bind_of_check hc.deviceGuard_eq,
    bind_of_check hfirst, bind_of_check hsecond, bind_of_check hf.keyBase_eq,
    bind_of_ok (ensure_apply (by push Not; exact ⟨hb.apart, hb.key, hb.value⟩)),
    bind_of_check (hc.allocate_eq _), bind_of_check (hc.upload_eq _),
    bind_of_ok (modify_apply _ m), bind_of_check hf.valueBase_eq]
  exact hc.runKernel_returns _ _ _ _

/-- An address of the keys or the values, on the element grid. -/
def PagedKVStorage.InRegion (storage : PagedKVStorage) (n : ℕ) : Prop :=
  ∃ kind k, n = storage.regionBase kind + k * storage.layout.elementBytes ∧
    k * storage.layout.elementBytes < storage.layout.cacheBytes

theorem PagedKVStorage.Fits.inRegion (hf : storage.Fits pool here) {kind : KVKind}
    {slot head dimension : ℕ} (hslot : slot < storage.layout.slotCount)
    (hhead : head < storage.layout.numKvHeads) (hdim : dimension < storage.layout.headSize) :
    storage.InRegion (storage.slotCell kind slot head dimension) := by
  obtain ⟨hblock, htoken, -⟩ := hf.valid.slot_split hslot
  exact ⟨kind, _, rfl, hf.valid.cell_lt hblock hhead htoken hdim⟩

/-- A write of a batch followed by reads of the sequences. -/
structure RoundTrip (storage : PagedKVStorage) (pool : PhysicalBlockPool)
    (sequences : List SequenceState) (keyNew valueNew : ℕ) (batch : List TokenWrite)
    (slots : List ℕ) (m m' : DeviceMemory E F) : Prop where
  /-- the slots are those of the tokens of the batch, row by row -/
  mapping : List.Forall₂ (fun (write : TokenWrite) slot => ∃ s ∈ sequences,
    write.sequence = some s ∧ write.tokenPosition < s.numTokens ∧
      slot = s.slotOf write.tokenPosition) batch slots
  written : Written storage keyNew valueNew slots m m'
  /-- every element that the write kernel stores lies in the keys or the values -/
  writeInside : ∀ i < storage.layout.rowElements slots.length,
    ∀ a ∈ (writeKernel E F storage keyNew valueNew i).targets (upload 0 slots m),
      ∃ n, a = .element n ∧ storage.InRegion n
  /-- a read into free buffers returns on a healthy device -/
  returns : ∀ s ∈ sequences, s.blockTable.pool = some storage.pool → ∀ cuda : Cuda, cuda.Healthy →
    ∀ keyOut valueOut, Buffers storage keyOut valueOut
      (storage.layout.rowElements s.numTokens * storage.layout.elementBytes) →
    storage.layout.rowElements s.numTokens * storage.layout.elementBytes ≤ sizeMax →
    s.pages.length * 8 ≤ sizeMax →
    ∃ m'', readPagedKv storage pool cuda s (some keyOut) (some valueOut) m' = .ok () m''
  /-- every read of a sequence gathers its tokens, from within the keys and the values -/
  read : ∀ s ∈ sequences, ∀ cuda keyOut valueOut m'',
    readPagedKv storage pool cuda s (some keyOut) (some valueOut) m' = .ok () m'' →
      Gathered storage s keyOut valueOut m' m'' ∧
      ∀ i < storage.layout.rowElements s.numTokens,
        ∀ a ∈ (readKernel E F storage keyOut valueOut i).loads (upload 0 s.pages m'),
          (∃ j < s.pages.length, a = .word 0 j) ∨ ∃ n, a = .element n ∧ storage.InRegion n
  /-- a token in a written slot reads as the row of its slot -/
  fresh : ∀ s ∈ sequences, ∀ cuda keyOut valueOut m'',
    readPagedKv storage pool cuda s (some keyOut) (some valueOut) m' = .ok () m'' →
    ∀ kind, ∀ token < s.numTokens, ∀ head < storage.layout.numKvHeads,
    ∀ dimension < storage.layout.headSize, ∀ row, slots[row]? = some (s.slotOf token) →
      m'' (.element (bufferOf keyOut valueOut kind + flatIndex storage.layout.numKvHeads
          storage.layout.headSize token head dimension * storage.layout.elementBytes)) =
        m (.element (bufferOf keyNew valueNew kind + flatIndex storage.layout.numKvHeads
          storage.layout.headSize row head dimension * storage.layout.elementBytes))
  /-- any other token reads as it did before the write -/
  kept : ∀ s ∈ sequences, ∀ cuda keyOut valueOut m'',
    readPagedKv storage pool cuda s (some keyOut) (some valueOut) m' = .ok () m'' →
    ∀ cuda₀ keyOut₀ valueOut₀ m₀,
    readPagedKv storage pool cuda₀ s (some keyOut₀) (some valueOut₀) m = .ok () m₀ →
    ∀ kind, ∀ token < s.numTokens, ∀ head < storage.layout.numKvHeads,
    ∀ dimension < storage.layout.headSize, s.slotOf token ∉ slots →
      m'' (.element (bufferOf keyOut valueOut kind + flatIndex storage.layout.numKvHeads
          storage.layout.headSize token head dimension * storage.layout.elementBytes)) =
        m₀ (.element (bufferOf keyOut₀ valueOut₀ kind + flatIndex storage.layout.numKvHeads
          storage.layout.headSize token head dimension * storage.layout.elementBytes))

/-- Every sequence of a family is resident. -/
theorem Family.Intact.resident {H : Tokens → UInt64} {frame : Multiset BlockHandle} {f : Family}
    {s : SequenceState} (hf : Family.Intact H here frame f) (hs : s ∈ f.sequences) :
    s.Resident f.pool := by
  have hp := hf.proper s hs
  have hheld : ∀ h ∈ s.blockTable.blocks, h ∈ Family.tables f.sequences + f.others + frame :=
    fun h hh => Multiset.mem_add.mpr (.inl (Multiset.mem_add.mpr (.inl (Family.mem_tables hs hh))))
  refine ⟨hp.blockSize, ?_, hp.covered, fun h hh => ?_, fun h hh => ?_⟩
  · rw [hp.blockSize]
    exact hf.blockSize_pos
  · exact hf.sound.id_eq (hheld h hh)
  · exact (hf.sound.owned.valid h (hheld h hh)).1

variable {sequences : List SequenceState} {batch : List TokenWrite} {keyNew valueNew : ℕ}

/-- The slot of every row is the slot of a token of some sequence. -/
theorem mapping_of_resident (hr : ∀ s ∈ sequences, s.Resident pool)
    (hbatch : ∀ write ∈ batch, ∃ s ∈ sequences, write.sequence = some s)
    (h : buildSlotMapping pool batch = .ok slots) :
    List.Forall₂ (fun (write : TokenWrite) slot => ∃ s ∈ sequences,
      write.sequence = some s ∧ write.tokenPosition < s.numTokens ∧
        slot = s.slotOf write.tokenPosition) batch slots := by
  have hall := buildSlotMapping_ok h
  clear h
  induction hall with
  | nil => exact .nil
  | cons hrow _ ih =>
    refine .cons ?_ (ih fun write hw => hbatch write (List.mem_cons_of_mem _ hw))
    obtain ⟨s, hs, hwrite⟩ := hbatch _ (List.mem_cons_self ..)
    obtain ⟨s', hwrite', hslot⟩ := hrow
    obtain rfl := Option.some.inj (hwrite.symm.trans hwrite')
    obtain ⟨hlt, rfl⟩ := hslot (hr s hs)
    exact ⟨s, hs, hwrite, hlt, rfl⟩

/-- The slots of tokens of resident sequences are slots of the storage. -/
theorem mapping_range (hf : storage.Fits pool here) (hr : ∀ s ∈ sequences, s.Resident pool)
    (h : List.Forall₂ (fun (write : TokenWrite) slot => ∃ s ∈ sequences,
      write.sequence = some s ∧ write.tokenPosition < s.numTokens ∧
        slot = s.slotOf write.tokenPosition) batch slots) :
    ∀ slot ∈ slots, slot < storage.layout.slotCount := by
  induction h with
  | nil => exact fun slot hslot => (by cases hslot)
  | cons hrow _ ih =>
    intro slot hslot
    rcases List.mem_cons.mp hslot with rfl | hslot
    · obtain ⟨s, hs, -, hlt, rfl⟩ := hrow
      exact (hf.slotOf_split (hr s hs) hlt).1
    · exact ih slot hslot

/-- Every element that the write kernel stores lies in the keys or the values. -/
theorem write_inside (hf : storage.Fits pool here)
    (hrange : ∀ slot ∈ slots, slot < storage.layout.slotCount)
    (hfits : storage.layout.rowElements slots.length < wordSize) {i : ℕ}
    (hi : i < storage.layout.rowElements slots.length) {a : Address}
    (ha : a ∈ (writeKernel E F storage keyNew valueNew i).targets (upload 0 slots m)) :
    ∃ n, a = .element n ∧ storage.InRegion n := by
  obtain ⟨row, slot, head, dim, hslot, hhead, hdim, -, -, hstores⟩ :=
    write_index (m := m) hf keyNew valueNew hrange hfits hi
  have hlt := hrange slot (List.mem_of_getElem? hslot)
  simp only [Code.targets, hstores, List.map_cons, List.map_nil, List.mem_cons, List.not_mem_nil,
    or_false] at ha
  rcases ha with rfl | rfl
  · exact ⟨_, rfl, hf.inRegion hlt hhead hdim⟩
  · exact ⟨_, rfl, hf.inRegion hlt hhead hdim⟩

/-- The read kernel loads the page numbers of the sequence and elements of the keys and values. -/
theorem read_inside {s : SequenceState} (hf : storage.Fits pool here) (hs : s.Resident pool)
    {keyOut valueOut : ℕ} (hfits : storage.layout.rowElements s.numTokens < wordSize) {i : ℕ}
    (hi : i < storage.layout.rowElements s.numTokens) {a : Address}
    (ha : a ∈ (readKernel E F storage keyOut valueOut i).loads (upload 0 s.pages m)) :
    (∃ j < s.pages.length, a = .word 0 j) ∨ ∃ n, a = .element n ∧ storage.InRegion n := by
  obtain ⟨token, head, dim, htoken, hhead, hdim, -, hloads, -⟩ :=
    read_index (m := m) hf hs keyOut valueOut hfits hi
  have hslot := (hf.slotOf_split hs htoken).1
  rw [hloads] at ha
  simp only [List.mem_cons, List.not_mem_nil, or_false] at ha
  rcases ha with rfl | rfl | rfl
  · exact .inl ⟨_, hs.page_lt htoken, rfl⟩
  · exact .inr ⟨_, rfl, hf.inRegion hslot hhead hdim⟩
  · exact .inr ⟨_, rfl, hf.inRegion hslot hhead hdim⟩

/-- A batch whose bytes are a machine word has a machine word of elements. -/
theorem rowElements_lt (hf : storage.Fits pool here) {rows : ℕ}
    (h : storage.layout.rowElements rows * storage.layout.elementBytes ≤ sizeMax) :
    storage.layout.rowElements rows < wordSize :=
  Nat.lt_succ_of_le ((Nat.le_mul_of_pos_right _ hf.valid.element_pos).trans h)

/-- **Reading after a write**, for sequences that are resident. -/
theorem roundTrip_of_resident (hf : storage.Fits pool here) (hr : ∀ s ∈ sequences, s.Resident pool)
    (hbatch : ∀ write ∈ batch, ∃ s ∈ sequences, write.sequence = some s)
    (hslots : buildSlotMapping pool batch = .ok slots)
    (hkey : storage.Outside keyNew
      (storage.layout.rowElements slots.length * storage.layout.elementBytes))
    (hvalue : storage.Outside valueNew
      (storage.layout.rowElements slots.length * storage.layout.elementBytes))
    (h : writePagedKv storage pool cuda (some keyNew) (some valueNew) slots m = .ok () m') :
    RoundTrip storage pool sequences keyNew valueNew batch slots m m' := by
  have hw := writePagedKv_ok hf hkey hvalue h
  refine ⟨mapping_of_resident hr hbatch hslots, hw, fun i hi a ha => ?_, ?_, ?_, ?_, ?_⟩
  · have hne : slots ≠ [] := by
      rintro rfl
      simp [PagedKVLayout.rowElements] at hi
    have hle := (writePagedKv_run hf hne h).2.2.1
    exact write_inside hf hw.range (rowElements_lt hf hle) hi ha
  · intro s hs hpool cuda hc keyOut valueOut hb hsize hpages
    exact readPagedKv_returns hf (hr s hs) hpool hc hb hsize hpages
  · intro s hs cuda keyOut valueOut m'' hread
    refine ⟨readPagedKv_ok hf (hr s hs) hread, fun i hi a ha => ?_⟩
    have ht : s.numTokens ≠ 0 := by
      intro hzero
      simp [PagedKVLayout.rowElements, hzero] at hi
    have hle := (readPagedKv_run hf (hr s hs) ht hread).1
    exact read_inside hf (hr s hs) (rowElements_lt hf hle) hi ha
  · intro s hs cuda keyOut valueOut m'' hread kind token htoken head hhead dim hdim row hrow
    have hg := readPagedKv_ok hf (hr s hs) hread
    exact (hg.tokens kind token htoken head hhead dim hdim).trans
      (hw.rows kind row _ hrow head hhead dim hdim)
  · intro s hs cuda keyOut valueOut m'' hread cuda₀ keyOut₀ valueOut₀ m₀ hread₀ kind token htoken
      head hhead dim hdim hnew
    have hg := readPagedKv_ok hf (hr s hs) hread
    have hg₀ := readPagedKv_ok hf (hr s hs) hread₀
    have hkept : m' (.element (storage.slotCell kind (s.slotOf token) head dim)) =
        m (.element (storage.slotCell kind (s.slotOf token) head dim)) := by
      apply hw.other
      intro kind' slot hslot head' hhead' dim' hdim' heq
      have hlt := (hf.slotOf_split (hr s hs) htoken).1
      obtain ⟨-, rfl, -, -⟩ :=
        hf.slotCell_inj hlt hhead hdim (hw.range slot hslot) hhead' hdim' heq
      exact hnew hslot
    rw [hg.tokens kind token htoken head hhead dim hdim, hkept,
      hg₀.tokens kind token htoken head hhead dim hdim]

/-- **Main result.** A batch whose slots are pairwise different is written, on a healthy device, and
whenever a write returns, reads of the sequences give back its rows and leave every other token as
it was, whatever the order in which the threads of the kernels run. -/
theorem write_then_read {H : Tokens → UInt64} {f : Family} {numKvHeads headSize : ℕ} {dtype : DType}
    {device : ℤ} {allocation : GpuMemoryPool.Allocation}
    (hreachable : Transition.Reachable (Family.step here) (Family.Start H) (Family.Allowed H) f)
    (hstorage : PagedKVStorage.make here f.pool numKvHeads headSize dtype device allocation =
      .ok storage)
    (hbatch : ∀ write ∈ batch, ∃ s ∈ f.sequences, write.sequence = some s)
    (hslots : buildSlotMapping f.pool batch = .ok slots)
    (hkey : storage.Outside keyNew
      (storage.layout.rowElements slots.length * storage.layout.elementBytes))
    (hvalue : storage.Outside valueNew
      (storage.layout.rowElements slots.length * storage.layout.elementBytes)) :
    (∀ (m : DeviceMemory E F) cuda, cuda.Healthy → slots.Nodup →
      storage.layout.rowElements slots.length * storage.layout.elementBytes ≤ sizeMax →
      slots.length * 8 ≤ sizeMax →
      ∃ m', writePagedKv storage f.pool cuda (some keyNew) (some valueNew) slots m = .ok () m') ∧
    ∀ (m m' : DeviceMemory E F) cuda,
      writePagedKv storage f.pool cuda (some keyNew) (some valueNew) slots m = .ok () m' →
        RoundTrip storage f.pool f.sequences keyNew valueNew batch slots m m' := by
  have hintact := Family.intact_of_reachable hreachable
  have hr : ∀ s ∈ f.sequences, s.Resident f.pool := fun s hs => hintact.resident hs
  have hf := PagedKVStorage.make_ok hstorage
  refine ⟨fun m cuda hc hnodup hsize hwords => ?_, fun m m' cuda h => ?_⟩
  · have hrange := mapping_range hf hr (mapping_of_resident hr hbatch hslots)
    exact writePagedKv_returns hf hc keyNew valueNew hnodup hrange hsize hwords
  · exact roundTrip_of_resident hf hr hbatch hslots hkey hvalue h

/-- Tokens of two sequences in mixed order. -/
def mixedBatch (f : Family) : List TokenWrite :=
  [⟨f.sequences[1]?, 1⟩, ⟨f.sequences[0]?, 2⟩, ⟨f.sequences[0]?, 0⟩]

theorem mixedBatch_mem {f : Family} (h : f.sequences.length = 2) :
    ∀ write ∈ mixedBatch f, ∃ s ∈ f.sequences, write.sequence = some s := by
  have hget : ∀ i < 2, ∃ s ∈ f.sequences, f.sequences[i]? = some s := fun i hi =>
    ⟨_, List.getElem_mem (h ▸ hi), List.getElem?_eq_getElem (h ▸ hi)⟩
  intro write hw
  simp only [mixedBatch, List.mem_cons, List.not_mem_nil, or_false] at hw
  rcases hw with rfl | rfl | rfl
  · exact hget 1 (by decide)
  · exact hget 0 (by decide)
  · exact hget 0 (by decide)

/-- The batch is written with rows of two heads and three dimensions. -/
theorem write_then_read_mixed : ∃ (f : Family) (storage : PagedKVStorage),
    f.sequences.map SequenceState.numTokens = [3, 2] ∧
    storage.layout.numKvHeads = 2 ∧ storage.layout.headSize = 3 ∧
    ∀ m : DeviceMemory ℕ ℕ, ∃ m',
      RoundTrip storage f.pool f.sequences 0 128 (mixedBatch f) [5, 2, 0] m m' := by
  have hcheck : (Transition.run (Family.step 7) [.create 1, .create 2,
        .appendTokens 0 3 fun _ => none, .appendTokens 1 2 fun _ => none]
      (⟨BlockManager.init 4 2, [], 0⟩ : Family)).any (fun f => decide (
        buildSlotMapping f.pool (mixedBatch f) = .ok [5, 2, 0] ∧
        f.sequences.map SequenceState.numTokens = [3, 2] ∧
        f.pool.capacity = 4 ∧ f.pool.blockSize = 2)) = true := by
    decide +kernel
  obtain ⟨f, hrun, hf⟩ := (Option.any_eq_true _ _).mp hcheck
  obtain ⟨hslots, htokens, hcapacity, hsize⟩ := of_decide_eq_true hf
  have hlength : f.sequences.length = 2 := by
    rw [← List.length_map SequenceState.numTokens, htokens]
    rfl
  have hreachable := (Family.reachable_init (by decide) (by decide)).run
    (fun a ha s => by fin_cases ha <;> exact trivial) hrun
  obtain ⟨storage, hmake, hshape, hkey, hvalue, hsmall⟩ : ∃ storage,
      PagedKVStorage.make 7 (BlockManager.init 4 2) 2 3 .Float32 0 ⟨.ok 1, none, .ok 4096⟩ =
        .ok storage ∧
      (storage.layout.numKvHeads = 2 ∧ storage.layout.headSize = 3) ∧
      storage.Outside 0 (storage.layout.rowElements 3 * storage.layout.elementBytes) ∧
      storage.Outside 128 (storage.layout.rowElements 3 * storage.layout.elementBytes) ∧
      storage.layout.rowElements 3 * storage.layout.elementBytes ≤ sizeMax :=
    ⟨_, rfl, by decide +kernel, by decide +kernel, by decide +kernel, by decide +kernel⟩
  have hstorage : PagedKVStorage.make 7 f.pool 2 3 .Float32 0 ⟨.ok 1, none, .ok 4096⟩ =
      .ok storage :=
    (PagedKVStorage.make_congr hcapacity hsize ..).trans hmake
  refine ⟨f, storage, htokens, hshape.1, hshape.2, fun m => ?_⟩
  obtain ⟨hreturns, hround⟩ := write_then_read (E := ℕ) (F := ℕ) hreachable hstorage
    (mixedBatch_mem hlength) hslots hkey hvalue
  obtain ⟨m', h⟩ := hreturns m {} ⟨rfl, ⟨rfl, rfl⟩, ⟨rfl, rfl⟩, ⟨rfl, rfl⟩, rfl, rfl⟩
    (by decide) hsmall (by decide)
  exact ⟨m', hround m m' _ h⟩

end RoundTrip

end KVFlux.V2
