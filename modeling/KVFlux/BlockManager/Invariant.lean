import KVFlux.BlockManager.Model

/-!
# The representation invariant of the block manager

`Inv H m free idle` says that the free list threads exactly the free slots in the order `free`,
the LRU list exactly the idle slots in the order `idle`, and that the index holds exactly the
cached slots, each in the bucket of its prefix. It is stated in three parts: `ListInv`, `SlotOk`
for each slot, and `IndexInv`.

* `Shape`: the part of it that holds whatever the hasher returns; `Keyed`: the part that needs a
  hasher that is a function of the prefix. `inv_iff` puts them together.
* `inv_init`: the constructor establishes it.
* **`Shape.takeFree`**, **`Shape.evict`**, **`Shape.retained`**, **`Shape.released`**,
  **`Shape.published`**: the pieces that the calls are made of keep the shape.
* **`Inv.takeFree`**, …: they keep the whole invariant.
-/

namespace KVFlux.BlockManager

open Fallible Threaded

/-- Where the hasher returns, it returns a function of the prefix. -/
def Agrees (H : Tokens → UInt64) (hasher : Hasher) : Prop := ∀ p h, hasher p = .ok h → h = H p

/-- The bucket of a hash, empty if there is none. -/
def bucket (m : BlockManager) (h : UInt64) : List ℕ := (m.index h).getD []

/-- What holds of each slot on its own. -/
structure SlotOk (s : Slot) : Prop where
  free_refs : s.free = true → s.refs = 0
  free_cached : s.free = true → s.cached = false
  idle_cached : s.free = false → s.refs = 0 → s.cached = true
  refs_le : s.refs ≤ sizeMax
  generation_le : s.generation ≤ u64Max

/-- The free list and the LRU list. -/
structure ListInv (m : BlockManager) (free idle : List ℕ) : Prop where
  chain : Chain (fun i => (m.slots i).nextFree) m.freeHead free
  free_nodup : free.Nodup
  mem_free : ∀ i, i ∈ free ↔ i < m.capacity ∧ (m.slots i).free = true
  lru : m.idleLru.Repr idle
  mem_idle : ∀ i, i ∈ idle ↔ (m.slots i).free = false ∧ (m.slots i).refs = 0

/-- The index. -/
structure IndexInv (H : Tokens → UInt64) (m : BlockManager) : Prop where
  bucket_ne : ∀ h, m.index h ≠ some []
  bucket_nodup : ∀ h, (m.bucket h).Nodup
  mem_bucket : ∀ h i, i ∈ m.bucket h ↔ (m.slots i).cached = true ∧ (m.slots i).hash = h
  hash_eq : ∀ i, (m.slots i).cached = true → (m.slots i).hash = H (m.slots i).prefixTokens
  full : ∀ i, (m.slots i).cached = true →
    (m.slots i).prefixTokens ≠ [] ∧ (m.slots i).prefixTokens.length % m.blockSize = 0
  inj : ∀ i j, (m.slots i).cached = true → (m.slots j).cached = true →
    (m.slots i).prefixTokens = (m.slots j).prefixTokens → i = j

/-- **The representation invariant.** -/
structure Inv (H : Tokens → UInt64) (m : BlockManager) (free idle : List ℕ) : Prop where
  blockSize_pos : 0 < m.blockSize
  beyond : ∀ i, m.capacity ≤ i → (m.slots i).free = true
  slot : ∀ i, SlotOk (m.slots i)
  lists : ListInv m free idle
  indexed : IndexInv H m

/-- The index lists the cached slots, each under the hash it was published with. -/
structure Listed (m : BlockManager) : Prop where
  bucket_ne : ∀ h, m.index h ≠ some []
  bucket_nodup : ∀ h, (m.bucket h).Nodup
  mem_bucket : ∀ h i, i ∈ m.bucket h ↔ (m.slots i).cached = true ∧ (m.slots i).hash = h

/-- The part of the invariant that holds whatever the hasher returns. -/
structure Shape (m : BlockManager) (free idle : List ℕ) : Prop where
  beyond : ∀ i, m.capacity ≤ i → (m.slots i).free = true
  slot : ∀ i, SlotOk (m.slots i)
  lists : ListInv m free idle
  listed : Listed m

/-- The part of the invariant that needs a hasher that is a function of the prefix. -/
structure Keyed (H : Tokens → UInt64) (m : BlockManager) : Prop where
  hash_eq : ∀ i, (m.slots i).cached = true → (m.slots i).hash = H (m.slots i).prefixTokens
  full : ∀ i, (m.slots i).cached = true →
    (m.slots i).prefixTokens ≠ [] ∧ (m.slots i).prefixTokens.length % m.blockSize = 0
  inj : ∀ i j, (m.slots i).cached = true → (m.slots j).cached = true →
    (m.slots i).prefixTokens = (m.slots j).prefixTokens → i = j

variable {H : Tokens → UInt64} {m m' : BlockManager} {free idle : List ℕ} {id : ℕ} {s : Slot}
  {hasher : Hasher} {h : BlockHandle} {p : Tokens}

/-! ## Fields after an update -/

@[simp] theorem setSlot_slots (m : BlockManager) (id : ℕ) (s : Slot) (i : ℕ) :
    (m.setSlot id s).slots i = if i = id then s else m.slots i := by
  simp [setSlot, Function.update_apply]

@[simp] theorem setSlot_capacity : (m.setSlot id s).capacity = m.capacity := rfl
@[simp] theorem setSlot_blockSize : (m.setSlot id s).blockSize = m.blockSize := rfl
@[simp] theorem setSlot_freeHead : (m.setSlot id s).freeHead = m.freeHead := rfl
@[simp] theorem setSlot_idleLru : (m.setSlot id s).idleLru = m.idleLru := rfl
@[simp] theorem setSlot_index : (m.setSlot id s).index = m.index := rfl

@[simp] theorem appendIdle_slots : (m.appendIdle id).slots = m.slots := rfl
@[simp] theorem appendIdle_capacity : (m.appendIdle id).capacity = m.capacity := rfl
@[simp] theorem appendIdle_blockSize : (m.appendIdle id).blockSize = m.blockSize := rfl
@[simp] theorem appendIdle_freeHead : (m.appendIdle id).freeHead = m.freeHead := rfl
@[simp] theorem appendIdle_index : (m.appendIdle id).index = m.index := rfl
@[simp] theorem appendIdle_idleLru : (m.appendIdle id).idleLru = m.idleLru.touch id := rfl

@[simp] theorem unlinkIdle_slots : (m.unlinkIdle id).slots = m.slots := rfl
@[simp] theorem unlinkIdle_capacity : (m.unlinkIdle id).capacity = m.capacity := rfl
@[simp] theorem unlinkIdle_blockSize : (m.unlinkIdle id).blockSize = m.blockSize := rfl
@[simp] theorem unlinkIdle_freeHead : (m.unlinkIdle id).freeHead = m.freeHead := rfl
@[simp] theorem unlinkIdle_index : (m.unlinkIdle id).index = m.index := rfl
@[simp] theorem unlinkIdle_idleLru : (m.unlinkIdle id).idleLru = m.idleLru.erase id := rfl

@[simp] theorem eraseCache_slots (i : ℕ) : (m.eraseCache id).slots i =
    if i = id then { m.slots id with cached := false, prefixTokens := [] } else m.slots i := by
  simp [eraseCache]

@[simp] theorem eraseCache_capacity : (m.eraseCache id).capacity = m.capacity := rfl
@[simp] theorem eraseCache_blockSize : (m.eraseCache id).blockSize = m.blockSize := rfl
@[simp] theorem eraseCache_freeHead : (m.eraseCache id).freeHead = m.freeHead := rfl
@[simp] theorem eraseCache_idleLru : (m.eraseCache id).idleLru = m.idleLru := rfl

theorem eraseCache_bucket (g : UInt64) : (m.eraseCache id).bucket g =
    if g = (m.slots id).hash then (m.bucket g).erase id else m.bucket g := by
  simp only [bucket, eraseCache, setSlot_index, Function.update_apply]
  by_cases hg : g = (m.slots id).hash
  · rw [if_pos hg, if_pos hg, ← hg]
    split_ifs with he
    · rw [List.isEmpty_iff.mp he]; rfl
    · rfl
  · rw [if_neg hg, if_neg hg]

theorem eraseCache_index_ne (hb : ∀ g, m.index g ≠ some []) (g : UInt64) :
    (m.eraseCache id).index g ≠ some [] := by
  unfold eraseCache
  simp only [setSlot_index, Function.update_apply]
  by_cases hg : g = (m.slots id).hash
  · rw [if_pos hg]
    cases ((m.index (m.slots id).hash).getD []).erase id <;> simp
  · rw [if_neg hg]
    exact hb g

/-! ## The pieces of the calls -/

/-- What `allocate` does with the head of the free list. -/
def takeFree (m : BlockManager) (id : ℕ) : BlockManager :=
  { m.setSlot id { m.slots id with
      nextFree := none, free := false, refs := 1, generation := (m.slots id).generation + 1 } with
    freeHead := (m.slots id).nextFree }

/-- What `allocate` does with the oldest idle block. -/
def evict (m : BlockManager) (id : ℕ) : BlockManager :=
  ((m.unlinkIdle id).eraseCache id).setSlot id { m.slots id with
    cached := false, prefixTokens := [], free := false, refs := 1,
    generation := (m.slots id).generation + 1 }

/-- A successful `retain`. -/
def retained (m : BlockManager) (id : ℕ) : BlockManager :=
  (if (m.slots id).refs = 0 then m.unlinkIdle id else m).setSlot id
    { m.slots id with refs := (m.slots id).refs + 1 }

/-- A successful `release`. -/
def released (m : BlockManager) (id : ℕ) : BlockManager :=
  let s := { m.slots id with refs := (m.slots id).refs - 1 }
  if s.refs ≠ 0 then m.setSlot id s
  else if s.cached then (m.setSlot id s).appendIdle id
  else { m.setSlot id { s with free := true, nextFree := m.freeHead } with freeHead := some id }

/-- A successful `publish`. -/
def published (m : BlockManager) (id : ℕ) (p : Tokens) (hash : UInt64) : BlockManager :=
  { m with index := Function.update m.index hash (some (m.bucket hash ++ [id])) }.setSlot id
    { m.slots id with prefixTokens := p, hash := hash, cached := true }

/-- How a release moves the slot between the two lists. -/
def releasedFree (m : BlockManager) (id : ℕ) (free : List ℕ) : List ℕ :=
  if (m.slots id).refs = 1 ∧ (m.slots id).cached = false then id :: free else free

def releasedIdle (m : BlockManager) (id : ℕ) (idle : List ℕ) : List ℕ :=
  if (m.slots id).refs = 1 ∧ (m.slots id).cached = true then idle ++ [id] else idle

theorem released_slots (m : BlockManager) (id i : ℕ) : (m.released id).slots i =
    if i = id then
      if (m.slots id).refs - 1 = 0 ∧ (m.slots id).cached = false then
        { m.slots id with refs := (m.slots id).refs - 1, free := true, nextFree := m.freeHead }
      else { m.slots id with refs := (m.slots id).refs - 1 }
    else m.slots i := by
  unfold released
  by_cases h0 : (m.slots id).refs - 1 = 0
  · cases hc : (m.slots id).cached <;> by_cases h : i = id <;> simp [h0, hc, h]
  · by_cases h : i = id <;> simp [h0, h]

theorem takeFree_slots (m : BlockManager) (id i : ℕ) : (m.takeFree id).slots i =
    if i = id then { m.slots id with
      nextFree := none, free := false, refs := 1, generation := (m.slots id).generation + 1 }
    else m.slots i :=
  setSlot_slots m id _ i

theorem evict_slots (m : BlockManager) (id i : ℕ) : (m.evict id).slots i =
    if i = id then { m.slots id with
      cached := false, prefixTokens := [], free := false, refs := 1,
      generation := (m.slots id).generation + 1 }
    else m.slots i := by
  by_cases hid : i = id <;> simp [evict, hid]

theorem retained_slots (m : BlockManager) (id i : ℕ) : (m.retained id).slots i =
    if i = id then { m.slots id with refs := (m.slots id).refs + 1 } else m.slots i := by
  unfold retained
  split_ifs <;> simp_all

theorem published_slots (m : BlockManager) (id : ℕ) (p : Tokens) (g : UInt64) (i : ℕ) :
    (m.published id p g).slots i =
      if i = id then { m.slots id with prefixTokens := p, hash := g, cached := true }
      else m.slots i :=
  setSlot_slots _ id _ i

@[simp] theorem takeFree_capacity : (m.takeFree id).capacity = m.capacity := rfl
@[simp] theorem takeFree_blockSize : (m.takeFree id).blockSize = m.blockSize := rfl
@[simp] theorem evict_capacity : (m.evict id).capacity = m.capacity := rfl
@[simp] theorem evict_blockSize : (m.evict id).blockSize = m.blockSize := rfl
@[simp] theorem published_capacity {g : UInt64} :
    (m.published id p g).capacity = m.capacity := rfl
@[simp] theorem published_blockSize {g : UInt64} :
    (m.published id p g).blockSize = m.blockSize := rfl

@[simp] theorem retained_capacity : (m.retained id).capacity = m.capacity := by
  unfold retained; split_ifs <;> rfl

@[simp] theorem retained_blockSize : (m.retained id).blockSize = m.blockSize := by
  unfold retained; split_ifs <;> rfl

@[simp] theorem released_capacity : (m.released id).capacity = m.capacity := by
  unfold released; simp only; split_ifs <;> rfl

@[simp] theorem released_blockSize : (m.released id).blockSize = m.blockSize := by
  unfold released; simp only; split_ifs <;> rfl

theorem inv_init (capacity blockSize : ℕ) (hc : 0 < capacity) (hb : 0 < blockSize) :
    Inv H (init capacity blockSize) (List.range capacity) [] where
  blockSize_pos := hb
  beyond _ _ := rfl
  slot _ := ⟨fun _ => rfl, fun _ => rfl, nofun, Nat.zero_le _, Nat.zero_le _⟩
  lists := by
    refine ⟨?_, List.nodup_range, ?_, IndexLru.repr_empty, by simp [init]⟩
    · -- the chain from `k` visits `k, …, capacity - 1`
      have : ∀ n k, k + n = capacity → 0 < n →
          Chain (fun i => ((init capacity blockSize).slots i).nextFree) (some k)
            (List.range' k n) := by
        intro n
        induction n with
        | zero => intro k _ h; omega
        | succ n ih =>
          intro k hk _
          rw [List.range'_succ]
          refine ⟨rfl, ?_⟩
          rcases Nat.eq_zero_or_pos n with rfl | hn
          · simp [init, show ¬ k + 1 < capacity by omega]
          · have := ih (k + 1) (by omega) hn
            simpa [init, show k + 1 < capacity by omega] using this
      rw [List.range_eq_range']
      exact this capacity 0 (by omega) hc
    · intro i; simp [init]
  indexed := ⟨nofun, fun _ => List.nodup_nil, by simp [init, bucket], nofun, nofun, nofun⟩

/-! ## The two parts of the invariant -/

theorem inv_iff : Inv H m free idle ↔ 0 < m.blockSize ∧ Shape m free idle ∧ Keyed H m := by
  constructor
  · rintro ⟨hb, h1, h2, h3, h4⟩
    exact ⟨hb, ⟨h1, h2, h3, ⟨h4.bucket_ne, h4.bucket_nodup, h4.mem_bucket⟩⟩,
      ⟨h4.hash_eq, h4.full, h4.inj⟩⟩
  · rintro ⟨hb, ⟨h1, h2, h3, h4⟩, hk⟩
    exact ⟨hb, h1, h2, h3,
      ⟨h4.bucket_ne, h4.bucket_nodup, h4.mem_bucket, hk.hash_eq, hk.full, hk.inj⟩⟩

theorem Inv.shape (hi : Inv H m free idle) : Shape m free idle := (inv_iff.mp hi).2.1

theorem Inv.keyed (hi : Inv H m free idle) : Keyed H m := (inv_iff.mp hi).2.2

/-- The lists of the index only look at the published data of the slots. -/
theorem Listed.frame (hl : Listed m) (hx : m'.index = m.index)
    (hs : ∀ i, (m'.slots i).cached = (m.slots i).cached ∧ (m'.slots i).hash = (m.slots i).hash) :
    Listed m' where
  bucket_ne := by rw [hx]; exact hl.bucket_ne
  bucket_nodup := by unfold bucket; rw [hx]; exact hl.bucket_nodup
  mem_bucket g i := by
    have := hl.mem_bucket g i
    unfold bucket at this ⊢
    rw [hx, (hs i).1, (hs i).2, this]

/-- Fewer published slots stay keyed. -/
theorem Keyed.mono (hk : Keyed H m) (hb : m'.blockSize = m.blockSize)
    (hs : ∀ i, (m'.slots i).cached = true → (m.slots i).cached = true ∧
      (m'.slots i).hash = (m.slots i).hash ∧
      (m'.slots i).prefixTokens = (m.slots i).prefixTokens) : Keyed H m' where
  hash_eq i hc := by
    obtain ⟨h0, h1, h2⟩ := hs i hc
    rw [h1, h2]
    exact hk.hash_eq i h0
  full i hc := by
    obtain ⟨h0, -, h2⟩ := hs i hc
    rw [h2, hb]
    exact hk.full i h0
  inj i j hc hc' := by
    obtain ⟨h0, -, h2⟩ := hs i hc
    obtain ⟨h0', -, h2'⟩ := hs j hc'
    rw [h2, h2']
    exact hk.inj i j h0 h0'

/-! ## The shape -/

namespace Shape

theorem lt_capacity (hi : Shape m free idle) (hf : (m.slots id).free = false) :
    id < m.capacity := by
  by_contra hc
  rw [hi.beyond id (by omega)] at hf
  cases hf

theorem not_free_of_cached (hi : Shape m free idle) (hc : (m.slots id).cached = true) :
    (m.slots id).free = false := by
  by_contra hf
  rw [(hi.slot id).free_cached (by simpa using hf)] at hc
  cases hc

theorem takeFree (hi : Shape m (id :: free) idle)
    (hg : (m.slots id).generation ≠ u64Max) : Shape (m.takeFree id) free idle := by
  have hid := (hi.lists.mem_free id).mp List.mem_cons_self
  have hnd := List.nodup_cons.mp hi.lists.free_nodup
  have hok := hi.slot id
  refine ⟨fun i h => ?_, fun i => ?_, ⟨?_, hnd.2, fun i => ?_, hi.lists.lru,
    fun i => ?_⟩, hi.listed.frame rfl fun i => ?_⟩
  · have h : m.capacity ≤ i := h
    have : i ≠ id := by omega
    simpa [takeFree_slots, this] using hi.beyond i h
  · by_cases h : i = id
    · have := hok.generation_le
      simp only [takeFree_slots, if_pos h]
      exact ⟨nofun, nofun, by simp, by simp [sizeMax], by simp only; omega⟩
    · simpa [takeFree_slots, h] using hi.slot i
  · refine hi.lists.chain.2.congr fun i h => ?_
    have : i ≠ id := fun e => hnd.1 (e ▸ h)
    simp [takeFree_slots, this]
  · by_cases h : i = id
    · simp [takeFree_slots, h, hnd.1]
    · have := hi.lists.mem_free i
      simpa [takeFree_slots, h] using this
  · by_cases h : i = id
    · have := hi.lists.mem_idle i
      simp only [takeFree_slots, if_pos h]
      simp_all
    · simpa [takeFree_slots, h] using hi.lists.mem_idle i
  · by_cases h : i = id
    · simp [takeFree_slots, h]
    · simp [takeFree_slots, h]

theorem evict (hi : Shape m [] (id :: idle)) (hg : (m.slots id).generation ≠ u64Max) :
    Shape (m.evict id) [] idle := by
  have hid := (hi.lists.mem_idle id).mp List.mem_cons_self
  have hcap := hi.lt_capacity hid.1
  have hok := hi.slot id
  have hnd := List.nodup_cons.mp hi.lists.lru.nodup
  have hbucket : ∀ g, (m.evict id).bucket g =
      if g = (m.slots id).hash then (m.bucket g).erase id else m.bucket g :=
    fun g => eraseCache_bucket (m := m.unlinkIdle id) g
  refine ⟨fun i h => ?_, fun i => ?_, ⟨hi.lists.chain, List.nodup_nil, fun i => ?_, ?_,
    fun i => ?_⟩, ⟨fun g => ?_, fun g => ?_, fun g i => ?_⟩⟩
  · have h : m.capacity ≤ i := h
    have : i ≠ id := by omega
    simpa [evict_slots, this] using hi.beyond i h
  · by_cases h : i = id
    · have := hok.generation_le
      simp only [evict_slots, if_pos h]
      exact ⟨nofun, nofun, by simp, by simp [sizeMax], by simp only; omega⟩
    · simpa [evict_slots, h] using hi.slot i
  · have := hi.lists.mem_free i
    by_cases h : i = id
    · simp [evict_slots, h]
    · simpa [evict_slots, h] using this
  · have := hi.lists.lru.erase id
    rwa [List.erase_cons_head] at this
  · by_cases h : i = id
    · simp [evict_slots, h, hnd.1]
    · have := hi.lists.mem_idle i
      simpa [evict_slots, h] using this
  · exact eraseCache_index_ne (m := m.unlinkIdle id) hi.listed.bucket_ne g
  · rw [hbucket]
    split_ifs
    · exact (hi.listed.bucket_nodup g).erase id
    · exact hi.listed.bucket_nodup g
  · have hm := hi.listed.mem_bucket g i
    rw [hbucket]
    by_cases h : i = id
    · subst h
      simp only [evict_slots, if_true, Bool.false_eq_true, false_and, iff_false]
      split_ifs with hg
      · exact (hi.listed.bucket_nodup g).not_mem_erase
      · rw [hm]; exact fun hc => hg hc.2.symm
    · simp only [evict_slots, if_neg h]
      rw [← hm]
      split_ifs
      · exact List.mem_erase_of_ne h
      · rfl

theorem retained (hi : Shape m free idle) (hf : (m.slots id).free = false)
    (hr : (m.slots id).refs ≠ sizeMax) : Shape (m.retained id) free (idle.erase id) := by
  have hok := hi.slot id
  have hle := hok.refs_le
  have hcap := hi.lt_capacity hf
  have hslots := retained_slots m id
  have hhead : (m.retained id).freeHead = m.freeHead := by
    unfold BlockManager.retained; split_ifs <;> rfl
  refine ⟨fun i h => ?_, fun i => ?_, ⟨?_, hi.lists.free_nodup,
    fun i => ?_, ?_, fun i => ?_⟩, hi.listed.frame ?_ fun i => ?_⟩
  · rw [retained_capacity] at h
    have : i ≠ id := by omega
    rw [hslots, if_neg this]
    exact hi.beyond i h
  · rw [hslots]
    split_ifs with h
    · refine ⟨fun h' => ?_, fun h' => ?_, nofun, ?_, hok.generation_le⟩
      · rw [hf] at h'; cases h'
      · rw [hf] at h'; cases h'
      · simp only; omega
    · exact hi.slot i
  · rw [hhead]
    refine hi.lists.chain.congr fun i _ => ?_
    rw [hslots]
    split_ifs with h
    · rw [h]
    · rfl
  · rw [hslots, retained_capacity, hi.lists.mem_free i]
    split_ifs with h
    · rw [h]
    · rfl
  · by_cases h0 : (m.slots id).refs = 0
    · have := hi.lists.lru.erase id
      simpa [BlockManager.retained, h0] using this
    · have hn : id ∉ idle := fun hm => h0 ((hi.lists.mem_idle id).mp hm).2
      rw [List.erase_of_not_mem hn]
      simpa [BlockManager.retained, h0] using hi.lists.lru
  · rw [hslots, hi.lists.lru.nodup.mem_erase_iff]
    split_ifs with h
    · simp [h]
    · simp [h, hi.lists.mem_idle i]
  · unfold BlockManager.retained
    split_ifs <;> rfl
  · rw [hslots]
    split_ifs with h
    · simp [h]
    · simp

theorem released (hi : Shape m free idle) (hf : (m.slots id).free = false)
    (hr : (m.slots id).refs ≠ 0) :
    Shape (m.released id) (releasedFree m id free) (releasedIdle m id idle) := by
  have hok := hi.slot id
  have hle := hok.refs_le
  have hcap := hi.lt_capacity hf
  have hslots := released_slots m id
  have hnf : id ∉ free := fun hm => by
    have := ((hi.lists.mem_free id).mp hm).2
    rw [hf] at this; cases this
  have hni : id ∉ idle := fun hm => hr ((hi.lists.mem_idle id).mp hm).2
  have h01 : (m.slots id).refs - 1 = 0 ↔ (m.slots id).refs = 1 := by omega
  refine ⟨fun i h => ?_, fun i => ?_, ⟨?_, ?_, fun i => ?_, ?_,
    fun i => ?_⟩, hi.listed.frame ?_ fun i => ?_⟩
  · rw [released_capacity] at h
    have : i ≠ id := by omega
    rw [hslots, if_neg this]
    exact hi.beyond i h
  · rw [hslots]
    split_ifs with h hc
    · refine ⟨fun _ => hc.1, fun _ => hc.2, nofun, ?_, hok.generation_le⟩
      simp only; omega
    · refine ⟨fun h' => ?_, fun h' => ?_, fun _ h0 => ?_, ?_, hok.generation_le⟩
      · rw [hf] at h'; cases h'
      · rw [hf] at h'; cases h'
      · simpa using fun hn => hc ⟨h0, hn⟩
      · simp only; omega
    · exact hi.slot i
  · unfold releasedFree
    by_cases hc : (m.slots id).refs = 1 ∧ (m.slots id).cached = false
    · have hhead : (m.released id).freeHead = some id := by
        simp [BlockManager.released, hc.1, hc.2]
      rw [if_pos hc, hhead]
      refine hi.lists.chain.push ?_ fun i h => ?_
      · simp [hslots, hc.1, hc.2]
      · have : i ≠ id := fun e => hnf (e ▸ h)
        simp [hslots, this]
    · have hhead : (m.released id).freeHead = m.freeHead := by
        unfold BlockManager.released
        simp only
        split_ifs with h1 h2
        · rfl
        · rfl
        · exact absurd ⟨h01.mp (not_not.mp h1), by simpa using h2⟩ hc
      rw [if_neg hc, hhead]
      refine hi.lists.chain.congr fun i h => ?_
      have : i ≠ id := fun e => hnf (e ▸ h)
      simp [hslots, this]
  · unfold releasedFree
    split_ifs
    · exact List.nodup_cons.mpr ⟨hnf, hi.lists.free_nodup⟩
    · exact hi.lists.free_nodup
  · unfold releasedFree
    simp only [hslots, released_capacity, h01]
    have hm := hi.lists.mem_free i
    by_cases h : i = id
    · subst h
      by_cases hc : (m.slots i).refs = 1 ∧ (m.slots i).cached = false
      · simp [hc, hcap]
      · simp [hc, hnf, hf]
    · rw [if_neg h, ← hm]
      split_ifs <;> simp [h]
  · unfold releasedIdle
    by_cases hc : (m.slots id).refs = 1 ∧ (m.slots id).cached = true
    · rw [if_pos hc]
      have := hi.lists.lru.touch_of_not_mem hni
      simpa [BlockManager.released, hc.1, hc.2] using this
    · rw [if_neg hc]
      have : (m.released id).idleLru = m.idleLru := by
        unfold BlockManager.released
        simp only
        split_ifs with h1 h2
        · rfl
        · exact absurd ⟨h01.mp (not_not.mp h1), h2⟩ hc
        · rfl
      rw [this]
      exact hi.lists.lru
  · unfold releasedIdle
    simp only [hslots, h01]
    have hm := hi.lists.mem_idle i
    by_cases h : i = id
    · subst h
      cases hcd : (m.slots i).cached <;> by_cases h1 : (m.slots i).refs = 1 <;>
        simp [h1, hni, hf]
      · omega
      · omega
    · rw [if_neg h, ← hm]
      split_ifs <;> simp [h]
  · unfold BlockManager.released
    simp only
    split_ifs <;> rfl
  · rw [hslots]
    split_ifs with h
    · simp [h]
    · simp [h]
    · simp

theorem published (hi : Shape m free idle) (hf : (m.slots id).free = false)
    (hc : (m.slots id).cached = false) (p : Tokens) (g : UInt64) :
    Shape (m.published id p g) free idle := by
  have hok := hi.slot id
  have hslots := published_slots m id p g
  have hbucket : ∀ k, (m.published id p g).bucket k =
      if k = g then m.bucket k ++ [id] else m.bucket k := by
    intro k
    simp only [bucket, BlockManager.published, setSlot_index, Function.update_apply]
    split_ifs with hg
    · rw [hg]; rfl
    · rfl
  have hnm : ∀ k, id ∉ m.bucket k := fun k hm => by
    have := ((hi.listed.mem_bucket k id).mp hm).1
    rw [hc] at this; cases this
  refine ⟨fun i h => ?_, fun i => ?_, ⟨?_, hi.lists.free_nodup, fun i => ?_,
    hi.lists.lru, fun i => ?_⟩, ⟨fun k => ?_, fun k => ?_, fun k i => ?_⟩⟩
  · have h : m.capacity ≤ i := h
    have := hi.lt_capacity hf
    have : i ≠ id := by omega
    rw [hslots, if_neg this]
    exact hi.beyond i h
  · rw [hslots]
    split_ifs with h
    · refine ⟨fun h' => ?_, fun h' => ?_, fun _ _ => rfl, hok.refs_le, hok.generation_le⟩
      · rw [hf] at h'; cases h'
      · rw [hf] at h'; cases h'
    · exact hi.slot i
  · refine hi.lists.chain.congr fun i _ => ?_
    rw [hslots]
    split_ifs with h
    · rw [h]
    · rfl
  · rw [hslots, hi.lists.mem_free i]
    split_ifs with h
    · rw [h]; rfl
    · rfl
  · rw [hslots, hi.lists.mem_idle i]
    split_ifs with h
    · rw [h]
    · rfl
  · have h0 := hi.listed.bucket_ne k
    simp only [BlockManager.published, setSlot_index, Function.update_apply]
    split_ifs with hg
    · intro hb
      simpa using Option.some.inj hb
    · exact h0
  · rw [hbucket]
    split_ifs
    · refine List.nodup_append.mpr ⟨hi.listed.bucket_nodup k, List.nodup_singleton id, ?_⟩
      intro a ha b hb
      rw [List.mem_singleton.mp hb]
      rintro rfl
      exact hnm k ha
    · exact hi.listed.bucket_nodup k
  · have hm := hi.listed.mem_bucket k i
    rw [hbucket, hslots]
    by_cases h : i = id
    · subst h
      rw [if_pos rfl]
      split_ifs with hg
      · simp [hg]
      · simp [hnm k, Ne.symm hg]
    · rw [if_neg h, ← hm]
      split_ifs <;> simp [h]

end Shape

/-! ## The whole invariant -/

namespace Inv

theorem lt_capacity (hi : Inv H m free idle) (hf : (m.slots id).free = false) :
    id < m.capacity :=
  hi.shape.lt_capacity hf

theorem not_free_of_cached (hi : Inv H m free idle) (hc : (m.slots id).cached = true) :
    (m.slots id).free = false :=
  hi.shape.not_free_of_cached hc

theorem takeFree (hi : Inv H m (id :: free) idle)
    (hg : (m.slots id).generation ≠ u64Max) : Inv H (m.takeFree id) free idle := by
  refine inv_iff.mpr ⟨hi.blockSize_pos, hi.shape.takeFree hg, hi.keyed.mono rfl fun i => ?_⟩
  rw [takeFree_slots]
  split_ifs with h
  · rw [h]; exact fun hc => ⟨hc, rfl, rfl⟩
  · exact fun hc => ⟨hc, rfl, rfl⟩

theorem evict (hi : Inv H m [] (id :: idle)) (hg : (m.slots id).generation ≠ u64Max) :
    Inv H (m.evict id) [] idle := by
  refine inv_iff.mpr ⟨hi.blockSize_pos, hi.shape.evict hg, hi.keyed.mono rfl fun i => ?_⟩
  rw [evict_slots]
  split_ifs with h
  · exact nofun
  · exact fun hc => ⟨hc, rfl, rfl⟩

theorem retained (hi : Inv H m free idle) (hf : (m.slots id).free = false)
    (hr : (m.slots id).refs ≠ sizeMax) : Inv H (m.retained id) free (idle.erase id) := by
  refine inv_iff.mpr ⟨?_, hi.shape.retained hf hr, hi.keyed.mono retained_blockSize fun i => ?_⟩
  · rw [retained_blockSize]; exact hi.blockSize_pos
  · rw [retained_slots]
    split_ifs with h
    · rw [h]; exact fun hc => ⟨hc, rfl, rfl⟩
    · exact fun hc => ⟨hc, rfl, rfl⟩

theorem released (hi : Inv H m free idle) (hf : (m.slots id).free = false)
    (hr : (m.slots id).refs ≠ 0) :
    Inv H (m.released id) (releasedFree m id free) (releasedIdle m id idle) := by
  refine inv_iff.mpr ⟨?_, hi.shape.released hf hr, hi.keyed.mono released_blockSize fun i => ?_⟩
  · rw [released_blockSize]; exact hi.blockSize_pos
  · rw [released_slots]
    split_ifs with h hc
    · rw [h]; exact fun hc => ⟨hc, rfl, rfl⟩
    · rw [h]; exact fun hc => ⟨hc, rfl, rfl⟩
    · exact fun hc => ⟨hc, rfl, rfl⟩

theorem published (hi : Inv H m free idle) (hf : (m.slots id).free = false)
    (hc : (m.slots id).cached = false) (hp : p ≠ [] ∧ p.length % m.blockSize = 0)
    (hnew : ∀ i, (m.slots i).cached = true → (m.slots i).prefixTokens ≠ p) :
    Inv H (m.published id p (H p)) free idle := by
  have hslots := published_slots m id p (H p)
  refine inv_iff.mpr ⟨hi.blockSize_pos, hi.shape.published hf hc p (H p),
    ⟨fun i => ?_, fun i => ?_, fun i j => ?_⟩⟩
  · rw [hslots]
    split_ifs with h
    · intro _; rfl
    · exact hi.keyed.hash_eq i
  · rw [hslots]
    split_ifs with h
    · intro _; exact hp
    · exact hi.keyed.full i
  · rw [hslots, hslots]
    split_ifs with h h' h'
    · intro _ _ _; rw [h, h']
    · intro _ hj he; exact absurd he.symm (hnew j hj)
    · intro hi' _ he; exact absurd he (hnew i hi')
    · exact hi.keyed.inj i j

end Inv

end KVFlux.BlockManager
