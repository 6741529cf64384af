import KVFlux.V3.Tier

/-!
# The books of the tiers

A tier is described by the multiset `locs` of the locations it has handed out and not got back.

* `SlotTier.Inv t locs`, `GpuTier.Inv`, `Tiers.Inv`: the tier's own books agree with `locs`. A slot
  pool may also have lost slots whose generation is exhausted.
* **`SlotTier.Inv.allocate`**, **`SlotTier.Inv.release`**, and the same for the GPU tier and for the
  three tiers together: the outcomes of the calls.
* `Tiers.Inv.available_eq_zero`: a full tier has nothing available.
-/

namespace KVFlux.V3

open Fallible Threaded

/-- The page behind a location of the GPU tier. -/
def TierLocation.handle (l : TierLocation) : PhysicalBlockHandle := ⟨l.slot, l.generation⟩

namespace SlotTier

/-- The slot is out and `release` would take the location. -/
def Live (t : SlotTier) (l : TierLocation) : Prop :=
  l.slot < t.capacity ∧ (t.slots l.slot).free = false ∧ (t.slots l.slot).generation = l.generation

/-- The books of a slot pool. -/
structure Inv (t : SlotTier) (locs : Multiset TierLocation) : Prop where
  free_list : ∃ free, Chain (fun i => (t.slots i).nextFree) t.freeHead free ∧ free.Nodup ∧
    ∀ i, i ∈ free ↔ i < t.capacity ∧ (t.slots i).free = true
  live : ∀ l ∈ locs, t.Live l
  nodup : (locs.map TierLocation.slot).Nodup
  allocated_eq : t.allocated = locs.card
  taken : ∀ i < t.capacity, (t.slots i).free = false →
    i ∈ locs.map TierLocation.slot ∨ (t.slots i).generation = u64Max
  generation_le : ∀ i, (t.slots i).generation ≤ u64Max

variable {t t' : SlotTier} {locs : Multiset TierLocation} {l : TierLocation}

@[simp] theorem setSlot_slots (t : SlotTier) (id : ℕ) (s : Slot) (i : ℕ) :
    (t.setSlot id s).slots i = if i = id then s else t.slots i := by
  simp [setSlot, Function.update_apply]

/-- The free slot that comes next has no generation left. -/
def Exhausted (t : SlotTier) : Prop :=
  ∃ id, t.freeHead = some id ∧ (t.slots id).generation = u64Max

/-- A successful `allocate`. -/
def take (t : SlotTier) (id : ℕ) : SlotTier :=
  { t.setSlot id { generation := (t.slots id).generation + 1, free := false } with
    freeHead := (t.slots id).nextFree, allocated := t.allocated + 1 }

/-- An `allocate` that throws away a slot with an exhausted generation. -/
def lose (t : SlotTier) (id : ℕ) : SlotTier :=
  { t.setSlot id { generation := (t.slots id).generation, free := false } with
    freeHead := (t.slots id).nextFree }

/-- A successful `release`. -/
def giveBack (t : SlotTier) (id : ℕ) : SlotTier :=
  { t.setSlot id { t.slots id with free := true, nextFree := t.freeHead } with
    freeHead := some id, allocated := sizeSub t.allocated 1 }

@[simp] theorem take_slots (id i : ℕ) : (t.take id).slots i =
    if i = id then { generation := (t.slots id).generation + 1, free := false } else t.slots i :=
  setSlot_slots t id _ i

@[simp] theorem lose_slots (id i : ℕ) : (t.lose id).slots i =
    if i = id then { generation := (t.slots id).generation, free := false } else t.slots i :=
  setSlot_slots t id _ i

@[simp] theorem giveBack_slots (id i : ℕ) : (t.giveBack id).slots i =
    if i = id then { t.slots id with free := true, nextFree := t.freeHead } else t.slots i :=
  setSlot_slots t id _ i

@[simp] theorem take_capacity (id : ℕ) : (t.take id).capacity = t.capacity := rfl
@[simp] theorem lose_capacity (id : ℕ) : (t.lose id).capacity = t.capacity := rfl
@[simp] theorem giveBack_capacity (id : ℕ) : (t.giveBack id).capacity = t.capacity := rfl

theorem allocate_cases (t : SlotTier) :
    (t.freeHead = none ∧ allocate t = .error .capacityError t) ∨
    (∃ id, t.freeHead = some id ∧ (t.slots id).generation = u64Max ∧
      allocate t = .error (.overflowError "slot generation exhausted") (t.lose id)) ∨
    (∃ id, t.freeHead = some id ∧ (t.slots id).generation ≠ u64Max ∧
      allocate t = .ok ⟨id, (t.slots id).generation + 1⟩ (t.take id)) := by
  cases hh : t.freeHead with
  | none => left; exact ⟨rfl, by simp [allocate, hh]⟩
  | some id =>
    right
    by_cases hg : (t.slots id).generation = u64Max
    · left
      refine ⟨id, rfl, hg, ?_⟩
      simp only [allocate, hh, if_pos hg]
      rfl
    · right
      refine ⟨id, rfl, hg, ?_⟩
      simp only [allocate, hh, if_neg hg]
      rfl

theorem release_of_live (hl : t.Live l) : release l t = .ok () (t.giveBack l.slot) := by
  obtain ⟨hlt, hfree, hg⟩ := hl
  have hc : ¬ (l.slot ≥ t.capacity ∨ (t.slots l.slot).generation ≠ l.generation) := by
    simp [hg, hlt]
  unfold release
  rw [if_neg hc]
  simp only [hfree, Bool.false_eq_true, if_false]
  rfl

theorem inv_new {kind : StorageTier} {chunkSlots chunkBytes : ℕ}
    (hn : new kind chunkSlots chunkBytes = .ok t) : t.Inv 0 := by
  unfold new at hn
  split_ifs at hn with hc
  cases hn
  refine ⟨⟨List.range chunkSlots, ?_, List.nodup_range, by simp [init]⟩,
    fun l hl => absurd hl (Multiset.notMem_zero l), by simp, rfl, nofun, by simp [init]⟩
  have hstep : ∀ n k, k + n = chunkSlots → 0 < n →
      Chain (fun i => if i + 1 < chunkSlots then some (i + 1) else none) (some k)
        (List.range' k n) := by
    intro n
    induction n with
    | zero => intro k _ h; omega
    | succ n ih =>
      intro k hk _
      rw [List.range'_succ]
      refine ⟨rfl, ?_⟩
      rcases Nat.eq_zero_or_pos n with rfl | hn
      · simp [show ¬ k + 1 < chunkSlots by omega]
      · simpa [show k + 1 < chunkSlots by omega] using ih (k + 1) (by omega) hn
  rw [List.range_eq_range']
  exact hstep chunkSlots 0 (by omega) (by omega)

namespace Inv

theorem head_slot (hi : t.Inv locs) {id : ℕ} (hh : t.freeHead = some id) :
    id < t.capacity ∧ (t.slots id).free = true := by
  obtain ⟨free, hc, -, hm⟩ := hi.free_list
  rw [hc.head_eq] at hh
  exact (hm id).mp (List.mem_of_mem_head? hh)

/-- The head of the free list is not out, and the rest of the list survives its removal. -/
theorem head_free (hi : t.Inv locs) {id : ℕ} (hh : t.freeHead = some id) :
    id < t.capacity ∧ id ∉ locs.map TierLocation.slot ∧
    ∃ free, Chain (fun i => (t.slots i).nextFree) (t.slots id).nextFree free ∧ free.Nodup ∧
      id ∉ free ∧ ∀ i, i ∈ free ↔ i ≠ id ∧ i < t.capacity ∧ (t.slots i).free = true := by
  obtain ⟨free, hc, hnd, hm⟩ := hi.free_list
  cases free with
  | nil => rw [hh] at hc; cases hc
  | cons j fs =>
    obtain ⟨hj, hc⟩ := hc
    obtain rfl : id = j := by rw [hh] at hj; exact Option.some.inj hj
    obtain ⟨hlt, hfree⟩ := (hm id).mp List.mem_cons_self
    have hnd := List.nodup_cons.mp hnd
    refine ⟨hlt, fun hout => ?_, fs, hc, hnd.2, hnd.1, fun i => ?_⟩
    · obtain ⟨l, hl, rfl⟩ := Multiset.mem_map.mp hout
      rw [(hi.live l hl).2.1] at hfree
      cases hfree
    · rw [← hm i, List.mem_cons]
      constructor
      · intro hmem
        exact ⟨fun e => hnd.1 (e ▸ hmem), .inr hmem⟩
      · rintro ⟨hne, rfl | hmem⟩
        · exact absurd rfl hne
        · exact hmem

theorem take (hi : t.Inv locs) {id : ℕ} (hh : t.freeHead = some id)
    (hg : (t.slots id).generation ≠ u64Max) :
    (t.take id).Inv (⟨id, (t.slots id).generation + 1⟩ ::ₘ locs) := by
  obtain ⟨hlt, hnew, free, hc, hnd, hnf, hm⟩ := hi.head_free hh
  have hle := hi.generation_le id
  refine ⟨⟨free, hc.congr fun i him => ?_, hnd, fun i => ?_⟩, fun l hl => ?_, ?_, ?_,
    fun i hlt' hf => ?_, fun i => ?_⟩
  · have : i ≠ id := fun e => hnf (e ▸ him)
    simp [this]
  · rw [hm i, take_slots, take_capacity]
    split_ifs with h <;> simp [h]
  · rcases Multiset.mem_cons.mp hl with rfl | hl
    · simp [Live, hlt]
    · have hne : l.slot ≠ id := fun e => hnew (e ▸ Multiset.mem_map_of_mem _ hl)
      simpa [Live, hne] using hi.live l hl
  · rw [Multiset.map_cons, Multiset.nodup_cons]
    exact ⟨hnew, hi.nodup⟩
  · rw [Multiset.card_cons]
    exact congrArg (· + 1) hi.allocated_eq
  · rw [Multiset.map_cons, Multiset.mem_cons]
    by_cases h : i = id
    · left; left; exact h
    · have := hi.taken i hlt' (by simpa [h] using hf)
      simpa [h] using this
  · rw [take_slots]
    split_ifs with h
    · simp only; omega
    · exact hi.generation_le i

theorem lose (hi : t.Inv locs) {id : ℕ} (hh : t.freeHead = some id)
    (hg : (t.slots id).generation = u64Max) : (t.lose id).Inv locs := by
  obtain ⟨hlt, hnew, free, hc, hnd, hnf, hm⟩ := hi.head_free hh
  refine ⟨⟨free, hc.congr fun i him => ?_, hnd, fun i => ?_⟩, fun l hl => ?_, hi.nodup,
    hi.allocated_eq, fun i hlt' hf => ?_, fun i => ?_⟩
  · have : i ≠ id := fun e => hnf (e ▸ him)
    simp [this]
  · rw [hm i, lose_slots, lose_capacity]
    split_ifs with h <;> simp [h]
  · have hne : l.slot ≠ id := fun e => hnew (e ▸ Multiset.mem_map_of_mem _ hl)
    simpa [Live, hne] using hi.live l hl
  · by_cases h : i = id
    · right; simpa [h] using hg
    · have := hi.taken i hlt' (by simpa [h] using hf)
      simpa [h] using this
  · rw [lose_slots]
    split_ifs with h
    · exact hi.generation_le id
    · exact hi.generation_le i

theorem giveBack (hi : t.Inv locs) (hl : l ∈ locs) : (t.giveBack l.slot).Inv (locs.erase l) := by
  obtain ⟨hlt, hfree, hg⟩ := hi.live l hl
  have hslot : ∀ l' ∈ locs.erase l, l'.slot ≠ l.slot := by
    intro l' hl' he
    have hnd := hi.nodup
    rw [← Multiset.cons_erase hl, Multiset.map_cons, Multiset.nodup_cons] at hnd
    exact hnd.1 (he ▸ Multiset.mem_map_of_mem _ hl')
  obtain ⟨free, hc, hnd, hm⟩ := hi.free_list
  have hnf : l.slot ∉ free := fun h => by
    have := ((hm _).mp h).2
    rw [hfree] at this
    cases this
  refine ⟨⟨l.slot :: free, hc.push (by simp) fun i h => ?_, List.nodup_cons.mpr ⟨hnf, hnd⟩,
    fun i => ?_⟩, fun l' hl' => ?_, ?_, ?_, fun i hlt' hf => ?_, fun i => ?_⟩
  · have : i ≠ l.slot := fun e => hnf (e ▸ h)
    simp [this]
  · rw [List.mem_cons, hm i, giveBack_slots, giveBack_capacity]
    split_ifs with h <;> simp [h, hlt]
  · have := hi.live l' (Multiset.mem_of_mem_erase hl')
    simpa [Live, hslot l' hl'] using this
  · exact Multiset.nodup_of_le (Multiset.map_le_map (Multiset.erase_le l locs)) hi.nodup
  · have hpos : 1 ≤ locs.card := Multiset.card_pos_iff_exists_mem.mpr ⟨l, hl⟩
    show sizeSub t.allocated 1 = _
    rw [hi.allocated_eq, sizeSub_of_le hpos, Multiset.card_erase_of_mem hl]
    rfl
  · have hne : i ≠ l.slot := by
      rintro rfl
      simp at hf
    rcases hi.taken i hlt' (by simpa [hne] using hf) with h' | h'
    · left
      obtain ⟨l', hl', rfl⟩ := Multiset.mem_map.mp h'
      have : l' ≠ l := by rintro rfl; exact hne rfl
      exact Multiset.mem_map_of_mem _ ((Multiset.mem_erase_of_ne this).mpr hl')
    · right; simpa [hne] using h'
  · rw [giveBack_slots]
    split_ifs with h
    · exact hi.generation_le l.slot
    · exact hi.generation_le i

/-- **The outcomes of `allocate`**: a fresh slot, no slot, or a slot lost to its exhausted
generation. -/
theorem allocate (hi : t.Inv locs) :
    (∃ l t', SlotTier.allocate t = .ok l t' ∧ t'.Inv (l ::ₘ locs)) ∨
    (t.freeHead = none ∧ SlotTier.allocate t = .error .capacityError t) ∨
    (∃ t', SlotTier.allocate t = .error (.overflowError "slot generation exhausted") t' ∧
      t'.Inv locs ∧ ∃ i, (t.slots i).generation = u64Max) := by
  rcases allocate_cases t with hc | ⟨id, hh, hg, hc⟩ | ⟨id, hh, hg, hc⟩
  · exact .inr (.inl hc)
  · exact .inr (.inr ⟨_, hc, hi.lose hh hg, id, hg⟩)
  · exact .inl ⟨_, _, hc, hi.take hh hg⟩

/-- **`release`** takes back every location that is out. -/
theorem release (hi : t.Inv locs) (hl : l ∈ locs) :
    ∃ t', SlotTier.release l t = .ok () t' ∧ t'.Inv (locs.erase l) :=
  ⟨_, release_of_live (hi.live l hl), hi.giveBack hl⟩

/-- Without exhausted generations the slots that are out are the ones in `locs`. -/
theorem mem_iff_live (hi : t.Inv locs) (hg : ∀ i, (t.slots i).generation ≠ u64Max) :
    l ∈ locs ↔ t.Live l := by
  refine ⟨hi.live l, fun hl => ?_⟩
  rcases hi.taken l.slot hl.1 hl.2.1 with h | h
  · obtain ⟨l', hl', he⟩ := Multiset.mem_map.mp h
    obtain ⟨-, -, hg'⟩ := hi.live l' hl'
    obtain ⟨-, -, hgl⟩ := hl
    rw [he] at hg'
    have : l' = l := by
      cases l
      cases l'
      simp_all
    exact this ▸ hl'
  · exact absurd h (hg _)

/-- No more locations are out than there are slots. -/
theorem card_le (hi : t.Inv locs) : locs.card ≤ t.capacity := by
  have hsub : locs.map TierLocation.slot ≤ Multiset.range t.capacity := by
    refine (Multiset.le_iff_subset hi.nodup).mpr fun i hout => ?_
    obtain ⟨l, hl, rfl⟩ := Multiset.mem_map.mp hout
    exact Multiset.mem_range.mpr (hi.live l hl).1
  have := Multiset.card_le_card hsub
  rwa [Multiset.card_map, Multiset.card_range] at this

/-- A slot pool without free slots has all of them out. -/
theorem available_eq_zero (hi : t.Inv locs) (hg : ∀ i, (t.slots i).generation ≠ u64Max)
    (hh : t.freeHead = none) : t.available = 0 := by
  obtain ⟨free, hc, -, hm⟩ := hi.free_list
  have hnil : free = [] := by
    cases free with
    | nil => rfl
    | cons i fs => have := hc.1; rw [hh] at this; cases this
  subst hnil
  have hsub : Multiset.range t.capacity ≤ locs.map TierLocation.slot := by
    refine (Multiset.le_iff_subset (Multiset.nodup_range _)).mpr fun i hlt => ?_
    have hlt := Multiset.mem_range.mp hlt
    have hf : (t.slots i).free = false := by
      by_contra hf
      exact List.not_mem_nil ((hm i).mpr ⟨hlt, by simpa using hf⟩)
    exact (hi.taken i hlt hf).resolve_right (hg i)
  have := Multiset.card_le_card hsub
  rw [Multiset.card_range, Multiset.card_map] at this
  have hle := hi.card_le
  unfold available
  rw [hi.allocated_eq, sizeSub_of_le hle]
  omega

end Inv

end SlotTier

/-! ## The GPU tier -/

/-- The books of the GPU tier: the tier owns one reference to each of its pages, and the other
holders of the pool own `others`. -/
structure GpuTier.Inv (H : Tokens → UInt64) (pool : PhysicalBlockPool) (t : GpuTier)
    (others : Multiset BlockHandle) (locs : Multiset TierLocation) : Prop where
  good : BlockManager.Good H pool
  owned : BlockManager.Owned pool (locs.map TierLocation.handle + others)
  nodup : (locs.map TierLocation.slot).Nodup
  unshared : ∀ l ∈ locs, ∀ h ∈ others, h.id ≠ l.slot
  unpublished : ∀ l ∈ locs, (pool.slots l.slot).cached = false
  allocated_eq : t.allocated = locs.card

namespace GpuTier

open BlockManager

variable {H : Tokens → UInt64} {pool pool' : PhysicalBlockPool} {t : GpuTier}
  {others : Multiset BlockHandle} {locs : Multiset TierLocation} {l : TierLocation}

theorem inv_new {capacity blockSize chunkBytes : ℕ} {hasher : Option Hasher}
    (hp : PhysicalBlockPool.new capacity blockSize hasher = .ok pool)
    (hn : new chunkBytes = .ok t) : Inv H pool t 0 0 := by
  have hg : Good H pool := good_of_new hp
  unfold new at hn
  split_ifs at hn
  cases hn
  unfold PhysicalBlockPool.new BlockManager.new at hp
  split_ifs at hp
  cases hp
  exact ⟨hg, owned_init _ _, by simp, nofun, nofun, rfl⟩

namespace Inv

theorem mem_owned (hl : l ∈ locs) :
    l.handle ∈ locs.map TierLocation.handle + others :=
  Multiset.mem_add.mpr (.inl (Multiset.mem_map_of_mem _ hl))

theorem other_mem_owned {h : BlockHandle} (hh : h ∈ others) :
    h ∈ locs.map TierLocation.handle + others :=
  Multiset.mem_add.mpr (.inr hh)

/-- **The outcomes of `allocate`.** -/
theorem allocate (hi : Inv H pool t others locs) :
    (∃ l pool', GpuTier.allocate (pool, t) = .ok l (pool', { t with allocated := t.allocated + 1 }) ∧
      Inv H pool' { t with allocated := t.allocated + 1 } others (l ::ₘ locs)) ∨
    (∃ e, PhysicalBlockPool.allocate pool = .error e pool ∧
      GpuTier.allocate (pool, t) = .error e (pool, t)) := by
  rcases hi.owned.allocate hi.good.shaped with ⟨h, pool', ha, ho, hnew⟩ | ⟨e, ha⟩
  swap
  · right
    refine ⟨e, ha, ?_⟩
    simp [GpuTier.allocate, onFst, PhysicalBlockPool.allocate, ha]
  left
  obtain ⟨-, hr, -, hs, hframe, -, -⟩ := allocate_ok hi.good.shaped ha
  have hv := ho.valid h (Multiset.mem_cons_self _ _)
  have hid : PhysicalBlockPool.id pool' h = .ok h.id := by
    have : (pool'.slots h.id).refs ≠ 0 := ho.refs_pos (Multiset.mem_cons_self _ _)
    simp [PhysicalBlockPool.id, PhysicalBlockPool.refCount, refCount, checked_ok h hv, Except.map,
      this]
  have hgood : Good H pool' := by
    have := allocate_keeps (H := H) pool hi.good
    rwa [ha] at this
  have hslot : ∀ l ∈ locs, l.slot ≠ h.id := fun l hl => hnew l.handle (mem_owned hl)
  refine ⟨⟨h.id, h.generation⟩, pool', ?_, hgood, ?_, ?_, fun l hl g hg => ?_, fun l hl => ?_, ?_⟩
  · simp [GpuTier.allocate, onFst, PhysicalBlockPool.allocate, ha, hid]
  · rw [Multiset.map_cons, Multiset.cons_add]
    exact ho
  · rw [Multiset.map_cons, Multiset.nodup_cons]
    refine ⟨fun hm => ?_, hi.nodup⟩
    obtain ⟨l, hl, he⟩ := Multiset.mem_map.mp hm
    exact hslot l hl he
  · rcases Multiset.mem_cons.mp hl with rfl | hl
    · exact hnew g (other_mem_owned hg)
    · exact hi.unshared l hl g hg
  · rcases Multiset.mem_cons.mp hl with rfl | hl
    · rw [hs]
    · rw [hframe _ (hslot l hl)]
      exact hi.unpublished l hl
  · rw [Multiset.card_cons, ← hi.allocated_eq]

/-- **`release`** takes back every page of the tier. -/
theorem release (hi : Inv H pool t others locs) (hl : l ∈ locs) :
    ∃ pool', GpuTier.release l (pool, t) = .ok () (pool', { t with allocated := sizeSub t.allocated 1 }) ∧
      Inv H pool' { t with allocated := sizeSub t.allocated 1 } others (locs.erase l) := by
  obtain ⟨hr, ho⟩ := hi.owned.release (mem_owned hl)
  have hgood : Good H (pool.released l.slot) := by
    have := release_keeps (H := H) l.handle pool hi.good
    rwa [hr] at this
  refine ⟨pool.released l.slot, ?_, hgood, ?_, ?_, fun l' hl' => ?_, fun l' hl' => ?_, ?_⟩
  · have hr' : BlockManager.release ⟨l.slot, l.generation⟩ pool = .ok () (pool.released l.slot) := hr
    simp [GpuTier.release, onFst, PhysicalBlockPool.free, hr']
  · have : (locs.map TierLocation.handle + others).erase l.handle =
        (locs.erase l).map TierLocation.handle + others := by
      rw [Multiset.erase_add_left_pos _ (Multiset.mem_map_of_mem _ hl)]
      congr 1
      conv_lhs => rw [← Multiset.cons_erase hl, Multiset.map_cons, Multiset.erase_cons_head]
    rwa [this] at ho
  · exact Multiset.nodup_of_le (Multiset.map_le_map (Multiset.erase_le l locs)) hi.nodup
  · exact hi.unshared l' (Multiset.mem_of_mem_erase hl')
  · have := hi.unpublished l' (Multiset.mem_of_mem_erase hl')
    rw [released_slots]
    split_ifs with h1 h2
    · rw [h1] at this; exact this
    · rw [h1] at this; exact this
    · exact this
  · have hpos : 1 ≤ locs.card := Multiset.card_pos_iff_exists_mem.mpr ⟨l, hl⟩
    simp only
    rw [hi.allocated_eq, sizeSub_of_le hpos, Multiset.card_erase_of_mem hl]
    rfl

end Inv

end GpuTier

/-! ## The three tiers -/

/-- The books of the three tiers. -/
structure Tiers.Inv (H : Tokens → UInt64) (t : Tiers) (others : Multiset BlockHandle)
    (locs : StorageTier → Multiset TierLocation) : Prop where
  gpu : t.gpu.Inv H t.pool others (locs .GPU)
  cpu : t.cpu.Inv (locs .CPU)
  nvme : t.nvme.Inv (locs .NVME)

namespace Tiers

open BlockManager

/-- No generation counter has reached its maximum. -/
def Fresh (t : Tiers) : Prop :=
  (∀ i, (t.pool.slots i).generation ≠ u64Max) ∧ (∀ i, (t.cpu.slots i).generation ≠ u64Max) ∧
    ∀ i, (t.nvme.slots i).generation ≠ u64Max

variable {H : Tokens → UInt64} {t t' : Tiers} {others : Multiset BlockHandle}
  {locs : StorageTier → Multiset TierLocation} {l : TierLocation}

/-- What a tier owner can rely on: the location is out, in every tier. -/
def Live (t : Tiers) : StorageTier → TierLocation → Prop
  | .GPU, l => t.pool.Valid l.handle
  | .CPU, l => t.cpu.Live l
  | .NVME, l => t.nvme.Live l

namespace Inv

theorem nodup (hi : t.Inv H others locs) (tier : StorageTier) :
    ((locs tier).map TierLocation.slot).Nodup := by
  cases tier with
  | GPU => exact hi.gpu.nodup
  | CPU => exact hi.cpu.nodup
  | NVME => exact hi.nvme.nodup

theorem allocated_eq (hi : t.Inv H others locs) (tier : StorageTier) :
    t.allocatedChunks tier = (locs tier).card := by
  cases tier with
  | GPU => exact hi.gpu.allocated_eq
  | CPU => exact hi.cpu.allocated_eq
  | NVME => exact hi.nvme.allocated_eq

theorem live (hi : t.Inv H others locs) (tier : StorageTier) (hl : l ∈ locs tier) :
    t.Live tier l := by
  cases tier with
  | GPU => exact hi.gpu.owned.valid _ (GpuTier.Inv.mem_owned hl)
  | CPU => exact hi.cpu.live l hl
  | NVME => exact hi.nvme.live l hl

/-- **The outcomes of `allocate` on any tier.** Only an exhausted generation leaves a trace. -/
theorem allocate (hi : t.Inv H others locs) (tier : StorageTier) :
    (∃ l t', Tiers.allocate tier t = .ok l t' ∧
      t'.Inv H others (Function.update locs tier (l ::ₘ locs tier))) ∨
    (Tiers.allocate tier t = .error .capacityError t ∧ (t.Fresh → t.available tier = 0)) ∨
    (∃ e t', Tiers.allocate tier t = .error e t' ∧ t'.Inv H others locs ∧ ¬ t.Fresh) := by
  cases tier with
  | GPU =>
    rcases hi.gpu.allocate with ⟨l, pool', ha, hi'⟩ | ⟨e, hp, ha⟩
    · left
      refine ⟨l, _, by simp only [Tiers.allocate, ha]; rfl, hi', ?_, ?_⟩
      · simpa using hi.cpu
      · simpa using hi.nvme
    right
    obtain ⟨free, idle, hb⟩ := hi.gpu.good
    rcases allocate_cases hb.shape with ⟨rfl, rfl, hc⟩ | ⟨id, -, hg, hc⟩ | ⟨_, _, -, -, hc⟩ |
      ⟨_, _, -, -, -, hc⟩
    · left
      obtain rfl : Exn.capacityError = e := by
        unfold PhysicalBlockPool.allocate at hp
        rw [hc] at hp
        cases hp
        rfl
      refine ⟨by simp only [Tiers.allocate, ha], fun _ => ?_⟩
      show t.pool.stats.free + t.pool.stats.cachedIdle = 0
      rw [hb.stats_free, hb.stats_cachedIdle]
      rfl
    · right
      exact ⟨e, t, by simp only [Tiers.allocate, ha], hi, fun hf => hf.1 id hg⟩
    · unfold PhysicalBlockPool.allocate at hp
      rw [hc] at hp
      cases hp
    · unfold PhysicalBlockPool.allocate at hp
      rw [hc] at hp
      cases hp
  | CPU =>
    rcases hi.cpu.allocate with ⟨l, c, ha, hi'⟩ | ⟨hh, ha⟩ | ⟨c, ha, hi', i, hg⟩
    · left
      refine ⟨l, _, by simp only [Tiers.allocate, ha]; rfl, ?_, ?_, ?_⟩
      · simpa using hi.gpu
      · simpa using hi'
      · simpa using hi.nvme
    · right; left
      exact ⟨by simp only [Tiers.allocate, ha], fun hf => hi.cpu.available_eq_zero hf.2.1 hh⟩
    · right; right
      exact ⟨.overflowError "slot generation exhausted", { t with cpu := c }, by simp only [Tiers.allocate, ha], ⟨hi.gpu, hi', hi.nvme⟩,
        fun hf => hf.2.1 i hg⟩
  | NVME =>
    rcases hi.nvme.allocate with ⟨l, c, ha, hi'⟩ | ⟨hh, ha⟩ | ⟨c, ha, hi', i, hg⟩
    · left
      refine ⟨l, _, by simp only [Tiers.allocate, ha]; rfl, ?_, ?_, ?_⟩
      · simpa using hi.gpu
      · simpa using hi.cpu
      · simpa using hi'
    · right; left
      exact ⟨by simp only [Tiers.allocate, ha], fun hf => hi.nvme.available_eq_zero hf.2.2 hh⟩
    · right; right
      exact ⟨.overflowError "slot generation exhausted", { t with nvme := c }, by simp only [Tiers.allocate, ha], ⟨hi.gpu, hi.cpu, hi'⟩,
        fun hf => hf.2.2 i hg⟩

/-- **`release`** takes back every location that is out, in any tier. -/
theorem release (hi : t.Inv H others locs) (tier : StorageTier) (hl : l ∈ locs tier) :
    ∃ t', Tiers.release tier l t = .ok () t' ∧
      t'.Inv H others (Function.update locs tier ((locs tier).erase l)) := by
  cases tier with
  | GPU =>
    obtain ⟨pool', hr, hi'⟩ := hi.gpu.release hl
    refine ⟨{ t with pool := pool', gpu := { t.gpu with allocated := sizeSub t.gpu.allocated 1 } },
      by simp only [Tiers.release, hr], hi', ?_, ?_⟩
    · simpa using hi.cpu
    · simpa using hi.nvme
  | CPU =>
    obtain ⟨c, hr, hi'⟩ := hi.cpu.release hl
    refine ⟨{ t with cpu := c }, by simp only [Tiers.release, hr], ?_, ?_, ?_⟩
    · simpa using hi.gpu
    · simpa using hi'
    · simpa using hi.nvme
  | NVME =>
    obtain ⟨c, hr, hi'⟩ := hi.nvme.release hl
    refine ⟨{ t with nvme := c }, by simp only [Tiers.release, hr], ?_, ?_, ?_⟩
    · simpa using hi.gpu
    · simpa using hi.cpu
    · simpa using hi'

end Inv

end Tiers

end KVFlux.V3
