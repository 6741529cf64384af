import KVFlux.TieredBlockManager.Device
import KVFlux.BlockManager.Capacity

/-!
# The GPU slots of the blocks

* `owning m`: the blocks with a slot; **`Core.remaining_add`**: the other slots are free.
* `held_leave`, `held_enter`: a slot is returned or taken; `slotReleased`, `slotTaken`: the states
  after it.
* `Core.release_slot`, **`Core.allocate_slot`**: the calls on the pool.
-/

namespace KVFlux.TieredBlockManager

open Fallible BlockManager AsyncTransfer Table

variable {c : ℕ → Bytes} {x x' : Option ℕ} {ps ps' qs qs' : List LogicalBlockHandle}
  {m m' : TieredBlockManager} {i : ℕ} {e : Entry} {h : LogicalBlockHandle} {g : BlockHandle}

/-- The number of blocks with a slot. -/
def owning (m : TieredBlockManager) : ℕ :=
  total m.logical.capacity (fun e : Entry => if e.gpu.isSome = true then 1 else 0) m.entries

theorem mem_held_iff : g ∈ m.held ↔ ∃ i < m.logical.capacity, (m.entries i).gpu = some g := by
  unfold held total
  rw [Multiset.mem_sum]
  refine exists_congr fun i => ?_
  rw [Finset.mem_range]
  refine and_congr_right fun _ => ?_
  cases hg : (m.entries i).gpu with
  | none =>
    rw [Entry.slots_none hg]
    exact iff_of_false (Multiset.notMem_zero g) fun he => by cases he
  | some g' =>
    rw [Entry.slots_some hg, Multiset.mem_singleton, Option.some_inj]
    exact eq_comm

/-! ## Counting -/

/-- The references of a slot are those of the entries and of the batches of the moves. -/
theorem Core.owned_slot (hc : Core c x ps qs m) (hu : Underway ps' m) :
    (m.transfers.pool.manager.slots i).refs ≠ 0 ↔
      ∃ j < m.logical.capacity, ∃ g, (m.entries j).gpu = some g ∧ g.id = i := by
  have howned := hc.ledger.owned
  rw [List.append_nil] at howned
  constructor
  · intro hr
    obtain ⟨g, hg, rfl⟩ := howned.count_pos hr
    rcases Multiset.mem_add.mp hg with hg | hg
    · obtain ⟨w, hw, hg⟩ := List.mem_flatMap.mp (Multiset.mem_coe.mp hg)
      rw [hu] at hw
      obtain ⟨h, hh, rfl⟩ := List.mem_map.mp hw
      have hgpu : (m.entries h.id).gpu = some g := Option.mem_toList.mp hg
      exact ⟨h.id, hc.lt_capacity (hc.live_of_gpu hgpu), g, hgpu, rfl⟩
    · obtain ⟨j, hj, hgpu⟩ := mem_held_iff.mp hg
      exact ⟨j, hj, g, hgpu, rfl⟩
  · rintro ⟨j, hj, g, hgpu, rfl⟩
    exact howned.refs_pos (Multiset.mem_add.mpr (.inr (hc.mem_held hgpu)))

/-- **The slots without a block are free.** -/
theorem Core.remaining_add (hc : Core c x ps qs m) (hu : Underway ps' m) :
    m.remainingBlocks + m.owning = m.transfers.pool.manager.capacity := by
  have hspare : m.remainingBlocks = ((Finset.range m.transfers.pool.manager.capacity).filter
      fun i => (m.transfers.pool.manager.slots i).refs = 0).card := spare_eq hc.ledger.good
  have howning : m.owning = ((Finset.range m.transfers.pool.manager.capacity).filter
      fun i => ¬ (m.transfers.pool.manager.slots i).refs = 0).card := by
    -- the entries with a slot and the slots with references are in bijection
    have hcount : m.owning = ((Finset.range m.logical.capacity).filter
        fun i => (m.entries i).gpu.isSome = true).card := by
      unfold owning total
      rw [Finset.card_filter]
    rw [hcount]
    refine Finset.card_bij (fun i _ => ((m.entries i).gpu.map BlockHandle.id).getD 0)
      (fun i hi => ?_) (fun i hi j hj he => ?_) (fun k hk => ?_)
    · obtain ⟨hi, hg⟩ := Finset.mem_filter.mp hi
      obtain ⟨g, hg⟩ := Option.isSome_iff_exists.mp hg
      rw [hg]
      have hvalid := hc.ledger.owned.valid g (Multiset.mem_add.mpr (.inr (hc.mem_held hg)))
      exact Finset.mem_filter.mpr ⟨Finset.mem_range.mpr hvalid.1,
        (hc.owned_slot hu).mpr ⟨i, Finset.mem_range.mp hi, g, hg, rfl⟩⟩
    · obtain ⟨g, hg⟩ := Option.isSome_iff_exists.mp (Finset.mem_filter.mp hi).2
      obtain ⟨g', hg'⟩ := Option.isSome_iff_exists.mp (Finset.mem_filter.mp hj).2
      rw [hg, hg'] at he
      exact hc.distinct i j g g' hg hg' he
    · obtain ⟨-, hr⟩ := Finset.mem_filter.mp hk
      obtain ⟨j, hj, g, hg, rfl⟩ := (hc.owned_slot hu).mp hr
      refine ⟨j, Finset.mem_filter.mpr ⟨Finset.mem_range.mpr hj, by rw [hg]; rfl⟩, by rw [hg]; rfl⟩
  rw [hspare, howning, Finset.card_filter_add_card_filter_not, Finset.card_range]

/-! ## One slot -/

section Entries

variable (hcapacity : m'.logical.capacity = m.logical.capacity)
  (hentries : m'.entries = Function.update m.entries i e) (hi : i < m.logical.capacity)

include hcapacity hentries hi

theorem owning_update : m'.owning + (if (m.entries i).gpu.isSome = true then 1 else 0) =
    m.owning + if e.gpu.isSome = true then 1 else 0 := by
  unfold owning
  rw [hcapacity, hentries]
  exact total_update hi e

theorem held_update : m'.held + (m.entries i).slots = m.held + e.slots := by
  unfold held
  rw [hcapacity, hentries]
  exact total_update hi e

theorem held_leave (hg : (m.entries i).gpu = some g) (hnone : e.gpu = none) :
    m'.held = m.held.erase g := by
  have h := held_update hcapacity hentries hi
  rw [Entry.slots_some hg, Entry.slots_none hnone, add_zero] at h
  rw [← h, add_comm, Multiset.singleton_add, Multiset.erase_cons_head]

theorem held_enter (hnone : (m.entries i).gpu = none) (hg : e.gpu = some g) :
    m'.held = g ::ₘ m.held := by
  have h := held_update hcapacity hentries hi
  rw [Entry.slots_some hg, Entry.slots_none hnone, add_zero] at h
  rw [h, add_comm, Multiset.singleton_add]

end Entries

/-- The pool has another manager. -/
def withPoolManager (mgr : BlockManager) (m : TieredBlockManager) : TieredBlockManager :=
  { m with transfers := { m.transfers with pool := { m.transfers.pool with manager := mgr } } }

/-- The reference of the slot `g` is returned. -/
def slotReleased (g : BlockHandle) (m : TieredBlockManager) : TieredBlockManager :=
  m.withPoolManager (m.transfers.pool.manager.released g.id)

/-- **A slot can be returned.** -/
theorem release_slot (hled : Ledger m.held [] m.transfers) (hmem : g ∈ m.held) :
    onGpu (GpuMemoryPool.release g) m = .ok () (slotReleased g m) ∧
      Ledger (m.held.erase g) [] (slotReleased g m).transfers := by
  have howned := hled.owned
  have hall : g ∈ (batchBlocks (m.transfers.runtime.pending ++ []) : Multiset BlockHandle) + m.held :=
    Multiset.mem_add.mpr (.inr hmem)
  obtain ⟨hrelease, hleft⟩ := howned.release hall
  have hgood := release_keeps (H := prefixHash) g m.transfers.pool.manager hled.good
  rw [hrelease] at hgood
  rw [Multiset.erase_add_right_pos _ hmem] at hleft
  refine ⟨?_, hled.callers hgood hleft rfl rfl fun _ => rfl⟩
  unfold onGpu
  rw [onTransfers_apply (r := .ok () (slotReleased g m).transfers)]
  · rfl
  · unfold onPool GpuMemoryPool.release
    rw [GpuMemoryPool.onManager_ok hrelease]
    rfl

/-- The slot of a block can be returned. -/
theorem Core.release_slot (hc : Core c x ps qs m) (hg : (m.entries i).gpu = some g) :
    onGpu (GpuMemoryPool.release g) m = .ok () (slotReleased g m) ∧
      Ledger (m.held.erase g) [] (slotReleased g m).transfers :=
  TieredBlockManager.release_slot hc.ledger (hc.mem_held hg)

/-- The slot `g` is taken; the manager of the pool is `mgr`. -/
def slotTaken (g : BlockHandle) (mgr : BlockManager) (m : TieredBlockManager) :
    TieredBlockManager :=
  { m with transfers := { m.transfers with pool := { m.transfers.pool with
      manager := mgr, initialized := Function.update m.transfers.pool.initialized g.id false } } }

/-- What an allocated slot is like. -/
structure Fresh (m : TieredBlockManager) (g : BlockHandle) (mgr : BlockManager) : Prop where
  ledger : Ledger (g ::ₘ m.held) [] (slotTaken g mgr m).transfers
  refs : (mgr.slots g.id).refs = 1
  unowned : ∀ j g', (m.entries j).gpu = some g' → g.id ≠ g'.id
  unpublished : ∀ j, (mgr.slots j).cached = false
  capacity : mgr.capacity = m.transfers.pool.manager.capacity
  landed : (m.transfers.pool.inFlight g.id) = false

/-- **The outcomes of an allocation**; it lacks a slot only when none remains. -/
theorem Core.allocate_slot (hc : Core c x ps qs m) :
    (∃ g mgr, onGpu GpuMemoryPool.allocate m = .ok g (slotTaken g mgr m) ∧ Fresh m g mgr) ∨
    (∃ e, onGpu GpuMemoryPool.allocate m = .error e m ∧
      (e = .capacityError → m.remainingBlocks = 0)) := by
  have howned := hc.ledger.owned
  have hgood := hc.ledger.good
  cases halloc : BlockManager.allocate m.transfers.pool.manager with
  | ok g mgr =>
    left
    refine ⟨g, mgr, ?_, ?_⟩
    · unfold onGpu
      rw [onTransfers_apply (r := .ok g (slotTaken g mgr m).transfers)]
      · rfl
      · unfold onPool
        rw [GpuMemoryPool.allocate_ok halloc]
        rfl
    obtain ⟨-, hzero, -, hslot, hrest, hcapacity, -⟩ := allocate_ok hgood.shaped halloc
    obtain ⟨hnew, hne⟩ := howned.allocated hgood.shaped halloc
    have hkeeps := allocate_keeps (H := prefixHash) m.transfers.pool.manager hgood
    rw [halloc] at hkeeps
    rw [← Multiset.add_cons] at hnew
    refine ⟨hc.ledger.callers hkeeps hnew rfl rfl fun _ => rfl, by rw [hslot],
      fun j g' hg' he => ?_, fun j => ?_, hcapacity, ?_⟩
    · exact hne g' (Multiset.mem_add.mpr (.inr (hc.mem_held hg'))) he.symm
    · by_cases hj : j = g.id
      · rw [hj, hslot]
      · rw [hrest j hj]
        exact hc.unpublished j
    · cases hflight : m.transfers.pool.inFlight g.id with
      | false => rfl
      | true =>
        obtain ⟨g', hg', hid⟩ := List.mem_map.mp ((hc.ledger.inFlight g.id).mp hflight)
        exact absurd hid (hne g' (Multiset.mem_add.mpr (.inl (Multiset.mem_coe.mpr hg'))))
  | error e mgr =>
    right
    obtain ⟨free, idle, hi⟩ := hgood
    have hsame : mgr = m.transfers.pool.manager ∧
        (e = .capacityError → m.remainingBlocks = 0) := by
      rcases allocate_cases hi.shape with
        ⟨hfree, hidle, ha⟩ | ⟨id, -, -, ha⟩ | ⟨id, fs, -, -, ha⟩ | ⟨id, is, -, -, -, ha⟩
      · rw [ha] at halloc
        cases halloc
        refine ⟨rfl, fun _ => ?_⟩
        show m.transfers.pool.manager.stats.free + m.transfers.pool.manager.stats.cachedIdle = 0
        rw [hi.stats_free, hi.stats_cachedIdle, hfree, hidle]
        rfl
      · rw [ha] at halloc
        cases halloc
        exact ⟨rfl, fun he => by cases he⟩
      · rw [ha] at halloc
        cases halloc
      · rw [ha] at halloc
        cases halloc
    obtain ⟨rfl, hfull⟩ := hsame
    refine ⟨e, ?_, hfull⟩
    unfold onGpu
    rw [onTransfers_apply (r := .error e m.transfers)]
    · rfl
    · unfold onPool
      rw [GpuMemoryPool.allocate_error halloc]

end KVFlux.TieredBlockManager
