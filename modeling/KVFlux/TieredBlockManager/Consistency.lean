import KVFlux.TieredBlockManager.Session

/-!
# What the fields say between two calls

* `EntryConsistent`: the fields of an entry fit together and agree with the lists of moves;
  `Consistent`: and so do the LRU list and the GPU slots.
* **`entries_consistent`**: every reachable state is consistent.
* **`queue_reserved`**: every queued load has a slot to come, and no wait lacks one.
* **`metrics_conserved`**: the identities between the metrics.
-/

namespace KVFlux.TieredBlockManager

open Fallible BlockManager AsyncTransfer Table Transition

variable {c : ℕ → Bytes} {x : Option ℕ} {ps qs : List LogicalBlockHandle}
  {m m' : TieredBlockManager} {i : ℕ} {e : Entry} {h : LogicalBlockHandle} {g : BlockHandle}

/-! ## The entries -/

/-- The fields of an entry fit together and agree with the lists of moves. -/
structure EntryConsistent (m : TieredBlockManager) (e : Entry) : Prop where
  resident : e.location = .gpuResident ↔ e.gpu.isSome = true ∧ e.move = .none
  stored : e.location = .cpuResident → e.gpu = none ∧ e.move = .none
  moving : e.move = .toGpu ∨ e.move = .toCpu ↔
    m.pending.count e.handle = 1 ∧ e.gpu.isSome = true
  queued : e.move = .queuedLoad ↔ m.queued.count e.handle = 1 ∧ e.gpu = none

/-- The number of references of a slot: its block has one, and its move another. -/
def Entry.slotRefs (e : Entry) : ℕ := if e.move = .toGpu ∨ e.move = .toCpu then 2 else 1

/-- **The entries, the lists and the slots agree.** -/
structure Consistent (m : TieredBlockManager) : Prop where
  defined : m.undefined = false
  entry : ∀ i, (m.entries i).live = true → EntryConsistent m (m.entries i)
  listed : ∀ h, h ∈ m.pending ∨ h ∈ m.queued →
    (m.entries h.id).live = true ∧ (m.entries h.id).handle = h
  lru : ∃ xs, m.residentLru.Repr xs ∧ ∀ i, i ∈ xs ↔ (m.entries i).live = true ∧
    (m.entries i).location = .gpuResident ∧ (m.entries i).pins = 0
  distinct : ∀ i j g g', (m.entries i).gpu = some g → (m.entries j).gpu = some g' → g.id = g'.id →
    i = j
  refs : ∀ i g, (m.entries i).gpu = some g → m.transfers.pool.manager.Valid g ∧
    (m.transfers.pool.manager.slots g.id).refs = (m.entries i).slotRefs
  slots : m.remainingBlocks + m.countLive (fun e => e.gpu.isSome) = m.transfers.pool.totalBlocks

/-- An entry is in a list of moves once or not at all. -/
theorem Tracks.count_eq_one {p : Entry → Prop} {entries : ℕ → Entry} {hs : List LogicalBlockHandle}
    (ht : Tracks p entries hs) (hid : (entries i).handle.id = i) :
    hs.count (entries i).handle = 1 ↔ p (entries i) := by
  constructor
  · intro hcount
    have hmem : (entries i).handle ∈ hs := List.count_pos_iff.mp (by omega)
    have hp := ht.of_mem hmem
    rwa [hid] at hp
  · intro hp
    obtain ⟨h, hh, hi⟩ := List.mem_map.mp ((ht.mem i).mpr hp)
    have hsame : (entries i).handle = h := hi ▸ ht.handle h hh
    rw [hsame]
    exact List.count_eq_one_of_mem (List.Nodup.of_map _ ht.nodup) hh

theorem Entry.gpu_of_phase {p : Phase} (hp : e.phase = some p) :
    e.gpu.isSome = true ↔ p ≠ .stored ∧ p ≠ .queued := by
  cases p with
  | resident =>
    obtain ⟨-, -, g, hg⟩ := Entry.phase_resident.mp hp
    exact hg ▸ iff_of_true rfl (by decide)
  | loading =>
    obtain ⟨-, -, g, hg⟩ := Entry.phase_loading.mp hp
    exact hg ▸ iff_of_true rfl (by decide)
  | saving =>
    obtain ⟨-, -, g, hg⟩ := Entry.phase_saving.mp hp
    exact hg ▸ iff_of_true rfl (by decide)
  | stored => exact (Entry.phase_stored.mp hp).2.2 ▸ iff_of_false (by decide) (by decide)
  | queued => exact (Entry.phase_queued.mp hp).2.2 ▸ iff_of_false (by decide) (by decide)

theorem Core.entryConsistent (hc : Core c x m.pending m.queued m)
    (hl : (m.entries i).live = true) : EntryConsistent m (m.entries i) := by
  obtain ⟨p, hp⟩ := hc.exists_phase i
  obtain ⟨hlocation, hmove⟩ := Entry.of_phase hp
  have hid := (hc.valid_of_live hl).2
  have hgpu := Entry.gpu_of_phase hp
  have hnone : (m.entries i).gpu = none ↔ p = .stored ∨ p = .queued := by
    rw [← Option.not_isSome_iff_eq_none, hgpu]
    cases p <;> decide
  have hmoving := hc.moving.count_eq_one hid
  have hwaiting := hc.waiting.count_eq_one hid
  unfold Entry.Moving at hmoving
  unfold Entry.Waiting at hwaiting
  rw [hp] at hmoving hwaiting
  refine ⟨?_, ?_, ?_, ?_⟩
  · rw [hlocation, hmove, hgpu]
    cases p <;> decide
  · rw [hlocation, hmove, hnone]
    cases p <;> decide
  · rw [hmove, hmoving, hgpu]
    cases p <;> decide
  · rw [hmove, hwaiting, hnone]
    cases p <;> decide

/-- **The references of a GPU slot** are those of its block and of the move of the block. -/
theorem Core.slot_refs (hc : Core c x ps qs m) (hu : Underway ps m)
    (hg : (m.entries i).gpu = some g) : m.transfers.pool.manager.Valid g ∧
      (m.transfers.pool.manager.slots g.id).refs = (m.entries i).slotRefs := by
  have howned := hc.ledger.owned
  have hnodup := hc.ledger.ids_nodup
  rw [List.append_nil] at howned hnodup
  have hmem : g.id ∈ batchIds m.transfers.runtime.pending ↔ (m.entries i).Moving := by
    rw [hu, ← hc.moving.mem i]
    constructor
    · intro hm
      obtain ⟨w, hw, g', hg', hid⟩ := mem_batchIds.mp hm
      obtain ⟨h, hh, rfl⟩ := List.mem_map.mp hw
      have hgpu : (m.entries h.id).gpu = some g' := Option.mem_toList.mp hg'
      rw [hc.distinct i h.id g g' hg hgpu hid.symm]
      exact List.mem_map_of_mem hh
    · intro hi
      obtain ⟨h, hh, rfl⟩ := List.mem_map.mp hi
      refine mem_batchIds.mpr ⟨m.batch h, List.mem_map_of_mem hh, g, ?_, rfl⟩
      exact Option.mem_toList.mpr hg
  refine ⟨howned.valid g (Multiset.mem_add.mpr (.inr (hc.mem_held hg))), ?_⟩
  have hcount : ((batchBlocks m.transfers.runtime.pending : Multiset BlockHandle).map
      BlockHandle.id).count g.id = (batchIds m.transfers.runtime.pending).count g.id := by
    rw [Multiset.map_coe, Multiset.coe_count]
    rfl
  rw [howned.refs_eq, Multiset.map_add, Multiset.count_add, hc.count_held hg, hcount]
  obtain ⟨p, hp⟩ := hc.exists_phase i
  have hmove := (Entry.of_phase hp).2
  have hcases : (m.entries i).Moving ↔
      (m.entries i).move = .toGpu ∨ (m.entries i).move = .toCpu := by
    unfold Entry.Moving
    rw [hp, hmove]
    cases p <;> decide
  unfold Entry.slotRefs
  by_cases hm : (m.entries i).Moving
  · rw [if_pos (hcases.mp hm), List.count_eq_one_of_mem hnodup (hmem.mpr hm)]
  · rw [if_neg (mt hcases.mpr hm), List.count_eq_zero.mpr (mt hmem.mp hm)]

theorem Inv.consistent (hi : Inv c m) : Consistent m where
  defined := hi.steady.core.defined
  entry _ hl := hi.steady.core.entryConsistent hl
  listed h hh := by
    have hc := hi.steady.core
    rcases hh with hh | hh
    · refine ⟨hc.live_of_phase fun hp => ?_, hc.moving.handle h hh⟩
      rcases hc.moving.of_mem hh with hm | hm
      all_goals exact absurd (hp.symm.trans hm) (by decide)
    · refine ⟨hc.live_of_phase fun hp => ?_, hc.waiting.handle h hh⟩
      exact absurd (hp.symm.trans (hc.waiting.of_mem hh)) (by decide)
  lru := by
    have hc := hi.steady.core
    obtain ⟨xs, hrepr, hmem⟩ := hc.lru
    refine ⟨xs, hrepr, fun i => (hmem i).trans ⟨fun he => ?_, fun he => ?_⟩⟩
    · obtain ⟨hlocation, -, g, hg⟩ := Entry.phase_resident.mp he.1
      exact ⟨hc.live_of_gpu hg, hlocation, he.2⟩
    · obtain ⟨p, hp⟩ := hc.exists_phase i
      have hlocation := (Entry.of_phase hp).1
      rw [he.2.1] at hlocation
      refine ⟨?_, he.2.2⟩
      cases p <;> first | exact hp | cases hlocation
  distinct := hi.steady.core.distinct
  refs i g hg := hi.steady.core.slot_refs hi.steady.underway hg
  slots := by
    have hcount : m.countLive (fun e => e.gpu.isSome) = m.owning := by
      unfold owning countLive
      rw [total_eq_countP]
      refine List.countP_congr fun i _ => ?_
      rw [Bool.and_eq_true]
      refine and_iff_right_of_imp fun hg => ?_
      obtain ⟨g, hg⟩ := Option.isSome_iff_exists.mp hg
      exact hi.steady.core.live_of_gpu hg
    rw [hcount]
    exact hi.steady.remaining_add

/-! ## The metrics -/

/-- **The identities between the metrics.** Without failures of the device every counted move has
carried one block. -/
structure Conserved (m : TieredBlockManager) : Prop where
  prefetches : m.metrics.prefetchCount = m.metrics.prefetchHits + m.metrics.prefetchLate +
    m.metrics.prefetchUnused + m.metrics.prefetchOutstanding
  demands : m.metrics.demandCount = m.metrics.gpuDemandHits + m.metrics.prefetchMisses
  hits : m.metrics.prefetchHits ≤ m.metrics.gpuDemandHits
  late : m.metrics.prefetchLate ≤ m.metrics.prefetchMisses
  places : m.metrics.logicalBlocks =
    m.stats.gpuResident + m.metrics.cpuCachedBlocks + m.metrics.transferringBlocks
  used : m.metrics.gpuBlocksUsed = m.countLive fun e => e.gpu.isSome
  toCpu : m.faults = 0 → m.metrics.transfers.gpuToCpu.bytes = m.metrics.offloadCount * m.blockBytes
  toGpu : m.faults = 0 → m.metrics.transfers.cpuToGpu.bytes = m.metrics.loadCount * m.blockBytes

/-- The live entries, by where their blocks are. -/
theorem countLive_location (m : TieredBlockManager) : (m.countLive fun _ => true) =
    (m.countLive fun e => e.location = .gpuResident) +
      (m.countLive fun e => e.location = .cpuResident) +
      m.countLive fun e => e.location = .transferring := by
  unfold countLive
  induction List.range m.logical.capacity with
  | nil => rfl
  | cons i is ih =>
    simp only [List.countP_cons, ih]
    cases (m.entries i).live <;> cases (m.entries i).location <;> simp <;> omega

theorem Core.outstanding_eq (hc : Core c x ps qs m) :
    m.outstanding = m.countLive Entry.prefetched := by
  unfold outstanding countLive
  rw [total_eq_countP]
  refine List.countP_congr fun i _ => ?_
  rw [Bool.and_eq_true]
  refine (and_iff_right_of_imp fun hm => hc.live_of_ne fun he => ?_).symm
  rw [he] at hm
  cases hm

theorem Clients.conserved {held : Multiset LogicalBlockHandle} {leases : Multiset GpuLease}
    (hc : Clients c held leases m) : Conserved m where
  prefetches := by
    have hmarks := hc.counted.marks
    unfold marks at hmarks
    rw [hc.inv.steady.core.outstanding_eq] at hmarks
    exact hmarks.symm
  demands := hc.counted.demands
  hits := hc.counted.hits
  late := hc.counted.late
  places := countLive_location m
  used := by
    have hslots := hc.inv.consistent.slots
    show m.transfers.pool.totalBlocks - m.remainingBlocks = _
    omega
  toCpu hf := (hc.inv.steady.billed hf).1
  toGpu hf := (hc.inv.steady.billed hf).2

namespace Session

variable {s s' : Session}

/-- **The entries, the lists and the GPU slots agree** in every reachable state. -/
theorem entries_consistent (hr : Reachable step Start Allowed s) : Consistent s.manager :=
  (reachable_sound hr).inv.consistent

/-- A load waits for the slot of the block that makes room for it. -/
theorem entries_consistent_small : ∃ s, Reachable step Start Allowed s ∧
    (s.manager.entries 0).move = .queuedLoad ∧ (s.manager.entries 1).move = .toCpu ∧
    Consistent s.manager := by
  have hstate : (runAllowed [⟨.create (some [1, 2]), []⟩, ⟨.create (some [3, 4]), []⟩,
      ⟨.prefetchNext [⟨0, 1⟩, ⟨0, 1⟩] 0 1, []⟩] small).map
      (fun s => ((s.manager.entries 0).move, (s.manager.entries 1).move)) =
      some (.queuedLoad, .toCpu) := by decide +kernel
  obtain ⟨s, hs, hmoves⟩ := Option.map_eq_some_iff.mp hstate
  obtain ⟨hqueued, hsaving⟩ := Prod.mk.inj hmoves
  have hr := reachable_runAllowed (.start small_start) hs
  exact ⟨s, hr, hqueued, hsaving, entries_consistent hr⟩

/-- **Every queued load has a slot to come.** So no wait lacks a slot, two rounds are enough, and
nothing is left to wait for after a wait that returns. -/
theorem queue_reserved (hr : Reachable step Start Allowed s) :
    s.manager.queued.length ≤
      s.manager.pending.countP (fun h => (s.manager.entries h.id).move = .toCpu) ∧
    ∀ answers, (∀ n, waitLoop (n + 2) (s.manager.armed answers) =
        TieredBlockManager.wait (s.manager.armed answers)) ∧
      (∀ m, TieredBlockManager.wait (s.manager.armed answers) = .ok () m →
        m.pending = [] ∧ m.queued = []) ∧
      (∀ e m, TieredBlockManager.wait (s.manager.armed answers) = .error e m →
        e ≠ .capacityError ∧ m.queued = []) ∧
      ∀ e m, TieredBlockManager.poll (s.manager.armed answers) = .error e m →
        e ≠ .capacityError := by
  have hs := reachable_sound hr
  refine ⟨hs.inv.reserve, fun answers => ?_⟩
  have hi := (hs.armed answers).1.inv
  refine ⟨waitLoop_eq hi, fun m hm => ?_, fun e m hm => ?_, fun e m hm => ?_⟩
  · have hw := (wait_post hi).of_ok hm
    exact ⟨hw.pending, hw.queued⟩
  · have hb := (wait_post hi).of_error hm
    exact ⟨hb.notCapacity, hb.queued⟩
  · exact ((poll_post hi).of_error hm).2.2

/-- One load waits behind one move to the host, and is started by `wait`. -/
theorem queue_reserved_small : ∃ s, Reachable step Start Allowed s ∧
    s.manager.queued = [⟨0, 1⟩] ∧ s.manager.pending = [⟨1, 1⟩] ∧
    ∀ m, TieredBlockManager.wait (s.manager.armed []) = .ok () m →
      m.pending = [] ∧ m.queued = [] := by
  have hstate : (runAllowed [⟨.create (some [1, 2]), []⟩, ⟨.create (some [3, 4]), []⟩,
      ⟨.prefetchNext [⟨0, 1⟩, ⟨0, 1⟩] 0 1, []⟩] small).map
      (fun s => (s.manager.queued, s.manager.pending)) = some ([⟨0, 1⟩], [⟨1, 1⟩]) := by
    decide +kernel
  obtain ⟨s, hs, hlists⟩ := Option.map_eq_some_iff.mp hstate
  obtain ⟨hqueued, hpending⟩ := Prod.mk.inj hlists
  have hr := reachable_runAllowed (.start small_start) hs
  exact ⟨s, hr, hqueued, hpending, ((queue_reserved hr).2 []).2.1⟩

/-- **The metrics are conserved** in every reachable state. -/
theorem metrics_conserved (hr : Reachable step Start Allowed s) : Conserved s.manager :=
  (reachable_sound hr).conserved

/-- A prefetched block that is moved out again without a demand. -/
theorem metrics_conserved_small : ∃ s, Reachable step Start Allowed s ∧
    s.manager.metrics.prefetchUnused = 1 ∧ s.manager.metrics.prefetchCount = 1 ∧
    s.manager.metrics.offloadCount = 3 ∧ Conserved s.manager := by
  have hstate : (runAllowed [⟨.create (some [1, 2]), []⟩, ⟨.create (some [3, 4]), []⟩,
      ⟨.prefetchNext [⟨0, 1⟩, ⟨0, 1⟩] 0 1, []⟩, ⟨.wait, []⟩, ⟨.offload ⟨0, 1⟩, []⟩, ⟨.wait, []⟩]
      small).map (fun s => (s.manager.metrics.prefetchUnused, s.manager.metrics.prefetchCount,
        s.manager.metrics.offloadCount)) = some (1, 1, 3) := by decide +kernel
  obtain ⟨s, hs, hmetrics⟩ := Option.map_eq_some_iff.mp hstate
  obtain ⟨hunused, hmetrics⟩ := Prod.mk.inj hmetrics
  obtain ⟨hcount, hoffloads⟩ := Prod.mk.inj hmetrics
  have hr := reachable_runAllowed (.start small_start) hs
  exact ⟨s, hr, hunused, hcount, hoffloads, metrics_conserved hr⟩

end Session

end KVFlux.TieredBlockManager
