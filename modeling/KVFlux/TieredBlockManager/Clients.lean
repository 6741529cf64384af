import KVFlux.TieredBlockManager.Prefetch

/-!
# The clients of a tiered block manager

Clients own references to logical blocks, and leases, which hold a reference each.

* `Counted`: the identities between the counters.
* **`Clients c held leases m`**: the state between two calls, for clients with the references `held`
  and the leases `leases`; **`Clients.moved`**: a call that moves blocks keeps it.
* `Inv.renew`: a change that the moves do not see.
* **`Clients.retained`**, **`Clients.pinned`**, **`Clients.unpinned`**: a reference is taken, and
  turned into a lease and back. `Clients.demanded`: a demand is counted.
-/

namespace KVFlux.TieredBlockManager

open Fallible BlockManager AsyncTransfer Table

variable {c c' : ℕ → Bytes} {x x' : Option ℕ} {ps qs : List LogicalBlockHandle}
  {m m' m'' : TieredBlockManager} {i : ℕ} {e : Entry} {h : LogicalBlockHandle} {g : BlockHandle}
  {held : Multiset LogicalBlockHandle} {leases : Multiset GpuLease} {l : GpuLease}

/-- The identities between the counters. -/
structure Counted (m : TieredBlockManager) : Prop where
  demands : m.demandCount = m.gpuDemandHits + m.prefetchMisses
  hits : m.prefetchHits ≤ m.gpuDemandHits
  late : m.prefetchLate ≤ m.prefetchMisses
  marks : m.marks = m.prefetchSubmitted

theorem Counted.frame (h : Counted m) (hf : Frame m m') : Counted m' := by
  have hdemand := hf.demand
  unfold demand at hdemand
  simp only [Prod.mk.injEq] at hdemand
  obtain ⟨hcount, hhits, hmisses, hprefetch, hlate⟩ := hdemand
  have hmarks := hf.marks
  have hdemands := h.demands
  have hle := h.hits
  have hle' := h.late
  have hold := h.marks
  constructor <;> omega

/-- The lease has the address of the slot of its block. -/
def Placed (m : TieredBlockManager) (l : GpuLease) : Prop :=
  ∃ g, (m.entries l.handle.id).gpu = some g ∧
    l.address = m.transfers.pool.base + g.id * m.blockBytes

/-- The references that the clients and the leases own. -/
def owners (held : Multiset LogicalBlockHandle) (leases : Multiset GpuLease) :
    Multiset BlockHandle :=
  (held + leases.map GpuLease.handle).map raw

/-- The number of leases of the block `i`. -/
def leasesOf (leases : Multiset GpuLease) (i : ℕ) : ℕ :=
  (leases.map fun l => l.handle.id).count i

/-- **The state between two calls** of clients with the references `held` and the leases
`leases`. -/
structure Clients (c : ℕ → Bytes) (held : Multiset LogicalBlockHandle) (leases : Multiset GpuLease)
    (m : TieredBlockManager) : Prop where
  inv : Inv c m
  plain : ∀ i, (m.logical.slots i).cached = false
  owned : Owned m.logical (owners held leases)
  pins : ∀ i, (m.entries i).pins = leasesOf leases i
  placed : ∀ l ∈ leases, Placed m l
  counted : Counted m

/-! ## References and leases -/

theorem owners_cons (h : LogicalBlockHandle) (held : Multiset LogicalBlockHandle)
    (leases : Multiset GpuLease) : owners (h ::ₘ held) leases = raw h ::ₘ owners held leases := by
  unfold owners
  rw [Multiset.cons_add, Multiset.map_cons]

/-- A lease is an owner like a reference. -/
theorem owners_lease (l : GpuLease) (held : Multiset LogicalBlockHandle)
    (leases : Multiset GpuLease) : owners held (l ::ₘ leases) = owners (l.handle ::ₘ held) leases := by
  unfold owners
  rw [Multiset.map_cons, Multiset.add_cons, Multiset.cons_add]

theorem mem_owners (hh : h ∈ held) : raw h ∈ owners held leases :=
  Multiset.mem_map_of_mem raw (Multiset.mem_add.mpr (.inl hh))

theorem mem_owners_lease (hl : l ∈ leases) : raw l.handle ∈ owners held leases :=
  Multiset.mem_map_of_mem raw (Multiset.mem_add.mpr (.inr (Multiset.mem_map_of_mem _ hl)))

theorem leasesOf_cons (l : GpuLease) (leases : Multiset GpuLease) (i : ℕ) :
    leasesOf (l ::ₘ leases) i = leasesOf leases i + if i = l.handle.id then 1 else 0 := by
  unfold leasesOf
  rw [Multiset.map_cons, Multiset.count_cons]

theorem leasesOf_ne (hl : l ∈ leases) : leasesOf leases l.handle.id ≠ 0 :=
  Multiset.count_ne_zero.mpr (Multiset.mem_map_of_mem _ hl)

theorem exists_lease (hi : leasesOf leases i ≠ 0) : ∃ l ∈ leases, l.handle.id = i :=
  Multiset.mem_map.mp (Multiset.count_ne_zero.mp hi)

namespace Clients

theorem valid (hc : Clients c held leases m) (hh : h ∈ held) : m.logical.Valid (raw h) :=
  hc.owned.valid _ (mem_owners hh)

theorem leased_valid (hc : Clients c held leases m) (hl : l ∈ leases) :
    m.logical.Valid (raw l.handle) :=
  hc.owned.valid _ (mem_owners_lease hl)

/-- A block in use has an owner: without references it would be published. -/
theorem refs_ne (hc : Clients c held leases m) (hlive : (m.logical.slots i).free = false) :
    (m.logical.slots i).refs ≠ 0 := fun hrefs => by
  obtain ⟨free, idle, hs⟩ := hc.inv.steady.core.shaped
  have hcached := (hs.slot i).idle_cached hlive hrefs
  rw [hc.plain] at hcached
  cases hcached

theorem pins_ne (hc : Clients c held leases m) (hl : l ∈ leases) :
    (m.entries l.handle.id).pins ≠ 0 := by
  rw [hc.pins]
  exact leasesOf_ne hl

/-- A leased block is in its slot. -/
theorem leased_resident (hc : Clients c held leases m) (hl : l ∈ leases) :
    (m.entries l.handle.id).phase = some .resident :=
  (hc.inv.steady.core.entry l.handle.id).pinned (hc.pins_ne hl)

/-- **A call that moves blocks.** -/
theorem moved (hc : Clients c held leases m) (hi : Inv c m') (hf : Frame m m') :
    Clients c held leases m' where
  inv := hi
  plain i := by
    rw [hf.logical]
    exact hc.plain i
  owned := by
    rw [hf.logical]
    exact hc.owned
  pins i := by
    rw [(hf.entry i).2.2]
    exact hc.pins i
  placed l hl := by
    unfold Placed
    rw [hf.pinned _ (hc.pins_ne hl), hf.base, hf.blockBytes]
    exact hc.placed l hl
  counted := hc.counted.frame hf

end Clients

/-! ## Changes that the moves do not see -/

/-- The entries of the moves, the runtime and the counts of moves stay as they are. -/
structure Unmoved (m m' : TieredBlockManager) : Prop where
  pending : m'.pending = m.pending
  queued : m'.queued = m.queued
  moving : ∀ g ∈ m.pending, (m'.entries g.id).gpu = (m.entries g.id).gpu ∧
    (m'.entries g.id).move = (m.entries g.id).move
  runtime : m'.transfers.runtime = m.transfers.runtime
  blockBytes : m'.blockBytes = m.blockBytes
  offloads : m'.offloads = m.offloads
  loads : m'.loads = m.loads
  faults : m'.faults = m.faults

/-- **A change that the moves do not see** keeps the state between two calls. -/
theorem Inv.renew (hi : Inv c m) (hu : Unmoved m m') (hc : Core c' none m.pending m.queued m') :
    Inv c' m' where
  steady := by
    refine ⟨?_, ?_, billed_congr hi.steady.billed hu.runtime hu.blockBytes hu.offloads hu.loads
      hu.faults⟩
    · rw [hu.pending, hu.queued]
      exact hc
    · rw [hu.pending]
      exact underway_congr hi.steady.underway hu.moving hu.runtime
  reserve := by
    rw [hu.queued, hu.pending, leaving_congr fun g hg => (hu.moving g hg).2]
    exact hi.reserve

theorem entries_ne (hentries : m'.entries = Function.update m.entries i e) {j : ℕ} (hj : j ≠ i) :
    m'.entries j = m.entries j := by
  rw [hentries, Function.update_of_ne hj]

/-- The entries of the moves are not the one that changes. -/
theorem moving_ne (hc : Core c x ps qs m) (hentries : m'.entries = Function.update m.entries i e)
    (hm : ¬ (m.entries i).Moving) (hg : h ∈ ps) : m'.entries h.id = m.entries h.id := by
  refine entries_ne hentries fun he => hm ?_
  rw [← he]
  exact hc.moving.of_mem hg

/-! ## Retaining -/

/-- The manager of the logical blocks has changed. -/
def withLogical (logical : BlockManager) (m : TieredBlockManager) : TieredBlockManager :=
  { m with logical := logical }

/-- A change of counts of references. -/
theorem Core.recounted {logical : BlockManager} (hc : Core c x ps qs m) (hshaped : Shaped logical)
    (hcapacity : logical.capacity = m.logical.capacity)
    (hslots : ∀ j, (logical.slots j).free = (m.logical.slots j).free ∧
      (logical.slots j).generation = (m.logical.slots j).generation) :
    Core c x ps qs (withLogical logical m) := by
  have hentries : (withLogical logical m).entries = Function.update m.entries 0 (m.entries 0) :=
    (Function.update_eq_self 0 m.entries).symm
  have hold := hc.entry 0
  have hheld : (withLogical logical m).held = m.held := held_same hcapacity hentries rfl
  refine hc.replace hshaped hcapacity (fun j _ => hslots j) (fun _ _ => rfl) hentries rfl
    (hheld.symm ▸ hc.ledger) hc.unpublished rfl (fun _ => rfl) (fun _ _ => rfl)
    (fun _ _ _ _ => ⟨rfl, rfl⟩) (fun g hg j g' hj hg' he => hj (hc.distinct 0 j g g' hg hg' he).symm)
    (fun _ _ hx => hx) ⟨hold.shape, hold.idle, ?_, ?_, hold.pinned, hold.marked, hold.size,
      hold.backed, hold.kept⟩ hc.moving hc.waiting hc.lru
  · show _ ↔ (logical.slots 0).free = false
    rw [(hslots 0).1]
    exact hold.live
  · show _ → _ = (⟨0, (logical.slots 0).generation⟩ : LogicalBlockHandle)
    rw [(hslots 0).2]
    exact hold.handle

theorem unmoved_withLogical (logical : BlockManager) (m : TieredBlockManager) :
    Unmoved m (withLogical logical m) := ⟨rfl, rfl, fun _ _ => ⟨rfl, rfl⟩, rfl, rfl, rfl, rfl, rfl⟩

/-- The counters do not see the references. -/
theorem Counted.withLogical {logical : BlockManager} (h : Counted m)
    (hcapacity : logical.capacity = m.logical.capacity) : Counted (m.withLogical logical) := by
  have hmarks : (m.withLogical logical).marks = m.marks := by
    unfold TieredBlockManager.marks outstanding
    show _ + total logical.capacity _ m.entries = _
    rw [hcapacity]
    rfl
  exact ⟨h.demands, h.hits, h.late, hmarks.trans h.marks⟩

/-- **A reference is taken.** -/
theorem Clients.retained (hc : Clients c held leases m) (hv : m.logical.Valid (raw h))
    (hr : (m.logical.slots h.id).refs ≠ sizeMax) :
    Clients c (h ::ₘ held) leases (m.withLogical (m.logical.retained h.id)) := by
  obtain ⟨free, idle, hs⟩ := hc.inv.steady.core.shaped
  have hslots := retained_slots m.logical h.id
  have hsame : ∀ j, ((m.logical.retained h.id).slots j).free = (m.logical.slots j).free ∧
      ((m.logical.retained h.id).slots j).generation = (m.logical.slots j).generation ∧
      ((m.logical.retained h.id).slots j).cached = (m.logical.slots j).cached := fun j => by
    rw [hslots]
    split_ifs with hj
    · rw [hj]
      exact ⟨rfl, rfl, rfl⟩
    · exact ⟨rfl, rfl, rfl⟩
  have hcore := hc.inv.steady.core.recounted ⟨free, _, hs.retained hv.2.1 hr⟩
    (BlockManager.retained_capacity ..) fun j => ⟨(hsame j).1, (hsame j).2.1⟩
  refine ⟨hc.inv.renew (unmoved_withLogical _ m) hcore, fun i => (hsame i).2.2.trans (hc.plain i), ?_,
    hc.pins, hc.placed, hc.counted.withLogical (BlockManager.retained_capacity ..)⟩
  rw [owners_cons]
  exact hc.owned.retained hv

/-- **The outcomes of `retain`.** -/
theorem retain_post (hc : Clients c held leases m) (h : LogicalBlockHandle) : Post
    (fun _ m' => m' = m.withLogical (m.logical.retained h.id) ∧ Clients c (h ::ₘ held) leases m')
    (fun e m' => m' = m ∧ NotCapacity e) (retain h m) := by
  unfold retain
  by_cases hv : m.logical.Valid (raw h)
  swap
  · rw [bind_of_error (checked_of_not_valid hv)]
    exact ⟨rfl, fun he => absurd he (by decide)⟩
  rw [bind_of_ok (checked_of_valid hv)]
  unfold onLogical
  rcases BlockManager.retain_cases (raw h) m.logical with
    ⟨hn, -⟩ | ⟨-, -, hrun⟩ | ⟨-, hr, hrun⟩
  · exact absurd hv hn
  · rw [hrun]
    exact ⟨rfl, fun he => by cases he⟩
  · rw [hrun]
    exact ⟨rfl, hc.retained hv hr⟩

/-! ## Leases -/

/-- The block has one lease more. -/
def pinned (h : LogicalBlockHandle) (m : TieredBlockManager) : TieredBlockManager :=
  (m.modifyEntry h.id fun e => { e with pins := e.pins + 1 }).eraseLru h.id

theorem pinned_entries (h : LogicalBlockHandle) (m : TieredBlockManager) : (pinned h m).entries =
    Function.update m.entries h.id { m.entries h.id with pins := (m.entries h.id).pins + 1 } := rfl

/-- The entry with one lease less. -/
def Entry.unpinned (e : Entry) : Entry :=
  { e with pins := if e.pins = 0 then sizeMax else e.pins - 1 }

/-- The block has one lease less. -/
def unpinned (h : LogicalBlockHandle) (m : TieredBlockManager) : TieredBlockManager :=
  if (m.entries h.id).unpinned.pins = 0 then
    (m.modifyEntry h.id Entry.unpinned).touchLru h.id
  else m.modifyEntry h.id Entry.unpinned

theorem unpinned_eq (h : LogicalBlockHandle) (m : TieredBlockManager) : unpinned h m =
    { m with
      entries := Function.update m.entries h.id (m.entries h.id).unpinned
      residentLru := if (m.entries h.id).unpinned.pins = 0 then m.residentLru.touch h.id
        else m.residentLru } := by
  unfold unpinned
  split_ifs <;> rfl

theorem unpinned_entries (h : LogicalBlockHandle) (m : TieredBlockManager) :
    (unpinned h m).entries = Function.update m.entries h.id (m.entries h.id).unpinned := by
  rw [unpinned_eq]

/-- A change of the leases of a block is not seen by the moves and the counters. -/
theorem Unmoved.relabel (hentries : m'.entries = Function.update m.entries i e)
    (he : e = { m.entries i with pins := e.pins, prefetched := e.prefetched })
    (hpending : m'.pending = m.pending) (hqueued : m'.queued = m.queued)
    (htransfers : m'.transfers = m.transfers) (hoffloads : m'.offloads = m.offloads)
    (hloads : m'.loads = m.loads) (hfaults : m'.faults = m.faults) : Unmoved m m' := by
  refine ⟨hpending, hqueued, fun g _ => ?_, by rw [htransfers], ?_, hoffloads, hloads, hfaults⟩
  · rw [hentries]
    by_cases hg : g.id = i
    · rw [hg, Function.update_self, he]
      exact ⟨rfl, rfl⟩
    · rw [Function.update_of_ne hg]
      exact ⟨rfl, rfl⟩
  · unfold TieredBlockManager.blockBytes
    rw [htransfers]

/-- The leases of the other blocks stay where they are. -/
theorem Placed.relabel (hl : Placed m l) (hentries : m'.entries = Function.update m.entries i e)
    (hgpu : e.gpu = (m.entries i).gpu) (htransfers : m'.transfers = m.transfers) : Placed m' l := by
  obtain ⟨g, hg, haddress⟩ := hl
  refine ⟨g, ?_, ?_⟩
  · rw [hentries]
    by_cases hj : l.handle.id = i
    · rw [hj, Function.update_self, hgpu, ← hj]
      exact hg
    · rw [Function.update_of_ne hj]
      exact hg
  · unfold blockBytes
    rw [htransfers]
    exact haddress

/-- A change of leases keeps the marks. -/
theorem marks_pins {n : ℕ} (hentries : m'.entries =
      Function.update m.entries i { m.entries i with pins := n })
    (hlogical : m'.logical = m.logical)
    (hcounts : m'.prefetchHits = m.prefetchHits ∧ m'.prefetchLate = m.prefetchLate ∧
      m'.prefetchUnused = m.prefetchUnused) : m'.marks = m.marks := by
  have htotal : m'.outstanding = m.outstanding := by
    unfold outstanding
    rw [hentries, hlogical]
    exact total_same rfl
  unfold marks
  rw [htotal, hcounts.1, hcounts.2.1, hcounts.2.2]

/-- **A reference becomes a lease.** -/
theorem Clients.pinned (hc : Clients c (l.handle ::ₘ held) leases m)
    (hp : (m.entries l.handle.id).phase = some .resident) (hl : Placed m l) :
    Clients c held (l ::ₘ leases) (pinned l.handle m) := by
  have hentries := pinned_entries l.handle m
  have hcore := hc.inv.steady.core
  have hold := hcore.entry l.handle.id
  have hlive := (hcore.of_valid (hc.valid (Multiset.mem_cons_self _ _))).1
  have hcore' : Core c none m.pending m.queued (TieredBlockManager.pinned l.handle m) := by
    refine hcore.relabel rfl rfl rfl hentries rfl (fun hf => ?_) (fun _ => hp) hold.marked
      (fun _ _ hx => hx) (hcore.lru.erase fun j => ?_)
    · rw [hlive] at hf
      cases hf
    · rw [hentries]
      by_cases hj : j = l.handle.id
      · rw [hj, Function.update_self]
        exact iff_of_false (fun he => absurd he.2 (Nat.succ_ne_zero _)) fun he => he.1 rfl
      · rw [Function.update_of_ne hj]
        exact (and_iff_right hj).symm
  refine ⟨hc.inv.renew (Unmoved.relabel hentries rfl rfl rfl rfl rfl rfl rfl) hcore', hc.plain, ?_,
    fun i => ?_, fun l' hl' => ?_, ?_⟩
  · rw [owners_lease]
    exact hc.owned
  · rw [leasesOf_cons, hentries, ← hc.pins]
    by_cases hi : i = l.handle.id
    · rw [if_pos hi, hi, Function.update_self]
    · rw [if_neg hi, Function.update_of_ne hi]
      rfl
  · have hplaced : Placed m l' := by
      rcases Multiset.mem_cons.mp hl' with rfl | hl'
      · exact hl
      · exact hc.placed l' hl'
    exact hplaced.relabel hentries rfl rfl
  · exact ⟨hc.counted.demands, hc.counted.hits, hc.counted.late,
      (marks_pins hentries rfl ⟨rfl, rfl, rfl⟩).trans hc.counted.marks⟩

/-- **A lease becomes a reference.** -/
theorem Clients.unpinned (hc : Clients c held leases m) (hl : l ∈ leases) :
    Clients c (l.handle ::ₘ held) (leases.erase l) (unpinned l.handle m) := by
  have hentries := unpinned_entries l.handle m
  have hcore := hc.inv.steady.core
  have hold := hcore.entry l.handle.id
  have hpins := hc.pins_ne hl
  have hp := hc.leased_resident hl
  have hlive := (hcore.of_valid (hc.leased_valid hl)).1
  have hless : (m.entries l.handle.id).unpinned.pins = (m.entries l.handle.id).pins - 1 :=
    if_neg hpins
  have hcore' : Core c none m.pending m.queued (TieredBlockManager.unpinned l.handle m) := by
    refine hcore.relabel (by rw [unpinned_eq]) (by rw [unpinned_eq]) (by rw [unpinned_eq]) hentries
      rfl (fun hf => ?_) (fun _ => hp) hold.marked (fun _ _ hx => hx) ?_
    · rw [hlive] at hf
      cases hf
    · have hlru : (TieredBlockManager.unpinned l.handle m).residentLru =
          if (m.entries l.handle.id).unpinned.pins = 0 then m.residentLru.touch l.handle.id
          else m.residentLru := by rw [unpinned_eq]
      by_cases hlast : (m.entries l.handle.id).unpinned.pins = 0
      · rw [hlru, if_pos hlast]
        refine hcore.lru.touch fun j => ?_
        rw [hentries]
        by_cases hj : j = l.handle.id
        · rw [hj, Function.update_self]
          exact iff_of_true ⟨hp, hlast⟩ (.inl rfl)
        · rw [Function.update_of_ne hj]
          exact (or_iff_right hj).symm
      · refine hcore.lru_same (hlru.trans (if_neg hlast)) hentries ?_
        exact iff_of_false (fun he => hlast he.2) fun he => hpins he.2
  refine ⟨hc.inv.renew ?_ hcore', ?_, ?_, fun i => ?_, fun l' hl' => ?_, ?_⟩
  · apply Unmoved.relabel hentries rfl
    all_goals rw [unpinned_eq]
  · rw [unpinned_eq]
    exact hc.plain
  · rw [unpinned_eq, ← owners_lease, Multiset.cons_erase hl]
    exact hc.owned
  · have hcount := leasesOf_cons l (leases.erase l) i
    rw [Multiset.cons_erase hl, ← hc.pins] at hcount
    rw [hentries]
    by_cases hi : i = l.handle.id
    · rw [if_pos hi] at hcount
      rw [hi, Function.update_self, hless, ← hi]
      omega
    · rw [if_neg hi] at hcount
      rw [Function.update_of_ne hi]
      exact hcount
  · exact (hc.placed l' (Multiset.mem_of_mem_erase hl')).relabel hentries rfl (by rw [unpinned_eq])
  · have hmarks : (TieredBlockManager.unpinned l.handle m).marks = m.marks := marks_pins hentries
      (by rw [unpinned_eq]) (by rw [unpinned_eq]; exact ⟨rfl, rfl, rfl⟩)
    have hcounted := hc.counted
    constructor
    · rw [unpinned_eq]
      exact hcounted.demands
    · rw [unpinned_eq]
      exact hcounted.hits
    · rw [unpinned_eq]
      exact hcounted.late
    · rw [hmarks, unpinned_eq]
      exact hcounted.marks

/-! ## Demands -/

/-- A demand is counted, and takes the mark of its block. -/
def demanded (h : LogicalBlockHandle) (resident prefetched : Bool) (m : TieredBlockManager) :
    TieredBlockManager :=
  if prefetched = true then
    (m.countDemand resident prefetched).modifyEntry h.id fun e => { e with prefetched := false }
  else m.countDemand resident prefetched

/-- **A demand that takes a mark** counts it as a hit or as late. -/
theorem Counted.taken {resident : Bool} (hm : Counted m) (hi : h.id < m.logical.capacity)
    (hmark : (m.entries h.id).prefetched = true) : Counted (demanded h resident true m) := by
  have htotal := total_update hi { m.entries h.id with prefetched := false }
    (f := fun e : Entry => if e.prefetched = true then 1 else 0) (e := m.entries)
  have houtstanding : (demanded h resident true m).outstanding + 1 = m.outstanding := by
    have hentries : (demanded h resident true m).entries =
        Function.update m.entries h.id { m.entries h.id with prefetched := false } := rfl
    have hlogical : (demanded h resident true m).logical = m.logical := rfl
    rw [hmark] at htotal
    unfold outstanding
    rw [hentries, hlogical]
    simpa using htotal
  have hdemands := hm.demands
  have hhits := hm.hits
  have hlate := hm.late
  have hmarks := hm.marks
  unfold TieredBlockManager.marks at hmarks
  constructor
  · cases resident <;> simp [demanded, countDemand, modifyEntry, setEntry] <;> omega
  · cases resident <;> simp [demanded, countDemand, modifyEntry, setEntry] <;> omega
  · cases resident <;> simp [demanded, countDemand, modifyEntry, setEntry] <;> omega
  · unfold TieredBlockManager.marks
    cases resident <;> simp [demanded, countDemand, modifyEntry, setEntry] at houtstanding ⊢ <;> omega

theorem Counted.demanded {resident : Bool} (hm : Counted m) :
    Counted (demanded h resident false m) := by
  have hdemands := hm.demands
  have hhits := hm.hits
  have hlate := hm.late
  have hmarks := hm.marks
  constructor
  · cases resident <;> simp [TieredBlockManager.demanded, countDemand] <;> omega
  · cases resident <;> simp [TieredBlockManager.demanded, countDemand] <;> omega
  · cases resident <;> simp [TieredBlockManager.demanded, countDemand] <;> omega
  · cases resident <;> exact hmarks

/-- **A demand is counted.** -/
theorem Clients.demanded {resident prefetched : Bool} (hc : Clients c held leases m)
    (hv : m.logical.Valid (raw h))
    (hmark : prefetched = true → (m.entries h.id).prefetched = true) :
    Clients c held leases (demanded h resident prefetched m) := by
  have hcore := hc.inv.steady.core
  have hlive := (hcore.of_valid hv).1
  cases prefetched with
  | false =>
    refine ⟨hc.inv.renew ⟨rfl, rfl, fun _ _ => ⟨rfl, rfl⟩, rfl, rfl, rfl, rfl, rfl⟩
      (hcore.congr rfl rfl rfl rfl rfl), hc.plain, hc.owned, hc.pins, hc.placed, hc.counted.demanded⟩
  | true =>
    have hentries : (TieredBlockManager.demanded h resident true m).entries =
        Function.update m.entries h.id { m.entries h.id with prefetched := false } := rfl
    have hcore' : Core c none m.pending m.queued (TieredBlockManager.demanded h resident true m) := by
      refine hcore.relabel rfl rfl rfl hentries rfl (fun hf => ?_) (hcore.entry h.id).pinned
        (fun _ hp => ?_) (fun _ _ hx => hx) (hcore.lru_same rfl hentries Iff.rfl)
      · rw [hlive] at hf
        cases hf
      · cases hp
    refine ⟨hc.inv.renew (Unmoved.relabel hentries rfl rfl rfl rfl rfl rfl rfl) hcore', hc.plain,
      hc.owned, fun i => ?_, fun l hl => (hc.placed l hl).relabel hentries rfl rfl,
      hc.counted.taken (hcore.lt_capacity hlive) (hmark rfl)⟩
    rw [← hc.pins, hentries]
    by_cases hi : i = h.id
    · rw [hi, Function.update_self]
    · rw [Function.update_of_ne hi]

end KVFlux.TieredBlockManager
