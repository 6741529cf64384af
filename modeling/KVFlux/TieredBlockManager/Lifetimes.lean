import KVFlux.TieredBlockManager.Clients

/-!
# The life of a block

* `Stays m m'`: leased slots stay where they are and no new batch touches them.
* `destroyed`: the last reference is returned; `Core.destroy`, `destroy_ok`.
* `returned`: a reference is returned; `Settled`: what a client can rely on after any of its calls.
* `release_ok`, **`release_post`**: the outcomes of `release`; `unpin_ok`: the end of a lease.
-/

namespace KVFlux.TieredBlockManager

open Fallible BlockManager AsyncTransfer Table

variable {c c' : ℕ → Bytes} {x x' : Option ℕ} {ps qs : List LogicalBlockHandle}
  {m m' m'' : TieredBlockManager} {i : ℕ} {e : Entry} {h : LogicalBlockHandle} {g : BlockHandle}
  {held : Multiset LogicalBlockHandle} {leases : Multiset GpuLease} {l : GpuLease}

/-! ## What leases see -/

/-- **Leased slots stay where they are**, and the new batches do not touch them. -/
structure Stays (m m' : TieredBlockManager) : Prop where
  blockBytes : m'.blockBytes = m.blockBytes
  base : m'.transfers.pool.base = m.transfers.pool.base
  capacity : m'.gpuCapacity = m.gpuCapacity
  slot : ∀ i, (m.entries i).pins ≠ 0 → (m'.entries i).pins ≠ 0 →
    (m'.entries i).gpu = (m.entries i).gpu
  history : Spares m m'

/-- The blocks keep their generations. -/
def SameBlockIds (m m' : TieredBlockManager) : Prop :=
  ∀ i, (m'.logical.slots i).generation = (m.logical.slots i).generation

theorem Stays.refl (m : TieredBlockManager) : Stays m m :=
  ⟨rfl, rfl, rfl, fun _ _ _ => rfl, Spares.refl m⟩

theorem Frame.stays (h : Frame m m') : Stays m m' :=
  ⟨h.blockBytes, h.base, h.capacity, fun i hi _ => by rw [h.pinned i hi], h.history⟩

theorem Frame.sameBlockIds (h : Frame m m') : SameBlockIds m m' := fun i => by rw [h.logical]

/-- A change behind a call that moves blocks. -/
theorem Stays.after (h : Frame m m') (h' : Stays m' m'') : Stays m m'' where
  blockBytes := h'.blockBytes.trans h.blockBytes
  base := h'.base.trans h.base
  capacity := h'.capacity.trans h.capacity
  slot i hi hi' := by
    have hsame := h.pinned i hi
    rw [← hsame] at hi ⊢
    exact h'.slot i hi hi'
  history := by
    obtain ⟨ws, hws, hspare⟩ := h.history
    obtain ⟨ws', hws', hspare'⟩ := h'.history
    refine ⟨ws ++ ws', by rw [hws', hws, List.append_assoc], fun w hw g hg i g' hi hg' => ?_⟩
    rcases List.mem_append.mp hw with hw | hw
    · exact hspare w hw g hg i g' hi hg'
    · have hsame := h.pinned i hi
      exact hspare' w hw g hg i g' (by rwa [hsame]) (by rwa [hsame])

/-- A change that puts nothing on the stream. -/
theorem Stays.quiet (h : Stays m m') (hbytes : m''.blockBytes = m'.blockBytes)
    (hbase : m''.transfers.pool.base = m'.transfers.pool.base)
    (hcapacity : m''.gpuCapacity = m'.gpuCapacity)
    (hslot : ∀ i, (m.entries i).pins ≠ 0 → (m''.entries i).pins ≠ 0 →
      (m'.entries i).pins ≠ 0 ∧ (m''.entries i).gpu = (m'.entries i).gpu)
    (hhistory : m''.transfers.history = m'.transfers.history) : Stays m m'' where
  blockBytes := hbytes.trans h.blockBytes
  base := hbase.trans h.base
  capacity := hcapacity.trans h.capacity
  slot i hi hi' := by
    obtain ⟨hpins, hgpu⟩ := hslot i hi hi'
    exact hgpu.trans (h.slot i hi hpins)
  history := by
    obtain ⟨ws, hws, hspare⟩ := h.history
    exact ⟨ws, hhistory.trans hws, hspare⟩

/-! ## The last reference -/

/-- The slot of a block, if it has one, is returned. -/
def slotsReleased (gpu : Option BlockHandle) (m : TieredBlockManager) : TieredBlockManager :=
  match gpu with
  | some g => slotReleased g m
  | none => m

/-- The entry of the block is reset and its reference returned. -/
def destroyed (h : LogicalBlockHandle) (m : TieredBlockManager) : TieredBlockManager :=
  ((slotsReleased (m.entries h.id).gpu ((discardPrefetch h.id m).eraseLru h.id)).setEntry h.id
    {}).withLogical (m.logical.released h.id)

/-- What is left of the other fields. -/
structure Destroyed (h : LogicalBlockHandle) (m m' : TieredBlockManager) : Prop where
  entries : m'.entries = Function.update m.entries h.id {}
  logical : m'.logical = m.logical.released h.id
  lru : m'.residentLru = m.residentLru.erase h.id
  pending : m'.pending = m.pending
  queued : m'.queued = m.queued
  memory : m'.transfers.memory = m.transfers.memory
  buffers : m'.transfers.buffers = m.transfers.buffers
  runtime : m'.transfers.runtime = m.transfers.runtime
  history : m'.transfers.history = m.transfers.history
  initialized : m'.transfers.pool.initialized = m.transfers.pool.initialized
  blockBytes : m'.blockBytes = m.blockBytes
  base : m'.transfers.pool.base = m.transfers.pool.base
  offloads : m'.offloads = m.offloads
  loads : m'.loads = m.loads
  faults : m'.faults = m.faults
  undefined : m'.undefined = m.undefined
  demand : m'.demand = m.demand
  submitted : m'.prefetchSubmitted = m.prefetchSubmitted
  unused : m'.prefetchUnused =
    m.prefetchUnused + if (m.entries h.id).prefetched = true then 1 else 0

theorem destroyed_rest (h : LogicalBlockHandle) (m : TieredBlockManager) :
    Destroyed h m (destroyed h m) := by
  unfold destroyed
  rw [discardPrefetch_eq]
  cases (m.entries h.id).gpu with
  | none =>
    refine ⟨?_, rfl, rfl, rfl, rfl, rfl, rfl, rfl, rfl, rfl, rfl, rfl, rfl, rfl, rfl, rfl,
      rfl, rfl, rfl⟩
    exact Function.update_idem ..
  | some g =>
    refine ⟨?_, rfl, rfl, rfl, rfl, rfl, rfl, rfl, rfl, rfl, rfl, rfl, rfl, rfl, rfl, rfl,
      rfl, rfl, rfl⟩
    exact Function.update_idem ..

theorem unmoved_destroyed (hc : Core c x m.pending qs m) (hcalm : (m.entries h.id).Calm) :
    Unmoved m (destroyed h m) := by
  have hd := destroyed_rest h m
  refine ⟨hd.pending, hd.queued, fun g hg => ?_, hd.runtime, hd.blockBytes, hd.offloads, hd.loads,
    hd.faults⟩
  rw [moving_ne hc hd.entries ((calm_iff hc h.id).mp hcalm).1 hg]
  exact ⟨rfl, rfl⟩

/-- The mark of a block that is destroyed counts as unused. -/
theorem marks_destroyed (hi : h.id < m.logical.capacity) : (destroyed h m).marks = m.marks := by
  have hd := destroyed_rest h m
  have htotal := total_update hi ({} : Entry)
    (f := fun e : Entry => if e.prefetched = true then 1 else 0) (e := m.entries)
  have hcapacity : (destroyed h m).logical.capacity = m.logical.capacity := by
    rw [hd.logical, BlockManager.released_capacity]
  have hdemand := hd.demand
  have hunused := hd.unused
  unfold demand at hdemand
  simp only [Prod.mk.injEq] at hdemand
  unfold marks outstanding
  rw [hcapacity, hd.entries]
  simp only [Bool.false_eq_true, if_false, add_zero] at htotal
  omega

theorem Counted.destroyed (hm : Counted m) (hi : h.id < m.logical.capacity) :
    Counted (destroyed h m) := by
  have hd := destroyed_rest h m
  have hdemand := hd.demand
  have hmarks := marks_destroyed hi
  have hsubmitted := hd.submitted
  have hdemands := hm.demands
  have hhits := hm.hits
  have hlate := hm.late
  have hold := hm.marks
  unfold demand at hdemand
  simp only [Prod.mk.injEq] at hdemand
  constructor <;> omega

theorem destroyed_transfers (h : LogicalBlockHandle) (m : TieredBlockManager) :
    (destroyed h m).transfers = (slotsReleased (m.entries h.id).gpu m).transfers := by
  unfold destroyed
  rw [discardPrefetch_eq]
  cases (m.entries h.id).gpu <;> rfl

/-- A block that is destroyed without a slot leaves the GPU full. -/
theorem Full.destroyed (hf : Full m) (hpins : (m.entries h.id).pins = 0) : Full (destroyed h m) := by
  have hgpu : (m.entries h.id).gpu = none :=
    Option.eq_none_iff_forall_not_mem.mpr fun g hg => hf.2 h.id g hg hpins
  have htransfers : (TieredBlockManager.destroyed h m).transfers = m.transfers := by
    rw [destroyed_transfers, hgpu]
    rfl
  refine ⟨?_, fun i g hg => ?_⟩
  · unfold remainingBlocks
    rw [htransfers]
    exact hf.1
  · rw [(destroyed_rest h m).entries] at hg ⊢
    by_cases hi : i = h.id
    · rw [hi, Function.update_self] at hg
      cases hg
    · rw [Function.update_of_ne hi] at hg ⊢
      exact hf.2 i g hg

/-- The ledger once the slot of a block is returned. -/
theorem Core.destroyed_ledger (hc : Core c x ps qs m) (hlt : h.id < m.logical.capacity) :
    Ledger (destroyed h m).held [] (destroyed h m).transfers ∧
      ∀ j, ((destroyed h m).transfers.pool.manager.slots j).cached = false := by
  have hd := destroyed_rest h m
  have hcapacity : (destroyed h m).logical.capacity = m.logical.capacity := by
    rw [hd.logical, BlockManager.released_capacity]
  rw [destroyed_transfers]
  cases hg : (m.entries h.id).gpu with
  | none =>
    rw [held_same hcapacity hd.entries hg.symm]
    exact ⟨hc.ledger, hc.unpublished⟩
  | some g =>
    rw [held_leave hcapacity hd.entries hlt hg rfl]
    refine ⟨(hc.release_slot hg).2, fun j => ?_⟩
    exact (released_steady m.transfers.pool.manager g.id j).2.1.trans (hc.unpublished j)

/-- The reference count of the other blocks stays. -/
theorem released_others {mgr : BlockManager} {j : ℕ} (hj : j ≠ i) :
    (mgr.released i).slots j = mgr.slots j := by
  rw [released_slots, if_neg hj]

/-- **A block is destroyed** by its last reference. -/
theorem Core.destroy (hc : Core c none ps qs m) (hcalm : (m.entries h.id).Calm)
    (hv : m.logical.Valid (raw h)) (hrefs : (m.logical.slots h.id).refs = 1)
    (hplain : (m.logical.slots h.id).cached = false) : Core c none ps qs (destroyed h m) := by
  have hd := destroyed_rest h m
  have hlive := (hc.of_valid hv).1
  have hlt := hc.lt_capacity hlive
  obtain ⟨hnm, hnw⟩ := (calm_iff hc h.id).mp hcalm
  obtain ⟨hled, hunpublished⟩ := hc.destroyed_ledger hlt
  obtain ⟨free, idle, hs⟩ := hc.shaped
  have hslots := released_slots m.logical h.id
  have hself : (destroyed h m).entries h.id = {} := by rw [hd.entries, Function.update_self]
  have hfree : ((destroyed h m).logical.slots h.id).free = true := by
    rw [hd.logical, hslots, if_pos rfl, if_pos ⟨by rw [hrefs], hplain⟩]
  refine hc.replace (e := {}) ?_ ?_ (fun j hj => ?_) (fun _ _ => rfl) hd.entries hd.undefined hled
    hunpublished hd.blockBytes (fun b => ?_) (fun j _ => ?_) (fun j g _ _ => ?_)
    (fun g hg => by cases hg) (fun _ _ hx => hx) ?_ ?_ ?_ ?_
  · rw [hd.logical]
    exact ⟨_, _, hs.released hv.2.1 (by rw [hrefs]; decide)⟩
  · rw [hd.logical, BlockManager.released_capacity]
  · rw [hd.logical, released_others hj]
    exact ⟨rfl, rfl⟩
  · rw [hd.buffers]
  · rw [hd.buffers]
  · rw [hd.memory, hd.initialized]
    exact ⟨rfl, rfl⟩
  · refine ⟨?_, fun _ => hself, ?_, fun hl => ?_, fun hp => ?_, fun _ hp => ?_, fun hl => ?_,
      fun hl => ?_, fun g hg => ?_⟩
    · rw [hself]
      decide
    · rw [hself, hfree]
      decide
    all_goals rw [hself] at *
    · cases hl
    · exact absurd rfl hp
    · cases hp
    · cases hl
    · cases hl
    · cases hg
  · rw [hd.entries]
    have hnot : ¬ ({} : Entry).Moving := fun hm => by rcases hm with hm | hm <;> cases hm
    exact hc.moving.same (iff_of_false hnot hnm) fun hm => absurd hm hnot
  · rw [hd.entries]
    have hnot : ¬ ({} : Entry).Waiting := fun hw => by cases hw
    exact hc.waiting.same (iff_of_false hnot hnw) fun hw => absurd hw hnot
  · rw [hd.lru]
    refine hc.lru.erase fun j => ?_
    rw [hd.entries]
    by_cases hj : j = h.id
    · rw [hj, Function.update_self]
      exact iff_of_false (fun he => by cases he.1) fun he => he.1 rfl
    · rw [Function.update_of_ne hj]
      exact (and_iff_right hj).symm

/-- The calls that destroy a block. -/
theorem destroy_ok (hc : Core c x ps qs m) (hv : m.logical.Valid (raw h))
    (hrefs : (m.logical.slots h.id).refs = 1) :
    (destroy h >>= fun _ => onLogical (BlockManager.release (raw h))) m = .ok () (destroyed h m) := by
  have hlogical : ((slotsReleased (m.entries h.id).gpu
      ((discardPrefetch h.id m).eraseLru h.id)).setEntry h.id {}).logical = m.logical := by
    rw [discardPrefetch_eq]
    cases (m.entries h.id).gpu <;> rfl
  have hdestroy : TieredBlockManager.destroy h m = .ok ()
      ((slotsReleased (m.entries h.id).gpu ((discardPrefetch h.id m).eraseLru h.id)).setEntry h.id
        {}) := by
    unfold TieredBlockManager.destroy
    rw [bind_of_ok (modify_apply _ _), bind_of_ok (modify_apply _ _), bind_of_ok (entry_apply _ _)]
    have hgpu : (((discardPrefetch h.id m).eraseLru h.id).entries h.id).gpu = (m.entries h.id).gpu := by
      show ((discardPrefetch h.id m).entries h.id).gpu = _
      rw [discardPrefetch_entries, Function.update_self]
    rw [hgpu]
    cases hg : (m.entries h.id).gpu with
    | none => rfl
    | some g =>
      have hheld : ((discardPrefetch h.id m).eraseLru h.id).held = m.held :=
        held_same (by rw [discardPrefetch_eq]; rfl) (discardPrefetch_entries h.id m) rfl
      have htransfers : ((discardPrefetch h.id m).eraseLru h.id).transfers = m.transfers := by
        rw [discardPrefetch_eq]
        rfl
      have hrelease := TieredBlockManager.release_slot (hheld.symm ▸ htransfers.symm ▸ hc.ledger)
        (hheld.symm ▸ hc.mem_held hg)
      simp only
      rw [bind_of_ok hrelease.1]
      rfl
  rw [bind_of_ok hdestroy]
  unfold onLogical
  rw [hlogical, release_of_valid hv (by rw [show (raw h).id = h.id from rfl, hrefs]; decide)]
  rfl

/-! ## `release` -/

/-- The state after a reference is returned. -/
def returned (h : LogicalBlockHandle) (m : TieredBlockManager) : TieredBlockManager :=
  if (m.logical.slots h.id).refs = 1 then destroyed h m
  else m.withLogical (m.logical.released h.id)

theorem owners_erase (hh : h ∈ held) : owners (held.erase h) leases =
    (owners held leases).erase (raw h) := by
  conv_rhs => rw [← Multiset.cons_erase hh, owners_cons, Multiset.erase_cons_head]

/-- The last reference is the only owner. -/
theorem Clients.unleased (hc : Clients c held leases m) (hh : h ∈ held)
    (hrefs : (m.logical.slots h.id).refs = 1) : leasesOf leases h.id = 0 := by
  by_contra hne
  obtain ⟨l, hl, hid⟩ := exists_lease hne
  have hothers := hc.owned.count_eq_one (mem_owners hh) hrefs (raw l.handle) (by
    rw [← owners_erase hh]
    exact mem_owners_lease hl)
  exact hothers hid

theorem Clients.owned_returned (hc : Clients c held leases m) (hh : h ∈ held) :
    Owned (m.logical.released h.id) (owners (held.erase h) leases) := by
  rw [owners_erase hh]
  exact hc.owned.released (mem_owners hh)

/-- **The last reference is returned.** -/
theorem Clients.destroyed (hc : Clients c held leases m) (hh : h ∈ held)
    (hcalm : (m.entries h.id).Calm) (hrefs : (m.logical.slots h.id).refs = 1) :
    Clients c (held.erase h) leases (destroyed h m) := by
  have hcore := hc.inv.steady.core
  have hv := hc.valid hh
  have hd := destroyed_rest h m
  have hunleased := hc.unleased hh hrefs
  refine ⟨hc.inv.renew (unmoved_destroyed hcore hcalm) (hcore.destroy hcalm hv hrefs (hc.plain h.id)),
    fun i => ?_, ?_, fun i => ?_, fun l hl => ?_,
    hc.counted.destroyed (hcore.lt_capacity (hcore.of_valid hv).1)⟩
  · rw [hd.logical]
    exact (released_steady m.logical h.id i).2.1.trans (hc.plain i)
  · rw [hd.logical]
    exact hc.owned_returned hh
  · rw [hd.entries]
    by_cases hi : i = h.id
    · rw [hi, Function.update_self, hunleased]
    · rw [Function.update_of_ne hi]
      exact hc.pins i
  · have hne : l.handle.id ≠ h.id := fun he => leasesOf_ne hl (he ▸ hunleased)
    unfold Placed
    rw [entries_ne hd.entries hne, hd.base, hd.blockBytes]
    exact hc.placed l hl

/-- **A reference is returned** while others are left. -/
theorem Clients.released (hc : Clients c held leases m) (hh : h ∈ held)
    (hrefs : (m.logical.slots h.id).refs ≠ 1) :
    Clients c (held.erase h) leases (m.withLogical (m.logical.released h.id)) := by
  have hv := hc.valid hh
  have hpos := hc.owned.refs_pos (mem_owners hh)
  obtain ⟨free, idle, hs⟩ := hc.inv.steady.core.shaped
  have hne : ¬ ((m.logical.slots h.id).refs - 1 = 0 ∧ (m.logical.slots h.id).cached = false) := by
    have hpos' : (m.logical.slots h.id).refs ≠ 0 := hpos
    omega
  have hsame : ∀ j, ((m.logical.released h.id).slots j).free = (m.logical.slots j).free := fun j => by
    rw [released_slots]
    split_ifs with hj
    · rw [hj]
    · rfl
  refine ⟨hc.inv.renew (unmoved_withLogical _ m) (hc.inv.steady.core.recounted
      ⟨_, _, hs.released hv.2.1 hpos⟩ (BlockManager.released_capacity ..) fun j =>
        ⟨hsame j, (released_steady m.logical h.id j).1⟩),
    fun i => (released_steady m.logical h.id i).2.1.trans (hc.plain i), hc.owned_returned hh,
    hc.pins, hc.placed, hc.counted.withLogical (BlockManager.released_capacity ..)⟩

/-- A reference is returned, the last one only of a block that is not moved. -/
theorem Clients.returned (hc : Clients c held leases m) (hh : h ∈ held)
    (hcalm : (m.logical.slots h.id).refs = 1 → (m.entries h.id).Calm) :
    Clients c (held.erase h) leases (returned h m) := by
  unfold TieredBlockManager.returned
  split_ifs with hrefs
  · exact hc.destroyed hh (hcalm hrefs) hrefs
  · exact hc.released hh hrefs

theorem stays_returned (h : LogicalBlockHandle) (m : TieredBlockManager) :
    Stays m (returned h m) := by
  unfold returned
  split_ifs
  · have hd := destroyed_rest h m
    refine (Stays.refl m).quiet hd.blockBytes hd.base ?_ (fun i _ hi => ?_) hd.history
    · unfold destroyed
      rw [discardPrefetch_eq]
      cases (m.entries h.id).gpu with
      | none => rfl
      | some g => exact BlockManager.released_capacity ..
    · have hne : i ≠ h.id := fun he => by
        rw [hd.entries, he, Function.update_self] at hi
        exact hi rfl
      rw [entries_ne hd.entries hne] at hi ⊢
      exact ⟨hi, rfl⟩
  · exact ⟨rfl, rfl, rfl, fun _ _ _ => rfl, spares_of_eq rfl⟩

theorem sameBlockIds_returned (h : LogicalBlockHandle) (m : TieredBlockManager) :
    SameBlockIds m (returned h m) := fun i => by
  have hlogical : (returned h m).logical = m.logical.released h.id := by
    unfold returned
    split_ifs
    · exact (destroyed_rest h m).logical
    · rfl
  rw [hlogical]
  exact (released_steady m.logical h.id i).1

theorem refCount_of_valid (hv : m.logical.Valid (raw h)) :
    refCount h m = .ok (m.logical.slots h.id).refs m := by
  have hrefs : m.logical.refCount (raw h) = .ok (m.logical.slots h.id).refs := by
    unfold BlockManager.refCount
    rw [BlockManager.checked_ok _ hv]
    rfl
  unfold refCount
  rw [bind_of_ok (get_apply m), hrefs]
  rfl

/-- The end of `release`, once the block is not moved. -/
theorem returned_ok (hc : Clients c held leases m) (hh : h ∈ held) :
    (if (m.logical.slots h.id).refs = 1 then
      (destroy h >>= fun _ => onLogical (BlockManager.release (raw h))) m
    else onLogical (BlockManager.release (raw h)) m) = .ok () (returned h m) := by
  unfold returned
  have hv := hc.valid hh
  split_ifs with hrefs
  · exact destroy_ok hc.inv.steady.core hv hrefs
  · unfold onLogical
    rw [release_of_valid hv (hc.owned.refs_pos (mem_owners hh))]
    rfl

theorem release_of_valid' (hv : m.logical.Valid (raw h)) : release h m =
    if (m.logical.slots h.id).refs = 1 then
      if (m.entries h.id).location = .transferring then
        (wait >>= fun _ => destroy h >>= fun _ => onLogical (BlockManager.release (raw h))) m
      else (destroy h >>= fun _ => onLogical (BlockManager.release (raw h))) m
    else onLogical (BlockManager.release (raw h)) m := by
  unfold release
  rw [bind_of_ok (checked_of_valid hv), bind_of_ok (refCount_of_valid hv)]
  by_cases hrefs : (m.logical.slots h.id).refs = 1
  · rw [if_pos hrefs, if_pos hrefs]
    by_cases hlocation : (m.entries h.id).location = .transferring
    · rw [if_pos hlocation, if_pos hlocation]
    · rw [if_neg hlocation, if_neg hlocation]
  · rw [if_neg hrefs, if_neg hrefs]

/-- **A release without a wait** cannot fail. -/
theorem release_ok (hc : Clients c held leases m) (hh : h ∈ held)
    (hcalm : (m.logical.slots h.id).refs = 1 → (m.entries h.id).Calm) :
    release h m = .ok () (returned h m) := by
  rw [release_of_valid' (hc.valid hh), ← returned_ok hc hh]
  by_cases hrefs : (m.logical.slots h.id).refs = 1
  · rw [if_pos hrefs, if_pos hrefs, if_neg]
    intro hlocation
    rcases hcalm hrefs with hp | hp
    all_goals
      rw [(Entry.of_phase hp).1] at hlocation
      cases hlocation
  · rw [if_neg hrefs, if_neg hrefs]

/-- What a client can rely on after any of its calls. -/
structure Settled (c : ℕ → Bytes) (held : Multiset LogicalBlockHandle) (leases : Multiset GpuLease)
    (m m' : TieredBlockManager) : Prop where
  clients : Clients c held leases m'
  stays : Stays m m'
  sameBlockIds : SameBlockIds m m'

theorem Clients.settled (hc : Clients c held leases m) (hi : Inv c m') (hf : Frame m m') :
    Settled c held leases m m' := ⟨hc.moved hi hf, hf.stays, hf.sameBlockIds⟩

theorem Settled.after (hf : Frame m m') (h : Settled c held leases m' m'') :
    Settled c held leases m m'' :=
  ⟨h.clients, h.stays.after hf, fun i => (h.sameBlockIds i).trans (hf.sameBlockIds i)⟩

/-- **The outcomes of `release`** of an owned reference: it is returned, or the device has failed
while the block was waited for and it is still owned. -/
theorem release_post (hc : Clients c held leases m) (hh : h ∈ held) : Post
    (fun _ m' => Settled c (held.erase h) leases m m')
    (fun e m' => Settled c held leases m m' ∧ NotCapacity e) (release h m) := by
  have hv := hc.valid hh
  by_cases hcalm : (m.logical.slots h.id).refs = 1 → (m.entries h.id).Calm
  · rw [release_ok hc hh hcalm]
    exact ⟨hc.returned hh hcalm, stays_returned h m, sameBlockIds_returned h m⟩
  obtain ⟨hrefs, hmoving⟩ := Classical.not_imp.mp hcalm
  have hlocation : (m.entries h.id).location = .transferring := by
    obtain ⟨p, hp⟩ := hc.inv.steady.core.exists_phase h.id
    rw [(Entry.of_phase hp).1]
    cases p with
    | resident => exact absurd (.inl hp) hmoving
    | stored => exact absurd (.inr hp) hmoving
    | _ => rfl
  rw [release_of_valid' hv, if_pos hrefs, if_pos hlocation]
  have hwait := (wait_post hc.inv).mono (fun _ _ h => h) fun e m' hb =>
    (⟨hc.settled hb.inv hb.frame, hb.notCapacity⟩ : Settled c held leases m m' ∧ NotCapacity e)
  refine hwait.bind fun _ m₁ h₁ => ?_
  have hc₁ := hc.moved h₁.inv h₁.frame
  have hrefs₁ : (m₁.logical.slots h.id).refs = 1 := by rwa [h₁.frame.logical]
  have hcore₁ := h₁.inv.steady.core
  rw [h₁.pending, h₁.queued] at hcore₁
  have hcalm₁ : (m₁.entries h.id).Calm :=
    (calm_iff hcore₁ h.id).mpr ⟨not_moving_of_nil hcore₁ h.id, not_waiting_of_nil hcore₁ h.id⟩
  have hend := returned_ok hc₁ hh
  rw [if_pos hrefs₁] at hend
  rw [hend]
  exact Settled.after h₁.frame ⟨hc₁.returned hh fun _ => hcalm₁, stays_returned h m₁,
    sameBlockIds_returned h m₁⟩

/-! ## The end of a lease -/

/-- The leases that are left when a reference is returned, and their slots. -/
theorem returned_pins (hpins : ((returned h m).entries i).pins ≠ 0) :
    (returned h m).entries i = m.entries i := by
  unfold returned at *
  split_ifs at * with hrefs
  · have hentries := (destroyed_rest h m).entries
    refine entries_ne hentries fun he => ?_
    rw [hentries, he, Function.update_self] at hpins
    exact hpins rfl
  · rfl

theorem returned_history (h : LogicalBlockHandle) (m : TieredBlockManager) :
    (returned h m).transfers.history = m.transfers.history := by
  unfold returned
  split_ifs
  · exact (destroyed_rest h m).history
  · rfl

/-- **The end of a lease** throws nothing and moves nothing. -/
theorem unpin_ok (hc : Clients c held leases m) (hl : l ∈ leases) :
    unpin l.handle m = .ok () (returned l.handle (unpinned l.handle m)) ∧
      Clients c held (leases.erase l) (returned l.handle (unpinned l.handle m)) := by
  have hc₁ := hc.unpinned hl
  have hcalm : ((unpinned l.handle m).entries l.handle.id).Calm := by
    rw [unpinned_entries, Function.update_self]
    exact .inl (hc.leased_resident hl)
  have hmem : l.handle ∈ l.handle ::ₘ held := Multiset.mem_cons_self _ _
  have hc₂ := hc₁.returned hmem fun _ => hcalm
  rw [Multiset.erase_cons_head] at hc₂
  refine ⟨?_, hc₂⟩
  unfold unpin noexcept
  refine onError_ok.mpr ?_
  have hself : (m.modifyEntry l.handle.id Entry.unpinned).entries l.handle.id =
      (m.entries l.handle.id).unpinned := Function.update_self ..
  have hrelease := release_ok hc₁ hmem fun _ => hcalm
  rw [bind_of_ok (modify_apply _ _), bind_of_ok (entry_apply _ _)]
  show (if ((m.modifyEntry l.handle.id Entry.unpinned).entries l.handle.id).pins = 0 then
    modify (touchLru l.handle.id) >>= fun _ => release l.handle else release l.handle)
      (m.modifyEntry l.handle.id Entry.unpinned) = _
  rw [hself]
  unfold unpinned at hrelease ⊢
  split_ifs at hrelease ⊢ with hlast
  · rw [bind_of_ok (modify_apply _ _)]
    exact hrelease
  · exact hrelease

/-- What the end of a lease leaves to the others. -/
theorem unpin_quiet (h : LogicalBlockHandle) (hpins : (m.entries h.id).pins ≠ 0)
    (hi : ((returned h (unpinned h m)).entries i).pins ≠ 0) : (m.entries i).pins ≠ 0 ∧
      ((returned h (unpinned h m)).entries i).gpu = (m.entries i).gpu := by
  have hsame := returned_pins hi
  rw [hsame] at hi ⊢
  rw [unpinned_entries] at hi ⊢
  by_cases hid : i = h.id
  · rw [hid, Function.update_self]
    exact ⟨hpins, rfl⟩
  · rw [Function.update_of_ne hid] at hi ⊢
    exact ⟨hi, rfl⟩

theorem Clients.settled_unpin (hc : Clients c held leases m) (hl : l ∈ leases) :
    Settled c held (leases.erase l) m (TieredBlockManager.returned l.handle
      (TieredBlockManager.unpinned l.handle m)) := by
  have hback := stays_returned l.handle (TieredBlockManager.unpinned l.handle m)
  have hrest := unpinned_eq l.handle m
  refine ⟨(unpin_ok hc hl).2, (Stays.refl m).quiet ?_ ?_ ?_ (fun i _ hi => ?_) ?_, fun i => ?_⟩
  · rw [hback.blockBytes, hrest]
    rfl
  · rw [hback.base, hrest]
  · rw [hback.capacity, hrest]
    rfl
  · exact unpin_quiet l.handle (hc.pins_ne hl) hi
  · rw [returned_history, hrest]
  · rw [sameBlockIds_returned l.handle _ i, hrest]

end KVFlux.TieredBlockManager
