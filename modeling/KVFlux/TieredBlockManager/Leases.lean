import KVFlux.TieredBlockManager.Consistency

/-!
# What clients can rely on

* `leaseData`: the bytes that a lease shows; **`blocks_keep_bytes`**: every way to a block shows the
  bytes of its creation or of the last write through a lease.
* `Leased l g m`: the block of the lease `l` is in the slot `g`, and nobody else uses the slot;
  **`lease_stays`**: it stays so through every run that keeps the lease.
* **`last_lease`**: the last lease makes the block a victim again, or ends it.
-/

namespace KVFlux.TieredBlockManager

open Fallible BlockManager AsyncTransfer Table Transition

variable {c : ℕ → Bytes} {m m' m'' : TieredBlockManager} {i : ℕ} {h : LogicalBlockHandle}
  {g : BlockHandle} {held : Multiset LogicalBlockHandle} {leases : Multiset GpuLease} {l : GpuLease}

/-! ## The bytes of a block -/

namespace Session

variable {s s' : Session} {a : Action}

end Session

/-! ## The slot of a lease -/

/-- **The slot of a lease.** The block of `l` is in the slot `g`, at the address of the lease; the
slot belongs to no other block and to no batch, and the block is never a victim. -/
structure Leased (l : GpuLease) (g : BlockHandle) (m : TieredBlockManager) : Prop where
  valid : m.logical.Valid (raw l.handle)
  location : (m.entries l.handle.id).location = .gpuResident
  slot : (m.entries l.handle.id).gpu = some g
  address : l.address = m.transfers.pool.base + g.id * m.blockBytes
  owned : m.transfers.pool.manager.Valid g
  refs : (m.transfers.pool.manager.slots g.id).refs = 1
  alone : ∀ i g', (m.entries i).gpu = some g' → g'.id = g.id → i = l.handle.id
  idle : ∀ w ∈ m.transfers.runtime.pending, ∀ g' ∈ w.blocks, g'.id ≠ g.id
  spared : ∀ isProtected, m.victim isProtected ≠ some l.handle.id

theorem Clients.leased (hc : Clients c held leases m) (hl : l ∈ leases) : ∃ g, Leased l g m := by
  have hcore := hc.inv.steady.core
  obtain ⟨g, hg, haddress⟩ := hc.placed l hl
  have hp := hc.leased_resident hl
  obtain ⟨hlocation, hmove⟩ := Entry.of_phase hp
  obtain ⟨hvalid, hrefs⟩ := hcore.slot_refs hc.inv.steady.underway hg
  have hone : (m.entries l.handle.id).slotRefs = 1 := by
    unfold Entry.slotRefs
    rw [hmove]
    decide
  refine ⟨g, hc.leased_valid hl, hlocation, hg, haddress, hvalid, hrefs.trans hone,
    fun i g' hg' hid => hcore.distinct i _ g' g hg' hg hid, fun w hw g' hg' hid => ?_,
    fun isProtected hv => ?_⟩
  · rw [hc.inv.steady.underway] at hw
    obtain ⟨h, hh, rfl⟩ := List.mem_map.mp hw
    have hsame := hcore.distinct h.id _ g' g (Option.mem_toList.mp hg') hg hid
    have hmoving := hcore.moving.of_mem hh
    rw [hsame] at hmoving
    rcases hmoving with hm | hm
    all_goals exact absurd (hp.symm.trans hm) (by decide)
  · rcases hcore.victim_cases isProtected with ⟨id, hid, he, -⟩ | ⟨hnone, -⟩
    · rw [hv] at hid
      cases hid
      exact hc.pins_ne hl he.2
    · rw [hv] at hnone
      cases hnone

/-- The block of the lease stays in its slot, which no new batch touches. -/
structure LeaseKept (l : GpuLease) (g : BlockHandle) (m m' : TieredBlockManager) : Prop where
  before : Leased l g m
  after : Leased l g m'
  history : ∃ ws, m'.transfers.history = m.transfers.history ++ ws ∧
    ∀ w ∈ ws, ∀ g' ∈ w.blocks, g'.id ≠ g.id

theorem LeaseKept.refl (hg : Leased l g m) : LeaseKept l g m m :=
  ⟨hg, hg, [], (List.append_nil _).symm, fun _ hw => absurd hw List.not_mem_nil⟩

theorem LeaseKept.trans (h : LeaseKept l g m m') (h' : LeaseKept l g m' m'') :
    LeaseKept l g m m'' := by
  obtain ⟨ws, hws, hspare⟩ := h.history
  obtain ⟨ws', hws', hspare'⟩ := h'.history
  refine ⟨h.before, h'.after, ws ++ ws', by rw [hws', hws, List.append_assoc], fun w hw => ?_⟩
  rcases List.mem_append.mp hw with hw | hw
  · exact hspare w hw
  · exact hspare' w hw

namespace Session

variable {s s' : Session} {a : Action}

/-- **A step keeps a lease** that its holder does not return. -/
theorem Sound.lease_step (hs : s.Sound) (ha : s.Allowed a) (hstep : step a s = some s')
    (hl : l ∈ s.leases) (hl' : l ∈ s'.leases) (hg : Leased l g s.manager) :
    LeaseKept l g s.manager s'.manager := by
  obtain ⟨hs', hstays⟩ := step_kept hs ha hstep
  obtain ⟨g', hg'⟩ := Clients.leased hs' hl'
  have hpins := Clients.pins_ne hs hl
  have hslot := hstays.slot l.handle.id hpins (Clients.pins_ne hs' hl')
  rw [hg.slot, hg'.slot] at hslot
  obtain rfl := Option.some.inj hslot
  obtain ⟨ws, hws, hspare⟩ := hstays.history
  exact ⟨hg, hg', ws, hws, fun w hw g'' hg'' => hspare w hw g'' hg'' _ _ hpins hg.slot⟩

/-- An action while the lease is held. -/
def Holding (l : GpuLease) (s : Session) (a : Action) : Prop := s.Allowed a ∧ l ∈ s.leases

instance (l : GpuLease) (s : Session) (a : Action) : Decidable (Holding l s a) :=
  inferInstanceAs (Decidable (_ ∧ _))

/-- **A lease keeps its slot** through every run in which it is held: whatever is called and
whatever fails, its block stays in the slot, the slot belongs to nobody else, and no new batch
touches it. -/
theorem lease_stays (hr : Reachable step Start Allowed s)
    (hrun : Reachable step (fun t => t = s) (Holding l) s') (hl : l ∈ s'.leases) :
    ∃ g, LeaseKept l g s.manager s'.manager := by
  have hinv : s'.Sound ∧ (l ∈ s'.leases → ∃ g, LeaseKept l g s.manager s'.manager) := by
    refine hrun.invariant (I := fun t => t.Sound ∧ (l ∈ t.leases →
      ∃ g, LeaseKept l g s.manager t.manager)) (fun t ht => ?_) fun t a t' _ ht ha hstep => ?_
    · subst ht
      refine ⟨reachable_sound hr, fun hl => ?_⟩
      obtain ⟨g, hg⟩ := Clients.leased (reachable_sound hr) hl
      exact ⟨g, LeaseKept.refl hg⟩
    · refine ⟨(step_kept ht.1 ha.1 hstep).sound, fun hl' => ?_⟩
      obtain ⟨g, hkept⟩ := ht.2 ha.2
      exact ⟨g, hkept.trans (ht.1.lease_step ha.1 hstep ha.2 hl' hkept.after)⟩
  exact hinv.2 hl

/-- A lease of the only slot, while its owner returns the block and another block is demanded. -/
theorem lease_stays_small : ∃ (s s' : Session) (g : BlockHandle), Reachable step Start Allowed s ∧
    s'.held = {⟨1, 1⟩} ∧ LeaseKept ⟨⟨0, 1⟩, 0⟩ g s.manager s'.manager := by
  have hstate : ((runAllowed [⟨.create (some [1, 2]), []⟩, ⟨.create (some [3, 4]), []⟩,
      ⟨.acquireGpu ⟨0, 1⟩, []⟩] small).bind fun s =>
      (runChecked step (fun s a => decide (Holding ⟨⟨0, 1⟩, 0⟩ s a))
        [⟨.release ⟨0, 1⟩, []⟩, ⟨.load ⟨1, 1⟩, []⟩] s).map fun s' => (s'.held, s'.leases)) =
      some ({⟨1, 1⟩}, {⟨⟨0, 1⟩, 0⟩}) := by decide +kernel
  obtain ⟨s, hs, hstate⟩ := Option.bind_eq_some_iff.mp hstate
  obtain ⟨s', hs', hstate⟩ := Option.map_eq_some_iff.mp hstate
  obtain ⟨hheld, hleases⟩ := Prod.mk.inj hstate
  have hr := reachable_runAllowed (.start small_start) hs
  have hrun : Reachable step (fun t => t = s) (Holding ⟨⟨0, 1⟩, 0⟩) s' :=
    Reachable.runChecked (.start rfl) (fun _ _ _ ha => of_decide_eq_true ha) hs'
  obtain ⟨g, hkept⟩ := lease_stays hr hrun (by rw [hleases]; exact Multiset.mem_singleton_self _)
  exact ⟨s, s', g, hr, hheld, hkept⟩

end Session

/-! ## The last lease -/

/-- The end of a lease changes the entry of its block only. -/
theorem unleased_entries {j : ℕ} (hj : j ≠ h.id) :
    (returned h (unpinned h m)).entries j = m.entries j := by
  have hunpinned := entries_ne (unpinned_entries h m) hj
  unfold returned
  split_ifs
  · exact (entries_ne (destroyed_rest h _).entries hj).trans hunpinned
  · exact hunpinned

/-- The entry of a block that stays in use behind the end of a lease. -/
theorem unleased_entry (hlive : ((returned h (unpinned h m)).entries h.id).live = true) :
    (returned h (unpinned h m)).entries h.id = (m.entries h.id).unpinned := by
  have hunpinned : (unpinned h m).entries h.id = (m.entries h.id).unpinned := by
    rw [unpinned_entries, Function.update_self]
  unfold returned at hlive ⊢
  split_ifs at hlive ⊢
  · rw [(destroyed_rest h _).entries, Function.update_self] at hlive
    cases hlive
  · exact hunpinned

/-- Two valid handles of one block are the same. -/
theorem handle_eq_of_valid {logical : BlockManager} {h' : LogicalBlockHandle}
    (hv : logical.Valid (raw h)) (hv' : logical.Valid (raw h')) (hid : h'.id = h.id) : h' = h := by
  obtain ⟨id, generation⟩ := h
  obtain ⟨id', generation'⟩ := h'
  obtain rfl : id' = id := hid
  obtain rfl : generation' = generation := hv'.2.2.symm.trans hv.2.2
  rfl

/-- The block of the last lease has no owner but the references. -/
theorem Clients.last_owner (hc : Clients c held leases m) (hl : l ∈ leases)
    (hlast : ∀ l' ∈ leases.erase l, l'.handle ≠ l.handle) {o : BlockHandle}
    (ho : o ∈ owners held (leases.erase l)) (hid : o.id = l.handle.id) : l.handle ∈ held := by
  have hv := hc.leased_valid hl
  obtain ⟨h, hh, rfl⟩ := Multiset.mem_map.mp ho
  rcases Multiset.mem_add.mp hh with hh | hh
  · rwa [← handle_eq_of_valid hv (hc.valid hh) hid]
  · obtain ⟨l', hl', rfl⟩ := Multiset.mem_map.mp hh
    have hv' := hc.leased_valid (Multiset.mem_of_mem_erase hl')
    exact absurd (handle_eq_of_valid hv hv' hid) (hlast l' hl')

/-- **The end of the last lease** of a block with references makes it a victim. -/
theorem Clients.last_lease_held (hc : Clients c held leases m) (hl : l ∈ leases)
    (hlast : ∀ l' ∈ leases.erase l, l'.handle ≠ l.handle) (hh : l.handle ∈ held)
    (hm' : m' = TieredBlockManager.returned l.handle (TieredBlockManager.unpinned l.handle m)) :
    (m'.entries l.handle.id).location = .gpuResident ∧
      (m'.entries l.handle.id).gpu = (m.entries l.handle.id).gpu ∧
      m'.victim (fun i => i ≠ l.handle.id) = some l.handle.id := by
  have hc' : Clients c held (leases.erase l) m' := hm' ▸ (unpin_ok hc hl).2
  have hlive := (hc'.inv.steady.core.of_valid (hc'.valid hh)).1
  have hentry : m'.entries l.handle.id = (m.entries l.handle.id).unpinned := by
    rw [hm'] at hlive ⊢
    exact unleased_entry hlive
  have hp : (m'.entries l.handle.id).phase = some .resident := by
    rw [hentry]
    exact hc.leased_resident hl
  have hpins : (m'.entries l.handle.id).pins = 0 := by
    by_contra hne
    rw [hc'.pins] at hne
    obtain ⟨l', hl', hid⟩ := exists_lease hne
    exact hlast l' hl' (handle_eq_of_valid (hc'.valid hh) (hc'.leased_valid hl') hid)
  refine ⟨(Entry.of_phase hp).1, by rw [hentry]; rfl, ?_⟩
  rcases hc'.inv.steady.core.victim_cases (fun i => i ≠ l.handle.id) with
    ⟨id, hvictim, -, hid⟩ | ⟨-, hall⟩
  · have hsame : id = l.handle.id := not_not.mp (of_decide_eq_false hid)
    rw [hvictim, hsame]
  · exact absurd rfl (of_decide_eq_true (hall l.handle.id ⟨hp, hpins⟩))

/-- **The end of the last lease** of a block without references ends the block, and its slot is
free. -/
theorem Clients.last_lease_unheld (hc : Clients c held leases m) (hl : l ∈ leases)
    (hlast : ∀ l' ∈ leases.erase l, l'.handle ≠ l.handle) (hh : l.handle ∉ held)
    (hm' : m' = TieredBlockManager.returned l.handle (TieredBlockManager.unpinned l.handle m)) :
    ¬ m'.logical.Valid (raw l.handle) ∧ m'.entries l.handle.id = {} ∧
      ∀ g, (m.entries l.handle.id).gpu = some g →
        (m'.transfers.pool.manager.slots g.id).refs = 0 := by
  have hc' : Clients c held (leases.erase l) m' := hm' ▸ (unpin_ok hc hl).2
  have hcore' := hc'.inv.steady.core
  have hfree : ¬ (m'.logical.slots l.handle.id).free = false := fun hfree => by
    obtain ⟨o, ho, hid⟩ := hc'.owned.count_pos (hc'.refs_ne hfree)
    exact hh (hc.last_owner hl hlast ho hid)
  have hnot : ¬ m'.logical.Valid (raw l.handle) := fun hv => hfree hv.2.1
  have hentry : m'.entries l.handle.id = {} := by
    refine (hcore'.entry l.handle.id).idle ?_
    rw [← Bool.not_eq_true, (hcore'.entry l.handle.id).live]
    exact hfree
  refine ⟨hnot, hentry, fun g hg => ?_⟩
  by_contra hne
  obtain ⟨j, -, g', hg', hid⟩ := (hcore'.owned_slot hc'.inv.steady.underway).mp hne
  have hj : j ≠ l.handle.id := fun he => by
    rw [he, hentry] at hg'
    cases hg'
  rw [hm', unleased_entries hj] at hg'
  exact hj (hc.inv.steady.core.distinct j _ g' g hg' hg hid)

namespace Session

variable {s s' : Session} {answers : List CudaAnswer}

theorem Sound.dropLease_manager (hs : s.Sound) (hl : l ∈ s.leases)
    (hstep : step ⟨.dropLease l, answers⟩ s = some s') : s'.manager =
      returned l.handle (unpinned l.handle (s.manager.armed answers)) := by
  cases hstep
  show (s.call (unpin l.handle) (fun _ s => { s with leases := s.leases.erase l })
    answers).manager = _
  unfold call
  rw [(unpin_ok (hs.armed answers).1 hl).1]

/-- **The last lease.** When the last lease of a block ends, the block stays in its slot and can be
evicted again if a client still owns a reference to it, and is destroyed with its slot returned if
not. -/
theorem last_lease (hr : Reachable step Start Allowed s) (hl : l ∈ s.leases)
    (hlast : ∀ l' ∈ s.leases.erase l, l'.handle ≠ l.handle)
    (hstep : step ⟨.dropLease l, answers⟩ s = some s') :
    (l.handle ∈ s.held → (s'.manager.entries l.handle.id).location = .gpuResident ∧
      (s'.manager.entries l.handle.id).gpu = (s.manager.entries l.handle.id).gpu ∧
      s'.manager.victim (fun i => i ≠ l.handle.id) = some l.handle.id) ∧
    (l.handle ∉ s.held → ¬ s'.manager.logical.Valid (raw l.handle) ∧
      s'.manager.entries l.handle.id = {} ∧
      ∀ g, (s.manager.entries l.handle.id).gpu = some g →
        (s'.manager.transfers.pool.manager.slots g.id).refs = 0) := by
  have hs := reachable_sound hr
  have hc := (hs.armed answers).1
  have hmanager := hs.dropLease_manager hl hstep
  exact ⟨fun hh => hc.last_lease_held hl hlast hh hmanager,
    fun hh => hc.last_lease_unheld hl hlast hh hmanager⟩

/-- A lease outlives the references to its block, and ends the block. -/
theorem last_lease_small : ∃ s s', Reachable step Start Allowed s ∧
    step ⟨.dropLease ⟨⟨0, 1⟩, 0⟩, []⟩ s = some s' ∧ s.manager.logical.Valid (raw ⟨0, 1⟩) ∧
    ¬ s'.manager.logical.Valid (raw ⟨0, 1⟩) := by
  have hstate : (runAllowed [⟨.create (some [1, 2]), []⟩, ⟨.acquireGpu ⟨0, 1⟩, []⟩,
      ⟨.release ⟨0, 1⟩, []⟩] small).map (fun s => (s.held, s.leases)) =
      some (0, {⟨⟨0, 1⟩, 0⟩}) := by decide +kernel
  obtain ⟨s, hs, hstate⟩ := Option.map_eq_some_iff.mp hstate
  obtain ⟨hheld, hleases⟩ := Prod.mk.inj hstate
  have hr := reachable_runAllowed (.start small_start) hs
  have hl : (⟨⟨0, 1⟩, 0⟩ : GpuLease) ∈ s.leases := by
    rw [hleases]
    exact Multiset.mem_singleton_self _
  refine ⟨s, _, hr, rfl, Clients.leased_valid (reachable_sound hr) hl, ?_⟩
  refine ((last_lease hr hl (fun l' hl' => ?_) rfl).2 ?_).1
  · have hnone : ({⟨⟨0, 1⟩, 0⟩} : Multiset GpuLease).erase ⟨⟨0, 1⟩, 0⟩ = 0 := by decide
    rw [hleases, hnone] at hl'
    exact absurd hl' (Multiset.notMem_zero l')
  · rw [hheld]
    exact Multiset.notMem_zero _

end Session

end KVFlux.TieredBlockManager
