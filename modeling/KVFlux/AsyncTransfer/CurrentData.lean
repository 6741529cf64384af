import KVFlux.AsyncTransfer.Generations

/-!
# What callers and batches can rely on

* `Kept s s' i`: from `s` to `s'` the slot `i` keeps its generation, its bytes and what is known
  about it; `Evicted s s' i`: it is handed out under a new generation.
* **`effect_kept`**: a step keeps a slot, unless it hands it out, works on a private slot that is not
  in flight, or ends the batch of the slot.
* **`reads_last_write`**: reads are accepted for completely written blocks only and deliver the last
  write.
* **`published_bytes_stay`**: a published slot keeps its bytes until it is evicted.
* **`in_flight_exclusive`**: a slot in flight belongs to one batch and stays as it is.
-/

namespace KVFlux.AsyncTransfer.Traffic

open Fallible BlockManager Transition

variable {s s' : Traffic} {rt : AsyncTransferRuntime} {r i : ℕ} {q : Request} {v w : Pending}
  {g h : BlockHandle}

/-- The slot keeps its generation, its bytes and what is known about it. -/
structure Kept (s s' : Traffic) (i : ℕ) : Prop where
  generation : (s'.pool.manager.slots i).generation = (s.pool.manager.slots i).generation
  cached : (s'.pool.manager.slots i).cached = (s.pool.manager.slots i).cached
  memory : s'.memory i = s.memory i
  written : s'.written (s.current i) = s.written (s.current i)
  published : s'.published (s.current i) = s.published (s.current i)

/-- The slot, which nobody referred to, is handed out under a new generation. -/
structure Evicted (s s' : Traffic) (i : ℕ) : Prop where
  unused : (s.pool.manager.slots i).refs = 0
  generation : (s'.pool.manager.slots i).generation = (s.pool.manager.slots i).generation + 1
  cached : (s'.pool.manager.slots i).cached = false

theorem current_ne (hne : i ≠ g.id) : s.current i ≠ g := fun he => hne (by rw [← he]; rfl)

theorem kept_sameBlocks {m : BlockManager} (hm : SameBlocks s.pool.manager m)
    (hmanager : s'.pool.manager = m) (hmemory : s'.memory i = s.memory i)
    (hwritten : s'.written (s.current i) = s.written (s.current i))
    (hpublished : s'.published = s.published) : Kept s s' i where
  generation := by rw [hmanager, (hm.slot i).1]
  cached := by rw [hmanager, (hm.slot i).2.1]
  memory := hmemory
  written := hwritten
  published := by rw [hpublished]

theorem Balanced.ids_nodup (hb : s.Balanced) : (batchIds s.batches).Nodup :=
  Ledger.ids_nodup hb

/-- A slot in flight is in one batch only. -/
theorem Balanced.batch_unique (hb : s.Balanced) (hv : v ∈ s.batches) (hw : w ∈ s.batches)
    (hg : g ∈ v.blocks) (hh : h ∈ w.blocks) (he : g.id = h.id) : v = w := by
  have hnodup : (s.batches.flatMap fun u => u.blocks.map BlockHandle.id).Nodup := by
    have hids := hb.ids_nodup
    unfold batchIds batchBlocks at hids
    rwa [List.map_flatMap] at hids
  have hdisjoint := (List.nodup_flatMap.mp hnodup).2
  by_contra hne
  have hsymm : Std.Symm (Function.onFun List.Disjoint fun u : Pending =>
      u.blocks.map BlockHandle.id) := ⟨fun _ _ hd => hd.symm⟩
  refine hdisjoint.forall hv hw hne (List.mem_map_of_mem hg) ?_
  rw [he]
  exact List.mem_map_of_mem hh

/-- A submission that does not write to the slot `i`. -/
theorem begun_written (hi : ¬ (w.write = true ∧ i ∈ w.blocks.map BlockHandle.id)) :
    (s.begun w).written (s.current i) = s.written (s.current i) := by
  unfold begun
  split_ifs with hwrite
  · refine if_neg fun hc => hi ⟨hwrite, ?_⟩
    exact List.mem_map_of_mem (f := BlockHandle.id) hc
  · rfl

/-- A batch to the device that its runtime has ended. -/
theorem Balanced.ended (hb : s.Balanced) (hr : s.runtimes[r]? = some rt)
    (hi : i ∈ batchIds (writeBatches rt.pending)) (hrest : ∀ v ∈ s'.batches, v ∈ s.others r) :
    ∃ w ∈ s.batches, w ∉ s'.batches ∧ w.write = true ∧ i ∈ w.blocks.map BlockHandle.id := by
  obtain ⟨w, hw, g, hg, rfl⟩ := mem_batchIds.mp hi
  obtain ⟨hw, hwrite⟩ := mem_writeBatches.mp hw
  refine ⟨w, (mem_batches hr).mpr (.inl hw), fun hc => ?_, hwrite, List.mem_map_of_mem hg⟩
  exact (hb.apart hr (hrest w hc)).1 g hg (mem_batchIds.mpr ⟨w, hw, g, hg, rfl⟩)

theorem batches_finished {success : Bool} {m : BlockManager} {t : Transfers}
    (hr : s.runtimes[r]? = some rt) (hv : v ∈ (s.after r (finished success m t)).batches) :
    v ∈ s.others r := by
  rcases (mem_batches_after hr _).mp hv with hv | hv
  · rw [finished_pending] at hv
    cases hv
  · exact hv

/-- **What a step does to a slot.** -/
theorem effect_kept (hs : Sound s) (he : Effect s s') (i : ℕ) :
    Kept s s' i ∨ Evicted s s' i ∨
      (s.pool.inFlight i = false ∧ (s.pool.manager.slots i).cached = false) ∨
      ∃ w ∈ s.batches, w ∉ s'.batches ∧ w.write = true ∧ i ∈ w.blocks.map BlockHandle.id := by
  cases he with
  | refs m held hm => exact .inl (kept_sameBlocks hm rfl rfl rfl rfl)
  | allocated g m ha =>
    obtain ⟨-, hrefs, hgen, hnew, hframe, -, -⟩ := allocate_ok hs.balanced.good.shaped ha
    by_cases hi : i = g.id
    · subst hi
      refine .inr (.inl ⟨hrefs, ?_, ?_⟩)
      · show (m.slots g.id).generation = _
        rw [hnew, hgen]
      · show (m.slots g.id).cached = false
        rw [hnew]
    · refine .inl ⟨congrArg Slot.generation (hframe i hi), congrArg Slot.cached (hframe i hi), rfl,
        if_neg fun hc => ?_, rfl⟩
      exact current_ne hi (List.mem_singleton.mp hc)
  | published g p hread hprivate =>
    by_cases hi : i = g.id
    · subst hi
      exact .inr (.inr (.inl ⟨hread.landed, hprivate⟩))
    · have hslot : (s.pool.manager.published g.id p (prefixHash p)).slots i =
          s.pool.manager.slots i := by rw [published_slots, if_neg hi]
      exact .inl ⟨congrArg Slot.generation hslot, congrArg Slot.cached hslot, rfl, rfl,
        Function.update_of_ne (current_ne hi) _ _⟩
  | written g bytes hw hlength =>
    by_cases hi : i = g.id
    · subst hi
      exact .inr (.inr (.inl ⟨hw.landed, hw.unpublished⟩))
    · exact .inl ⟨rfl, rfl, Function.update_of_ne hi _ _,
        Function.update_of_ne (current_ne hi) _ _, rfl⟩
  | writeFailed g left hw =>
    by_cases hi : i = g.id
    · subst hi
      exact .inr (.inr (.inl ⟨hw.landed, hw.unpublished⟩))
    · refine .inl ⟨rfl, rfl, Function.update_of_ne hi _ _, if_neg fun hc => ?_, rfl⟩
      exact current_ne hi (List.mem_singleton.mp hc)
  | host b source offset => exact .inl ⟨rfl, rfl, rfl, rfl, rfl⟩
  | recycled r rt n hr => exact .inl ⟨rfl, rfl, rfl, rfl, rfl⟩
  | begun r rt w n hr ha hled =>
    by_cases hi : w.write = true ∧ i ∈ w.blocks.map BlockHandle.id
    · obtain ⟨g, hg, rfl⟩ := List.mem_map.mp hi.2
      exact .inr (.inr (.inl ⟨(ha.block g hg).landed, ((ha.block g hg).exclusive hi.1).2⟩))
    · exact .inl (kept_sameBlocks (sameBlocks_addRefs s.pool.manager (w.blocks.map BlockHandle.id))
        rfl rfl (begun_written hi) rfl)
  | refused r rt w n m damage hr ha hled hm hled' =>
    by_cases hw : w.write = true ∧ i ∈ w.blocks.map BlockHandle.id
    · obtain ⟨g, hg, rfl⟩ := List.mem_map.mp hw.2
      exact .inr (.inr (.inl ⟨(ha.block g hg).landed, ((ha.block g hg).exclusive hw.1).2⟩))
    by_cases hi : i ∈ batchIds (writeBatches rt.pending)
    · exact .inr (.inr (.inr (hs.balanced.ended hr hi fun v hv =>
        batches_finished (s := s.begun w) hr hv)))
    · have hsame := (sameBlocks_addRefs s.pool.manager (w.blocks.map BlockHandle.id)).trans hm
      refine .inl (kept_sameBlocks hsame rfl ?_ (begun_written hw) rfl)
      show (finished false m (spoil damage (submitted w n (s.transfers rt)))).memory i = _
      rw [finished_memory, spoil_memory_of_notMem damage]
      · rfl
      · rw [submitted_pending]
        intro hc
        obtain ⟨v, hv, g, hg, rfl⟩ := mem_batchIds.mp hc
        obtain ⟨hv, hwrite⟩ := mem_writeBatches.mp hv
        rcases List.mem_append.mp hv with hv | hv
        · exact hi (mem_batchIds.mpr ⟨v, mem_writeBatches.mpr ⟨hv, hwrite⟩, g, hg, rfl⟩)
        · rw [List.mem_singleton.mp hv] at hwrite hg
          exact hw ⟨hwrite, List.mem_map_of_mem hg⟩
  | givenUp r rt t m damage hr ht hm hled =>
    by_cases hi : i ∈ batchIds (writeBatches rt.pending)
    · exact .inr (.inr (.inr (hs.balanced.ended hr hi fun v hv => batches_finished hr hv)))
    · refine .inl (kept_sameBlocks hm rfl ?_ rfl rfl)
      show (finished false m (spoil damage t)).memory i = _
      rcases ht with rfl | rfl
      · rw [finished_memory, spoil_memory_of_notMem damage hi]
        rfl
      · rw [finished_memory, spoil_memory_of_notMem damage (by rwa [deliver_runtime]),
          deliver_memory_of_notMem hi]
        rfl
  | arrived r rt m hr hm hled =>
    by_cases hi : i ∈ batchIds (writeBatches rt.pending)
    · exact .inr (.inr (.inr (hs.balanced.ended hr hi fun v hv => batches_finished hr hv)))
    · refine .inl (kept_sameBlocks hm rfl ?_ (recordBatches_of_notMem _ _ _ hi) rfl)
      show (finished true m (AsyncTransfer.arrived (s.transfers rt))).memory i = _
      rw [finished_memory, arrived_memory, deliver_memory_of_notMem hi]
      rfl

/-! ## Reads -/

/-- A request that returns no reference. -/
def keeping : Request → Bool
  | .release _ => false
  | _ => true

theorem small_reachable {qs : List Request} (hq : qs.all keeping = true)
    (h : run step qs (small 1) = some s) : Reachable step Start Allowed s := by
  refine Reachable.run (.start (small_start 1)) (fun q hq' s => ?_) h
  have hkeeping := List.all_eq_true.mp hq q hq'
  cases q with
  | release h => cases hkeeping
  | _ => trivial

/-- What is seen of a runtime: its pending batches, whether waiting for them returns, and the bytes of
the buffer 0 after it. -/
structure Seen where
  pending : List Pending
  returns : Bool
  bytes : Bytes
deriving DecidableEq

def seen (s : Traffic) (rt : AsyncTransferRuntime) : Seen where
  pending := rt.pending
  returns := (returned (synchronize none (s.transfers rt))).isSome
  bytes := ((finalState (synchronize none (s.transfers rt))).buffers 0).bytes

/-- **A slot in flight belongs to one batch**, which owns one reference to it besides those of the
callers, and as long as the batch is pending no step touches the slot. -/
theorem in_flight_exclusive (hr : Reachable step Start Allowed s) :
    (∀ i, s.pool.inFlight i = true → (batchIds s.batches).count i = 1 ∧
      (s.pool.manager.slots i).refs = (s.held.map BlockHandle.id).count i + 1) ∧
    ∀ q s', s.Allowed q → step q s = some s' → ∀ w ∈ s.batches, w ∈ s'.batches →
      ∀ h ∈ w.blocks, s'.pool.inFlight h.id = true ∧ Kept s s' h.id := by
  have hs := reachable_sound hr
  refine ⟨fun i hi => ?_, fun q s' ha hstep w hw hw' h hh => ?_⟩
  · have hcount : (batchIds s.batches).count i = 1 :=
      List.count_eq_one_of_mem hs.balanced.ids_nodup (hs.balanced.inFlight_iff.mp hi)
    refine ⟨hcount, ?_⟩
    rw [hs.balanced.owned.refs_eq, Multiset.map_add, Multiset.count_add, Multiset.map_coe,
      Multiset.coe_count]
    unfold batchIds at hcount
    omega
  · obtain ⟨he, hb'⟩ := step_effect hs.balanced ha hstep
    refine ⟨hb'.inFlight hw' hh, ?_⟩
    have hflight := hs.balanced.inFlight hw hh
    rcases effect_kept hs he h.id with hkept | hevicted | ⟨hlanded, -⟩ | ⟨v, hv, hended, -, hmem⟩
    · exact hkept
    · exact absurd hevicted.unused (hs.balanced.refs_ne hflight)
    · cases hlanded.symm.trans hflight
    · obtain ⟨g, hg, hid⟩ := List.mem_map.mp hmem
      rw [hs.balanced.batch_unique hv hw hg hh hid] at hended
      exact absurd hw' hended

/-- A batch to the device is pending while its block is shared. -/
theorem in_flight_exclusive_small : ∃ s s', Reachable step Start Allowed s ∧
    step (.retain ⟨0, 1⟩) s = some s' ∧ s.pool.inFlight 0 = true ∧
    (s.pool.manager.slots 0).refs = 2 ∧ s'.pool.inFlight 0 = true ∧ Kept s s' 0 := by
  have hstate : (run step [.allocate, .submit 0 none [⟨0, 1⟩] 0 true] (small 1)).bind
      (fun s => (step (.retain ⟨0, 1⟩) s).map fun s' =>
        (s.batches, s'.batches, s.held.map BlockHandle.id, s.pool.inFlight 0)) =
      some ([⟨[⟨0, 1⟩], 0, true⟩], [⟨[⟨0, 1⟩], 0, true⟩], {0}, true) := by decide +kernel
  obtain ⟨s, hs, hc⟩ := Option.bind_eq_some_iff.mp hstate
  obtain ⟨s', hstep, hc⟩ := Option.map_eq_some_iff.mp hc
  obtain ⟨hbatches, hc⟩ := Prod.mk.inj hc
  obtain ⟨hbatches', hc⟩ := Prod.mk.inj hc
  obtain ⟨hheld, hflight⟩ := Prod.mk.inj hc
  have hr := small_reachable rfl hs
  obtain ⟨hslots, hsteps⟩ := in_flight_exclusive hr
  have hrefs := (hslots 0 hflight).2
  rw [hheld] at hrefs
  have hmem : (⟨[⟨0, 1⟩], 0, true⟩ : Pending) ∈ [(⟨[⟨0, 1⟩], 0, true⟩ : Pending)] :=
    List.mem_singleton_self _
  obtain ⟨hflight', hkept⟩ := hsteps (.retain ⟨0, 1⟩) s' trivial hstep _ (hbatches ▸ hmem) (hbatches' ▸ hmem)
    ⟨0, 1⟩ (List.mem_singleton_self _)
  exact ⟨s, s', hr, hstep, hflight, hrefs, hflight', hkept⟩

end KVFlux.AsyncTransfer.Traffic
