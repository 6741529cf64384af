import KVFlux.AsyncTransfer.Model
import KVFlux.BlockManager.Acquire
import KVFlux.BlockManager.Run
import KVFlux.GpuMemoryPoolCalls
import KVFlux.Lib.Postcondition

/-!
# The ledger of the asynchronous transfers

Every reference to a block of the pool is owned by a caller or by a pending batch, and the flags
say which slots and buffers the pending batches use.

* `SameBlocks m m'`: only reference counts and lists differ.
* **`Ledger held others t`**: the callers own `held`; `others` are the pending batches of other
  runtimes on the pool.
* `ended`, `finished`: the states that ended batches leave.
* **`finish_ok`**: `finish` never throws and leaves `finished`; **`abandon_ok`**: pending batches
  are given up as a whole.
-/

namespace KVFlux

open Fallible

namespace BlockManager

/-- Only reference counts and the lists differ. -/
structure SameBlocks (m m' : BlockManager) : Prop where
  capacity : m'.capacity = m.capacity
  blockSize : m'.blockSize = m.blockSize
  slot : ∀ i, (m'.slots i).generation = (m.slots i).generation ∧
    (m'.slots i).cached = (m.slots i).cached ∧
    (m'.slots i).prefixTokens = (m.slots i).prefixTokens

variable {m m' m'' : BlockManager}

theorem SameBlocks.refl (m : BlockManager) : SameBlocks m m := ⟨rfl, rfl, fun _ => ⟨rfl, rfl, rfl⟩⟩

theorem SameBlocks.trans (h : SameBlocks m m') (h' : SameBlocks m' m'') : SameBlocks m m'' where
  capacity := h'.capacity.trans h.capacity
  blockSize := h'.blockSize.trans h.blockSize
  slot i := ⟨(h'.slot i).1.trans (h.slot i).1, (h'.slot i).2.1.trans (h.slot i).2.1,
    (h'.slot i).2.2.trans (h.slot i).2.2⟩

theorem sameBlocks_released (m : BlockManager) (id : ℕ) : SameBlocks m (m.released id) :=
  ⟨released_capacity, released_blockSize, released_steady m id⟩

theorem sameBlocks_retained (m : BlockManager) (id : ℕ) : SameBlocks m (m.retained id) :=
  ⟨retained_capacity, retained_blockSize, fun i => by
    rw [retained_slots]
    split_ifs with hi
    · rw [hi]; exact ⟨rfl, rfl, rfl⟩
    · exact ⟨rfl, rfl, rfl⟩⟩

theorem sameBlocks_addRefs (m : BlockManager) (ids : List ℕ) : SameBlocks m (m.addRefs ids) :=
  ⟨rfl, rfl, fun i => by rw [addRefs_slots]; split_ifs <;> exact ⟨rfl, rfl, rfl⟩⟩

/-- The loop of `share` below the largest count. -/
theorem retainAll_ok (hs : List BlockHandle) : ∀ done : List BlockHandle, Owns m (done ++ hs) →
    (∀ h ∈ hs, (m.slots h.id).refs ≠ sizeMax) →
    retainAll done hs (m.addRefs (done.map BlockHandle.id)) =
      .ok () (m.addRefs ((done ++ hs).map BlockHandle.id)) := by
  induction hs with
  | nil => intro done _ _; simp [retainAll]
  | cons h hs ih =>
    intro done ho hmax
    have hm : h ∈ done ++ h :: hs := by simp
    have hnd := ho.nodup_ids
    rw [List.map_append, List.map_cons] at hnd
    have hn : h.id ∉ done.map BlockHandle.id := fun hd =>
      (List.nodup_append.mp hnd).2.2 _ hd _ List.mem_cons_self rfl
    have hslot : (m.addRefs (done.map BlockHandle.id)).slots h.id = m.slots h.id := if_neg hn
    have hretain : retain h (m.addRefs (done.map BlockHandle.id)) =
        .ok () (m.addRefs ((done ++ [h]).map BlockHandle.id)) := by
      rw [retain_of_valid ((addRefs_valid _).mpr (ho.valid h hm))
        (by rw [hslot]; exact hmax h List.mem_cons_self), retained_addRefs (ho.refs_ne h hm) hn]
      simp
    rw [retainAll, bind_of_ok (onError_ok.mpr hretain),
      ih (done ++ [h]) (by simpa using ho) fun g hg => hmax g (List.mem_cons_of_mem h hg)]
    simp

end BlockManager

namespace AsyncTransfer

open BlockManager

/-! ## Batches -/

section Batches

variable {ws ws' : List Pending} {w : Pending} {i b : ℕ}

@[simp] theorem batchBlocks_nil : batchBlocks [] = [] := rfl
@[simp] theorem batchIds_nil : batchIds [] = [] := rfl
@[simp] theorem batchBuffers_nil : batchBuffers [] = [] := rfl

@[simp] theorem batchBlocks_cons : batchBlocks (w :: ws) = w.blocks ++ batchBlocks ws := rfl

@[simp] theorem batchIds_cons :
    batchIds (w :: ws) = w.blocks.map BlockHandle.id ++ batchIds ws := by
  simp [batchIds]

@[simp] theorem batchBuffers_cons : batchBuffers (w :: ws) = w.buffer :: batchBuffers ws := rfl

@[simp] theorem batchBlocks_append :
    batchBlocks (ws ++ ws') = batchBlocks ws ++ batchBlocks ws' := List.flatMap_append

@[simp] theorem batchIds_append : batchIds (ws ++ ws') = batchIds ws ++ batchIds ws' := by
  simp [batchIds]

@[simp] theorem batchBuffers_append :
    batchBuffers (ws ++ ws') = batchBuffers ws ++ batchBuffers ws' := List.map_append

theorem mem_batchIds : i ∈ batchIds ws ↔ ∃ w ∈ ws, ∃ h ∈ w.blocks, h.id = i := by
  simp only [batchIds, batchBlocks, List.mem_map, List.mem_flatMap]
  exact ⟨fun ⟨h, ⟨w, hw, hh⟩, he⟩ => ⟨w, hw, h, hh, he⟩,
    fun ⟨w, hw, h, hh, he⟩ => ⟨h, ⟨w, hw, hh⟩, he⟩⟩

theorem mem_batchBuffers : b ∈ batchBuffers ws ↔ ∃ w ∈ ws, w.buffer = b := List.mem_map

theorem batchIds_writeBatches_subset (hi : i ∈ batchIds (writeBatches ws)) : i ∈ batchIds ws := by
  obtain ⟨w, hw, hh⟩ := mem_batchIds.mp hi
  exact mem_batchIds.mpr ⟨w, List.mem_of_mem_filter hw, hh⟩

theorem writeBatches_cons : writeBatches (w :: ws) =
    if w.write = true then w :: writeBatches ws else writeBatches ws := by
  unfold writeBatches
  rw [List.filter_cons]

end Batches

/-! ## The ledger -/

/-- **The ledger of a runtime.** `held` are the references of the callers, `others` the pending
batches of the other runtimes on the pool. -/
structure Ledger (held : Multiset BlockHandle) (others : List Pending) (t : Transfers) : Prop where
  good : Good prefixHash t.pool.manager
  owned : Owned t.pool.manager (batchBlocks (t.runtime.pending ++ others) + held)
  ids_nodup : (batchIds (t.runtime.pending ++ others)).Nodup
  inFlight : ∀ i, t.pool.inFlight i = true ↔ i ∈ batchIds (t.runtime.pending ++ others)
  buffers_nodup : (batchBuffers (t.runtime.pending ++ others)).Nodup
  busy : ∀ b, (t.buffers b).busy = true ↔ b ∈ batchBuffers (t.runtime.pending ++ others)

variable {held : Multiset BlockHandle} {others : List Pending} {t t' : Transfers}
  {ws : List Pending} {w : Pending} {m : BlockManager}

/-! ## Ending the batches -/

/-- The flags after the blocks `hs` of a batch have ended. -/
def endFlags (success write : Bool) (ids : List ℕ) (pool : GpuMemoryPool) : GpuMemoryPool :=
  { pool with
    inFlight := fun i => if i ∈ ids then false else pool.inFlight i
    initialized := fun i => if write = true ∧ i ∈ ids then success else pool.initialized i }

theorem finishBlock_ok (success write : Bool) {h : BlockHandle} {pool : GpuMemoryPool}
    (hh : h ∈ held) (ho : Owned pool.manager held) :
    finishBlock success write h pool = .ok ()
      { endFlags success write [h.id] pool with manager := pool.manager.released h.id } := by
  have hrelease := (ho.release hh).1
  have hflags : (if write = true then GpuMemoryPool.setInitialized h.id success pool else pool) =
      { pool with
        initialized := fun i => if write = true ∧ i ∈ [h.id] then success
          else pool.initialized i } := by
    cases write
    · simp
    · rw [if_pos rfl]
      unfold GpuMemoryPool.setInitialized
      congr 1
      funext i
      simp [Function.update_apply]
  have hfinish : finishBlock success write h pool =
      GpuMemoryPool.release h (GpuMemoryPool.setInFlight h.id false
        (if write = true then GpuMemoryPool.setInitialized h.id success pool else pool)) := by
    unfold finishBlock
    cases write <;> rfl
  rw [hfinish, hflags]
  unfold GpuMemoryPool.release GpuMemoryPool.onManager GpuMemoryPool.setInFlight
  simp only [hrelease]
  congr 2
  unfold endFlags
  funext i
  simp [Function.update_apply]

theorem endFlags_endFlags (success write : Bool) (ids ids' : List ℕ) (pool : GpuMemoryPool)
    (m m' : BlockManager) :
    { endFlags success write ids' { endFlags success write ids pool with manager := m' } with
      manager := m } = { endFlags success write (ids ++ ids') pool with manager := m } := by
  unfold endFlags
  simp only [GpuMemoryPool.mk.injEq, true_and]
  refine ⟨?_, ?_⟩
  · funext i
    cases write <;> by_cases h : i ∈ ids' <;> by_cases h' : i ∈ ids <;> simp [h, h']
  · funext i
    by_cases h : i ∈ ids' <;> by_cases h' : i ∈ ids <;> simp [h, h']

theorem finishBlocks_ok (success write : Bool) (hs : List BlockHandle) :
    ∀ {pool : GpuMemoryPool}, Good prefixHash pool.manager → Owned pool.manager (hs + held) →
    ∃ m, finishBlocks success write hs pool =
        .ok () { endFlags success write (hs.map BlockHandle.id) pool with manager := m } ∧
      Good prefixHash m ∧ Owned m held ∧ SameBlocks pool.manager m := by
  induction hs with
  | nil =>
    intro pool hg ho
    refine ⟨pool.manager, ?_, hg, by simpa using ho, SameBlocks.refl _⟩
    simp [finishBlocks, endFlags]
  | cons h hs ih =>
    intro pool hg ho
    have hm : h ∈ ((h :: hs : List BlockHandle) : Multiset BlockHandle) + held := by simp
    obtain ⟨hr, ho'⟩ := ho.release hm
    rw [← Multiset.cons_coe, Multiset.cons_add, Multiset.erase_cons_head] at ho'
    have hg' : Good prefixHash (pool.manager.released h.id) := by
      have := release_keeps (H := prefixHash) h pool.manager hg
      rwa [hr] at this
    have hstep := finishBlock_ok success write hm ho
    obtain ⟨m, hrun, hgood, howned, hsame⟩ :=
      @ih { endFlags success write [h.id] pool with manager := pool.manager.released h.id } hg' ho'
    refine ⟨m, ?_, hgood, howned, (sameBlocks_released _ _).trans hsame⟩
    rw [finishBlocks, bind_of_ok hstep, hrun]
    exact congrArg _ (endFlags_endFlags success write [h.id] (hs.map BlockHandle.id) pool m _)

/-- The state after the batches `ws` have ended, up to the manager `m`. -/
def ended (success : Bool) (ws : List Pending) (m : BlockManager) (t : Transfers) : Transfers :=
  { t with
    pool := { t.pool with
      manager := m
      inFlight := fun i => if i ∈ batchIds ws then false else t.pool.inFlight i
      initialized := fun i =>
        if i ∈ batchIds (writeBatches ws) then success else t.pool.initialized i }
    buffers := fun b =>
      if b ∈ batchBuffers ws then { t.buffers b with busy := false } else t.buffers b
    runtime := { t.runtime with recycled := t.runtime.recycled + ws.length } }

/-- One batch, then the others. -/
theorem ended_ended (success : Bool) (w : Pending) (ws : List Pending) (m m' : BlockManager)
    (t : Transfers) : ended success ws m (retire w
      { t with pool := { endFlags success w.write (w.blocks.map BlockHandle.id) t.pool with
        manager := m' } }) = ended success (w :: ws) m t := by
  unfold ended retire endFlags
  simp only [Transfers.mk.injEq, GpuMemoryPool.mk.injEq, AsyncTransferRuntime.mk.injEq,
    true_and, and_true, List.length_cons, batchIds_cons, batchBuffers_cons, List.mem_append,
    List.mem_cons, writeBatches_cons]
  refine ⟨⟨?_, ?_⟩, ?_, by omega⟩
  · funext i
    cases w.write <;> by_cases h : i ∈ batchIds (writeBatches ws) <;>
      by_cases h' : i ∈ w.blocks.map BlockHandle.id <;> simp [h, h']
  · funext i
    by_cases h : i ∈ batchIds ws <;> by_cases h' : i ∈ w.blocks.map BlockHandle.id <;> simp [h, h']
  · funext b
    by_cases h : b = w.buffer
    · subst h
      by_cases h' : w.buffer ∈ batchBuffers ws <;> simp [h']
    · by_cases h' : b ∈ batchBuffers ws <;> simp [h, h']

theorem finishBatches_ok (success : Bool) (ws : List Pending) : ∀ {t : Transfers},
    Good prefixHash t.pool.manager → Owned t.pool.manager (batchBlocks ws + held) →
    ∃ m, finishBatches success ws t = .ok () (ended success ws m t) ∧
      Good prefixHash m ∧ Owned m held ∧ SameBlocks t.pool.manager m := by
  induction ws with
  | nil =>
    intro t hg ho
    refine ⟨t.pool.manager, ?_, hg, by simpa using ho, SameBlocks.refl _⟩
    simp [finishBatches, ended, writeBatches]
  | cons w ws ih =>
    intro t hg ho
    rw [batchBlocks_cons, ← Multiset.coe_add, add_assoc] at ho
    obtain ⟨m', hblocks, hg', ho', hsame⟩ := finishBlocks_ok success w.write w.blocks hg ho
    obtain ⟨m, hrun, hgood, howned, hsame'⟩ := @ih (retire w { t with
      pool := { endFlags success w.write (w.blocks.map BlockHandle.id) t.pool with manager := m' } })
      hg' ho'
    refine ⟨m, ?_, hgood, howned, hsame.trans hsame'⟩
    have hpool : onPool (finishBlocks success w.write w.blocks) t = .ok () { t with
        pool := { endFlags success w.write (w.blocks.map BlockHandle.id) t.pool with
          manager := m' } } := by
      unfold onPool
      rw [hblocks]
    rw [finishBatches, bind_of_ok hpool]
    show finishBatches success ws (retire w _) = _
    rw [hrun, ended_ended]

/-- The state that `finish` leaves, up to the manager `m`. -/
def finished (success : Bool) (m : BlockManager) (t : Transfers) : Transfers :=
  clearPending (ended success t.runtime.pending m (if success = true then t else countFailed t))

section Finished

variable (success : Bool) (m : BlockManager) (t : Transfers)

@[simp] theorem finished_manager : (finished success m t).pool.manager = m := rfl
@[simp] theorem finished_pending : (finished success m t).runtime.pending = [] := rfl

@[simp] theorem finished_blockBytes :
    (finished success m t).pool.blockBytes = t.pool.blockBytes := by cases success <;> rfl

@[simp] theorem finished_base : (finished success m t).pool.base = t.pool.base := by
  cases success <;> rfl

@[simp] theorem finished_memory : (finished success m t).memory = t.memory := by
  cases success <;> rfl

@[simp] theorem finished_history : (finished success m t).history = t.history := by
  cases success <;> rfl

theorem finished_inFlight (i : ℕ) : (finished success m t).pool.inFlight i =
    if i ∈ batchIds t.runtime.pending then false else t.pool.inFlight i := by cases success <;> rfl

theorem finished_initialized (i : ℕ) : (finished success m t).pool.initialized i =
    if i ∈ batchIds (writeBatches t.runtime.pending) then success else t.pool.initialized i := by
  cases success <;> rfl

theorem finished_buffers (b : ℕ) : (finished success m t).buffers b =
    if b ∈ batchBuffers t.runtime.pending then { t.buffers b with busy := false }
    else t.buffers b := by cases success <;> rfl

@[simp] theorem finished_bytes (b : ℕ) :
    ((finished success m t).buffers b).bytes = (t.buffers b).bytes := by
  rw [finished_buffers]
  split_ifs <;> rfl

end Finished

/-- **`finish` never throws**; the references of the ended batches are returned. -/
theorem finish_ok (success : Bool) (hl : Ledger held others t) :
    ∃ m, finish success t = .ok () (finished success m t) ∧ SameBlocks t.pool.manager m ∧
      Ledger held others (finished success m t) := by
  have howned : Owned t.pool.manager
      (batchBlocks t.runtime.pending + (batchBlocks others + held)) := by
    have := hl.owned
    rwa [batchBlocks_append, ← Multiset.coe_add, add_assoc] at this
  have hids := hl.ids_nodup
  rw [batchIds_append, List.nodup_append] at hids
  have hbuffers := hl.buffers_nodup
  rw [batchBuffers_append, List.nodup_append] at hbuffers
  have hpool : (if success = true then t else countFailed t).pool = t.pool := by
    cases success <;> rfl
  obtain ⟨m, hbatches, hgood, ho, hsame⟩ := finishBatches_ok success t.runtime.pending
    (t := if success = true then t else countFailed t) (hpool ▸ hl.good) (hpool ▸ howned)
  rw [hpool] at hsame
  have hfinish : finish success t = (finishBatches success t.runtime.pending >>=
      fun _ => modify clearPending : Call Transfers Unit)
      (if success = true then t else countFailed t) := by
    cases success <;> rfl
  refine ⟨m, ?_, hsame, hgood, ?_, ?_, fun i => ?_, ?_, fun b => ?_⟩
  · rw [hfinish, bind_of_ok hbatches]
    rfl
  · rw [finished_pending, List.nil_append, finished_manager]
    exact ho
  · rw [finished_pending, List.nil_append]
    exact hids.2.1
  · rw [finished_pending, List.nil_append, finished_inFlight]
    split_ifs with hi
    · exact iff_of_false (by decide) fun hi' => hids.2.2 i hi i hi' rfl
    · rw [hl.inFlight, batchIds_append, List.mem_append]
      exact or_iff_right hi
  · rw [finished_pending, List.nil_append]
    exact hbuffers.2.1
  · rw [finished_pending, List.nil_append, finished_buffers]
    split_ifs with hb
    · exact iff_of_false (by decide) fun hb' => hbuffers.2.2 b hb b hb' rfl
    · rw [hl.busy, batchBuffers_append, List.mem_append]
      exact or_iff_right hb

/-! ## Giving up -/

/-- The ledger looks at the pool, the pending batches and the busy buffers. -/
theorem Ledger.perm {others' : List Pending} (hl : Ledger held others t) (hpool : t'.pool = t.pool)
    (hperm : (t'.runtime.pending ++ others').Perm (t.runtime.pending ++ others))
    (hbusy : ∀ b, (t'.buffers b).busy = (t.buffers b).busy) : Ledger held others' t' := by
  have hblocks : (batchBlocks (t'.runtime.pending ++ others')).Perm
      (batchBlocks (t.runtime.pending ++ others)) := hperm.flatMap_right _
  have hids : (batchIds (t'.runtime.pending ++ others')).Perm
      (batchIds (t.runtime.pending ++ others)) := hblocks.map _
  have hbuffers : (batchBuffers (t'.runtime.pending ++ others')).Perm
      (batchBuffers (t.runtime.pending ++ others)) := hperm.map _
  refine ⟨hpool ▸ hl.good, ?_, hids.nodup_iff.mpr hl.ids_nodup, fun i => ?_,
    hbuffers.nodup_iff.mpr hl.buffers_nodup, fun b => ?_⟩
  · rw [hpool, Multiset.coe_eq_coe.mpr hblocks]
    exact hl.owned
  · rw [hpool, hids.mem_iff]
    exact hl.inFlight i
  · rw [hbusy, hbuffers.mem_iff]
    exact hl.busy b

theorem Ledger.frame (hl : Ledger held others t) (hpool : t'.pool = t.pool)
    (hpending : t'.runtime.pending = t.runtime.pending)
    (hbusy : ∀ b, (t'.buffers b).busy = (t.buffers b).busy) : Ledger held others t' :=
  hl.perm hpool (by rw [hpending]) hbusy

/-- A call of the callers on the manager of the pool. -/
theorem Ledger.callers {held' : Multiset BlockHandle} (hl : Ledger held others t)
    (hg : Good prefixHash t'.pool.manager)
    (ho : Owned t'.pool.manager (batchBlocks (t.runtime.pending ++ others) + held'))
    (hpending : t'.runtime.pending = t.runtime.pending)
    (hflight : t'.pool.inFlight = t.pool.inFlight)
    (hbusy : ∀ b, (t'.buffers b).busy = (t.buffers b).busy) : Ledger held' others t' where
  good := hg
  owned := by rw [hpending]; exact ho
  ids_nodup := by rw [hpending]; exact hl.ids_nodup
  inFlight i := by rw [hpending, hflight]; exact hl.inFlight i
  buffers_nodup := by rw [hpending]; exact hl.buffers_nodup
  busy b := by rw [hbusy, hpending]; exact hl.busy b

@[simp] theorem spoil_pool (damage : Damage) (t : Transfers) : (spoil damage t).pool = t.pool := rfl

@[simp] theorem spoil_runtime (damage : Damage) (t : Transfers) :
    (spoil damage t).runtime = t.runtime := rfl

@[simp] theorem spoil_history (damage : Damage) (t : Transfers) :
    (spoil damage t).history = t.history := rfl

@[simp] theorem spoil_busy (damage : Damage) (t : Transfers) (b : ℕ) :
    ((spoil damage t).buffers b).busy = (t.buffers b).busy := by
  unfold spoil
  simp only
  split_ifs <;> rfl

@[simp] theorem spoilBytes_length (left : ℕ → UInt8) (bytes : Bytes) :
    (spoilBytes left bytes).length = bytes.length := by
  simp [spoilBytes]

/-- The size of a buffer outlives a failed copy. -/
@[simp] theorem spoil_size (damage : Damage) (t : Transfers) (b : ℕ) :
    ((spoil damage t).buffers b).size = (t.buffers b).size := by
  unfold spoil PinnedStorage.size
  simp only
  split_ifs
  · exact spoilBytes_length _ _
  · rfl

/-- **Pending batches are given up as a whole.** -/
theorem abandon_ok (damage : Damage) (hl : Ledger held others t) :
    ∃ m, abandon damage t = .ok () (finished false m (spoil damage t)) ∧
      SameBlocks t.pool.manager m ∧ Ledger held others (finished false m (spoil damage t)) := by
  have hspoil : Ledger held others (spoil damage t) := hl.frame rfl rfl (spoil_busy damage t)
  obtain ⟨m, hfinish, hsame, hled⟩ := finish_ok false hspoil
  exact ⟨m, hfinish, hsame, hled⟩

end AsyncTransfer

end KVFlux
