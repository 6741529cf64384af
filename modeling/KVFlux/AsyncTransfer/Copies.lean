import KVFlux.AsyncTransfer.Submit

/-!
# What the copies of pending batches do to the memory

Different pending batches use different slots and different buffers, so their copies do not meet.

* `toDevice_of_notMem`, `toDevice_congr`, `toDevice_length`: the copies of one batch to the device.
* `deliver_memory_of_notMem`, `deliver_bytes_of_notMem`: what no batch copies to stays.
* **`deliver_write`**, **`deliver_read`**: what the destination of each batch holds afterwards.
* `spoil_memory_of_notMem`, `spoil_bytes_of_notMem`: what batches that are given up leave alone.
-/

namespace KVFlux.AsyncTransfer

variable {blockBytes : ℕ} {bytes : Bytes} {memory memory' : SlotMemory} {hs : List BlockHandle}
  {ws : List Pending} {w : Pending} {t : Transfers} {h : BlockHandle} {i b : ℕ}

/-- The batches to the host. -/
def readBatches (ws : List Pending) : List Pending := ws.filter fun w => ¬ w.write = true

theorem mem_writeBatches : w ∈ writeBatches ws ↔ w ∈ ws ∧ w.write = true := List.mem_filter

theorem mem_readBatches : w ∈ readBatches ws ↔ w ∈ ws ∧ w.write = false := by
  unfold readBatches
  rw [List.mem_filter]
  simp

theorem readBatches_cons : readBatches (w :: ws) =
    if w.write = true then readBatches ws else w :: readBatches ws := by
  unfold readBatches
  rw [List.filter_cons]
  cases w.write <;> rfl

theorem batchBuffers_readBatches_subset (hb : b ∈ batchBuffers (readBatches ws)) :
    b ∈ batchBuffers ws := by
  obtain ⟨w, hw, he⟩ := mem_batchBuffers.mp hb
  exact mem_batchBuffers.mpr ⟨w, (mem_readBatches.mp hw).1, he⟩

/-! ## One batch -/

theorem toDevice_of_notMem (hs : List BlockHandle) : ∀ (bytes : Bytes) (memory : SlotMemory),
    i ∉ hs.map BlockHandle.id → toDevice blockBytes bytes hs memory i = memory i := by
  induction hs with
  | nil => intro bytes memory _; rfl
  | cons h hs ih =>
    intro bytes memory hi
    rw [List.map_cons, List.mem_cons, not_or] at hi
    rw [toDevice, ih _ _ hi.2, Function.update_of_ne hi.1]

/-- What a slot of the batch gets does not depend on the memory before. -/
theorem toDevice_congr (hs : List BlockHandle) :
    ∀ (bytes : Bytes) (memory memory' : SlotMemory), i ∈ hs.map BlockHandle.id →
      toDevice blockBytes bytes hs memory i = toDevice blockBytes bytes hs memory' i := by
  induction hs with
  | nil => intro bytes memory memory' hi; cases hi
  | cons h hs ih =>
    intro bytes memory memory' hi
    rw [toDevice, toDevice]
    by_cases hmem : i ∈ hs.map BlockHandle.id
    · exact ih _ _ _ hmem
    · have he : i = h.id := by
        rw [List.map_cons, List.mem_cons] at hi
        exact hi.resolve_right hmem
      rw [toDevice_of_notMem hs _ _ hmem, toDevice_of_notMem hs _ _ hmem, he,
        Function.update_self, Function.update_self]

/-- A buffer of as many blocks as the batch fills whole slots. -/
theorem toDevice_length (hs : List BlockHandle) : ∀ (bytes : Bytes) (memory : SlotMemory),
    bytes.length = hs.length * blockBytes → i ∈ hs.map BlockHandle.id →
      (toDevice blockBytes bytes hs memory i).length = blockBytes := by
  induction hs with
  | nil => intro bytes memory _ hi; cases hi
  | cons h hs ih =>
    intro bytes memory hlength hi
    rw [List.length_cons, Nat.succ_mul] at hlength
    rw [toDevice]
    by_cases hmem : i ∈ hs.map BlockHandle.id
    · exact ih _ _ (by rw [List.length_drop]; omega) hmem
    · have he : i = h.id := by
        rw [List.map_cons, List.mem_cons] at hi
        exact hi.resolve_right hmem
      rw [toDevice_of_notMem hs _ _ hmem, he, Function.update_self, List.length_take]
      omega

theorem toHost_congr (he : ∀ h ∈ hs, memory h.id = memory' h.id) :
    toHost hs memory = toHost hs memory' :=
  congrArg List.flatten (List.map_congr_left he)

theorem deliverBatch_memory (t : Transfers) (w : Pending) : (deliverBatch t w).memory =
    if w.write = true then
      toDevice t.pool.blockBytes (t.buffers w.buffer).bytes w.blocks t.memory
    else t.memory := by
  unfold deliverBatch
  simp only
  split_ifs <;> rfl

theorem deliverBatch_bytes (t : Transfers) (w : Pending) (b : ℕ) :
    ((deliverBatch t w).buffers b).bytes =
      if ¬ w.write = true ∧ b = w.buffer then toHost w.blocks t.memory
      else (t.buffers b).bytes := by
  unfold deliverBatch
  simp only
  by_cases hw : w.write = true
  · rw [if_pos hw, if_neg fun hc => hc.1 hw]
  · rw [if_neg hw]
    simp only [Function.update_apply]
    by_cases hb : b = w.buffer
    · rw [if_pos hb, if_pos ⟨hw, hb⟩]
    · rw [if_neg hb, if_neg fun hc => hb hc.2]

/-! ## All batches -/

theorem delivered_memory_of_notMem (ws : List Pending) : ∀ t : Transfers,
    i ∉ batchIds (writeBatches ws) → (ws.foldl deliverBatch t).memory i = t.memory i := by
  induction ws with
  | nil => intro t _; rfl
  | cons w ws ih =>
    intro t hi
    rw [writeBatches_cons] at hi
    rw [List.foldl_cons]
    by_cases hw : w.write = true
    · rw [if_pos hw, batchIds_cons, List.mem_append, not_or] at hi
      rw [ih _ hi.2, deliverBatch_memory, if_pos hw, toDevice_of_notMem _ _ _ hi.1]
    · rw [if_neg hw] at hi
      rw [ih _ hi, deliverBatch_memory, if_neg hw]

theorem delivered_bytes_of_notMem (ws : List Pending) : ∀ t : Transfers,
    b ∉ batchBuffers (readBatches ws) →
      ((ws.foldl deliverBatch t).buffers b).bytes = (t.buffers b).bytes := by
  induction ws with
  | nil => intro t _; rfl
  | cons w ws ih =>
    intro t hb
    rw [readBatches_cons] at hb
    rw [List.foldl_cons]
    by_cases hw : w.write = true
    · rw [if_pos hw] at hb
      rw [ih _ hb, deliverBatch_bytes, if_neg fun hc => hc.1 hw]
    · rw [if_neg hw, batchBuffers_cons, List.mem_cons, not_or] at hb
      rw [ih _ hb.2, deliverBatch_bytes, if_neg fun hc => hb.1 hc.2]

/-- The slots of a batch hold consecutive blocks of its buffer. -/
theorem delivered_write (ws : List Pending) : ∀ t : Transfers, (batchIds ws).Nodup →
    (batchBuffers ws).Nodup → w ∈ ws → w.write = true → h ∈ w.blocks →
    (ws.foldl deliverBatch t).memory h.id =
      toDevice t.pool.blockBytes (t.buffers w.buffer).bytes w.blocks t.memory h.id := by
  induction ws with
  | nil => intro t _ _ hw; cases hw
  | cons v vs ih =>
    intro t hids hbuffers hmem hwrite hh
    rw [batchIds_cons, List.nodup_append] at hids
    rw [batchBuffers_cons, List.nodup_cons] at hbuffers
    rw [List.foldl_cons]
    rcases List.mem_cons.mp hmem with rfl | hvs
    · have hrest : h.id ∉ batchIds (writeBatches vs) := fun hc =>
        hids.2.2 h.id (List.mem_map_of_mem hh) h.id (batchIds_writeBatches_subset hc) rfl
      rw [delivered_memory_of_notMem vs _ hrest, deliverBatch_memory, if_pos hwrite]
    · have hne : w.buffer ≠ v.buffer := fun he =>
        hbuffers.1 (he ▸ mem_batchBuffers.mpr ⟨w, hvs, rfl⟩)
      rw [ih _ hids.2.1 hbuffers.2 hvs hwrite hh, deliverBatch_pool, deliverBatch_bytes,
        if_neg fun hc => hne hc.2]
      exact toDevice_congr _ _ _ _ (List.mem_map_of_mem hh)

/-- The buffer of a batch holds the contents of its slots. -/
theorem delivered_read (ws : List Pending) : ∀ t : Transfers, (batchIds ws).Nodup →
    (batchBuffers ws).Nodup → w ∈ ws → w.write = false →
    ((ws.foldl deliverBatch t).buffers w.buffer).bytes = toHost w.blocks t.memory := by
  induction ws with
  | nil => intro t _ _ hw; cases hw
  | cons v vs ih =>
    intro t hids hbuffers hmem hwrite
    rw [batchIds_cons, List.nodup_append] at hids
    rw [batchBuffers_cons, List.nodup_cons] at hbuffers
    rw [List.foldl_cons]
    rcases List.mem_cons.mp hmem with rfl | hvs
    · have hrest : w.buffer ∉ batchBuffers (readBatches vs) := fun hc =>
        hbuffers.1 (batchBuffers_readBatches_subset hc)
      rw [delivered_bytes_of_notMem vs _ hrest, deliverBatch_bytes,
        if_pos ⟨by simp [hwrite], rfl⟩]
    · rw [ih _ hids.2.1 hbuffers.2 hvs hwrite, deliverBatch_memory]
      split_ifs with hv
      · refine toHost_congr fun h hh => toDevice_of_notMem _ _ _ fun hc => ?_
        exact hids.2.2 h.id hc h.id (mem_batchIds.mpr ⟨w, hvs, h, hh, rfl⟩) rfl
      · rfl

section Deliver

theorem deliver_memory_of_notMem (hi : i ∉ batchIds (writeBatches t.runtime.pending)) :
    (deliver t).memory i = t.memory i := delivered_memory_of_notMem _ t hi

theorem deliver_bytes_of_notMem (hb : b ∉ batchBuffers (readBatches t.runtime.pending)) :
    ((deliver t).buffers b).bytes = (t.buffers b).bytes := delivered_bytes_of_notMem _ t hb

/-- **A batch to the device** fills its slots from its buffer. -/
theorem deliver_write (hids : (batchIds t.runtime.pending).Nodup)
    (hbuffers : (batchBuffers t.runtime.pending).Nodup) (hw : w ∈ t.runtime.pending)
    (hwrite : w.write = true) (hh : h ∈ w.blocks) : (deliver t).memory h.id =
      toDevice t.pool.blockBytes (t.buffers w.buffer).bytes w.blocks t.memory h.id :=
  delivered_write _ t hids hbuffers hw hwrite hh

/-- **A batch to the host** fills its buffer from its slots. -/
theorem deliver_read (hids : (batchIds t.runtime.pending).Nodup)
    (hbuffers : (batchBuffers t.runtime.pending).Nodup) (hw : w ∈ t.runtime.pending)
    (hwrite : w.write = false) :
    ((deliver t).buffers w.buffer).bytes = toHost w.blocks t.memory :=
  delivered_read _ t hids hbuffers hw hwrite

@[simp] theorem arrived_memory (t : Transfers) : (arrived t).memory = (deliver t).memory := rfl

@[simp] theorem arrived_buffers (t : Transfers) : (arrived t).buffers = (deliver t).buffers := rfl

@[simp] theorem arrived_pool (t : Transfers) : (arrived t).pool = t.pool := deliver_pool t

@[simp] theorem arrived_history (t : Transfers) : (arrived t).history = t.history :=
  deliver_history t

@[simp] theorem arrived_pending (t : Transfers) :
    (arrived t).runtime.pending = t.runtime.pending := by
  show (deliver t).runtime.pending = _
  rw [deliver_runtime]

end Deliver

theorem spoil_memory_of_notMem (damage : Damage)
    (hi : i ∉ batchIds (writeBatches t.runtime.pending)) :
    (spoil damage t).memory i = t.memory i := if_neg hi

theorem spoil_bytes_of_notMem (damage : Damage)
    (hb : b ∉ batchBuffers (readBatches t.runtime.pending)) :
    ((spoil damage t).buffers b).bytes = (t.buffers b).bytes := by
  have hbuffer : (spoil damage t).buffers b = t.buffers b := if_neg hb
  rw [hbuffer]

end KVFlux.AsyncTransfer
