import KVFlux.TieredBlockManager.Frame
import KVFlux.AsyncTransfer.Errors

/-!
# The moves on the stream

* `batch m h`: the batch of the move of `h`; `Underway ps m`: the runtime has the batches of `ps`.
* `Landed c ps m`: the moves `ps` have ended on the stream, both copies of their blocks are good.
* `Core.givenUp`, `Core.arrived`: what the stream does to the invariant.
* `Billed ps m`: without failures the runtime has counted the ended moves and the moves `ps`.
* **`synchronizeTransfers_post`**: the moves land, or are given up with the copies that count unharmed.
-/

namespace KVFlux.TieredBlockManager

open Fallible BlockManager AsyncTransfer Table

variable {c : ℕ → Bytes} {x x' : Option ℕ} {ps ps' qs qs' : List LogicalBlockHandle}
  {m m' : TieredBlockManager} {i : ℕ} {e : Entry} {h : LogicalBlockHandle} {g : BlockHandle}

/-- The batch of a move. -/
def batch (m : TieredBlockManager) (h : LogicalBlockHandle) : Pending where
  blocks := (m.entries h.id).gpu.toList
  buffer := h.id
  write := (m.entries h.id).move = .toGpu

/-- The runtime has the batches of the moves `ps`. -/
def Underway (ps : List LogicalBlockHandle) (m : TieredBlockManager) : Prop :=
  m.transfers.runtime.pending = ps.map m.batch

/-- Both copies of the blocks of `ps` are good. -/
def Landed (c : ℕ → Bytes) (ps : List LogicalBlockHandle) (m : TieredBlockManager) : Prop :=
  ∀ h ∈ ps, (m.transfers.buffers h.id).bytes = c h.id ∧
    ∀ g, (m.entries h.id).gpu = some g →
      m.transfers.memory g.id = c h.id ∧ m.transfers.pool.initialized g.id = true

/-- Without failures the runtime has counted the ended moves and the moves `ps`. -/
def Billed (ps : List LogicalBlockHandle) (m : TieredBlockManager) : Prop :=
  m.faults = 0 →
    m.transfers.runtime.metrics.gpuToCpu.bytes =
      (m.offloads + ps.countP fun h => (m.entries h.id).move = .toCpu) * m.blockBytes ∧
    m.transfers.runtime.metrics.cpuToGpu.bytes =
      (m.loads + ps.countP fun h => (m.entries h.id).move = .toGpu) * m.blockBytes

theorem batch_congr (he : ∀ h ∈ ps, m'.entries h.id = m.entries h.id) :
    ps.map m'.batch = ps.map m.batch := by
  refine List.map_congr_left fun h hh => ?_
  unfold batch
  rw [he h hh]

namespace Core

/-- A move has a slot and goes one way. -/
theorem batch_eq (hc : Core c x ps qs m) (hh : h ∈ ps) : ∃ g, (m.entries h.id).gpu = some g ∧
    (((m.entries h.id).phase = some .loading ∧ m.batch h = ⟨[g], h.id, true⟩) ∨
      ((m.entries h.id).phase = some .saving ∧ m.batch h = ⟨[g], h.id, false⟩)) := by
  rcases hc.moving.of_mem hh with hp | hp
  · obtain ⟨-, hmove, g, hg⟩ := Entry.phase_loading.mp hp
    refine ⟨g, hg, .inl ⟨hp, ?_⟩⟩
    simp [batch, hg, hmove]
  · obtain ⟨-, hmove, g, hg⟩ := Entry.phase_saving.mp hp
    refine ⟨g, hg, .inr ⟨hp, ?_⟩⟩
    simp [batch, hg, hmove]

/-- A slot that is not being loaded is not written by the stream. -/
theorem notMem_writes (hc : Core c x ps qs m) (hsub : ∀ h ∈ ps', h ∈ ps)
    (hg : (m.entries i).gpu = some g) (hp : (m.entries i).phase ≠ some .loading) :
    g.id ∉ batchIds (writeBatches (ps'.map m.batch)) := by
  intro hm
  obtain ⟨w, hw, g', hg', hid⟩ := mem_batchIds.mp hm
  obtain ⟨hw, hwrite⟩ := mem_writeBatches.mp hw
  obtain ⟨h, hh, rfl⟩ := List.mem_map.mp hw
  obtain ⟨g₁, hg₁, ⟨hp₁, hb⟩ | ⟨-, hb⟩⟩ := hc.batch_eq (hsub h hh)
  · rw [hb] at hg'
    rw [List.mem_singleton.mp hg'] at hid
    rw [hc.distinct h.id i g₁ g hg₁ hg hid] at hp₁
    exact hp hp₁
  · rw [hb] at hwrite
    cases hwrite

/-- A buffer that is not being filled is not written by the stream. -/
theorem notMem_reads (hc : Core c x ps qs m) (hsub : ∀ h ∈ ps', h ∈ ps)
    (hp : (m.entries i).phase ≠ some .saving) :
    i ∉ batchBuffers (readBatches (ps'.map m.batch)) := by
  intro hm
  obtain ⟨w, hw, hid⟩ := mem_batchBuffers.mp hm
  obtain ⟨hw, hwrite⟩ := mem_readBatches.mp hw
  obtain ⟨h, hh, rfl⟩ := List.mem_map.mp hw
  obtain ⟨g₁, -, ⟨-, hb⟩ | ⟨hp₁, hb⟩⟩ := hc.batch_eq (hsub h hh)
  · rw [hb] at hwrite
    cases hwrite
  · rw [hb] at hid
    exact hp (hid ▸ hp₁)

/-- What the stream writes to the host fits. -/
theorem deliver_size (hc : Core c x ps qs m) (hsub : ∀ h ∈ ps', h ∈ ps) (hu : Underway ps' m)
    (b : ℕ) : ((deliver m.transfers).buffers b).size = (m.transfers.buffers b).size := by
  by_cases hb : b ∈ batchBuffers (readBatches m.transfers.runtime.pending)
  swap
  · unfold PinnedStorage.size
    rw [deliver_bytes_of_notMem hb]
  obtain ⟨w, hw, rfl⟩ := mem_batchBuffers.mp hb
  obtain ⟨hw, hwrite⟩ := mem_readBatches.mp hw
  have hids := hc.ledger.ids_nodup
  have hbuffers := hc.ledger.buffers_nodup
  rw [List.append_nil] at hids hbuffers
  have hread := deliver_read hids hbuffers hw hwrite
  rw [hu] at hw
  obtain ⟨h, hh, rfl⟩ := List.mem_map.mp hw
  obtain ⟨g, hg, ⟨-, hbatch⟩ | ⟨hp, hbatch⟩⟩ := hc.batch_eq (hsub h hh)
  · rw [hbatch] at hwrite
    cases hwrite
  rw [hbatch] at hread ⊢
  have hlive := hc.live_of_gpu hg
  have hkept := ((hc.entry h.id).kept g hg (by rw [hp]; decide)).1
  unfold PinnedStorage.size
  rw [hread]
  have hhost : toHost [g] m.transfers.memory = m.transfers.memory g.id := by
    simp [toHost]
  rw [hhost, hkept, (hc.entry h.id).size hlive]
  exact (hc.sizes h.id (hc.lt_capacity hlive)).symm

/-- **The stream gives its batches up**: what it was to write need not hold anything. -/
theorem givenUp {t : Transfers} {mgr : BlockManager} {damage : Damage} (hc : Core c x ps qs m)
    (hsub : ∀ h ∈ ps', h ∈ ps) (hu : Underway ps' m)
    (ht : t = m.transfers ∨ t = deliver m.transfers)
    (hsame : SameBlocks m.transfers.pool.manager mgr)
    (hled : Ledger m.held [] (finished false mgr (spoil damage t))) :
    Core c x ps qs { m with transfers := finished false mgr (spoil damage t) } := by
  have hpending : t.runtime.pending = ps'.map m.batch := by
    rcases ht with rfl | rfl
    · exact hu
    · rw [deliver_runtime]
      exact hu
  have hpool : t.pool = m.transfers.pool := by
    rcases ht with rfl | rfl
    · rfl
    · exact deliver_pool _
  have hsize : ∀ b, (t.buffers b).size = (m.transfers.buffers b).size := by
    rcases ht with rfl | rfl
    · exact fun _ => rfl
    · exact hc.deliver_size hsub hu
  refine hc.transfers hled ?_ ?_ (fun b => ?_) (fun i _ hp _ => ?_) (fun i g hg hp => ⟨?_, ?_⟩)
  · exact hsame
  · rw [finished_blockBytes, spoil_pool, hpool]
    rfl
  · unfold PinnedStorage.size
    rw [finished_bytes]
    exact (spoil_size damage t b).trans (hsize b)
  · have hnot := hc.notMem_reads hsub hp
    rw [finished_bytes, spoil_bytes_of_notMem damage (by rwa [hpending])]
    rcases ht with rfl | rfl
    · rfl
    · exact deliver_bytes_of_notMem (by rwa [← deliver_runtime, hpending])
  · have hnot := hc.notMem_writes hsub hg hp
    rw [finished_memory, spoil_memory_of_notMem damage (by rwa [hpending])]
    rcases ht with rfl | rfl
    · rfl
    · exact deliver_memory_of_notMem (by rwa [← deliver_runtime, hpending])
  · have hnot := hc.notMem_writes hsub hg hp
    rw [finished_initialized, spoil_runtime, hpending, if_neg hnot, spoil_pool, hpool]

/-- **The batches arrive.** -/
theorem arrived {mgr : BlockManager} (hc : Core c x ps qs m) (hsub : ∀ h ∈ ps', h ∈ ps)
    (hu : Underway ps' m) (hsame : SameBlocks m.transfers.pool.manager mgr)
    (hled : Ledger m.held [] (finished true mgr (AsyncTransfer.arrived m.transfers))) :
    Core c x ps qs { m with transfers := finished true mgr (AsyncTransfer.arrived m.transfers) } ∧
      Landed c ps' { m with
        transfers := finished true mgr (AsyncTransfer.arrived m.transfers) } := by
  have hids := hc.ledger.ids_nodup
  have hbuffers := hc.ledger.buffers_nodup
  rw [List.append_nil] at hids hbuffers
  have hinit : ∀ j, (finished true mgr (AsyncTransfer.arrived m.transfers)).pool.initialized j =
      if j ∈ batchIds (writeBatches (ps'.map m.batch)) then true
      else m.transfers.pool.initialized j := fun j => by
    rw [finished_initialized, arrived_pending, arrived_pool, hu]
  have hcore : Core c x ps qs
      { m with transfers := finished true mgr (AsyncTransfer.arrived m.transfers) } := by
    refine hc.transfers hled ?_ ?_ (fun b => ?_) (fun i _ hp _ => ?_) (fun i g hg hp => ⟨?_, ?_⟩)
    · exact hsame
    · rw [finished_blockBytes, arrived_pool]
      rfl
    · unfold PinnedStorage.size
      rw [finished_bytes, arrived_buffers]
      exact hc.deliver_size hsub hu b
    · rw [finished_bytes, arrived_buffers]
      refine deliver_bytes_of_notMem ?_
      rw [hu]
      exact hc.notMem_reads hsub hp
    · rw [finished_memory, arrived_memory]
      refine deliver_memory_of_notMem ?_
      rw [hu]
      exact hc.notMem_writes hsub hg hp
    · rw [hinit, if_neg (hc.notMem_writes hsub hg hp)]
  refine ⟨hcore, fun h hh => ?_⟩
  have hw : m.batch h ∈ m.transfers.runtime.pending := by
    rw [hu]
    exact List.mem_map_of_mem hh
  obtain ⟨g, hg, ⟨hp, hbatch⟩ | ⟨hp, hbatch⟩⟩ := hc.batch_eq (hsub h hh)
  · -- the slot of a load gets the bytes of its buffer
    have hlive := hc.live_of_gpu hg
    have hsource := (hc.entry h.id).backed hlive (.inr (.inl hp))
    refine ⟨?_, fun g' hg' => ?_⟩
    · refine (hcore.entry h.id).backed hlive (.inr (.inl hp))
    obtain rfl : g' = g := Option.some.inj (hg'.symm.trans hg)
    have hwrite := deliver_write hids hbuffers hw (h := g') (by rw [hbatch])
      (by rw [hbatch]; exact List.mem_singleton_self g')
    refine ⟨?_, ?_⟩
    · show (finished true mgr (AsyncTransfer.arrived m.transfers)).memory g'.id = c h.id
      rw [finished_memory, arrived_memory, hwrite, hbatch]
      simp only [toDevice, Function.update_self, hsource]
      have hlength : (c h.id).length = m.transfers.pool.blockBytes := (hc.entry h.id).size hlive
      rw [← hlength, List.take_length]
    · show (finished true mgr (AsyncTransfer.arrived m.transfers)).pool.initialized g'.id = true
      rw [hinit, if_pos]
      refine mem_batchIds.mpr ⟨m.batch h, mem_writeBatches.mpr ⟨List.mem_map_of_mem hh, ?_⟩, g', ?_,
        rfl⟩
      · rw [hbatch]
      · rw [hbatch]
        exact List.mem_singleton_self g'
  · -- the buffer of an offload gets the bytes of its slot
    have hkept := (hc.entry h.id).kept g hg (by rw [hp]; decide)
    have hread := deliver_read hids hbuffers hw (by rw [hbatch])
    refine ⟨?_, fun g' hg' => ?_⟩
    · show ((finished true mgr (AsyncTransfer.arrived m.transfers)).buffers h.id).bytes = c h.id
      rw [finished_bytes, arrived_buffers]
      rw [hbatch] at hread
      rw [hread, ← hkept.1]
      simp [toHost]
    · exact (hcore.entry h.id).kept g' hg' (by
        show (m.entries h.id).phase ≠ some .loading
        rw [hp]
        decide)

end Core

/-! ## The bytes that are counted -/

/-- Batches of `n` bytes each are counted by direction. -/
theorem measured_bytes {t : Transfers} {n : ℕ} (ws : List Pending) :
    ∀ metrics, (∀ w ∈ ws, (t.buffers w.buffer).size = n) →
    (measured t ws metrics).gpuToCpu.bytes =
      metrics.gpuToCpu.bytes + (ws.countP fun w => w.write = false) * n ∧
    (measured t ws metrics).cpuToGpu.bytes =
      metrics.cpuToGpu.bytes + (ws.countP fun w => w.write = true) * n := by
  induction ws with
  | nil => intro metrics _; simp [measured]
  | cons w ws ih =>
    intro metrics hs
    obtain ⟨hread, hwrite⟩ := ih (measure.count t metrics w) fun w' hw' =>
      hs w' (List.mem_cons_of_mem w hw')
    have hsize := hs w List.mem_cons_self
    rw [measured, List.foldl_cons, ← measured, hread, hwrite, List.countP_cons, List.countP_cons]
    unfold measure.count TransferDirectionMetrics.add
    cases hw : w.write with
    | false =>
      simp only [hsize]
      refine ⟨?_, ?_⟩
      · simp only [Bool.false_eq_true, if_false, decide_true, if_true]
        ring
      · simp
    | true =>
      simp only [hsize]
      refine ⟨?_, ?_⟩
      · simp
      · simp only [decide_true, if_true]
        ring

/-- The batches of the moves, by direction. -/
theorem Core.countP_batch (hc : Core c x ps qs m) (hsub : ∀ h ∈ ps', h ∈ ps) :
    ((ps'.map m.batch).countP fun w => w.write = false) =
      ps'.countP (fun h => (m.entries h.id).move = .toCpu) ∧
    ((ps'.map m.batch).countP fun w => w.write = true) =
      ps'.countP (fun h => (m.entries h.id).move = .toGpu) := by
  rw [List.countP_map, List.countP_map]
  refine ⟨List.countP_congr fun h hh => ?_, List.countP_congr fun h _ => ?_⟩
  · rcases hc.moving.of_mem (hsub h hh) with hp | hp
    · have hmove := (Entry.phase_loading.mp hp).2.1
      simp [batch, hmove]
    · have hmove := (Entry.phase_saving.mp hp).2.1
      simp [batch, hmove]
  · simp [batch]

/-- **The batches that land are billed.** -/
theorem Core.billed (hc : Core c x ps qs m) (hsub : ∀ h ∈ ps', h ∈ ps) (hu : Underway ps' m)
    (hb : Billed [] m) (mgr : BlockManager) : Billed ps' { m with
      transfers := finished true mgr (AsyncTransfer.arrived m.transfers) } := by
  intro hf
  obtain ⟨hout, hin⟩ := hb hf
  have hsize : ∀ w ∈ ps'.map m.batch, ((deliver m.transfers).buffers w.buffer).size =
      m.blockBytes := fun w hw => by
    obtain ⟨h, hh, rfl⟩ := List.mem_map.mp hw
    have hp := hc.moving.of_mem (hsub h hh)
    rw [hc.deliver_size hsub hu]
    refine hc.sizes h.id (hc.lt_capacity (hc.live_of_phase ?_))
    rcases hp with hp | hp
    all_goals rw [hp]; decide
  obtain ⟨hread, hwrite⟩ := measured_bytes (ps'.map m.batch) m.transfers.runtime.metrics hsize
  obtain ⟨hcount, hcount'⟩ := hc.countP_batch hsub
  have hbytes : ({ m with
      transfers := finished true mgr (AsyncTransfer.arrived m.transfers) } :
      TieredBlockManager).blockBytes = m.blockBytes := by
    unfold blockBytes
    rw [finished_blockBytes, arrived_pool]
  have hmetrics : (finished true mgr (AsyncTransfer.arrived m.transfers)).runtime.metrics =
      measured (deliver m.transfers) (ps'.map m.batch) m.transfers.runtime.metrics := by
    rw [← hu]
    rfl
  refine ⟨?_, ?_⟩
  · show (finished true mgr (AsyncTransfer.arrived m.transfers)).runtime.metrics.gpuToCpu.bytes = _
    rw [hmetrics, hread, hout, hcount, hbytes]
    simp only [List.countP_nil]
    ring
  · show (finished true mgr (AsyncTransfer.arrived m.transfers)).runtime.metrics.cpuToGpu.bytes = _
    rw [hmetrics, hwrite, hin, hcount', hbytes]
    simp only [List.countP_nil]
    ring

/-! ## Waiting for the stream -/

/-- What the stream leaves of the moves, whether they landed or not. -/
structure Drained (c : ℕ → Bytes) (x : Option ℕ) (ps qs : List LogicalBlockHandle)
    (m m' : TieredBlockManager) : Prop where
  device : OnDevice m m'
  history : m'.transfers.history = m.transfers.history
  core : Core c x ps qs m'
  underway : Underway [] m'

/-- The state after an answer of the device. -/
def drawn (faulty : Bool) (m : TieredBlockManager) : TieredBlockManager :=
  { m with answers := m.answers.tail, faults := if faulty = true then m.faults + 1 else m.faults }

theorem draw_eq {φ : Type} (pick : CudaAnswer → Option φ) (m : TieredBlockManager) :
    draw pick m = .ok (pick (m.answers.headD .success))
      (drawn (pick (m.answers.headD .success)).isSome m) := rfl

theorem onDevice_drawn (faulty : Bool) (m : TieredBlockManager) : OnDevice m (drawn faulty m) := by
  refine ⟨rfl, rfl, rfl, rfl, ?_⟩
  cases faulty
  · exact le_rfl
  · exact Nat.le_succ m.faults

theorem onTransfers_apply {α : Type} {y : Call Transfers α} {r : EStateM.Result Exn Transfers α}
    (hy : y m.transfers = r) : onTransfers y m = mapState (fun t => { m with transfers := t }) r := by
  unfold onTransfers
  rw [hy]
  cases r <;> rfl

/-- A state that differs from a drawn one on the device. -/
theorem onDevice_transfers {t : Transfers} {faulty : Bool}
    (hcapacity : t.pool.manager.capacity = m.transfers.pool.manager.capacity)
    (hbytes : t.pool.blockBytes = m.blockBytes) (hbase : t.pool.base = m.transfers.pool.base) :
    OnDevice m { drawn faulty m with transfers := t } :=
  ⟨rfl, hcapacity, hbytes, hbase, (onDevice_drawn faulty m).faults⟩

/-- **The outcomes of waiting for the stream**: every move lands, or every move is given up. -/
theorem synchronizeTransfers_post (hc : Core c x ps qs m) (hsub : ∀ h ∈ ps', h ∈ ps)
    (hu : Underway ps' m) : Post
      (fun _ m' => Drained c x ps qs m m' ∧ Landed c ps' m' ∧ (Billed [] m → Billed ps' m'))
      (fun e m' => Drained c x ps qs m m' ∧ m'.faults ≠ 0 ∧ NotCapacity e)
      (synchronizeTransfers m) := by
  unfold synchronizeTransfers
  rw [bind_of_ok (draw_eq _ _)]
  generalize (m.answers.headD .success).syncFault = fault
  have hdrawn : (drawn fault.isSome m).transfers = m.transfers := rfl
  rcases AsyncTransfer.synchronize_cases fault hc.ledger with
    ⟨mgr, hsync, hsame, hled⟩ | ⟨hne, e, mgr, t, ht, hsync, hsame, hled⟩
  · rw [onTransfers_apply (hdrawn ▸ hsync)]
    obtain ⟨hcore, hlanded⟩ := hc.arrived hsub hu hsame hled
    have hdevice : OnDevice m { drawn fault.isSome m with
        transfers := finished true mgr (AsyncTransfer.arrived m.transfers) } :=
      onDevice_transfers hsame.capacity (by rw [finished_blockBytes, arrived_pool]; rfl)
        (by rw [finished_base, arrived_pool])
    refine ⟨⟨hdevice, ?_, hdevice.core hcore, rfl⟩, hlanded, fun hb hf => ?_⟩
    · exact (finished_history _ _ _).trans (arrived_history _)
    · have hfaults : m.faults = 0 := Nat.le_zero.mp (hdevice.faults.trans_eq hf)
      exact hc.billed hsub hu hb mgr hfaults
  · rw [onTransfers_apply (hdrawn ▸ hsync)]
    have hcore := hc.givenUp hsub hu ht hsame hled
    have hpool : t.pool = m.transfers.pool := by
      rcases ht with rfl | rfl
      · rfl
      · exact deliver_pool _
    have hdevice : OnDevice m { drawn fault.isSome m with
        transfers := finished false mgr (spoil (syncDamage fault) t) } :=
      onDevice_transfers hsame.capacity (by rw [finished_blockBytes, spoil_pool, hpool]; rfl)
        (by rw [finished_base, spoil_pool, hpool])
    refine ⟨⟨hdevice, ?_, hdevice.core hcore, rfl⟩, ?_, ?_⟩
    · refine (finished_history _ _ _).trans ?_
      rw [spoil_history]
      rcases ht with rfl | rfl
      · rfl
      · exact deliver_history _
    · show (if fault.isSome = true then m.faults + 1 else m.faults) ≠ 0
      rw [if_pos (Option.isSome_iff_ne_none.mpr hne)]
      exact Nat.succ_ne_zero _
    · exact (AsyncTransfer.synchronize_throws fault).of_error hsync

end KVFlux.TieredBlockManager
