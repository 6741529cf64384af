import KVFlux.AsyncTransfer.Submit
import KVFlux.Lib.Transition

/-!
# A pool with its callers and its runtimes

Any number of runtimes copy blocks of one pool, while callers allocate, share, write, read, publish
and look up its blocks.

* `Traffic`: the state of the pool, the buffers and the runtimes. Its ghost fields say which
  references the callers own and what they have written and published.
* `Request`, **`Traffic.step`**: one call, which may throw; `Traffic.Allowed`: a release returns an
  owned reference.
* `Traffic.others`: the pending batches of the other runtimes.
* `Traffic.Effect`: what a step can do; **`step_effect`**.
* **`reachable_balanced`**: in every reachable state the ledger balances.
-/

namespace KVFlux.AsyncTransfer

open Fallible BlockManager Transition

/-- The ghost fields: `held` are the references of the callers; `written h` are the bytes of the last
completed write of `h`, none if a later one failed or is unfinished; `published h` are the bytes of
`h` when it was published; `sources b` are the bytes of the buffer `b` when it was last submitted. -/
structure Traffic where
  pool : GpuMemoryPool
  memory : SlotMemory
  buffers : ℕ → PinnedStorage
  runtimes : List AsyncTransferRuntime
  history : List Pending := []
  held : Multiset BlockHandle := 0
  written : BlockHandle → Option Bytes := fun _ => none
  published : BlockHandle → Option Bytes := fun _ => none
  sources : ℕ → Bytes := fun _ => []

inductive Request
  | allocate
  | retain (h : BlockHandle)
  | release (h : BlockHandle)
  | publish (h : BlockHandle) (p : Tokens)
  | lookup (p : Tokens)
  | write (fault : Option WriteFault) (h : BlockHandle) (host : Option Bytes)
  | read (fault : Option ReadFault) (h : BlockHandle) (size : Option ℕ)
  | hostWrite (b : ℕ) (source : Option Bytes) (offset : ℕ)
  | submit (r : ℕ) (fault : Option SubmitFault) (blocks : List BlockHandle) (buffer : ℕ)
      (write : Bool)
  | synchronize (r : ℕ) (fault : Option SyncFault)

namespace Traffic

/-- What the runtime `rt` works on. -/
def transfers (s : Traffic) (rt : AsyncTransferRuntime) : Transfers :=
  ⟨s.pool, s.memory, s.buffers, rt, s.history⟩

/-- The state after a call on the runtime number `r`. -/
def after (s : Traffic) (r : ℕ) (t : Transfers) : Traffic :=
  { s with
    pool := t.pool
    memory := t.memory
    buffers := t.buffers
    runtimes := s.runtimes.set r t.runtime
    history := t.history }

/-- The pending batches. -/
def batches (s : Traffic) : List Pending := s.runtimes.flatMap AsyncTransferRuntime.pending

/-- The pending batches of all runtimes but number `r`. -/
def others (s : Traffic) (r : ℕ) : List Pending :=
  (s.runtimes.eraseIdx r).flatMap AsyncTransferRuntime.pending

/-- The blocks of `hs` have no completed write. -/
def unwritten (hs : List BlockHandle) (written : BlockHandle → Option Bytes) :
    BlockHandle → Option Bytes := fun h => if h ∈ hs then none else written h

/-- The blocks of a batch are written with consecutive blocks of `bytes`. -/
def recordBatch (blockBytes : ℕ) : Bytes → List BlockHandle → (BlockHandle → Option Bytes) →
    BlockHandle → Option Bytes
  | _, [], written => written
  | bytes, h :: hs, written =>
    recordBatch blockBytes (bytes.drop blockBytes) hs
      (Function.update written h (some (bytes.take blockBytes)))

/-- The batches to the device have completed. -/
def recordBatches (blockBytes : ℕ) (sources : ℕ → Bytes) (ws : List Pending)
    (written : BlockHandle → Option Bytes) : BlockHandle → Option Bytes :=
  (writeBatches ws).foldl (fun f w => recordBatch blockBytes (sources w.buffer) w.blocks f) written

/-- The ghost fields after a submission that reached the stream. -/
def begun (w : Pending) (s : Traffic) : Traffic :=
  { s with
    written := if w.write = true then unwritten w.blocks s.written else s.written
    sources := Function.update s.sources w.buffer (s.buffers w.buffer).bytes }

/-- One call. The ghost field `history` of the runtimes grows when a batch reaches the stream. -/
def step : Request → Traffic → Option Traffic
  | .allocate, s =>
    match GpuMemoryPool.allocate s.pool with
    | .ok h pool => some { s with
        pool := pool, held := h ::ₘ s.held, written := unwritten [h] s.written }
    | .error _ pool => some { s with pool := pool }
  | .retain h, s =>
    match GpuMemoryPool.retain h s.pool with
    | .ok _ pool => some { s with pool := pool, held := h ::ₘ s.held }
    | .error _ pool => some { s with pool := pool }
  | .release h, s =>
    match GpuMemoryPool.release h s.pool with
    | .ok _ pool => some { s with pool := pool, held := s.held.erase h }
    | .error _ pool => some { s with pool := pool }
  | .publish h p, s =>
    match GpuMemoryPool.publish h p s.pool with
    | .ok _ pool => some { s with
        pool := pool, published := Function.update s.published h (some (s.memory h.id)) }
    | .error _ pool => some { s with pool := pool }
  | .lookup p, s =>
    match GpuMemoryPool.lookup p s.pool with
    | .ok hit pool => some { s with pool := pool, held := (hit.elim s.held fun h => h ::ₘ s.held) }
    | .error _ pool => some { s with pool := pool }
  | .write fault h host, s =>
    match GpuMemoryPool.writeBlock fault h host (s.pool, s.memory) with
    | .ok _ (pool, memory) => some { s with
        pool := pool, memory := memory, written := Function.update s.written h host }
    | .error e (pool, memory) => some { s with
        pool := pool, memory := memory
        written := if GpuMemoryPool.writeFails fault e = true then unwritten [h] s.written else s.written }
  | .read fault h size, s =>
    match GpuMemoryPool.readBlock fault h size (s.pool, s.memory) with
    | .ok _ (pool, memory) | .error _ (pool, memory) =>
      some { s with pool := pool, memory := memory }
  | .hostWrite b source offset, s =>
    match PinnedStorage.copyFrom source offset (s.buffers b) with
    | .ok _ storage | .error _ storage =>
      some { s with buffers := Function.update s.buffers b storage }
  | .submit r fault blocks buffer write, s =>
    match s.runtimes[r]? with
    | none => none
    | some rt =>
      match submit fault blocks buffer write (s.transfers rt) with
      | .ok _ t | .error _ t =>
        some ((if t.history = s.history then s else s.begun ⟨blocks, buffer, write⟩).after r t)
  | .synchronize r fault, s =>
    match s.runtimes[r]? with
    | none => none
    | some rt =>
      match synchronize fault (s.transfers rt) with
      | .ok _ t => some { s.after r t with
          written := recordBatches s.pool.blockBytes s.sources rt.pending s.written }
      | .error _ t => some (s.after r t)

/-- A release that succeeds returns an owned reference. -/
def Allowed (s : Traffic) : Request → Prop
  | .release h => h ∈ s.held ∨ ∃ e pool, GpuMemoryPool.release h s.pool = .error e pool
  | _ => True

/-- A new pool with idle buffers and new runtimes. -/
def Start (s : Traffic) : Prop :=
  (∃ blocks bytes tokens device cuda, GpuMemoryPool.make blocks bytes tokens device cuda = .ok s.pool) ∧
    (∀ b, (s.buffers b).busy = false) ∧ (∀ rt ∈ s.runtimes, rt = {}) ∧ s.history = [] ∧
    s.held = 0 ∧ (∀ h, s.written h = none) ∧ ∀ h, s.published h = none

variable {s s' : Traffic} {rt : AsyncTransferRuntime} {r : ℕ} {q : Request}

/-! ## The ledger of the session -/

/-- **The ledger balances**: callers and pending batches own all references. -/
def Balanced (s : Traffic) : Prop := Ledger s.held s.batches (s.transfers {})

theorem batches_perm (hr : s.runtimes[r]? = some rt) :
    (rt.pending ++ s.others r).Perm s.batches := by
  obtain ⟨hlt, rfl⟩ := List.getElem?_eq_some_iff.mp hr
  exact (List.getElem_cons_eraseIdx_perm hlt).flatMap_right AsyncTransferRuntime.pending

@[simp] theorem after_others (s : Traffic) (r : ℕ) (t : Transfers) :
    (s.after r t).others r = s.others r := by
  unfold others after
  rw [List.eraseIdx_set_eq]

theorem after_runtime (hr : s.runtimes[r]? = some rt) (t : Transfers) :
    (s.after r t).runtimes[r]? = some t.runtime := by
  obtain ⟨hlt, -⟩ := List.getElem?_eq_some_iff.mp hr
  exact List.getElem?_set_self hlt

/-- The ledger seen from one runtime. -/
theorem balanced_iff (hr : s.runtimes[r]? = some rt) :
    s.Balanced ↔ Ledger s.held (s.others r) (s.transfers rt) :=
  ⟨fun hb => hb.perm rfl (batches_perm hr) fun _ => rfl,
    fun hl => hl.perm rfl (batches_perm hr).symm fun _ => rfl⟩

/-- A call on one runtime that keeps its ledger. -/
theorem Balanced.after {t : Transfers} (hr : s.runtimes[r]? = some rt)
    (hl : Ledger s.held (s.others r) t) : (s.after r t).Balanced := by
  rw [balanced_iff (after_runtime hr t), after_others]
  exact hl

theorem start_balanced (hs : Start s) : s.Balanced := by
  obtain ⟨⟨blocks, bytes, tokens, device, cuda, hmake⟩, hidle, hruntimes, -, hheld, -, -⟩ := hs
  obtain ⟨-, manager, allocated, base, hnew, hpool⟩ := GpuMemoryPool.make_eq hmake
  have hbatches : s.batches = [] := by
    refine List.flatMap_eq_nil_iff.mpr fun rt hrt => ?_
    rw [hruntimes rt hrt]
  have hmanager : s.pool.manager = manager := by rw [hpool]
  have howned : Owned manager 0 := by
    unfold BlockManager.new at hnew
    split_ifs at hnew with hc
    rw [← Except.ok.inj hnew]
    exact owned_init _ _
  have hflight : ∀ i, s.pool.inFlight i = false := fun i => by rw [hpool]
  unfold Balanced
  rw [hbatches, hheld]
  refine ⟨?_, ?_, List.nodup_nil, fun i => ?_, List.nodup_nil, fun b => ?_⟩
  · exact hmanager ▸ good_of_new hnew
  · exact hmanager ▸ howned
  · exact iff_of_false (fun hf => by cases (hflight i).symm.trans hf) List.not_mem_nil
  · exact iff_of_false (fun hb => by cases (hidle b).symm.trans hb) List.not_mem_nil

theorem Balanced.owned (hb : s.Balanced) : Owned s.pool.manager (batchBlocks s.batches + s.held) :=
  Ledger.owned hb

theorem Balanced.good (hb : s.Balanced) : Good prefixHash s.pool.manager := Ledger.good hb

/-- A call of the callers on the manager, which may also reset flags of written slots. -/
theorem Balanced.callers (hb : s.Balanced) (hg : Good prefixHash s'.pool.manager)
    (ho : Owned s'.pool.manager (batchBlocks s.batches + s'.held))
    (hruntimes : s'.runtimes = s.runtimes) (hflight : s'.pool.inFlight = s.pool.inFlight)
    (hbuffers : ∀ b, (s'.buffers b).busy = (s.buffers b).busy) : s'.Balanced := by
  have hbatches : s'.batches = s.batches := by unfold batches; rw [hruntimes]
  have hled : Ledger s'.held s.batches (s'.transfers {}) :=
    Ledger.callers hb hg ho rfl hflight hbuffers
  unfold Balanced
  rw [hbatches]
  exact hled

theorem hasher_agrees : Agrees prefixHash GpuMemoryPool.hasher := fun p h hp => by
  cases hp
  rfl

theorem copyFrom_busy (source : Option Bytes) (offset : ℕ) (storage : PinnedStorage) :
    (finalState (PinnedStorage.copyFrom source offset storage)).busy = storage.busy := by
  unfold PinnedStorage.copyFrom
  rw [bind_of_ok (get_apply _)]
  cases source with
  | none => rfl
  | some bytes =>
    dsimp only
    by_cases hrange : offset ≤ storage.size ∧ bytes.length ≤ storage.size - offset
    · rw [bind_of_ok (ensure_apply hrange)]
      cases storage.data <;> rfl
    · have hensure : (ensure (offset ≤ storage.size ∧ bytes.length ≤ storage.size - offset)
          (.invalidArgument "invalid staging source/range") : Call PinnedStorage PUnit) storage =
          .error (.invalidArgument "invalid staging source/range") storage := if_neg hrange
      rw [bind_of_error hensure]
      rfl

/-- The state after a host access to a buffer. -/
theorem step_hostWrite (b : ℕ) (source : Option Bytes) (offset : ℕ) (s : Traffic) :
    step (.hostWrite b source offset) s = some { s with
      buffers := Function.update s.buffers b
        (finalState (PinnedStorage.copyFrom source offset (s.buffers b))) } := by
  simp only [step]
  cases PinnedStorage.copyFrom source offset (s.buffers b) <;> rfl

/-- The step of a release that is allowed. -/
theorem Balanced.release {h : BlockHandle} (hb : s.Balanced) (hh : h ∈ s.held) :
    GpuMemoryPool.release h s.pool =
        .ok () { s.pool with manager := s.pool.manager.released h.id } ∧
      Good prefixHash (s.pool.manager.released h.id) ∧
      Owned (s.pool.manager.released h.id) (batchBlocks s.batches + s.held.erase h) := by
  have hmem : h ∈ (batchBlocks s.batches + s.held : Multiset BlockHandle) :=
    Multiset.mem_add.mpr (.inr hh)
  obtain ⟨hrun, howned⟩ := hb.owned.release hmem
  have hgood := release_keeps (H := prefixHash) h s.pool.manager hb.good
  rw [hrun] at hgood
  refine ⟨GpuMemoryPool.onManager_ok hrun, hgood, ?_⟩
  rwa [Multiset.erase_add_right_pos _ hh] at howned

/-- The host cannot touch a buffer in flight. -/
theorem copyFrom_of_busy (source : Option Bytes) (offset : ℕ) {storage : PinnedStorage}
    (hbusy : storage.busy = true) :
    finalState (PinnedStorage.copyFrom source offset storage) = storage := by
  have hdata : storage.data =
      .error (.logicError "pinned buffer is in flight; synchronize before host access") :=
    if_pos hbusy
  unfold PinnedStorage.copyFrom
  rw [bind_of_ok (get_apply _)]
  cases source with
  | none => rfl
  | some bytes =>
    dsimp only
    by_cases hrange : offset ≤ storage.size ∧ bytes.length ≤ storage.size - offset
    · rw [bind_of_ok (ensure_apply hrange), hdata]
      rfl
    · have hensure : (ensure (offset ≤ storage.size ∧ bytes.length ≤ storage.size - offset)
          (.invalidArgument "invalid staging source/range") : Call PinnedStorage PUnit) storage =
          .error (.invalidArgument "invalid staging source/range") storage := if_neg hrange
      rw [bind_of_error hensure]
      rfl

/-! ## What a step does -/

/-- **The effects of a step.** -/
inductive Effect (s : Traffic) : Traffic → Prop
  | refs (m : BlockManager) (held : Multiset BlockHandle) (hm : SameBlocks s.pool.manager m) :
      Effect s { s with pool := { s.pool with manager := m }, held := held }
  | allocated (g : BlockHandle) (m : BlockManager)
      (ha : BlockManager.allocate s.pool.manager = .ok g m) :
      Effect s { s with
        pool := { s.pool with
          manager := m, initialized := Function.update s.pool.initialized g.id false }
        held := g ::ₘ s.held
        written := unwritten [g] s.written }
  | published (g : BlockHandle) (p : Tokens) (hread : GpuMemoryPool.Readable s.pool g)
      (hprivate : (s.pool.manager.slots g.id).cached = false) :
      Effect s { s with
        pool := { s.pool with manager := s.pool.manager.published g.id p (prefixHash p) }
        published := Function.update s.published g (some (s.memory g.id)) }
  | written (g : BlockHandle) (bytes : Bytes) (hw : GpuMemoryPool.Writable s.pool g)
      (hlength : bytes.length = s.pool.blockBytes) :
      Effect s { s with
        pool := GpuMemoryPool.setInitialized g.id true s.pool
        memory := Function.update s.memory g.id bytes
        written := Function.update s.written g (some bytes) }
  | writeFailed (g : BlockHandle) (left : Bytes) (hw : GpuMemoryPool.Writable s.pool g) :
      Effect s { s with
        pool := GpuMemoryPool.setInitialized g.id false s.pool
        memory := Function.update s.memory g.id left
        written := unwritten [g] s.written }
  | host (b : ℕ) (source : Option Bytes) (offset : ℕ) :
      Effect s { s with
        buffers := Function.update s.buffers b
          (finalState (PinnedStorage.copyFrom source offset (s.buffers b))) }
  | recycled (r : ℕ) (rt : AsyncTransferRuntime) (n : ℕ) (hr : s.runtimes[r]? = some rt) :
      Effect s (s.after r (withRecycled n (s.transfers rt)))
  | begun (r : ℕ) (rt : AsyncTransferRuntime) (w : Pending) (n : ℕ)
      (hr : s.runtimes[r]? = some rt) (ha : Accepted (s.transfers rt) w.blocks w.buffer w.write)
      (hled : Ledger s.held (s.others r) (submitted w n (s.transfers rt))) :
      Effect s ((s.begun w).after r (submitted w n (s.transfers rt)))
  | refused (r : ℕ) (rt : AsyncTransferRuntime) (w : Pending) (n : ℕ) (m : BlockManager)
      (damage : Damage) (hr : s.runtimes[r]? = some rt)
      (ha : Accepted (s.transfers rt) w.blocks w.buffer w.write)
      (hled : Ledger s.held (s.others r) (submitted w n (s.transfers rt)))
      (hm : SameBlocks (s.pool.manager.addRefs (w.blocks.map BlockHandle.id)) m)
      (hled' : Ledger s.held (s.others r)
        (finished false m (spoil damage (submitted w n (s.transfers rt))))) :
      Effect s ((s.begun w).after r (finished false m (spoil damage (submitted w n (s.transfers rt)))))
  | givenUp (r : ℕ) (rt : AsyncTransferRuntime) (t : Transfers) (m : BlockManager)
      (damage : Damage) (hr : s.runtimes[r]? = some rt)
      (ht : t = s.transfers rt ∨ t = deliver (s.transfers rt)) (hm : SameBlocks s.pool.manager m)
      (hled : Ledger s.held (s.others r) (finished false m (spoil damage t))) :
      Effect s (s.after r (finished false m (spoil damage t)))
  | arrived (r : ℕ) (rt : AsyncTransferRuntime) (m : BlockManager) (hr : s.runtimes[r]? = some rt)
      (hm : SameBlocks s.pool.manager m)
      (hled : Ledger s.held (s.others r) (finished true m (arrived (s.transfers rt)))) :
      Effect s { s.after r (finished true m (arrived (s.transfers rt))) with
        written := recordBatches s.pool.blockBytes s.sources rt.pending s.written }

/-- A step that changes nothing. -/
theorem Effect.refl (s : Traffic) : Effect s s := .refs s.pool.manager s.held (SameBlocks.refl _)

/-- **Every step has one of the effects and keeps the ledger.** -/
theorem step_effect (hb : s.Balanced) (ha : s.Allowed q) (h : step q s = some s') :
    Effect s s' ∧ s'.Balanced := by
  have hg := hb.good
  have ho := hb.owned
  cases q with
  | allocate =>
    simp only [step] at h
    rcases ho.allocate hg.shaped with ⟨g, m, hrun, howned, -⟩ | ⟨e, hrun⟩
    · have hgood := allocate_keeps (H := prefixHash) s.pool.manager hg
      rw [hrun] at hgood
      rw [GpuMemoryPool.allocate_ok hrun] at h
      cases h
      exact ⟨.allocated g m hrun,
        hb.callers hgood (by rwa [Multiset.add_cons]) rfl rfl fun _ => rfl⟩
    · rw [GpuMemoryPool.allocate_error hrun] at h
      cases h
      exact ⟨.refl s, hb⟩
  | retain g =>
    simp only [step, GpuMemoryPool.retain] at h
    rcases retain_cases g s.pool.manager with hc | hc | hc
    · rw [GpuMemoryPool.onManager_error hc.2] at h
      cases h
      exact ⟨.refl s, hb⟩
    · rw [GpuMemoryPool.onManager_error hc.2.2] at h
      cases h
      exact ⟨.refl s, hb⟩
    · have hgood := retain_keeps (H := prefixHash) g s.pool.manager hg
      rw [hc.2.2] at hgood
      rw [GpuMemoryPool.onManager_ok hc.2.2] at h
      cases h
      exact ⟨.refs _ _ (sameBlocks_retained _ _), hb.callers hgood
        (by rw [Multiset.add_cons]; exact ho.retained hc.1) rfl rfl fun _ => rfl⟩
  | release g =>
    simp only [step] at h
    by_cases hh : g ∈ s.held
    · obtain ⟨hrun, hgood, howned⟩ := hb.release hh
      rw [hrun] at h
      cases h
      exact ⟨.refs _ _ (sameBlocks_released _ _), hb.callers hgood howned rfl rfl fun _ => rfl⟩
    · obtain ⟨e, pool, herror⟩ := ha.resolve_left hh
      have hpool : pool = s.pool := by
        unfold GpuMemoryPool.release at herror
        rcases release_cases g s.pool.manager with hc | hc | hc
        · rw [GpuMemoryPool.onManager_error hc.2] at herror
          cases herror
          rfl
        · rw [GpuMemoryPool.onManager_error hc.2.2] at herror
          cases herror
          rfl
        · rw [GpuMemoryPool.onManager_ok hc.2.2] at herror
          cases herror
      rw [herror] at h
      cases h
      rw [hpool]
      exact ⟨.refl s, hb⟩
  | publish g p =>
    simp only [step] at h
    rcases GpuMemoryPool.publish_cases g p s.pool with ⟨e, hc⟩ | ⟨hread, hc⟩
    · rw [hc] at h
      cases h
      exact ⟨.refl s, hb⟩
    have hgood := publish_keeps hasher_agrees g p s.pool.manager hg
    obtain ⟨free, idle, hi⟩ := hg
    rcases BlockManager.publish_cases hi hasher_agrees g p with
      hp | hp | ⟨-, hpre, ⟨e, -, hp⟩ | ⟨i, -, -, hp⟩ | hp⟩
    · rw [hc, GpuMemoryPool.onManager_error hp.2] at h
      cases h
      exact ⟨.refl s, hb⟩
    · rw [hc, GpuMemoryPool.onManager_error hp.2.2] at h
      cases h
      exact ⟨.refl s, hb⟩
    · rw [hc, GpuMemoryPool.onManager_error hp] at h
      cases h
      exact ⟨.refl s, hb⟩
    · rw [hc, GpuMemoryPool.onManager_error hp] at h
      cases h
      exact ⟨.refl s, hb⟩
    · rw [hp.2.2] at hgood
      rw [hc, GpuMemoryPool.onManager_ok hp.2.2] at h
      cases h
      exact ⟨.published g p hread hpre.2.1,
        hb.callers hgood (ho.published _ _ _) rfl rfl fun _ => rfl⟩
  | lookup p =>
    simp only [step, GpuMemoryPool.lookup] at h
    have hgood := lookup_keeps hasher_agrees p s.pool.manager hg
    rcases ho.lookup hg hasher_agrees p with ⟨i, -, -, hrun, howned⟩ | hrun | ⟨e, hrun⟩
    · rw [hrun] at hgood
      rw [GpuMemoryPool.onManager_ok hrun] at h
      cases h
      refine ⟨.refs _ _ (sameBlocks_retained _ _), hb.callers hgood ?_ rfl rfl fun _ => rfl⟩
      show Owned _ (_ + _ ::ₘ _)
      rwa [Multiset.add_cons]
    · rw [GpuMemoryPool.onManager_ok hrun] at h
      cases h
      exact ⟨.refl s, hb⟩
    · rw [GpuMemoryPool.onManager_error hrun] at h
      cases h
      exact ⟨.refl s, hb⟩
  | write fault g host =>
    simp only [step] at h
    rcases GpuMemoryPool.writeBlock_cases fault g host s.pool s.memory with
      ⟨e, hc, hfails⟩ | ⟨bytes, rfl, hlength, hw, hc | ⟨e, left, hc, hfails⟩⟩
    · rw [hc] at h
      simp only [hfails, Bool.false_eq_true, if_false] at h
      cases h
      exact ⟨.refl s, hb⟩
    · rw [hc] at h
      cases h
      exact ⟨.written g bytes hw hlength, hb.callers hg ho rfl rfl fun _ => rfl⟩
    · rw [hc] at h
      simp only [hfails, if_true] at h
      cases h
      exact ⟨.writeFailed g left hw, hb.callers hg ho rfl rfl fun _ => rfl⟩
  | read fault g size =>
    simp only [step] at h
    rcases GpuMemoryPool.readBlock_cases fault g size s.pool s.memory with ⟨e, hc⟩ | ⟨-, hc⟩
    · rw [hc] at h
      cases h
      exact ⟨.refl s, hb⟩
    · rw [hc] at h
      cases h
      exact ⟨.refl s, hb⟩
  | hostWrite b source offset =>
    rw [step_hostWrite] at h
    cases h
    refine ⟨.host b source offset, hb.callers hg ho rfl rfl fun b' => ?_⟩
    simp only [Function.update_apply]
    split_ifs with hb'
    · rw [copyFrom_busy, hb']
    · rfl
  | submit r fault blocks buffer write =>
    simp only [step] at h
    cases hr : s.runtimes[r]? with
    | none => rw [hr] at h; cases h
    | some rt =>
      have hl := (balanced_iff hr).mp hb
      have hnew : s.history ++ [(⟨blocks, buffer, write⟩ : Pending)] ≠ s.history := by simp
      rw [hr] at h
      simp only at h
      rcases submit_cases fault blocks buffer write hl with
        ⟨e, k, hc⟩ | ⟨haccepted, k, hled, ⟨-, hc⟩ | ⟨e, m, -, hc, hm, hled'⟩⟩
      · have hkept : (withRecycled k (s.transfers rt)).history = s.history :=
          withRecycled_history k (s.transfers rt)
        rw [hc] at h
        simp only at h
        rw [if_pos hkept] at h
        cases h
        exact ⟨.recycled r rt k hr, Balanced.after hr (hl.frame rfl rfl fun _ => rfl)⟩
      · have hgrown : (submitted ⟨blocks, buffer, write⟩ k (s.transfers rt)).history ≠
            s.history := by
          rw [submitted_history]
          exact hnew
        rw [hc] at h
        simp only at h
        rw [if_neg hgrown] at h
        cases h
        exact ⟨.begun r rt ⟨blocks, buffer, write⟩ k hr haccepted hled,
          Balanced.after (s := s.begun ⟨blocks, buffer, write⟩) hr hled⟩
      · have hgrown : (finished false m (spoil (submitDamage fault)
            (submitted ⟨blocks, buffer, write⟩ k (s.transfers rt)))).history ≠ s.history := by
          rw [finished_history, spoil_history, submitted_history]
          exact hnew
        rw [hc] at h
        simp only at h
        rw [if_neg hgrown] at h
        cases h
        exact ⟨.refused r rt ⟨blocks, buffer, write⟩ k m _ hr haccepted hled hm hled',
          Balanced.after (s := s.begun ⟨blocks, buffer, write⟩) hr hled'⟩
  | synchronize r fault =>
    simp only [step] at h
    cases hr : s.runtimes[r]? with
    | none => rw [hr] at h; cases h
    | some rt =>
      have hl := (balanced_iff hr).mp hb
      rw [hr] at h
      simp only at h
      rcases synchronize_cases fault hl with ⟨m, hc, hm, hled⟩ | ⟨-, e, m, t, ht, hc, hm, hled⟩
      · rw [hc] at h
        cases h
        exact ⟨.arrived r rt m hr hm hled, Balanced.after hr hled⟩
      · rw [hc] at h
        cases h
        exact ⟨.givenUp r rt t m _ hr ht hm hled, Balanced.after hr hled⟩

theorem step_balanced (hb : s.Balanced) (ha : s.Allowed q) (h : step q s = some s') :
    s'.Balanced := (step_effect hb ha h).2

/-- **The ledger balances in every reachable state.** -/
theorem reachable_balanced (hr : Reachable step Start Allowed s) : s.Balanced :=
  hr.invariant (fun _ => start_balanced) fun _ _ _ _ hb ha h => step_balanced hb ha h

/-! ## A small pool -/

/-- Two blocks of one byte, `n` runtimes, and a buffer of one byte for every number. -/
def small (n : ℕ) : Traffic where
  pool := ⟨BlockManager.init 2 1, 1, 2, 0, fun _ => false, fun _ => false⟩
  memory := fun _ => [0]
  buffers := fun b => { bytes := [UInt8.ofNat b] }
  runtimes := List.replicate n {}

theorem small_start (n : ℕ) : Start (small n) :=
  ⟨⟨2, 1, 1, 0, ⟨.ok 1, none, .ok 0⟩, rfl⟩, fun _ => rfl, fun _ hrt => List.eq_of_mem_replicate hrt,
    rfl, rfl, fun _ => rfl, fun _ => rfl⟩

end Traffic

end KVFlux.AsyncTransfer
