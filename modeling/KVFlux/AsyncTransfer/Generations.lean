import KVFlux.AsyncTransfer.Traffic
import KVFlux.AsyncTransfer.Copies

/-!
# Only complete data of the current generation

The flags `initialized` and `inFlight` of a slot are set by the pool, by submissions and by the ends
of batches. They agree with what callers have written.

* `current s i`: the handle of the slot `i` in its generation.
* `SlotSound s i`: an initialized slot holds what was last written under its handle, a published
  slot what it held when it was published.
* `recordBatch_eq`, `recordBatches_eq`: what the ends of batches record.
* **`Sound`**: the invariant; `effect_sound`, by cases on what a request has done.
* **`reachable_sound`**: every reachable state satisfies it.
-/

namespace KVFlux.AsyncTransfer.Traffic

open Fallible BlockManager Transition

variable {s s' : Traffic} {rt : AsyncTransferRuntime} {r i : ℕ} {q : Request} {w : Pending}
  {g h : BlockHandle}

/-- The handle of a slot in its generation. -/
def current (s : Traffic) (i : ℕ) : BlockHandle := ⟨i, (s.pool.manager.slots i).generation⟩

theorem current_of_valid (hv : s.pool.manager.Valid h) : s.current h.id = h := by
  unfold current
  rw [hv.2.2]

/-- What the flags of a slot say about its bytes. -/
structure SlotSound (s : Traffic) (i : ℕ) : Prop where
  written : s.pool.initialized i = true →
    s.written (s.current i) = some (s.memory i) ∧ (s.memory i).length = s.pool.blockBytes
  published : (s.pool.manager.slots i).cached = true →
    s.pool.initialized i = true ∧ s.published (s.current i) = some (s.memory i)

/-- **The invariant.** -/
structure Sound (s : Traffic) : Prop where
  balanced : s.Balanced
  slot : ∀ i, SlotSound s i
  landing : ∀ w ∈ s.batches, w.write = true → ∀ h ∈ w.blocks, s.pool.initialized h.id = false
  leaving : ∀ w ∈ s.batches, w.write = false → ∀ h ∈ w.blocks, s.pool.initialized h.id = true
  source : ∀ w ∈ s.batches, w.write = true → (s.buffers w.buffer).bytes = s.sources w.buffer ∧
    (s.buffers w.buffer).bytes.length = w.blocks.length * s.pool.blockBytes

/-- A slot that a step leaves alone. -/
theorem SlotSound.frame (hs : SlotSound s i)
    (hflag : s'.pool.initialized i = s.pool.initialized i)
    (hcached : (s'.pool.manager.slots i).cached = (s.pool.manager.slots i).cached)
    (hgen : (s'.pool.manager.slots i).generation = (s.pool.manager.slots i).generation)
    (hmemory : s'.memory i = s.memory i) (hbytes : s'.pool.blockBytes = s.pool.blockBytes)
    (hwritten : s'.written (s.current i) = s.written (s.current i))
    (hpublished : s'.published (s.current i) = s.published (s.current i)) : SlotSound s' i := by
  have hcurrent : s'.current i = s.current i := by unfold current; rw [hgen]
  refine ⟨fun hi => ?_, fun hi => ?_⟩
  · rw [hflag] at hi
    rw [hcurrent, hwritten, hmemory, hbytes]
    exact hs.written hi
  · rw [hcached] at hi
    rw [hcurrent, hflag, hpublished, hmemory]
    exact hs.published hi

/-! ## Pending batches -/

theorem mem_batches (hr : s.runtimes[r]? = some rt) :
    w ∈ s.batches ↔ w ∈ rt.pending ∨ w ∈ s.others r := by
  rw [← (batches_perm hr).mem_iff, List.mem_append]

theorem mem_batches_after (hr : s.runtimes[r]? = some rt) (t : Transfers) :
    w ∈ (s.after r t).batches ↔ w ∈ t.runtime.pending ∨ w ∈ s.others r := by
  rw [mem_batches (after_runtime hr t), after_others]

/-- The blocks of pending batches are live and in flight. -/
theorem Balanced.valid (hb : s.Balanced) (hw : w ∈ s.batches) (hh : h ∈ w.blocks) :
    s.pool.manager.Valid h :=
  hb.owned.valid h (Multiset.mem_add.mpr (.inl (Multiset.mem_coe.mpr
    (List.mem_flatMap.mpr ⟨w, hw, hh⟩))))

theorem Balanced.inFlight_iff (hb : s.Balanced) :
    s.pool.inFlight i = true ↔ i ∈ batchIds s.batches := Ledger.inFlight hb i

theorem Balanced.inFlight (hb : s.Balanced) (hw : w ∈ s.batches) (hh : h ∈ w.blocks) :
    s.pool.inFlight h.id = true :=
  hb.inFlight_iff.mpr (mem_batchIds.mpr ⟨w, hw, h, hh, rfl⟩)

/-- A slot in flight has references. -/
theorem Balanced.refs_ne (hb : s.Balanced) (hi : s.pool.inFlight i = true) :
    (s.pool.manager.slots i).refs ≠ 0 := by
  obtain ⟨w, hw, g, hg, rfl⟩ := mem_batchIds.mp (hb.inFlight_iff.mp hi)
  have hmem : g ∈ (batchBlocks s.batches + s.held : Multiset BlockHandle) :=
    Multiset.mem_add.mpr (.inl (Multiset.mem_coe.mpr (List.mem_flatMap.mpr ⟨w, hw, hg⟩)))
  exact hb.owned.refs_pos hmem

theorem Balanced.busy (hb : s.Balanced) (hw : w ∈ s.batches) :
    (s.buffers w.buffer).busy = true :=
  (Ledger.busy hb w.buffer).mpr (mem_batchBuffers.mpr ⟨w, hw, rfl⟩)

/-- Another runtime uses other slots and other buffers. -/
theorem Balanced.apart (hb : s.Balanced) (hr : s.runtimes[r]? = some rt) (hw : w ∈ s.others r) :
    (∀ h ∈ w.blocks, h.id ∉ batchIds rt.pending) ∧ w.buffer ∉ batchBuffers rt.pending := by
  have hl := (balanced_iff hr).mp hb
  have hids := hl.ids_nodup
  have hbuffers := hl.buffers_nodup
  rw [batchIds_append, List.nodup_append] at hids
  rw [batchBuffers_append, List.nodup_append] at hbuffers
  exact ⟨fun h hh hc => hids.2.2 h.id hc h.id (mem_batchIds.mpr ⟨w, hw, h, hh, rfl⟩) rfl,
    fun hc => hbuffers.2.2 w.buffer hc w.buffer (mem_batchBuffers.mpr ⟨w, hw, rfl⟩) rfl⟩

/-! ## The callers -/

/-- A call of the callers: the slots in flight and the buffers on the way stay. -/
theorem Sound.callers (hs : Sound s) (hb : s'.Balanced) (hruntimes : s'.runtimes = s.runtimes)
    (hslot : ∀ i, SlotSound s' i)
    (hflags : ∀ i, s.pool.inFlight i = true → s'.pool.initialized i = s.pool.initialized i)
    (hbytes : s'.pool.blockBytes = s.pool.blockBytes)
    (hbuffers : ∀ b, (s.buffers b).busy = true → (s'.buffers b).bytes = (s.buffers b).bytes)
    (hsources : s'.sources = s.sources) : Sound s' := by
  have hbatches : s'.batches = s.batches := by unfold batches; rw [hruntimes]
  refine ⟨hb, hslot, fun w hw hwrite h hh => ?_, fun w hw hwrite h hh => ?_, fun w hw hwrite => ?_⟩
  · rw [hbatches] at hw
    rw [hflags _ (hs.balanced.inFlight hw hh)]
    exact hs.landing w hw hwrite h hh
  · rw [hbatches] at hw
    rw [hflags _ (hs.balanced.inFlight hw hh)]
    exact hs.leaving w hw hwrite h hh
  · rw [hbatches] at hw
    rw [hbuffers _ (hs.balanced.busy hw), hsources, hbytes]
    exact hs.source w hw hwrite

/-- A call that only moves references. -/
theorem Sound.sameBlocks (hs : Sound s) (hb : s'.Balanced)
    (hm : SameBlocks s.pool.manager s'.pool.manager)
    (hpool : { s'.pool with manager := s.pool.manager } = s.pool) (hmemory : s'.memory = s.memory)
    (hbuffers : s'.buffers = s.buffers) (hruntimes : s'.runtimes = s.runtimes)
    (hwritten : s'.written = s.written) (hpublished : s'.published = s.published)
    (hsources : s'.sources = s.sources) : Sound s' := by
  have hflag : s'.pool.initialized = s.pool.initialized := by rw [← hpool]
  have hbytes : s'.pool.blockBytes = s.pool.blockBytes := by rw [← hpool]
  refine hs.callers hb hruntimes (fun i => ?_) (fun i _ => by rw [hflag]) hbytes
    (fun b _ => by rw [hbuffers]) hsources
  exact (hs.slot i).frame (by rw [hflag]) (hm.slot i).2.1 (hm.slot i).1 (by rw [hmemory]) hbytes
    (by rw [hwritten]) (by rw [hpublished])

theorem Sound.allocated {m : BlockManager} (hs : Sound s)
    (ha : BlockManager.allocate s.pool.manager = .ok g m)
    (hb : Balanced { s with
      pool := { s.pool with
        manager := m, initialized := Function.update s.pool.initialized g.id false }
      held := g ::ₘ s.held
      written := unwritten [g] s.written }) :
    Sound { s with
      pool := { s.pool with
        manager := m, initialized := Function.update s.pool.initialized g.id false }
      held := g ::ₘ s.held
      written := unwritten [g] s.written } := by
  obtain ⟨-, hrefs, -, hnew, hframe, -, -⟩ := allocate_ok hs.balanced.good.shaped ha
  refine hs.callers hb rfl (fun i => ?_) (fun i hi => ?_) rfl (fun _ _ => rfl) rfl
  · by_cases hi : i = g.id
    · subst hi
      refine ⟨fun hflag => ?_, fun hcached => ?_⟩
      · have hflag : Function.update s.pool.initialized g.id false g.id = true := hflag
        rw [Function.update_self] at hflag
        cases hflag
      · have hcached : (m.slots g.id).cached = true := hcached
        rw [hnew] at hcached
        cases hcached
    · refine (hs.slot i).frame (Function.update_of_ne hi _ _) ?_ ?_ rfl rfl ?_ rfl
      · exact congrArg Slot.cached (hframe i hi)
      · exact congrArg Slot.generation (hframe i hi)
      · refine if_neg fun hc => hi ?_
        rw [← List.mem_singleton.mp hc]
        rfl
  · refine Function.update_of_ne (fun he => ?_) _ _
    rw [he] at hi
    exact hs.balanced.refs_ne hi hrefs

theorem Sound.published {p : Tokens} (hs : Sound s) (hread : GpuMemoryPool.Readable s.pool g)
    (hb : Balanced { s with
      pool := { s.pool with manager := s.pool.manager.published g.id p (prefixHash p) }
      published := Function.update s.published g (some (s.memory g.id)) }) :
    Sound { s with
      pool := { s.pool with manager := s.pool.manager.published g.id p (prefixHash p) }
      published := Function.update s.published g (some (s.memory g.id)) } := by
  have hcurrent := current_of_valid (s := s) hread.valid
  refine hs.callers hb rfl (fun i => ?_) (fun _ _ => rfl) rfl (fun _ _ => rfl) rfl
  by_cases hi : i = g.id
  · subst hi
    have hgen : ((s.pool.manager.published g.id p (prefixHash p)).slots g.id).generation =
        (s.pool.manager.slots g.id).generation := by
      rw [published_slots, if_pos rfl]
    have hsame : (⟨g.id, ((s.pool.manager.published g.id p (prefixHash p)).slots
        g.id).generation⟩ : BlockHandle) = g := by
      rw [hgen]
      exact hcurrent
    refine ⟨fun hflag => ?_, fun _ => ⟨hread.written, ?_⟩⟩
    · have hold := (hs.slot g.id).written hflag
      rw [hcurrent] at hold
      unfold current
      rw [hsame]
      exact hold
    · unfold current
      rw [hsame]
      exact Function.update_self _ _ _
  · refine (hs.slot i).frame rfl ?_ ?_ rfl rfl rfl ?_
    · exact congrArg Slot.cached (by rw [published_slots, if_neg hi])
    · exact congrArg Slot.generation (by rw [published_slots, if_neg hi])
    · refine Function.update_of_ne (fun he => hi ?_) _ _
      rw [← he]
      rfl

/-- A write of `g` by the pool leaves `bytes` in its slot and the flag `done`. -/
theorem Sound.stored {done : Bool} {bytes : Bytes} {written : BlockHandle → Option Bytes}
    (hs : Sound s) (hw : GpuMemoryPool.Writable s.pool g)
    (hdone : done = true → written g = some bytes ∧ bytes.length = s.pool.blockBytes)
    (hothers : ∀ h, h ≠ g → written h = s.written h)
    (hb : Balanced { s with
      pool := GpuMemoryPool.setInitialized g.id done s.pool
      memory := Function.update s.memory g.id bytes
      written := written }) :
    Sound { s with
      pool := GpuMemoryPool.setInitialized g.id done s.pool
      memory := Function.update s.memory g.id bytes
      written := written } := by
  have hcurrent := current_of_valid (s := s) hw.valid
  refine hs.callers hb rfl (fun i => ?_) (fun i hi => ?_) rfl (fun _ _ => rfl) rfl
  · by_cases hi : i = g.id
    · subst hi
      refine ⟨fun hflag => ?_, fun hcached => ?_⟩
      · have hflag : Function.update s.pool.initialized g.id done g.id = true := hflag
        rw [Function.update_self] at hflag
        obtain ⟨hwritten, hlength⟩ := hdone hflag
        show written (s.current g.id) = some (Function.update s.memory g.id bytes g.id) ∧
          (Function.update s.memory g.id bytes g.id).length = s.pool.blockBytes
        rw [hcurrent, Function.update_self]
        exact ⟨hwritten, hlength⟩
      · cases hw.unpublished.symm.trans hcached
    · refine (hs.slot i).frame (Function.update_of_ne hi _ _) rfl rfl
        (Function.update_of_ne hi _ _) rfl (hothers _ fun he => hi ?_) rfl
      rw [← he]
      rfl
  · refine Function.update_of_ne (fun he => ?_) _ _
    subst he
    cases hw.landed.symm.trans hi

theorem Sound.host {b offset : ℕ} {source : Option Bytes} (hs : Sound s)
    (hb : Balanced { s with
      buffers := Function.update s.buffers b
        (finalState (PinnedStorage.copyFrom source offset (s.buffers b))) }) :
    Sound { s with
      buffers := Function.update s.buffers b
        (finalState (PinnedStorage.copyFrom source offset (s.buffers b))) } := by
  refine hs.callers hb rfl (fun i => (hs.slot i).frame rfl rfl rfl rfl rfl rfl rfl)
    (fun _ _ => rfl) rfl (fun b' hb' => ?_) rfl
  simp only [Function.update_apply]
  split_ifs with he
  · rw [he] at hb' ⊢
    rw [copyFrom_of_busy source offset hb']
  · rfl

/-! ## The runtimes -/

section Record

variable {blockBytes : ℕ} {memory : SlotMemory}

theorem recordBatch_of_notMem (hs : List BlockHandle) :
    ∀ (bytes : Bytes) (f : BlockHandle → Option Bytes), h ∉ hs →
      recordBatch blockBytes bytes hs f h = f h := by
  induction hs with
  | nil => intro bytes f _; rfl
  | cons g hs ih =>
    intro bytes f hh
    rw [List.mem_cons, not_or] at hh
    rw [recordBatch, ih _ _ hh.2, Function.update_of_ne hh.1]

/-- What is recorded of a batch is what its copies leave in the slots. -/
theorem recordBatch_eq (hs : List BlockHandle) :
    ∀ (bytes : Bytes) (f : BlockHandle → Option Bytes) (memory : SlotMemory),
      (hs.map BlockHandle.id).Nodup → h ∈ hs →
      recordBatch blockBytes bytes hs f h = some (toDevice blockBytes bytes hs memory h.id) := by
  induction hs with
  | nil => intro bytes f memory _ hh; cases hh
  | cons g hs ih =>
    intro bytes f memory hnodup hh
    rw [List.map_cons, List.nodup_cons] at hnodup
    rw [recordBatch, toDevice]
    rcases List.mem_cons.mp hh with rfl | hmem
    · rw [recordBatch_of_notMem hs _ _ fun hc => hnodup.1 (List.mem_map_of_mem hc),
        toDevice_of_notMem hs _ _ hnodup.1, Function.update_self, Function.update_self]
    · exact ih _ _ _ hnodup.2 hmem

theorem recordBatches_cons (sources : ℕ → Bytes) (w : Pending) (ws : List Pending)
    (f : BlockHandle → Option Bytes) : recordBatches blockBytes sources (w :: ws) f =
      recordBatches blockBytes sources ws
        (if w.write = true then recordBatch blockBytes (sources w.buffer) w.blocks f else f) := by
  unfold recordBatches
  rw [writeBatches_cons]
  split_ifs <;> rfl

theorem recordBatches_of_notMem (sources : ℕ → Bytes) (ws : List Pending) :
    ∀ f : BlockHandle → Option Bytes, h.id ∉ batchIds (writeBatches ws) →
      recordBatches blockBytes sources ws f h = f h := by
  induction ws with
  | nil => intro f _; rfl
  | cons w ws ih =>
    intro f hh
    rw [writeBatches_cons] at hh
    rw [recordBatches_cons]
    by_cases hw : w.write = true
    · rw [if_pos hw, batchIds_cons, List.mem_append, not_or] at hh
      rw [if_pos hw, ih _ hh.2,
        recordBatch_of_notMem _ _ _ fun hc => hh.1 (List.mem_map_of_mem hc)]
    · rw [if_neg hw] at hh
      rw [if_neg hw, ih _ hh]

theorem recordBatches_eq (sources : ℕ → Bytes) (memory : SlotMemory) (ws : List Pending) :
    ∀ f : BlockHandle → Option Bytes, (batchIds ws).Nodup → w ∈ ws → w.write = true →
      h ∈ w.blocks → recordBatches blockBytes sources ws f h =
        some (toDevice blockBytes (sources w.buffer) w.blocks memory h.id) := by
  induction ws with
  | nil => intro f _ hw; cases hw
  | cons v vs ih =>
    intro f hids hmem hwrite hh
    rw [batchIds_cons, List.nodup_append] at hids
    rw [recordBatches_cons]
    rcases List.mem_cons.mp hmem with rfl | hvs
    · have hrest : h.id ∉ batchIds (writeBatches vs) := fun hc =>
        hids.2.2 h.id (List.mem_map_of_mem hh) h.id (batchIds_writeBatches_subset hc) rfl
      rw [recordBatches_of_notMem sources vs _ hrest, if_pos hwrite]
      exact recordBatch_eq _ _ _ _ hids.1 hh
    · exact ih _ hids.2.1 hvs hwrite hh

end Record

/-- The batch `w` is on the stream. -/
theorem Sound.begun {n : ℕ} (hs : Sound s) (hr : s.runtimes[r]? = some rt)
    (ha : Accepted (s.transfers rt) w.blocks w.buffer w.write)
    (hled : Ledger s.held (s.others r) (submitted w n (s.transfers rt))) :
    Sound ((s.begun w).after r (submitted w n (s.transfers rt))) := by
  have hb : ((s.begun w).after r (submitted w n (s.transfers rt))).Balanced :=
    Balanced.after (s := s.begun w) hr hled
  have hflag : ∀ i, ((s.begun w).after r (submitted w n (s.transfers rt))).pool.initialized i =
      if w.write = true ∧ i ∈ w.blocks.map BlockHandle.id then false else s.pool.initialized i :=
    fun i => submitted_initialized w n (s.transfers rt) i
  have hsame := sameBlocks_addRefs s.pool.manager (w.blocks.map BlockHandle.id)
  have hmem : ∀ v, v ∈ ((s.begun w).after r (submitted w n (s.transfers rt))).batches →
      v = w ∨ v ∈ s.batches := fun v hv => by
    rcases (mem_batches_after (s := s.begun w) hr _).mp hv with hv | hv
    · rw [submitted_pending] at hv
      rcases List.mem_append.mp hv with hv | hv
      · exact .inr ((mem_batches hr).mpr (.inl hv))
      · exact .inl (List.mem_singleton.mp hv)
    · exact .inr ((mem_batches hr).mpr (.inr hv))
  -- the blocks of the new batch were not in flight, its buffer was not busy
  have hapart : ∀ v ∈ s.batches, (∀ h ∈ v.blocks, h.id ∉ w.blocks.map BlockHandle.id) ∧
      v.buffer ≠ w.buffer := by
    refine fun v hv => ⟨fun h hh hc => ?_, fun he => ?_⟩
    · obtain ⟨g, hg, he⟩ := List.mem_map.mp hc
      have hflight := hs.balanced.inFlight hv hh
      rw [← he] at hflight
      cases (ha.block g hg).landed.symm.trans hflight
    · have hbusy := hs.balanced.busy hv
      rw [he] at hbusy
      cases ha.idle.symm.trans hbusy
  refine ⟨hb, fun i => ?_, fun v hv hwrite h hh => ?_, fun v hv hread h hh => ?_,
    fun v hv hwrite => ?_⟩
  · by_cases hi : w.write = true ∧ i ∈ w.blocks.map BlockHandle.id
    · obtain ⟨g, hg, rfl⟩ := List.mem_map.mp hi.2
      refine ⟨fun hinit => ?_, fun hcached => ?_⟩
      · rw [hflag, if_pos hi] at hinit
        cases hinit
      · have hcached : (s.pool.manager.slots g.id).cached = true :=
          (hsame.slot g.id).2.1.symm.trans hcached
        cases ((ha.block g hg).exclusive hi.1).2.symm.trans hcached
    · refine (hs.slot i).frame ?_ (hsame.slot i).2.1 (hsame.slot i).1 rfl rfl ?_ rfl
      · rw [hflag, if_neg hi]
      · show (if w.write = true then unwritten w.blocks s.written else s.written) (s.current i) = _
        split_ifs with hw
        · refine if_neg fun hc => hi ⟨hw, ?_⟩
          have := List.mem_map_of_mem (f := BlockHandle.id) hc
          exact this
        · rfl
  · rw [hflag]
    rcases hmem v hv with rfl | hv
    · exact if_pos ⟨hwrite, List.mem_map_of_mem hh⟩
    · rw [hs.landing v hv hwrite h hh]
      split_ifs <;> rfl
  · rw [hflag]
    rcases hmem v hv with rfl | hv
    · rw [if_neg fun hc => by cases hread.symm.trans hc.1]
      exact (ha.block h hh).written hread
    · rw [if_neg fun hc => (hapart v hv).1 h hh hc.2]
      exact hs.leaving v hv hread h hh
  · have hbytes : ∀ b, (((s.begun w).after r (submitted w n (s.transfers rt))).buffers b).bytes =
        (s.buffers b).bytes := fun b => submitted_bytes w n (s.transfers rt) b
    rw [hbytes]
    rcases hmem v hv with rfl | hv
    · refine ⟨(Function.update_self (β := fun _ => Bytes) _ _ _).symm, ?_⟩
      have hcount := ha.count
      have hwhole := ha.whole
      have hdiv := Nat.div_add_mod (s.buffers v.buffer).size s.pool.blockBytes
      have hcount : (s.buffers v.buffer).size / s.pool.blockBytes = v.blocks.length := hcount
      have hwhole : (s.buffers v.buffer).size % s.pool.blockBytes = 0 := hwhole
      rw [hcount, hwhole, Nat.add_zero, Nat.mul_comm] at hdiv
      exact hdiv.symm
    · refine ⟨?_, (hs.source v hv hwrite).2⟩
      show _ = Function.update s.sources w.buffer _ v.buffer
      rw [Function.update_of_ne (hapart v hv).2]
      exact (hs.source v hv hwrite).1

/-- The runtime has given up its batches. -/
theorem Sound.givenUp {m : BlockManager} {damage : Damage} {t : Transfers} (hs : Sound s)
    (hr : s.runtimes[r]? = some rt) (ht : t = s.transfers rt ∨ t = deliver (s.transfers rt))
    (hsame : SameBlocks s.pool.manager m)
    (hled : Ledger s.held (s.others r) (finished false m (spoil damage t))) :
    Sound (s.after r (finished false m (spoil damage t))) := by
  have hpending : t.runtime.pending = rt.pending := by
    rcases ht with rfl | rfl
    · rfl
    · rw [deliver_runtime]
      rfl
  have hpool : t.pool = s.pool := by
    rcases ht with rfl | rfl
    · rfl
    · exact deliver_pool _
  have hmemory : ∀ i, i ∉ batchIds (writeBatches rt.pending) → t.memory i = s.memory i := by
    rcases ht with rfl | rfl
    · exact fun _ _ => rfl
    · exact fun i hi => deliver_memory_of_notMem (t := s.transfers rt) hi
  have hbytes : ∀ b, b ∉ batchBuffers (readBatches rt.pending) →
      (t.buffers b).bytes = (s.buffers b).bytes := by
    rcases ht with rfl | rfl
    · exact fun _ _ => rfl
    · exact fun b hb => deliver_bytes_of_notMem (t := s.transfers rt) hb
  have hflag : ∀ i, (s.after r (finished false m (spoil damage t))).pool.initialized i =
      if i ∈ batchIds (writeBatches rt.pending) then false else s.pool.initialized i := fun i => by
    show (finished false m (spoil damage t)).pool.initialized i = _
    rw [finished_initialized, spoil_runtime, spoil_pool, hpending, hpool]
  have hblockBytes : (s.after r (finished false m (spoil damage t))).pool.blockBytes =
      s.pool.blockBytes := by
    show (finished false m (spoil damage t)).pool.blockBytes = _
    rw [finished_blockBytes, spoil_pool, hpool]
  have hmem : ∀ v, v ∈ (s.after r (finished false m (spoil damage t))).batches →
      v ∈ s.others r := fun v hv => by
    rcases (mem_batches_after hr _).mp hv with hv | hv
    · rw [finished_pending] at hv
      cases hv
    · exact hv
  refine ⟨Balanced.after hr hled, fun i => ?_, fun v hv hwrite h hh => ?_,
    fun v hv hread h hh => ?_, fun v hv hwrite => ?_⟩
  · by_cases hi : i ∈ batchIds (writeBatches rt.pending)
    · obtain ⟨v, hv, g, hg, rfl⟩ := mem_batchIds.mp hi
      obtain ⟨hv, hwrite⟩ := mem_writeBatches.mp hv
      have hlanding := hs.landing v ((mem_batches hr).mpr (.inl hv)) hwrite g hg
      refine ⟨fun hinit => ?_, fun hcached => ?_⟩
      · rw [hflag, if_pos hi] at hinit
        cases hinit
      · have hcached : (s.pool.manager.slots g.id).cached = true :=
          (hsame.slot g.id).2.1.symm.trans hcached
        cases hlanding.symm.trans ((hs.slot g.id).published hcached).1
    · refine (hs.slot i).frame (by rw [hflag, if_neg hi]) (hsame.slot i).2.1 (hsame.slot i).1 ?_
        hblockBytes rfl rfl
      show (finished false m (spoil damage t)).memory i = _
      rw [finished_memory, spoil_memory_of_notMem damage (by rwa [hpending]), hmemory i hi]
  · have hv := hmem v hv
    rw [hflag, hs.landing v ((mem_batches hr).mpr (.inr hv)) hwrite h hh]
    split_ifs <;> rfl
  · have hv := hmem v hv
    rw [hflag, if_neg fun hc => (hs.balanced.apart hr hv).1 h hh (batchIds_writeBatches_subset hc)]
    exact hs.leaving v ((mem_batches hr).mpr (.inr hv)) hread h hh
  · have hv := hmem v hv
    have hb : v.buffer ∉ batchBuffers (readBatches rt.pending) := fun hc =>
      (hs.balanced.apart hr hv).2 (batchBuffers_readBatches_subset hc)
    have hkept : ((s.after r (finished false m (spoil damage t))).buffers v.buffer).bytes =
        (s.buffers v.buffer).bytes := by
      show ((finished false m (spoil damage t)).buffers v.buffer).bytes = _
      rw [finished_bytes, spoil_bytes_of_notMem damage (by rwa [hpending]), hbytes _ hb]
    rw [hkept, hblockBytes]
    exact hs.source v ((mem_batches hr).mpr (.inr hv)) hwrite

/-- The batches of the runtime have arrived. -/
theorem Sound.arrived {m : BlockManager} (hs : Sound s) (hr : s.runtimes[r]? = some rt)
    (hsame : SameBlocks s.pool.manager m)
    (hled : Ledger s.held (s.others r) (finished true m (arrived (s.transfers rt)))) :
    Sound { s.after r (finished true m (AsyncTransfer.arrived (s.transfers rt))) with
      written := recordBatches s.pool.blockBytes s.sources rt.pending s.written } := by
  have hl := (balanced_iff hr).mp hs.balanced
  have hids := hl.ids_nodup
  have hbuffers := hl.buffers_nodup
  rw [batchIds_append, List.nodup_append] at hids
  rw [batchBuffers_append, List.nodup_append] at hbuffers
  have hflag : ∀ i, (finished true m (AsyncTransfer.arrived (s.transfers rt))).pool.initialized i =
      if i ∈ batchIds (writeBatches rt.pending) then true else s.pool.initialized i := fun i => by
    rw [finished_initialized, arrived_pending, arrived_pool]
    rfl
  have hmemory : (finished true m (AsyncTransfer.arrived (s.transfers rt))).memory =
      (deliver (s.transfers rt)).memory := by
    rw [finished_memory, arrived_memory]
  have hblockBytes : (finished true m (AsyncTransfer.arrived (s.transfers rt))).pool.blockBytes =
      s.pool.blockBytes := by
    rw [finished_blockBytes, arrived_pool]
    rfl
  have hmem : ∀ v, v ∈ (s.after r (finished true m (AsyncTransfer.arrived (s.transfers rt)))).batches →
      v ∈ s.others r := fun v hv => by
    rcases (mem_batches_after hr _).mp hv with hv | hv
    · rw [finished_pending] at hv
      cases hv
    · exact hv
  have hb : (s.after r (finished true m (AsyncTransfer.arrived (s.transfers rt)))).Balanced :=
    Balanced.after hr hled
  refine ⟨hb, fun i => ?_, fun v hv hwrite h hh => ?_, fun v hv hread h hh => ?_,
    fun v hv hwrite => ?_⟩
  · by_cases hi : i ∈ batchIds (writeBatches rt.pending)
    · obtain ⟨v, hv, g, hg, rfl⟩ := mem_batchIds.mp hi
      obtain ⟨hv, hwrite⟩ := mem_writeBatches.mp hv
      have hbatch : v ∈ s.batches := (mem_batches hr).mpr (.inl hv)
      obtain ⟨hsource, hlength⟩ := hs.source v hbatch hwrite
      have hcurrent : (⟨g.id, (m.slots g.id).generation⟩ : BlockHandle) = g := by
        rw [(hsame.slot g.id).1]
        exact current_of_valid (hs.balanced.valid hbatch hg)
      have hslot : (finished true m (AsyncTransfer.arrived (s.transfers rt))).memory g.id =
          toDevice s.pool.blockBytes (s.sources v.buffer) v.blocks s.memory g.id := by
        rw [hmemory, deliver_write (t := s.transfers rt) hids.1 hbuffers.1 hv hwrite hg, ← hsource]
        rfl
      refine ⟨fun _ => ⟨?_, ?_⟩, fun hcached => ?_⟩
      · show recordBatches s.pool.blockBytes s.sources rt.pending s.written
          ⟨g.id, (m.slots g.id).generation⟩ = some _
        rw [hcurrent, recordBatches_eq s.sources s.memory rt.pending s.written hids.1 hv hwrite hg,
          ← hslot]
        rfl
      · show ((finished true m (AsyncTransfer.arrived (s.transfers rt))).memory g.id).length =
          (finished true m (AsyncTransfer.arrived (s.transfers rt))).pool.blockBytes
        rw [hslot, hblockBytes]
        exact toDevice_length _ _ _ (by rw [← hsource]; exact hlength) (List.mem_map_of_mem hg)
      · have hcached : (s.pool.manager.slots g.id).cached = true :=
          (hsame.slot g.id).2.1.symm.trans hcached
        cases (hs.landing v hbatch hwrite g hg).symm.trans ((hs.slot g.id).published hcached).1
    · refine (hs.slot i).frame ?_ (hsame.slot i).2.1 (hsame.slot i).1 ?_ hblockBytes ?_ rfl
      · show (finished true m (AsyncTransfer.arrived (s.transfers rt))).pool.initialized i = _
        rw [hflag, if_neg hi]
      · show (finished true m (AsyncTransfer.arrived (s.transfers rt))).memory i = _
        rw [hmemory, deliver_memory_of_notMem (t := s.transfers rt) hi]
        rfl
      · exact recordBatches_of_notMem _ _ _ hi
  · have hv := hmem v hv
    have hnot : h.id ∉ batchIds (writeBatches rt.pending) := fun hc =>
      (hs.balanced.apart hr hv).1 h hh (batchIds_writeBatches_subset hc)
    show (finished true m (AsyncTransfer.arrived (s.transfers rt))).pool.initialized h.id = _
    rw [hflag, if_neg hnot]
    exact hs.landing v ((mem_batches hr).mpr (.inr hv)) hwrite h hh
  · have hv := hmem v hv
    have hnot : h.id ∉ batchIds (writeBatches rt.pending) := fun hc =>
      (hs.balanced.apart hr hv).1 h hh (batchIds_writeBatches_subset hc)
    show (finished true m (AsyncTransfer.arrived (s.transfers rt))).pool.initialized h.id = _
    rw [hflag, if_neg hnot]
    exact hs.leaving v ((mem_batches hr).mpr (.inr hv)) hread h hh
  · have hv := hmem v hv
    have hb : v.buffer ∉ batchBuffers (readBatches rt.pending) := fun hc =>
      (hs.balanced.apart hr hv).2 (batchBuffers_readBatches_subset hc)
    have hkept : ((finished true m (AsyncTransfer.arrived (s.transfers rt))).buffers v.buffer).bytes =
        (s.buffers v.buffer).bytes := by
      rw [finished_bytes, arrived_buffers, deliver_bytes_of_notMem (t := s.transfers rt) hb]
      rfl
    show ((finished true m (AsyncTransfer.arrived (s.transfers rt))).buffers v.buffer).bytes = _ ∧
      ((finished true m (AsyncTransfer.arrived (s.transfers rt))).buffers v.buffer).bytes.length = _ *
        (finished true m (AsyncTransfer.arrived (s.transfers rt))).pool.blockBytes
    rw [hkept, hblockBytes]
    exact hs.source v ((mem_batches hr).mpr (.inr hv)) hwrite

/-! ## Every step -/

/-- **Every effect keeps the invariant.** -/
theorem effect_sound (hs : Sound s) (he : Effect s s') (hb : s'.Balanced) : Sound s' := by
  cases he with
  | refs m held hm => exact hs.sameBlocks hb hm rfl rfl rfl rfl rfl rfl rfl
  | allocated g m ha => exact hs.allocated ha hb
  | published g p hread hprivate => exact hs.published hread hb
  | written g bytes hw hlength =>
    exact hs.stored hw (fun _ => ⟨Function.update_self _ _ _, hlength⟩)
      (fun h hne => Function.update_of_ne hne _ _) hb
  | writeFailed g left hw =>
    exact hs.stored hw (fun h => absurd h Bool.false_ne_true)
      (fun h hne => if_neg fun hc => hne (List.mem_singleton.mp hc)) hb
  | host b source offset => exact hs.host hb
  | recycled r rt n hr =>
    have hbatches : (s.after r (withRecycled n (s.transfers rt))).batches.Perm s.batches := by
      refine (batches_perm (after_runtime hr _)).symm.trans ?_
      rw [after_others]
      show (rt.pending ++ s.others r).Perm s.batches
      exact batches_perm hr
    refine ⟨hb, fun i => (hs.slot i).frame rfl rfl rfl rfl rfl rfl rfl, fun w hw => ?_,
      fun w hw => ?_, fun w hw => ?_⟩
    · exact hs.landing w (hbatches.mem_iff.mp hw)
    · exact hs.leaving w (hbatches.mem_iff.mp hw)
    · exact hs.source w (hbatches.mem_iff.mp hw)
  | begun r rt w n hr ha hled => exact hs.begun hr ha hled
  | refused r rt w n m damage hr ha hled hm hled' =>
    -- the batch reaches the stream, then everything is given up
    have hmid := hs.begun hr ha hled
    have hr' := after_runtime (s := s.begun w) hr (submitted w n (s.transfers rt))
    have hgiven : Sound (((s.begun w).after r (submitted w n (s.transfers rt))).after r
        (finished false m (spoil damage (submitted w n (s.transfers rt))))) :=
      hmid.givenUp hr' (.inl rfl) hm (by
        rw [after_others]
        exact hled')
    have hset : ((s.begun w).after r (submitted w n (s.transfers rt))).after r
        (finished false m (spoil damage (submitted w n (s.transfers rt)))) =
        (s.begun w).after r (finished false m (spoil damage (submitted w n (s.transfers rt)))) := by
      unfold after
      simp only [List.set_set]
    rw [← hset]
    exact hgiven
  | givenUp r rt t m damage hr ht hm hled => exact hs.givenUp hr ht hm hled
  | arrived r rt m hr hm hled => exact hs.arrived hr hm hled

theorem start_sound (hs : Start s) : Sound s := by
  have hb := start_balanced hs
  obtain ⟨⟨blocks, bytes, tokens, device, cuda, hmake⟩, -, hruntimes, -, -, -, -⟩ := hs
  obtain ⟨-, manager, allocated, base, hnew, hpool⟩ := GpuMemoryPool.make_eq hmake
  have hbatches : s.batches = [] := by
    refine List.flatMap_eq_nil_iff.mpr fun rt hrt => ?_
    rw [hruntimes rt hrt]
  refine ⟨hb, fun i => ⟨fun hi => ?_, fun hi => ?_⟩, ?_, ?_, ?_⟩
  · rw [hpool] at hi
    cases hi
  · rw [hpool] at hi
    unfold BlockManager.new at hnew
    split_ifs at hnew
    rw [← Except.ok.inj hnew] at hi
    cases hi
  · rw [hbatches]
    exact fun w hw => absurd hw List.not_mem_nil
  · rw [hbatches]
    exact fun w hw => absurd hw List.not_mem_nil
  · rw [hbatches]
    exact fun w hw => absurd hw List.not_mem_nil

/-- **The flags tell the truth in every reachable state.** -/
theorem reachable_sound (hr : Reachable step Start Allowed s) : Sound s :=
  hr.invariant (fun _ => start_sound) fun _ _ _ _ hs ha h =>
    let ⟨he, hb⟩ := step_effect hs.balanced ha h
    effect_sound hs he hb

end KVFlux.AsyncTransfer.Traffic
