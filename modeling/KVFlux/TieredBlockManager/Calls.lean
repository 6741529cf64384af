import KVFlux.TieredBlockManager.Lifetimes

/-!
# Creating, leasing and reading blocks

* `Clients.lease_bytes`: what a lease shows.
* `leaseBlock`: the end of `acquire_gpu`; **`acquireGpu_post`**, **`readBlock_post`**: the outcomes.
* `created`: a new block; `Core.created`, `copyIn_ok`; **`create_post`**: the outcomes of `create`.
-/

namespace KVFlux.TieredBlockManager

open Fallible BlockManager AsyncTransfer Table

variable {c c' : ℕ → Bytes} {x x' : Option ℕ} {ps qs : List LogicalBlockHandle}
  {m m' m'' : TieredBlockManager} {i : ℕ} {e : Entry} {h : LogicalBlockHandle} {g : BlockHandle}
  {held : Multiset LogicalBlockHandle} {leases : Multiset GpuLease} {l : GpuLease}
  {mgr : BlockManager} {slot : BlockHandle} {bytes : Bytes}

/-- **A leased slot has the bytes of its block.** -/
theorem Clients.lease_bytes (hc : Clients c held leases m) (hl : l ∈ leases) :
    ∃ g, (m.entries l.handle.id).gpu = some g ∧
      l.address = m.transfers.pool.base + g.id * m.blockBytes ∧
      m.transfers.memory g.id = c l.handle.id := by
  obtain ⟨g, hg, haddress⟩ := hc.placed l hl
  refine ⟨g, hg, haddress, ((hc.inv.steady.core.entry l.handle.id).kept g hg ?_).1⟩
  rw [hc.leased_resident hl]
  decide

/-- The address of the slot of a block. -/
theorem Core.address (hc : Core c x ps qs m) (hg : (m.entries i).gpu = some g) :
    m.transfers.pool.deviceAddress g = .ok (m.transfers.pool.base + g.id * m.blockBytes) := by
  have howned := hc.ledger.owned
  have hheld := hc.mem_held hg
  exact GpuMemoryPool.deviceAddress_of_valid
    (howned.valid g (Multiset.mem_add.mpr (.inr hheld)))
    (howned.refs_pos (Multiset.mem_add.mpr (.inr hheld)))

/-! ## `acquire_gpu` -/

/-- The end of `acquire_gpu`, once the block is in its slot. -/
def leaseBlock (h : LogicalBlockHandle) (resident prefetched : Bool) : TieredCall GpuLease := do
  let e ← checked h
  ensure (e.pins ≠ sizeMax) (.overflowError "GPU lease count overflow")
  retain h
  modify (modifyEntry h.id fun e => { e with pins := e.pins + 1 })
  modify (eraseLru h.id)
  modify (countDemand resident prefetched)
  if prefetched = true then modify (modifyEntry h.id fun e => { e with prefetched := false })
  let e ← entry h.id
  let g ← deref e
  let m ← get
  let address ← check (m.transfers.pool.deviceAddress g)
  return ⟨h, address⟩

/-- The end of `leaseBlock`. -/
def leaseOf (h : LogicalBlockHandle) : TieredCall GpuLease := do
  let e ← entry h.id
  let g ← deref e
  let m ← get
  let address ← check (m.transfers.pool.deviceAddress g)
  return ⟨h, address⟩

theorem leaseOf_ok (hc : Core c x ps qs m) (hg : (m.entries h.id).gpu = some g) : leaseOf h m =
    .ok ⟨h, m.transfers.pool.base + g.id * m.blockBytes⟩ m := by
  unfold leaseOf
  rw [bind_of_ok (entry_apply h.id m), bind_of_ok (deref_of_some hg), bind_of_ok (get_apply m),
    bind_of_check (hc.address hg)]
  rfl

theorem demanded_entries_gpu (h : LogicalBlockHandle) (resident prefetched : Bool)
    (m : TieredBlockManager) (i : ℕ) :
    ((demanded h resident prefetched m).entries i).gpu = (m.entries i).gpu := by
  cases prefetched with
  | false => rfl
  | true =>
    show (Function.update m.entries h.id { m.entries h.id with prefetched := false } i).gpu = _
    by_cases hi : i = h.id
    · rw [hi, Function.update_self]
    · rw [Function.update_of_ne hi]

theorem pinned_entries_gpu (h : LogicalBlockHandle) (m : TieredBlockManager) (i : ℕ) :
    ((pinned h m).entries i).gpu = (m.entries i).gpu := by
  rw [pinned_entries]
  by_cases hi : i = h.id
  · rw [hi, Function.update_self]
  · rw [Function.update_of_ne hi]

theorem demanded_transfers (h : LogicalBlockHandle) (resident prefetched : Bool)
    (m : TieredBlockManager) : (demanded h resident prefetched m).transfers = m.transfers := by
  cases prefetched <;> rfl

theorem demanded_logical (h : LogicalBlockHandle) (resident prefetched : Bool)
    (m : TieredBlockManager) : (demanded h resident prefetched m).logical = m.logical := by
  cases prefetched <;> rfl

/-- **A resident block is leased**, or a count is exhausted and nothing has happened. -/
theorem leaseBlock_post {resident prefetched : Bool} (hc : Clients c held leases m)
    (hv : m.logical.Valid (raw h)) (hp : (m.entries h.id).phase = some .resident)
    (hmark : prefetched = true → (m.entries h.id).prefetched = true) : Post
    (fun l m' => l.handle = h ∧ Settled c held (l ::ₘ leases) m m')
    (fun e m' => m' = m ∧ NotCapacity e) (leaseBlock h resident prefetched m) := by
  unfold leaseBlock
  rw [bind_of_ok (checked_of_valid hv)]
  refine Post.ensure (fun _ => ?_) fun _ => ⟨rfl, fun he => by cases he⟩
  have hretain := (retain_post hc h).mono (fun _ _ h => h) fun e m' h =>
    (h : m' = m ∧ NotCapacity e)
  refine hretain.bind fun _ m₁ h₁ => ?_
  obtain ⟨hm₁, hc₁⟩ := h₁
  obtain ⟨-, -, g, hg⟩ := Entry.phase_resident.mp hp
  have hentries₁ : m₁.entries = m.entries := by rw [hm₁]; rfl
  have htransfers₁ : m₁.transfers = m.transfers := by rw [hm₁]; rfl
  have haddress := hc.inv.steady.core.address hg
  have hc₂ : Clients c held (⟨h, m.transfers.pool.base + g.id * m.blockBytes⟩ ::ₘ leases)
      (pinned h m₁) := by
    refine Clients.pinned (l := ⟨h, m.transfers.pool.base + g.id * m.blockBytes⟩) hc₁ ?_ ?_
    · rw [hentries₁]
      exact hp
    · refine ⟨g, by rw [hentries₁]; exact hg, ?_⟩
      unfold blockBytes
      rw [htransfers₁]
  have hc₃ : Clients c held (⟨h, m.transfers.pool.base + g.id * m.blockBytes⟩ ::ₘ leases)
      (demanded h resident prefetched (pinned h m₁)) := hc₂.demanded
    (hc₁.valid (Multiset.mem_cons_self _ _)) fun hpre => by
      rw [pinned_entries, Function.update_self, hentries₁]
      exact hmark hpre
  have htransfers₃ : (demanded h resident prefetched (pinned h m₁)).transfers = m.transfers := by
    rw [demanded_transfers]
    exact htransfers₁
  have hgpu₃ : ∀ i, ((demanded h resident prefetched (pinned h m₁)).entries i).gpu =
      (m.entries i).gpu := fun i => by
    rw [demanded_entries_gpu, pinned_entries_gpu, hentries₁]
  have hlease := leaseOf_ok hc₃.inv.steady.core ((hgpu₃ h.id).trans hg)
  rw [bind_of_ok (modify_apply _ _), bind_of_ok (modify_apply _ _), bind_of_ok (modify_apply _ _)]
  have hrun : (if prefetched = true then
      modify (modifyEntry h.id fun e => { e with prefetched := false }) >>= fun _ => leaseOf h
      else leaseOf h) ((pinned h m₁).countDemand resident prefetched) =
      leaseOf h (demanded h resident prefetched (pinned h m₁)) := by
    cases prefetched <;> rfl
  show Post _ _ ((if prefetched = true then
      modify (modifyEntry h.id fun e => { e with prefetched := false }) >>= fun _ => leaseOf h
      else leaseOf h) ((pinned h m₁).countDemand resident prefetched))
  rw [hrun, hlease]
  have hbytes₃ : (demanded h resident prefetched (pinned h m₁)).blockBytes = m.blockBytes := by
    unfold blockBytes
    rw [htransfers₃]
  rw [htransfers₃, hbytes₃]
  refine ⟨rfl, hc₃, ⟨hbytes₃, by rw [htransfers₃], ?_, fun i _ _ => hgpu₃ i,
    spares_of_eq (by rw [htransfers₃])⟩, fun i => ?_⟩
  · unfold gpuCapacity
    rw [htransfers₃]
  · rw [demanded_logical]
    show (m₁.logical.slots i).generation = _
    rw [hm₁]
    show ((m.logical.retained h.id).slots i).generation = _
    rw [retained_slots]
    split_ifs with hi
    · rw [hi]
    · rfl

/-- The steps of `acquire_gpu` before the lease. -/
theorem acquireGpu_of_valid (hv : m.logical.Valid (raw h)) : acquireGpu h m =
    (load h >>= fun _ => checked h >>= fun e =>
      if e.location = .transferring then
        wait >>= fun _ => leaseBlock h (decide ((m.entries h.id).location = .gpuResident))
          (m.entries h.id).prefetched
      else leaseBlock h (decide ((m.entries h.id).location = .gpuResident))
        (m.entries h.id).prefetched) m := by
  unfold acquireGpu
  rw [bind_of_ok (checked_of_valid hv)]
  rfl

/-- **The outcomes of `acquire_gpu`**: the block is leased in its slot, or the clients have what
they had; a slot is lacking only when every slot is leased. -/
theorem acquireGpu_post (hc : Clients c held leases m) (h : LogicalBlockHandle) : Post
    (fun l m' => l.handle = h ∧ m.logical.Valid (raw h) ∧ Settled c held (l ::ₘ leases) m m')
    (fun e m' => Settled c held leases m m' ∧ (e = .capacityError → Full m'))
    (acquireGpu h m) := by
  by_cases hv : m.logical.Valid (raw h)
  swap
  · unfold acquireGpu
    rw [bind_of_error (checked_of_not_valid hv)]
    exact ⟨hc.settled hc.inv (Frame.refl m), fun he => by cases he⟩
  rw [acquireGpu_of_valid hv]
  have hload := (load_post hc.inv h).mono (fun _ _ h => h) fun e m' hr =>
    (⟨hc.settled hr.inv hr.frame, hr.full⟩ :
      Settled c held leases m m' ∧ (e = .capacityError → Full m'))
  refine hload.bind fun _ m₁ h₁ => ?_
  have hv₁ : m₁.logical.Valid (raw h) := by rwa [h₁.frame.logical]
  rw [bind_of_ok (checked_of_valid hv₁)]
  -- the lease of a block that is in its slot, behind the moves
  have hlease : ∀ m₂, Inv c m₂ → Frame m m₂ → (m₂.entries h.id).phase = some .resident →
      ((m.entries h.id).prefetched = true → (m₂.entries h.id).prefetched = true) → Post
      (fun l m' => l.handle = h ∧ m.logical.Valid (raw h) ∧ Settled c held (l ::ₘ leases) m m')
      (fun e m' => Settled c held leases m m' ∧ (e = .capacityError → Full m'))
      (leaseBlock h (decide ((m.entries h.id).location = .gpuResident))
        (m.entries h.id).prefetched m₂) := by
    intro m₂ hi₂ hframe₂ hp₂ hmark₂
    have hc₂ := hc.moved hi₂ hframe₂
    have hv₂ : m₂.logical.Valid (raw h) := by rwa [hframe₂.logical]
    refine (leaseBlock_post hc₂ hv₂ hp₂ hmark₂).mono
      (fun l m' hl => ⟨hl.1, hv, hl.2.after hframe₂⟩) fun e m' hl => ?_
    rw [hl.1]
    exact ⟨hc.settled hi₂ hframe₂, fun he => absurd he hl.2⟩
  obtain ⟨p, hp⟩ := h₁.inv.steady.core.exists_phase h.id
  have hlocation := (Entry.of_phase hp).1
  have hready : p.waited = .resident := by
    cases p with
    | stored => exact absurd hp h₁.here.1
    | saving => exact absurd hp h₁.here.2
    | _ => rfl
  refine Post.ite (fun _ => ?_) fun hstill => ?_
  · have hwait := (wait_post h₁.inv).mono (fun _ _ h => h) fun e m' hb =>
      (⟨hc.settled hb.inv (h₁.frame.trans hb.frame), fun he => absurd he hb.notCapacity⟩ :
        Settled c held leases m m' ∧ (e = .capacityError → Full m'))
    refine hwait.bind fun _ m₂ h₂ => ?_
    refine hlease m₂ h₂.inv (h₁.frame.trans h₂.frame) ?_ fun hm => (h₂.mark h.id).trans (h₁.mark hm)
    rw [h₂.phase, hp, Option.map_some, hready]
  · refine hlease m₁ h₁.inv h₁.frame ?_ h₁.mark
    rw [hlocation] at hstill
    cases p with
    | resident => exact hp
    | stored => exact absurd hp h₁.here.1
    | _ => exact absurd rfl hstill

/-! ## `read_block` -/

/-- **The outcomes of a blocking read of a slot.** -/
theorem readSlot_post (hc : Clients c held leases m) (g : BlockHandle) (size : Option ℕ) : Post
    (fun bytes m' => bytes = m.transfers.memory g.id ∧ Inv c m' ∧ Frame m m' ∧
      m'.transfers = m.transfers ∧ m'.entries = m.entries)
    (fun e m' => (Inv c m' ∧ Frame m m' ∧ m'.transfers = m.transfers ∧ m'.entries = m.entries) ∧
      NotCapacity e) (readSlot g size m) := by
  unfold readSlot
  rw [bind_of_ok (draw_eq CudaAnswer.readFault m)]
  generalize (m.answers.headD .success).readFault = fault
  obtain ⟨hi, hframe⟩ := hc.inv.device m.answers.tail
    (onDevice_drawn fault.isSome m).faults
  have hdrawn : Inv c (drawn fault.isSome m) ∧ Frame m (drawn fault.isSome m) := ⟨hi, hframe⟩
  have hthrows := readBlock_throws fault g size ((drawn fault.isSome m).transfers.pool,
    (drawn fault.isSome m).transfers.memory)
  unfold onSlots
  rcases GpuMemoryPool.readBlock_cases fault g size (drawn fault.isSome m).transfers.pool
    (drawn fault.isSome m).transfers.memory with ⟨e, hrun⟩ | ⟨-, hrun⟩
  · rw [hrun] at hthrows ⊢
    exact ⟨⟨hi, hframe, rfl, rfl⟩, hthrows⟩
  · rw [hrun]
    exact ⟨rfl, hi, hframe, rfl, rfl⟩

/-- The end of the lease of a read. -/
theorem Settled.unpinned (hs : Settled c held (l ::ₘ leases) m m') (hi : Inv c m'')
    (hf : Frame m' m'') (htransfers : m''.transfers = m'.transfers)
    (hentries : m''.entries = m'.entries) :
    ∃ m₃, unpin l.handle m'' = .ok () m₃ ∧ Settled c held leases m m₃ := by
  have hc := hs.clients.moved hi hf
  have hmem : l ∈ l ::ₘ leases := Multiset.mem_cons_self _ _
  obtain ⟨hrun, hc₃⟩ := unpin_ok hc hmem
  have hend := hc.settled_unpin hmem
  rw [Multiset.erase_cons_head] at hc₃
  refine ⟨_, hrun, hc₃, hs.stays.quiet (hend.stays.blockBytes.trans hf.blockBytes)
    (hend.stays.base.trans hf.base) (hend.stays.capacity.trans hf.capacity) (fun i _ hpins => ?_) ?_,
    fun i => ?_⟩
  · have hquiet := unpin_quiet l.handle (hc.pins_ne hmem) hpins
    rwa [hentries] at hquiet
  · rw [returned_history, unpinned_eq]
    exact congrArg Transfers.history htransfers
  · exact ((hend.sameBlockIds i).trans (hf.sameBlockIds i)).trans (hs.sameBlockIds i)

/-- **The outcomes of `read_block`**: it delivers the bytes of the block, and its lease ends also
when the read fails. -/
theorem readBlock_post (hc : Clients c held leases m) (h : LogicalBlockHandle) (size : Option ℕ) :
    Post (fun bytes m' => bytes = c h.id ∧ m.logical.Valid (raw h) ∧ Settled c held leases m m')
      (fun e m' => Settled c held leases m m' ∧ (e = .capacityError → Full m'))
      (readBlock h size m) := by
  unfold readBlock
  rw [bind_of_ok (get_apply m)]
  refine Post.ensure (fun _ => ?_) fun _ =>
    ⟨hc.settled hc.inv (Frame.refl m), fun he => by cases he⟩
  refine ((acquireGpu_post hc h).mono (fun _ _ hl => hl) fun _ _ he => he).bind fun l m₁ h₁ => ?_
  obtain ⟨rfl, hv, hs⟩ := h₁
  have hc₁ := hs.clients
  have hmem : l ∈ l ::ₘ leases := Multiset.mem_cons_self _ _
  have hv₁ := hc₁.leased_valid hmem
  obtain ⟨g, hg, -, hbytes⟩ := hc₁.lease_bytes hmem
  have hread := readSlot_post hc₁ g size
  rw [← hbytes]
  have hrun : (do
      let e ← checked l.handle
      let g ← deref e
      readSlot g size : TieredCall Bytes) m₁ = readSlot g size m₁ := by
    rw [bind_of_ok (checked_of_valid hv₁), bind_of_ok (deref_of_some hg)]
  cases hslot : readSlot g size m₁ with
  | ok bytes m₂ =>
    obtain ⟨hval, hi, hf, htransfers, hentries⟩ := hread.of_ok hslot
    obtain ⟨m₃, hunpin, hs₃⟩ := hs.unpinned hi hf htransfers hentries
    rw [bind_of_ok (onError_ok.mpr (hrun.trans hslot)), bind_of_ok hunpin]
    exact ⟨hval, hv, hs₃⟩
  | error e m₂ =>
    obtain ⟨⟨hi, hf, htransfers, hentries⟩, hcap⟩ := hread.of_error hslot
    obtain ⟨m₃, hunpin, hs₃⟩ := hs.unpinned hi hf htransfers hentries
    rw [bind_of_error (onError_clean (hrun.trans hslot) hunpin)]
    exact ⟨hs₃, fun he => absurd he hcap⟩

/-! ## `create` -/

/-- The handle of a new block. -/
def newHandle (slot : BlockHandle) : LogicalBlockHandle := ⟨slot.id, slot.generation⟩

/-- The buffers have changed. -/
def withBuffers (buffers : ℕ → PinnedStorage) (m : TieredBlockManager) : TieredBlockManager :=
  { m with transfers := { m.transfers with buffers := buffers } }

/-- A block is allocated. -/
def allocated (slot : BlockHandle) (mgr : BlockManager) (m : TieredBlockManager) :
    TieredBlockManager :=
  (m.withLogical mgr).setEntry slot.id { live := true, handle := newHandle slot }

/-- A block is allocated, and its buffer has its bytes. -/
def created (slot : BlockHandle) (mgr : BlockManager) (bytes : Bytes) (m : TieredBlockManager) :
    TieredBlockManager :=
  (allocated slot mgr m).withBuffers (Function.update m.transfers.buffers slot.id
    { m.transfers.buffers slot.id with bytes := bytes })

theorem created_entries (slot : BlockHandle) (mgr : BlockManager) (bytes : Bytes)
    (m : TieredBlockManager) : (created slot mgr bytes m).entries =
      Function.update m.entries slot.id { live := true, handle := newHandle slot } := rfl

theorem created_buffers (slot : BlockHandle) (mgr : BlockManager) (bytes : Bytes)
    (m : TieredBlockManager) : (created slot mgr bytes m).transfers.buffers =
      Function.update m.transfers.buffers slot.id
        { m.transfers.buffers slot.id with bytes := bytes } := rfl

/-- The slot of a new block was not in use. -/
theorem Clients.unused (hc : Clients c held leases m) (ha : allocate m.logical = .ok slot mgr) :
    m.entries slot.id = {} ∧ slot.id < m.logical.capacity := by
  obtain ⟨hlt, hrefs, -⟩ := allocate_ok hc.inv.steady.core.shaped ha
  have hold := hc.inv.steady.core.entry slot.id
  refine ⟨hold.idle ?_, hlt⟩
  cases hlive : (m.entries slot.id).live with
  | false => rfl
  | true => exact absurd hrefs (hc.refs_ne (hold.live.mp hlive))

/-- The buffer of an unused block is not on the stream. -/
theorem Inv.buffer_idle (hi : Inv c m) (hm : ¬ (m.entries i).Moving) :
    (m.transfers.buffers i).busy = false := by
  rw [← Bool.not_eq_true, hi.steady.core.ledger.busy, List.append_nil, hi.steady.underway]
  intro hbuffer
  obtain ⟨w, hw, hid⟩ := mem_batchBuffers.mp hbuffer
  obtain ⟨h, hh, rfl⟩ := List.mem_map.mp hw
  refine hm ?_
  rw [← hid]
  exact hi.steady.core.moving.of_mem hh

theorem copyFrom_full {storage : PinnedStorage} (hbusy : storage.busy = false)
    (hlength : bytes.length = storage.size) :
    PinnedStorage.copyFrom (some bytes) 0 storage = .ok () { storage with bytes := bytes } := by
  have hdata : storage.data = .ok storage.bytes := by
    unfold PinnedStorage.data
    rw [hbusy]
    rfl
  have hrest : storage.bytes.drop (0 + bytes.length) = [] := by
    rw [zero_add, hlength]
    exact List.drop_length
  unfold PinnedStorage.copyFrom
  rw [bind_of_ok (get_apply storage)]
  simp only
  rw [bind_of_ok (ensure_apply ⟨Nat.zero_le _, by omega⟩), bind_of_check hdata, hrest,
    List.take_zero, List.nil_append, List.append_nil]
  rfl

/-- **The bytes of a new block are copied** into its buffer. -/
theorem copyIn_ok (hi : Inv c m) (hlt : slot.id < m.logical.capacity)
    (hunused : m.entries slot.id = {}) (hlength : bytes.length = m.blockBytes) :
    create.copyIn slot.id bytes (allocated slot mgr m) = .ok () (created slot mgr bytes m) := by
  have hbusy := hi.buffer_idle (i := slot.id) (by
    rw [hunused]
    exact fun hm => by rcases hm with hm | hm <;> cases hm)
  have hcopy : PinnedStorage.copyFrom (some bytes) 0
      ((allocated slot mgr m).transfers.buffers slot.id) =
      .ok () { m.transfers.buffers slot.id with bytes := bytes } :=
    copyFrom_full hbusy (hlength.trans (hi.steady.core.sizes slot.id hlt).symm)
  unfold create.copyIn
  simp only [hcopy]
  rfl

/-- **A new block** keeps the invariant. -/
theorem Clients.created (hc : Clients c held leases m) (ha : allocate m.logical = .ok slot mgr)
    (hlength : bytes.length = m.blockBytes) :
    Clients (Function.update c slot.id bytes) (newHandle slot ::ₘ held) leases
      (created slot mgr bytes m) := by
  have hcore := hc.inv.steady.core
  obtain ⟨hunused, hlt⟩ := hc.unused ha
  obtain ⟨-, -, -, hslot, hothers, hcapacity, -⟩ := allocate_ok hcore.shaped ha
  obtain ⟨howned, hne⟩ := hc.owned.allocated hcore.shaped ha
  have hentries := created_entries slot mgr bytes m
  have hself : (TieredBlockManager.created slot mgr bytes m).entries slot.id =
      { live := true, handle := newHandle slot } := by rw [hentries, Function.update_self]
  have hbuffers := created_buffers slot mgr bytes m
  have hsize : ∀ b, ((TieredBlockManager.created slot mgr bytes m).transfers.buffers b).size =
      (m.transfers.buffers b).size := fun b => by
    rw [hbuffers]
    by_cases hb : b = slot.id
    · rw [hb, Function.update_self]
      exact hlength.trans (hcore.sizes slot.id hlt).symm
    · rw [Function.update_of_ne hb]
  have hheld : (TieredBlockManager.created slot mgr bytes m).held = m.held :=
    held_same hcapacity hentries (by rw [hunused])
  have hnm : ¬ (m.entries slot.id).Moving := by
    rw [hunused]
    exact fun hm => by rcases hm with hm | hm <;> cases hm
  have hnw : ¬ (m.entries slot.id).Waiting := by
    rw [hunused]
    exact fun hw => by cases hw
  have hnm' : ¬ ({ live := true, handle := newHandle slot } : Entry).Moving :=
    fun hm => by rcases hm with hm | hm <;> cases hm
  have hnw' : ¬ ({ live := true, handle := newHandle slot } : Entry).Waiting := fun hw => by cases hw
  have hcore' : Core (Function.update c slot.id bytes) none m.pending m.queued
      (TieredBlockManager.created slot mgr bytes m) := by
    refine hcore.replace (hcore.shaped.allocated ha) hcapacity (fun j hj => ?_)
      (fun j hj => Function.update_of_ne hj _ _) hentries rfl ?_ hcore.unpublished rfl hsize
      (fun j hj => ?_) (fun _ _ _ _ => ⟨rfl, rfl⟩) (fun g hg => by cases hg) (fun _ _ hx => hx) ?_
      ?_ ?_ (hcore.lru_same rfl hentries ?_)
    · show (mgr.slots j).free = _ ∧ (mgr.slots j).generation = _
      rw [hothers j hj]
      exact ⟨rfl, rfl⟩
    · rw [hheld]
      refine hcore.ledger.callers hcore.ledger.good hcore.ledger.owned rfl rfl fun b => ?_
      rw [hbuffers]
      by_cases hb : b = slot.id
      · rw [hb, Function.update_self]
      · rw [Function.update_of_ne hb]
    · rw [hbuffers, Function.update_of_ne hj]
    · refine ⟨?_, fun hl => ?_, ?_, fun _ => ?_, fun hp => ?_, fun _ hp => ?_, fun _ => ?_,
        fun _ _ => ?_, fun g hg => ?_⟩
      · rw [hself]
        exact Option.some_ne_none Phase.stored
      · rw [hself] at hl
        cases hl
      · rw [hself]
        refine iff_of_true rfl ?_
        show (mgr.slots slot.id).free = false
        rw [hslot]
      · rw [hself]
        show newHandle slot = ⟨slot.id, (mgr.slots slot.id).generation⟩
        rw [hslot]
        rfl
      · rw [hself] at hp
        exact absurd rfl hp
      · rw [hself] at hp
        cases hp
      · rw [Function.update_self]
        exact hlength
      · rw [hbuffers, Function.update_self, Function.update_self]
      · rw [hself] at hg
        cases hg
    · rw [hentries]
      exact hcore.moving.same (iff_of_false hnm' hnm) fun hm => absurd hm hnm'
    · rw [hentries]
      exact hcore.waiting.same (iff_of_false hnw' hnw) fun hw => absurd hw hnw'
    · rw [hunused]
      exact iff_of_false (fun he => by cases he.1) fun he => by cases he.1
  have hu : Unmoved m (TieredBlockManager.created slot mgr bytes m) := by
    refine ⟨rfl, rfl, fun g hg => ?_, rfl, rfl, rfl, rfl, rfl⟩
    rw [moving_ne hcore hentries hnm hg]
    exact ⟨rfl, rfl⟩
  have hunleased : leasesOf leases slot.id = 0 := by
    by_contra hleased
    obtain ⟨l, hl, hid⟩ := exists_lease hleased
    exact hne (raw l.handle) (mem_owners_lease hl) hid
  refine ⟨hc.inv.renew hu hcore', fun i => ?_, ?_, fun i => ?_, fun l hl => ?_, ?_⟩
  · show (mgr.slots i).cached = false
    by_cases hi : i = slot.id
    · rw [hi, hslot]
    · rw [hothers i hi]
      exact hc.plain i
  · rw [owners_cons]
    exact howned
  · rw [hentries]
    by_cases hi : i = slot.id
    · rw [hi, Function.update_self, hunleased]
    · rw [Function.update_of_ne hi]
      exact hc.pins i
  · have hid : l.handle.id ≠ slot.id := fun he => leasesOf_ne hl (he ▸ hunleased)
    unfold Placed
    rw [entries_ne hentries hid]
    exact hc.placed l hl
  · have hmarks : (TieredBlockManager.created slot mgr bytes m).marks = m.marks := by
      have htotal : (TieredBlockManager.created slot mgr bytes m).outstanding = m.outstanding := by
        unfold outstanding
        rw [hentries, show (TieredBlockManager.created slot mgr bytes m).logical.capacity =
          m.logical.capacity from hcapacity]
        exact total_same (by rw [hunused])
      unfold TieredBlockManager.marks
      rw [htotal]
      rfl
    exact ⟨hc.counted.demands, hc.counted.hits, hc.counted.late, hmarks.trans hc.counted.marks⟩

/-- Only the bytes of the blocks in use matter. -/
theorem Clients.content (hc : Clients c held leases m)
    (h : ∀ i, (m.entries i).live = true → c' i = c i) : Clients c' held leases m :=
  { hc with
    inv := ⟨⟨hc.inv.steady.core.content h, hc.inv.steady.underway, hc.inv.steady.billed⟩,
      hc.inv.reserve⟩ }

/-- What `create` leaves when it returns. -/
structure Created (c : ℕ → Bytes) (held : Multiset LogicalBlockHandle) (leases : Multiset GpuLease)
    (bytes : Bytes) (h : LogicalBlockHandle) (m m' : TieredBlockManager) : Prop where
  clients : Clients (Function.update c h.id bytes) (h ::ₘ held) leases m'
  stays : Stays m m'
  fresh : (m.logical.slots h.id).generation + 1 = h.generation
  generation : (m'.logical.slots h.id).generation = h.generation
  others : ∀ i, i ≠ h.id → (m'.logical.slots i).generation = (m.logical.slots i).generation
  resident : (m'.entries h.id).phase = some .resident

/-- What `create` leaves when it throws. -/
structure NotCreated (c : ℕ → Bytes) (held : Multiset LogicalBlockHandle)
    (leases : Multiset GpuLease) (e : Exn) (m m' : TieredBlockManager) : Prop where
  clients : Clients c held leases m'
  stays : Stays m m'
  generation : ∀ i, (m'.entries i).live = true →
    (m'.logical.slots i).generation = (m.logical.slots i).generation
  full : e = .capacityError → Full m' ∨ ∀ i < m.logical.capacity, (m.entries i).live = true

theorem Clients.notCreated {e : Exn} (hc : Clients c held leases m)
    (hfull : e = .capacityError → ∀ i < m.logical.capacity, (m.entries i).live = true) :
    NotCreated c held leases e m m :=
  ⟨hc, Stays.refl m, fun _ _ => rfl, fun he => .inr (hfull he)⟩

/-- The leases of the other blocks behind a new one. -/
theorem Frame.stays_created (hunused : m.entries slot.id = {})
    (hf : Frame (created slot mgr bytes m) m') : Stays m m' := by
  have hother : ∀ i, (m.entries i).pins ≠ 0 →
      (created slot mgr bytes m).entries i = m.entries i := fun i hi => by
    refine entries_ne (created_entries slot mgr bytes m) fun he => ?_
    rw [he, hunused] at hi
    exact hi rfl
  refine ⟨hf.blockBytes, hf.base, hf.capacity, fun i hi _ => ?_, ?_⟩
  · rw [hf.pinned i (by rwa [hother i hi]), hother i hi]
  · obtain ⟨ws, hws, hspare⟩ := hf.history
    refine ⟨ws, hws, fun w hw g hg i g' hi hg' => ?_⟩
    exact hspare w hw g hg i g' (by rwa [hother i hi]) (by rwa [hother i hi])

/-- **A new block is given up** when it cannot be loaded. -/
theorem Clients.giveUpNew {e : Exn} (hc : Clients c held leases m)
    (ha : allocate m.logical = .ok slot mgr) (hlength : bytes.length = m.blockBytes)
    (hi : Inv (Function.update c slot.id bytes) m')
    (hf : Frame (TieredBlockManager.created slot mgr bytes m) m')
    (hcalm : (m'.entries slot.id).Calm) (hfull : e = .capacityError → Full m') :
    ∃ m'', release (newHandle slot) m' = .ok () m'' ∧ NotCreated c held leases e m m'' := by
  obtain ⟨hunused, -⟩ := hc.unused ha
  obtain ⟨-, -, -, hslot, hothers, -⟩ := allocate_ok hc.inv.steady.core.shaped ha
  have hc' := (hc.created ha hlength).moved hi hf
  have hmem : newHandle slot ∈ newHandle slot ::ₘ held := Multiset.mem_cons_self _ _
  have hrefs : (m'.logical.slots slot.id).refs = 1 := by
    rw [hf.logical]
    show (mgr.slots slot.id).refs = 1
    rw [hslot]
  have hd := destroyed_rest (newHandle slot) m'
  have hstate : TieredBlockManager.returned (newHandle slot) m' =
      TieredBlockManager.destroyed (newHandle slot) m' := if_pos hrefs
  have hc'' := hc'.returned hmem fun _ => hcalm
  rw [Multiset.erase_cons_head, hstate] at hc''
  refine ⟨_, release_ok hc' hmem fun _ => hcalm, ?_⟩
  rw [hstate]
  have hlive : ∀ i, ((TieredBlockManager.destroyed (newHandle slot) m').entries i).live = true →
      i ≠ slot.id := by
    intro i hl he
    rw [hd.entries, he, show (newHandle slot).id = slot.id from rfl, Function.update_self] at hl
    cases hl
  refine ⟨hc''.content fun i hl => (Function.update_of_ne (hlive i hl) _ _).symm, ?_, fun i hl => ?_,
    fun he => .inl ?_⟩
  · have hback := stays_returned (newHandle slot) m'
    rw [hstate] at hback
    refine (hf.stays_created hunused).quiet hback.blockBytes hback.base hback.capacity
      (fun i _ hi => ?_) hd.history
    have hne : i ≠ (newHandle slot).id := fun he => by
      rw [hd.entries, he, Function.update_self] at hi
      exact hi rfl
    rw [entries_ne hd.entries hne] at hi ⊢
    exact ⟨hi, rfl⟩
  · rw [hd.logical, (released_steady _ _ i).1, hf.logical]
    show (mgr.slots i).generation = _
    rw [hothers i (hlive i hl)]
  · refine (hfull he).destroyed ?_
    exact (hc'.pins slot.id).trans (hc'.unleased hmem hrefs)

/-- No block can be allocated for want of one only when all are in use. -/
theorem Clients.allocate_full {mgr : BlockManager} (hc : Clients c held leases m)
    (ha : allocate m.logical = .error .capacityError mgr) :
    ∀ i < m.logical.capacity, (m.entries i).live = true := by
  obtain ⟨free, idle, hs⟩ := hc.inv.steady.core.shaped
  rcases allocate_cases hs with ⟨hfree, -⟩ | ⟨id, -, -, hrun⟩ | ⟨id, fs, -, -, hrun⟩ |
    ⟨id, is, -, -, -, hrun⟩
  · intro i hi
    refine (hc.inv.steady.core.entry i).live.mpr ?_
    cases hslot : (m.logical.slots i).free with
    | false => rfl
    | true =>
      have hmem := (hs.lists.mem_free i).mpr ⟨hi, hslot⟩
      rw [hfree] at hmem
      cases hmem
  all_goals
    rw [hrun] at ha
    cases ha

/-- An allocation that throws changes nothing. -/
theorem allocate_error_eq {mgr : BlockManager} {e : Exn} (hs : Shaped m.logical)
    (ha : allocate m.logical = .error e mgr) : mgr = m.logical := by
  obtain ⟨free, idle, hs⟩ := hs
  rcases allocate_cases hs with ⟨-, -, hrun⟩ | ⟨id, -, -, hrun⟩ | ⟨id, fs, -, -, hrun⟩ |
    ⟨id, is, -, -, -, hrun⟩
  all_goals
    rw [hrun] at ha
    cases ha
  · rfl
  · rfl

/-- **The outcomes of `create`**: a new block in its slot, or nothing that a client can see; slots
or blocks are lacking only when every slot is leased or every block is in use. -/
theorem create_post (hc : Clients c held leases m) (host : Option Bytes) : Post
    (fun h m' => ∃ bytes, host = some bytes ∧ Created c held leases bytes h m m')
    (fun e m' => NotCreated c held leases e m m') (create host m) := by
  unfold create
  rw [bind_of_ok (get_apply m)]
  cases host with
  | none => exact hc.notCreated fun he => by cases he
  | some bytes =>
    refine Post.ensure (fun hlength => ?_) fun _ => hc.notCreated fun he => by cases he
    cases ha : BlockManager.allocate m.logical with
    | error e mgr =>
      have hsame := allocate_error_eq hc.inv.steady.core.shaped ha
      have hrun : onLogical BlockManager.allocate m = .error e m := by
        unfold onLogical
        rw [ha, hsame]
      rw [bind_of_error hrun]
      refine hc.notCreated fun he => ?_
      rw [he] at ha
      exact hc.allocate_full ha
    | ok slot mgr =>
      have hrun : onLogical BlockManager.allocate m = .ok slot (m.withLogical mgr) := by
        unfold onLogical
        rw [ha]
        rfl
      rw [bind_of_ok hrun, bind_of_ok (modify_apply _ _)]
      obtain ⟨hunused, hlt⟩ := hc.unused ha
      obtain ⟨-, -, hgeneration, hslot, hothers, -⟩ := allocate_ok hc.inv.steady.core.shaped ha
      have hc₁ := hc.created ha hlength
      have hcopy : create.copyIn slot.id bytes (allocated slot mgr m) =
          .ok () (created slot mgr bytes m) := copyIn_ok hc.inv hlt hunused hlength
      have hstored : ((created slot mgr bytes m).entries slot.id).phase = some .stored := by
        rw [created_entries, Function.update_self]
        rfl
      show Post _ _ ((onError (create.copyIn slot.id bytes >>= fun _ =>
        load (newHandle slot) >>= fun _ => wait) (release (newHandle slot)) >>= fun _ =>
          pure (newHandle slot)) (allocated slot mgr m))
      -- the bytes are in the buffer; a failure gives the new block up
      have hload : Post
          (fun _ m' => Inv (Function.update c slot.id bytes) m' ∧
            Frame (created slot mgr bytes m) m' ∧ (m'.entries slot.id).phase = some .resident)
          (fun e m' => Inv (Function.update c slot.id bytes) m' ∧
            Frame (created slot mgr bytes m) m' ∧ (m'.entries slot.id).Calm ∧
            (e = .capacityError → Full m'))
          ((load (newHandle slot) >>= fun _ => wait) (created slot mgr bytes m)) := by
        have hfirst := (load_post hc₁.inv (newHandle slot)).mono (fun _ _ h => h)
          fun e m' hr => (⟨hr.inv, hr.frame, hr.calm slot.id hstored, hr.full⟩ :
            Inv (Function.update c slot.id bytes) m' ∧ Frame (created slot mgr bytes m) m' ∧
              (m'.entries slot.id).Calm ∧ (e = .capacityError → Full m'))
        refine hfirst.bind fun _ m₂ h₂ => ?_
        have hp₂ := h₂.started hstored
        refine (wait_post h₂.inv).mono
          (fun _ m₃ h₃ => ⟨h₃.inv, h₂.frame.trans h₃.frame, ?_⟩)
          fun e m₃ hb => ⟨hb.inv, h₂.frame.trans hb.frame, hb.calm slot.id fun hw => ?_,
            fun he => absurd he hb.notCapacity⟩
        · have hp₃ := h₃.phase slot.id
          rw [show (m₂.entries slot.id).phase = some .loading from hp₂] at hp₃
          exact hp₃
        · rw [Entry.Waiting, show (m₂.entries slot.id).phase = some .loading from hp₂] at hw
          cases hw
      have hbody : (create.copyIn slot.id bytes >>= fun _ => load (newHandle slot) >>= fun _ => wait)
          (allocated slot mgr m) =
          (load (newHandle slot) >>= fun _ => wait) (created slot mgr bytes m) := bind_of_ok hcopy
      cases hres : (load (newHandle slot) >>= fun _ => wait) (created slot mgr bytes m) with
      | ok u m₃ =>
        obtain ⟨hi, hf, hp⟩ := hload.of_ok hres
        rw [bind_of_ok (onError_ok.mpr (hbody.trans hres))]
        have hlogical₃ : m₃.logical = mgr := hf.logical
        refine ⟨bytes, rfl, hc₁.moved hi hf, hf.stays_created hunused, hgeneration, ?_,
          fun i hne => ?_, hp⟩
        · rw [hlogical₃, show (newHandle slot).id = slot.id from rfl, hslot]
          rfl
        · rw [hlogical₃, hothers i hne]
      | error e m₃ =>
        obtain ⟨hi, hf, hcalm, hfull⟩ := hload.of_error hres
        obtain ⟨m₄, hrelease, hnot⟩ := hc.giveUpNew ha hlength hi hf hcalm hfull
        rw [bind_of_error (onError_clean (hbody.trans hres) hrelease)]
        exact hnot

end KVFlux.TieredBlockManager
