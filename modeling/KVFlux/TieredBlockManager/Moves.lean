import KVFlux.TieredBlockManager.Finish

/-!
# Starting a move

* `Core.accepted`: the runtime accepts every move; **`submitMove_post`**: it is on the stream, or the
  stream has failed.
* `giveUp_ok`: what follows a failed submission.
* **`startLoad_cases`**, **`startOffload_cases`**: a move is started, or every move is given up.
-/

namespace KVFlux.TieredBlockManager

open Fallible BlockManager AsyncTransfer Table

variable {c : ℕ → Bytes} {x x' : Option ℕ} {ps ps' qs qs' : List LogicalBlockHandle}
  {m m' m'' : TieredBlockManager} {i : ℕ} {e : Entry} {h : LogicalBlockHandle} {g : BlockHandle}
  {write : Bool} {mgr : BlockManager}

/-! ## Handles -/

theorem checked_of_valid (hv : m.logical.Valid (raw h)) : checked h m = .ok (m.entries h.id) m := by
  have hrefs : m.logical.refCount (raw h) = .ok (m.logical.slots h.id).refs := by
    unfold BlockManager.refCount
    rw [BlockManager.checked_ok _ hv]
    rfl
  unfold checked
  rw [bind_of_ok (get_apply m), bind_of_check hrefs]
  rfl

theorem checked_of_not_valid (hv : ¬ m.logical.Valid (raw h)) :
    checked h m = .error staleHandle m := by
  have hrefs : m.logical.refCount (raw h) = .error staleHandle := by
    unfold BlockManager.refCount
    rw [BlockManager.checked_error _ hv]
    rfl
  unfold checked
  rw [bind_of_ok (get_apply m), hrefs]
  rfl

/-- A valid handle is the one of its entry. -/
theorem Core.of_valid (hc : Core c x ps qs m) (hv : m.logical.Valid (raw h)) :
    (m.entries h.id).live = true ∧ (m.entries h.id).handle = h := by
  have hold := hc.entry h.id
  have hlive := hold.live.mpr hv.2.1
  have hgeneration : (m.logical.slots h.id).generation = h.generation := hv.2.2
  refine ⟨hlive, (hold.handle hlive).trans ?_⟩
  rw [hgeneration]

theorem entry_apply (i : ℕ) (m : TieredBlockManager) : entry i m = .ok (m.entries i) m := rfl

theorem deref_of_some (hg : e.gpu = some g) : deref e m = .ok g m := by
  unfold deref
  rw [hg]
  rfl

/-! ## Submitting -/

/-- A slot is owned once. -/
theorem Core.count_held (hc : Core c x ps qs m) (hg : (m.entries i).gpu = some g) :
    (m.held.map BlockHandle.id).count g.id = 1 := by
  have hlt := hc.lt_capacity (hc.live_of_gpu hg)
  have hsplit : m.held = (m.entries i).slots +
      ∑ j ∈ (Finset.range m.logical.capacity).erase i, (m.entries j).slots :=
    (Finset.add_sum_erase _ (fun j => (m.entries j).slots) (Finset.mem_range.mpr hlt)).symm
  rw [hsplit, Entry.slots_some hg, Multiset.map_add, Multiset.count_add, Multiset.map_singleton,
    Multiset.count_singleton_self, Multiset.count_eq_zero.mpr]
  intro hm
  obtain ⟨g', hg', hid⟩ := Multiset.mem_map.mp hm
  obtain ⟨j, hj, hg'⟩ := Multiset.mem_sum.mp hg'
  have hgpu : (m.entries j).gpu = some g' := by
    cases hgpu : (m.entries j).gpu with
    | none =>
      rw [Entry.slots_none hgpu] at hg'
      exact absurd hg' (Multiset.notMem_zero g')
    | some g'' =>
      rw [Entry.slots_some hgpu] at hg'
      rw [Multiset.mem_singleton.mp hg']
  exact (Finset.mem_erase.mp hj).1 (hc.distinct i j g g' hg hgpu hid.symm).symm

/-- Neither the slot nor the buffer of a block without a batch is in use. -/
theorem Core.landed (hc : Core c x (ps ++ [h]) qs m) (hu : Underway ps m)
    (hg : (m.entries h.id).gpu = some g) : g.id ∉ batchIds m.transfers.runtime.pending ∧
      h.id ∉ batchBuffers m.transfers.runtime.pending := by
  have hnodup := hc.moving.nodup
  rw [List.map_append, List.nodup_append] at hnodup
  have hne : ∀ h' ∈ ps, h'.id ≠ h.id := fun h' hh' =>
    hnodup.2.2 h'.id (List.mem_map_of_mem hh') h.id (List.mem_singleton_self _)
  rw [hu]
  refine ⟨fun hm => ?_, fun hm => ?_⟩
  · obtain ⟨w, hw, g', hg', hid⟩ := mem_batchIds.mp hm
    obtain ⟨h', hh', rfl⟩ := List.mem_map.mp hw
    exact hne h' hh' (hc.distinct h'.id h.id g' g (Option.mem_toList.mp hg') hg hid)
  · obtain ⟨w, hw, hid⟩ := mem_batchBuffers.mp hm
    obtain ⟨h', hh', rfl⟩ := List.mem_map.mp hw
    exact hne h' hh' hid

/-- **The runtime accepts every move.** -/
theorem Core.accepted (hc : Core c x (ps ++ [h]) qs m) (hu : Underway ps m)
    (hg : (m.entries h.id).gpu = some g)
    (hp : (m.entries h.id).phase = some (if write = true then .loading else .saving)) :
    Accepted m.transfers [g] h.id write ∧ (m.transfers.pool.manager.slots g.id).refs = 1 := by
  have hlive := hc.live_of_gpu hg
  have hlt := hc.lt_capacity hlive
  obtain ⟨hslot, hbuffer⟩ := hc.landed hu hg
  have howned := hc.ledger.owned
  have hvalid := howned.valid g (Multiset.mem_add.mpr (.inr (hc.mem_held hg)))
  have hcount : ((batchBlocks m.transfers.runtime.pending).map BlockHandle.id).count g.id = 0 :=
    List.count_eq_zero.mpr hslot
  have hrefs : (m.transfers.pool.manager.slots g.id).refs = 1 := by
    rw [howned.refs_eq, List.append_nil, Multiset.map_add, Multiset.count_add, hc.count_held hg,
      Multiset.map_coe, Multiset.coe_count, hcount]
  have hsize := hc.sizes h.id hlt
  have hpos : 0 < m.transfers.pool.blockBytes := hc.bytes_pos
  have hsize' : (m.transfers.buffers h.id).size = m.transfers.pool.blockBytes := hsize
  refine ⟨⟨List.cons_ne_nil _ _, ?_, ?_, ?_, fun g' hg' => ?_, List.nodup_singleton _⟩, hrefs⟩
  · rw [hsize', Nat.div_self hpos]
    rfl
  · rw [hsize', Nat.mod_self]
  · rw [← Bool.not_eq_true, hc.ledger.busy, List.append_nil]
    exact hbuffer
  · rw [List.mem_singleton.mp hg']
    refine ⟨hvalid, by rw [hrefs]; decide, ?_, fun _ => ⟨hrefs, hc.unpublished g.id⟩, fun hw => ?_⟩
    · rw [← Bool.not_eq_true, hc.ledger.inFlight, List.append_nil]
      exact hslot
    · refine ((hc.entry h.id).kept g hg ?_).2
      rw [hp, hw]
      decide

/-- The batch of a move in `Core.accepted`. -/
theorem batch_of_phase (hg : (m.entries h.id).gpu = some g)
    (hp : (m.entries h.id).phase = some (if write = true then .loading else .saving)) :
    m.batch h = ⟨[g], h.id, write⟩ := by
  unfold batch
  rw [hg]
  cases write with
  | true =>
    rw [(Entry.phase_loading.mp hp).2.1]
    rfl
  | false =>
    rw [(Entry.phase_saving.mp hp).2.1]
    rfl

/-- **A batch is on the stream.** -/
theorem Core.submitted {r : ℕ} (hc : Core c x (ps ++ [h]) qs m) (hu : Underway ps m)
    (hg : (m.entries h.id).gpu = some g)
    (hp : (m.entries h.id).phase = some (if write = true then .loading else .saving))
    (hled : Ledger m.held [] (submitted ⟨[g], h.id, write⟩ r m.transfers)) :
    Core c x (ps ++ [h]) qs
      { m with transfers := submitted ⟨[g], h.id, write⟩ r m.transfers } ∧
    Underway (ps ++ [h]) { m with transfers := submitted ⟨[g], h.id, write⟩ r m.transfers } := by
  refine ⟨hc.transfers hled (sameBlocks_addRefs _ _) rfl (fun b => ?_) (fun j _ _ _ => ?_)
    (fun j g' hg' hp' => ⟨rfl, ?_⟩), ?_⟩
  · unfold PinnedStorage.size
    rw [submitted_bytes]
  · rw [submitted_bytes]
  · rw [submitted_initialized, if_neg]
    rintro ⟨hw, hm⟩
    -- only the slot of the load itself loses its flag
    have hid : g'.id = g.id := List.mem_singleton.mp hm
    rw [hc.distinct j h.id g' g hg' hg hid, hp] at hp'
    have hwrite : write = true := hw
    rw [if_pos hwrite] at hp'
    exact hp' rfl
  · show m.transfers.runtime.pending ++ [_] = _
    rw [hu, List.map_append, List.map_singleton]
    exact congrArg _ (congrArg (fun w => [w]) (batch_of_phase hg hp).symm)

/-- What a submission leaves of the state. -/
structure Submitted (c : ℕ → Bytes) (x : Option ℕ) (ps qs : List LogicalBlockHandle)
    (h : LogicalBlockHandle) (m m' : TieredBlockManager) : Prop where
  device : OnDevice m m'
  core : Core c x ps qs m'
  history : ∃ ws, m'.transfers.history = m.transfers.history ++ ws ∧ ∀ w ∈ ws, w = m.batch h

theorem submitMove_eq (write : Bool) (hg : (m.entries h.id).gpu = some g) :
    ∃ fault : Option SubmitFault, submitMove h write m =
      onTransfers (submit fault [g] h.id write) (drawn fault.isSome m) := by
  refine ⟨(m.answers.headD .success).submitFault, ?_⟩
  unfold submitMove
  rw [bind_of_ok (entry_apply h.id m), bind_of_ok (deref_of_some hg), bind_of_ok (draw_eq _ _)]
  cases write <;> rfl

/-- A submission that fails has a failure of the device. -/
theorem Core.submit_faulty {fault : Option SubmitFault} {e : Exn} {t : Transfers}
    (hc : Core c x (ps ++ [h]) qs m) (hu : Underway ps m) (hg : (m.entries h.id).gpu = some g)
    (hp : (m.entries h.id).phase = some (if write = true then .loading else .saving))
    (he : submit fault [g] h.id write m.transfers = .error e t) : fault ≠ none := by
  rintro rfl
  obtain ⟨haccepted, hrefs⟩ := hc.accepted hu hg hp
  obtain ⟨r, -, hok⟩ := submit_ok hc.ledger haccepted fun g' hg' => by
    rw [List.mem_singleton.mp hg', hrefs]
    decide
  rw [he] at hok
  cases hok

theorem faults_drawn {φ : Type} {fault : Option φ} (hne : fault ≠ none) :
    (drawn fault.isSome m).faults ≠ 0 := by
  show (if fault.isSome = true then m.faults + 1 else m.faults) ≠ 0
  rw [if_pos (Option.isSome_iff_ne_none.mpr hne)]
  exact Nat.succ_ne_zero _

/-- **The outcomes of a submission**: the batch is on the stream, or the device has failed. -/
theorem submitMove_post (write : Bool) (hc : Core c x (ps ++ [h]) qs m) (hu : Underway ps m)
    (hg : (m.entries h.id).gpu = some g)
    (hp : (m.entries h.id).phase = some (if write = true then .loading else .saving)) :
    Post
      (fun _ m' => Submitted c x (ps ++ [h]) qs h m m' ∧ Underway (ps ++ [h]) m' ∧
        (Billed [] m → Billed [] m'))
      (fun e m' => Submitted c x (ps ++ [h]) qs h m m' ∧
        (∃ ps', (∀ h' ∈ ps', h' ∈ ps ++ [h]) ∧ Underway ps' m') ∧ m'.faults ≠ 0 ∧ NotCapacity e)
      (submitMove h write m) := by
  obtain ⟨fault, hrun⟩ := submitMove_eq write hg
  have hbatch := batch_of_phase hg hp
  have hdrawn : (drawn fault.isSome m).transfers = m.transfers := rfl
  have hthrows : ∀ {e t}, submit fault [g] h.id write m.transfers = .error e t → NotCapacity e :=
    fun he => (submit_throws fault [g] h.id write).of_error he
  rw [hrun]
  rcases submit_cases fault [g] h.id write hc.ledger with
    ⟨e, r, he⟩ | ⟨-, r, hled, ⟨-, hok⟩ | ⟨e, mgr, -, he, hsame, hled'⟩⟩
  · -- nothing is on the stream
    rw [onTransfers_apply (hdrawn ▸ he)]
    have hdevice : OnDevice m { drawn fault.isSome m with transfers := withRecycled r m.transfers } :=
      onDevice_transfers rfl rfl rfl
    have hcore : Core c x (ps ++ [h]) qs { m with transfers := withRecycled r m.transfers } :=
      hc.transfers (hc.ledger.frame rfl rfl fun _ => rfl) (SameBlocks.refl _) rfl (fun _ => rfl)
        (fun _ _ _ _ => rfl) fun _ _ _ _ => ⟨rfl, rfl⟩
    exact ⟨⟨hdevice, hdevice.core hcore, [], (List.append_nil _).symm,
      fun _ hw => absurd hw List.not_mem_nil⟩, ⟨ps, fun _ hh => List.mem_append_left _ hh, hu⟩,
      faults_drawn (hc.submit_faulty hu hg hp he), hthrows he⟩
  · rw [onTransfers_apply (hdrawn ▸ hok)]
    obtain ⟨hcore, hunder⟩ := hc.submitted hu hg hp hled
    have hdevice : OnDevice m { drawn fault.isSome m with
        transfers := submitted ⟨[g], h.id, write⟩ r m.transfers } := onDevice_transfers rfl rfl rfl
    refine ⟨⟨hdevice, hdevice.core hcore, [⟨[g], h.id, write⟩], rfl, fun w hw => ?_⟩, hunder,
      fun hb hf => ?_⟩
    · rw [List.mem_singleton.mp hw, hbatch]
    · have hfaults : m.faults = 0 := Nat.le_zero.mp (hdevice.faults.trans_eq hf)
      exact hb hfaults
  · -- the stream has refused a call, what is on it is given up
    rw [onTransfers_apply (hdrawn ▸ he)]
    obtain ⟨hcore, hunder⟩ := hc.submitted hu hg hp hled
    have hgiven := hcore.givenUp (fun _ hh => hh) hunder (.inl rfl) hsame hled'
    have hdevice : OnDevice m { drawn fault.isSome m with
        transfers := finished false mgr (spoil (submitDamage fault)
          (submitted ⟨[g], h.id, write⟩ r m.transfers)) } :=
      onDevice_transfers hsame.capacity (finished_blockBytes _ _ _) (finished_base _ _ _)
    refine ⟨⟨hdevice, hdevice.core hgiven, [⟨[g], h.id, write⟩], finished_history _ _ _,
      fun w hw => ?_⟩,
      ⟨[], fun _ hh => absurd hh List.not_mem_nil, rfl⟩,
      faults_drawn (hc.submit_faulty hu hg hp he), hthrows he⟩
    rw [List.mem_singleton.mp hw, hbatch]

/-- The batch of a block without a lease spares the leased slots. -/
theorem Submitted.spares (hs : Submitted c x ps qs h m m') (hc : Core c x ps qs m)
    (hpins : (m.entries h.id).pins = 0) : Spares m m' := by
  obtain ⟨ws, hws, hbatch⟩ := hs.history
  refine ⟨ws, hws, fun w hw g hg i g' hi hg' he => hi ?_⟩
  rw [hbatch w hw] at hg
  rw [← hc.distinct h.id i g g' (Option.mem_toList.mp hg) hg' he]
  exact hpins

/-! ## Giving up -/

/-- **What follows a failed submission** gives every move up. -/
theorem giveUp_ok (qs : List LogicalBlockHandle)
    (hc : Core c x m.pending (m.queued ++ qs) m) (hsub : ∀ h ∈ ps', h ∈ m.pending)
    (hu : Underway ps' m) (hx : x = none ∨ ∃ h ∈ m.pending, x = some h.id) (hf : m.faults ≠ 0) :
    ∃ m', giveUp m = .ok () m' ∧ Reverted c qs m m' := by
  have hsync : Drained c x m.pending (m.queued ++ qs) m (finalState (synchronizeTransfers m)) :=
    ((synchronizeTransfers_post hc hsub hu).mono (fun _ _ h => h.1) fun _ _ h => h.1).finalState
  have hdevice := hsync.device
  have hpending := hdevice.pending
  have hqueued := hdevice.queued
  have hframe := hdevice.frame (spares_of_eq hsync.history)
  have hf' : (finalState (synchronizeTransfers m)).faults ≠ 0 := fun he =>
    hf (Nat.le_zero.mp (hdevice.faults.trans_eq he))
  obtain ⟨m', hfinish, hreverted⟩ := finish_false qs (by
      rw [hpending, hqueued]
      exact hsync.core) hsync.underway (by rwa [hpending]) hf'
  refine ⟨m', ?_, hreverted.after hframe fun i hi => by rwa [hdevice.entries]⟩
  have hignore : ignoreErrors synchronizeTransfers m =
      .ok () (finalState (synchronizeTransfers m)) := rfl
  unfold giveUp
  rw [bind_of_ok hignore, hfinish]

/-! ## Loads -/

/-- The entry of a block that is being loaded into the slot `g`. -/
def Entry.loadingInto (g : BlockHandle) (e : Entry) : Entry :=
  { e with gpu := some g, location := .transferring, move := .toGpu }

/-- The state of a load before its submission. -/
def loadBegun (g : BlockHandle) (mgr : BlockManager) (h : LogicalBlockHandle)
    (m : TieredBlockManager) : TieredBlockManager :=
  { slotTaken g mgr m with
    entries := Function.update m.entries h.id ((m.entries h.id).loadingInto g)
    pending := m.pending ++ [h] }

theorem loadBegun_entries (g : BlockHandle) (mgr : BlockManager) (h : LogicalBlockHandle)
    (m : TieredBlockManager) : (loadBegun g mgr h m).entries =
      Function.update m.entries h.id ((m.entries h.id).loadingInto g) := rfl

theorem loadBegun_eq (g : BlockHandle) (mgr : BlockManager) (h : LogicalBlockHandle)
    (m : TieredBlockManager) : beginMove h .toGpu
      (modifyEntry h.id (fun e => { e with gpu := some g }) (slotTaken g mgr m)) =
      loadBegun g mgr h m := by
  have hset : modifyEntry h.id (fun e => { e with gpu := some g }) (slotTaken g mgr m) =
      setEntry h.id { m.entries h.id with gpu := some g } (slotTaken g mgr m) := rfl
  unfold beginMove
  rw [hset, modifyEntry_setEntry]
  rfl

theorem phase_loadingInto (g : BlockHandle) (e : Entry) :
    (e.loadingInto g).phase = some .loading := rfl

/-- **A load begins.** -/
theorem Core.loadBegun (hc : Core c x ps qs m) (hfresh : Fresh m g mgr)
    (hlive : (m.entries h.id).live = true) (hhandle : (m.entries h.id).handle = h)
    (hp : (m.entries h.id).phase = some .stored) :
    Core c (settled x h.id) (ps ++ [h]) qs (loadBegun g mgr h m) ∧
      Frame m (TieredBlockManager.loadBegun g mgr h m) := by
  have hentries := loadBegun_entries g mgr h m
  have hgpu := (Entry.phase_stored.mp hp).2.2
  have hpins : (m.entries h.id).pins = 0 := hc.pins_eq (by rw [hp]; decide)
  have hphase := phase_loadingInto g (m.entries h.id)
  have hheld : (TieredBlockManager.loadBegun g mgr h m).held = g ::ₘ m.held :=
    held_enter rfl hentries (hc.lt_capacity hlive) hgpu rfl
  have hold := hc.entry h.id
  obtain ⟨hnm, hnw⟩ := not_moving_of_phase hp (.inr rfl)
  refine ⟨hc.update rfl hentries rfl (hheld ▸ hfresh.ledger) hfresh.unpublished rfl (fun _ => rfl)
    (fun _ _ => rfl) (fun j g' _ hg' => ⟨rfl, ?_⟩) (fun g' hg' j g'' _ hg'' => ?_)
    (fun j hj hx => settled_eq hj hx) ?_ (hc.moving.push hhandle hnm (.inl hphase)) ?_ ?_, ?_⟩
  · exact Function.update_of_ne (hfresh.unowned j g' hg').symm _ _
  · rw [← Option.some.inj hg']
    exact hfresh.unowned j g'' hg''
  · refine hold.of_live (e := (m.entries h.id).loadingInto g) hlive rfl rfl (Function.update_self ..)
      rfl rfl (by rw [hphase]; exact Option.some_ne_none _) (fun hp' => absurd hpins hp')
      (fun _ _ => by rw [hphase]; decide) (fun _ => hold.backed hlive (.inl hp))
      fun _ _ hp' => absurd hphase hp'
  · have hnw' : ¬ ((m.entries h.id).loadingInto g).Waiting := by
      rw [Entry.Waiting, hphase]
      decide
    rw [hentries]
    exact hc.waiting.same (iff_of_false hnw' hnw) fun hw => absurd hw hnw'
  · exact hc.lru_same rfl hentries (iff_of_false (Entry.not_evictable hphase (by decide))
      (Entry.not_evictable hp (by decide)))
  · exact frame_entry hentries rfl hfresh.capacity rfl rfl rfl hpins ⟨rfl, rfl, hpins⟩ rfl

/-- A state between two moves: the loads of `qs` wait. -/
structure Steady (c : ℕ → Bytes) (x : Option ℕ) (qs : List LogicalBlockHandle)
    (m : TieredBlockManager) : Prop where
  core : Core c x m.pending qs m
  underway : Underway m.pending m
  billed : Billed [] m

/-- What a move that has started leaves alone. -/
structure Begun (c : ℕ → Bytes) (p : Phase) (qs : List LogicalBlockHandle) (h : LogicalBlockHandle)
    (m m' : TieredBlockManager) : Prop where
  steady : Steady c none qs m'
  frame : Frame m m'
  pending : m'.pending = m.pending ++ [h]
  queued : m'.queued = m.queued
  phase : (m'.entries h.id).phase = some p
  others : ∀ j, j ≠ h.id → m'.entries j = m.entries j

theorem Reverted.steady (h : Reverted c qs m m') : Steady c none qs m' where
  core := by
    rw [h.pending]
    exact h.core
  underway := by
    rw [h.pending]
    exact h.underway
  billed := fun hf => absurd hf h.faults

/-- **The outcomes of `start_load`**: the load is started, or there is no slot and nothing has
happened, or every move is given up. -/
theorem startLoad_cases (hs : Steady c x (m.queued ++ qs) m) (hv : m.logical.Valid (raw h))
    (hp : (m.entries h.id).phase = some .stored) (hx : x = none ∨ x = some h.id) :
    (∃ m', startLoad h m = .ok () m' ∧ Begun c .loading (m.queued ++ qs) h m m' ∧
      m'.owning = m.owning + 1 ∧ (m'.entries h.id).prefetched = (m.entries h.id).prefetched) ∨
    (∃ e, startLoad h m = .error e m ∧ (e = .capacityError → m.remainingBlocks = 0)) ∨
    ∃ e m', startLoad h m = .error e m' ∧ NotCapacity e ∧ Reverted c qs m m' := by
  obtain ⟨hlive, hhandle⟩ := hs.core.of_valid hv
  unfold startLoad
  rw [bind_of_ok (checked_of_valid hv)]
  rcases hs.core.allocate_slot with ⟨g, mgr, halloc, hfresh⟩ | ⟨e, halloc, hfull⟩
  swap
  · exact .inr (.inl ⟨e, bind_of_error halloc, hfull⟩)
  rw [bind_of_ok halloc, bind_of_ok (modify_apply _ _), bind_of_ok (modify_apply _ _), loadBegun_eq]
  obtain ⟨hc₁, hframe₁⟩ := hs.core.loadBegun hfresh hlive hhandle hp
  have hsettled : settled x h.id = none := by
    rcases hx with rfl | rfl
    · rfl
    · exact if_pos rfl
  rw [hsettled] at hc₁
  have hself : (loadBegun g mgr h m).entries h.id = (m.entries h.id).loadingInto g :=
    Function.update_self ..
  have hu₁ : Underway m.pending (loadBegun g mgr h m) := by
    have hnodup := hc₁.moving.nodup
    rw [List.map_append, List.nodup_append] at hnodup
    refine Eq.trans hs.underway (batch_congr fun h' hh' => ?_).symm
    have hne : h'.id ≠ h.id :=
      hnodup.2.2 h'.id (List.mem_map_of_mem hh') h.id (List.mem_singleton_self _)
    rw [loadBegun_entries, Function.update_of_ne hne]
  have hpost := submitMove_post true hc₁ hu₁ (g := g) (by rw [hself]; rfl)
    (by rw [hself]; rfl)
  have hpins : ((loadBegun g mgr h m).entries h.id).pins = 0 := by
    rw [hself]
    exact hs.core.pins_eq (by rw [hp]; decide)
  cases hsubmit : submitMove h true (loadBegun g mgr h m) with
  | ok u m' =>
    obtain ⟨hsub, hu', hb⟩ := hpost.of_ok hsubmit
    have hpending : m'.pending = m.pending ++ [h] := hsub.device.pending
    have hentries := hsub.device.entries
    refine .inl ⟨m', onError_ok.mpr hsubmit, ⟨⟨?_, ?_, hb hs.billed⟩,
      hframe₁.trans (hsub.device.frame (hsub.spares hc₁ hpins)), hpending, hsub.device.queued, ?_,
      fun j hj => ?_⟩, ?_, ?_⟩
    · rw [hpending]
      exact hsub.core
    · rw [hpending]
      exact hu'
    · rw [hentries, hself]
      rfl
    · rw [hentries, loadBegun_entries, Function.update_of_ne hj]
    · have hlogical : (loadBegun g mgr h m).logical = m.logical := rfl
      have howning := owning_update (congrArg BlockManager.capacity hlogical)
        (loadBegun_entries g mgr h m)
        (hs.core.lt_capacity hlive)
      rw [(Entry.phase_stored.mp hp).2.2] at howning
      have hsame : m'.owning = (loadBegun g mgr h m).owning := by
        unfold owning
        rw [hentries, hsub.device.logical]
      rw [hsame]
      exact howning
    · rw [hentries, hself]
      rfl
  | error e m₁ =>
    obtain ⟨hsub, ⟨ps', hps', hu'⟩, hf, hcap⟩ := hpost.of_error hsubmit
    have hpending : m₁.pending = m.pending ++ [h] := hsub.device.pending
    have hqueued : m₁.queued = m.queued := hsub.device.queued
    obtain ⟨m', hgive, hreverted⟩ := giveUp_ok qs (by
      rw [hpending, hqueued]
      exact hsub.core) (by rwa [hpending]) hu' (.inl rfl) hf
    refine .inr (.inr ⟨e, m', onError_clean hsubmit hgive, hcap, hreverted.after
      (hframe₁.trans (hsub.device.frame (hsub.spares hc₁ hpins))) fun i hi => ?_⟩)
    rw [hsub.device.entries, loadBegun_entries]
    by_cases hj : i = h.id
    · rw [hj, Function.update_self]
      exact .inr rfl
    · rwa [Function.update_of_ne hj]

/-! ## Offloads -/

/-- The entry of a block that is being saved. -/
def Entry.saved (e : Entry) : Entry := { e with location := .transferring, move := .toCpu }

theorem Entry.phase_saved (hg : e.gpu = some g) : e.saved.phase = some .saving :=
  Entry.phase_saving.mpr ⟨rfl, rfl, g, hg⟩

/-- The state of an offload before its submission. -/
def offloadBegun (h : LogicalBlockHandle) (m : TieredBlockManager) : TieredBlockManager :=
  beginMove h .toCpu (eraseLru h.id m)

theorem offloadBegun_entries (h : LogicalBlockHandle) (m : TieredBlockManager) :
    (offloadBegun h m).entries = Function.update m.entries h.id (m.entries h.id).saved := rfl

/-- **An offload begins**; its mark is not settled yet. -/
theorem Core.offloadBegun (hc : Core c none ps qs m) (hhandle : (m.entries h.id).handle = h)
    (hev : (m.entries h.id).Evictable) :
    Core c (some h.id) (ps ++ [h]) qs (offloadBegun h m) ∧
      Frame m (TieredBlockManager.offloadBegun h m) := by
  obtain ⟨hp, hpins⟩ := hev
  have hentries := offloadBegun_entries h m
  obtain ⟨-, -, g, hg⟩ := Entry.phase_resident.mp hp
  have hlive := hc.live_of_gpu hg
  have hphase := Entry.phase_saved hg
  have hheld : (TieredBlockManager.offloadBegun h m).held = m.held := held_same rfl hentries rfl
  have hold := hc.entry h.id
  obtain ⟨hnm, hnw⟩ := not_moving_of_phase hp (.inl rfl)
  refine ⟨hc.update rfl hentries rfl (hheld.symm ▸ hc.ledger) hc.unpublished rfl (fun _ => rfl)
    (fun _ _ => rfl) (fun _ _ _ _ => ⟨rfl, rfl⟩) (fun g' hg' j g'' hj hg'' he => ?_)
    (fun j _ hx => by cases hx) ?_ (hc.moving.push hhandle hnm (.inr hphase)) ?_ ?_, ?_⟩
  · exact hj (hc.distinct h.id j g' g'' hg' hg'' he).symm
  · refine hold.of_live (e := (m.entries h.id).saved) hlive rfl rfl (Function.update_self ..)
      rfl rfl (by rw [hphase]; exact Option.some_ne_none _) (fun hp' => absurd hpins hp')
      (fun hx => absurd rfl hx) (fun hp' => ?_)
      fun g' hg' _ => hold.kept g' hg' (by rw [hp]; decide)
    rw [hphase] at hp'
    rcases hp' with hp' | hp' | hp' <;> cases hp'
  · have hnw' : ¬ (m.entries h.id).saved.Waiting := by
      rw [Entry.Waiting, hphase]
      decide
    rw [hentries]
    exact hc.waiting.same (iff_of_false hnw' hnw) fun hw => absurd hw hnw'
  · refine hc.lru.erase fun j => ?_
    rw [hentries]
    by_cases hj : j = h.id
    · rw [hj, Function.update_self]
      refine iff_of_false (fun he => ?_) fun he => he.1 rfl
      have := he.1
      rw [hphase] at this
      cases this
    · rw [Function.update_of_ne hj]
      exact (and_iff_right hj).symm
  · exact frame_entry hentries rfl rfl rfl rfl rfl hpins ⟨rfl, rfl, hpins⟩ rfl

theorem underway_congr (hu : Underway ps m)
    (he : ∀ h ∈ ps, (m'.entries h.id).gpu = (m.entries h.id).gpu ∧
      (m'.entries h.id).move = (m.entries h.id).move)
    (hruntime : m'.transfers.runtime = m.transfers.runtime) : Underway ps m' := by
  unfold Underway
  rw [hruntime, hu]
  refine List.map_congr_left fun h hh => ?_
  unfold batch
  rw [(he h hh).1, (he h hh).2]

theorem billed_congr (hb : Billed [] m) (hruntime : m'.transfers.runtime = m.transfers.runtime)
    (hbytes : m'.blockBytes = m.blockBytes) (hoffloads : m'.offloads = m.offloads)
    (hloads : m'.loads = m.loads) (hfaults : m'.faults = m.faults) : Billed [] m' := by
  intro hf
  rw [hruntime, hbytes, hoffloads, hloads]
  exact hb (hfaults.symm.trans hf)

/-- A discarded mark between two moves. -/
theorem Steady.discard (hs : Steady c x qs m) (hx : ∀ j, j ≠ i → x = some j → x' = some j) :
    Steady c x' qs (discardPrefetch i m) := by
  have hpending : (discardPrefetch i m).pending = m.pending := by rw [discardPrefetch_eq]
  refine ⟨?_, ?_, billed_congr hs.billed ?_ ?_ ?_ ?_ ?_⟩
  · rw [hpending]
    exact hs.core.discard hx
  · rw [hpending]
    refine underway_congr hs.underway (fun h _ => ?_) (by rw [discardPrefetch_eq])
    rw [discardPrefetch_entries]
    by_cases hj : h.id = i
    · rw [hj, Function.update_self]
      exact ⟨rfl, rfl⟩
    · rw [Function.update_of_ne hj]
      exact ⟨rfl, rfl⟩
  · rw [discardPrefetch_eq]
  · rw [discardPrefetch_eq]
    rfl
  all_goals rw [discardPrefetch_eq]

/-- **The outcomes of `start_offload`**: the offload is started, or every move is given up. -/
theorem startOffload_cases (hs : Steady c none (m.queued ++ qs) m)
    (hv : m.logical.Valid (raw h)) (hev : (m.entries h.id).Evictable) :
    (∃ m', startOffload h m = .ok () m' ∧ Begun c .saving (m.queued ++ qs) h m m' ∧
      m'.owning = m.owning) ∨
    ∃ e m', startOffload h m = .error e m' ∧ NotCapacity e ∧ Reverted c qs m m' := by
  obtain ⟨hlive, hhandle⟩ := hs.core.of_valid hv
  obtain ⟨-, -, g, hg⟩ := Entry.phase_resident.mp hev.1
  unfold startOffload
  rw [bind_of_ok (checked_of_valid hv), bind_of_ok (modify_apply _ _), bind_of_ok (modify_apply _ _)]
  show (∃ m', onError _ giveUp (offloadBegun h m) = .ok () m' ∧ _) ∨
    ∃ e m', onError _ giveUp (offloadBegun h m) = .error e m' ∧ _
  obtain ⟨hc₁, hframe₁⟩ := hs.core.offloadBegun hhandle hev
  have hself : (offloadBegun h m).entries h.id = (m.entries h.id).saved := Function.update_self ..
  have hu₁ : Underway m.pending (offloadBegun h m) := by
    have hnodup := hc₁.moving.nodup
    rw [List.map_append, List.nodup_append] at hnodup
    refine Eq.trans hs.underway (batch_congr fun h' hh' => ?_).symm
    have hne : h'.id ≠ h.id :=
      hnodup.2.2 h'.id (List.mem_map_of_mem hh') h.id (List.mem_singleton_self _)
    rw [offloadBegun_entries, Function.update_of_ne hne]
  have hpost := submitMove_post false hc₁ hu₁ (g := g) (by rw [hself]; exact hg)
    (by rw [hself]; exact Entry.phase_saved hg)
  have hpins : ((offloadBegun h m).entries h.id).pins = 0 := by
    rw [hself]
    exact hev.2
  cases hsubmit : submitMove h false (offloadBegun h m) with
  | ok u m₁ =>
    obtain ⟨hsub, hu', hb⟩ := hpost.of_ok hsubmit
    have hpending : m₁.pending = m.pending ++ [h] := hsub.device.pending
    have hentries := hsub.device.entries
    have hsteady : Steady c (some h.id) (m.queued ++ qs) m₁ := by
      refine ⟨?_, ?_, hb hs.billed⟩
      · rw [hpending]
        exact hsub.core
      · rw [hpending]
        exact hu'
    have hlive₁ : h.id < m₁.logical.capacity := by
      rw [hsub.device.logical]
      exact hs.core.lt_capacity hlive
    have hframe := hframe₁.trans (hsub.device.frame (hsub.spares hc₁ hpins))
    have hdiscard := cancelled_discard (i := h.id) hlive₁ (by rw [hentries]; exact hpins)
    refine .inl ⟨discardPrefetch h.id m₁, onError_ok.mpr (bind_of_ok hsubmit), ⟨?_,
      hframe.trans hdiscard.frame, hdiscard.pending.trans hpending,
      hdiscard.queued.trans hsub.device.queued, ?_, fun j hj => ?_⟩, ?_⟩
    · exact hsteady.discard fun j hj he => absurd (Option.some.inj he).symm hj
    · rw [discardPrefetch_entries, Function.update_self, hentries, phase_unmarked, hself]
      exact Entry.phase_saved hg
    · rw [discardPrefetch_entries, Function.update_of_ne hj, hentries, offloadBegun_entries,
        Function.update_of_ne hj]
    · have hlogical : (discardPrefetch h.id m₁).logical = m.logical :=
        hdiscard.frame.logical.trans hsub.device.logical
      have hupdate : (discardPrefetch h.id m₁).entries =
          Function.update m.entries h.id { (m.entries h.id).saved with prefetched := false } := by
        rw [discardPrefetch_entries, hentries, hself, offloadBegun_entries, Function.update_idem]
      have howning := owning_update (congrArg BlockManager.capacity hlogical) hupdate
        (hs.core.lt_capacity hlive)
      exact Nat.add_right_cancel howning
  | error e m₁ =>
    obtain ⟨hsub, ⟨ps', hps', hu'⟩, hf, hcap⟩ := hpost.of_error hsubmit
    have hpending : m₁.pending = m.pending ++ [h] := hsub.device.pending
    have hqueued : m₁.queued = m.queued := hsub.device.queued
    obtain ⟨m', hgive, hreverted⟩ := giveUp_ok qs (by
      rw [hpending, hqueued]
      exact hsub.core) (by rwa [hpending]) hu'
      (.inr ⟨h, by rw [hpending]; exact List.mem_append_right _ (List.mem_singleton_self h), rfl⟩) hf
    refine .inr ⟨e, m', onError_clean (bind_of_error hsubmit) hgive, hcap, hreverted.after
      (hframe₁.trans (hsub.device.frame (hsub.spares hc₁ hpins))) fun i hi => ?_⟩
    rw [hsub.device.entries, offloadBegun_entries]
    by_cases hj : i = h.id
    · rw [hj, hev.1] at hi
      rcases hi with hi | hi <;> cases hi
    · rwa [Function.update_of_ne hj]

end KVFlux.TieredBlockManager
