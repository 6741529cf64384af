import KVFlux.TieredBlockManager.Calls
import KVFlux.Lib.Transition

/-!
# A tiered block manager and its clients

* `Session`: the state of the manager; the ghost fields say what the clients own and what the blocks
  should contain.
* `Action`, **`step`**: one call with the answers of the device, or a kernel that writes through a
  lease. `Allowed`: clients return what they own.
* `Start`: a new manager; `start_sound`.
* **`step_kept`**: a step keeps the session sound and its leases in place; **`reachable_sound`**.
-/

namespace KVFlux.TieredBlockManager

open Fallible BlockManager AsyncTransfer Table Transition

/-- The ghost fields: the references `held`, the leases, and the bytes of each block as given at
`create` or last written through a lease. -/
structure Session where
  manager : TieredBlockManager
  held : Multiset LogicalBlockHandle := 0
  leases : Multiset GpuLease := 0
  content : LogicalBlockHandle → Bytes := fun _ => []

inductive Request
  | create (host : Option Bytes)
  | retain (h : LogicalBlockHandle)
  | release (h : LogicalBlockHandle)
  | acquireGpu (h : LogicalBlockHandle)
  | dropLease (l : GpuLease)
  | writeLease (l : GpuLease) (bytes : Bytes)
  | readBlock (h : LogicalBlockHandle) (size : Option ℕ)
  | offload (h : LogicalBlockHandle)
  | load (h : LogicalBlockHandle)
  | wait
  | poll
  | prefetchNext (order : List LogicalBlockHandle) (current nextN : ℕ)

/-- A request with the answers of the device to it. -/
structure Action where
  request : Request
  answers : List CudaAnswer := []

/-- A kernel writes the block at an address. -/
def kernelWrite (address : ℕ) (bytes : Bytes) (m : TieredBlockManager) : TieredBlockManager :=
  { m with
    transfers := { m.transfers with
      memory := Function.update m.transfers.memory
        ((address - m.transfers.pool.base) / m.blockBytes) bytes } }

/-- The device will give these answers. -/
def armed (answers : List CudaAnswer) (m : TieredBlockManager) : TieredBlockManager :=
  { m with answers := answers }

namespace Session

/-- A call on the manager; `f` records what it returned. -/
def call {α : Type} (x : TieredCall α) (f : α → Session → Session) (answers : List CudaAnswer)
    (s : Session) : Session :=
  match x (s.manager.armed answers) with
  | .ok a m => f a { s with manager := m }
  | .error _ m => { s with manager := m }

/-- One step. -/
def step (a : Action) (s : Session) : Option Session :=
  some <| match a.request with
  | .create host =>
    s.call (TieredBlockManager.create host) (fun h s => { s with
      held := h ::ₘ s.held, content := Function.update s.content h (host.getD []) }) a.answers
  | .retain h =>
    s.call (TieredBlockManager.retain h) (fun _ s => { s with held := h ::ₘ s.held }) a.answers
  | .release h =>
    s.call (TieredBlockManager.release h) (fun _ s => { s with held := s.held.erase h }) a.answers
  | .acquireGpu h =>
    s.call (TieredBlockManager.acquireGpu h) (fun l s => { s with leases := l ::ₘ s.leases })
      a.answers
  | .dropLease l =>
    s.call (unpin l.handle) (fun _ s => { s with leases := s.leases.erase l }) a.answers
  | .writeLease l bytes => { s with
      manager := s.manager.kernelWrite l.address bytes
      content := Function.update s.content l.handle bytes }
  | .readBlock h size => s.call (TieredBlockManager.readBlock h size) (fun _ s => s) a.answers
  | .offload h => s.call (TieredBlockManager.offload h) (fun _ s => s) a.answers
  | .load h => s.call (TieredBlockManager.load h) (fun _ s => s) a.answers
  | .wait => s.call TieredBlockManager.wait (fun _ s => s) a.answers
  | .poll => s.call TieredBlockManager.poll (fun _ s => s) a.answers
  | .prefetchNext order current nextN =>
    s.call (TieredBlockManager.prefetchNext order current nextN) (fun _ s => s) a.answers

/-- A client returns what it owns (a stale handle is rejected), and a kernel writes one block
through a lease. -/
def Allowed (s : Session) (a : Action) : Prop :=
  match a.request with
  | .release h => h ∈ s.held ∨ ¬ s.manager.logical.Valid (raw h)
  | .dropLease l => l ∈ s.leases
  | .writeLease l bytes => l ∈ s.leases ∧ bytes.length = s.manager.blockBytes
  | _ => True

instance (s : Session) (a : Action) : Decidable (s.Allowed a) := by
  unfold Allowed
  cases a.request <;> infer_instance

/-- A new manager without clients. -/
def Start (s : Session) : Prop :=
  (∃ gpu cpu bytes tokens device c, make gpu cpu bytes tokens device c = .ok s.manager) ∧
    s.held = 0 ∧ s.leases = 0

end Session

variable {c c' : ℕ → Bytes} {x x' : Option ℕ} {ps qs : List LogicalBlockHandle}
  {m m' m'' : TieredBlockManager} {i : ℕ} {e : Entry} {h : LogicalBlockHandle} {g : BlockHandle}
  {held held' : Multiset LogicalBlockHandle} {leases leases' : Multiset GpuLease} {l : GpuLease}
  {bytes : Bytes} {content : LogicalBlockHandle → Bytes} {logical logical' : BlockManager}

/-! ## The bytes of the blocks -/

/-- The bytes of the blocks of the current generations. -/
def contents (content : LogicalBlockHandle → Bytes) (logical : BlockManager) (i : ℕ) : Bytes :=
  content ⟨i, (logical.slots i).generation⟩

theorem contents_same
    (hs : ∀ i, (logical'.slots i).generation = (logical.slots i).generation) :
    contents content logical' = contents content logical := by
  funext i
  unfold contents
  rw [hs i]

/-- **One block gets other bytes**, and perhaps a new generation. -/
theorem contents_update (hself : (logical'.slots h.id).generation = h.generation)
    (hothers : ∀ i, i ≠ h.id → (logical'.slots i).generation = (logical.slots i).generation) :
    contents (Function.update content h bytes) logical' =
      Function.update (contents content logical) h.id bytes := by
  funext i
  unfold contents
  by_cases hi : i = h.id
  · rw [hi, hself, Function.update_self, Function.update_self]
  · rw [Function.update_of_ne hi, Function.update_of_ne, hothers i hi]
    exact fun he => hi (congrArg LogicalBlockHandle.id he)

/-! ## Writing through a lease -/

theorem kernelWrite_eq (bytes : Bytes) (hc : Clients c held leases m)
    (haddress : l.address = m.transfers.pool.base + g.id * m.blockBytes) :
    (kernelWrite l.address bytes m).transfers.memory =
      Function.update m.transfers.memory g.id bytes := by
  have hslot : (l.address - m.transfers.pool.base) / m.blockBytes = g.id := by
    rw [haddress, Nat.add_sub_cancel_left, Nat.mul_div_cancel _ hc.inv.steady.core.bytes_pos]
  unfold kernelWrite
  rw [hslot]

/-- **A kernel writes through a lease**, and changes the bytes of its block only. -/
theorem Clients.written (hc : Clients c held leases m) (hl : l ∈ leases)
    (hlength : bytes.length = m.blockBytes) :
    Clients (Function.update c l.handle.id bytes) held leases (kernelWrite l.address bytes m) := by
  have hcore := hc.inv.steady.core
  obtain ⟨g, hg, haddress⟩ := hc.placed l hl
  have hp := hc.leased_resident hl
  have hmemory := kernelWrite_eq bytes hc haddress
  have hentries : (kernelWrite l.address bytes m).entries =
      Function.update m.entries l.handle.id (m.entries l.handle.id) :=
    (Function.update_eq_self _ _).symm
  have hheld : (kernelWrite l.address bytes m).held = m.held := rfl
  have hold := hcore.entry l.handle.id
  have hcore' : Core (Function.update c l.handle.id bytes) none m.pending m.queued
      (kernelWrite l.address bytes m) := by
    refine hcore.replace hcore.shaped rfl (fun _ _ => ⟨rfl, rfl⟩)
      (fun j hj => Function.update_of_ne hj _ _) hentries rfl
      (hheld ▸ hcore.ledger.callers hcore.ledger.good hcore.ledger.owned rfl rfl fun _ => rfl)
      hcore.unpublished rfl (fun _ => rfl) (fun _ _ => rfl) (fun j g' hj hg' => ⟨?_, rfl⟩)
      (fun g' hg' j g'' hj hg'' he => hj (hcore.distinct _ j g' g'' hg' hg'' he).symm)
      (fun _ _ hx => hx) ⟨hold.shape, hold.idle, hold.live, hold.handle, hold.pinned, hold.marked,
        fun _ => ?_, fun _ hb => ?_, fun g' hg' _ => ?_⟩ hcore.moving hcore.waiting hcore.lru
    · have hne : g'.id ≠ g.id := fun he => hj (hcore.distinct j _ g' g hg' hg he)
      rw [hmemory, Function.update_of_ne hne]
    · rw [Function.update_self]
      exact hlength
    · -- the authoritative copy of a leased block is in its slot
      have hb' : (m.entries l.handle.id).phase = some .stored ∨
        (m.entries l.handle.id).phase = some .loading ∨
        (m.entries l.handle.id).phase = some .queued := hb
      rw [hp] at hb'
      rcases hb' with hb' | hb' | hb' <;> cases hb'
    · have hsame : g' = g := Option.some.inj (hg'.symm.trans hg)
      rw [hmemory, hsame, Function.update_self, Function.update_self]
      refine ⟨rfl, (hold.kept g hg ?_).2⟩
      rw [hp]
      decide
  exact ⟨hc.inv.renew ⟨rfl, rfl, fun _ _ => ⟨rfl, rfl⟩, rfl, rfl, rfl, rfl, rfl⟩ hcore', hc.plain,
    hc.owned, hc.pins, hc.placed, ⟨hc.counted.demands, hc.counted.hits, hc.counted.late,
      hc.counted.marks⟩⟩

/-! ## The start -/

theorem makeBacking_ok {c : Construction} {bytes : ℕ} : ∀ {n : ℕ} {buffers : ℕ → PinnedStorage},
    makeBacking c bytes n = .ok buffers →
    (∀ i < n, (buffers i).size = bytes) ∧ ∀ b, (buffers b).busy = false := by
  intro n
  induction n with
  | zero =>
    intro buffers h
    cases h
    exact ⟨fun i hi => absurd hi (Nat.not_lt_zero i), fun _ => rfl⟩
  | succ n ih =>
    intro buffers h
    obtain ⟨rest, hrest, h⟩ := returns_bind.mp h
    obtain ⟨storage, hstorage, h⟩ := returns_bind.mp h
    cases h
    obtain ⟨hsize, hbusy⟩ := ih hrest
    have hnew : storage = { bytes := (List.range bytes).map (c.fresh n) } := by
      unfold PinnedStorage.make at hstorage
      split_ifs at hstorage
      cases hfault : c.hostFault n with
      | some message =>
        rw [hfault] at hstorage
        cases hstorage
      | none =>
        rw [hfault] at hstorage
        exact (Except.ok.inj hstorage).symm
    refine ⟨fun i hi => ?_, fun b => ?_⟩
    · by_cases hin : i = n
      · rw [hin, Function.update_self, hnew]
        simp [PinnedStorage.size]
      · rw [Function.update_of_ne hin]
        exact hsize i (by omega)
    · by_cases hb : b = n
      · rw [hb, Function.update_self, hnew]
      · rw [Function.update_of_ne hb]
        exact hbusy b

/-- What the constructor builds. -/
theorem make_eq {gpu cpu bytes tokens : ℕ} {device : ℤ} {c : Construction}
    (h : make gpu cpu bytes tokens device c = .ok m) :
    ∃ logical pool buffers,
      BlockManager.new cpu tokens (some GpuMemoryPool.hasher) = .ok logical ∧
      GpuMemoryPool.make gpu bytes tokens device c.pool = .ok pool ∧
      makeBacking c bytes cpu = .ok buffers ∧
      m = { logical := logical
            transfers := { pool := pool, memory := c.memory, buffers := buffers }
            cpuReservedBytes := cpu * bytes } := by
  obtain ⟨capacity, hcapacity, h⟩ := returns_bind.mp h
  obtain ⟨logical, hlogical, h⟩ := returns_bind.mp h
  obtain ⟨pool, hpool, h⟩ := returns_bind.mp h
  obtain ⟨-, -, h⟩ := returns_bind.mp h
  obtain ⟨-, -, h⟩ := returns_bind.mp h
  obtain ⟨buffers, hbuffers, h⟩ := returns_bind.mp h
  have hsame : capacity = cpu := by
    unfold checkedCapacity at hcapacity
    split_ifs at hcapacity
    exact (Except.ok.inj hcapacity).symm
  rw [hsame] at hlogical
  exact ⟨logical, pool, buffers, hlogical, hpool, hbuffers, (Except.ok.inj h).symm⟩

/-- **A new manager** has no blocks. -/
theorem start_clients {gpu cpu bytes tokens : ℕ} {device : ℤ} {k : Construction}
    (h : make gpu cpu bytes tokens device k = .ok m) (c : ℕ → Bytes) : Clients c 0 0 m := by
  obtain ⟨logical, pool, buffers, hlogical, hpool, hbuffers, rfl⟩ := make_eq h
  obtain ⟨hbytes, manager, allocated, base, hmanager, rfl⟩ := GpuMemoryPool.make_eq hpool
  obtain ⟨hsize, hbusy⟩ := makeBacking_ok hbuffers
  have hinit : logical = BlockManager.init cpu tokens := by
    unfold BlockManager.new at hlogical
    split_ifs at hlogical
    exact (Except.ok.inj hlogical).symm
  have hinit' : manager = BlockManager.init gpu tokens := by
    unfold BlockManager.new at hmanager
    split_ifs at hmanager
    exact (Except.ok.inj hmanager).symm
  have hled : Ledger 0 [] { pool := ⟨manager, bytes, allocated, base, fun _ => false, fun _ => false⟩
                            memory := k.memory, buffers := buffers : Transfers } := by
    refine ⟨good_of_new hmanager, ?_, List.nodup_nil, fun i => ?_, List.nodup_nil, fun b => ?_⟩
    · rw [hinit']
      exact owned_init gpu tokens
    · exact iff_of_false Bool.false_ne_true List.not_mem_nil
    · refine iff_of_false (fun hb => ?_) List.not_mem_nil
      cases (hbusy b).symm.trans hb
  have hnone : ∀ p : Entry → Prop, ¬ p {} → Tracks p (fun _ => {}) [] := fun p hp =>
    ⟨List.nodup_nil, fun _ hh => absurd hh List.not_mem_nil,
      fun i => iff_of_false List.not_mem_nil hp⟩
  refine ⟨⟨⟨⟨?_, ?_, fun i => ?_, fun i j g g' hg => ?_, fun i => ?_, hnone _ fun hm => ?_,
    hnone _ fun hw => ?_, listed_empty fun i he => ?_, hbytes, fun i hi => ?_, rfl⟩, rfl,
    fun _ => ⟨?_, ?_⟩⟩, Nat.le_refl 0⟩, fun i => ?_, ?_, fun _ => rfl,
    fun l hl => absurd hl (Multiset.notMem_zero l), ⟨rfl, Nat.le_refl 0, Nat.le_refl 0, ?_⟩⟩
  · exact (good_of_new (H := prefixHash) hlogical).shaped
  · have hheld : held { logical := logical
                        transfers := { pool := ⟨manager, bytes, allocated, base, fun _ => false,
                          fun _ => false⟩, memory := k.memory, buffers := buffers }
                        cpuReservedBytes := cpu * bytes } = 0 := total_zero fun _ _ => rfl
    rw [hheld]
    exact hled
  · show (manager.slots i).cached = false
    rw [hinit']
    rfl
  · cases hg
  · refine ⟨Option.some_ne_none Phase.stored, fun _ => rfl, ?_, fun hl => ?_, fun hp => absurd rfl hp,
      fun _ hp => ?_, fun hl => ?_, fun hl => ?_, fun g hg => ?_⟩
    · show (false = true) ↔ (logical.slots i).free = false
      rw [hinit]
      show (false = true) ↔ (true = false)
      decide
    all_goals contradiction
  · rcases hm with hm | hm <;> cases hm
  · cases hw
  · cases he.1
  · rw [hinit] at hi
    exact hsize i hi
  · show 0 = (0 + 0) * bytes
    omega
  · show 0 = (0 + 0) * bytes
    omega
  · show (logical.slots i).cached = false
    rw [hinit]
    rfl
  · show Owned logical (owners 0 0)
    rw [hinit]
    exact owned_init cpu tokens
  · have hmarks : total logical.capacity (fun e : Entry => if e.prefetched = true then 1 else 0)
        (fun _ => {}) = 0 := total_zero fun _ _ => rfl
    show 0 + 0 + 0 + total logical.capacity
      (fun e : Entry => if e.prefetched = true then 1 else 0) (fun _ => {}) = 0
    rw [hmarks]

/-! ## Runs -/

namespace Session

variable {s s' : Session} {a : Action}

/-- **What holds between two calls.** -/
def Sound (s : Session) : Prop :=
  Clients (contents s.content s.manager.logical) s.held s.leases s.manager

/-- A step keeps the session sound and its leases in place. -/
structure Kept (s s' : Session) : Prop where
  sound : s'.Sound
  stays : Stays s.manager s'.manager

theorem start_sound (hs : Start s) : s.Sound := by
  obtain ⟨⟨gpu, cpu, bytes, tokens, device, c, hmake⟩, hheld, hleases⟩ := hs
  unfold Sound
  rw [hheld, hleases]
  exact start_clients hmake _

/-- The answers of the device are not seen. -/
theorem Sound.armed (hs : s.Sound) (answers : List CudaAnswer) :
    Clients (contents s.content s.manager.logical) s.held s.leases (s.manager.armed answers) ∧
      Frame s.manager (s.manager.armed answers) := by
  obtain ⟨hi, hf⟩ := hs.inv.device answers le_rfl
  exact ⟨hs.moved hi hf, hf⟩

/-- A call that leaves the clients something. -/
theorem kept_of_settled {answers : List CudaAnswer}
    (h : Settled (contents s.content s.manager.logical) held leases (s.manager.armed answers) m)
    (hf : Frame s.manager (s.manager.armed answers)) :
    Kept s { manager := m, held := held, leases := leases, content := s.content } where
  sound := by
    have hsame : contents s.content m.logical = contents s.content s.manager.logical :=
      contents_same h.sameBlockIds
    unfold Sound
    rw [hsame]
    exact h.clients
  stays := h.stays.after hf

/-- A call, outcome by outcome. -/
theorem call_kept {α : Type} {x : TieredCall α} {f : α → Session → Session}
    {answers : List CudaAnswer} {Q : α → TieredBlockManager → Prop}
    {E : Exn → TieredBlockManager → Prop} (hpost : Post Q E (x (s.manager.armed answers)))
    (hok : ∀ a m, Q a m → Kept s (f a { s with manager := m }))
    (herror : ∀ e m, E e m → Kept s { s with manager := m }) : Kept s (s.call x f answers) := by
  unfold call
  cases hx : x (s.manager.armed answers) with
  | ok a m => exact hok a m (hpost.of_ok hx)
  | error e m => exact herror e m (hpost.of_error hx)

/-- A call that moves blocks only. -/
theorem call_moves {α : Type} {x : TieredCall α} {answers : List CudaAnswer} {c : ℕ → Bytes}
    (hs : s.Sound) (hc : c = contents s.content s.manager.logical)
    (hpost : Post (fun _ m => Inv c m ∧ Frame (s.manager.armed answers) m)
      (fun _ m => Inv c m ∧ Frame (s.manager.armed answers) m) (x (s.manager.armed answers))) :
    Kept s (s.call x (fun _ s => s) answers) := by
  obtain ⟨hclients, hf⟩ := hs.armed answers
  subst hc
  exact call_kept hpost (fun _ _ hm => kept_of_settled (hclients.settled hm.1 hm.2) hf)
    fun _ _ hm => kept_of_settled (hclients.settled hm.1 hm.2) hf

theorem create_kept (hs : s.Sound) (host : Option Bytes) (answers : List CudaAnswer) :
    Kept s (s.call (TieredBlockManager.create host) (fun h s => { s with
      held := h ::ₘ s.held, content := Function.update s.content h (host.getD []) }) answers) := by
  obtain ⟨hclients, hf⟩ := hs.armed answers
  refine call_kept (create_post hclients host) (fun h m hm => ?_) fun e m hm => ?_
  · obtain ⟨bytes, rfl, hnew⟩ := hm
    refine ⟨?_, hnew.stays.after hf⟩
    unfold Sound
    show Clients (contents (Function.update s.content h bytes) m.logical) _ _ m
    have hcontents : contents (Function.update s.content h bytes) m.logical =
        Function.update (contents s.content s.manager.logical) h.id bytes :=
      contents_update hnew.generation hnew.others
    rw [hcontents]
    exact hnew.clients
  · exact ⟨hm.clients.content fun i hl => congrArg s.content (by rw [hm.generation i hl]; rfl),
      hm.stays.after hf⟩

theorem retain_kept (hs : s.Sound) (h : LogicalBlockHandle) (answers : List CudaAnswer) :
    Kept s (s.call (TieredBlockManager.retain h) (fun _ s => { s with held := h ::ₘ s.held })
      answers) := by
  obtain ⟨hclients, hf⟩ := hs.armed answers
  refine call_kept (retain_post hclients h) (fun _ m hm => ?_) fun e m hm => ?_
  · obtain ⟨rfl, hc⟩ := hm
    refine kept_of_settled ⟨hc, ⟨rfl, rfl, rfl, fun _ _ _ => rfl, spares_of_eq rfl⟩, fun i => ?_⟩ hf
    show ((BlockManager.retained _ h.id).slots i).generation = _
    rw [retained_slots]
    split_ifs with hi
    · rw [hi]
    · rfl
  · obtain ⟨rfl, -⟩ := hm
    exact kept_of_settled ⟨hclients, Stays.refl _, fun _ => rfl⟩ hf

theorem release_kept (hs : s.Sound) (h : LogicalBlockHandle)
    (ha : h ∈ s.held ∨ ¬ s.manager.logical.Valid (raw h)) (answers : List CudaAnswer) :
    Kept s (s.call (TieredBlockManager.release h) (fun _ s => { s with held := s.held.erase h })
      answers) := by
  obtain ⟨hclients, hf⟩ := hs.armed answers
  rcases ha with hh | hstale
  · exact call_kept (release_post hclients hh) (fun _ m hm => kept_of_settled hm hf)
      fun e m hm => kept_of_settled hm.1 hf
  · have hrun : TieredBlockManager.release h (s.manager.armed answers) =
        .error staleHandle (s.manager.armed answers) := by
      have hstale' : ¬ (s.manager.armed answers).logical.Valid (raw h) := hstale
      unfold TieredBlockManager.release
      exact bind_of_error (checked_of_not_valid hstale')
    unfold call
    rw [hrun]
    exact kept_of_settled ⟨hclients, Stays.refl _, fun _ => rfl⟩ hf

theorem acquireGpu_kept (hs : s.Sound) (h : LogicalBlockHandle) (answers : List CudaAnswer) :
    Kept s (s.call (TieredBlockManager.acquireGpu h)
      (fun l s => { s with leases := l ::ₘ s.leases }) answers) := by
  obtain ⟨hclients, hf⟩ := hs.armed answers
  exact call_kept (acquireGpu_post hclients h) (fun l m hm => kept_of_settled hm.2.2 hf)
    fun e m hm => kept_of_settled hm.1 hf

theorem dropLease_kept (hs : s.Sound) (hl : l ∈ s.leases) (answers : List CudaAnswer) :
    Kept s (s.call (unpin l.handle) (fun _ s => { s with leases := s.leases.erase l }) answers) := by
  obtain ⟨hclients, hf⟩ := hs.armed answers
  unfold call
  rw [(unpin_ok hclients hl).1]
  exact kept_of_settled (hclients.settled_unpin hl) hf

theorem writeLease_kept (hs : s.Sound) (hl : l ∈ s.leases)
    (hlength : bytes.length = s.manager.blockBytes) :
    Kept s { s with
      manager := s.manager.kernelWrite l.address bytes
      content := Function.update s.content l.handle bytes } where
  sound := by
    have hv : s.manager.logical.Valid (raw l.handle) := hs.leased_valid hl
    have hcontents : contents (Function.update s.content l.handle bytes) s.manager.logical =
        Function.update (contents s.content s.manager.logical) l.handle.id bytes :=
      contents_update hv.2.2 fun _ _ => rfl
    show Clients (contents (Function.update s.content l.handle bytes) s.manager.logical) _ _ _
    rw [hcontents]
    exact hs.written hl hlength
  stays := ⟨rfl, rfl, rfl, fun _ _ _ => rfl, spares_of_eq rfl⟩

theorem readBlock_kept (hs : s.Sound) (h : LogicalBlockHandle) (size : Option ℕ)
    (answers : List CudaAnswer) :
    Kept s (s.call (TieredBlockManager.readBlock h size) (fun _ s => s) answers) := by
  obtain ⟨hclients, hf⟩ := hs.armed answers
  exact call_kept (readBlock_post hclients h size) (fun _ m hm => kept_of_settled hm.2.2 hf)
    fun e m hm => kept_of_settled hm.1 hf

/-- **A step keeps the session sound** and its leases in place. -/
theorem step_kept (hs : s.Sound) (ha : s.Allowed a) (hstep : step a s = some s') : Kept s s' := by
  obtain ⟨request, answers⟩ := a
  obtain ⟨hclients, hf⟩ := hs.armed answers
  cases request with
  | create host =>
    cases hstep
    exact create_kept hs host answers
  | retain h =>
    cases hstep
    exact retain_kept hs h answers
  | release h =>
    cases hstep
    exact release_kept hs h ha answers
  | acquireGpu h =>
    cases hstep
    exact acquireGpu_kept hs h answers
  | dropLease l =>
    cases hstep
    exact dropLease_kept hs ha answers
  | writeLease l bytes =>
    cases hstep
    exact writeLease_kept hs ha.1 ha.2
  | readBlock h size =>
    cases hstep
    exact readBlock_kept hs h size answers
  | offload h =>
    cases hstep
    exact call_moves hs rfl ((offload_post hclients.inv h).mono (fun _ _ hm => hm)
      fun _ _ hm => ⟨hm.1, hm.2.1⟩)
  | load h =>
    cases hstep
    exact call_moves hs rfl ((load_post hclients.inv h).mono (fun _ _ hm => ⟨hm.inv, hm.frame⟩)
      fun _ _ hm => ⟨hm.inv, hm.frame⟩)
  | wait =>
    cases hstep
    exact call_moves hs rfl ((wait_post hclients.inv).mono (fun _ _ hm => ⟨hm.inv, hm.frame⟩)
      fun _ _ hm => ⟨hm.inv, hm.frame⟩)
  | poll =>
    cases hstep
    exact call_moves hs rfl ((poll_post hclients.inv).mono (fun _ _ hm => ⟨hm.1, hm.2.1⟩)
      fun _ _ hm => ⟨hm.1, hm.2.1⟩)
  | prefetchNext order current nextN =>
    cases hstep
    exact call_moves hs rfl ((prefetchNext_post hclients.inv order current nextN).mono
      (fun _ _ hm => ⟨hm.1.inv, hm.1.frame⟩) fun _ _ hm => ⟨hm.1.inv, hm.1.frame⟩)

/-- **Every reachable session is sound.** -/
theorem reachable_sound (hr : Reachable step Start Allowed s) : s.Sound :=
  hr.invariant (fun _ hs => start_sound hs) fun _ _ _ _ hs ha hstep => (step_kept hs ha hstep).sound

/-- One GPU slot and two blocks of two bytes. -/
def small : Session where
  manager := {
    logical := BlockManager.init 2 1
    transfers := {
      pool := ⟨BlockManager.init 1 1, 2, 2, 0, fun _ => false, fun _ => false⟩
      memory := fun _ => []
      buffers := Function.update (Function.update (fun _ => { bytes := [] }) 0 { bytes := [0, 0] }) 1
        { bytes := [0, 0] } }
    cpuReservedBytes := 4 }

theorem small_start : Start small :=
  ⟨⟨1, 2, 2, 1, 0, { pool := ⟨.ok 1, none, .ok 0⟩ }, rfl⟩, rfl, rfl⟩

/-- The actions of a list, each allowed when it is taken. -/
def runAllowed (as : List Action) (s : Session) : Option Session :=
  runChecked step (fun s a => decide (s.Allowed a)) as s

theorem reachable_runAllowed {as : List Action} (hr : Reachable step Start Allowed s)
    (h : runAllowed as s = some s') : Reachable step Start Allowed s' :=
  hr.runChecked (fun _ _ _ ha => of_decide_eq_true ha) h

end Session

end KVFlux.TieredBlockManager
