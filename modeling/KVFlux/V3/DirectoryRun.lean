import KVFlux.V3.Agreement

/-!
# Runs of the directory

The directory runs beside other holders of GPU pages. These only free, share and publish pages of
their own; everything else is arbitrary.

* `DirOp`, `HolderOp`: the calls.
* `Reachable H d others`: the directory `d` and the references `others` of the other holders after
  some run.
* `dirOp_inv`, `holderOp_inv`: the step lemmas.
* **`Reachable.inv`**: every reachable state satisfies the invariant.
* **`directory_agrees`**: records and tiers agree, and which calls may fail.
-/

namespace KVFlux.V3

open Fallible BlockManager

/-- A call of the directory with its arguments. -/
inductive DirOp
  | create (key : CacheKey)
  | place (key : CacheKey) (tier : StorageTier) (state : ChunkState)
  | remove (key : CacheKey) (tier : StorageTier)
  | setState (key : CacheKey) (tier : StorageTier) (state : ChunkState)
  | addRef (key : CacheKey)
  | releaseRef (key : CacheKey)
  | pin (key : CacheKey)
  | unpin (key : CacheKey)
  | bumpVersion (key : CacheKey)
  | destroy (key : CacheKey)

def DirOp.exec : DirOp → Call CacheDirectory Unit
  | .create key => CacheDirectory.create key
  | .place key tier state => do let _ ← CacheDirectory.place key tier state; pure ()
  | .remove key tier => CacheDirectory.remove key tier
  | .setState key tier state => CacheDirectory.setState key tier state
  | .addRef key => CacheDirectory.addRef key
  | .releaseRef key => CacheDirectory.releaseRef key
  | .pin key => CacheDirectory.pin key
  | .unpin key => CacheDirectory.unpin key
  | .bumpVersion key => CacheDirectory.bumpVersion key
  | .destroy key => CacheDirectory.destroy key

/-- A call of another holder on the shared pool. -/
inductive HolderOp
  | allocate
  | retain (h : BlockHandle)
  | free (h : BlockHandle)
  | publish (h : BlockHandle) (p : Tokens)
  | lookup (p : Tokens)

/-- Holders pass handles they own. -/
def HolderOp.Allowed (others : Multiset BlockHandle) : HolderOp → Prop
  | .allocate => True
  | .retain h => h ∈ others
  | .free h => h ∈ others
  | .publish h _ => h ∈ others
  | .lookup _ => True

/-- The pool and the holders' references after the call. -/
def HolderOp.exec (hasher : Hasher) (pool : PhysicalBlockPool) (others : Multiset BlockHandle) :
    HolderOp → PhysicalBlockPool × Multiset BlockHandle
  | .allocate => match PhysicalBlockPool.allocate pool with
    | .ok h pool => (pool, h ::ₘ others)
    | .error _ pool => (pool, others)
  | .retain h => match PhysicalBlockPool.retain h pool with
    | .ok _ pool => (pool, h ::ₘ others)
    | .error _ pool => (pool, others)
  | .free h => match PhysicalBlockPool.free h pool with
    | .ok _ pool => (pool, others.erase h)
    | .error _ pool => (pool, others)
  | .publish h p => (finalState (PhysicalBlockPool.publish hasher h p pool), others)
  | .lookup p => match PhysicalBlockPool.lookup hasher p pool with
    | .ok (some h) pool => (pool, h ::ₘ others)
    | .ok none pool => (pool, others)
    | .error _ pool => (pool, others)

/-- The states of a directory and of the other holders' references along the runs. -/
inductive Reachable (H : Tokens → UInt64) : CacheDirectory → Multiset BlockHandle → Prop
  | init {capacity blockSize gpuBytes cpuSlots cpuBytes nvmeSlots nvmeBytes : ℕ}
      {hasher : Option Hasher} {pool : PhysicalBlockPool} {gpu : GpuTier} {cpu nvme : SlotTier}
      {d : CacheDirectory}
      (hpool : PhysicalBlockPool.new capacity blockSize hasher = .ok pool)
      (hgpu : GpuTier.new gpuBytes = .ok gpu)
      (hcpu : SlotTier.new .CPU cpuSlots cpuBytes = .ok cpu)
      (hnvme : SlotTier.new .NVME nvmeSlots nvmeBytes = .ok nvme)
      (hd : CacheDirectory.new ⟨pool, gpu, cpu, nvme⟩ = .ok d) : Reachable H d 0
  | call {d : CacheDirectory} {others : Multiset BlockHandle} (hr : Reachable H d others)
      (op : DirOp) : Reachable H (finalState (op.exec d)) others
  | holder {d : CacheDirectory} {others : Multiset BlockHandle} (hr : Reachable H d others)
      {hasher : Hasher} (ha : Agrees H hasher) (op : HolderOp) (hop : op.Allowed others) :
      Reachable H
        { d with tiers := { d.tiers with pool := (op.exec hasher d.tiers.pool others).1 } }
        (op.exec hasher d.tiers.pool others).2

variable {H : Tokens → UInt64} {d d' : CacheDirectory} {others : Multiset BlockHandle}
  {pool pool' : PhysicalBlockPool} {gpu : GpuTier} {locs : Multiset TierLocation}
  {h : BlockHandle} {hasher : Hasher}

/-! ## Other holders -/

theorem GpuTier.Inv.pool_change (hi : gpu.Inv H pool others locs) {others' : Multiset BlockHandle}
    (hg : Good H pool') (ho : Owned pool' (locs.map TierLocation.handle + others'))
    (hu : ∀ l ∈ locs, ∀ g ∈ others', g.id ≠ l.slot)
    (hs : ∀ l ∈ locs, (pool'.slots l.slot).cached = (pool.slots l.slot).cached) :
    gpu.Inv H pool' others' locs :=
  ⟨hg, ho, hi.nodup, hu, fun l hl => (hs l hl).trans (hi.unpublished l hl), hi.allocated_eq⟩

/-- A new reference on a page the tier does not use. -/
theorem GpuTier.Inv.holder_retained (hi : gpu.Inv H pool others locs) (hv : pool.Valid h)
    (hg : Good H (pool.retained h.id)) (hne : ∀ l ∈ locs, h.id ≠ l.slot) :
    gpu.Inv H (pool.retained h.id) (h ::ₘ others) locs := by
  refine hi.pool_change hg ?_ (fun l hl g hm => ?_) fun l hl => ?_
  · rw [Multiset.add_cons]
    exact hi.owned.retained hv
  · rcases Multiset.mem_cons.mp hm with rfl | hm
    · exact hne l hl
    · exact hi.unshared l hl g hm
  · rw [retained_slots, if_neg (Ne.symm (hne l hl))]

theorem GpuTier.Inv.holderOp (hi : gpu.Inv H pool others locs) (ha : Agrees H hasher)
    (op : HolderOp) (hop : op.Allowed others) :
    gpu.Inv H (op.exec hasher pool others).1 (op.exec hasher pool others).2 locs := by
  cases op with
  | allocate =>
    have hk := allocate_keeps (H := H) pool hi.good
    simp only [HolderOp.exec, PhysicalBlockPool.allocate]
    rcases hi.owned.allocate hi.good.shaped with ⟨g, pool', hal, ho, hnew⟩ | ⟨e, hal⟩
    · obtain ⟨-, -, -, -, hframe, -, -⟩ := allocate_ok hi.good.shaped hal
      rw [hal] at hk ⊢
      have hne : ∀ l ∈ locs, l.slot ≠ g.id := fun l hl => hnew l.handle (mem_owned hl)
      refine hi.pool_change hk ?_ (fun l hl g' hm => ?_) fun l hl => ?_
      · rw [Multiset.add_cons]; exact ho
      · rcases Multiset.mem_cons.mp hm with rfl | hm
        · exact (hne l hl).symm
        · exact hi.unshared l hl g' hm
      · rw [hframe _ (hne l hl)]
    · rw [hal]; exact hi
  | retain g =>
    have hk := retain_keeps (H := H) g pool hi.good
    simp only [HolderOp.exec, PhysicalBlockPool.retain]
    have hmem : g ∈ locs.map TierLocation.handle + others := other_mem_owned hop
    rcases hi.owned.retain hmem with ⟨hr, -⟩ | ⟨-, hr⟩
    · rw [hr] at hk ⊢
      exact hi.holder_retained (hi.owned.valid g hmem) hk fun l hl => hi.unshared l hl g hop
    · rw [hr]; exact hi
  | free g =>
    have hk := release_keeps (H := H) g pool hi.good
    simp only [HolderOp.exec, PhysicalBlockPool.free]
    have hmem : g ∈ locs.map TierLocation.handle + others := other_mem_owned hop
    obtain ⟨hr, ho⟩ := hi.owned.release hmem
    rw [hr] at hk ⊢
    refine hi.pool_change hk ?_ (fun l hl g' hm => ?_) fun l hl => ?_
    · rwa [Multiset.erase_add_right_pos _ hop] at ho
    · exact hi.unshared l hl g' (Multiset.mem_of_mem_erase hm)
    · have hne : l.slot ≠ g.id := fun e => hi.unshared l hl g hop e.symm
      rw [released_slots, if_neg hne]
  | publish g p =>
    have hk := publish_keeps ha g p pool hi.good
    simp only [HolderOp.exec, PhysicalBlockPool.publish]
    rcases hi.owned.publish hi.good ha g p with ⟨hp, -, ho⟩ | ⟨e, hp⟩
    · rw [hp] at hk ⊢
      refine hi.pool_change hk ho (fun l hl g' hm => hi.unshared l hl g' hm) fun l hl => ?_
      have hne : l.slot ≠ g.id := fun e => hi.unshared l hl g hop e.symm
      show ((pool.published g.id p (H p)).slots l.slot).cached = _
      rw [published_slots, if_neg hne]
    · rw [hp]; exact hi
  | lookup p =>
    have hk := lookup_keeps ha p pool hi.good
    simp only [HolderOp.exec, PhysicalBlockPool.lookup]
    rcases hi.owned.lookup hi.good ha p with ⟨i, hc, -, hl, ho⟩ | hl | ⟨e, hl⟩
    · rw [hl] at hk ⊢
      have hv := ho.valid ⟨i, (pool.slots i).generation⟩ (Multiset.mem_cons_self _ _)
      have hne : ∀ l ∈ locs, i ≠ l.slot := by
        rintro l hm rfl
        rw [hi.unpublished l hm] at hc
        cases hc
      obtain ⟨free, idle, hb⟩ := hi.good
      have hfree := hb.not_free_of_cached hc
      exact hi.holder_retained (h := ⟨i, (pool.slots i).generation⟩)
        ⟨hb.lt_capacity hfree, hfree, rfl⟩ hk hne
    · rw [hl]; exact hi
    · rw [hl]; exact hi

/-! ## The step lemmas and the run lemma -/

namespace CacheDirectory

theorem holderOp_inv (hi : d.Inv H others) (ha : Agrees H hasher) (op : HolderOp)
    (hop : op.Allowed others) :
    Inv H { d with tiers := { d.tiers with pool := (op.exec hasher d.tiers.pool others).1 } }
      (op.exec hasher d.tiers.pool others).2 :=
  ⟨hi.gpu.holderOp ha op hop, hi.cpu, hi.nvme⟩

/-- **The outcomes of a call.** A call that throws changes nothing, unless a generation counter is
exhausted. -/
theorem dirOp_cases (hi : d.Inv H others) (op : DirOp) :
    (∃ d', op.exec d = .ok () d' ∧ d'.Inv H others) ∨ (∃ e, op.exec d = .error e d) ∨
    (∃ e d', op.exec d = .error e d' ∧ d'.Inv H others ∧ ¬ d.tiers.Fresh) := by
  have hcount : ∀ (key : CacheKey) (f : ChunkRecord → Except Exn ChunkRecord),
      (∀ r r', f r = .ok r' → ∀ t, r'.replica t = r.replica t) →
      (∃ d', count key f d = .ok () d' ∧ d'.Inv H others) ∨ (∃ e, count key f d = .error e d) := by
    intro key f hf
    rcases count_cases hi key f hf with ⟨-, hc⟩ | ⟨r, -, ⟨e, -, hc⟩ | ⟨r', -, hc, hi'⟩⟩
    · exact .inr ⟨_, hc⟩
    · exact .inr ⟨_, hc⟩
    · exact .inl ⟨_, hc, hi'⟩
  cases op with
  | create key =>
    rcases create_cases hi key with ⟨-, hc⟩ | ⟨-, hc, hi'⟩
    · exact .inr (.inl ⟨_, hc⟩)
    · exact .inl ⟨_, hc, hi'⟩
  | place key tier state =>
    have hx : (DirOp.place key tier state).exec d = match CacheDirectory.place key tier state d with
      | .ok _ d' => .ok () d'
      | .error e d' => .error e d' := by
      simp only [DirOp.exec, bind_apply, pure_apply]
      cases CacheDirectory.place key tier state d <;> rfl
    rw [hx]
    rcases place_cases hi key tier state with ⟨-, hc⟩ | ⟨r, -, ⟨-, hc⟩ | ⟨-, ⟨l, t', hc, hi'⟩ |
      ⟨hc, -⟩ | ⟨e, t', hc, hi', hf⟩⟩⟩
    · rw [hc]; exact .inr (.inl ⟨_, rfl⟩)
    · rw [hc]; exact .inr (.inl ⟨_, rfl⟩)
    · rw [hc]; exact .inl ⟨_, rfl, hi'⟩
    · rw [hc]; exact .inr (.inl ⟨_, rfl⟩)
    · rw [hc]; exact .inr (.inr ⟨_, _, rfl, hi', hf⟩)
  | remove key tier =>
    rcases remove_cases hi key tier with ⟨-, hc⟩ | ⟨r, -, ⟨-, hc⟩ | ⟨slot, -, ⟨-, -, hc⟩ |
      ⟨-, t', hc, hi'⟩⟩⟩
    · exact .inr (.inl ⟨_, hc⟩)
    · exact .inr (.inl ⟨_, hc⟩)
    · exact .inr (.inl ⟨_, hc⟩)
    · exact .inl ⟨_, hc, hi'⟩
  | setState key tier state =>
    rcases setState_cases hi key tier state with ⟨-, hc⟩ | ⟨r, -, ⟨-, hc⟩ | ⟨slot, -, hc, hi'⟩⟩
    · exact .inr (.inl ⟨_, hc⟩)
    · exact .inr (.inl ⟨_, hc⟩)
    · exact .inl ⟨_, hc, hi'⟩
  | addRef key =>
    simp only [DirOp.exec, CacheDirectory.addRef]
    refine (hcount key _ ?_).imp_right .inl
    rintro r _ ⟨⟩ t
    cases t <;> rfl
  | releaseRef key =>
    simp only [DirOp.exec, CacheDirectory.releaseRef]
    refine (hcount key _ ?_).imp_right .inl
    intro r r' hr t
    split_ifs at hr
    cases hr
    cases t <;> rfl
  | pin key =>
    simp only [DirOp.exec, CacheDirectory.pin]
    refine (hcount key _ ?_).imp_right .inl
    rintro r _ ⟨⟩ t
    cases t <;> rfl
  | unpin key =>
    simp only [DirOp.exec, CacheDirectory.unpin]
    refine (hcount key _ ?_).imp_right .inl
    intro r r' hr t
    split_ifs at hr
    cases hr
    cases t <;> rfl
  | bumpVersion key =>
    simp only [DirOp.exec, CacheDirectory.bumpVersion]
    refine (hcount key _ ?_).imp_right .inl
    rintro r _ ⟨⟩ t
    cases t <;> rfl
  | destroy key =>
    rcases destroy_cases hi key with ⟨e, hc⟩ | ⟨r, -, -, -, -, hc, hi'⟩
    · exact .inr (.inl ⟨_, hc⟩)
    · exact .inl ⟨_, hc, hi'⟩

theorem dirOp_inv (hi : d.Inv H others) (op : DirOp) : (finalState (op.exec d)).Inv H others := by
  rcases dirOp_cases hi op with ⟨d', hc, hi'⟩ | ⟨e, hc⟩ | ⟨e, d', hc, hi', -⟩
  · rw [hc]; exact hi'
  · rw [hc]; exact hi
  · rw [hc]; exact hi'

end CacheDirectory

/-- **Every reachable state satisfies the invariant.** -/
theorem Reachable.inv (hr : Reachable H d others) : d.Inv H others := by
  induction hr with
  | init hpool hgpu hcpu hnvme hd =>
    unfold CacheDirectory.new at hd
    split_ifs at hd
    cases hd
    exact ⟨GpuTier.inv_new hpool hgpu, SlotTier.inv_new hcpu, SlotTier.inv_new hnvme⟩
  | call _ op ih => exact CacheDirectory.dirOp_inv ih op
  | holder _ ha op hop ih => exact CacheDirectory.holderOp_inv ih ha op hop

/-! ## The agreement -/

/-- The tier counts an allocation of its own behind the location. For the GPU tier this is a
reference to the page beyond those of the other holders. -/
def Out (d : CacheDirectory) (others : Multiset BlockHandle) (tier : StorageTier)
    (l : TierLocation) : Prop :=
  d.tiers.Live tier l ∧
    (tier = .GPU → (others.map BlockHandle.id).count l.slot < (d.tiers.pool.slots l.slot).refs)

/-- Records and tiers agree, and calls fail only for the stated reasons. -/
structure Agreement (d : CacheDirectory) (others : Multiset BlockHandle) : Prop where
  /-- The stored locations are exactly the live allocations. -/
  stored_iff_out : ∀ tier l, l ∈ d.locations tier ↔ Out d others tier l
  /-- No two replicas share a slot. -/
  slots_nodup : ∀ tier, ((d.locations tier).map TierLocation.slot).Nodup
  /-- No other holder references the page of a GPU replica. -/
  gpu_private : ∀ l ∈ d.locations .GPU, ∀ h ∈ others, h.id ≠ l.slot
  replicas_eq : ∀ tier, (d.stats tier).replicas = (d.stats tier).allocatedChunks
  place_fails : ∀ key tier state e d', CacheDirectory.place key tier state d = .error e d' →
    (d.records.lookup key = none ∧ e = CacheDirectory.unknownKey) ∨
    (∃ r, d.records.lookup key = some r ∧ (r.replica tier).isSome ∧
      e = .logicError "tier already holds a replica of this chunk") ∨
    (d.tiers.available tier = 0 ∧ e = .capacityError)
  remove_fails : ∀ key tier e d', CacheDirectory.remove key tier d = .error e d' →
    (d.records.lookup key = none ∧ e = CacheDirectory.unknownKey) ∨
    (∃ r, d.records.lookup key = some r ∧ r.replica tier = none ∧
      e = .logicError "tier holds no replica of this chunk") ∨
    (∃ r slot, d.records.lookup key = some r ∧ r.replica tier = some slot ∧
      slot.state ∈ [.COPYING, .LOADING, .EVICTING] ∧
      e = .logicError "replica is not ready; finish or fail its transfer first")
  destroy_ok : ∀ key d', CacheDirectory.destroy key d = .ok () d' → ∃ r,
    d.records.lookup key = some r ∧ (∀ tier, r.replica tier = none) ∧ r.refCount = 0 ∧
      r.pinCount = 0
  throw_frame : ∀ (op : DirOp) e d', op.exec d = .error e d' → d' = d

theorem out_iff (hi : d.Inv H others) (hf : d.tiers.Fresh) (tier : StorageTier)
    (l : TierLocation) : l ∈ d.locations tier ↔ Out d others tier l := by
  constructor
  · intro hl
    refine ⟨Tiers.Inv.live hi tier hl, ?_⟩
    rintro rfl
    have hr := hi.gpu.owned.refs_eq l.slot
    rw [Multiset.map_add, Multiset.count_add] at hr
    have hpos : 0 < ((d.locations .GPU).map TierLocation.handle |>.map BlockHandle.id).count
        l.slot :=
      Multiset.count_pos.mpr (Multiset.mem_map_of_mem BlockHandle.id
        (Multiset.mem_map_of_mem TierLocation.handle hl))
    omega
  · rintro ⟨hlive, hout⟩
    cases tier with
    | CPU => exact (hi.cpu.mem_iff_live hf.2.1).mpr hlive
    | NVME => exact (hi.nvme.mem_iff_live hf.2.2).mpr hlive
    | GPU =>
      have hr := hi.gpu.owned.refs_eq l.slot
      have hlt := hout rfl
      rw [Multiset.map_add, Multiset.count_add] at hr
      have hpos : l.slot ∈ ((d.locations .GPU).map TierLocation.handle).map BlockHandle.id :=
        Multiset.count_pos.mp (by omega)
      obtain ⟨g, hg, he⟩ := Multiset.mem_map.mp hpos
      obtain ⟨l', hl', rfl⟩ := Multiset.mem_map.mp hg
      -- the page of `l'` has the generation of `l`
      have hgen := (hi.gpu.owned.valid _ (GpuTier.Inv.mem_owned hl')).2.2
      have hgen' := hlive.2.2
      rw [show l'.handle.id = l.handle.id from he, hgen'] at hgen
      have : l = l' := by
        cases l
        cases l'
        simp_all [TierLocation.handle]
      exact this ▸ hl'

/-- **Main result.** In every reachable state whose generation counters are not exhausted, the
directory and the tiers agree. -/
theorem directory_agrees (hr : Reachable H d others) (hf : d.tiers.Fresh) :
    Agreement d others := by
  have hi := hr.inv
  refine ⟨fun tier l => out_iff hi hf tier l, Tiers.Inv.nodup hi, hi.gpu.unshared, fun tier => ?_,
    fun key tier state e d' hp => ?_, fun key tier e d' hp => ?_, fun key d' hp => ?_,
    fun op e d' hp => ?_⟩
  · show _ = d.tiers.allocatedChunks tier
    rw [Tiers.Inv.allocated_eq hi tier]
    unfold CacheDirectory.locations
    rw [Assoc.card_collect]
    simp [CacheDirectory.stats]
  · rcases CacheDirectory.place_cases hi key tier state with ⟨hl, hc⟩ | ⟨r, hl, ⟨hs, hc⟩ | ⟨-,
      ⟨l, t', hc, -⟩ | ⟨hc, ha⟩ | ⟨e', t', hc, -, hn⟩⟩⟩
    · rw [hc] at hp; cases hp; exact .inl ⟨hl, rfl⟩
    · rw [hc] at hp; cases hp; exact .inr (.inl ⟨r, hl, hs, rfl⟩)
    · rw [hc] at hp; cases hp
    · rw [hc] at hp; cases hp; exact .inr (.inr ⟨ha hf, rfl⟩)
    · exact absurd hf hn
  · rcases CacheDirectory.remove_cases hi key tier with ⟨hl, hc⟩ | ⟨r, hl, ⟨hs, hc⟩ | ⟨slot, hs,
      ⟨h1, h2, hc⟩ | ⟨-, t', hc, -⟩⟩⟩
    · rw [hc] at hp; cases hp; exact .inl ⟨hl, rfl⟩
    · rw [hc] at hp; cases hp; exact .inr (.inl ⟨r, hl, hs, rfl⟩)
    · rw [hc] at hp
      cases hp
      refine .inr (.inr ⟨r, slot, hl, hs, ?_, rfl⟩)
      cases hstate : slot.state <;> simp_all
    · rw [hc] at hp; cases hp
  · rcases CacheDirectory.destroy_cases hi key with ⟨e, hc⟩ | ⟨r, hl, h1, h2, h3, -, -⟩
    · rw [hc] at hp; cases hp
    · exact ⟨r, hl, h1, h2, h3⟩
  · rcases CacheDirectory.dirOp_cases hi op with ⟨d₁, hc, -⟩ | ⟨e₁, hc⟩ | ⟨e₁, d₁, -, -, hn⟩
    · rw [hc] at hp; cases hp
    · rw [hc] at hp; cases hp; rfl
    · exact absurd hf hn

/-- Another holder takes a page, then a chunk is registered and placed on the GPU. -/
theorem directory_agrees_place :
    let key : CacheKey := { modelId := [109], prefixTokens := [1, 2] }
    let pool := (HolderOp.allocate.exec (fun _ => .ok 0) (BlockManager.init 3 2) 0)
    Agreement (finalState ((DirOp.place key .GPU .READY).exec (finalState ((DirOp.create key).exec
      ⟨⟨pool.1, ⟨8, 0⟩, .init .CPU 2 8, .init .NVME 2 8⟩, ∅⟩)))) pool.2 :=
  let first := @Reachable.init (fun _ => 0) 3 2 8 2 8 2 8 (some fun _ => .ok 0) _ _ _ _ _
    rfl rfl rfl rfl rfl
  have ha : Agrees (fun _ => 0) (fun _ => .ok 0) := fun _ _ h => by cases h; rfl
  directory_agrees (.call (.call (.holder first ha .allocate trivial) (.create _)) (.place _ .GPU .READY))
    ⟨fun i => by
      rcases i with _ | _ | i
      · decide
      · decide
      · show (0 : ℕ) ≠ u64Max
        decide,
     fun i => by show (0 : ℕ) ≠ u64Max; decide,
     fun i => by show (0 : ℕ) ≠ u64Max; decide⟩

end KVFlux.V3
