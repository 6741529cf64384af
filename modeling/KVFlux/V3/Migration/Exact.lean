import KVFlux.V3.Migration.Calls

/-!
# Calls of the directory with their tiers

The calls on a known record, with the tiers they leave behind. No invariant of the directory is
needed, and the pin counter may wrap around.

* `CacheDirectory.setState_exact`, `place_exact`, `remove_exact`, `pin_exact`, `unpin_exact`.
* `Tiers.Allocated`, `Tiers.Same`: what is handed out.
* **`Tiers.Inv.allocate_release`**: a slot that is taken and given back leaves no trace;
  **`allocate_error_same`**: neither does a failed allocation, unless it loses a slot.
-/

namespace KVFlux.V3

open Fallible BlockManager

namespace CacheDirectory

variable {d : CacheDirectory} {key : CacheKey} {r : ChunkRecord} {tier : StorageTier}
  {slot : Replica} {t' : Tiers}

theorem setState_exact (hr : d.record key = some r) (hs : r.replica tier = some slot)
    (state : ChunkState) : ∃ d', setState key tier state d = .ok () d' ∧ d'.tiers = d.tiers ∧
      d'.record = Function.update d.record key
        (some (r.setReplica tier (some { slot with state := state }))) := by
  unfold setState
  rw [lookup_record hr]
  simp only [hs]
  exact ⟨_, rfl, rfl, record_setRecord _ _ _⟩

theorem place_exact (hr : d.record key = some r) (hs : r.replica tier = none)
    (state : ChunkState) :
    (∃ err t', Tiers.allocate tier d.tiers = .error err t' ∧
      place key tier state d = .error err { d with tiers := t' }) ∨
    (∃ l t' d', Tiers.allocate tier d.tiers = .ok l t' ∧ place key tier state d = .ok l d' ∧
      d'.tiers = t' ∧
      d'.record = Function.update d.record key (some (r.setReplica tier (some ⟨l, state⟩)))) := by
  unfold place
  rw [lookup_record hr]
  simp only [hs, Option.isSome_none, Bool.false_eq_true, if_false]
  cases ha : Tiers.allocate tier d.tiers with
  | error err t' => exact .inl ⟨err, t', rfl, rfl⟩
  | ok l t' => exact .inr ⟨l, t', _, rfl, rfl, rfl, record_setRecord _ _ _⟩

theorem remove_exact (hr : d.record key = some r) (hs : r.replica tier = some slot)
    (hstate : slot.state = .READY ∨ slot.state = .ERROR)
    (hrel : Tiers.release tier slot.location d.tiers = .ok () t') :
    ∃ d', remove key tier d = .ok () d' ∧ d'.tiers = t' ∧
      d'.record = Function.update d.record key (some (r.setReplica tier none)) := by
  have hn : ¬ (slot.state ≠ .READY ∧ slot.state ≠ .ERROR) := by
    rcases hstate with h | h <;> simp [h]
  unfold remove
  rw [lookup_record hr]
  simp only [hs, if_neg hn, hrel]
  exact ⟨_, rfl, rfl, record_setRecord _ _ _⟩

theorem pin_exact (hr : d.record key = some r) : ∃ d', pin key d = .ok () d' ∧
    d'.tiers = d.tiers ∧
    d'.record = Function.update d.record key (some (r.setPins ((r.pinCount + 1) % 2 ^ 64))) := by
  unfold pin count
  rw [lookup_record hr]
  exact ⟨_, rfl, rfl, record_setRecord _ _ _⟩

theorem unpin_exact (hr : d.record key = some r) (hpos : r.pinCount ≠ 0) :
    ∃ d', unpin key d = .ok () d' ∧ d'.tiers = d.tiers ∧
      d'.record = Function.update d.record key (some (r.setPins (r.pinCount - 1))) := by
  unfold unpin count
  rw [lookup_record hr]
  simp only [if_neg hpos]
  exact ⟨_, rfl, rfl, record_setRecord _ _ _⟩

theorem unpin_zero (hr : d.record key = some r) (hz : r.pinCount = 0) :
    unpin key d = .error (.logicError "pin count already zero") d := by
  unfold unpin count
  rw [lookup_record hr]
  simp only [if_pos hz]

end CacheDirectory

/-! ## What is handed out -/

namespace SlotTier

variable {t t' : SlotTier} {id : ℕ} {l : TierLocation}

/-- Taking a slot and giving it back. -/
theorem Inv.allocate_release {locs : Multiset TierLocation} (hi : t.Inv locs)
    (ha : SlotTier.allocate t = .ok l t') : ∃ t'', SlotTier.release l t' = .ok () t'' ∧
      t''.allocated = t.allocated ∧ ∀ l, t''.Live l ↔ t.Live l := by
  rcases allocate_cases t with ⟨-, hc⟩ | ⟨id, -, -, hc⟩ | ⟨id, hh, -, hc⟩
  · rw [hc] at ha; cases ha
  · rw [hc] at ha; cases ha
  rw [hc] at ha
  cases ha
  obtain ⟨hlt, hfree⟩ := hi.head_slot hh
  have hl : (t.take id).Live ⟨id, (t.slots id).generation + 1⟩ :=
    ⟨hlt, by rw [take_slots, if_pos rfl], by rw [take_slots, if_pos rfl]⟩
  refine ⟨_, release_of_live hl, sizeSub_succ t.allocated, fun l => ?_⟩
  unfold Live
  rw [giveBack_slots, giveBack_capacity, take_capacity, take_slots, take_slots]
  by_cases hl : l.slot = id
  · simp [hl, hfree]
  · simp [hl]

/-- A failed allocation changes nothing, unless it loses a slot. -/
theorem Inv.allocate_error {locs : Multiset TierLocation} (hi : t.Inv locs) {err : Exn}
    (ha : SlotTier.allocate t = .error err t') : (¬ t.Exhausted ∧ t' = t) ∨
      (t.Exhausted ∧ ∃ l, ¬ t.Live l ∧ t'.Live l) := by
  rcases allocate_cases t with ⟨hh, hc⟩ | ⟨id, hh, hg, hc⟩ | ⟨id, -, -, hc⟩
  · rw [hc] at ha
    cases ha
    refine .inl ⟨?_, rfl⟩
    rintro ⟨id, hid, -⟩
    rw [hh] at hid
    cases hid
  · rw [hc] at ha
    cases ha
    obtain ⟨hlt, hfree⟩ := hi.head_slot hh
    refine .inr ⟨⟨id, hh, hg⟩, ⟨id, (t.slots id).generation⟩, ?_, hlt, ?_, ?_⟩
    · rintro ⟨-, h, -⟩
      rw [hfree] at h
      cases h
    · rw [lose_slots, if_pos rfl]
    · rw [lose_slots, if_pos rfl]
  · rw [hc] at ha; cases ha

end SlotTier

namespace Tiers

variable {H : Tokens → UInt64} {t t' t'' : Tiers} {others : Multiset BlockHandle}
  {locs : StorageTier → Multiset TierLocation} {l : TierLocation} {tier : StorageTier} {err : Exn}

/-- The location is handed out; for the GPU tier its page has references. -/
def Allocated (t : Tiers) (tier : StorageTier) (l : TierLocation) : Prop :=
  t.Live tier l ∧ (tier = .GPU → (t.pool.slots l.slot).refs ≠ 0)

theorem allocated_of_ne (h : tier ≠ .GPU) : t.Allocated tier l ↔ t.Live tier l :=
  and_iff_left fun he => absurd he h

/-- The same locations are handed out. -/
structure Same (t t' : Tiers) : Prop where
  allocated_iff : ∀ tier l, t'.Allocated tier l ↔ t.Allocated tier l
  chunks_eq : ∀ tier, t'.allocatedChunks tier = t.allocatedChunks tier

theorem Same.refl (t : Tiers) : t.Same t := ⟨fun _ _ => Iff.rfl, fun _ => rfl⟩

/-- The slot that the tier would hand out next has no generation left. The GPU tier does not lose
such pages. -/
def Exhausted (t : Tiers) : StorageTier → Prop
  | .GPU => False
  | .CPU => t.cpu.Exhausted
  | .NVME => t.nvme.Exhausted

/-- Pages with references, and their generations, are those of before. -/
theorem pool_allocated {m m' : PhysicalBlockPool} (hc : m'.capacity = m.capacity)
    (hs : ∀ i, m'.slots i = m.slots i ∨ ((m'.slots i).refs = 0 ∧ (m.slots i).refs = 0)) :
    m'.Valid l.handle ∧ (m'.slots l.slot).refs ≠ 0 ↔
      m.Valid l.handle ∧ (m.slots l.slot).refs ≠ 0 := by
  unfold BlockManager.Valid
  show (l.slot < m'.capacity ∧ (m'.slots l.slot).free = false ∧ _) ∧ _ ↔
    (l.slot < m.capacity ∧ (m.slots l.slot).free = false ∧ _) ∧ _
  rcases hs l.slot with h | ⟨h, h'⟩
  · rw [hc, h, show m'.slots l.handle.id = m.slots l.handle.id from h]
  · simp [h, h']

/-- A page that is taken and given back without being published. -/
theorem pool_allocate_release {m m₁ : PhysicalBlockPool} {h : BlockHandle} (hs : Shaped m)
    (ha : BlockManager.allocate m = .ok h m₁) : m₁.Valid h ∧ (m₁.slots h.id).refs ≠ 0 ∧
      (m₁.released h.id).capacity = m.capacity ∧
      ∀ i, (m₁.released h.id).slots i = m.slots i ∨
        (((m₁.released h.id).slots i).refs = 0 ∧ (m.slots i).refs = 0) := by
  obtain ⟨hlt, hr, -, hslot, hframe, hc, -⟩ := allocate_ok hs ha
  have hr₁ : (m₁.slots h.id).refs = 1 := by rw [hslot]
  refine ⟨⟨?_, ?_, ?_⟩, ?_, released_capacity.trans hc, fun i => ?_⟩
  · rw [hc]; exact hlt
  · rw [hslot]
  · rw [hslot]
  · rw [hr₁]; exact one_ne_zero
  · rw [released_slots]
    by_cases hi : i = h.id
    · right
      subst hi
      refine ⟨?_, hr⟩
      rw [if_pos rfl]
      split_ifs <;> simp [hr₁]
    · left
      rw [if_neg hi, hframe i hi]

theorem gpuAllocate_ok {m m₁ : PhysicalBlockPool} {g g₁ : GpuTier}
    (ha : GpuTier.allocate (m, g) = .ok l (m₁, g₁)) :
    BlockManager.allocate m = .ok l.handle m₁ ∧ g₁ = { g with allocated := g.allocated + 1 } := by
  obtain ⟨h, ⟨m₂, g₂⟩, h₁, ha⟩ := bind_ok ha
  obtain ⟨u, ⟨m₃, g₃⟩, h₂, ha⟩ := bind_ok ha
  obtain ⟨⟨m₄, g₄⟩, s, h₃, ha⟩ := bind_ok ha
  obtain ⟨i, s', h₄, ha⟩ := bind_ok ha
  cases h₂
  cases h₃
  rw [onFst_apply] at h₁
  cases hx : PhysicalBlockPool.allocate m with
  | error e m' => rw [hx] at h₁; cases h₁
  | ok h' m' =>
    rw [hx] at h₁
    cases h₁
    have hid : i = h.id := by
      unfold PhysicalBlockPool.id at h₄
      cases hrc : PhysicalBlockPool.refCount m₂ h with
      | error e => simp only [hrc, check_error] at h₄; cases h₄
      | ok n =>
        simp only [hrc] at h₄
        split_ifs at h₄
        · cases h₄
        · cases h₄; rfl
    cases h₄' : PhysicalBlockPool.id m₂ h with
    | error e => rw [h₄'] at h₄; cases h₄
    | ok j =>
      rw [h₄'] at h₄
      cases h₄
      cases ha
      subst hid
      exact ⟨hx, rfl⟩

theorem gpuAllocate_error {m m₁ : PhysicalBlockPool} {g g₁ : GpuTier} {locs : Multiset TierLocation}
    (hi : g.Inv H m others locs) (ha : GpuTier.allocate (m, g) = .error err (m₁, g₁)) :
    m₁ = m ∧ g₁ = g := by
  rcases hi.allocate with ⟨l, pool', hc, -⟩ | ⟨e, -, hc⟩
  · rw [hc] at ha; cases ha
  · rw [hc] at ha; cases ha; exact ⟨rfl, rfl⟩

/-- **A slot that is taken and given back leaves no trace.** -/
theorem Inv.allocate_release (hi : t.Inv H others locs) (ha : Tiers.allocate tier t = .ok l t') :
    ∃ t'', Tiers.release tier l t' = .ok () t'' ∧ t.Same t'' := by
  cases tier with
  | GPU =>
    unfold Tiers.allocate at ha
    simp only at ha
    cases hx : GpuTier.allocate (t.pool, t.gpu) with
    | error e s => rw [hx] at ha; cases ha
    | ok l' s =>
      obtain ⟨pool, gpu⟩ := s
      rw [hx] at ha
      cases ha
      obtain ⟨hal, rfl⟩ := gpuAllocate_ok hx
      obtain ⟨hv, hr, hc, hs⟩ := pool_allocate_release hi.gpu.good.shaped hal
      have hrel : BlockManager.release ⟨l.slot, l.generation⟩ pool =
          .ok () (pool.released l.slot) := release_of_valid hv hr
      refine ⟨{ t with pool := pool.released l.slot, gpu := t.gpu }, ?_, fun tier l' => ?_,
        fun tier => by cases tier <;> rfl⟩
      · simp [Tiers.release, GpuTier.release, onFst, PhysicalBlockPool.free, hrel]
      · cases tier with
        | GPU =>
          have := @pool_allocated l' t.pool (pool.released l.slot) hc hs
          simpa [Allocated, Live] using this
        | CPU =>
          have hne : StorageTier.CPU ≠ .GPU := by decide
          rw [allocated_of_ne hne, allocated_of_ne hne]
          exact Iff.rfl
        | NVME =>
          have hne : StorageTier.NVME ≠ .GPU := by decide
          rw [allocated_of_ne hne, allocated_of_ne hne]
          exact Iff.rfl
  | CPU =>
    unfold Tiers.allocate at ha
    simp only at ha
    cases hx : SlotTier.allocate t.cpu with
    | error e s => rw [hx] at ha; cases ha
    | ok l' s =>
      rw [hx] at ha
      cases ha
      obtain ⟨s', hrel, hcount, hlive⟩ := hi.cpu.allocate_release hx
      refine ⟨{ t with cpu := s' }, by simp only [Tiers.release, hrel], fun tier l => ?_,
        fun tier => ?_⟩
      · cases tier with
        | CPU => exact and_congr_left' (hlive l)
        | GPU => exact Iff.rfl
        | NVME => exact Iff.rfl
      · cases tier with
        | CPU => exact hcount
        | GPU => rfl
        | NVME => rfl
  | NVME =>
    unfold Tiers.allocate at ha
    simp only at ha
    cases hx : SlotTier.allocate t.nvme with
    | error e s => rw [hx] at ha; cases ha
    | ok l' s =>
      rw [hx] at ha
      cases ha
      obtain ⟨s', hrel, hcount, hlive⟩ := hi.nvme.allocate_release hx
      refine ⟨{ t with nvme := s' }, by simp only [Tiers.release, hrel], fun tier l => ?_,
        fun tier => ?_⟩
      · cases tier with
        | NVME => exact and_congr_left' (hlive l)
        | GPU => exact Iff.rfl
        | CPU => exact Iff.rfl
      · cases tier with
        | NVME => exact hcount
        | GPU => rfl
        | CPU => rfl

/-- **A failed allocation leaves no trace**, unless it loses a slot. -/
theorem Inv.allocate_error_same (hi : t.Inv H others locs)
    (ha : Tiers.allocate tier t = .error err t') : t.Same t' ↔ ¬ t.Exhausted tier := by
  cases tier with
  | GPU =>
    unfold Tiers.allocate at ha
    simp only at ha
    cases hx : GpuTier.allocate (t.pool, t.gpu) with
    | ok l s => rw [hx] at ha; cases ha
    | error e s =>
      obtain ⟨pool, gpu⟩ := s
      rw [hx] at ha
      cases ha
      obtain ⟨rfl, rfl⟩ := gpuAllocate_error hi.gpu hx
      exact ⟨fun _ => id, fun _ => .refl t⟩
  | CPU =>
    unfold Tiers.allocate at ha
    simp only at ha
    cases hx : SlotTier.allocate t.cpu with
    | ok l s => rw [hx] at ha; cases ha
    | error e s =>
      rw [hx] at ha
      cases ha
      rcases hi.cpu.allocate_error hx with ⟨hn, rfl⟩ | ⟨he, l, hl, hl'⟩
      · exact ⟨fun _ => hn, fun _ => .refl t⟩
      · refine ⟨fun hs => absurd ?_ hl, fun hn => absurd he hn⟩
        exact ((hs.allocated_iff .CPU l).mp ⟨hl', nofun⟩).1
  | NVME =>
    unfold Tiers.allocate at ha
    simp only at ha
    cases hx : SlotTier.allocate t.nvme with
    | ok l s => rw [hx] at ha; cases ha
    | error e s =>
      rw [hx] at ha
      cases ha
      rcases hi.nvme.allocate_error hx with ⟨hn, rfl⟩ | ⟨he, l, hl, hl'⟩
      · exact ⟨fun _ => hn, fun _ => .refl t⟩
      · refine ⟨fun hs => absurd ?_ hl, fun hn => absurd he hn⟩
        exact ((hs.allocated_iff .NVME l).mp ⟨hl', nofun⟩).1

end Tiers

end KVFlux.V3
