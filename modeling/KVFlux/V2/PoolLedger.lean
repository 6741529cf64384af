import KVFlux.PhysicalBlockPool
import KVFlux.BlockManager.ReclaimOrder

/-!
# The ledger of the pool

* `Sound H pool held`: the pool satisfies its invariant and `held` lists the owners of its pages.
* `Shrinks m m'`: nothing was published on the way from `m` to `m'`.
* `Allocated m m' new`: the pages `new` were allocated on the way, and nothing else changed.
* **`Sound.allocate`**, **`Sound.retain`**, **`Sound.free`**, **`Sound.lookup`**,
  **`Sound.releaseAll`**: the calls of owners.
-/

namespace KVFlux.V2

open Fallible BlockManager

/-- The pool satisfies its invariant and `held` lists the owners of its references. -/
structure Sound (H : Tokens → UInt64) (pool : PhysicalBlockPool) (held : Multiset BlockHandle) :
    Prop where
  good : Good H pool
  owned : Owned pool held

/-- No page is published on the way, and published pages keep their prefixes. -/
structure Shrinks (m m' : PhysicalBlockPool) : Prop where
  cached : ∀ i, (m'.slots i).cached = true →
    (m.slots i).cached = true ∧ (m'.slots i).prefixTokens = (m.slots i).prefixTokens
  blockSize : m'.blockSize = m.blockSize
  capacity : m'.capacity = m.capacity

variable {H : Tokens → UInt64} {m m' m'' : PhysicalBlockPool} {held rest : Multiset BlockHandle}
  {h : BlockHandle} {new new' : List BlockHandle}

theorem Shrinks.refl (m : PhysicalBlockPool) : Shrinks m m := ⟨fun _ h => ⟨h, rfl⟩, rfl, rfl⟩

theorem Shrinks.trans (h : Shrinks m m') (h' : Shrinks m' m'') : Shrinks m m'' := by
  refine ⟨fun i hi => ?_, h'.blockSize.trans h.blockSize, h'.capacity.trans h.capacity⟩
  obtain ⟨h₁, h₂⟩ := h'.cached i hi
  obtain ⟨h₃, h₄⟩ := h.cached i h₁
  exact ⟨h₃, h₂.trans h₄⟩

theorem Shrinks.uncached (h : Shrinks m m') {i : ℕ} (hi : (m.slots i).cached = false) :
    (m'.slots i).cached = false := by
  refine Bool.eq_false_iff.mpr fun hc => ?_
  have := (h.cached i hc).1
  rw [hi] at this
  cases this

/-- The pages `new` were allocated in this order. -/
structure Allocated (m m' : PhysicalBlockPool) (new : List BlockHandle) : Prop where
  order : m.reclaimOrder = new.map BlockHandle.id ++ m'.reclaimOrder
  fresh : ∀ h ∈ new, (m'.slots h.id).cached = false ∧ (m'.slots h.id).refs = 1
  frame : ∀ i, i ∉ new.map BlockHandle.id → m'.slots i = m.slots i
  blockSize : m'.blockSize = m.blockSize
  capacity : m'.capacity = m.capacity

namespace Allocated

theorem refl (m : PhysicalBlockPool) : Allocated m m [] where
  order := rfl
  fresh := nofun
  frame _ _ := rfl
  blockSize := rfl
  capacity := rfl

theorem shrinks (ha : Allocated m m' new) : Shrinks m m' := by
  refine ⟨fun i hi => ?_, ha.blockSize, ha.capacity⟩
  by_cases hm : i ∈ new.map BlockHandle.id
  · obtain ⟨h, hh, rfl⟩ := List.mem_map.mp hm
    rw [(ha.fresh h hh).1] at hi
    cases hi
  · rw [ha.frame i hm] at hi ⊢
    exact ⟨hi, rfl⟩

theorem trans (hg : Good H m) (ha : Allocated m m' new) (ha' : Allocated m' m'' new') :
    Allocated m m'' (new ++ new') := by
  have hnd := hg.reclaimOrder_nodup
  rw [ha.order, ha'.order] at hnd
  have hdisj : ∀ h ∈ new, h.id ∉ new'.map BlockHandle.id := fun h hh hm =>
    (List.nodup_append.mp hnd).2.2 h.id (List.mem_map_of_mem hh) h.id
      (List.mem_append_left _ hm) rfl
  refine ⟨?_, ?_, ?_, ha'.blockSize.trans ha.blockSize, ha'.capacity.trans ha.capacity⟩
  · rw [ha.order, ha'.order, List.map_append, List.append_assoc]
  · intro h hh
    rcases List.mem_append.mp hh with hh | hh
    · rw [ha'.frame h.id (hdisj h hh)]
      exact ha.fresh h hh
    · exact ha'.fresh h hh
  · intro i hi
    rw [List.map_append, List.mem_append, not_or] at hi
    rw [ha'.frame i hi.2, ha.frame i hi.1]

/-- Pages with references are not allocated. -/
theorem notMem (hg : Good H m) (ha : Allocated m m' new) {i : ℕ} (hr : (m.slots i).refs ≠ 0) :
    i ∉ new.map BlockHandle.id := by
  intro hi
  have := hg.mem_reclaimOrder.mp (ha.order ▸ List.mem_append_left _ hi)
  exact hr this.2

end Allocated

namespace Sound

theorem blockSize_pos (hs : Sound H m held) : 0 < m.blockSize := by
  obtain ⟨free, idle, hi⟩ := hs.good
  exact hi.blockSize_pos

/-- **`allocate`** takes the next page, or throws and changes nothing. -/
theorem allocate (hs : Sound H m held) :
    (∃ h m', PhysicalBlockPool.allocate m = .ok h m' ∧ Sound H m' (h ::ₘ held) ∧
      Allocated m m' [h]) ∨
    (∃ err, PhysicalBlockPool.allocate m = .error err m) := by
  rcases hs.owned.allocate hs.good.shaped with ⟨h, m', hc, ho, hne⟩ | hc
  · left
    obtain ⟨-, -, -, hslot, hframe, hcap, hbs⟩ := allocate_ok hs.good.shaped hc
    have hg : Good H m' := by
      have := allocate_keeps m hs.good
      rwa [show BlockManager.allocate m = _ from hc] at this
    refine ⟨h, m', hc, ⟨hg, ho⟩, ⟨allocate_reclaim hs.good hc, ?_, ?_, hbs, hcap⟩⟩
    · intro g hm
      rw [List.mem_singleton.mp hm, hslot]
      exact ⟨rfl, rfl⟩
    · intro i hi
      exact hframe i (by simpa using hi)
  · exact .inr hc

theorem retain (hs : Sound H m held) (hh : h ∈ held) :
    (PhysicalBlockPool.retain h m = .ok () (m.retained h.id) ∧
      Sound H (m.retained h.id) (h ::ₘ held) ∧ Shrinks m (m.retained h.id)) ∨
    (∃ err, PhysicalBlockPool.retain h m = .error err m) := by
  rcases hs.owned.retain hh with ⟨hc, ho⟩ | ⟨-, hc⟩
  · left
    have hg : Good H (m.retained h.id) := by
      have := retain_keeps h m hs.good
      rwa [hc] at this
    refine ⟨hc, ⟨hg, ho⟩, ⟨fun i hi => ?_, retained_blockSize, retained_capacity⟩⟩
    rw [retained_slots] at hi ⊢
    split_ifs at hi ⊢ with he
    · subst he
      exact ⟨hi, rfl⟩
    · exact ⟨hi, rfl⟩
  · exact .inr ⟨_, hc⟩

theorem free (hs : Sound H m held) (hh : h ∈ held) :
    PhysicalBlockPool.free h m = .ok () (m.released h.id) ∧
      Sound H (m.released h.id) (held.erase h) ∧ Shrinks m (m.released h.id) := by
  obtain ⟨hc, ho⟩ := hs.owned.release hh
  have hg : Good H (m.released h.id) := by
    have := release_keeps h m hs.good
    rwa [hc] at this
  refine ⟨hc, ⟨hg, ho⟩, ⟨fun i hi => ?_, released_blockSize, released_capacity⟩⟩
  rw [released_slots] at hi ⊢
  split_ifs at hi ⊢ with he h0
  · subst he
    exact ⟨hi, rfl⟩
  · subst he
    exact ⟨hi, rfl⟩
  · exact ⟨hi, rfl⟩

/-- **`lookup`** takes a reference to the cached page, misses, or throws. -/
theorem lookup {hasher : Hasher} (hs : Sound H m held) (ha : Agrees H hasher) {p : Tokens}
    (hp : p ≠ []) (hmod : p.length % m.blockSize = 0) :
    (∃ h, (m.slots h.id).cached = true ∧ (m.slots h.id).prefixTokens = p ∧
      (m.slots h.id).free = false ∧ (m.slots h.id).refs ≠ sizeMax ∧
      PhysicalBlockPool.lookup hasher p m = .ok (some h) (m.retained h.id) ∧
      Sound H (m.retained h.id) (h ::ₘ held)) ∨
    ((∀ i, (m.slots i).cached = true → (m.slots i).prefixTokens ≠ p) ∧
      PhysicalBlockPool.lookup hasher p m = .ok none m) ∨
    (∃ err, PhysicalBlockPool.lookup hasher p m = .error err m) := by
  obtain ⟨free, idle, hi⟩ := hs.good
  rcases lookup_cases hi ha p with ⟨hbad, -⟩ | ⟨-, ⟨err, -, hc⟩ | ⟨-, ⟨hmiss, hc⟩ |
    ⟨i, -, -, -, hc⟩ | ⟨i, hcached, hpre, hr, hc⟩⟩⟩
  · exact absurd hbad (by simp [hp, hmod])
  · exact .inr (.inr ⟨err, hc⟩)
  · exact .inr (.inl ⟨hmiss, hc⟩)
  · exact .inr (.inr ⟨_, hc⟩)
  · left
    have hfree := hi.not_free_of_cached hcached
    refine ⟨⟨i, (m.slots i).generation⟩, hcached, hpre, hfree, hr, hc, ?_, ?_⟩
    · have := lookup_keeps ha p m hs.good
      rwa [hc] at this
    · exact hs.owned.retained ⟨hi.lt_capacity hfree, hfree, rfl⟩

/-- Owners give back a whole list. -/
theorem releaseAll (hs : List BlockHandle) : ∀ {m : PhysicalBlockPool}, Sound H m (hs + held) →
    ∃ m', BlockManager.releaseAll hs m = .ok () m' ∧ Sound H m' held ∧ Shrinks m m' := by
  induction hs with
  | nil =>
    intro m hm
    rw [Multiset.coe_nil, Multiset.zero_add] at hm
    exact ⟨m, rfl, hm, .refl m⟩
  | cons h hs ih =>
    intro m hm
    rw [← Multiset.cons_coe, Multiset.cons_add] at hm
    obtain ⟨hf, hm₁, hshrink⟩ := hm.free (Multiset.mem_cons_self h _)
    rw [Multiset.erase_cons_head] at hm₁
    obtain ⟨m', h', hm', hshrink'⟩ := ih hm₁
    refine ⟨m', ?_, hm', hshrink.trans hshrink'⟩
    rw [BlockManager.releaseAll, bind_of_ok (show BlockManager.release h m = _ from hf)]
    exact h'

/-- A page without other owners. -/
theorem private_notMem (hs : Sound H m (h ::ₘ held)) (hr : (m.slots h.id).refs = 1) :
    ∀ g ∈ held, g.id ≠ h.id := by
  have := hs.owned.count_eq_one (Multiset.mem_cons_self h held) hr
  rwa [Multiset.erase_cons_head] at this

theorem id_eq (hs : Sound H m held) (hh : h ∈ held) : PhysicalBlockPool.id m h = .ok h.id := by
  have hr := hs.owned.refs_pos hh
  simp only [PhysicalBlockPool.id, PhysicalBlockPool.refCount, BlockManager.refCount,
    checked_ok h (hs.owned.valid h hh), Except.map, if_neg hr]

theorem refCount_eq (hs : Sound H m held) (hh : h ∈ held) :
    PhysicalBlockPool.refCount m h = .ok (m.slots h.id).refs := by
  simp only [PhysicalBlockPool.refCount, BlockManager.refCount,
    checked_ok h (hs.owned.valid h hh), Except.map]

theorem isPublished_eq (hs : Sound H m held) (hh : h ∈ held) :
    PhysicalBlockPool.isPublished m h = .ok (m.slots h.id).cached := by
  simp only [PhysicalBlockPool.isPublished, BlockManager.isPublished,
    checked_ok h (hs.owned.valid h hh), Except.map]

end Sound

end KVFlux.V2
