import KVFlux.BlockManager.Ops

/-!
# Who owns the references

`Owned m held` says that the references handed out and not yet returned are exactly the handles of
the multiset `held`: every reference count is a number of owners. Callers that return only what
they own keep it, so it is the ledger that the layers above the block manager share.

* `Owned.refs_pos`, `Owned.handle_eq`: what an owner can rely on.
* **`Owned.allocate`**, **`Owned.retain`**, **`Owned.release`**, **`Owned.publish`**,
  **`Owned.lookup`**: the outcomes of the calls in terms of the ledger.
-/

namespace KVFlux.BlockManager

open Fallible Threaded

/-- The ledger of references: `held` lists every owner. -/
structure Owned (m : BlockManager) (held : Multiset BlockHandle) : Prop where
  valid : ∀ h ∈ held, m.Valid h
  refs_eq : ∀ i, (m.slots i).refs = (held.map BlockHandle.id).count i

variable {H : Tokens → UInt64} {m m' : BlockManager} {held : Multiset BlockHandle}
  {h h' : BlockHandle} {p : Tokens} {hasher : Hasher}

theorem owned_init (capacity blockSize : ℕ) : Owned (init capacity blockSize) 0 where
  valid _ hm := absurd hm (Multiset.notMem_zero _)
  refs_eq _ := rfl

namespace Owned

theorem refs_pos (ho : Owned m held) (hh : h ∈ held) : (m.slots h.id).refs ≠ 0 := by
  rw [ho.refs_eq]
  exact Multiset.count_ne_zero.mpr (Multiset.mem_map_of_mem _ hh)

theorem count_pos (ho : Owned m held) {i : ℕ} (hr : (m.slots i).refs ≠ 0) :
    ∃ h ∈ held, h.id = i := by
  rw [ho.refs_eq] at hr
  exact Multiset.mem_map.mp (Multiset.count_ne_zero.mp hr)

/-- Two owners of one slot hold the same handle. -/
theorem handle_eq (ho : Owned m held) (hh : h ∈ held) (hh' : h' ∈ held) (he : h.id = h'.id) :
    h = h' := by
  obtain ⟨-, -, hg⟩ := ho.valid h hh
  obtain ⟨-, -, hg'⟩ := ho.valid h' hh'
  cases h
  cases h'
  simp_all

/-- The only owner of a slot with one reference. -/
theorem count_eq_one (ho : Owned m held) (hh : h ∈ held) (hr : (m.slots h.id).refs = 1) :
    ∀ g ∈ held.erase h, g.id ≠ h.id := by
  intro g hg he
  have hc := ho.refs_eq h.id
  rw [hr, ← Multiset.cons_erase hh, Multiset.map_cons, Multiset.count_cons_self] at hc
  have : h.id ∈ (held.erase h).map BlockHandle.id := he ▸ Multiset.mem_map_of_mem _ hg
  have := Multiset.count_pos.mpr this
  omega

/-- A change that keeps liveness, generations and counts keeps the ledger. -/
theorem frame (ho : Owned m held) (hc : m'.capacity = m.capacity)
    (hs : ∀ i, (m'.slots i).free = (m.slots i).free ∧
      (m'.slots i).generation = (m.slots i).generation ∧ (m'.slots i).refs = (m.slots i).refs) :
    Owned m' held where
  valid h hh := by
    obtain ⟨h1, h2, h3⟩ := ho.valid h hh
    exact ⟨hc ▸ h1, (hs h.id).1.trans h2, (hs h.id).2.1.trans h3⟩
  refs_eq i := (hs i).2.2.trans (ho.refs_eq i)

/-- A new generation of an unowned slot enters the ledger. -/
theorem allocated (ho : Owned m held) (hg : Shaped m) (ha : BlockManager.allocate m = .ok h m') :
    Owned m' (h ::ₘ held) ∧ ∀ g ∈ held, g.id ≠ h.id := by
  obtain ⟨hlt, hr, -, hs, hframe, hc, -⟩ := allocate_ok hg ha
  have hne : ∀ g ∈ held, g.id ≠ h.id := fun g hm he => ho.refs_pos hm (he ▸ hr)
  refine ⟨⟨fun g hm => ?_, fun i => ?_⟩, hne⟩
  · rcases Multiset.mem_cons.mp hm with rfl | hm
    · exact ⟨hc ▸ hlt, by rw [hs], by rw [hs]⟩
    · have := ho.valid g hm
      unfold Valid at this ⊢
      rwa [hframe g.id (hne g hm), hc]
  · rw [Multiset.map_cons, Multiset.count_cons, ← ho.refs_eq]
    by_cases hi : i = h.id
    · rw [if_pos hi, hi, hs, hr]
    · rw [if_neg hi, hframe i hi]; rfl

theorem retained (ho : Owned m held) (hv : m.Valid h) :
    Owned (m.retained h.id) (h ::ₘ held) where
  valid g hm := by
    have hg : m.Valid g := by
      rcases Multiset.mem_cons.mp hm with rfl | hm
      · exact hv
      · exact ho.valid g hm
    unfold Valid at hg ⊢
    rw [retained_slots, retained_capacity]
    split_ifs with he
    · simpa only [he] using hg
    · exact hg
  refs_eq i := by
    rw [Multiset.map_cons, Multiset.count_cons, ← ho.refs_eq, retained_slots]
    split_ifs with hi
    · rw [hi]
    · rfl

theorem released (ho : Owned m held) (hh : h ∈ held) :
    Owned (m.released h.id) (held.erase h) := by
  have hr := ho.refs_pos hh
  have hcount : ∀ i, (held.map BlockHandle.id).count i =
      ((held.erase h).map BlockHandle.id).count i + if i = h.id then 1 else 0 := by
    intro i
    conv_lhs => rw [← Multiset.cons_erase hh]
    rw [Multiset.map_cons, Multiset.count_cons]
  refine ⟨fun g hm => ?_, fun i => ?_⟩
  · have hg := ho.valid g (Multiset.mem_of_mem_erase hm)
    unfold Valid at hg ⊢
    rw [released_slots, released_capacity]
    split_ifs with he h0
    · -- the slot was freed, so no owner is left
      exfalso
      have := hcount h.id
      rw [← ho.refs_eq, if_pos rfl] at this
      have hpos : 0 < ((held.erase h).map BlockHandle.id).count h.id :=
        Multiset.count_pos.mpr (he ▸ Multiset.mem_map_of_mem _ hm)
      omega
    · simpa only [he] using hg
    · exact hg
  · have := hcount i
    rw [← ho.refs_eq] at this
    rw [released_slots]
    split_ifs with hi h0
    · simp only [hi, if_true] at this ⊢; omega
    · simp only [hi, if_true] at this ⊢; omega
    · simpa [hi] using this

theorem published (ho : Owned m held) (id : ℕ) (p : Tokens) (g : UInt64) :
    Owned (m.published id p g) held := by
  refine ho.frame rfl fun i => ?_
  rw [published_slots]
  split_ifs with hi
  · rw [hi]; exact ⟨rfl, rfl, rfl⟩
  · exact ⟨rfl, rfl, rfl⟩

/-! ## Outcomes of the calls -/

/-- **`allocate`** takes an unowned slot, or throws and changes nothing. -/
theorem allocate (ho : Owned m held) (hg : Shaped m) :
    (∃ h m', BlockManager.allocate m = .ok h m' ∧ Owned m' (h ::ₘ held) ∧
      (∀ g ∈ held, g.id ≠ h.id)) ∨
    (∃ e, BlockManager.allocate m = .error e m) := by
  obtain ⟨free, idle, hi⟩ := hg
  rcases allocate_cases hi with hc | ⟨id, hc⟩ | ⟨id, fs, -, -, hc⟩ | ⟨id, is, -, -, -, hc⟩
  · exact .inr ⟨_, hc.2.2⟩
  · exact .inr ⟨_, hc.2.2⟩
  · exact .inl ⟨_, _, hc, ho.allocated ⟨free, idle, hi⟩ hc⟩
  · exact .inl ⟨_, _, hc, ho.allocated ⟨free, idle, hi⟩ hc⟩

/-- **`retain`** by an owner adds an owner, or throws at the maximal count. -/
theorem retain (ho : Owned m held) (hh : h ∈ held) :
    (BlockManager.retain h m = .ok () (m.retained h.id) ∧
      Owned (m.retained h.id) (h ::ₘ held)) ∨
    ((m.slots h.id).refs = sizeMax ∧
      BlockManager.retain h m = .error (.overflowError "reference count exhausted") m) := by
  rcases retain_cases h m with hc | hc | hc
  · exact absurd (ho.valid h hh) hc.1
  · exact .inr hc.2
  · exact .inl ⟨hc.2.2, ho.retained hc.1⟩

/-- **`release`** by an owner always succeeds. -/
theorem release (ho : Owned m held) (hh : h ∈ held) :
    BlockManager.release h m = .ok () (m.released h.id) ∧
      Owned (m.released h.id) (held.erase h) :=
  ⟨release_of_valid (ho.valid h hh) (ho.refs_pos hh), ho.released hh⟩

/-- **`publish`** leaves the ledger alone. -/
theorem publish (ho : Owned m held) (hg : Good H m) (ha : Agrees H hasher) (h : BlockHandle)
    (p : Tokens) :
    (BlockManager.publish hasher h p m = .ok () (m.published h.id p (H p)) ∧
      (m.slots h.id).refs = 1 ∧ Owned (m.published h.id p (H p)) held) ∨
    (∃ e, BlockManager.publish hasher h p m = .error e m) := by
  obtain ⟨free, idle, hi⟩ := hg
  rcases publish_cases hi ha h p with hc | hc | ⟨-, hpre, ⟨e, -, hc⟩ | ⟨i, -, -, hc⟩ | hc⟩
  · exact .inr ⟨_, hc.2⟩
  · exact .inr ⟨_, hc.2.2⟩
  · exact .inr ⟨_, hc⟩
  · exact .inr ⟨_, hc⟩
  · exact .inl ⟨hc.2.2, hpre.1, ho.published _ _ _⟩

/-- **`lookup`** hands out a reference to a cached slot, or changes nothing. -/
theorem lookup (ho : Owned m held) (hg : Good H m) (ha : Agrees H hasher) (p : Tokens) :
    (∃ i, (m.slots i).cached = true ∧ (m.slots i).prefixTokens = p ∧
      BlockManager.lookup hasher p m = .ok (some ⟨i, (m.slots i).generation⟩) (m.retained i) ∧
      Owned (m.retained i) (⟨i, (m.slots i).generation⟩ ::ₘ held)) ∨
    BlockManager.lookup hasher p m = .ok none m ∨
    (∃ e, BlockManager.lookup hasher p m = .error e m) := by
  obtain ⟨free, idle, hi⟩ := hg
  rcases lookup_cases hi ha p with
    hc | ⟨-, ⟨e, -, hc⟩ | ⟨-, hc | ⟨i, -, -, -, hc⟩ | ⟨i, hcd, hp, hr, hc⟩⟩⟩
  · exact .inr (.inl hc.2)
  · exact .inr (.inr ⟨_, hc⟩)
  · exact .inr (.inl hc.2)
  · exact .inr (.inr ⟨_, hc⟩)
  · have hfree := hi.not_free_of_cached hcd
    have hv : m.Valid ⟨i, (m.slots i).generation⟩ := ⟨hi.lt_capacity hfree, hfree, rfl⟩
    exact .inl ⟨i, hcd, hp, hc, ho.retained hv⟩

end Owned

end KVFlux.BlockManager
