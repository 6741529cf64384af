import KVFlux.BlockManager.Acquire

/-!
# The order of reuse

* `reclaimOrder m`: the slots without references in the order in which `allocate` takes them.
* `Inv.reclaimOrder_eq`: the free list, then the idle list.
* **`allocate_reclaim`**, **`retained_reclaim`**: an allocation takes the head, a retained slot
  leaves the list.
-/

namespace KVFlux.BlockManager

open Fallible Threaded

variable {H : Tokens → UInt64} {m m' : BlockManager} {free idle : List ℕ} {h : BlockHandle}
  {id : ℕ}

/-- The slots that `allocate` can take, in its order. -/
def reclaimOrder (m : BlockManager) : List ℕ :=
  walk (fun i => (m.slots i).nextFree) m.capacity m.freeHead ++
    walk m.idleLru.next m.capacity m.idleLru.oldest

theorem Inv.free_length (hi : Inv H m free idle) : free.length ≤ m.capacity := by
  have hsub : free ⊆ List.range m.capacity := fun i hi' =>
    List.mem_range.mpr ((hi.lists.mem_free i).mp hi').1
  simpa using (hi.lists.free_nodup.subperm hsub).length_le

theorem Inv.idle_length (hi : Inv H m free idle) : idle.length ≤ m.capacity := by
  have hsub : idle ⊆ List.range m.capacity := fun i hi' =>
    List.mem_range.mpr (hi.lt_capacity ((hi.lists.mem_idle i).mp hi').1)
  simpa using (hi.lists.lru.nodup.subperm hsub).length_le

theorem Inv.reclaimOrder_eq (hi : Inv H m free idle) : m.reclaimOrder = free ++ idle := by
  unfold reclaimOrder
  rw [hi.lists.chain.walk_eq hi.free_length, hi.lists.lru.oldest_eq]
  rw [show walk m.idleLru.next m.capacity idle.head? = idle from
    (hi.lists.lru.seg.chain).walk_eq hi.idle_length]

theorem Good.mem_reclaimOrder (hg : Good H m) {i : ℕ} :
    i ∈ m.reclaimOrder ↔ i < m.capacity ∧ (m.slots i).refs = 0 := by
  obtain ⟨free, idle, hi⟩ := hg
  rw [hi.reclaimOrder_eq, List.mem_append, hi.lists.mem_free, hi.lists.mem_idle]
  constructor
  · rintro (⟨hlt, hf⟩ | ⟨hf, hr⟩)
    · exact ⟨hlt, (hi.slot i).free_refs hf⟩
    · exact ⟨hi.lt_capacity hf, hr⟩
  · rintro ⟨hlt, hr⟩
    cases hf : (m.slots i).free with
    | true => exact .inl ⟨hlt, by trivial⟩
    | false => exact .inr ⟨by trivial, hr⟩

theorem Good.reclaimOrder_nodup (hg : Good H m) : m.reclaimOrder.Nodup := by
  obtain ⟨free, idle, hi⟩ := hg
  rw [hi.reclaimOrder_eq]
  refine List.nodup_append.mpr ⟨hi.lists.free_nodup, hi.lists.lru.nodup, fun i hf j hj he => ?_⟩
  subst he
  have h₁ := ((hi.lists.mem_free i).mp hf).2
  rw [((hi.lists.mem_idle i).mp hj).1] at h₁
  cases h₁

/-- **An allocation takes the head.** -/
theorem allocate_reclaim (hg : Good H m) (ha : allocate m = .ok h m') :
    m.reclaimOrder = h.id :: m'.reclaimOrder := by
  obtain ⟨free, idle, hi⟩ := hg
  rcases allocate_cases hi.shape with hc | ⟨id, -, -, hc⟩ | ⟨id, fs, rfl, hne, hc⟩ |
    ⟨id, is, rfl, rfl, hne, hc⟩
  · rw [hc.2.2] at ha
    cases ha
  · rw [hc] at ha
    cases ha
  · rw [hc] at ha
    cases ha
    rw [hi.reclaimOrder_eq, (hi.takeFree hne).reclaimOrder_eq, List.cons_append]
  · rw [hc] at ha
    cases ha
    rw [hi.reclaimOrder_eq, (hi.evict hne).reclaimOrder_eq, List.nil_append, List.nil_append]

/-- **A retained slot leaves the list.** -/
theorem retained_reclaim (hg : Good H m) (hf : (m.slots id).free = false)
    (hr : (m.slots id).refs ≠ sizeMax) :
    (m.retained id).reclaimOrder = m.reclaimOrder.erase id := by
  obtain ⟨free, idle, hi⟩ := hg
  have hnot : id ∉ free := fun hm => by
    rw [((hi.lists.mem_free id).mp hm).2] at hf
    cases hf
  rw [hi.reclaimOrder_eq, (hi.retained hf hr).reclaimOrder_eq, List.erase_append_right _ hnot]

end KVFlux.BlockManager
