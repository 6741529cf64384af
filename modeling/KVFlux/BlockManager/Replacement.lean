import KVFlux.BlockManager.SlotLog

/-!
# The replacement policy

* `Replacement m log`: `allocate` takes from a stack of free slots, else from a queue of idle ones.
* **`replacement_policy`**: so it does after every history, and so did every allocation of the
  history.
-/

namespace KVFlux.BlockManager

open Fallible Threaded

variable {H : Tokens → UInt64} {m m' m₀ : BlockManager} {log : List SlotEvent} {h : BlockHandle}
  {capacity id : ℕ} {free idle : List ℕ}

/-- What `allocate` does after the history `log` of a manager with `capacity` slots. -/
structure Replacement (capacity : ℕ) (m : BlockManager) (log : List SlotEvent) : Prop where
  /-- The free list is the stack of the history. -/
  stack : Chain (fun i => (m.slots i).nextFree) m.freeHead (policy capacity log).stack
  mem_stack : ∀ i, i ∈ (policy capacity log).stack ↔ i < capacity ∧ (m.slots i).free = true
  /-- The LRU list is the queue of the history. -/
  queue : m.idleLru.Repr (policy capacity log).queue
  mem_queue : ∀ i, i ∈ (policy capacity log).queue ↔
    (m.slots i).free = false ∧ (m.slots i).refs = 0
  /-- Every allocation of the history took the next slot of its time. -/
  history : ∀ log₁ h log₂, log = log₁ ++ .allocated h :: log₂ →
    (policy capacity log₁).next = some h.id
  /-- The slot freed last is taken first; nothing else changes. -/
  free : (∀ i, (m.slots i).generation ≠ u64Max) → (∃ i < capacity, (m.slots i).free = true) →
    ∃ h m', allocate m = .ok h m' ∧ h.id < capacity ∧ (m.slots h.id).free = true ∧
      (∀ j < capacity, (m.slots j).free = true → j ≠ h.id → Newer log h.id j) ∧
      m'.index = m.index ∧ ∀ j, j ≠ h.id → m'.slots j = m.slots j
  /-- Without a free slot the published slot that has been idle longest is evicted, and leaves the
  index. -/
  evict : (∀ i, (m.slots i).generation ≠ u64Max) → (∀ i < capacity, (m.slots i).free = false) →
    (∃ i < capacity, (m.slots i).refs = 0) →
    ∃ h m', allocate m = .ok h m' ∧ h.id < capacity ∧ (m.slots h.id).cached = true ∧
      (m.slots h.id).refs = 0 ∧
      (∀ j < capacity, (m.slots j).refs = 0 → j ≠ h.id → Older log h.id j) ∧
      (∀ g j, j ∈ m'.bucket g ↔ j ∈ m.bucket g ∧ j ≠ h.id) ∧
      ∀ j, j ≠ h.id → m'.slots j = m.slots j
  /-- If every slot has references, the call throws. -/
  full : (∀ i < capacity, (m.slots i).free = false ∧ (m.slots i).refs ≠ 0) →
    allocate m = .error .capacityError m
  /-- A slot with references is not taken. -/
  unreferenced : ∀ h m', allocate m = .ok h m' → (m.slots h.id).refs = 0
  /-- An idle slot that is acquired and released again goes to the newest end. -/
  again : ∀ h, m.Valid h → (m.slots h.id).refs = 0 → ∃ m₁ m₂, retain h m = .ok () m₁ ∧
    release h m₁ = .ok () m₂ ∧ m₂.freeHead = m.freeHead ∧
    m₂.idleLru.Repr ((policy capacity log).queue.erase h.id ++ [h.id])

/-- An eviction takes one slot out of the index. -/
theorem evict_bucket (hi : Shape m [] (id :: idle)) (hg : (m.slots id).generation ≠ u64Max)
    (g : UInt64) (j : ℕ) : j ∈ (m.evict id).bucket g ↔ j ∈ m.bucket g ∧ j ≠ id := by
  have hi' := hi.evict hg
  rw [hi'.listed.mem_bucket, hi.listed.mem_bucket, evict_slots]
  by_cases hj : j = id
  · simp [hj]
  · simp [hj]

theorem head_of_pairwise {xs : List ℕ} {r : ℕ → ℕ → Prop} (hp : (id :: xs).Pairwise r) {j : ℕ}
    (hj : j ∈ id :: xs) (hne : j ≠ id) : r id j := by
  rcases List.mem_cons.mp hj with hj | hj
  · exact absurd hj hne
  · exact List.rel_of_pairwise_cons hp hj

theorem Slots.replacement (hs : Slots capacity (m, log)) : Replacement capacity m log := by
  have hi := hs.shape
  have hstack := hs.stack_order
  have hqueue := hs.queue_order
  have hhistory := hs.next_eq
  have hcap : m.capacity = capacity := hs.capacity_eq
  simp only at hi hstack hqueue hhistory
  generalize hp : policy capacity log = p at *
  obtain ⟨stack, queue⟩ := p
  have hmem : ∀ i, i ∈ stack ↔ i < capacity ∧ (m.slots i).free = true := hcap ▸ hi.lists.mem_free
  have hidle := hi.lists.mem_idle
  constructor
  case stack => rw [hp]; exact hi.lists.chain
  case mem_stack => rw [hp]; exact hmem
  case queue => rw [hp]; exact hi.lists.lru
  case mem_queue => rw [hp]; exact hidle
  case history => exact hhistory
  case free =>
    rintro hgen ⟨i, hlt, hfree⟩
    have hne : stack ≠ [] := List.ne_nil_of_mem ((hmem i).mpr ⟨hlt, hfree⟩)
    rcases allocate_cases hi with ⟨h0, -⟩ | ⟨id, -, hg, -⟩ | ⟨id, fs, rfl, hg, hc⟩ | ⟨id, is, h0, -⟩
    · exact absurd h0 hne
    · exact absurd hg (hgen id)
    · obtain ⟨hid, hidf⟩ := (hmem id).mp List.mem_cons_self
      refine ⟨_, _, hc, hid, hidf, fun j hj hjf hne => ?_, rfl, fun j hj => ?_⟩
      · exact head_of_pairwise hstack ((hmem j).mpr ⟨hj, hjf⟩) hne
      · rw [takeFree_slots, if_neg hj]
    · exact absurd h0 hne
  case evict =>
    rintro hgen hnone ⟨i, hlt, hr⟩
    have hempty : stack = [] := List.eq_nil_iff_forall_not_mem.mpr fun j hj => by
      obtain ⟨hj, hf⟩ := (hmem j).mp hj
      rw [hnone j hj] at hf
      cases hf
    have hne : queue ≠ [] := List.ne_nil_of_mem ((hidle i).mpr ⟨hnone i hlt, hr⟩)
    subst hempty
    rcases allocate_cases hi with ⟨-, h0, -⟩ | ⟨id, -, hg, -⟩ | ⟨id, fs, h0, -⟩ |
      ⟨id, is, -, rfl, hg, hc⟩
    · exact absurd h0 hne
    · exact absurd hg (hgen id)
    · cases h0
    · obtain ⟨hidf, hidr⟩ := (hidle id).mp List.mem_cons_self
      refine ⟨_, _, hc, hcap ▸ hi.lt_capacity hidf, (hi.slot id).idle_cached hidf hidr, hidr,
        fun j hj hjr hne => ?_, evict_bucket hi hg, fun j hj => ?_⟩
      · exact head_of_pairwise hqueue ((hidle j).mpr ⟨hnone j hj, hjr⟩) hne
      · rw [evict_slots, if_neg hj]
  case full =>
    intro hall
    rcases allocate_cases hi with ⟨-, -, hc⟩ | ⟨id, hid, -⟩ | ⟨id, fs, rfl, -⟩ | ⟨id, is, -, rfl, -⟩
    · exact hc
    · rcases List.mem_append.mp (List.mem_of_mem_head? hid) with hid | hid
      · obtain ⟨hlt, hf⟩ := (hmem id).mp hid
        rw [(hall id hlt).1] at hf
        cases hf
      · obtain ⟨hf, hr⟩ := (hidle id).mp hid
        exact absurd hr (hall id (hcap ▸ hi.lt_capacity hf)).2
    · obtain ⟨hlt, hf⟩ := (hmem id).mp List.mem_cons_self
      rw [(hall id hlt).1] at hf
      cases hf
    · obtain ⟨hf, hr⟩ := (hidle id).mp List.mem_cons_self
      exact absurd hr (hall id (hcap ▸ hi.lt_capacity hf)).2
  case unreferenced =>
    intro h m' ha
    exact (allocate_ok ⟨_, _, hi⟩ ha).2.1
  case again =>
    intro h hv hr
    have hmax : (m.slots h.id).refs ≠ sizeMax := by rw [hr]; decide
    have hv₁ : (m.retained h.id).Valid h := by
      refine ⟨?_, ?_, ?_⟩
      · rw [retained_capacity]; exact hv.1
      · rw [retained_slots, if_pos rfl]; exact hv.2.1
      · rw [retained_slots, if_pos rfl]; exact hv.2.2
    have hr₁ : ((m.retained h.id).slots h.id).refs = 1 := by
      rw [retained_slots, if_pos rfl]
      show (m.slots h.id).refs + 1 = 1
      rw [hr]
    have hc₁ : ((m.retained h.id).slots h.id).cached = true := by
      rw [retained_slots, if_pos rfl]
      exact (hi.slot h.id).idle_cached hv.2.1 hr
    have hi₁ := hi.retained hv.2.1 hmax
    have hi₂ := hi₁.released hv₁.2.1 (by rw [hr₁]; exact one_ne_zero)
    refine ⟨_, _, retain_of_valid hv hmax, release_of_valid hv₁ (by rw [hr₁]; exact one_ne_zero),
      ?_, ?_⟩
    · rw [hi₂.lists.chain.head_eq, hi.lists.chain.head_eq]
      unfold releasedFree
      rw [if_neg (by simp [hc₁])]
    · have := hi₂.lists.lru
      unfold releasedIdle at this
      rw [if_pos ⟨hr₁, hc₁⟩] at this
      rw [hp]
      exact this

/-- **Main result.** After every history of calls `allocate` follows the policy of a stack and a
queue, and so did every allocation of the history, inside `acquire` too. -/
theorem replacement_policy {blockSize : ℕ} {hasher : Option Hasher}
    (hn : new capacity blockSize hasher = .ok m₀) (ops : List (Hasher × Op)) :
    Replacement capacity (run m₀ ops) (slotHistory m₀ ops).2 := by
  have hs := slotHistory_slots hn ops
  have hfst := slotHistory_fst m₀ ops
  rw [← hfst]
  exact hs.replacement

/-- Two blocks are published and released, the older one is acquired and released again: now the
other one is next. -/
theorem replacement_policy_again :
    let ops : List (Hasher × Op) := [(fun _ => .ok 0, .acquire [1]), (fun _ => .ok 0, .acquire [2]),
      (fun _ => .ok 0, .release ⟨0, 1⟩), (fun _ => .ok 0, .release ⟨1, 1⟩),
      (fun _ => .ok 0, .retain ⟨0, 1⟩), (fun _ => .ok 0, .release ⟨0, 1⟩)]
    (policy 2 (slotHistory (init 2 1) ops).2).queue = [1, 0] ∧
      Replacement 2 (run (init 2 1) ops) (slotHistory (init 2 1) ops).2 := by
  intro ops
  have hn : new 2 1 (some fun _ => .ok 0) = .ok (init 2 1) := rfl
  exact ⟨by decide +kernel, replacement_policy hn ops⟩

end KVFlux.BlockManager
