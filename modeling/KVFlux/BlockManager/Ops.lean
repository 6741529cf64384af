import KVFlux.BlockManager.Invariant

/-!
# What the calls on single blocks do

* `allocate_cases`, `retain_cases`, `release_cases`, `publish_cases`, `lookup_cases`: every
  outcome of a call with its guard and its final state.
* **`allocate_keeps`**, …, **`lookup_keeps`**: each call keeps the invariant, also when it throws.
* `allocate_ok`: what a successful allocation hands out.
* `stats_eq`, `stats_sum`: the loop of `stats` counts; `Inv.stats_free`, `Inv.stats_cachedIdle`:
  two of the counts are the lengths of the lists.
-/

namespace KVFlux.BlockManager

open Fallible Threaded

variable {H : Tokens → UInt64} {m m' : BlockManager} {free idle : List ℕ} {id : ℕ} {s : Slot}
  {hasher : Hasher} {h : BlockHandle} {p : Tokens}

/-- Some free list and some LRU list satisfy the invariant. -/
def Good (H : Tokens → UInt64) (m : BlockManager) : Prop := ∃ free idle, Inv H m free idle

/-- Some free list and some LRU list fit the slots, whatever the hasher returned. -/
def Shaped (m : BlockManager) : Prop := ∃ free idle, Shape m free idle

theorem Good.shaped (hg : Good H m) : Shaped m :=
  let ⟨free, idle, hi⟩ := hg
  ⟨free, idle, hi.shape⟩

theorem good_of_new {capacity blockSize : ℕ} {hasher : Option Hasher}
    (hn : new capacity blockSize hasher = .ok m) : Good H m := by
  unfold new at hn
  split_ifs at hn with hc
  cases hn
  exact ⟨_, _, inv_init capacity blockSize (by omega) (by omega)⟩

/-! ## Outcomes -/

theorem checked_ok (h : BlockHandle) (hv : m.Valid h) : m.checked h = .ok (m.slots h.id) :=
  if_pos hv

theorem checked_error (h : BlockHandle) (hv : ¬ m.Valid h) : m.checked h = .error staleHandle :=
  if_neg hv

theorem retain_cases (h : BlockHandle) (m : BlockManager) :
    (¬ m.Valid h ∧ retain h m = .error staleHandle m) ∨
    (m.Valid h ∧ (m.slots h.id).refs = sizeMax ∧
      retain h m = .error (.overflowError "reference count exhausted") m) ∨
    (m.Valid h ∧ (m.slots h.id).refs ≠ sizeMax ∧ retain h m = .ok () (m.retained h.id)) := by
  unfold retain
  by_cases hv : m.Valid h
  · right
    rw [checked_ok h hv]
    by_cases hr : (m.slots h.id).refs = sizeMax
    · left; exact ⟨hv, hr, if_pos hr⟩
    · right; exact ⟨hv, hr, if_neg hr⟩
  · left
    rw [checked_error h hv]
    exact ⟨hv, rfl⟩

theorem retain_of_valid (hv : m.Valid h) (hr : (m.slots h.id).refs ≠ sizeMax) :
    retain h m = .ok () (m.retained h.id) := by
  rcases retain_cases h m with hc | hc | hc
  · exact absurd hv hc.1
  · exact absurd hc.2.1 hr
  · exact hc.2.2

theorem release_cases (h : BlockHandle) (m : BlockManager) :
    (¬ m.Valid h ∧ release h m = .error staleHandle m) ∨
    (m.Valid h ∧ (m.slots h.id).refs = 0 ∧
      release h m = .error (.invalidArgument "block already released") m) ∨
    (m.Valid h ∧ (m.slots h.id).refs ≠ 0 ∧ release h m = .ok () (m.released h.id)) := by
  unfold release
  by_cases hv : m.Valid h
  · right
    rw [checked_ok h hv]
    by_cases hr : (m.slots h.id).refs = 0
    · left; exact ⟨hv, hr, if_pos hr⟩
    · right
      refine ⟨hv, hr, ?_⟩
      simp only [if_neg hr, released]
      split_ifs <;> rfl
  · left
    rw [checked_error h hv]
    exact ⟨hv, rfl⟩

theorem release_of_valid (hv : m.Valid h) (hr : (m.slots h.id).refs ≠ 0) :
    release h m = .ok () (m.released h.id) := by
  rcases release_cases h m with hc | hc | hc
  · exact absurd hv hc.1
  · exact absurd hc.2.1 hr
  · exact hc.2.2

/-- **The outcomes of `allocate`.** -/
theorem allocate_cases (hi : Shape m free idle) :
    (free = [] ∧ idle = [] ∧ allocate m = .error .capacityError m) ∨
    (∃ id, (free ++ idle).head? = some id ∧ (m.slots id).generation = u64Max ∧
      allocate m = .error (.overflowError "block generation exhausted") m) ∨
    (∃ id fs, free = id :: fs ∧ (m.slots id).generation ≠ u64Max ∧
      allocate m = .ok ⟨id, (m.slots id).generation + 1⟩ (m.takeFree id)) ∨
    (∃ id is, free = [] ∧ idle = id :: is ∧ (m.slots id).generation ≠ u64Max ∧
      allocate m = .ok ⟨id, (m.slots id).generation + 1⟩ (m.evict id)) := by
  have hhead := hi.lists.chain.head_eq
  have hold := hi.lists.lru.oldest_eq
  cases free with
  | cons id fs =>
    have hf := ((hi.lists.mem_free id).mp List.mem_cons_self).2
    have hhead : m.freeHead = some id := hhead
    by_cases hg : (m.slots id).generation = u64Max
    · right; left
      exact ⟨id, rfl, hg, by simp [allocate, hhead, hg]⟩
    · right; right; left
      refine ⟨id, fs, rfl, hg, ?_⟩
      simp [allocate, hhead, hg, hf, takeFree, setSlot]
  | nil =>
    have hhead : m.freeHead = none := hhead
    cases idle with
    | nil =>
      left
      have hold : m.idleLru.oldest = none := hold
      exact ⟨rfl, rfl, by simp [allocate, hhead, hold]⟩
    | cons id is =>
      have hold : m.idleLru.oldest = some id := hold
      have hf := ((hi.lists.mem_idle id).mp List.mem_cons_self).1
      by_cases hg : (m.slots id).generation = u64Max
      · right; left
        exact ⟨id, rfl, hg, by simp [allocate, hhead, hold, hg]⟩
      · right; right; right
        refine ⟨id, is, rfl, rfl, hg, ?_⟩
        simp [allocate, hhead, hold, hg, hf, evict]

/-- In a bucket, the prefix identifies the cached slot. -/
theorem Inv.find_eq_some (hi : Inv H m free idle) :
    ((m.bucket (H p)).find? fun i => (m.slots i).prefixTokens = p) = some id ↔
      (m.slots id).cached = true ∧ (m.slots id).prefixTokens = p := by
  constructor
  · intro hf
    have hm := List.mem_of_find?_eq_some hf
    exact ⟨((hi.indexed.mem_bucket _ _).mp hm).1, by simpa using List.find?_some hf⟩
  · rintro ⟨hc, rfl⟩
    have hm := (hi.indexed.mem_bucket (H (m.slots id).prefixTokens) id).mpr
      ⟨hc, hi.indexed.hash_eq id hc⟩
    cases hf : (m.bucket (H (m.slots id).prefixTokens)).find?
        fun i => (m.slots i).prefixTokens = (m.slots id).prefixTokens with
    | none =>
      have := List.find?_eq_none.mp hf id hm
      simp at this
    | some j =>
      have hj := ((hi.indexed.mem_bucket _ _).mp (List.mem_of_find?_eq_some hf)).1
      have he : (m.slots j).prefixTokens = (m.slots id).prefixTokens := by
        simpa using List.find?_some hf
      rw [hi.indexed.inj j id hj hc he]

theorem Inv.find_eq_none (hi : Inv H m free idle) :
    ((m.bucket (H p)).find? fun i => (m.slots i).prefixTokens = p) = none ↔
      ∀ i, (m.slots i).cached = true → (m.slots i).prefixTokens ≠ p := by
  rw [Option.eq_none_iff_forall_ne_some]
  refine forall_congr' fun i => ?_
  rw [ne_eq, hi.find_eq_some, not_and]

/-- **The outcomes of `publish`.** -/
theorem publish_cases (hi : Inv H m free idle) (ha : Agrees H hasher) (h : BlockHandle)
    (p : Tokens) :
    (¬ m.Valid h ∧ publish hasher h p m = .error staleHandle m) ∨
    (m.Valid h ∧ ((m.slots h.id).refs ≠ 1 ∨ (m.slots h.id).cached = true ∨ p = [] ∨
        p.length % m.blockSize ≠ 0) ∧
      publish hasher h p m =
        .error (.invalidArgument "publish requires a private block and a full prefix") m) ∨
    (m.Valid h ∧ ((m.slots h.id).refs = 1 ∧ (m.slots h.id).cached = false ∧ p ≠ [] ∧
        p.length % m.blockSize = 0) ∧
      ((∃ e, hasher p = .error e ∧ publish hasher h p m = .error e m) ∨
       (∃ i, (m.slots i).cached = true ∧ (m.slots i).prefixTokens = p ∧ publish hasher h p m =
          .error (.invalidArgument "prefix already published; use lookup") m) ∨
       (hasher p = .ok (H p) ∧ (∀ i, (m.slots i).cached = true → (m.slots i).prefixTokens ≠ p) ∧
          publish hasher h p m = .ok () (m.published h.id p (H p))))) := by
  unfold publish
  by_cases hv : m.Valid h
  swap
  · left; rw [checked_error h hv]; exact ⟨hv, rfl⟩
  right
  rw [checked_ok h hv]
  by_cases hb : (m.slots h.id).refs ≠ 1 ∨ (m.slots h.id).cached = true ∨ p = [] ∨
      p.length % m.blockSize ≠ 0
  · left; exact ⟨hv, hb, if_pos hb⟩
  right
  have hg : (m.slots h.id).refs = 1 ∧ (m.slots h.id).cached = false ∧ p ≠ [] ∧
      p.length % m.blockSize = 0 := by
    simp only [ne_eq, not_or, not_not, Bool.not_eq_true] at hb; exact hb
  refine ⟨hv, hg, ?_⟩
  simp only [if_neg hb]
  cases hh : hasher p with
  | error e => left; exact ⟨e, rfl, rfl⟩
  | ok g =>
    right
    obtain rfl := ha p g hh
    simp only
    cases hf : (m.bucket (H p)).find? fun i => (m.slots i).prefixTokens = p with
    | some i =>
      left
      obtain ⟨hc, hp⟩ := hi.find_eq_some.mp hf
      refine ⟨i, hc, hp, if_pos ?_⟩
      exact List.any_eq_true.mpr ⟨i, List.mem_of_find?_eq_some hf, by simpa using hp⟩
    | none =>
      right
      refine ⟨by trivial, hi.find_eq_none.mp hf, if_neg ?_⟩
      intro hany
      obtain ⟨i, hm, he⟩ := List.any_eq_true.mp hany
      exact List.find?_eq_none.mp hf i hm (by simpa using he)

/-- **The outcomes of `lookup`.** -/
theorem lookup_cases (hi : Inv H m free idle) (ha : Agrees H hasher) (p : Tokens) :
    ((p = [] ∨ p.length % m.blockSize ≠ 0) ∧ lookup hasher p m = .ok none m) ∨
    ((p ≠ [] ∧ p.length % m.blockSize = 0) ∧
      ((∃ e, hasher p = .error e ∧ lookup hasher p m = .error e m) ∨
       (hasher p = .ok (H p) ∧
        (((∀ i, (m.slots i).cached = true → (m.slots i).prefixTokens ≠ p) ∧
            lookup hasher p m = .ok none m) ∨
         (∃ i, (m.slots i).cached = true ∧ (m.slots i).prefixTokens = p ∧
            (m.slots i).refs = sizeMax ∧
            lookup hasher p m = .error (.overflowError "reference count exhausted") m) ∨
         (∃ i, (m.slots i).cached = true ∧ (m.slots i).prefixTokens = p ∧
            (m.slots i).refs ≠ sizeMax ∧
            lookup hasher p m = .ok (some ⟨i, (m.slots i).generation⟩) (m.retained i)))))) := by
  unfold lookup
  by_cases hb : p = [] ∨ p.length % m.blockSize ≠ 0
  · left; exact ⟨hb, if_pos hb⟩
  right
  refine ⟨by simpa only [ne_eq, not_or, not_not] using hb, ?_⟩
  simp only [if_neg hb]
  cases hh : hasher p with
  | error e => left; exact ⟨e, rfl, rfl⟩
  | ok g =>
    right
    obtain rfl := ha p g hh
    refine ⟨by trivial, ?_⟩
    simp only
    cases hf : (m.bucket (H p)).find? fun i => (m.slots i).prefixTokens = p with
    | none =>
      left
      refine ⟨hi.find_eq_none.mp hf, ?_⟩
      unfold bucket at hf
      rw [hf]
    | some i =>
      right
      obtain ⟨hc, hp⟩ := hi.find_eq_some.mp hf
      have hfree := hi.not_free_of_cached hc
      have hv : m.Valid ⟨i, (m.slots i).generation⟩ := ⟨hi.lt_capacity hfree, hfree, rfl⟩
      unfold bucket at hf
      rcases retain_cases ⟨i, (m.slots i).generation⟩ m with hr | hr | hr
      · exact absurd hv hr.1
      · left
        refine ⟨i, hc, hp, hr.2.1, ?_⟩
        rw [hf]
        simp only [hr.2.2]
      · right
        refine ⟨i, hc, hp, hr.2.1, ?_⟩
        rw [hf]
        simp only [hr.2.2]

/-! ## The calls keep the invariant -/

theorem allocate_keeps : Keeps (Good H) allocate := by
  rintro m ⟨free, idle, hi⟩
  rcases allocate_cases hi.shape with
    h | ⟨id, h⟩ | ⟨id, fs, rfl, hne, h⟩ | ⟨id, is, rfl, rfl, hne, h⟩
  · rw [h.2.2]; exact ⟨free, idle, hi⟩
  · rw [h.2.2]; exact ⟨free, idle, hi⟩
  · rw [h]; exact ⟨fs, idle, hi.takeFree hne⟩
  · rw [h]; exact ⟨[], is, hi.evict hne⟩

theorem retain_keeps (h : BlockHandle) : Keeps (Good H) (retain h) := by
  rintro m ⟨free, idle, hi⟩
  rcases retain_cases h m with hc | hc | hc
  · rw [hc.2]; exact ⟨free, idle, hi⟩
  · rw [hc.2.2]; exact ⟨free, idle, hi⟩
  · rw [hc.2.2]
    exact ⟨free, idle.erase h.id, hi.retained hc.1.2.1 hc.2.1⟩

theorem release_keeps (h : BlockHandle) : Keeps (Good H) (release h) := by
  rintro m ⟨free, idle, hi⟩
  rcases release_cases h m with hc | hc | hc
  · rw [hc.2]; exact ⟨free, idle, hi⟩
  · rw [hc.2.2]; exact ⟨free, idle, hi⟩
  · rw [hc.2.2]
    exact ⟨_, _, hi.released hc.1.2.1 hc.2.1⟩

theorem publish_keeps (ha : Agrees H hasher) (h : BlockHandle) (p : Tokens) :
    Keeps (Good H) (publish hasher h p) := by
  rintro m ⟨free, idle, hi⟩
  have hkeep : Good H m := ⟨free, idle, hi⟩
  rcases publish_cases hi ha h p with hc | hc | ⟨hv, hpre, ⟨e, -, hc⟩ | ⟨i, -, -, hc⟩ | hc⟩
  · rw [hc.2]; exact hkeep
  · rw [hc.2.2]; exact hkeep
  · rw [hc]; exact hkeep
  · rw [hc]; exact hkeep
  · rw [hc.2.2]
    exact ⟨free, idle, hi.published hv.2.1 hpre.2.1 hpre.2.2 hc.2.1⟩

theorem lookup_keeps (ha : Agrees H hasher) (p : Tokens) : Keeps (Good H) (lookup hasher p) := by
  rintro m ⟨free, idle, hi⟩
  have hkeep : Good H m := ⟨free, idle, hi⟩
  rcases lookup_cases hi ha p with
    hc | ⟨-, ⟨e, -, hc⟩ | ⟨-, hc | ⟨i, -, -, -, hc⟩ | ⟨i, hcd, -, hr, hc⟩⟩⟩
  · rw [hc.2]; exact hkeep
  · rw [hc]; exact hkeep
  · rw [hc.2]; exact hkeep
  · rw [hc]; exact hkeep
  · rw [hc]
    exact ⟨free, idle.erase i, hi.retained (hi.not_free_of_cached hcd) hr⟩

/-! ## Successful allocations -/

/-- **A successful allocation** hands out a slot without references under a new generation; no
other slot changes. -/
theorem allocate_ok (hg : Shaped m) (ha : allocate m = .ok h m') :
    h.id < m.capacity ∧ (m.slots h.id).refs = 0 ∧
      (m.slots h.id).generation + 1 = h.generation ∧
      m'.slots h.id = { m'.slots h.id with
        generation := h.generation, refs := 1, free := false, cached := false } ∧
      (∀ i, i ≠ h.id → m'.slots i = m.slots i) ∧
      m'.capacity = m.capacity ∧ m'.blockSize = m.blockSize := by
  obtain ⟨free, idle, hi⟩ := hg
  rcases allocate_cases hi with hc | ⟨id, hc⟩ | ⟨id, fs, rfl, hne, hc⟩ | ⟨id, is, rfl, rfl, hne, hc⟩
  · rw [hc.2.2] at ha; cases ha
  · rw [hc.2.2] at ha; cases ha
  · rw [hc] at ha
    cases ha
    have hid := (hi.lists.mem_free id).mp List.mem_cons_self
    have hok := hi.slot id
    refine ⟨hid.1, hok.free_refs hid.2, rfl, ?_, fun i hne => ?_, rfl, rfl⟩
    · simp [takeFree_slots, hok.free_cached hid.2]
    · rw [takeFree_slots, if_neg hne]
  · rw [hc] at ha
    cases ha
    have hid := (hi.lists.mem_idle id).mp List.mem_cons_self
    refine ⟨hi.lt_capacity hid.1, hid.2, rfl, ?_, fun i hne => ?_, rfl, rfl⟩
    · simp [evict_slots]
    · rw [evict_slots, if_neg hne]

/-! ## Counting -/

/-- The loop of `stats` counts the slots of each kind. -/
theorem stats_eq (m : BlockManager) : m.stats = ⟨m.capacity,
    (List.range m.capacity).countP fun i => (m.slots i).free,
    (List.range m.capacity).countP fun i => !(m.slots i).free && (m.slots i).refs ≠ 0,
    (List.range m.capacity).countP fun i => !(m.slots i).free && (m.slots i).refs = 0⟩ := by
  have hloop : ∀ (xs : List ℕ) (r : Stats), xs.foldl (fun r i =>
        let s := m.slots i
        if s.free then { r with free := r.free + 1 }
        else if s.refs ≠ 0 then { r with active := r.active + 1 }
        else { r with cachedIdle := r.cachedIdle + 1 }) r =
      ⟨r.capacity, r.free + xs.countP fun i => (m.slots i).free,
        r.active + xs.countP fun i => !(m.slots i).free && (m.slots i).refs ≠ 0,
        r.cachedIdle + xs.countP fun i => !(m.slots i).free && (m.slots i).refs = 0⟩ := by
    intro xs
    induction xs with
    | nil => intro r; rfl
    | cons x xs ih =>
      intro r
      rw [List.foldl_cons, ih]
      cases hf : (m.slots x).free <;> by_cases hr : (m.slots x).refs = 0 <;>
        simp [hf, hr] <;> omega
  have := hloop (List.range m.capacity) ⟨m.capacity, 0, 0, 0⟩
  simpa only [stats, Nat.zero_add] using this

theorem stats_sum (m : BlockManager) :
    m.stats.free + m.stats.active + m.stats.cachedIdle = m.capacity := by
  have hsum : ∀ xs : List ℕ, (xs.countP fun i => (m.slots i).free) +
      (xs.countP fun i => !(m.slots i).free && (m.slots i).refs ≠ 0) +
      (xs.countP fun i => !(m.slots i).free && (m.slots i).refs = 0) = xs.length := by
    intro xs
    induction xs with
    | nil => rfl
    | cons x xs ih =>
      rw [List.length_cons, ← ih]
      cases hf : (m.slots x).free <;> by_cases hr : (m.slots x).refs = 0 <;>
        simp [hf, hr] <;> omega
  rw [stats_eq, hsum, List.length_range]

theorem Inv.stats_free (hi : Inv H m free idle) : m.stats.free = free.length := by
  rw [stats_eq]
  show List.countP _ _ = _
  rw [List.countP_eq_length_filter]
  refine List.Perm.length_eq ((List.perm_ext_iff_of_nodup (List.nodup_range.filter _)
    hi.lists.free_nodup).mpr fun i => ?_)
  rw [hi.lists.mem_free i]
  simp

theorem Inv.stats_cachedIdle (hi : Inv H m free idle) : m.stats.cachedIdle = idle.length := by
  rw [stats_eq]
  show List.countP _ _ = _
  rw [List.countP_eq_length_filter]
  refine List.Perm.length_eq ((List.perm_ext_iff_of_nodup (List.nodup_range.filter _)
    hi.lists.lru.nodup).mpr fun i => ?_)
  rw [hi.lists.mem_idle i]
  constructor
  · intro hm; simpa using (List.mem_filter.mp hm).2
  · intro hm
    have := hi.lt_capacity hm.1
    simpa [this] using hm

end KVFlux.BlockManager
