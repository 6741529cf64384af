import KVFlux.BlockManager.Acquire
import KVFlux.BlockManager.Run

/-!
# The capacity condition of `acquire`

The hasher is a function `H` of the prefix that does not throw.

* `needed m tokens`: the blocks of `tokens` that are not in use under their prefix already.
* `spare m`: the slots without references; `spare_eq` counts them.
* `Grown m m' blocks`: the loop has taken `blocks` on the way from `m` to `m'`.
* `grow_block`, `grow_loop`: one block takes one spare slot unless it is in use already.
* **`acquire_exact`**: `acquire` throws exactly when `needed` exceeds `spare`, and then gives back
  all it took.
-/

namespace KVFlux.BlockManager

open Fallible Finset

variable {H : Tokens → UInt64} {m m' m'' m₀ : BlockManager} {blocks : List BlockHandle}
  {h : BlockHandle} {p tokens : Tokens} {id j : ℕ}

/-- A slot with references is published with the prefix `p`. -/
def InUse (m : BlockManager) (p : Tokens) : Prop :=
  ∃ i < m.capacity, (m.slots i).refs ≠ 0 ∧ (m.slots i).cached = true ∧ (m.slots i).prefixTokens = p

instance (m : BlockManager) (p : Tokens) : Decidable (m.InUse p) := by
  unfold InUse; infer_instance

/-- The number of blocks that `tokens` take, the partial one included. -/
def blockCount (m : BlockManager) (tokens : Tokens) : ℕ :=
  tokens.length / m.blockSize + if tokens.length % m.blockSize ≠ 0 then 1 else 0

/-- Block `i` of `tokens` is full and in use under its prefix. -/
def BlockInUse (m : BlockManager) (tokens : Tokens) (i : ℕ) : Prop :=
  (i + 1) * m.blockSize ≤ tokens.length ∧ m.InUse (tokens.take ((i + 1) * m.blockSize))

instance (m : BlockManager) (tokens : Tokens) (i : ℕ) : Decidable (m.BlockInUse tokens i) := by
  unfold BlockInUse; infer_instance

/-- The blocks from block `j` on that are not in use already. -/
def neededFrom (m : BlockManager) (tokens : Tokens) (j : ℕ) : ℕ :=
  ∑ i ∈ Ico j (m.blockCount tokens), if m.BlockInUse tokens i then 0 else 1

/-- The blocks of `tokens` other than full blocks whose prefix is published in a slot with
references. -/
def needed (m : BlockManager) (tokens : Tokens) : ℕ := m.neededFrom tokens 0

/-- The slots that `allocate` can hand out. -/
def spare (m : BlockManager) : ℕ := m.stats.free + m.stats.cachedIdle

/-! ## Counting -/

theorem spare_eq (hg : Good H m) :
    m.spare = ((range m.capacity).filter fun i => (m.slots i).refs = 0).card := by
  obtain ⟨free, idle, hi⟩ := hg
  have hsum : ∀ xs : List ℕ, (xs.countP fun i => (m.slots i).free) +
      (xs.countP fun i => !(m.slots i).free && (m.slots i).refs = 0) =
        xs.countP fun i => (m.slots i).refs = 0 := by
    intro xs
    induction xs with
    | nil => rfl
    | cons x xs ih =>
      have hx := (hi.slot x).free_refs
      rw [List.countP_cons, List.countP_cons, List.countP_cons, ← ih]
      cases hf : (m.slots x).free with
      | true => simp [hx hf]; omega
      | false => simp; omega
  unfold spare
  rw [stats_eq, hsum, List.countP_eq_length_filter]
  rfl

/-- The number of spare slots depends on the references only. -/
theorem spare_congr (hg : Good H m) (hg' : Good H m') (hc : m'.capacity = m.capacity)
    (hr : ∀ i, (m'.slots i).refs = (m.slots i).refs) : m'.spare = m.spare := by
  rw [spare_eq hg, spare_eq hg', hc]
  simp only [hr]

/-- A slot that gets its first reference is no longer spare. -/
theorem spare_taken (hg : Good H m) (hg' : Good H m') (hc : m'.capacity = m.capacity)
    (hid : id < m.capacity) (hr : (m.slots id).refs = 0) (hr' : (m'.slots id).refs ≠ 0)
    (hs : ∀ i, i ≠ id → (m'.slots i).refs = (m.slots i).refs) : m'.spare + 1 = m.spare := by
  rw [spare_eq hg, spare_eq hg', hc]
  have hmem : id ∈ (range m.capacity).filter fun i => (m.slots i).refs = 0 :=
    mem_filter.mpr ⟨mem_range.mpr hid, hr⟩
  rw [← card_erase_add_one hmem]
  congr 2
  ext i
  simp only [mem_filter, mem_erase, mem_range]
  by_cases hi : i = id
  · subst hi
    simp [hr']
  · rw [hs i hi]
    simp [hi]

theorem active_eq (m : BlockManager) : m.stats.active = m.capacity - m.spare := by
  have := m.stats_sum
  unfold spare
  omega

theorem neededFrom_of_le (hj : m.blockCount tokens ≤ j) : m.neededFrom tokens j = 0 := by
  unfold neededFrom
  rw [Ico_eq_empty_of_le hj, sum_empty]

theorem neededFrom_of_lt (hj : j < m.blockCount tokens) : m.neededFrom tokens j =
    (if m.BlockInUse tokens j then 0 else 1) + m.neededFrom tokens (j + 1) :=
  sum_eq_sum_Ico_succ_bot hj _

/-- Block `j` exists when tokens are left behind the first `j` blocks. -/
theorem lt_blockCount (hn : 0 < m.blockSize) :
    j < m.blockCount tokens ↔ j * m.blockSize < tokens.length := by
  have hdiv := Nat.div_add_mod tokens.length m.blockSize
  have hmod := Nat.mod_lt tokens.length hn
  unfold blockCount
  generalize tokens.length / m.blockSize = d at *
  generalize tokens.length % m.blockSize = r at *
  rw [Nat.mul_comm] at hdiv
  constructor
  · intro hj
    rcases Nat.lt_or_ge j d with hjd | hjd
    · have := Nat.mul_le_mul_right m.blockSize (Nat.succ_le_of_lt hjd)
      rw [Nat.succ_mul] at this
      omega
    · split_ifs at hj with hr
      · obtain rfl : j = d := by omega
        omega
      · omega
  · intro hj
    rcases Nat.lt_or_ge j d with hjd | hjd
    · omega
    · have := Nat.mul_le_mul_right m.blockSize hjd
      rw [if_pos (by omega)]
      by_contra hlt
      have := Nat.mul_le_mul_right m.blockSize (show d + 1 ≤ j by omega)
      rw [Nat.succ_mul] at this
      omega

/-! ## The loop's progress -/

/-- The loop has taken `blocks`, all different, on the way from `m` to `m'`: each got one
reference, and what was in use stays as it was. -/
structure Grown (H : Tokens → UInt64) (m m' : BlockManager) (blocks : List BlockHandle) : Prop where
  good : Good H m'
  capacity_eq : m'.capacity = m.capacity
  blockSize_eq : m'.blockSize = m.blockSize
  valid : ∀ h ∈ blocks, m'.Valid h
  nodup : (blocks.map BlockHandle.id).Nodup
  refs_eq : ∀ i, (m'.slots i).refs =
    (m.slots i).refs + if i ∈ blocks.map BlockHandle.id then 1 else 0
  frame : ∀ i, i ∉ blocks.map BlockHandle.id → m'.slots i = m.slots i
  busy : ∀ i, (m.slots i).refs ≠ 0 → (m'.slots i).generation = (m.slots i).generation ∧
    (m'.slots i).cached = (m.slots i).cached ∧
    (m'.slots i).prefixTokens = (m.slots i).prefixTokens

theorem Grown.nil (hg : Good H m) : Grown H m m [] where
  good := hg
  capacity_eq := rfl
  blockSize_eq := rfl
  valid := nofun
  nodup := List.nodup_nil
  refs_eq i := by simp
  frame i _ := rfl
  busy i _ := ⟨rfl, rfl, rfl⟩

theorem Grown.owns (hw : Grown H m m' blocks) : Owns m' blocks where
  valid := hw.valid
  refs_ne h hh := by
    rw [hw.refs_eq, if_pos (List.mem_map_of_mem hh)]
    omega
  nodup := hw.nodup.of_map _

/-- One more block, which was not among those taken. -/
theorem Grown.snoc (hw : Grown H m m' blocks) (hg : Good H m'')
    (hc : m''.capacity = m'.capacity) (hb : m''.blockSize = m'.blockSize)
    (hid : h.id ∉ blocks.map BlockHandle.id) (hv : m''.Valid h)
    (hr : (m''.slots h.id).refs = (m'.slots h.id).refs + 1)
    (hs : ∀ i, i ≠ h.id → m''.slots i = m'.slots i)
    (hbusy : (m'.slots h.id).refs ≠ 0 →
      (m''.slots h.id).generation = (m'.slots h.id).generation ∧
      (m''.slots h.id).cached = (m'.slots h.id).cached ∧
      (m''.slots h.id).prefixTokens = (m'.slots h.id).prefixTokens) :
    Grown H m m'' (blocks ++ [h]) where
  good := hg
  capacity_eq := hc.trans hw.capacity_eq
  blockSize_eq := hb.trans hw.blockSize_eq
  valid g hm := by
    rcases List.mem_append.mp hm with hm | hm
    · have hne : g.id ≠ h.id := fun he => hid (he ▸ List.mem_map_of_mem hm)
      have := hw.valid g hm
      unfold Valid at this ⊢
      rwa [hc, hs g.id hne]
    · rwa [List.mem_singleton.mp hm]
  nodup := by
    rw [List.map_append]
    exact List.nodup_append.mpr ⟨hw.nodup, List.nodup_singleton _, fun a ha b hb he => hid
      (List.mem_singleton.mp hb ▸ he ▸ ha)⟩
  refs_eq i := by
    have := hw.refs_eq i
    by_cases hi : i = h.id
    · subst hi
      rw [if_neg hid] at this
      rw [hr, this, if_pos (by simp)]
    · rw [hs i hi, this]
      simp [hi]
  frame i hi := by
    rw [List.map_append, List.mem_append, not_or] at hi
    have hne : i ≠ h.id := fun he => hi.2 (by simp [he])
    rw [hs i hne, hw.frame i hi.1]
  busy i hi := by
    by_cases he : i = h.id
    · subst he
      have hf := hw.frame _ hid
      rw [← hf] at hi ⊢
      exact hbusy hi
    · rw [hs i he]
      exact hw.busy i hi

/-- The slots taken so far hold at most the tokens covered so far. -/
def Behind (m : BlockManager) (p : Tokens) (blocks : List BlockHandle) : Prop :=
  ∀ h ∈ blocks, (m.slots h.id).prefixTokens.length ≤ p.length

/-- A slot published with a longer prefix was not touched by the loop. -/
theorem Behind.notMem (hb : Behind m' p blocks) (hlt : p.length < (m'.slots id).prefixTokens.length) :
    id ∉ blocks.map BlockHandle.id := by
  intro hm
  obtain ⟨g, hg, rfl⟩ := List.mem_map.mp hm
  have := hb g hg
  omega

/-- A prefix is in use at the start iff the slot that now holds it had references. -/
theorem Grown.inUse_iff (hw : Grown H m m' blocks) (hi : Good H m) {q : Tokens} : m.InUse q ↔
      ∃ i, (m'.slots i).cached = true ∧ (m'.slots i).prefixTokens = q ∧ (m.slots i).refs ≠ 0 := by
  constructor
  · rintro ⟨i, -, hr, hc, hq⟩
    obtain ⟨-, hc', hq'⟩ := hw.busy i hr
    exact ⟨i, hc'.trans hc, hq'.trans hq, hr⟩
  · rintro ⟨i, hc, hq, hr⟩
    obtain ⟨-, hc', hq'⟩ := hw.busy i hr
    obtain ⟨free, idle, hi⟩ := hi
    rw [hc'] at hc
    exact ⟨i, hi.lt_capacity (hi.not_free_of_cached hc), hr, hc, hq'.symm.trans hq⟩

/-- The counters of `m` are not exhausted. -/
structure Unexhausted (m : BlockManager) : Prop where
  generation : ∀ i < m.capacity, (m.slots i).generation ≠ u64Max
  refs : ∀ i < m.capacity, (m.slots i).refs ≠ sizeMax

/-- A new slot. Its counters are those of `m`, since the loop has not touched it. -/
theorem grow_allocate (hu : Unexhausted m) (hw : Grown H m m' blocks) :
    (∃ h m'', allocate m' = .ok h m'' ∧ Grown H m m'' (blocks ++ [h]) ∧
      m''.spare + 1 = m'.spare ∧ h.id ∉ blocks.map BlockHandle.id ∧
      (m'.slots h.id).refs = 0 ∧ (m''.slots h.id).refs = 1 ∧ (m''.slots h.id).cached = false ∧
      (∀ i, i ≠ h.id → m''.slots i = m'.slots i) ∧
      ∀ p, (∀ i, (m'.slots i).cached = true → (m'.slots i).prefixTokens ≠ p) →
        ∀ i, (m''.slots i).cached = true → (m''.slots i).prefixTokens ≠ p) ∨
    (allocate m' = .error .capacityError m' ∧ m'.spare = 0) := by
  have hg := hw.good
  have hs := hg.shaped
  have hfresh : ∀ i, (m'.slots i).refs = 0 → i ∉ blocks.map BlockHandle.id := fun i hr hm => by
    have := hw.refs_eq i
    rw [hr, if_pos hm] at this
    omega
  cases ha : allocate m' with
  | ok h m'' =>
    obtain ⟨hid, hr, hgen, hslot, hframe, hc, hb⟩ := allocate_ok hs ha
    have hrefs : (m''.slots h.id).refs = 1 := by rw [hslot]
    have hunc : (m''.slots h.id).cached = false := by rw [hslot]
    have hg' : Good H m'' := by
      have := allocate_keeps (H := H) m' hg
      rwa [ha] at this
    refine .inl ⟨h, m'', rfl, ?_, ?_, hfresh _ hr, hr, hrefs, hunc, hframe, fun p hp i hi => ?_⟩
    · refine hw.snoc hg' hc hb (hfresh _ hr) ⟨?_, ?_, ?_⟩ ?_ hframe fun hne => absurd hr hne
      · rw [hc]; exact hid
      · rw [hslot]
      · rw [hslot]
      · rw [hr, hrefs]
    · exact spare_taken hg hg' hc hid hr (by rw [hrefs]; exact one_ne_zero) fun i hi => by
        rw [hframe i hi]
    · have hne : i ≠ h.id := fun he => by rw [he, hunc] at hi; cases hi
      rw [hframe i hne] at hi ⊢
      exact hp i hi
  | error e m'' =>
    right
    obtain ⟨free, idle, hi⟩ := hg
    rcases allocate_cases hi.shape with ⟨rfl, rfl, hc⟩ | ⟨id, hid, hgen, -⟩ | ⟨id, fs, -, -, hc⟩ |
      ⟨id, is, -, -, -, hc⟩
    · rw [ha] at hc
      cases hc
      refine ⟨rfl, ?_⟩
      unfold spare
      rw [hi.stats_free, hi.stats_cachedIdle]
      rfl
    · -- the head of the lists has no references, so its generation is that of the start
      have hr : (m'.slots id).refs = 0 ∧ id < m'.capacity := by
        rcases List.mem_append.mp (List.mem_of_mem_head? hid) with hm | hm
        · obtain ⟨hlt, hf⟩ := (hi.lists.mem_free id).mp hm
          exact ⟨(hi.slot id).free_refs hf, hlt⟩
        · obtain ⟨hf, hr⟩ := (hi.lists.mem_idle id).mp hm
          exact ⟨hr, hi.lt_capacity hf⟩
      rw [hw.frame id (hfresh id hr.1)] at hgen
      exact absurd hgen (hu.generation id (hw.capacity_eq ▸ hr.2))
    · rw [ha] at hc; cases hc
    · rw [ha] at hc; cases hc

theorem Behind.snoc (hb : Behind m' p blocks) {q : Tokens} (hlt : p.length < q.length)
    (hs : ∀ i, i ≠ h.id → m''.slots i = m'.slots i) (hp : (m''.slots h.id).prefixTokens = q)
    (hid : h.id ∉ blocks.map BlockHandle.id) : Behind m'' q (blocks ++ [h]) := by
  intro g hg
  rcases List.mem_append.mp hg with hg | hg
  · have hne : g.id ≠ h.id := fun he => hid (he ▸ List.mem_map_of_mem hg)
    rw [hs g.id hne]
    exact (hb g hg).trans hlt.le
  · rw [List.mem_singleton.mp hg, hp]

theorem agrees_ok (H : Tokens → UInt64) : Agrees H fun p => .ok (H p) := fun _ _ hg =>
  (Except.ok.inj hg).symm

/-- A missed full block: a slot without references is taken and published. -/
theorem grow_miss (hu : Unexhausted m) (hw : Grown H m m' blocks) (hb : Behind m' p blocks)
    {q : Tokens} (hlt : p.length < q.length) (hq : q ≠ [] ∧ q.length % m'.blockSize = 0)
    (hnone : ∀ i, (m'.slots i).cached = true → (m'.slots i).prefixTokens ≠ q) :
    (∃ h m'', takeBlock (fun p => .ok (H p)) q true (m', blocks) = .ok () (m'', blocks ++ [h]) ∧
      Grown H m m'' (blocks ++ [h]) ∧ Behind m'' q (blocks ++ [h]) ∧ m''.spare + 1 = m'.spare) ∨
    (takeBlock (fun p => .ok (H p)) q true (m', blocks) = .error .capacityError (m', blocks) ∧
      m'.spare = 0) := by
  unfold takeBlock
  rcases grow_allocate hu hw with
    ⟨h, m₁, ha, hw₁, hspare, hid, hr, hr₁, hc₁, hs₁, hkeep⟩ | ⟨ha, hspare⟩
  swap
  · right
    simp only [bind_apply, onFst_apply, ha]
    exact ⟨trivial, hspare⟩
  left
  obtain ⟨free₁, idle₁, hi₁⟩ := hw₁.good
  have hv₁ : m₁.Valid h := hw₁.valid h (by simp)
  have hsize : m₁.blockSize = m'.blockSize := hw₁.blockSize_eq.trans hw.blockSize_eq.symm
  have hcap : m₁.capacity = m'.capacity := hw₁.capacity_eq.trans hw.capacity_eq.symm
  have hpub : publish (fun p => .ok (H p)) h q m₁ = .ok () (m₁.published h.id q (H q)) := by
    rcases publish_cases hi₁ (agrees_ok H) h q with ⟨hv, -⟩ | ⟨-, hbad, -⟩ |
      ⟨-, -, ⟨e, he, -⟩ | ⟨i, hc, hp, -⟩ | ⟨-, -, hpub⟩⟩
    · exact absurd hv₁ hv
    · rw [hr₁, hc₁, hsize] at hbad
      rcases hbad with hbad | hbad | hbad | hbad
      · exact absurd rfl hbad
      · cases hbad
      · exact absurd hbad hq.1
      · exact absurd hq.2 hbad
    · cases he
    · exact absurd hp (hkeep q hnone i hc)
    · exact hpub
  have hg₂ : Good H (m₁.published h.id q (H q)) := by
    have := publish_keeps (agrees_ok H) h q m₁ hw₁.good
    rwa [hpub] at this
  have hs : ∀ i, i ≠ h.id → (m₁.published h.id q (H q)).slots i = m'.slots i := fun i hi => by
    rw [published_slots, if_neg hi, hs₁ i hi]
  have hslot : (m₁.published h.id q (H q)).slots h.id =
      { m₁.slots h.id with prefixTokens := q, hash := H q, cached := true } := by
    rw [published_slots, if_pos rfl]
  simp only [bind_apply, onFst_apply, ha, modify_apply, if_true, hpub]
  refine ⟨h, m₁.published h.id q (H q), rfl, ?_, hb.snoc hlt hs (by rw [hslot]) hid, ?_⟩
  · refine hw.snoc hg₂ hcap hsize hid ⟨hv₁.1, ?_, ?_⟩ ?_ hs fun hne => absurd hr hne
    · rw [hslot]; exact hv₁.2.1
    · rw [hslot]; exact hv₁.2.2
    · rw [hslot, hr]; exact hr₁
  · rw [← hspare, spare_congr hw₁.good hg₂ rfl fun i => ?_]
    by_cases hx : i = h.id
    · rw [hx, hslot]
    · rw [hs i hx, hs₁ i hx]

/-- A hit takes a spare slot iff the slot has no references. -/
theorem grow_hit (hw : Grown H m m' blocks) (hid : id ∉ blocks.map BlockHandle.id)
    (hc : (m'.slots id).cached = true) (hr : (m'.slots id).refs ≠ sizeMax) :
    Grown H m (m'.retained id) (blocks ++ [⟨id, (m'.slots id).generation⟩]) ∧
      (m'.retained id).spare + (if (m'.slots id).refs ≠ 0 then 0 else 1) = m'.spare := by
  obtain ⟨free, idle, hi⟩ := hw.good
  have hfree := hi.not_free_of_cached hc
  have hlt := hi.lt_capacity hfree
  have hslot : (m'.retained id).slots id = { m'.slots id with refs := (m'.slots id).refs + 1 } := by
    rw [retained_slots, if_pos rfl]
  have hs : ∀ i, i ≠ id → (m'.retained id).slots i = m'.slots i := fun i hi => by
    rw [retained_slots, if_neg hi]
  have hg : Good H (m'.retained id) := ⟨_, _, hi.retained hfree hr⟩
  constructor
  · refine hw.snoc hg retained_capacity retained_blockSize hid ⟨?_, ?_, ?_⟩ ?_ hs fun _ => ?_
    · rw [retained_capacity]; exact hlt
    · rw [hslot]; exact hfree
    · rw [hslot]
    · rw [hslot]
    · rw [hslot]; exact ⟨rfl, rfl, rfl⟩
  · split_ifs with hz
    · rw [Nat.add_zero, spare_eq hw.good, spare_eq hg, retained_capacity]
      congr 1
      ext i
      by_cases hi : i = id
      · simp [hi, hslot, hz]
      · simp [hs i hi]
    · refine spare_taken hw.good hg retained_capacity hlt (not_not.mp hz) ?_ fun i hi => ?_
      · rw [hslot]; exact Nat.succ_ne_zero _
      · rw [hs i hi]

/-- **One full block** takes a spare slot unless its prefix was in use. -/
theorem grow_block (hi : Good H m) (hu : Unexhausted m) (hw : Grown H m m' blocks)
    (hb : Behind m' p blocks) {q : Tokens} (hlt : p.length < q.length)
    (hq : q.length % m.blockSize = 0) :
    (∃ h m'', acquireBlock (fun p => .ok (H p)) q true (m', blocks) = .ok () (m'', blocks ++ [h]) ∧
      Grown H m m'' (blocks ++ [h]) ∧ Behind m'' q (blocks ++ [h]) ∧
      m''.spare + (if m.InUse q then 0 else 1) = m'.spare) ∨
    (acquireBlock (fun p => .ok (H p)) q true (m', blocks) = .error .capacityError (m', blocks) ∧
      ¬ m.InUse q ∧ m'.spare = 0) := by
  obtain ⟨free, idle, hi'⟩ := hw.good
  have hne : q ≠ [] := List.length_pos_iff.mp (by omega)
  have hmod : q.length % m'.blockSize = 0 := hw.blockSize_eq ▸ hq
  rw [acquireBlock_eq, if_pos rfl]
  rcases lookup_cases hi' (agrees_ok H) q with ⟨hbad, -⟩ | ⟨-, ⟨e, he, -⟩ | ⟨-, hc⟩⟩
  · rcases hbad with hbad | hbad
    · exact absurd hbad hne
    · exact absurd hmod hbad
  · cases he
  rcases hc with ⟨hnone, hl⟩ | ⟨id, hc, hp, hr, -⟩ | ⟨id, hc, hp, hr, hl⟩
  · have hnot : ¬ m.InUse q := fun hx => by
      obtain ⟨i, hc, hp, -⟩ := (hw.inUse_iff hi).mp hx
      exact hnone i hc hp
    rw [hl, if_neg hnot]
    rcases grow_miss hu hw hb hlt ⟨hne, hmod⟩ hnone with ⟨h, m'', ht⟩ | ⟨ht, hspare⟩
    · exact .inl ⟨h, m'', ht⟩
    · exact .inr ⟨ht, hnot, hspare⟩
  · have hid : id ∉ blocks.map BlockHandle.id := hb.notMem (by rw [hp]; exact hlt)
    rw [hw.frame id hid] at hr
    have hlt := hi'.lt_capacity (hi'.not_free_of_cached hc)
    exact absurd hr (hu.refs id (hw.capacity_eq ▸ hlt))
  · -- the slot was not touched, so its references are those of the start
    left
    have hid : id ∉ blocks.map BlockHandle.id := hb.notMem (by rw [hp]; exact hlt)
    have huse : m.InUse q ↔ (m'.slots id).refs ≠ 0 := by
      rw [hw.inUse_iff hi, hw.frame id hid]
      constructor
      · rintro ⟨i, hci, hpi, hri⟩
        rwa [hi'.indexed.inj i id hci hc (hpi.trans hp.symm)] at hri
      · exact fun hri => ⟨id, hc, hp, hri⟩
    obtain ⟨hw', hspare⟩ := grow_hit hw hid hc hr
    have hs : ∀ i, i ≠ id → (m'.retained id).slots i = m'.slots i := fun i hi => by
      rw [retained_slots, if_neg hi]
    rw [hl]
    refine ⟨_, _, rfl, hw', hb.snoc hlt hs ?_ hid, ?_⟩
    · rw [retained_slots, if_pos rfl]
      exact hp
    · simp only [huse]
      exact hspare

/-- The rest of the tokens after block `j`. -/
theorem take_next {n : ℕ} (tokens : Tokens) (j : ℕ) :
    tokens.take (j * n) ++ (tokens.drop (j * n)).take (min n (tokens.drop (j * n)).length) =
      tokens.take ((j + 1) * n) := by
  rw [← List.take_eq_take_min, Nat.succ_mul, List.take_add]

theorem drop_next {n : ℕ} (tokens : Tokens) (j : ℕ) :
    (tokens.drop (j * n)).drop (min n (tokens.drop (j * n)).length) =
      tokens.drop ((j + 1) * n) := by
  rw [← List.drop_eq_drop_min, Nat.succ_mul, List.drop_drop]

/-- **The loop of `acquire`** from block `j` on, by induction on its rounds. -/
theorem grow_loop (hi : Good H m) (hu : Unexhausted m) (tokens : Tokens) (fuel : ℕ) :
    ∀ {m' : BlockManager} {blocks : List BlockHandle} (j : ℕ), Grown H m m' blocks →
      (j < m.blockCount tokens → Behind m' (tokens.take (j * m.blockSize)) blocks) →
      tokens.length - j * m.blockSize ≤ fuel →
      (∃ m'' blocks', acquireLoop (fun p => .ok (H p)) m.blockSize fuel
          (tokens.take (j * m.blockSize)) (tokens.drop (j * m.blockSize)) (m', blocks) =
            .ok () (m'', blocks') ∧ Grown H m m'' blocks' ∧
          m''.spare + m.neededFrom tokens j = m'.spare) ∨
      ∃ m'' blocks', acquireLoop (fun p => .ok (H p)) m.blockSize fuel
          (tokens.take (j * m.blockSize)) (tokens.drop (j * m.blockSize)) (m', blocks) =
            .error .capacityError (m'', blocks') ∧ Grown H m m'' blocks' ∧
          m'.spare < m.neededFrom tokens j := by
  have hn : 0 < m.blockSize := by
    obtain ⟨free, idle, hi⟩ := hi
    exact hi.blockSize_pos
  have hend : ∀ j, tokens.drop (j * m.blockSize) = [] → m.neededFrom tokens j = 0 := fun j hd => by
    apply neededFrom_of_le
    rw [← not_lt, lt_blockCount hn]
    have := List.drop_eq_nil_iff.mp hd
    omega
  induction fuel with
  | zero =>
    intro m' blocks j hw hb hle
    have hd : tokens.drop (j * m.blockSize) = [] := List.drop_eq_nil_iff.mpr (by omega)
    left
    rw [hend j hd]
    exact ⟨m', blocks, rfl, hw, rfl⟩
  | succ fuel ih =>
    intro m' blocks j hw hb hle
    unfold acquireLoop
    split_ifs with hd
    · left
      rw [hend j hd]
      exact ⟨m', blocks, rfl, hw, rfl⟩
    have hlt : j * m.blockSize < tokens.length := by
      by_contra hx
      exact hd (List.drop_eq_nil_iff.mpr (by omega))
    have hj := (lt_blockCount hn).mpr hlt
    have hsucc : (j + 1) * m.blockSize = j * m.blockSize + m.blockSize := Nat.succ_mul _ _
    rw [neededFrom_of_lt hj]
    simp only [bind_apply, take_next, drop_next]
    have hlen : (tokens.drop (j * m.blockSize)).length = tokens.length - j * m.blockSize :=
      List.length_drop
    by_cases hfull : (j + 1) * m.blockSize ≤ tokens.length
    · -- a full block
      have hq : (tokens.take ((j + 1) * m.blockSize)).length = (j + 1) * m.blockSize := by
        rw [List.length_take]; omega
      have hq' : (tokens.take (j * m.blockSize)).length = j * m.blockSize := by
        rw [List.length_take]; omega
      have hd' : decide (min m.blockSize (tokens.drop (j * m.blockSize)).length = m.blockSize) =
          true := by
        rw [hlen]; exact decide_eq_true (by omega)
      have huse : m.BlockInUse tokens j ↔ m.InUse (tokens.take ((j + 1) * m.blockSize)) :=
        and_iff_right hfull
      rw [hd']
      rcases grow_block hi hu hw (hb hj) (by rw [hq, hq']; omega)
          (by rw [hq]; exact Nat.mul_mod_left _ _) with
        ⟨h, m₁, hc, hw₁, hb₁, hspare⟩ | ⟨hc, hnot, hspare⟩
      · rw [hc]
        simp only [huse]
        rcases ih (j + 1) hw₁ (fun _ => hb₁) (by omega) with
          ⟨m₂, blocks₂, hc₂, hw₂, hspare₂⟩ | ⟨m₂, blocks₂, hc₂, hw₂, hspare₂⟩
        · exact .inl ⟨m₂, blocks₂, hc₂, hw₂, by omega⟩
        · exact .inr ⟨m₂, blocks₂, hc₂, hw₂, by omega⟩
      · right
        rw [hc, if_neg (mt huse.mp hnot)]
        exact ⟨m', blocks, rfl, hw, by omega⟩
    · -- the tail
      have hd' : decide (min m.blockSize (tokens.drop (j * m.blockSize)).length = m.blockSize) =
          false := by
        rw [hlen]; exact decide_eq_false (by omega)
      have hnot : ¬ m.BlockInUse tokens j := fun hx => hfull hx.1
      have hlast : ¬ j + 1 < m.blockCount tokens := by
        rw [lt_blockCount hn]; omega
      rw [hd', if_neg hnot, acquireBlock_eq, if_neg Bool.false_ne_true]
      unfold takeBlock
      rcases grow_allocate hu hw with ⟨h, m₁, ha, hw₁, hspare, -⟩ | ⟨ha, hspare⟩
      · simp only [bind_apply, onFst_apply, ha, modify_apply, Bool.false_eq_true, if_false,
          pure_apply]
        rcases ih (j + 1) hw₁ (fun hx => absurd hx hlast) (by omega) with
          ⟨m₂, blocks₂, hc₂, hw₂, hspare₂⟩ | ⟨m₂, blocks₂, hc₂, hw₂, hspare₂⟩
        · exact .inl ⟨m₂, blocks₂, hc₂, hw₂, by omega⟩
        · exact .inr ⟨m₂, blocks₂, hc₂, hw₂, by omega⟩
      · right
        simp only [bind_apply, onFst_apply, ha]
        exact ⟨m', blocks, rfl, hw, by omega⟩

theorem releaseAll_capacity (hs : List BlockHandle) : ∀ m : BlockManager,
    (finalState (releaseAll hs m)).capacity = m.capacity := by
  induction hs with
  | nil => intro m; rfl
  | cons h hs ih =>
    intro m
    rw [releaseAll, bind_apply]
    rcases release_cases h m with hc | hc | hc
    · rw [hc.2]; rfl
    · rw [hc.2.2]; rfl
    · rw [hc.2.2]; exact (ih _).trans released_capacity

/-- Giving back what the loop took restores the references; what was in use stays as it was. -/
theorem Grown.undo (hw : Grown H m m' blocks) :
    ∃ m'', releaseAll blocks m' = .ok () m'' ∧ Good H m'' ∧ m''.capacity = m.capacity ∧
      (∀ i, (m''.slots i).refs = (m.slots i).refs) ∧
      ∀ i, (m.slots i).refs ≠ 0 → (m''.slots i).generation = (m.slots i).generation ∧
        (m''.slots i).cached = (m.slots i).cached ∧
        (m''.slots i).prefixTokens = (m.slots i).prefixTokens := by
  obtain ⟨m'', hr, hrefs⟩ := releaseAll_owns blocks hw.owns
  have hg' := releaseAll_keeps blocks m' hw.good
  have hsteady := releaseAll_steady blocks m'
  have hcap := releaseAll_capacity blocks m'
  rw [hr] at hg' hsteady hcap
  refine ⟨m'', hr, hg', hcap.trans hw.capacity_eq, fun i => ?_, fun i hi => ?_⟩
  · have := hrefs i
    have := hw.refs_eq i
    omega
  · obtain ⟨h1, h2, h3⟩ := hw.busy i hi
    obtain ⟨g1, g2, g3⟩ := hsteady i
    exact ⟨g1.trans h1, g2.trans h2, g3.trans h3⟩

/-! ## The call -/

/-- What `acquire tokens` does in the state `m`. -/
structure Transacts (H : Tokens → UInt64) (m : BlockManager) (tokens : Tokens) : Prop where
  /-- It throws `CapacityError` exactly when more slots are needed than spare. -/
  capacity_iff : (∃ m', acquire (fun p => .ok (H p)) tokens m = .error .capacityError m') ↔
    m.stats.free + m.stats.cachedIdle < m.needed tokens
  /-- It throws nothing else. -/
  only : ∀ e m', acquire (fun p => .ok (H p)) tokens m = .error e m' → e = .capacityError
  /-- A success takes the needed slots; the blocks of the table, all different, get one reference
  each. -/
  taken : ∀ table m', acquire (fun p => .ok (H p)) tokens m = .ok table m' →
    m'.stats.free + m'.stats.cachedIdle + m.needed tokens = m.stats.free + m.stats.cachedIdle ∧
    (table.blocks.map BlockHandle.id).Nodup ∧
    ∀ i, (m'.slots i).refs =
      (m.slots i).refs + if i ∈ table.blocks.map BlockHandle.id then 1 else 0
  /-- A throw takes nothing and leaves the slots in use alone. -/
  undone : ∀ e m', acquire (fun p => .ok (H p)) tokens m = .error e m' →
    m'.stats.free + m'.stats.cachedIdle = m.stats.free + m.stats.cachedIdle ∧
    m'.stats.active = m.stats.active ∧
    ∀ i, (m.slots i).refs ≠ 0 → (m'.slots i).generation = (m.slots i).generation ∧
      (m'.slots i).refs = (m.slots i).refs ∧ (m'.slots i).cached = (m.slots i).cached ∧
      (m'.slots i).prefixTokens = (m.slots i).prefixTokens

/-- The two outcomes of `acquire`. -/
theorem acquire_outcome (hg : Good H m) (hu : Unexhausted m) (tokens : Tokens) :
    (∃ table m', acquire (fun p => .ok (H p)) tokens m = .ok table m' ∧
      Grown H m m' table.blocks ∧ m'.spare + m.needed tokens = m.spare) ∨
    ∃ m', acquire (fun p => .ok (H p)) tokens m = .error .capacityError m' ∧
      m.spare < m.needed tokens ∧ Good H m' ∧ m'.capacity = m.capacity ∧
      (∀ i, (m'.slots i).refs = (m.slots i).refs) ∧
      ∀ i, (m.slots i).refs ≠ 0 → (m'.slots i).generation = (m.slots i).generation ∧
        (m'.slots i).cached = (m.slots i).cached ∧
        (m'.slots i).prefixTokens = (m.slots i).prefixTokens := by
  have hloop := grow_loop hg hu tokens tokens.length 0 (Grown.nil hg) (fun _ => nofun) (by omega)
  rw [Nat.zero_mul, List.take_zero, List.drop_zero] at hloop
  unfold acquire
  rcases hloop with ⟨m', blocks, hc, hw, hspare⟩ | ⟨m', blocks, hc, hw, hspare⟩
  · exact .inl ⟨⟨blocks, tokens.length⟩, m', by rw [hc], hw, hspare⟩
  · obtain ⟨m'', hr, hg', hcap, hrefs, hbusy⟩ := hw.undo
    exact .inr ⟨m'', by rw [hc]; simp only [hr], hspare, hg', hcap, hrefs, hbusy⟩

/-- **Main result.** In every reachable state whose counters are not exhausted `acquire` throws
exactly when it needs more slots than are spare; a throw leaves every reference as it was. -/
theorem acquire_exact {capacity blockSize : ℕ} {hasher : Option Hasher}
    (hn : new capacity blockSize hasher = .ok m₀) (ops : List (Hasher × Op))
    (ha : ∀ c ∈ ops, Agrees H c.1) (hu : Unexhausted (run m₀ ops)) (tokens : Tokens) :
    Transacts H (run m₀ ops) tokens := by
  have hg : Good H (run m₀ ops) := run_inv ops (good_of_new hn) ha
  generalize run m₀ ops = m at *
  rcases acquire_outcome hg hu tokens with
    ⟨table, m', hc, hw, hspare⟩ | ⟨m', hc, hspare, hg', hcap, hrefs, hbusy⟩
  · refine ⟨⟨fun ⟨m'', hx⟩ => ?_, fun hlt => ?_⟩, fun e m'' hx => ?_, fun t m'' hx => ?_,
      fun e m'' hx => ?_⟩
    · rw [hc] at hx; cases hx
    · have : m.spare < m.needed tokens := hlt
      omega
    · rw [hc] at hx; cases hx
    · rw [hc] at hx
      cases hx
      exact ⟨hspare, hw.nodup, hw.refs_eq⟩
    · rw [hc] at hx; cases hx
  · have hsame := spare_congr hg hg' hcap hrefs
    refine ⟨⟨fun _ => hspare, fun _ => ⟨m', hc⟩⟩, fun e m'' hx => ?_, fun t m'' hx => ?_,
      fun e m'' hx => ?_⟩
    · rw [hc] at hx; cases hx; rfl
    · rw [hc] at hx; cases hx
    · rw [hc] at hx
      cases hx
      refine ⟨hsame, ?_, fun i hi => ?_⟩
      · rw [active_eq, active_eq, hcap, hsame]
      · obtain ⟨h1, h2, h3⟩ := hbusy i hi
        exact ⟨h1, hrefs i, h2, h3⟩

/-- The first block is in use and costs nothing; the second needs a slot, and there is none. -/
theorem acquire_exact_full :
    let ops : List (Hasher × Op) := [(fun _ => .ok 0, .acquire [1])]
    ∃ m', acquire (fun _ => .ok 0) [1, 2] (run (init 1 1) ops) = .error .capacityError m' := by
  intro ops
  have hn : new 1 1 (some fun _ => .ok 0) = .ok (init 1 1) := rfl
  have ha : ∀ c ∈ ops, Agrees (fun _ => 0) c.1 := fun c hc p g hg => by
    rw [List.mem_singleton.mp hc] at hg
    exact (Except.ok.inj hg).symm
  have hu : Unexhausted (run (init 1 1) ops) := by
    constructor <;> decide +kernel
  exact (acquire_exact hn ops ha hu [1, 2]).capacity_iff.mpr (by decide +kernel)

end KVFlux.BlockManager
