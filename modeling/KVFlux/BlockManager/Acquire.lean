import KVFlux.BlockManager.Tables

/-!
# What `acquire` hands out

The results hold for any hasher, also one that throws or answers differently each time.

* `Ages m m'`: generations only grow, and while a slot keeps its generation its published data
  stays.
* `lookup_outcome`, `publish_outcome`: the calls that use the hasher, whatever it returns.
* `Layout m n p blocks`: the table `blocks` covers the tokens `p`, full blocks under their prefix
  and a tail that is not published.
* **`acquireLoop_cases`**, **`acquire_cases`**: a complete table, or a throw that keeps no
  reference.
-/

namespace KVFlux.BlockManager

open Fallible

variable {m m' m'' : BlockManager} {held : Multiset BlockHandle} {h : BlockHandle} {p : Tokens}
  {hasher : Hasher} {blocks : List BlockHandle} {n : ℕ}

/-! ## Ageing -/

/-- From `m` to `m'` generations only grow; within one generation the published data stays. -/
def Ages (m m' : BlockManager) : Prop := ∀ i,
  (m.slots i).generation ≤ (m'.slots i).generation ∧
    ((m'.slots i).generation = (m.slots i).generation →
      (m'.slots i).cached = (m.slots i).cached ∧
        (m'.slots i).prefixTokens = (m.slots i).prefixTokens)

theorem Ages.refl (m : BlockManager) : Ages m m := fun _ => ⟨le_rfl, fun _ => ⟨rfl, rfl⟩⟩

theorem Ages.trans (h₁ : Ages m m') (h₂ : Ages m' m'') : Ages m m'' := fun i => by
  have hle₁ := (h₁ i).1
  have hle₂ := (h₂ i).1
  refine ⟨hle₁.trans hle₂, fun he => ?_⟩
  have h1 := (h₁ i).2 (by omega)
  have h2 := (h₂ i).2 (by omega)
  exact ⟨h2.1.trans h1.1, h2.2.trans h1.2⟩

/-- A change that keeps generations and published data. -/
theorem ages_of_eq (hs : ∀ i, (m'.slots i).generation = (m.slots i).generation ∧
    (m'.slots i).cached = (m.slots i).cached ∧
    (m'.slots i).prefixTokens = (m.slots i).prefixTokens) : Ages m m' := fun i =>
  ⟨(hs i).1.ge, fun _ => (hs i).2⟩

/-- A change of one slot to a later generation. -/
theorem ages_of_lt {id : ℕ} (hlt : (m.slots id).generation < (m'.slots id).generation)
    (hs : ∀ i, i ≠ id → m'.slots i = m.slots i) : Ages m m' := fun i => by
  by_cases hi : i = id
  · subst hi
    exact ⟨hlt.le, fun he => absurd he hlt.ne'⟩
  · rw [hs i hi]
    exact ⟨le_rfl, fun _ => ⟨rfl, rfl⟩⟩

theorem retained_ages (m : BlockManager) (id : ℕ) : Ages m (m.retained id) :=
  ages_of_eq fun i => by
    rw [retained_slots]
    split_ifs with hi
    · rw [hi]; exact ⟨rfl, rfl, rfl⟩
    · exact ⟨rfl, rfl, rfl⟩

theorem released_steady (m : BlockManager) (id i : ℕ) :
    ((m.released id).slots i).generation = (m.slots i).generation ∧
      ((m.released id).slots i).cached = (m.slots i).cached ∧
      ((m.released id).slots i).prefixTokens = (m.slots i).prefixTokens := by
  rw [released_slots]
  split_ifs with hi hc
  · rw [hi]; exact ⟨rfl, rfl, rfl⟩
  · rw [hi]; exact ⟨rfl, rfl, rfl⟩
  · exact ⟨rfl, rfl, rfl⟩

theorem addRefs_ages (m : BlockManager) (ids : List ℕ) : Ages m (m.addRefs ids) :=
  ages_of_eq fun i => by
    rw [addRefs_slots]
    split_ifs <;> exact ⟨rfl, rfl, rfl⟩

theorem allocate_ages (hs : Shaped m) (ha : allocate m = .ok h m') : Ages m m' := by
  obtain ⟨-, -, hg, hslot, hframe, -, -⟩ := allocate_ok hs ha
  refine ages_of_lt ?_ hframe
  rw [hslot]
  show _ < h.generation
  omega

/-- Releases leave the generations and the published data of all slots alone. -/
theorem releaseAll_steady (hs : List BlockHandle) : ∀ (m : BlockManager) (i : ℕ),
    ((finalState (releaseAll hs m)).slots i).generation = (m.slots i).generation ∧
      ((finalState (releaseAll hs m)).slots i).cached = (m.slots i).cached ∧
      ((finalState (releaseAll hs m)).slots i).prefixTokens = (m.slots i).prefixTokens := by
  induction hs with
  | nil => intro m i; exact ⟨rfl, rfl, rfl⟩
  | cons h hs ih =>
    intro m i
    rw [releaseAll, bind_apply]
    rcases release_cases h m with hc | hc | hc
    · rw [hc.2]; exact ⟨rfl, rfl, rfl⟩
    · rw [hc.2.2]; exact ⟨rfl, rfl, rfl⟩
    · obtain ⟨h1, h2, h3⟩ := ih (m.released h.id) i
      obtain ⟨g1, g2, g3⟩ := released_steady m h.id i
      rw [hc.2.2]
      exact ⟨h1.trans g1, h2.trans g2, h3.trans g3⟩

theorem releaseAll_blockSize (hs : List BlockHandle) : ∀ m : BlockManager,
    (finalState (releaseAll hs m)).blockSize = m.blockSize := by
  induction hs with
  | nil => intro m; rfl
  | cons h hs ih =>
    intro m
    rw [releaseAll, bind_apply]
    rcases release_cases h m with hc | hc | hc
    · rw [hc.2]; rfl
    · rw [hc.2.2]; rfl
    · rw [hc.2.2]; exact (ih _).trans released_blockSize

/-! ## The shape is kept -/

theorem Shaped.retained (hs : Shaped m) (hv : m.Valid h) (hr : (m.slots h.id).refs ≠ sizeMax) :
    Shaped (m.retained h.id) :=
  let ⟨_, _, hi⟩ := hs
  ⟨_, _, hi.retained hv.2.1 hr⟩

theorem Shaped.allocated (hs : Shaped m) (ha : allocate m = .ok h m') : Shaped m' := by
  obtain ⟨free, idle, hi⟩ := hs
  rcases allocate_cases hi with hc | ⟨id, hc⟩ | ⟨id, fs, rfl, hne, hc⟩ | ⟨id, is, rfl, rfl, hne, hc⟩
  · rw [hc.2.2] at ha; cases ha
  · rw [hc.2.2] at ha; cases ha
  · rw [hc] at ha; cases ha; exact ⟨_, _, hi.takeFree hne⟩
  · rw [hc] at ha; cases ha; exact ⟨_, _, hi.evict hne⟩

theorem release_keeps_shaped (h : BlockHandle) : Keeps Shaped (release h) := by
  rintro m ⟨free, idle, hi⟩
  rcases release_cases h m with hc | hc | hc
  · rw [hc.2]; exact ⟨free, idle, hi⟩
  · rw [hc.2.2]; exact ⟨free, idle, hi⟩
  · rw [hc.2.2]; exact ⟨_, _, hi.released hc.1.2.1 hc.2.1⟩

theorem releaseAll_keeps_shaped (hs : List BlockHandle) : Keeps Shaped (releaseAll hs) := by
  induction hs with
  | nil => exact .pure ()
  | cons h hs ih => exact .bind (release_keeps_shaped h) fun _ => ih

theorem retain_keeps_shaped (h : BlockHandle) : Keeps Shaped (retain h) := by
  intro m hs
  rcases retain_cases h m with hc | hc | hc
  · rw [hc.2]; exact hs
  · rw [hc.2.2]; exact hs
  · rw [hc.2.2]; exact hs.retained hc.1 hc.2.1

theorem retainAll_keeps_shaped (hs : List BlockHandle) :
    ∀ done, Keeps Shaped (retainAll done hs) := by
  induction hs with
  | nil => intro done; exact .pure ()
  | cons h hs ih =>
    intro done
    exact .bind (.onError (retain_keeps_shaped h) (releaseAll_keeps_shaped done)) fun _ => ih _

theorem share_keeps_shaped (table : BlockTable) : Keeps Shaped (share table) :=
  .bind .get fun _ => .bind (.check _) fun _ => .bind (retainAll_keeps_shaped _ _) fun _ => .pure _

/-! ## The calls that use the hasher -/

/-- A hit takes a reference to a slot published with `p`; otherwise nothing changes. -/
theorem lookup_outcome (hs : Shaped m) (hasher : Hasher) (p : Tokens) :
    (∃ h, lookup hasher p m = .ok (some h) (m.retained h.id) ∧ m.Valid h ∧
      (m.slots h.id).refs ≠ sizeMax ∧ (m.slots h.id).cached = true ∧
      (m.slots h.id).prefixTokens = p) ∨
    lookup hasher p m = .ok none m ∨ ∃ e, lookup hasher p m = .error e m := by
  obtain ⟨free, idle, hi⟩ := hs
  unfold lookup
  split_ifs with hb
  · exact .inr (.inl rfl)
  cases hasher p with
  | error e => exact .inr (.inr ⟨e, rfl⟩)
  | ok g =>
    simp only
    cases hf : ((m.index g).getD []).find? fun id => (m.slots id).prefixTokens = p with
    | none => exact .inr (.inl rfl)
    | some id =>
      have hmem : id ∈ m.bucket g := List.mem_of_find?_eq_some hf
      have hc := ((hi.listed.mem_bucket g id).mp hmem).1
      have hp : (m.slots id).prefixTokens = p := by simpa using List.find?_some hf
      have hfree := hi.not_free_of_cached hc
      have hv : m.Valid ⟨id, (m.slots id).generation⟩ := ⟨hi.lt_capacity hfree, hfree, rfl⟩
      rcases retain_cases ⟨id, (m.slots id).generation⟩ m with hr | hr | hr
      · exact absurd hv hr.1
      · simp only [hr.2.2]; exact .inr (.inr ⟨_, rfl⟩)
      · simp only [hr.2.2]; exact .inl ⟨_, rfl, hv, hr.2.1, hc, hp⟩

/-- A publication enters a private unpublished block under the hash; otherwise nothing changes. -/
theorem publish_outcome (m : BlockManager) (hasher : Hasher) (h : BlockHandle) (p : Tokens) :
    (∃ g, publish hasher h p m = .ok () (m.published h.id p g) ∧ m.Valid h ∧
      (m.slots h.id).cached = false) ∨
    ∃ e, publish hasher h p m = .error e m := by
  unfold publish
  by_cases hv : m.Valid h
  · rw [checked_ok h hv]
    simp only
    split_ifs with hb
    · exact .inr ⟨_, rfl⟩
    · cases hasher p with
      | error e => exact .inr ⟨e, rfl⟩
      | ok g =>
        simp only
        split_ifs
        · exact .inr ⟨_, rfl⟩
        · refine .inl ⟨g, rfl, hv, ?_⟩
          simp only [not_or, Bool.not_eq_true] at hb
          exact hb.2.1
  · rw [checked_error h hv]
    exact .inr ⟨_, rfl⟩

/-! ## One block -/

/-- The state after some blocks were taken: `blocks` are owned beside `held`. -/
structure Taken (m m' : BlockManager) (blocks : List BlockHandle) (held : Multiset BlockHandle) :
    Prop where
  shaped : Shaped m'
  owned : Owned m' (blocks + held)
  ages : Ages m m'
  blockSize_eq : m'.blockSize = m.blockSize

/-- What the table says of the block covering the tokens up to the end of `p`. -/
def Covers (m : BlockManager) (full : Bool) (p : Tokens) (h : BlockHandle) : Prop :=
  if full then (m.slots h.id).cached = true ∧ (m.slots h.id).prefixTokens = p
  else (m.slots h.id).cached = false

theorem coe_append_singleton (blocks : List BlockHandle) (h : BlockHandle)
    (held : Multiset BlockHandle) :
    ((blocks ++ [h] : List BlockHandle) : Multiset BlockHandle) + held =
      h ::ₘ ((blocks : Multiset BlockHandle) + held) := by
  rw [← Multiset.coe_add, Multiset.coe_singleton, Multiset.add_comm (blocks : Multiset _) {h},
    Multiset.add_assoc, Multiset.singleton_add]

/-- One block of `acquire` after a missed lookup. -/
def takeBlock (hasher : Hasher) (p : Tokens) (full : Bool) :
    Call (BlockManager × List BlockHandle) Unit := do
  let h ← onFst allocate
  modify fun (m, blocks) => (m, blocks ++ [h])
  if full then onFst (publish hasher h p) else pure ()

theorem acquireBlock_eq (hasher : Hasher) (p : Tokens) (full : Bool) (m : BlockManager)
    (blocks : List BlockHandle) : acquireBlock hasher p full (m, blocks) =
      if full then
        match lookup hasher p m with
        | .ok (some h) m' => .ok () (m', blocks ++ [h])
        | .ok none m' => takeBlock hasher p full (m', blocks)
        | .error e m' => .error e (m', blocks)
      else takeBlock hasher p full (m, blocks) := by
  unfold acquireBlock
  cases full with
  | false => rfl
  | true =>
    simp only [if_true, bind_apply, onFst_apply]
    cases lookup hasher p m with
    | error e m' => rfl
    | ok hit m' => cases hit <;> rfl

/-- A new slot for a block. A tail is a slot that nobody owned. -/
theorem takeBlock_cases (hs : Shaped m) (ho : Owned m (blocks + held)) (hasher : Hasher)
    (p : Tokens) (full : Bool) :
    (∃ h m', takeBlock hasher p full (m, blocks) = .ok () (m', blocks ++ [h]) ∧
      Taken m m' (blocks ++ [h]) held ∧ Covers m' full p h ∧
      (full = false → ∀ g ∈ (blocks : Multiset BlockHandle) + held, g.id ≠ h.id)) ∨
    ∃ e m' blocks', takeBlock hasher p full (m, blocks) = .error e (m', blocks') ∧
      Taken m m' blocks' held := by
  unfold takeBlock
  rcases ho.allocate hs with ⟨h, m₁, ha, ho₁, hne⟩ | ⟨e, ha⟩
  swap
  · right
    simp only [bind_apply, onFst_apply, ha]
    exact ⟨e, m, blocks, rfl, ⟨hs, ho, .refl m, rfl⟩⟩
  have hs₁ := hs.allocated ha
  have hages := allocate_ages hs ha
  obtain ⟨-, -, hgen, hslot, hframe, -, hsize⟩ := allocate_ok hs ha
  have hunc : (m₁.slots h.id).cached = false := by rw [hslot]
  rw [← coe_append_singleton] at ho₁
  simp only [bind_apply, onFst_apply, ha, modify_apply]
  cases full with
  | false => exact .inl ⟨h, m₁, rfl, ⟨hs₁, ho₁, hages, hsize⟩, hunc, fun _ => hne⟩
  | true =>
    simp only [if_true, onFst_apply]
    rcases publish_outcome m₁ hasher h p with ⟨g, hp, hv, -⟩ | ⟨e, hp⟩
    · left
      rw [hp]
      refine ⟨h, m₁.published h.id p g, rfl, ⟨?_, ho₁.published h.id p g, ?_, hsize⟩, ?_, nofun⟩
      · obtain ⟨free, idle, hi⟩ := hs₁
        exact ⟨free, idle, hi.published hv.2.1 hunc p g⟩
      · have hlt : (m.slots h.id).generation <
            ((m₁.published h.id p g).slots h.id).generation := by
          rw [published_slots, if_pos rfl, hslot]
          show _ < h.generation
          omega
        refine ages_of_lt hlt fun i hi => ?_
        rw [published_slots, if_neg hi, hframe i hi]
      · rw [Covers, if_pos rfl, published_slots, if_pos rfl]
        exact ⟨rfl, rfl⟩
    · right
      rw [hp]
      exact ⟨e, m₁, blocks ++ [h], rfl, ⟨hs₁, ho₁, hages, hsize⟩⟩

/-- **One block of `acquire`.** A tail is a slot that nobody owned. -/
theorem acquireBlock_cases (hs : Shaped m) (ho : Owned m (blocks + held)) (hasher : Hasher)
    (p : Tokens) (full : Bool) :
    (∃ h m', acquireBlock hasher p full (m, blocks) = .ok () (m', blocks ++ [h]) ∧
      Taken m m' (blocks ++ [h]) held ∧ Covers m' full p h ∧
      (full = false → ∀ g ∈ (blocks : Multiset BlockHandle) + held, g.id ≠ h.id)) ∨
    ∃ e m' blocks', acquireBlock hasher p full (m, blocks) = .error e (m', blocks') ∧
      Taken m m' blocks' held := by
  rw [acquireBlock_eq]
  split_ifs with hf
  · rcases lookup_outcome hs hasher p with ⟨h, hl, hv, hr, hc, hp⟩ | hl | ⟨e, hl⟩
    · left
      rw [hl]
      refine ⟨h, m.retained h.id, rfl,
        ⟨hs.retained hv hr, ?_, retained_ages m h.id, retained_blockSize⟩, ?_, ?_⟩
      · rw [coe_append_singleton]
        exact ho.retained hv
      · rw [Covers, if_pos hf, retained_slots, if_pos rfl]
        exact ⟨hc, hp⟩
      · rw [hf]; exact nofun
    · rw [hl]
      exact takeBlock_cases hs ho hasher p full
    · right
      rw [hl]
      exact ⟨e, m, blocks, rfl, ⟨hs, ho, .refl m, rfl⟩⟩
  · exact takeBlock_cases hs ho hasher p full

/-! ## The table -/

/-- The table `blocks` covers the tokens `p` with blocks of `n` tokens. -/
structure Layout (m : BlockManager) (n : ℕ) (p : Tokens) (blocks : List BlockHandle) : Prop where
  length_eq : blocks.length = p.length / n + if p.length % n ≠ 0 then 1 else 0
  full : ∀ i h, blocks[i]? = some h → (i + 1) * n ≤ p.length →
    (m.slots h.id).cached = true ∧ (m.slots h.id).prefixTokens = p.take ((i + 1) * n)
  tail : ∀ i h, blocks[i]? = some h → p.length < (i + 1) * n → (m.slots h.id).cached = false

/-- The tail of the table is a slot that no handle of `held` names. -/
def FreshTail (n : ℕ) (p : Tokens) (blocks : List BlockHandle) (held : Multiset BlockHandle) :
    Prop :=
  ∀ (i : ℕ) (h : BlockHandle), blocks[i]? = some h → p.length < (i + 1) * n →
    ∀ g ∈ held, g.id ≠ h.id

theorem layout_nil (m : BlockManager) (n : ℕ) : Layout m n [] [] where
  length_eq := by simp
  full := nofun
  tail := nofun

/-- A table in use keeps its layout. -/
theorem Layout.ages (hl : Layout m n p blocks) (ha : Ages m m')
    (hv : ∀ h ∈ blocks, m.Valid h) (hv' : ∀ h ∈ blocks, m'.Valid h) : Layout m' n p blocks := by
  have hsame : ∀ (i : ℕ) (h : BlockHandle), blocks[i]? = some h →
      (m'.slots h.id).cached = (m.slots h.id).cached ∧
        (m'.slots h.id).prefixTokens = (m.slots h.id).prefixTokens := fun i h hi => by
    have hm := List.mem_of_getElem? hi
    exact (ha h.id).2 ((hv' h hm).2.2.trans (hv h hm).2.2.symm)
  refine ⟨hl.length_eq, fun i h hi hle => ?_, fun i h hi hlt => ?_⟩
  · rw [(hsame i h hi).1, (hsame i h hi).2]
    exact hl.full i h hi hle
  · rw [(hsame i h hi).1]
    exact hl.tail i h hi hlt

theorem getElem?_concat {α : Type} {xs : List α} {x y : α} {i : ℕ} :
    (xs ++ [x])[i]? = some y ↔ xs[i]? = some y ∨ i = xs.length ∧ x = y := by
  rcases Nat.lt_trichotomy i xs.length with hi | rfl | hi
  · rw [List.getElem?_append_left hi]
    exact ⟨.inl, fun hc => hc.resolve_right fun he => hi.ne he.1⟩
  · simp
  · rw [List.getElem?_eq_none (by simp; omega), List.getElem?_eq_none hi.le]
    simp [hi.ne']

/-- A table of full blocks gets one more block. -/
theorem Layout.append {q : Tokens} (hl : Layout m n p blocks) (hn : p.length = blocks.length * n)
    (hq : q ≠ []) (hqn : q.length ≤ n) (hc : Covers m (q.length = n) (p ++ q) h) :
    Layout m n (p ++ q) (blocks ++ [h]) := by
  have hpos : 0 < q.length := List.length_pos_iff.mpr hq
  have hsucc : (blocks.length + 1) * n = blocks.length * n + n := Nat.succ_mul _ _
  have hlen : (p ++ q).length = blocks.length * n + q.length := by rw [List.length_append, hn]
  have hold : ∀ i, i < blocks.length → (i + 1) * n ≤ p.length := fun i hi => by
    rw [hn]
    exact Nat.mul_le_mul_right n hi
  refine ⟨?_, fun i g hi hle => ?_, fun i g hi hlt => ?_⟩
  · rw [List.length_append, List.length_singleton, hlen, Nat.mul_comm,
      Nat.mul_add_div (by omega), Nat.mul_add_mod]
    rcases Nat.lt_or_eq_of_le hqn with hlt | he
    · rw [Nat.div_eq_of_lt hlt, Nat.mod_eq_of_lt hlt, if_pos (by omega)]
    · rw [he, Nat.div_self (by omega), Nat.mod_self]
      rfl
  · rcases getElem?_concat.mp hi with hi | ⟨rfl, rfl⟩
    · have hle := hold i (List.getElem?_eq_some_iff.mp hi).1
      rw [List.take_append_of_le_length hle]
      exact hl.full i g hi hle
    · have hqe : q.length = n := by rw [hlen] at hle; omega
      rw [Covers, if_pos (by simpa using hqe)] at hc
      rw [List.take_of_length_le (by rw [hlen]; omega)]
      exact hc
  · rcases getElem?_concat.mp hi with hi | ⟨rfl, rfl⟩
    · have := hold i (List.getElem?_eq_some_iff.mp hi).1
      rw [List.length_append] at hlt
      omega
    · have hqe : q.length ≠ n := by rw [hlen] at hlt; omega
      rwa [Covers, if_neg (by simpa using hqe)] at hc

/-- Blocks before the last are full. -/
theorem Layout.full_of_lt (hl : Layout m n p blocks) {i j : ℕ} (hij : i < j) (hj : j < blocks.length) :
    (i + 1) * n ≤ p.length := by
  have hlen := hl.length_eq
  have hle : i + 1 ≤ p.length / n := by split_ifs at hlen <;> omega
  exact (Nat.mul_le_mul_right n hle).trans (Nat.div_mul_le_self _ _)

/-- Within one table all handles are distinct. -/
theorem Layout.nodup (hl : Layout m n p blocks) (hn : 0 < n) : blocks.Nodup := by
  rw [List.nodup_iff_getElem?_ne_getElem?]
  intro i j hij hj he
  have hfull := hl.full_of_lt hij hj
  have hjs := List.getElem?_eq_getElem hj
  obtain ⟨hc, hp⟩ := hl.full i _ (he.trans hjs) hfull
  rcases Nat.lt_or_ge p.length ((j + 1) * n) with ht | ht
  · rw [hl.tail j _ hjs ht] at hc
    cases hc
  · have hp' := (hl.full j _ hjs ht).2
    have hlen : (p.take ((i + 1) * n)).length = (p.take ((j + 1) * n)).length := by
      rw [← hp, ← hp']
    rw [List.length_take_of_le hfull, List.length_take_of_le ht] at hlen
    have := Nat.eq_of_mul_eq_mul_right hn hlen
    omega

/-! ## The loop -/

theorem Taken.trans {blocks' : List BlockHandle} (h₁ : Taken m m' blocks held)
    (h₂ : Taken m' m'' blocks' held) : Taken m m'' blocks' held :=
  ⟨h₂.shaped, h₂.owned, h₁.ages.trans h₂.ages, h₂.blockSize_eq.trans h₁.blockSize_eq⟩

/-- **The loop of `acquire`**, by induction on its rounds: the blocks taken so far are full and
cover `p`, until the last round takes a tail. -/
theorem acquireLoop_cases (hasher : Hasher) (hn : 0 < n) (fuel : ℕ) :
    ∀ {m : BlockManager} {blocks : List BlockHandle} (p rest : Tokens), Shaped m →
      Owned m (blocks + held) → Layout m n p blocks → FreshTail n p blocks held →
      rest.length ≤ fuel → (rest ≠ [] → p.length = blocks.length * n) →
      (∃ m' blocks', acquireLoop hasher n fuel p rest (m, blocks) = .ok () (m', blocks') ∧
        Taken m m' blocks' held ∧ Layout m' n (p ++ rest) blocks' ∧
        FreshTail n (p ++ rest) blocks' held) ∨
      ∃ e m' blocks', acquireLoop hasher n fuel p rest (m, blocks) = .error e (m', blocks') ∧
        Taken m m' blocks' held := by
  induction fuel with
  | zero =>
    intro m blocks p rest hs ho hl hf hle _
    obtain rfl : rest = [] := List.eq_nil_of_length_eq_zero (by omega)
    left
    rw [List.append_nil]
    exact ⟨m, blocks, rfl, ⟨hs, ho, .refl m, rfl⟩, hl, hf⟩
  | succ fuel ih =>
    intro m blocks p rest hs ho hl hf hle hp
    unfold acquireLoop
    split_ifs with hr
    · left
      rw [hr, List.append_nil]
      exact ⟨m, blocks, rfl, ⟨hs, ho, .refl m, rfl⟩, hl, hf⟩
    have hpos : 0 < rest.length := List.length_pos_iff.mpr hr
    have hpn := hp hr
    simp only [bind_apply]
    generalize hq : rest.take (min n rest.length) = q
    have hqlen : q.length = min n rest.length := by
      rw [← hq, List.length_take]; omega
    have hsplit : p ++ rest = (p ++ q) ++ rest.drop (min n rest.length) := by
      rw [List.append_assoc, ← hq, List.take_append_drop]
    have hfull : (decide (min n rest.length = n)) = decide (q.length = n) := by rw [hqlen]
    rw [hfull]
    rcases acquireBlock_cases hs ho hasher (p ++ q) (q.length = n) with
      ⟨h, m₁, hb, ht, hc, hne⟩ | ⟨e, m₁, blocks₁, hb, ht⟩
    swap
    · right
      rw [hb]
      exact ⟨e, m₁, blocks₁, rfl, ht⟩
    rw [hb]
    simp only
    have hvalid : ∀ g ∈ blocks, m.Valid g := fun g hg => ho.valid g (by simp [hg])
    have hvalid' : ∀ g ∈ blocks, m₁.Valid g := fun g hg => ht.owned.valid g (by simp [hg])
    have hl₁ : Layout m₁ n (p ++ q) (blocks ++ [h]) :=
      (hl.ages ht.ages hvalid hvalid').append hpn
        (List.length_pos_iff.mp (by omega)) (by omega) hc
    have hf₁ : FreshTail n (p ++ q) (blocks ++ [h]) held := by
      intro i g hi hlt
      rw [List.length_append] at hlt
      rcases getElem?_concat.mp hi with hi | ⟨rfl, rfl⟩
      · have := Nat.mul_le_mul_right n (List.getElem?_eq_some_iff.mp hi).1
        have : (i + 1) * n ≤ blocks.length * n := this
        omega
      · have : (blocks.length + 1) * n = blocks.length * n + n := Nat.succ_mul _ _
        have hqn : q.length ≠ n := by omega
        exact fun g hg => hne (by simpa using hqn) g (Multiset.mem_add.mpr (.inr hg))
    have hrest : rest.drop (min n rest.length) ≠ [] →
        (p ++ q).length = (blocks ++ [h]).length * n := by
      intro hd
      have := List.length_pos_iff.mpr hd
      rw [List.length_drop] at this
      rw [List.length_append, List.length_append, List.length_singleton, Nat.succ_mul]
      omega
    rw [hsplit]
    rcases ih (p ++ q) (rest.drop (min n rest.length)) ht.shaped ht.owned hl₁ hf₁
        (by rw [List.length_drop]; omega) hrest with
      ⟨m₂, blocks₂, hb₂, ht₂, hl₂, hf₂⟩ | ⟨e, m₂, blocks₂, hb₂, ht₂⟩
    · exact .inl ⟨m₂, blocks₂, hb₂, ht.trans ht₂, hl₂, hf₂⟩
    · exact .inr ⟨e, m₂, blocks₂, hb₂, ht.trans ht₂⟩

/-- **`acquire`** hands out a complete table, or throws and keeps no reference. -/
theorem acquire_cases (hs : Shaped m) (ho : Owned m held) (hn : 0 < m.blockSize)
    (hasher : Hasher) (tokens : Tokens) :
    (∃ table m', acquire hasher tokens m = .ok table m' ∧ table.tokenCount = tokens.length ∧
      Taken m m' table.blocks held ∧ Layout m' m.blockSize tokens table.blocks ∧
      FreshTail m.blockSize tokens table.blocks held) ∨
    ∃ e m', acquire hasher tokens m = .error e m' ∧ Taken m m' [] held := by
  unfold acquire
  have ho₀ : Owned m (([] : List BlockHandle) + held) := by simpa using ho
  rcases acquireLoop_cases hasher hn tokens.length [] tokens hs ho₀ (layout_nil m _) nofun le_rfl
      (fun _ => by simp) with
    ⟨m', blocks, hb, ht, hl, hf⟩ | ⟨e, m', blocks, hb, ht⟩
  · left
    rw [hb]
    rw [List.nil_append] at hl hf
    exact ⟨⟨blocks, tokens.length⟩, m', rfl, rfl, ht, hl, hf⟩
  · right
    rw [hb]
    obtain ⟨m'', hr, ho'⟩ := Owned.releaseAll blocks ht.owned
    have hs' := releaseAll_keeps_shaped blocks m' ht.shaped
    have ha' := ages_of_eq (releaseAll_steady blocks m')
    have hb' : (finalState (releaseAll blocks m')).blockSize = m'.blockSize :=
      releaseAll_blockSize blocks m'
    rw [hr] at hs' ha' hb'
    simp only [hr]
    exact ⟨e, m'', rfl, hs', by simpa using ho', ht.ages.trans ha', hb'.trans ht.blockSize_eq⟩

end KVFlux.BlockManager
