import KVFlux.TieredBlockManager.Model
import KVFlux.AsyncTransfer.Copies
import KVFlux.Lib.Table

/-!
# The invariant of the tiered block manager

* `Phase`, `Entry.phase`: what location, move and GPU slot of an entry say together.
* `held`: the GPU slots that the entries own.
* `Listed`, `Tracks`: what the LRU list and the two lists of moves say about the entries.
* `EntryOk`, **`Core`**: the invariant, with the bytes `c` that the blocks should have, while the
  moves `ps` are under way and the loads `qs` are queued. The mark of the entry `x` is not settled.
* **`Core.replace`**, `Core.update`, `Core.transfers`: the ways to change the state.
-/

namespace KVFlux.TieredBlockManager

open Fallible BlockManager AsyncTransfer Table

/-- What an entry is doing. -/
inductive Phase
  | resident
  | stored
  | loading
  | saving
  | queued
deriving DecidableEq, Repr

/-- The phase of an entry whose location, move and slot fit together. -/
def Entry.phase (e : Entry) : Option Phase :=
  match e.location, e.move, e.gpu with
  | .gpuResident, .none, some _ => some .resident
  | .cpuResident, .none, none => some .stored
  | .transferring, .toGpu, some _ => some .loading
  | .transferring, .toCpu, some _ => some .saving
  | .transferring, .queuedLoad, none => some .queued
  | _, _, _ => none

namespace Entry

variable {e : Entry}

theorem phase_resident : e.phase = some .resident ↔
    e.location = .gpuResident ∧ e.move = .none ∧ ∃ g, e.gpu = some g := by
  unfold phase
  cases e.location <;> cases e.move <;> cases e.gpu <;> simp

theorem phase_stored : e.phase = some .stored ↔
    e.location = .cpuResident ∧ e.move = .none ∧ e.gpu = none := by
  unfold phase
  cases e.location <;> cases e.move <;> cases e.gpu <;> simp

theorem phase_loading : e.phase = some .loading ↔
    e.location = .transferring ∧ e.move = .toGpu ∧ ∃ g, e.gpu = some g := by
  unfold phase
  cases e.location <;> cases e.move <;> cases e.gpu <;> simp

theorem phase_saving : e.phase = some .saving ↔
    e.location = .transferring ∧ e.move = .toCpu ∧ ∃ g, e.gpu = some g := by
  unfold phase
  cases e.location <;> cases e.move <;> cases e.gpu <;> simp

theorem phase_queued : e.phase = some .queued ↔
    e.location = .transferring ∧ e.move = .queuedLoad ∧ e.gpu = none := by
  unfold phase
  cases e.location <;> cases e.move <;> cases e.gpu <;> simp

/-- The entry has a move on the stream. -/
def Moving (e : Entry) : Prop := e.phase = some .loading ∨ e.phase = some .saving

/-- The entry waits for a slot. -/
def Waiting (e : Entry) : Prop := e.phase = some .queued

/-- The entry can be moved out. -/
def Evictable (e : Entry) : Prop := e.phase = some .resident ∧ e.pins = 0

theorem not_evictable {p : Phase} (hp : e.phase = some p) (hne : p ≠ .resident) : ¬ e.Evictable :=
  fun he => hne (Option.some.inj (hp.symm.trans he.1))

/-- The GPU slot of the entry. -/
def slots (e : Entry) : Multiset BlockHandle :=
  match e.gpu with
  | some g => {g}
  | none => 0

theorem slots_some {g : BlockHandle} (h : e.gpu = some g) : e.slots = {g} := by
  unfold slots
  rw [h]

theorem slots_none (h : e.gpu = none) : e.slots = 0 := by
  unfold slots
  rw [h]

end Entry

/-- The slots that the entries own. -/
def held (m : TieredBlockManager) : Multiset BlockHandle :=
  total m.logical.capacity Entry.slots m.entries

/-! ## The lists -/

/-- The LRU list has the ids with the property `p`. -/
def Listed (lru : IndexLru) (p : ℕ → Prop) : Prop := ∃ xs, lru.Repr xs ∧ ∀ i, i ∈ xs ↔ p i

section Listed

variable {lru : IndexLru} {p p' : ℕ → Prop} {id : ℕ}

theorem listed_empty (h : ∀ i, ¬ p i) : Listed {} p :=
  ⟨[], IndexLru.repr_empty, fun i => iff_of_false List.not_mem_nil (h i)⟩

theorem Listed.congr (hl : Listed lru p) (h : ∀ i, p' i ↔ p i) : Listed lru p' := by
  obtain ⟨xs, hr, hm⟩ := hl
  exact ⟨xs, hr, fun i => (hm i).trans (h i).symm⟩

theorem Listed.erase (hl : Listed lru p) (h : ∀ i, p' i ↔ i ≠ id ∧ p i) :
    Listed (lru.erase id) p' := by
  obtain ⟨xs, hr, hm⟩ := hl
  exact ⟨xs.erase id, hr.erase id, fun i => by rw [hr.nodup.mem_erase_iff, hm, h]⟩

theorem Listed.touch (hl : Listed lru p) (h : ∀ i, p' i ↔ i = id ∨ p i) :
    Listed (lru.touch id) p' := by
  obtain ⟨xs, hr, hm⟩ := hl
  refine ⟨xs.erase id ++ [id], hr.touch id, fun i => ?_⟩
  rw [List.mem_append, hr.nodup.mem_erase_iff, List.mem_singleton, hm, h]
  by_cases hi : i = id
  · simp [hi]
  · simp [hi]

end Listed

/-- The list `hs` has the handles of the entries with the property `p`, each once. -/
structure Tracks (p : Entry → Prop) (entries : ℕ → Entry) (hs : List LogicalBlockHandle) :
    Prop where
  nodup : (hs.map LogicalBlockHandle.id).Nodup
  handle : ∀ h ∈ hs, (entries h.id).handle = h
  mem : ∀ i, i ∈ hs.map LogicalBlockHandle.id ↔ p (entries i)

namespace Tracks

variable {p : Entry → Prop} {entries : ℕ → Entry} {hs : List LogicalBlockHandle}
  {h : LogicalBlockHandle} {e : Entry} {i : ℕ}

theorem of_mem (ht : Tracks p entries hs) (hh : h ∈ hs) : p (entries h.id) :=
  (ht.mem h.id).mp (List.mem_map_of_mem hh)

/-- A change that the list does not see. -/
theorem same (ht : Tracks p entries hs) (hp : p e ↔ p (entries i))
    (hhandle : p e → e.handle = (entries i).handle) : Tracks p (Function.update entries i e) hs := by
  refine ⟨ht.nodup, fun h hh => ?_, fun j => ?_⟩
  · by_cases hi : h.id = i
    · rw [hi, Function.update_self, hhandle (hp.mpr (hi ▸ ht.of_mem hh)), ← hi]
      exact ht.handle h hh
    · rw [Function.update_of_ne hi]
      exact ht.handle h hh
  · by_cases hj : j = i
    · rw [hj, Function.update_self, hp]
      exact ht.mem i
    · rw [Function.update_of_ne hj]
      exact ht.mem j

/-- **A new handle at the end.** -/
theorem push (ht : Tracks p entries hs) (hh : e.handle = h) (hnew : ¬ p (entries h.id)) (hp : p e) :
    Tracks p (Function.update entries h.id e) (hs ++ [h]) := by
  have hid : h.id ∉ hs.map LogicalBlockHandle.id := fun hm => hnew ((ht.mem h.id).mp hm)
  refine ⟨?_, fun g hg => ?_, fun j => ?_⟩
  · rw [List.map_append, List.nodup_append]
    refine ⟨ht.nodup, List.nodup_singleton _, fun a ha b hb he => hid ?_⟩
    rw [← List.mem_singleton.mp hb, ← he]
    exact ha
  · rcases List.mem_append.mp hg with hg | hg
    · have hne : g.id ≠ h.id := fun he => hid (he ▸ List.mem_map_of_mem hg)
      rw [Function.update_of_ne hne]
      exact ht.handle g hg
    · rw [List.mem_singleton.mp hg, Function.update_self]
      exact hh
  · rw [List.map_append, List.mem_append, ht.mem j]
    by_cases hj : j = h.id
    · rw [hj, Function.update_self]
      exact iff_of_true (.inr (List.mem_singleton_self _)) hp
    · rw [Function.update_of_ne hj]
      exact or_iff_left fun hm => hj (List.mem_singleton.mp hm)

/-- **The first handle is done.** -/
theorem pop (ht : Tracks p entries (h :: hs)) (hp : ¬ p e) :
    Tracks p (Function.update entries h.id e) hs := by
  have hnodup := ht.nodup
  rw [List.map_cons, List.nodup_cons] at hnodup
  refine ⟨hnodup.2, fun g hg => ?_, fun j => ?_⟩
  · have hne : g.id ≠ h.id := fun he => hnodup.1 (he ▸ List.mem_map_of_mem hg)
    rw [Function.update_of_ne hne]
    exact ht.handle g (List.mem_cons_of_mem h hg)
  · by_cases hj : j = h.id
    · rw [hj, Function.update_self]
      exact iff_of_false hnodup.1 hp
    · have hmem := ht.mem j
      rw [List.map_cons, List.mem_cons] at hmem
      rw [Function.update_of_ne hj, ← hmem]
      exact (or_iff_right hj).symm

end Tracks

/-! ## The invariant -/

/-- The invariant of one entry. -/
structure EntryOk (c : ℕ → Bytes) (x : Option ℕ) (m : TieredBlockManager) (i : ℕ) : Prop where
  shape : (m.entries i).phase ≠ none
  idle : (m.entries i).live = false → m.entries i = {}
  live : (m.entries i).live = true ↔ (m.logical.slots i).free = false
  handle : (m.entries i).live = true → (m.entries i).handle = ⟨i, (m.logical.slots i).generation⟩
  pinned : (m.entries i).pins ≠ 0 → (m.entries i).phase = some .resident
  marked : x ≠ some i → (m.entries i).prefetched = true →
    (m.entries i).phase ≠ some .stored ∧ (m.entries i).phase ≠ some .saving
  size : (m.entries i).live = true → (c i).length = m.blockBytes
  backed : (m.entries i).live = true → (m.entries i).phase = some .stored ∨
    (m.entries i).phase = some .loading ∨ (m.entries i).phase = some .queued →
    (m.transfers.buffers i).bytes = c i
  kept : ∀ g, (m.entries i).gpu = some g → (m.entries i).phase ≠ some .loading →
    m.transfers.memory g.id = c i ∧ m.transfers.pool.initialized g.id = true

/-- **The invariant** with the moves `ps` under way and the loads `qs` queued. -/
structure Core (c : ℕ → Bytes) (x : Option ℕ) (ps qs : List LogicalBlockHandle)
    (m : TieredBlockManager) : Prop where
  shaped : Shaped m.logical
  ledger : Ledger m.held [] m.transfers
  unpublished : ∀ i, (m.transfers.pool.manager.slots i).cached = false
  distinct : ∀ i j g g', (m.entries i).gpu = some g → (m.entries j).gpu = some g' →
    g.id = g'.id → i = j
  entry : ∀ i, EntryOk c x m i
  moving : Tracks Entry.Moving m.entries ps
  waiting : Tracks Entry.Waiting m.entries qs
  lru : Listed m.residentLru fun i => (m.entries i).Evictable
  bytes_pos : 0 < m.blockBytes
  sizes : ∀ i < m.logical.capacity, (m.transfers.buffers i).size = m.blockBytes
  defined : m.undefined = false

variable {c c' : ℕ → Bytes} {x x' : Option ℕ} {ps ps' qs qs' : List LogicalBlockHandle}
  {m m' : TieredBlockManager} {i : ℕ} {e : Entry} {h : LogicalBlockHandle} {g : BlockHandle}

namespace Core

/-- The entries in use are below the capacity. -/
theorem lt_capacity (hc : Core c x ps qs m) (hl : (m.entries i).live = true) :
    i < m.logical.capacity := by
  obtain ⟨free, idle, hs⟩ := hc.shaped
  by_contra hlt
  have hfree := hs.beyond i (not_lt.mp hlt)
  rw [((hc.entry i).live).mp hl] at hfree
  cases hfree

/-- An entry with anything set is in use. -/
theorem live_of_ne (hc : Core c x ps qs m) (hne : m.entries i ≠ {}) : (m.entries i).live = true := by
  cases hl : (m.entries i).live with
  | true => rfl
  | false => exact absurd ((hc.entry i).idle hl) hne

theorem live_of_gpu (hc : Core c x ps qs m) (hg : (m.entries i).gpu = some g) :
    (m.entries i).live = true :=
  hc.live_of_ne fun he => by rw [he] at hg; cases hg

theorem live_of_phase (hc : Core c x ps qs m) (hp : (m.entries i).phase ≠ some .stored) :
    (m.entries i).live = true :=
  hc.live_of_ne fun he => hp (by rw [he]; rfl)

/-- A slot that an entry owns. -/
theorem mem_held (hc : Core c x ps qs m) (hg : (m.entries i).gpu = some g) : g ∈ m.held := by
  have hlt := hc.lt_capacity (hc.live_of_gpu hg)
  refine Multiset.mem_of_le (Finset.single_le_sum (f := fun j => (m.entries j).slots)
    (fun _ _ => Multiset.zero_le _) (Finset.mem_range.mpr hlt)) ?_
  rw [Entry.slots_some hg]
  exact Multiset.mem_singleton_self g

/-- The state changes in parts that the invariant does not see. -/
theorem congr (hc : Core c x ps qs m) (hlogical : m'.logical = m.logical)
    (htransfers : m'.transfers = m.transfers) (hentries : m'.entries = m.entries)
    (hlru : m'.residentLru = m.residentLru) (hundefined : m'.undefined = m.undefined) :
    Core c x ps qs m' := by
  obtain ⟨logical, transfers, entries, lru, _, _, _, _, _, _, _, _, _, _, _, _, _, _, undefined⟩ := m
  obtain ⟨logical', transfers', entries', lru', _, _, _, _, _, _, _, _, _, _, _, _, _, _, undefined'⟩ := m'
  cases hlogical
  cases htransfers
  cases hentries
  cases hlru
  cases hundefined
  exact ⟨hc.shaped, hc.ledger, hc.unpublished, hc.distinct,
    fun i => ⟨(hc.entry i).shape, (hc.entry i).idle, (hc.entry i).live, (hc.entry i).handle,
      (hc.entry i).pinned, (hc.entry i).marked, (hc.entry i).size, (hc.entry i).backed,
      (hc.entry i).kept⟩,
    hc.moving, hc.waiting, hc.lru, hc.bytes_pos, hc.sizes, hc.defined⟩

/-- Only the bytes of the blocks in use matter. -/
theorem content (hc : Core c x ps qs m) (h : ∀ i, (m.entries i).live = true → c' i = c i) :
    Core c' x ps qs m :=
  { hc with
    entry := fun i => { hc.entry i with
      size := fun hl => by
        rw [h i hl]
        exact (hc.entry i).size hl
      backed := fun hl hp => by
        rw [h i hl]
        exact (hc.entry i).backed hl hp
      kept := fun g hg hp => by
        rw [h i (hc.live_of_gpu hg)]
        exact (hc.entry i).kept g hg hp } }

/-- **The device has worked**: the slots and the buffers that hold the blocks are as before. -/
theorem transfers {t : Transfers} (hc : Core c x ps qs m) (hled : Ledger m.held [] t)
    (hsame : SameBlocks m.transfers.pool.manager t.pool.manager)
    (hbytes : t.pool.blockBytes = m.blockBytes)
    (hsize : ∀ b, (t.buffers b).size = (m.transfers.buffers b).size)
    (hbuffer : ∀ i, (m.entries i).live = true → (m.entries i).phase ≠ some .saving →
      (m.entries i).phase ≠ some .resident → (t.buffers i).bytes = (m.transfers.buffers i).bytes)
    (hslot : ∀ i g, (m.entries i).gpu = some g → (m.entries i).phase ≠ some .loading →
      t.memory g.id = m.transfers.memory g.id ∧
        t.pool.initialized g.id = m.transfers.pool.initialized g.id) :
    Core c x ps qs { m with transfers := t } where
  shaped := hc.shaped
  ledger := hled
  unpublished i := (hsame.slot i).2.1.trans (hc.unpublished i)
  distinct := hc.distinct
  entry i :=
    { shape := (hc.entry i).shape
      idle := (hc.entry i).idle
      live := (hc.entry i).live
      handle := (hc.entry i).handle
      pinned := (hc.entry i).pinned
      marked := (hc.entry i).marked
      size := fun hl => ((hc.entry i).size hl).trans hbytes.symm
      backed := fun hl hp => by
        refine (hbuffer i hl ?_ ?_).trans ((hc.entry i).backed hl hp)
        · rcases hp with hp | hp | hp
          all_goals rw [hp]; decide
        · rcases hp with hp | hp | hp
          all_goals rw [hp]; decide
      kept := fun g hg hp => by
        obtain ⟨hmemory, hinit⟩ := hslot i g hg hp
        show t.memory g.id = c i ∧ t.pool.initialized g.id = true
        rw [hmemory, hinit]
        exact (hc.entry i).kept g hg hp }
  moving := hc.moving
  waiting := hc.waiting
  lru := hc.lru
  bytes_pos := lt_of_lt_of_eq hc.bytes_pos hbytes.symm
  sizes i hi := (hsize i).trans ((hc.sizes i hi).trans hbytes.symm)
  defined := hc.defined

/-- **One entry changes**, and with it the logical block and what the device holds for it. -/
theorem replace (hc : Core c x ps qs m) (hshaped : Shaped m'.logical)
    (hcapacity : m'.logical.capacity = m.logical.capacity)
    (hlogical : ∀ j, j ≠ i → (m'.logical.slots j).free = (m.logical.slots j).free ∧
      (m'.logical.slots j).generation = (m.logical.slots j).generation)
    (hcontent : ∀ j, j ≠ i → c' j = c j)
    (hentries : m'.entries = Function.update m.entries i e)
    (hdefined : m'.undefined = m.undefined) (hled : Ledger m'.held [] m'.transfers)
    (hunpublished : ∀ j, (m'.transfers.pool.manager.slots j).cached = false)
    (hbytes : m'.blockBytes = m.blockBytes)
    (hsize : ∀ b, (m'.transfers.buffers b).size = (m.transfers.buffers b).size)
    (hbuffers : ∀ j, j ≠ i → (m'.transfers.buffers j).bytes = (m.transfers.buffers j).bytes)
    (hslots : ∀ j g, j ≠ i → (m.entries j).gpu = some g →
      m'.transfers.memory g.id = m.transfers.memory g.id ∧
        m'.transfers.pool.initialized g.id = m.transfers.pool.initialized g.id)
    (hdistinct : ∀ g, e.gpu = some g → ∀ j g', j ≠ i → (m.entries j).gpu = some g' → g.id ≠ g'.id)
    (hx : ∀ j, j ≠ i → x = some j → x' = some j) (hok : EntryOk c' x' m' i)
    (hmoving : Tracks Entry.Moving m'.entries ps') (hwaiting : Tracks Entry.Waiting m'.entries qs')
    (hlru : Listed m'.residentLru fun j => (m'.entries j).Evictable) : Core c' x' ps' qs' m' where
  shaped := hshaped
  ledger := hled
  unpublished := hunpublished
  distinct j k g g' hg hg' he := by
    rw [hentries] at hg hg'
    by_cases hj : j = i
    · by_cases hk : k = i
      · rw [hj, hk]
      · subst hj
        rw [Function.update_self] at hg
        rw [Function.update_of_ne hk] at hg'
        exact absurd he (hdistinct g hg k g' hk hg')
    · rw [Function.update_of_ne hj] at hg
      by_cases hk : k = i
      · subst hk
        rw [Function.update_self] at hg'
        exact absurd he.symm (hdistinct g' hg' j g hj hg)
      · rw [Function.update_of_ne hk] at hg'
        exact hc.distinct j k g g' hg hg' he
  entry j := by
    by_cases hj : j = i
    · exact hj ▸ hok
    have hentry : m'.entries j = m.entries j := by rw [hentries, Function.update_of_ne hj]
    have hold := hc.entry j
    obtain ⟨hfree, hgeneration⟩ := hlogical j hj
    refine ⟨?_, ?_, ?_, ?_, ?_, fun hne => ?_, ?_, ?_, fun g => ?_⟩
    · rw [hentry]; exact hold.shape
    · rw [hentry]; exact hold.idle
    · rw [hentry, hfree]; exact hold.live
    · rw [hentry, hgeneration]; exact hold.handle
    · rw [hentry]; exact hold.pinned
    · rw [hentry]; exact hold.marked fun he => hne (hx j hj he)
    · rw [hentry, hbytes, hcontent j hj]; exact hold.size
    · rw [hentry, hbuffers j hj, hcontent j hj]; exact hold.backed
    · rw [hentry, hcontent j hj]
      intro hg hp
      obtain ⟨hmemory, hinit⟩ := hslots j g hj hg
      rw [hmemory, hinit]
      exact hold.kept g hg hp
  moving := hmoving
  waiting := hwaiting
  lru := hlru
  bytes_pos := hbytes ▸ hc.bytes_pos
  sizes j hj := by
    rw [hcapacity] at hj
    rw [hsize, hbytes]
    exact hc.sizes j hj
  defined := hdefined.trans hc.defined

/-- **One entry changes**, and with it what the device holds for it. -/
theorem update (hc : Core c x ps qs m) (hlogical : m'.logical = m.logical)
    (hentries : m'.entries = Function.update m.entries i e)
    (hdefined : m'.undefined = m.undefined) (hled : Ledger m'.held [] m'.transfers)
    (hunpublished : ∀ j, (m'.transfers.pool.manager.slots j).cached = false)
    (hbytes : m'.blockBytes = m.blockBytes)
    (hsize : ∀ b, (m'.transfers.buffers b).size = (m.transfers.buffers b).size)
    (hbuffers : ∀ j, j ≠ i → (m'.transfers.buffers j).bytes = (m.transfers.buffers j).bytes)
    (hslots : ∀ j g, j ≠ i → (m.entries j).gpu = some g →
      m'.transfers.memory g.id = m.transfers.memory g.id ∧
        m'.transfers.pool.initialized g.id = m.transfers.pool.initialized g.id)
    (hdistinct : ∀ g, e.gpu = some g → ∀ j g', j ≠ i → (m.entries j).gpu = some g' → g.id ≠ g'.id)
    (hx : ∀ j, j ≠ i → x = some j → x' = some j) (hok : EntryOk c x' m' i)
    (hmoving : Tracks Entry.Moving m'.entries ps') (hwaiting : Tracks Entry.Waiting m'.entries qs')
    (hlru : Listed m'.residentLru fun j => (m'.entries j).Evictable) : Core c x' ps' qs' m' :=
  hc.replace (hlogical ▸ hc.shaped) (by rw [hlogical]) (fun _ _ => by rw [hlogical]; exact ⟨rfl, rfl⟩)
    (fun _ _ => rfl) hentries hdefined hled hunpublished hbytes hsize hbuffers hslots hdistinct hx hok
    hmoving hwaiting hlru

end Core

end KVFlux.TieredBlockManager
