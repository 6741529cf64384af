import KVFlux.TieredBlockManager.Invariant

/-!
# What the moves leave alone

* `outstanding`, `marks`, `demand`: the counters of the prefetches and of the demands.
* `Spares`: the new batches in the history do not touch leased slots.
* **`Frame m m'`**: a call that moves blocks; it keeps the blocks, their leases and the demands, and
  counts every mark once. `Frame.trans`.
* `OnDevice m m'`: only the device and its answers differ.
* `Core.discard`: a mark is given up.
-/

namespace KVFlux.TieredBlockManager

open Fallible BlockManager AsyncTransfer Table

/-- The prefetched blocks that wait for a demand. -/
def outstanding (m : TieredBlockManager) : ℕ :=
  total m.logical.capacity (fun e : Entry => if e.prefetched = true then 1 else 0) m.entries

/-- The prefetches, by what became of them. -/
def marks (m : TieredBlockManager) : ℕ :=
  m.prefetchHits + m.prefetchLate + m.prefetchUnused + m.outstanding

/-- The counters of the demands. -/
def demand (m : TieredBlockManager) : ℕ × ℕ × ℕ × ℕ × ℕ :=
  (m.demandCount, m.gpuDemandHits, m.prefetchMisses, m.prefetchHits, m.prefetchLate)

/-- The batches that `m'` adds to the history do not touch leased slots. -/
def Spares (m m' : TieredBlockManager) : Prop :=
  ∃ ws, m'.transfers.history = m.transfers.history ++ ws ∧
    ∀ w ∈ ws, ∀ g ∈ w.blocks, ∀ i g', (m.entries i).pins ≠ 0 → (m.entries i).gpu = some g' →
      g.id ≠ g'.id

/-- **What a call that moves blocks leaves alone.** -/
structure Frame (m m' : TieredBlockManager) : Prop where
  logical : m'.logical = m.logical
  capacity : m'.transfers.pool.manager.capacity = m.transfers.pool.manager.capacity
  blockBytes : m'.blockBytes = m.blockBytes
  base : m'.transfers.pool.base = m.transfers.pool.base
  entry : ∀ i, (m'.entries i).live = (m.entries i).live ∧
    (m'.entries i).handle = (m.entries i).handle ∧ (m'.entries i).pins = (m.entries i).pins
  pinned : ∀ i, (m.entries i).pins ≠ 0 → m'.entries i = m.entries i
  history : Spares m m'
  marks : m'.marks + m.prefetchSubmitted = m.marks + m'.prefetchSubmitted
  demand : m'.demand = m.demand
  faults : m.faults ≤ m'.faults

variable {c : ℕ → Bytes} {x x' : Option ℕ} {ps ps' qs qs' : List LogicalBlockHandle}
  {m m' m'' : TieredBlockManager} {i : ℕ} {e : Entry} {h : LogicalBlockHandle} {g : BlockHandle}

theorem Spares.refl (m : TieredBlockManager) : Spares m m :=
  ⟨[], (List.append_nil _).symm, fun _ hw => absurd hw List.not_mem_nil⟩

theorem spares_of_eq (h : m'.transfers.history = m.transfers.history) : Spares m m' :=
  ⟨[], h.trans (List.append_nil _).symm, fun _ hw => absurd hw List.not_mem_nil⟩

namespace Frame

theorem refl (m : TieredBlockManager) : Frame m m :=
  ⟨rfl, rfl, rfl, rfl, fun _ => ⟨rfl, rfl, rfl⟩, fun _ _ => rfl, Spares.refl m, rfl, rfl, le_rfl⟩

theorem trans (h : Frame m m') (h' : Frame m' m'') : Frame m m'' where
  logical := h'.logical.trans h.logical
  capacity := h'.capacity.trans h.capacity
  blockBytes := h'.blockBytes.trans h.blockBytes
  base := h'.base.trans h.base
  entry i := ⟨(h'.entry i).1.trans (h.entry i).1, (h'.entry i).2.1.trans (h.entry i).2.1,
    (h'.entry i).2.2.trans (h.entry i).2.2⟩
  pinned i hi := (h'.pinned i (by rwa [h.pinned i hi])).trans (h.pinned i hi)
  history := by
    obtain ⟨ws, hws, hspare⟩ := h.history
    obtain ⟨ws', hws', hspare'⟩ := h'.history
    refine ⟨ws ++ ws', by rw [hws', hws, List.append_assoc], fun w hw g hg i g' hi hg' => ?_⟩
    rcases List.mem_append.mp hw with hw | hw
    · exact hspare w hw g hg i g' hi hg'
    · -- the leased slots of the second call are those of the first
      have hsame := h.pinned i hi
      exact hspare' w hw g hg i g' (by rwa [hsame]) (by rwa [hsame])
  marks := by
    have h₁ := h.marks
    have h₂ := h'.marks
    omega
  demand := h'.demand.trans h.demand
  faults := h.faults.trans h'.faults

end Frame

/-- Only the device and its answers differ. -/
structure OnDevice (m m' : TieredBlockManager) : Prop where
  rest : { m with transfers := m'.transfers, answers := m'.answers, faults := m'.faults } = m'
  capacity : m'.transfers.pool.manager.capacity = m.transfers.pool.manager.capacity
  blockBytes : m'.blockBytes = m.blockBytes
  base : m'.transfers.pool.base = m.transfers.pool.base
  faults : m.faults ≤ m'.faults

namespace OnDevice

theorem entries (h : OnDevice m m') : m'.entries = m.entries := by rw [← h.rest]

theorem logical (h : OnDevice m m') : m'.logical = m.logical := by rw [← h.rest]

theorem pending (h : OnDevice m m') : m'.pending = m.pending := by rw [← h.rest]

theorem queued (h : OnDevice m m') : m'.queued = m.queued := by rw [← h.rest]

theorem held (h : OnDevice m m') : m'.held = m.held := by
  unfold TieredBlockManager.held
  rw [h.entries, h.logical]

theorem moves (h : OnDevice m m') : m'.offloads = m.offloads ∧ m'.loads = m.loads := by
  rw [← h.rest]
  exact ⟨rfl, rfl⟩

theorem frame (h : OnDevice m m') (hspares : Spares m m') : Frame m m' where
  logical := h.logical
  capacity := h.capacity
  blockBytes := h.blockBytes
  base := h.base
  entry i := by rw [h.entries]; exact ⟨rfl, rfl, rfl⟩
  pinned i _ := by rw [h.entries]
  history := hspares
  marks := by rw [← h.rest]; rfl
  demand := by rw [← h.rest]; rfl
  faults := h.faults

/-- The invariant of a state that differs on the device. -/
theorem core (h : OnDevice m m') (hc : Core c x ps qs { m with transfers := m'.transfers }) :
    Core c x ps qs m' :=
  hc.congr h.logical rfl h.entries (by rw [← h.rest]) (by rw [← h.rest])

end OnDevice

/-! ## Changes of one entry -/

/-- A change of an entry without leases that keeps its block and its mark. -/
theorem frame_entry (hentries : m'.entries = Function.update m.entries i e)
    (hrest : { m with
      entries := m'.entries, residentLru := m'.residentLru, pending := m'.pending,
      queued := m'.queued, transfers := m'.transfers, offloads := m'.offloads, loads := m'.loads } =
      m')
    (hcapacity : m'.transfers.pool.manager.capacity = m.transfers.pool.manager.capacity)
    (hbytes : m'.blockBytes = m.blockBytes)
    (hbase : m'.transfers.pool.base = m.transfers.pool.base)
    (hhistory : m'.transfers.history = m.transfers.history) (hpins : (m.entries i).pins = 0)
    (he : e.live = (m.entries i).live ∧ e.handle = (m.entries i).handle ∧ e.pins = 0)
    (hmark : e.prefetched = (m.entries i).prefetched) : Frame m m' where
  logical := by rw [← hrest]
  capacity := hcapacity
  blockBytes := hbytes
  base := hbase
  entry j := by
    rw [hentries]
    by_cases hj : j = i
    · rw [hj, Function.update_self, hpins]
      exact he
    · rw [Function.update_of_ne hj]
      exact ⟨rfl, rfl, rfl⟩
  pinned j hj := by
    have hne : j ≠ i := fun he => hj (by rw [he, hpins])
    rw [hentries, Function.update_of_ne hne]
  history := spares_of_eq hhistory
  marks := by
    have hlogical : m'.logical = m.logical := by rw [← hrest]
    have htotal : m'.outstanding = m.outstanding := by
      unfold outstanding
      rw [hentries, hlogical]
      exact total_same (by rw [hmark])
    have hcounts : m'.prefetchHits = m.prefetchHits ∧ m'.prefetchLate = m.prefetchLate ∧
        m'.prefetchUnused = m.prefetchUnused ∧ m'.prefetchSubmitted = m.prefetchSubmitted := by
      rw [← hrest]
      exact ⟨rfl, rfl, rfl, rfl⟩
    unfold TieredBlockManager.marks
    rw [htotal, hcounts.1, hcounts.2.1, hcounts.2.2.1, hcounts.2.2.2]
  demand := by rw [← hrest]; rfl
  faults := le_of_eq (by rw [← hrest])

/-! ## Marks -/

theorem discardPrefetch_eq (i : ℕ) (m : TieredBlockManager) : discardPrefetch i m =
    { m with
      entries := Function.update m.entries i { m.entries i with prefetched := false }
      prefetchUnused := m.prefetchUnused + if (m.entries i).prefetched = true then 1 else 0 } := by
  unfold discardPrefetch
  split_ifs with hp
  · rfl
  · have hsame : ({ m.entries i with prefetched := false } : Entry) = m.entries i := by
      cases he : m.entries i with
      | mk live handle location move gpu pins prefetched =>
        rw [he] at hp
        cases prefetched with
        | false => rfl
        | true => exact absurd rfl hp
    rw [hsame, Function.update_eq_self]
    rfl

theorem discardPrefetch_entries (i : ℕ) (m : TieredBlockManager) : (discardPrefetch i m).entries =
    Function.update m.entries i { m.entries i with prefetched := false } := by
  rw [discardPrefetch_eq]

/-- **A discarded mark is counted as unused.** -/
theorem marks_discard (hi : i < m.logical.capacity) : (discardPrefetch i m).marks = m.marks := by
  have htotal := total_update hi { m.entries i with prefetched := false }
    (f := fun e : Entry => if e.prefetched = true then 1 else 0) (e := m.entries)
  rw [discardPrefetch_eq]
  unfold marks outstanding
  simp only [Bool.false_eq_true, if_false, add_zero] at htotal ⊢
  omega

theorem frame_discard (hi : i < m.logical.capacity) (hpins : (m.entries i).pins = 0) :
    Frame m (discardPrefetch i m) where
  logical := by rw [discardPrefetch_eq]
  capacity := by rw [discardPrefetch_eq]
  blockBytes := by rw [discardPrefetch_eq]; rfl
  base := by rw [discardPrefetch_eq]
  entry j := by
    rw [discardPrefetch_entries]
    by_cases hj : j = i
    · rw [hj, Function.update_self]
      exact ⟨rfl, rfl, rfl⟩
    · rw [Function.update_of_ne hj]
      exact ⟨rfl, rfl, rfl⟩
  pinned j hj := by
    have hne : j ≠ i := fun he => hj (by rw [he, hpins])
    rw [discardPrefetch_entries, Function.update_of_ne hne]
  history := spares_of_eq (by rw [discardPrefetch_eq])
  marks := by
    rw [marks_discard hi]
    rw [discardPrefetch_eq]
  demand := by rw [discardPrefetch_eq]; rfl
  faults := le_of_eq (by rw [discardPrefetch_eq])

/-- The phase of an entry does not see its mark. -/
theorem phase_unmarked (e : Entry) (b : Bool) :
    ({ e with prefetched := b } : Entry).phase = e.phase := rfl

/-- The slots that the entries own after a change of one entry. -/
theorem held_same (hcapacity : m'.logical.capacity = m.logical.capacity)
    (hentries : m'.entries = Function.update m.entries i e) (hg : e.gpu = (m.entries i).gpu) :
    m'.held = m.held := by
  unfold held
  rw [hcapacity, hentries]
  refine total_same ?_
  unfold Entry.slots
  rw [hg]

/-- **The leases or the mark of an entry change**, and nothing else of it. -/
theorem Core.relabel (hc : Core c x ps qs m) (hlogical : m'.logical = m.logical)
    (htransfers : m'.transfers = m.transfers) (hundefined : m'.undefined = m.undefined)
    (hentries : m'.entries = Function.update m.entries i e)
    (he : e = { m.entries i with pins := e.pins, prefetched := e.prefetched })
    (hidle : (m.entries i).live = false → e = {})
    (hpinned : e.pins ≠ 0 → (m.entries i).phase = some .resident)
    (hmarked : x' ≠ some i → e.prefetched = true →
      (m.entries i).phase ≠ some .stored ∧ (m.entries i).phase ≠ some .saving)
    (hx : ∀ j, j ≠ i → x = some j → x' = some j)
    (hlru : Listed m'.residentLru fun j => (m'.entries j).Evictable) : Core c x' ps qs m' := by
  have hold := hc.entry i
  have hself : m'.entries i = e := by rw [hentries, Function.update_self]
  have hlive : e.live = (m.entries i).live := by rw [he]
  have hhandle : e.handle = (m.entries i).handle := by rw [he]
  have hgpu : e.gpu = (m.entries i).gpu := by rw [he]
  have hphase : e.phase = (m.entries i).phase := by rw [he]; rfl
  have hbytes : m'.blockBytes = m.blockBytes := by
    unfold blockBytes
    rw [htransfers]
  have hmove : e.Moving ↔ (m.entries i).Moving := by
    unfold Entry.Moving
    rw [hphase]
  have hwait : e.Waiting ↔ (m.entries i).Waiting := by
    unfold Entry.Waiting
    rw [hphase]
  refine hc.update hlogical hentries hundefined ?_ ?_ hbytes (fun b => ?_) (fun j _ => ?_)
    (fun j g _ _ => ?_) (fun g hg j g' hj hg' hid => ?_) hx ?_ ?_ ?_ hlru
  · rw [held_same (congrArg BlockManager.capacity hlogical) hentries hgpu, htransfers]
    exact hc.ledger
  · rw [htransfers]
    exact hc.unpublished
  · rw [htransfers]
  · rw [htransfers]
  · rw [htransfers]
    exact ⟨rfl, rfl⟩
  · rw [hgpu] at hg
    exact hj (hc.distinct i j g g' hg hg' hid).symm
  · refine ⟨?_, fun hl => ?_, ?_, ?_, ?_, ?_, ?_, ?_, ?_⟩
    · rw [hself, hphase]; exact hold.shape
    · rw [hself] at hl ⊢
      exact hidle (hlive.symm.trans hl)
    · rw [hself, hlive, hlogical]; exact hold.live
    · rw [hself, hlive, hhandle, hlogical]; exact hold.handle
    · rw [hself, hphase]; exact hpinned
    · rw [hself, hphase]; exact hmarked
    · rw [hself, hlive, hbytes]; exact hold.size
    · rw [hself, hlive, hphase, htransfers]; exact hold.backed
    · rw [hself, hgpu, hphase, htransfers]; exact hold.kept
  · rw [hentries]
    exact hc.moving.same hmove fun _ => hhandle
  · rw [hentries]
    exact hc.waiting.same hwait fun _ => hhandle

/-- A change that the LRU list does not see. -/
theorem Core.lru_same (hc : Core c x ps qs m) (hlru : m'.residentLru = m.residentLru)
    (hentries : m'.entries = Function.update m.entries i e)
    (he : e.Evictable ↔ (m.entries i).Evictable) :
    Listed m'.residentLru fun j => (m'.entries j).Evictable := by
  rw [hlru]
  refine hc.lru.congr fun j => ?_
  rw [hentries]
  by_cases hj : j = i
  · rw [hj, Function.update_self]
    exact he
  · rw [Function.update_of_ne hj]

/-- **A discarded mark keeps the invariant** and settles the mark of the entry. -/
theorem Core.discard (hc : Core c x ps qs m) (hx : ∀ j, j ≠ i → x = some j → x' = some j) :
    Core c x' ps qs (discardPrefetch i m) := by
  have hentries := discardPrefetch_entries i m
  refine hc.relabel ?_ ?_ ?_ hentries rfl (fun hl => ?_) (hc.entry i).pinned (fun _ hp => ?_) hx ?_
  · rw [discardPrefetch_eq]
  · rw [discardPrefetch_eq]
  · rw [discardPrefetch_eq]
  · rw [(hc.entry i).idle hl]
  · cases hp
  · exact hc.lru_same (by rw [discardPrefetch_eq]) hentries Iff.rfl

end KVFlux.TieredBlockManager
