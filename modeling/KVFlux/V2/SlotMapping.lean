import KVFlux.V2.SequenceState

/-!
# Slots of tokens

* `TokenWrite`, `buildSlotMapping`: the physical slot of every token of a batch.
* `buildReadBlockTable`: the page numbers of one sequence.
* `Resident`: the pages of a sequence are pages of the pool; `pages`, `slotOf`: its page numbers and
  the slots of its tokens.
* **`buildSlotMapping_ok`**, **`buildReadBlockTable_eq`**: what they return.
-/

namespace KVFlux.V2

open Fallible BlockManager

/-- A null pointer to a sequence is `none`. -/
structure TokenWrite where
  sequence : Option SequenceState
  tokenPosition : ℕ

/-- `shares_pool_with(other)`. -/
def BlockTable.sharesPoolWith (t other : BlockTable) : Prop := t.pool.isSome ∧ t.pool = other.pool

instance (t other : BlockTable) : Decidable (t.sharesPoolWith other) := by
  unfold BlockTable.sharesPoolWith; infer_instance

/-- One round of `build_slot_mapping`. -/
def slotOfWrite (pool : PhysicalBlockPool) (firstTable : BlockTable) (write : TokenWrite) :
    Except Exn ℕ :=
  match write.sequence with
  | none => .error (.invalidArgument "null sequence in slot mapping")
  | some s => do
    if ¬ firstTable.sharesPoolWith s.blockTable then
      throw (.invalidArgument "slot mapping batch must use one physical pool")
    let location ← s.tokenLocation pool write.tokenPosition
    if location.physicalBlock > (u64Max - location.offsetInBlock) / s.blockSize then
      throw (.overflowError "physical slot overflow")
    return location.physicalBlock * s.blockSize + location.offsetInBlock

/-- `build_slot_mapping(batch)`. -/
def buildSlotMapping (pool : PhysicalBlockPool) (batch : List TokenWrite) : Except Exn (List ℕ) :=
  match batch with
  | [] => .ok []
  | first :: _ =>
    match first.sequence with
    | none => .error (.invalidArgument "null sequence in slot mapping")
    | some s => batch.mapM (slotOfWrite pool s.blockTable)

/-- `build_read_block_table(sequence)`. -/
def buildReadBlockTable (pool : PhysicalBlockPool) (s : SequenceState) : Except Exn (List ℕ) :=
  (List.range s.numAllocatedBlocks).mapM (s.physicalBlockId pool)

/-! ## Resident sequences -/

namespace SequenceState

/-- The page numbers of a sequence. -/
def pages (s : SequenceState) : List ℕ := s.blockTable.blocks.map BlockHandle.id

/-- The slot of token `t`. -/
def slotOf (s : SequenceState) (t : ℕ) : ℕ :=
  s.pages.getD (t / s.blockSize) 0 * s.blockSize + t % s.blockSize

/-- The pages of the sequence are pages of the pool and cover its tokens. -/
structure Resident (pool : PhysicalBlockPool) (s : SequenceState) : Prop where
  blockSize : s.blockSize = pool.blockSize
  blockSize_pos : 0 < s.blockSize
  covered : s.Covered
  id : ∀ h ∈ s.blockTable.blocks, pool.id h = .ok h.id
  id_lt : ∀ h ∈ s.blockTable.blocks, h.id < pool.capacity

variable {pool : PhysicalBlockPool} {s : SequenceState}

namespace Resident

theorem physicalBlockId (hs : Resident pool s) {l : ℕ} (hl : l < s.pages.length) :
    s.physicalBlockId pool l = .ok (s.pages.getD l 0) := by
  have hlt : l < s.blockTable.blocks.length := by simpa [pages] using hl
  rw [SequenceState.physicalBlockId, BlockTable.physicalId, List.getElem?_eq_getElem hlt]
  simp only [hs.id _ (List.getElem_mem hlt)]
  rw [List.getD_eq_getElem _ _ hl]
  simp [pages]

/-- The page of a token exists. -/
theorem page_lt (hs : Resident pool s) {t : ℕ} (ht : t < s.numTokens) :
    t / s.blockSize < s.pages.length := by
  have := lt_neededBlocks hs.blockSize_pos ht
  rw [← hs.covered] at this
  simpa [pages, BlockTable.size] using this

theorem page_mem_lt (hs : Resident pool s) {l : ℕ} (hl : l < s.pages.length) :
    s.pages.getD l 0 < pool.capacity := by
  rw [List.getD_eq_getElem _ _ hl]
  obtain ⟨h, hh, heq⟩ := List.mem_map.mp (List.getElem_mem hl)
  rw [← heq]
  exact hs.id_lt h hh

theorem offset_lt (hs : Resident pool s) (t : ℕ) : t % s.blockSize < s.blockSize :=
  Nat.mod_lt t hs.blockSize_pos

theorem tokenLocation (hs : Resident pool s) {t : ℕ} (ht : t < s.numTokens) :
    s.tokenLocation pool t = .ok ⟨s.pages.getD (t / s.blockSize) 0, t % s.blockSize⟩ := by
  unfold SequenceState.tokenLocation
  rw [if_neg (by omega), hs.physicalBlockId (hs.page_lt ht)]
  rfl

end Resident

end SequenceState

variable {pool : PhysicalBlockPool} {s : SequenceState} {batch : List TokenWrite} {slots : List ℕ}

/-- **The page numbers of a sequence.** -/
theorem buildReadBlockTable_eq (hs : s.Resident pool) : buildReadBlockTable pool s = .ok s.pages := by
  have hlength : s.pages.length = s.numAllocatedBlocks := by
    simp [SequenceState.pages, SequenceState.numAllocatedBlocks, BlockTable.size]
  apply mapM_returns.mpr
  apply List.forall₂_iff_get.mpr
  refine ⟨by rw [List.length_range, hlength], fun l hl hl' => ?_⟩
  simp only [List.get_eq_getElem, List.getElem_range]
  rw [hs.physicalBlockId hl', List.getD_eq_getElem _ _ hl']

theorem slotOfWrite_ok {first : BlockTable} {write : TokenWrite} {slot : ℕ}
    (h : slotOfWrite pool first write = .ok slot) :
    ∃ s, write.sequence = some s ∧
      (s.Resident pool → write.tokenPosition < s.numTokens ∧ slot = s.slotOf write.tokenPosition) := by
  unfold slotOfWrite at h
  cases hs : write.sequence with
  | none => simp only [hs] at h; cases h
  | some s =>
    refine ⟨s, rfl, fun hr => ?_⟩
    simp only [hs] at h
    by_cases hshare : first.sharesPoolWith s.blockTable
    swap
    · rw [if_pos hshare] at h
      cases h
    rw [if_neg (not_not.mpr hshare)] at h
    obtain ⟨location, hlocation, h⟩ := returns_bind.mp h
    have ht : write.tokenPosition < s.numTokens := by
      by_contra hge
      unfold SequenceState.tokenLocation at hlocation
      rw [if_pos (by omega)] at hlocation
      cases hlocation
    rw [hr.tokenLocation ht] at hlocation
    obtain rfl := Except.ok.inj hlocation
    split_ifs at h with hover
    · cases h
    · exact ⟨ht, (Except.ok.inj h).symm⟩

/-- **The slot mapping of a batch**, row by row. -/
theorem buildSlotMapping_ok (h : buildSlotMapping pool batch = .ok slots) :
    List.Forall₂ (fun (write : TokenWrite) slot => ∃ s, write.sequence = some s ∧
      (s.Resident pool → write.tokenPosition < s.numTokens ∧ slot = s.slotOf write.tokenPosition))
      batch slots := by
  unfold buildSlotMapping at h
  split at h
  · obtain rfl := Except.ok.inj h
    exact .nil
  · next first rest =>
    split at h
    · cases h
    · exact (mapM_returns.mp h).imp fun _ _ => slotOfWrite_ok

end KVFlux.V2
