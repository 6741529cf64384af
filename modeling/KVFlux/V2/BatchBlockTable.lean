import KVFlux.KVLayout
import KVFlux.V2.SlotMapping

/-!
# The block table of a batch

One padded row of page numbers for each sequence, in row-major order.

* `BatchBlockTable`, `physicalId`, `build`.
* `Of`: every row holds the pages of its sequence, then padding. **`build_ok`**: so does the table
  that is built; **`build_returns`**: when one is built.
* **`physicalId_row`**, **`physicalId_padding`**: what a lookup returns or throws.
-/

namespace KVFlux.V2

open Fallible

structure BatchBlockTable where
  maxBlocksPerSequence : ℕ := 0
  blockTable : List ℕ := []
  sequenceLengths : List ℕ := []
deriving DecidableEq, Repr

namespace BatchBlockTable

/-- `invalid_block()`: `static_cast<PhysicalBlockID>(-1)`. -/
def invalidBlock : ℕ := sizeMax

/-- `num_sequences()`. -/
def numSequences (t : BatchBlockTable) : ℕ := t.sequenceLengths.length

/-- `physical_id(request, logical_block)`. -/
def physicalId (t : BatchBlockTable) (request logicalBlock : ℕ) : Except Exn ℕ :=
  if request ≥ t.numSequences ∨ logicalBlock ≥ t.maxBlocksPerSequence then
    .error (.outOfRange "batch block table index out of range")
  else
    let block := t.blockTable.getD (request * t.maxBlocksPerSequence + logicalBlock) 0
    if block = invalidBlock then .error (.outOfRange "batch block table padding")
    else .ok block

/-- One round of the first loop: the length of a sequence and the width so far. -/
def measure (first : SequenceState) (t : BatchBlockTable) (sequence : Option SequenceState) :
    Except Exn BatchBlockTable :=
  match sequence with
  | none => .error (.invalidArgument "null batch sequence")
  | some s =>
    if ¬ s.blockTable.sharesPoolWith first.blockTable then
      .error (.invalidArgument "batch sequences must use one physical pool")
    else .ok { t with
      sequenceLengths := t.sequenceLengths ++ [s.numTokens]
      maxBlocksPerSequence :=
        if s.numAllocatedBlocks > t.maxBlocksPerSequence then s.numAllocatedBlocks
        else t.maxBlocksPerSequence }

/-- The inner loop: the pages of one sequence. -/
def fillRow (pool : PhysicalBlockPool) (width request : ℕ) (s : SequenceState)
    (table : List ℕ) : Except Exn (List ℕ) :=
  (List.range s.numAllocatedBlocks).foldlM (fun table logical => do
    let id ← s.physicalBlockId pool logical
    return table.set (request * width + logical) id) table

/-- The loop over the requests from `request` on. -/
def fillRows (pool : PhysicalBlockPool) (width : ℕ) : ℕ → List SequenceState → List ℕ →
    Except Exn (List ℕ)
  | _, [], table => .ok table
  | request, s :: sequences, table => do
    let table ← fillRow pool width request s table
    fillRows pool width (request + 1) sequences table

/-- `build_batch_block_table(sequences)`; a null pointer is `none`. -/
def build (pool : PhysicalBlockPool) (sequences : List (Option SequenceState)) :
    Except Exn BatchBlockTable :=
  match sequences with
  | [] => .ok {}
  | none :: _ => .error (.invalidArgument "null batch sequence")
  | some first :: _ => do
    let t ← sequences.foldlM (measure first) {}
    if t.maxBlocksPerSequence > sizeMax / sequences.length then
      throw (.overflowError "batch block table size overflow")
    let table := List.replicate (sequences.length * t.maxBlocksPerSequence) invalidBlock
    let table ← fillRows pool t.maxBlocksPerSequence 0 (sequences.filterMap fun s => s) table
    return { t with blockTable := table }

/-! ## What is built -/

variable {pool : PhysicalBlockPool} {first : SequenceState} {ss : List SequenceState}
  {t t' : BatchBlockTable}

/-- The row of a sequence. -/
def row (width : ℕ) (s : SequenceState) : List ℕ :=
  s.pages ++ List.replicate (width - s.pages.length) invalidBlock

/-- The table of the sequences `ss`: their lengths, the width of the longest, and their rows. -/
structure Of (ss : List SequenceState) (t : BatchBlockTable) : Prop where
  lengths : t.sequenceLengths = ss.map SequenceState.numTokens
  width : ∀ n, t.maxBlocksPerSequence ≤ n ↔ ∀ s ∈ ss, s.pages.length ≤ n
  rows : t.blockTable = ss.flatMap (row t.maxBlocksPerSequence)

theorem pages_length (s : SequenceState) : s.pages.length = s.numAllocatedBlocks := by
  simp [SequenceState.pages, SequenceState.numAllocatedBlocks, BlockTable.size]

theorem row_length {width : ℕ} {s : SequenceState} (h : s.pages.length ≤ width) :
    (row width s).length = width := by
  unfold row
  rw [List.length_append, List.length_replicate]
  omega

/-- One sequence that shares the pool. -/
theorem measure_some {s : SequenceState} (hs : s.blockTable.sharesPoolWith first.blockTable) :
    measure first t (some s) = .ok { t with
      sequenceLengths := t.sequenceLengths ++ [s.numTokens]
      maxBlocksPerSequence := max t.maxBlocksPerSequence s.pages.length } := by
  have hmax : max t.maxBlocksPerSequence s.pages.length =
      if s.numAllocatedBlocks > t.maxBlocksPerSequence then s.numAllocatedBlocks
      else t.maxBlocksPerSequence := by
    rw [pages_length]
    split_ifs with h
    · exact max_eq_right h.le
    · exact max_eq_left (not_lt.mp h)
  unfold measure
  rw [hmax]
  exact if_neg (not_not.mpr hs)

/-- **The first loop** accepts sequences that share the pool, and only those. -/
theorem measure_ok (h : (ss.map some).foldlM (measure first) t = .ok t') :
    (∀ s ∈ ss, s.blockTable.sharesPoolWith first.blockTable) ∧
      t'.sequenceLengths = t.sequenceLengths ++ ss.map SequenceState.numTokens ∧
      (∀ n, t'.maxBlocksPerSequence ≤ n ↔
        t.maxBlocksPerSequence ≤ n ∧ ∀ s ∈ ss, s.pages.length ≤ n) := by
  induction ss generalizing t with
  | nil =>
    obtain rfl := Except.ok.inj h
    simp
  | cons s ss ih =>
    obtain ⟨t₁, hs, h⟩ := returns_bind.mp h
    by_cases hshare : s.blockTable.sharesPoolWith first.blockTable
    · rw [measure_some hshare] at hs
      obtain rfl := Except.ok.inj hs
      obtain ⟨hall, hlengths, hwidth⟩ := ih h
      refine ⟨List.forall_mem_cons.mpr ⟨hshare, hall⟩, ?_, fun n => ?_⟩
      · rw [hlengths, List.append_assoc]
        rfl
      · rw [hwidth, max_le_iff, List.forall_mem_cons, and_assoc]
    · simp only [measure, if_pos hshare] at hs
      cases hs

theorem measure_returns (h : ∀ s ∈ ss, s.blockTable.sharesPoolWith first.blockTable) :
    ∃ t', (ss.map some).foldlM (measure first) t = .ok t' := by
  induction ss generalizing t with
  | nil => exact ⟨t, rfl⟩
  | cons s ss ih =>
    obtain ⟨hs, hss⟩ := List.forall_mem_cons.mp h
    obtain ⟨t', ht'⟩ := ih hss
    refine ⟨t', ?_⟩
    rw [List.map_cons, List.foldlM_cons, measure_some hs]
    exact ht'

/-- **The inner loop** fills the row of a sequence from the left. -/
theorem fillRow_eq {s : SequenceState} (hs : s.Resident pool) {width request : ℕ}
    {done rest : List ℕ} (hdone : done.length = request * width) (hle : s.pages.length ≤ width) :
    fillRow pool width request s (done ++ (List.replicate width invalidBlock ++ rest)) =
      .ok (done ++ (row width s ++ rest)) := by
  have hloop : ∀ n ≤ s.pages.length,
      (List.range n).foldlM (fun table logical => do
        let id ← s.physicalBlockId pool logical
        return table.set (request * width + logical) id)
        (done ++ (List.replicate width invalidBlock ++ rest)) =
      Except.ok (ε := Exn) (done ++ (s.pages.take n ++
        (List.replicate (width - n) invalidBlock ++ rest))) := by
    intro n hn
    induction n with
    | zero => rfl
    | succ n ih =>
      have hlt : n < s.pages.length := hn
      have hpad : List.replicate (width - n) invalidBlock =
          invalidBlock :: List.replicate (width - (n + 1)) invalidBlock := by
        rw [← List.replicate_succ]
        congr 1
        omega
      have htake : (s.pages.take n).length = n := List.length_take_of_le hlt.le
      rw [List.range_succ, List.foldlM_append, ih hlt.le]
      simp only [List.foldlM_cons, List.foldlM_nil, bind, Except.bind, hs.physicalBlockId hlt, pure,
        Except.pure]
      rw [← hdone, List.set_append_right _ _ (by omega), Nat.add_sub_cancel_left,
        List.set_append_right _ _ htake.le, htake, Nat.sub_self, hpad]
      simp only [List.cons_append, List.set_cons_zero]
      rw [List.take_add_one, List.getElem?_eq_getElem hlt, List.getD_eq_getElem _ _ hlt,
        Option.toList_some, List.append_assoc]
      rfl
  unfold fillRow
  rw [← pages_length, hloop _ le_rfl, List.take_length]
  unfold row
  rw [List.append_assoc]

/-- **The outer loop** fills the rows from the top. -/
theorem fillRows_eq (hr : ∀ s ∈ ss, s.Resident pool) {width request : ℕ} {done : List ℕ}
    (hdone : done.length = request * width) (hle : ∀ s ∈ ss, s.pages.length ≤ width) :
    fillRows pool width request ss (done ++ List.replicate (ss.length * width) invalidBlock) =
      .ok (done ++ ss.flatMap (row width)) := by
  induction ss generalizing request done with
  | nil =>
    rw [List.length_nil, Nat.zero_mul]
    rfl
  | cons s ss ih =>
    obtain ⟨hs, hss⟩ := List.forall_mem_cons.mp hr
    obtain ⟨hs', hss'⟩ := List.forall_mem_cons.mp hle
    have hsplit : List.replicate ((s :: ss).length * width) invalidBlock =
        List.replicate width invalidBlock ++ List.replicate (ss.length * width) invalidBlock := by
      rw [List.replicate_append_replicate, List.length_cons, Nat.succ_mul, Nat.add_comm]
    have hnext : (done ++ row width s).length = (request + 1) * width := by
      rw [List.length_append, row_length hs', hdone, Nat.succ_mul]
    unfold fillRows
    rw [hsplit, fillRow_eq hs hdone hs', ← List.append_assoc]
    simp only [bind, Except.bind]
    rw [ih hss hnext hss', List.flatMap_cons, List.append_assoc]

/-- The second loop, for resident sequences. -/
theorem build_cons {s : SequenceState} (hr : ∀ s' ∈ s :: ss, s'.Resident pool)
    (hmeasure : ((s :: ss).map some).foldlM (measure s) {} = .ok t') :
    build pool ((s :: ss).map some) =
      if t'.maxBlocksPerSequence > sizeMax / (s :: ss).length then
        .error (.overflowError "batch block table size overflow")
      else .ok { t' with blockTable := (s :: ss).flatMap (row t'.maxBlocksPerSequence) } := by
  have hwidth := ((measure_ok hmeasure).2.2 _).mp le_rfl
  have hfilter : ((s :: ss).map some).filterMap (fun s => s) = s :: ss := by
    simp [List.filterMap_map]
  have hfill : fillRows pool t'.maxBlocksPerSequence 0 (s :: ss) ([] ++ List.replicate _ _) = _ :=
    fillRows_eq hr (Nat.zero_mul _).symm hwidth.2
  rw [List.nil_append, List.nil_append] at hfill
  show (((s :: ss).map some).foldlM (measure s) {} >>= _) = _
  rw [hmeasure]
  show ite _ _ _ = _
  rw [hfilter, List.length_map]
  split_ifs
  · rfl
  · show (fillRows _ _ _ _ _ >>= _) = _
    rw [hfill]
    rfl

/-- **The table of resident sequences.** -/
theorem build_ok (hr : ∀ s ∈ ss, s.Resident pool) (h : build pool (ss.map some) = .ok t) :
    Of ss t := by
  cases ss with
  | nil =>
    obtain rfl := Except.ok.inj h
    exact ⟨rfl, fun n => by simp, rfl⟩
  | cons s ss =>
    obtain ⟨t₁, hmeasure, -⟩ := returns_bind.mp h
    obtain ⟨-, hlengths, hwidth⟩ := measure_ok hmeasure
    rw [build_cons hr hmeasure] at h
    split_ifs at h
    obtain rfl := Except.ok.inj h
    exact ⟨hlengths, fun n => (hwidth n).trans (and_iff_right (Nat.zero_le n)), rfl⟩

/-- **A table is built** for sequences of one pool, unless its size is no machine word. -/
theorem build_returns (hr : ∀ s ∈ ss, s.Resident pool) {here : ℕ}
    (hpool : ∀ s ∈ ss, s.blockTable.pool = some here)
    (hsize : ∀ s ∈ ss, s.pages.length ≤ sizeMax / ss.length) :
    ∃ t, build pool (ss.map some) = .ok t := by
  cases ss with
  | nil => exact ⟨_, rfl⟩
  | cons s ss =>
    have hshare : ∀ s' ∈ s :: ss, s'.blockTable.sharesPoolWith s.blockTable := by
      intro s' hs'
      have hfirst := hpool s (List.mem_cons_self ..)
      exact ⟨by rw [hpool s' hs']; rfl, (hpool s' hs').trans hfirst.symm⟩
    obtain ⟨t₁, hmeasure⟩ := measure_returns (t := {}) hshare
    have hover : ¬ t₁.maxBlocksPerSequence > sizeMax / (s :: ss).length :=
      not_lt.mpr (((measure_ok hmeasure).2.2 _).mpr ⟨Nat.zero_le _, hsize⟩)
    exact ⟨_, (build_cons hr hmeasure).trans (if_neg hover)⟩

namespace Of

variable (ht : Of ss t) {r l : ℕ} {s : SequenceState}
include ht

theorem numSequences_eq : t.numSequences = ss.length := by
  rw [numSequences, ht.lengths, List.length_map]

theorem page_le (hs : s ∈ ss) : s.pages.length ≤ t.maxBlocksPerSequence := (ht.width _).mp le_rfl s hs

theorem table_length : t.blockTable.length = ss.length * t.maxBlocksPerSequence := by
  have hrow : ∀ n ∈ ss.map fun s => (row t.maxBlocksPerSequence s).length,
      n = t.maxBlocksPerSequence := by
    intro n hn
    obtain ⟨s', hs', rfl⟩ := List.mem_map.mp hn
    exact row_length (ht.page_le hs')
  rw [ht.rows, List.length_flatMap, List.sum_eq_card_nsmul _ _ hrow, List.length_map, smul_eq_mul]

/-- Entries that are no padding are pages. -/
theorem entry_lt (hr : ∀ s ∈ ss, s.Resident pool) {block : ℕ} (hblock : block ∈ t.blockTable)
    (hne : block ≠ invalidBlock) : block < pool.capacity := by
  rw [ht.rows] at hblock
  obtain ⟨s', hs', hmem⟩ := List.mem_flatMap.mp hblock
  rcases List.mem_append.mp hmem with hpage | hpad
  · obtain ⟨h, hh, rfl⟩ := List.mem_map.mp hpage
    exact (hr s' hs').id_lt h hh
  · exact absurd (List.eq_of_mem_replicate hpad) hne

theorem length_eq (hs : ss[r]? = some s) : t.sequenceLengths.getD r 0 = s.numTokens := by
  rw [ht.lengths, List.getD_eq_getElem?_getD, List.getElem?_map, hs]
  rfl

/-- An entry of the table. -/
theorem entry_eq (hs : ss[r]? = some s) (hl : l < t.maxBlocksPerSequence) :
    t.blockTable.getD (r * t.maxBlocksPerSequence + l) 0 =
      if l < s.pages.length then s.pages.getD l 0 else invalidBlock := by
  have hrow : ∀ ss' : List SequenceState, (∀ s' ∈ ss', s'.pages.length ≤ t.maxBlocksPerSequence) →
      ∀ r, ss'[r]? = some s → (ss'.flatMap (row t.maxBlocksPerSequence)).getD
        (r * t.maxBlocksPerSequence + l) 0 = (row t.maxBlocksPerSequence s).getD l 0 := by
    intro ss' hle
    induction ss' with
    | nil => exact fun r hr => (by cases hr)
    | cons s' ss' ih =>
      intro r hr
      obtain ⟨hs', hss'⟩ := List.forall_mem_cons.mp hle
      have hlength := row_length hs'
      rw [List.flatMap_cons]
      cases r with
      | zero =>
        obtain rfl := Option.some.inj hr
        rw [Nat.zero_mul, Nat.zero_add]
        exact List.getD_append _ _ _ _ (by omega)
      | succ r =>
        rw [List.getD_append_right _ _ _ _ (by rw [hlength]; nlinarith), hlength, ← ih hss' r hr]
        congr 1
        rw [Nat.succ_mul]
        omega
  rw [ht.rows, hrow ss (fun s' hs' => ht.page_le hs') r hs]
  unfold row
  split_ifs with h
  · exact List.getD_append _ _ _ _ h
  · rw [List.getD_append_right _ _ _ _ (by omega), List.getD_eq_getElem _ _ (by simp; omega)]
    exact List.getElem_replicate ..

/-- **An allocated block** is found in the row of its sequence. -/
theorem physicalId_row (hsize : pool.capacity ≤ sizeMax) (hs : ss[r]? = some s)
    (hr : s.Resident pool) (hl : l < s.numAllocatedBlocks) :
    t.physicalId r l = s.physicalBlockId pool l := by
  rw [← pages_length] at hl
  have hwidth := hl.trans_le (ht.page_le (List.mem_of_getElem? hs))
  have hrequest : r < ss.length := (List.getElem?_eq_some_iff.mp hs).1
  have hpage : s.pages.getD l 0 ≠ invalidBlock := by
    have := hr.page_mem_lt hl
    unfold invalidBlock
    omega
  have hrange : ¬ (r ≥ t.numSequences ∨ l ≥ t.maxBlocksPerSequence) := by
    rw [ht.numSequences_eq]
    omega
  rw [hr.physicalBlockId hl, physicalId, if_neg hrange, ht.entry_eq hs hwidth, if_pos hl]
  exact if_neg hpage

/-- **Everywhere else** the lookup throws. -/
theorem physicalId_padding (h : ∀ s, ss[r]? = some s → s.numAllocatedBlocks ≤ l) :
    ∃ text, t.physicalId r l = .error (.outOfRange text) := by
  unfold physicalId
  by_cases hrange : r ≥ t.numSequences ∨ l ≥ t.maxBlocksPerSequence
  · exact ⟨_, if_pos hrange⟩
  · rw [if_neg hrange]
    push Not at hrange
    rw [ht.numSequences_eq] at hrange
    have hs := List.getElem?_eq_getElem hrange.1
    have hle := h _ hs
    rw [← pages_length] at hle
    have hpad : t.blockTable.getD (r * t.maxBlocksPerSequence + l) 0 = invalidBlock := by
      rw [ht.entry_eq hs hrange.2, if_neg (not_lt.mpr hle)]
    simp only [hpad]
    exact ⟨_, rfl⟩

end Of

end BatchBlockTable

end KVFlux.V2
