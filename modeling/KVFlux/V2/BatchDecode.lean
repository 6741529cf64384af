import KVFlux.V2.AttentionKernel

/-!
# Decoding a batch

* `BatchDecode`: what a call on a batch has to do with calls on its sequences.
* **`batch_decode_exact`**: it holds of every batch of sequences of the pool that are not empty.
-/

namespace KVFlux.V2

open Fallible SizeArith Threads

variable {E F D : Type} {ops : Arithmetic E F D} {storage : PagedKVStorage}
  {pool : PhysicalBlockPool} {here : ℕ} {ss : List SequenceState}

/-- **A batch and its sequences**, for any interpretation of the arithmetic. -/
structure BatchDecode (ops : Arithmetic E F D) (storage : PagedKVStorage) (pool : PhysicalBlockPool)
    (ss : List SequenceState) : Prop where
  /-- a table is built unless its size is no machine word -/
  built : (∀ s ∈ ss, s.pages.length ≤ sizeMax / ss.length) →
    ∃ t, BatchBlockTable.build pool (ss.map some) = .ok t
  /-- the row of a sequence holds its pages -/
  entry : ∀ t, BatchBlockTable.build pool (ss.map some) = .ok t → ∀ r s, ss[r]? = some s →
    ∀ l < s.numAllocatedBlocks, ∃ id, s.physicalBlockId pool l = .ok id ∧ t.physicalId r l = .ok id
  /-- a lookup anywhere else throws -/
  padding : ∀ t, BatchBlockTable.build pool (ss.map some) = .ok t → ∀ r l,
    (∀ s, ss[r]? = some s → s.numAllocatedBlocks ≤ l) →
      ∃ text, t.physicalId r l = .error (.outOfRange text)
  /-- the kernel reads no padding -/
  inside : ∀ t, BatchBlockTable.build pool (ss.map some) = .ok t →
    t.blockTable.length * 8 ≤ sizeMax → ∀ query output queryHeads,
    ss.length * queryHeads * storage.layout.headSize * floatBytes ≤ sizeMax →
    ∀ (m : DeviceMemory E F), ∀ r < ss.length, ∀ head < queryHeads,
    ∀ dim < storage.layout.headSize, ∀ k, Address.word 0 k ∈
      (attentionBatchKernel ops storage query output t.maxBlocksPerSequence queryHeads
        (flatIndex queryHeads storage.layout.headSize r head dim)).loads
          (upload 1 t.sequenceLengths (upload 0 t.blockTable m)) →
      ∃ s l, ss[r]? = some s ∧ l < s.numAllocatedBlocks ∧ k = r * t.maxBlocksPerSequence + l
  /-- a call on the batch returns on a healthy device -/
  returns : ∀ (m : DeviceMemory E F) (cuda : Cuda) query output queryHeads, cuda.Healthy →
    0 < queryHeads → queryHeads % storage.layout.numKvHeads = 0 →
    ss.length * queryHeads * storage.layout.headSize * floatBytes ≤ sizeMax →
    (∀ s ∈ ss, ss.length * s.pages.length * 8 ≤ sizeMax) → ss.length * 8 ≤ sizeMax →
    AttentionBuffers storage query output
      (ss.length * queryHeads * storage.layout.headSize * floatBytes) →
    ∃ m', pagedAttentionBatch ops storage pool cuda (ss.map some) (some query) (some output)
      queryHeads m = .ok () m'
  /-- row `r` of the output is the output of a call on sequence `r` with row `r` of the query -/
  rows : ∀ (m m' m₁ : DeviceMemory E F) (cuda cuda₁ : Cuda) query output output₁ queryHeads,
    pagedAttentionBatch ops storage pool cuda (ss.map some) (some query) (some output) queryHeads m =
      .ok () m' → ∀ r s, ss[r]? = some s →
    pagedAttention ops storage pool cuda₁ s
      (some (query + r * (queryHeads * storage.layout.headSize) * floatBytes)) (some output₁) 1
      queryHeads m = .ok () m₁ → ∀ i < queryHeads * storage.layout.headSize,
        m' (.float (output + (r * (queryHeads * storage.layout.headSize) + i) * floatBytes)) =
          m₁ (.float (output₁ + i * floatBytes))

/-- Row `r` starts after `r` rows. -/
theorem flatIndex_row (heads headSize r head dim : ℕ) :
    flatIndex heads headSize r head dim =
      r * (heads * headSize) + flatIndex heads headSize 0 head dim := by
  unfold flatIndex
  ring

/-- A row of the query is a query of one row. -/
theorem queryRow_row (m : DeviceMemory E F) (query queryHeads headSize r head : ℕ) :
    queryRow m query queryHeads headSize r head =
      queryRow m (query + r * (queryHeads * headSize) * floatBytes) queryHeads headSize 0 head := by
  funext d
  unfold queryRow
  congr 2
  rw [flatIndex_row queryHeads headSize r head d]
  ring

theorem batchDecode_of_resident (hf : storage.Fits pool here) (hr : ∀ s ∈ ss, s.Resident pool)
    (hpool : ∀ s ∈ ss, s.blockTable.pool = some storage.pool) (hne : ∀ s ∈ ss, s.numTokens ≠ 0) :
    BatchDecode ops storage pool ss := by
  have hcapacity : pool.capacity ≤ sizeMax := by
    have hslots := hf.valid.slots_le
    rw [hf.valid.slots, hf.blocks] at hslots
    exact (Nat.le_mul_of_pos_right _ hf.valid.block_pos).trans hslots
  constructor
  · exact fun hsize => BatchBlockTable.build_returns hr hpool hsize
  · intro t ht r s hs l hl
    have hres := hr s (List.mem_of_getElem? hs)
    have hid := hres.physicalBlockId (hl.trans_eq (BatchBlockTable.pages_length s).symm)
    refine ⟨_, hid, ?_⟩
    rw [(BatchBlockTable.build_ok hr ht).physicalId_row hcapacity hs hres hl, hid]
  · exact fun t ht r l h => (BatchBlockTable.build_ok hr ht).physicalId_padding h
  · intro t ht htable query output queryHeads hsize m r hrow head hhead dim hdim k hk
    have hs := List.getElem?_eq_getElem hrow
    have hmem := List.mem_of_getElem? hs
    have hattends : Attends ops storage m _ query output queryHeads _ _ _ _ _ :=
      (BatchBlockTable.build_ok hr ht).attends hf hr hne ss[r] hsize htable
    rcases hattends.loads r hrow head hhead dim hdim _ hk with
      h | ⟨token, htoken, h | ⟨d, hd, h⟩ | ⟨_, _, -, h⟩⟩
    · cases h
    · obtain ⟨-, rfl⟩ := Address.word.inj h
      rw [List.getD_eq_getElem _ _ hrow] at htoken
      have hblock : storage.layout.blockSize = ss[r].blockSize :=
        hf.blockSize.trans (hr _ hmem).blockSize.symm
      refine ⟨ss[r], _, hs, ?_, rfl⟩
      rw [hblock, ← BatchBlockTable.pages_length]
      exact (hr _ hmem).page_lt (htoken.trans_lt (lastToken_lt (hne _ hmem)))
    · cases h
    · cases h
  · intro m cuda query output queryHeads hc hheads hdvd hsize hpages hlength hb
    exact pagedAttentionBatch_returns hf hr hpool hne hc hheads hdvd hsize hpages hlength hb
  · intro m m' m₁ cuda cuda₁ query output output₁ queryHeads hbatch r s hs hsingle i hi
    have hrow : r < ss.length := (List.getElem?_eq_some_iff.mp hs).1
    have hss : ss ≠ [] := List.ne_nil_of_mem (List.mem_of_getElem? hs)
    have hres := hr s (List.mem_of_getElem? hs)
    have hat : ss.getD r s = s := by rw [List.getD_eq_getElem?_getD, hs]; rfl
    have hone : i < 1 * queryHeads * storage.layout.headSize := by rwa [Nat.one_mul]
    obtain ⟨row, hrow₀, head, hhead, dim, hdim, rfl⟩ := exists_flatIndex hone
    obtain rfl : row = 0 := by omega
    have h := (pagedAttentionBatch_ok hf hr hss s hbatch).result r hrow head hhead dim hdim
    have h₁ := (pagedAttention_ok hf hres one_ne_zero hsingle).result 0 Nat.one_pos head hhead dim hdim
    rw [← flatIndex_row, h, h₁, hat, lastVisible_one, queryRow_row]

/-- **Main result.** Decoding a batch of sequences of the pool that are not empty, of any lengths, is
decoding each of them, operation by operation. -/
theorem batch_decode_exact {H : Tokens → UInt64} {f : Family} {numKvHeads headSize : ℕ}
    {dtype : DType} {device : ℤ} {allocation : GpuMemoryPool.Allocation} (ops : Arithmetic E F D)
    (hreachable : Transition.Reachable (Family.step here) (Family.Start H) (Family.Allowed H) f)
    (hstorage : PagedKVStorage.make here f.pool numKvHeads headSize dtype device allocation =
      .ok storage)
    (hss : ∀ s ∈ ss, s ∈ f.sequences ∧ s.blockTable.pool = some here ∧ s.numTokens ≠ 0) :
    BatchDecode ops storage f.pool ss := by
  have hintact := Family.intact_of_reachable hreachable
  have hf := PagedKVStorage.make_ok hstorage
  apply batchDecode_of_resident hf
  · exact fun s hs => hintact.resident (hss s hs).1
  · intro s hs
    rw [(hss s hs).2.1, hf.here]
  · exact fun s hs => (hss s hs).2.2

/-- Sequences of three tokens and of one, on pages of two tokens. -/
theorem batch_decode_exact_two : ∃ (f : Family) (storage : PagedKVStorage),
    BatchBlockTable.build f.pool (f.sequences.map some) = .ok ⟨2, [0, 1, 2, sizeMax], [3, 1]⟩ ∧
      ∀ ops : Arithmetic ℕ ℕ ℕ, BatchDecode ops storage f.pool f.sequences := by
  have hcheck : (Transition.run (Family.step 7) [.create 1, .create 2,
        .appendTokens 0 3 fun _ => none, .appendTokens 1 1 fun _ => none]
      (⟨BlockManager.init 3 2, [], 0⟩ : Family)).any (fun f => decide (
        BatchBlockTable.build f.pool (f.sequences.map some) = .ok ⟨2, [0, 1, 2, sizeMax], [3, 1]⟩ ∧
        (∀ s ∈ f.sequences, s.blockTable.pool = some 7 ∧ s.numTokens ≠ 0) ∧
        f.pool.capacity = 3 ∧ f.pool.blockSize = 2)) = true := by
    decide +kernel
  obtain ⟨f, hrun, hf⟩ := (Option.any_eq_true _ _).mp hcheck
  obtain ⟨htable, hall, hcapacity, hsize⟩ := of_decide_eq_true hf
  have hreachable := (Family.reachable_init (by decide) (by decide)).run
    (fun a ha s => by fin_cases ha <;> exact trivial) hrun
  obtain ⟨storage, hmake⟩ : ∃ storage, PagedKVStorage.make 7 (BlockManager.init 3 2) 1 1 .Float32 0
      ⟨.ok 1, none, .ok 4096⟩ = .ok storage := ⟨_, rfl⟩
  have hstorage : PagedKVStorage.make 7 f.pool 1 1 .Float32 0 ⟨.ok 1, none, .ok 4096⟩ =
      .ok storage :=
    (PagedKVStorage.make_congr hcapacity hsize ..).trans hmake
  exact ⟨f, storage, htable, fun ops =>
    batch_decode_exact ops hreachable hstorage fun s hs => ⟨hs, hall s hs⟩⟩

end KVFlux.V2
