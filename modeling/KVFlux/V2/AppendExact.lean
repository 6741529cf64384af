import KVFlux.BlockManager.Capacity
import KVFlux.V2.Family

/-!
# What an append throws

* `appendFault`: the exception of `append_tokens`, from the state before the call.
* `appendRounds_add`: the rounds of two appends are the rounds of one.
* **`appendTokens_thrown`**: `append_tokens` throws exactly that.
* **`append_exact`**: in every reachable family a table covers its tokens, an append throws what
  `appendFault` says and then changes no reference, or it appends the missing pages; two appends
  are one.
* **`append_exhausted`**: an append whose counts are in range throws `overflow_error` when the next
  page has used up its generations.
-/

namespace KVFlux.V2

open Fallible BlockManager

variable {H : Tokens → UInt64} {m m' : PhysicalBlockPool} {held rest : Multiset BlockHandle}
  {s s' : SequenceState} {t t' : BlockTable} {grow : ℕ → Option Exn} {n k count : ℕ} {err : Exn}
  {α : Type}

/-- What a call throws. -/
def thrown {σ : Type} : EStateM.Result Exn σ α → Option Exn
  | .ok _ _ => none
  | .error err _ => some err

theorem available_eq (hg : Good H m) : m.available = m.reclaimOrder.length := by
  obtain ⟨free, idle, hi⟩ := hg
  rw [hi.reclaimOrder_eq, List.length_append, PhysicalBlockPool.available, hi.stats_free,
    hi.stats_cachedIdle]

/-- A call after which the owners are the same has changed no count. -/
theorem Sound.unchanged (hs : Sound H m held) (hs' : Sound H m' held) (hshrink : Shrinks m m') :
    (∀ page, (m'.slots page).refs = (m.slots page).refs) ∧ m'.available = m.available := by
  have hrefs : ∀ page, (m'.slots page).refs = (m.slots page).refs := fun page =>
    (hs'.owned.refs_eq page).trans (hs.owned.refs_eq page).symm
  exact ⟨hrefs, spare_congr hs.good hs'.good hshrink.capacity hrefs⟩

/-- What the `j + 1`-st allocation from here throws. -/
def allocateFault (pool : PhysicalBlockPool) (j : ℕ) : Option Exn :=
  match pool.reclaimOrder[j]? with
  | none => some .capacityError
  | some id =>
    if (pool.slots id).generation = u64Max then some (.overflowError "block generation exhausted")
    else none

/-- What round `j` of an append to a table of `n` entries throws. -/
def roundFault (pool : PhysicalBlockPool) (grow : ℕ → Option Exn) (n j : ℕ) : Option Exn :=
  (allocateFault pool j).or (grow (n + j))

/-- The first exception of the rounds below `k`. -/
def roundsFault (pool : PhysicalBlockPool) (grow : ℕ → Option Exn) (n k : ℕ) : Option Exn :=
  (List.range k).findSome? (roundFault pool grow n)

/-- The tail page is partial and has more than one reference. -/
def tailShared (pool : PhysicalBlockPool) (s : SequenceState) : Bool :=
  decide (s.numTokens % s.blockSize ≠ 0) &&
    s.blockTable.blocks.getLast?.any fun h => decide (1 < (pool.slots h.id).refs)

/-- The blocks that `count` more tokens need. -/
def missingBlocks (s : SequenceState) (count : ℕ) : ℕ :=
  (s.numTokens + count) ⌈/⌉ s.blockSize - s.numTokens ⌈/⌉ s.blockSize

/-- What `append_tokens(count)` throws, for `count > 0`. -/
def appendFault (pool : PhysicalBlockPool) (s : SequenceState) (grow : ℕ → Option Exn)
    (count : ℕ) : Option Exn :=
  if s.numTokens + count > sizeMax then some (.overflowError "sequence token count overflow")
  else if tailShared pool s then some (.logicError "shared partial block requires copy-on-write")
  else roundsFault pool grow s.blockTable.size (missingBlocks s count)

/-! ## Rounds -/

theorem allocate_thrown (hg : Good H m) :
    thrown (PhysicalBlockPool.allocate m) = allocateFault m 0 := by
  obtain ⟨free, idle, hi⟩ := hg
  unfold allocateFault PhysicalBlockPool.allocate
  rw [hi.reclaimOrder_eq]
  rcases allocate_cases hi.shape with ⟨rfl, rfl, hc⟩ | ⟨id, hhead, hmax, hc⟩ |
    ⟨id, fs, rfl, hne, hc⟩ | ⟨id, is, rfl, rfl, hne, hc⟩
  · rw [hc]
    rfl
  · rw [← List.head?_eq_getElem?, hhead, hc]
    simp only [if_pos hmax, thrown]
  · rw [hc]
    simp [hne, thrown]
  · rw [hc]
    simp [hne, thrown]

theorem appendNew_thrown (hs : Sound H m (t.blocks + rest)) (hp : t.pool.isSome = true)
    (g : Option Exn) : thrown (BlockTable.appendNew g (m, t)) = (allocateFault m 0).or g := by
  rw [← allocate_thrown hs.good]
  rcases hs.allocate with ⟨h, m', ha, hs', -⟩ | ⟨err, ha⟩
  · rw [ha]
    cases g with
    | none =>
      simp only [BlockTable.appendNew, bind_apply, get_apply, ensure, if_pos hp, onFst_apply, ha,
        onError, BlockTable.push, pure_apply, thrown, Option.or]
    | some err =>
      obtain ⟨hf, -⟩ := hs'.free (Multiset.mem_cons_self h _)
      simp only [BlockTable.appendNew, bind_apply, get_apply, ensure, if_pos hp, onFst_apply, ha,
        onError, BlockTable.push, hf, thrown, Option.or]
  · rw [ha]
    simp only [BlockTable.appendNew, bind_apply, get_apply, ensure, if_pos hp, onFst_apply, ha,
      thrown, Option.or]

/-- After an allocation the next rounds are those from the second page on. -/
theorem allocateFault_next {h : BlockHandle} (hg : Good H m) (ha : Allocated m m' [h]) (j : ℕ) :
    allocateFault m' j = allocateFault m (j + 1) := by
  have horder : m.reclaimOrder = h.id :: m'.reclaimOrder := ha.order
  have hnd := hg.reclaimOrder_nodup
  rw [horder, List.nodup_cons] at hnd
  unfold allocateFault
  rw [horder, List.getElem?_cons_succ]
  cases hj : m'.reclaimOrder[j]? with
  | none => rfl
  | some i =>
    have hne : i ∉ [h].map BlockHandle.id := by
      intro hi
      rw [List.map_singleton, List.mem_singleton] at hi
      exact hnd.1 (hi ▸ List.mem_of_getElem? hj)
    simp only [ha.frame i hne]

/-- **The rounds throw at the first fault.** By induction on the rounds. -/
theorem appendRounds_thrown (k : ℕ) : ∀ {m : PhysicalBlockPool} {t : BlockTable},
    Sound H m (t.blocks + rest) → t.pool.isSome = true →
    thrown (SequenceState.appendRounds grow k (m, t)) = roundsFault m grow t.size k := by
  induction k with
  | zero => exact fun _ _ => rfl
  | succ k ih =>
    intro m t hs hp
    have hstep : SequenceState.appendRounds grow (k + 1) (m, t) =
        (BlockTable.appendNew (grow t.size) >>= fun _ => SequenceState.appendRounds grow k)
          (m, t) := rfl
    have hfirst := appendNew_thrown hs hp (grow t.size)
    have hrounds : roundsFault m grow t.size (k + 1) = (roundFault m grow t.size 0).or
        ((List.range k).findSome? fun j => roundFault m grow t.size (j + 1)) := by
      rw [roundsFault, List.range_succ_eq_map, List.findSome?_cons, List.findSome?_map]
      cases roundFault m grow t.size 0 <;> rfl
    rw [hstep, hrounds, roundFault, Nat.add_zero, ← hfirst]
    rcases BlockTable.appendNew_cases hs (grow t.size) with ⟨h, m₁, hc, hs₁, ha⟩ | ⟨err, m₁, hc, -⟩
    · rw [bind_of_ok hc, hc, @ih m₁ { t with blocks := t.blocks ++ [h] } hs₁ hp]
      simp only [thrown, Option.none_or]
      refine congrArg (fun f => (List.range k).findSome? f) (funext fun j => ?_)
      rw [roundFault, roundFault, allocateFault_next hs.good ha, BlockTable.size, BlockTable.size,
        List.length_append, List.length_singleton, Nat.add_assoc, Nat.add_comm 1 j]
    · rw [bind_of_error hc, hc]
      rfl

/-- **Two rounds of appends are one.** -/
theorem appendRounds_add (k n : ℕ) (st : PhysicalBlockPool × BlockTable) :
    SequenceState.appendRounds grow (k + n) st =
      (SequenceState.appendRounds grow k >>= fun _ => SequenceState.appendRounds grow n) st := by
  induction k generalizing st with
  | zero =>
    rw [Nat.zero_add]
    rfl
  | succ k ih =>
    have hstep : ∀ k, SequenceState.appendRounds grow (k + 1) st =
        (BlockTable.appendNew (grow st.2.size) >>= fun _ => SequenceState.appendRounds grow k) st :=
      fun _ => rfl
    rw [Nat.succ_add, hstep, bind_apply, bind_apply, hstep, bind_apply]
    cases BlockTable.appendNew (grow st.2.size) st with
    | ok id st' => exact ih st'
    | error err st' => rfl

/-! ## The call -/

theorem neededBlocks_eq (hb : 0 < s.blockSize) (n : ℕ) : s.neededBlocks n = n ⌈/⌉ s.blockSize := by
  rw [Nat.ceilDiv_eq_add_pred_div, SequenceState.neededBlocks]
  have h₁ := Nat.div_add_mod n s.blockSize
  have h₂ := Nat.mod_lt n hb
  split_ifs with h
  · symm
    rw [Nat.div_eq_iff hb, Nat.add_mul, Nat.one_mul, Nat.mul_comm]
    omega
  · symm
    rw [Nat.div_eq_iff hb, Nat.add_zero, Nat.mul_comm]
    omega

theorem sharedTail_eq (hs : Sound H m (s.blockTable.blocks + rest)) (hc : s.Covered) :
    s.sharedTail m = .ok (tailShared m s) := by
  unfold SequenceState.sharedTail tailShared
  by_cases hn : s.numTokens % s.blockSize = 0
  · simp [hn]
  · obtain ⟨blocks, old, hb⟩ := hc.concat hn
    rw [(SequenceState.refCount_last hs hb).1, hb, List.getLast?_concat]
    simp [hn, Except.map]

theorem size_eq (hc : s.Covered) (hb : 0 < s.blockSize) :
    s.blockTable.size = s.numTokens ⌈/⌉ s.blockSize := by
  rw [hc, neededBlocks_eq hb]

theorem missingBlocks_eq (hc : s.Covered) (hb : 0 < s.blockSize) (count : ℕ) :
    s.neededBlocks (s.numTokens + count) - s.blockTable.size = missingBlocks s count := by
  rw [missingBlocks, size_eq hc hb, neededBlocks_eq hb]

/-- The call as its checks and its rounds. -/
theorem appendTokens_eq (hs : Sound H m (s.blockTable.blocks + rest)) (hc : s.Covered)
    (hb : 0 < s.blockSize) (h0 : count ≠ 0) : SequenceState.appendTokens grow count (m, s) =
      (if s.numTokens + count > sizeMax then throw (.overflowError "sequence token count overflow")
      else if tailShared m s then throw (.logicError "shared partial block requires copy-on-write")
      else do
        SequenceState.onTable (onError (SequenceState.appendRounds grow (missingBlocks s count))
          (BlockTable.shrinkTo s.blockTable.size))
        modify fun (pool, s') => (pool, { s' with numTokens := s.numTokens + count }) :
      SequenceCall Unit) (m, s) := by
  have hmax : count > sizeMax - s.numTokens ↔ s.numTokens + count > sizeMax := by omega
  simp only [SequenceState.appendTokens, bind_apply, get_apply, if_neg h0, sharedTail_eq hs hc,
    check_ok, ensure, missingBlocks_eq hc hb, hmax]
  by_cases h₁ : s.numTokens + count > sizeMax
  · simp only [h₁, not_true, if_false, if_true, throw_apply]
  · simp only [h₁, not_false_eq_true, if_true, if_false]
    cases tailShared m s with
    | true => rfl
    | false => rfl

/-- **What `append_tokens` throws.** -/
theorem appendTokens_thrown (hs : Sound H m (s.blockTable.blocks + rest)) (hc : s.Covered)
    (hb : 0 < s.blockSize) (hp : s.blockTable.pool.isSome = true) (h0 : count ≠ 0) :
    thrown (SequenceState.appendTokens grow count (m, s)) = appendFault m s grow count := by
  rw [appendTokens_eq hs hc hb h0, appendFault]
  split_ifs with h₁ h₂
  · rfl
  · rfl
  · rw [← appendRounds_thrown _ hs hp]
    rcases SequenceState.appendRounds_cases grow (missingBlocks s count) hs with
      ⟨new, m', hr, -⟩ | ⟨err, new, m₁, hr, hs₁, -⟩
    · rw [bind_of_ok (SequenceState.onTable_ok (onError_ok.mpr hr)), hr]
      rfl
    · obtain ⟨m', hc', -⟩ := BlockTable.shrinkTo_ok hs₁
        (t := { s.blockTable with blocks := s.blockTable.blocks ++ new }) rfl
        (rfl : s.blockTable.size = s.blockTable.blocks.length)
      rw [bind_of_error (SequenceState.onTable_error (onError_clean hr hc')), hr]
      rfl

/-- A call that returns passed the checks and did its rounds. -/
theorem appendTokens_ok_iff (hs : Sound H m (s.blockTable.blocks + rest)) (hc : s.Covered)
    (hb : 0 < s.blockSize) (h0 : count ≠ 0) {st : PhysicalBlockPool × SequenceState} :
    SequenceState.appendTokens grow count (m, s) = .ok () st ↔
      s.numTokens + count ≤ sizeMax ∧ tailShared m s = false ∧
      ∃ m' t, SequenceState.appendRounds grow (missingBlocks s count) (m, s.blockTable) =
        .ok () (m', t) ∧ st = (m', { s with numTokens := s.numTokens + count, blockTable := t }) := by
  rw [appendTokens_eq hs hc hb h0]
  constructor
  · intro h
    split_ifs at h with h₁ h₂
    · cases h
    · cases h
    · refine ⟨by omega, by simpa using h₂, ?_⟩
      obtain ⟨u, st₁, h₃, h₄⟩ := bind_ok h
      cases hr : SequenceState.appendRounds grow (missingBlocks s count) (m, s.blockTable) with
      | ok v st₂ =>
        rw [SequenceState.onTable_ok (onError_ok.mpr hr)] at h₃
        cases h₃
        cases h₄
        exact ⟨st₂.1, st₂.2, rfl, rfl⟩
      | error err st₂ =>
        obtain ⟨err', st₃, h₅⟩ := onError_error (c := BlockTable.shrinkTo s.blockTable.size) hr
        rw [SequenceState.onTable_error h₅] at h₃
        cases h₃
  · rintro ⟨h₁, h₂, m', t, hr, rfl⟩
    rw [if_neg (by omega), if_neg (by simp [h₂]),
      bind_of_ok (SequenceState.onTable_ok (onError_ok.mpr hr))]
    rfl

/-! ## One append after another -/

/-- After an append the tail page is full or private. -/
theorem tailShared_grown {new : List BlockHandle} (hc : s.Covered) (hb : 0 < s.blockSize)
    (h0 : count ≠ 0) (ha : Allocated m m' new) (hn : new.length = missingBlocks s count)
    (hs : tailShared m s = false) : tailShared m' (s.grown new count) = false := by
  rcases List.eq_nil_or_concat new with rfl | ⟨new', h, rfl⟩
  · -- no new page: the old tail page was partial and private
    have hpartial : s.numTokens % s.blockSize ≠ 0 := by
      intro hmod
      have hlt := SequenceState.lt_neededBlocks (s := s) (t := s.numTokens)
        (n := s.numTokens + count) hb (by omega)
      have hold : s.blockTable.size = s.numTokens / s.blockSize := by
        rw [hc, SequenceState.neededBlocks]
        simp [hmod]
      have hnew := missingBlocks_eq hc hb count
      rw [← hn, List.length_nil] at hnew
      omega
    have hslots : ∀ i, m'.slots i = m.slots i := fun i => ha.frame i List.not_mem_nil
    simp only [tailShared, hpartial, ne_eq, not_false_eq_true, decide_true, Bool.true_and] at hs
    simp only [tailShared, SequenceState.grown, List.append_nil, hslots, hs, Bool.and_false]
  · rw [List.concat_eq_append] at ha ⊢
    have hrefs := (ha.fresh h (by simp)).2
    simp only [tailShared, SequenceState.grown, ← List.append_assoc, List.getLast?_concat,
      Option.any_some, hrefs, lt_irrefl, decide_false, Bool.and_false]

theorem missingBlocks_add (k n : ℕ) (new : List BlockHandle) (hb : 0 < s.blockSize) :
    missingBlocks s (k + n) = missingBlocks s k + missingBlocks (s.grown new k) n := by
  have h₁ := SequenceState.neededBlocks_mono (s := s) (Nat.le_add_right s.numTokens k)
  have h₂ := SequenceState.neededBlocks_mono (s := s) (Nat.le_add_right (s.numTokens + k) n)
  rw [neededBlocks_eq hb, neededBlocks_eq hb] at h₁ h₂
  simp only [missingBlocks, SequenceState.grown, ← Nat.add_assoc]
  omega

theorem appendTokens_zero (st : PhysicalBlockPool × SequenceState) :
    SequenceState.appendTokens grow 0 st = .ok () st := rfl

/-- **Two appends are one.** -/
theorem appendTokens_add (hs : Sound H m (s.blockTable.blocks + rest)) (hc : s.Covered)
    (hb : 0 < s.blockSize) (k n : ℕ) (st : PhysicalBlockPool × SequenceState) :
    (SequenceState.appendTokens grow k >>= fun _ => SequenceState.appendTokens grow n) (m, s) =
      .ok () st ↔ SequenceState.appendTokens grow (k + n) (m, s) = .ok () st := by
  by_cases hk : k = 0
  · subst hk
    rw [bind_of_ok (appendTokens_zero _), Nat.zero_add]
  by_cases hn : n = 0
  · subst hn
    rw [Nat.add_zero, bind_apply]
    cases SequenceState.appendTokens grow k (m, s) with
    | ok u st' => exact Iff.rfl
    | error err st' => exact Iff.rfl
  have hkn : k + n ≠ 0 := by omega
  rw [appendTokens_ok_iff hs hc hb hkn]
  rcases SequenceState.appendTokens_cases hs grow k with ⟨new, m₁, h₁, hs₁, ha, -, hlen⟩ |
    ⟨err, m₁, h₁, -⟩
  · -- the first append returns: the second goes on from its state
    have hlen' : new.length = missingBlocks s k := by
      rw [(hlen hk).2, missingBlocks_eq hc hb]
    have hc₁ : (s.grown new k).Covered := hc.grown (hlen hk).2
    obtain ⟨hmax, htail, m₂, t, hrun, hst⟩ := (appendTokens_ok_iff hs hc hb hk).mp h₁
    have ht : t = (s.grown new k).blockTable := congrArg (fun st => st.2.blockTable) hst.symm
    obtain rfl : m₁ = m₂ := congrArg Prod.fst hst
    have htail₁ := tailShared_grown hc hb hk ha hlen' htail
    have hiff := @appendTokens_ok_iff H m₁ rest _ grow n hs₁ hc₁ hb hn st
    rw [bind_of_ok h₁, hiff, missingBlocks_add k n new hb]
    simp only [appendRounds_add, bind_of_ok hrun, htail, htail₁, ht]
    have hnum : (s.grown new k).numTokens + n = s.numTokens + (k + n) := Nat.add_assoc _ _ _
    rw [hnum]
    exact Iff.rfl
  · -- the first append throws, and so does the long one
    rw [bind_of_error h₁]
    refine iff_of_false nofun ?_
    rintro ⟨hmax, htail, m₂, t, hrun, -⟩
    rw [missingBlocks_add k n [] hb, appendRounds_add] at hrun
    obtain ⟨u, st₁, hrun₁, -⟩ := bind_ok hrun
    have hok : SequenceState.appendTokens grow k (m, s) = .ok () (st₁.1, { s with
        numTokens := s.numTokens + k, blockTable := st₁.2 }) :=
      (appendTokens_ok_iff hs hc hb hk).mpr ⟨by omega, htail, st₁.1, st₁.2, hrun₁, rfl⟩
    rw [h₁] at hok
    cases hok

/-! ## Reachable families -/

/-- Without growth faults the rounds stop at a page without generations, or at the end of the
pages. -/
theorem roundsFault_eq (pool : PhysicalBlockPool) (n k : ℕ) :
    roundsFault pool (fun _ => none) n k =
      if ∃ id ∈ pool.reclaimOrder.take k, (pool.slots id).generation = u64Max then
        some (.overflowError "block generation exhausted")
      else if pool.reclaimOrder.length < k then some .capacityError else none := by
  induction k with
  | zero => simp [roundsFault]
  | succ k ih =>
    have hstep : roundsFault pool (fun _ => none) n (k + 1) =
        (roundsFault pool (fun _ => none) n k).or (allocateFault pool k) := by
      simp [roundsFault, List.range_succ, List.findSome?_append, roundFault]
    rw [hstep, ih, allocateFault]
    cases hk : pool.reclaimOrder[k]? with
    | none =>
      have hlen := List.getElem?_eq_none_iff.mp hk
      rw [List.take_of_length_le hlen, List.take_of_length_le (by omega),
        if_pos (show pool.reclaimOrder.length < k + 1 by omega)]
      split_ifs <;> rfl
    | some id =>
      have hlen := (List.getElem?_eq_some_iff.mp hk).1
      have htake : pool.reclaimOrder.take (k + 1) = pool.reclaimOrder.take k ++ [id] := by
        rw [List.take_add_one, hk]
        rfl
      rw [htake, if_neg (show ¬ pool.reclaimOrder.length < k by omega),
        if_neg (show ¬ pool.reclaimOrder.length < k + 1 by omega)]
      simp only [List.mem_append, List.mem_singleton, or_and_right, exists_or, exists_eq_left]
      by_cases h₁ : ∃ id ∈ pool.reclaimOrder.take k, (pool.slots id).generation = u64Max
      · simp [h₁]
      · by_cases h₂ : (pool.slots id).generation = u64Max
        · simp [h₁, h₂]
        · simp [h₁, h₂]

/-- What an append does to the pool `m` and the sequence `s`. -/
structure AppendExact (m : PhysicalBlockPool) (s : SequenceState) (grow : ℕ → Option Exn)
    (count : ℕ) : Prop where
  /-- It throws for the first of its reasons. -/
  thrown_eq : thrown (SequenceState.appendTokens grow count (m, s)) = appendFault m s grow count
  /-- A throw changes nothing that anybody holds. -/
  error : ∀ err st, SequenceState.appendTokens grow count (m, s) = .error err st →
    st.2 = s ∧ (∀ page, (st.1.slots page).refs = (m.slots page).refs) ∧
      st.1.available = m.available
  /-- Otherwise the missing pages are fresh and private, and all other pages are as before. -/
  ok : ∀ st, SequenceState.appendTokens grow count (m, s) = .ok () st → ∃ new,
    st.2 = s.grown new count ∧ new.length = missingBlocks s count ∧
      (new.map BlockHandle.id).Nodup ∧
      (∀ h ∈ new, (m.slots h.id).refs = 0 ∧ (st.1.slots h.id).refs = 1 ∧
        (st.1.slots h.id).cached = false ∧ st.1.Valid h) ∧
      ∀ page, page ∉ new.map BlockHandle.id → st.1.slots page = m.slots page

theorem appendExact (hs : Sound H m (s.blockTable.blocks + rest)) (hc : s.Covered)
    (hb : 0 < s.blockSize) (hp : s.blockTable.pool.isSome = true) (grow : ℕ → Option Exn)
    (h0 : count ≠ 0) : AppendExact m s grow count := by
  refine ⟨appendTokens_thrown hs hc hb hp h0, fun err st h => ?_, fun st h => ?_⟩
  · rcases SequenceState.appendTokens_cases hs grow count with ⟨new, m', h', -⟩ |
      ⟨err', m', h', hs', hshrink⟩
    · rw [h'] at h
      cases h
    · rw [h'] at h
      cases h
      exact ⟨rfl, hs.unchanged hs' hshrink⟩
  · rcases SequenceState.appendTokens_cases hs grow count with ⟨new, m', h', hs', ha, -, hn⟩ |
      ⟨err', m', h', -⟩
    swap
    · rw [h'] at h
      cases h
    rw [h'] at h
    cases h
    have hnd := hs.good.reclaimOrder_nodup
    rw [ha.order] at hnd
    refine ⟨new, rfl, ?_, (List.nodup_append.mp hnd).1, fun h hh => ?_, ha.frame⟩
    · rw [(hn h0).2, missingBlocks_eq hc hb]
    · have hfree := hs.good.mem_reclaimOrder.mp
        (ha.order ▸ List.mem_append_left _ (List.mem_map_of_mem hh))
      have hmem : h ∈ ((s.blockTable.blocks ++ new : List BlockHandle) : Multiset BlockHandle) +
          rest := Multiset.mem_add.mpr (.inl (List.mem_append_right _ hh))
      exact ⟨hfree.2, (ha.fresh h hh).2, (ha.fresh h hh).1, hs'.owned.valid h hmem⟩

open Family in
/-- **Main result.** In every reachable family a sequence that was not moved from maps its tokens,
an append throws for the first of its reasons and then has changed nothing, or it appends exactly
the missing pages, and one append after another is one append. -/
theorem append_exact {here : ℕ} {f : Family} {i : ℕ}
    (hr : Transition.Reachable (step here) (Start H) (Allowed H) f)
    (hi : f.sequences[i]? = some s) (hp : s.blockTable.pool ≠ none) :
    s.blockTable.size = s.numTokens ⌈/⌉ s.blockSize ∧
    (∀ h ∈ s.blockTable.blocks, f.pool.Valid h ∧ (f.pool.slots h.id).refs ≠ 0) ∧
    (∀ grow count, count ≠ 0 → AppendExact f.pool s grow count) ∧
    (∀ n k, roundsFault f.pool (fun _ => none) n k =
      if ∃ id ∈ f.pool.reclaimOrder.take k, (f.pool.slots id).generation = u64Max then
        some (.overflowError "block generation exhausted")
      else if f.pool.available < k then some .capacityError else none) ∧
    ∀ grow k n st, (SequenceState.appendTokens grow k >>= fun _ =>
        SequenceState.appendTokens grow n) (f.pool, s) = .ok () st ↔
      SequenceState.appendTokens grow (k + n) (f.pool, s) = .ok () st := by
  have hf := intact_of_reachable hr
  have hs := hf.view hi
  have hc := (hf.at_ hi).covered
  have hb : 0 < s.blockSize := (hf.at_ hi).blockSize ▸ hf.blockSize_pos
  refine ⟨size_eq hc hb, fun h hh => ?_, fun grow count h0 => ?_, fun n k => ?_,
    fun grow k n st => appendTokens_add hs hc hb k n st⟩
  · have hmem : h ∈ (s.blockTable.blocks : Multiset BlockHandle) + f.beside 0 i :=
      Multiset.mem_add.mpr (.inl hh)
    exact ⟨hs.owned.valid h hmem, hs.owned.refs_pos hmem⟩
  · exact appendExact hs hc hb (Option.isSome_iff_ne_none.mpr hp) grow h0
  · rw [available_eq hs.good]
    exact roundsFault_eq f.pool n k

/-- Three tokens on two pages of two: two more do not fit. -/
theorem append_exact_full : ∃ f : Family, ∃ s,
    Transition.run (Family.step 0) [.create 1, .appendTokens 0 3 fun _ => none]
      ⟨BlockManager.init 2 2, [], 0⟩ = some f ∧ f.sequences = [s] ∧
      thrown (SequenceState.appendTokens (fun _ => none) 2 (f.pool, s)) = some .capacityError := by
  have hstart : Family.Start (fun _ => 0) ⟨BlockManager.init 2 2, [], 0⟩ :=
    ⟨⟨2, 2, fun _ => .ok 0, fun _ _ h => (Except.ok.inj h).symm, rfl⟩, rfl, rfl⟩
  have hcheck : (Transition.run (Family.step 0) [.create 1, .appendTokens 0 3 fun _ => none]
      ⟨BlockManager.init 2 2, [], 0⟩).any (fun f => f.sequences.length = 1 ∧
        ∀ s ∈ f.sequences, s.blockTable.pool ≠ none ∧
          appendFault f.pool s (fun _ => none) 2 = some .capacityError) = true := by decide +kernel
  obtain ⟨f, hrun, hf⟩ := (Option.any_eq_true _ _).mp hcheck
  obtain ⟨hlen, hall⟩ := of_decide_eq_true hf
  have hnew : Transition.Reachable (Family.step 0) (Family.Start fun _ => 0)
      (Family.Allowed fun _ => 0) ⟨BlockManager.init 2 2, [], 0⟩ := .start hstart
  have hreach := hnew.run (fun a ha s => by fin_cases ha <;> exact trivial) hrun
  obtain ⟨s, hs⟩ := List.length_eq_one_iff.mp hlen
  obtain ⟨hp, hfault⟩ := hall s (by rw [hs]; exact List.mem_singleton_self s)
  have hi : f.sequences[0]? = some s := by rw [hs]; rfl
  refine ⟨f, s, hrun, hs, ?_⟩
  rw [((append_exact hreach hi hp).2.2.1 (fun _ => none) 2 two_ne_zero).thrown_eq, hfault]

/-! ## Exhausted generations -/

/-- The pool of one page after `n` lifetimes of it. -/
def worn (n : ℕ) : PhysicalBlockPool := (BlockManager.init 1 1).setSlot 0 { generation := n }

theorem worn_zero : worn 0 = BlockManager.init 1 1 := by
  have : (BlockManager.init 1 1).slots 0 = { generation := 0 } := rfl
  rw [worn, BlockManager.setSlot, ← this, Function.update_eq_self]

/-- One more lifetime. -/
theorem worn_succ {n : ℕ} (hn : n ≠ u64Max) :
    PhysicalBlockPool.allocate (worn n) = .ok ⟨0, n + 1⟩ ((worn n).takeFree 0) ∧
    PhysicalBlockPool.free ⟨0, n + 1⟩ ((worn n).takeFree 0) = .ok () (worn (n + 1)) := by
  have hslot : (worn n).slots 0 = { generation := n } := by simp [worn]
  have hhead : (worn n).freeHead = some 0 := rfl
  have htaken : ((worn n).takeFree 0).slots 0 =
      { generation := n + 1, free := false, refs := 1 } := by simp [takeFree_slots, hslot]
  have hvalid : ((worn n).takeFree 0).Valid ⟨0, n + 1⟩ := by
    refine ⟨Nat.zero_lt_one, ?_, ?_⟩ <;> rw [htaken]
  refine ⟨?_, ?_⟩
  · simp [PhysicalBlockPool.allocate, BlockManager.allocate, hhead, hslot, hn, takeFree, setSlot]
  · rw [PhysicalBlockPool.free, release_of_valid hvalid (by rw [htaken]; exact one_ne_zero)]
    congr 1
    simp [released, worn, takeFree, setSlot, BlockManager.init, Function.update_idem]

/-- Every number of lifetimes up to the last generation is reached. -/
theorem worn_reachable (n : ℕ) (hn : n ≤ u64Max) :
    Transition.Reachable (Family.step 0) (Family.Start fun _ => 0) (Family.Allowed fun _ => 0)
      ⟨worn n, [], 0⟩ := by
  induction n with
  | zero =>
    rw [worn_zero]
    exact .start ⟨⟨1, 1, fun _ => .ok 0, fun _ _ h => (Except.ok.inj h).symm, rfl⟩, rfl, rfl⟩
  | succ n ih =>
    obtain ⟨ha, hf⟩ := worn_succ (n := n) (by omega)
    have hagrees : Agrees (fun _ => 0) fun _ => .ok 0 := fun _ _ h => (Except.ok.inj h).symm
    have htaken : Transition.Reachable (Family.step 0) (Family.Start fun _ => 0)
        (Family.Allowed fun _ => 0) ⟨(worn n).takeFree 0, [], {⟨0, n + 1⟩}⟩ := by
      refine .step (a := .other (fun _ => .ok 0) .allocate) (ih (by omega)) hagrees ?_
      simp only [Family.step, Family.other, ha]
      rfl
    refine .step (a := .other (fun _ => .ok 0) (.free ⟨0, n + 1⟩)) htaken hagrees ?_
    simp [Family.step, Family.other, hf]

/-- One token fits the count and the pool, and the append throws `overflow_error`. -/
theorem append_exhausted : ∃ f : Family, ∃ s,
    Transition.Reachable (Family.step 0) (Family.Start fun _ => 0) (Family.Allowed fun _ => 0) f ∧
      f.sequences = [s] ∧ s.blockTable.pool = some 0 ∧ s.numTokens + 1 ≤ sizeMax ∧
      f.pool.available = 1 ∧
      thrown (SequenceState.appendTokens (fun _ => none) 1 (f.pool, s)) =
        some (.overflowError "block generation exhausted") := by
  have hr : Transition.Reachable (Family.step 0) (Family.Start fun _ => 0)
      (Family.Allowed fun _ => 0) ⟨worn u64Max, [.new 7 0 (worn u64Max)], 0⟩ :=
    .step (a := .create 7) (worn_reachable u64Max le_rfl) trivial rfl
  have hf := Family.intact_of_reachable hr
  refine ⟨_, _, hr, rfl, rfl, by decide, by decide +kernel, ?_⟩
  have hi : [SequenceState.new 7 0 (worn u64Max)][0]? = some (.new 7 0 (worn u64Max)) := rfl
  rw [appendTokens_thrown (hf.view hi) (hf.at_ hi).covered Nat.zero_lt_one rfl one_ne_zero]
  decide +kernel

end KVFlux.V2
