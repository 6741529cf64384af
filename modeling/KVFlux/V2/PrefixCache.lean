import KVFlux.V2.SequenceState

/-!
# The prefix cache

* `attachCachedPrefix`: the leading full blocks that are cached become the first blocks of an empty
  sequence. `publishComputedBlock`: a full block of a sequence enters the cache.
* `Attached m m' new`: the cached pages `new` got an owner each.
* **`attachCachedPrefix_cases`**: all leading cached blocks are attached, or the call throws and the
  sequence is empty again.
-/

namespace KVFlux.V2

open Fallible BlockManager

/-- `pool` is the address of the pool. -/
structure PrefixCache where
  pool : ℕ
deriving DecidableEq, Repr

namespace PrefixCache

/-- The clean-up loop of `attach_cached_prefix`, with a bound on the rounds. -/
def detach : ℕ → SequenceCall Unit
  | 0 => pure ()
  | n + 1 => do
    let (pool, s) ← get
    if s.numTokens = 0 then pure ()
    else do
      SequenceState.onTable BlockTable.popBack
      modify fun (m, s) => (m, { s with numTokens := s.numTokens - pool.blockSize })
      detach n

/-- A hit: the table takes its own reference before that of the lookup is returned. -/
def attachHit (grow : Option Exn) (handle : PhysicalBlockHandle) : SequenceCall Unit := do
  onError (SequenceState.appendCachedFullBlock grow handle)
    (onFst (PhysicalBlockPool.free handle))
  onFst (PhysicalBlockPool.free handle)

/-- The loop of `attach_cached_prefix`: `p` is the prefix attached so far, `rest` the tokens after
it. Every round attaches a token, so `rest.length` rounds are enough. -/
def attachLoop (hasher : Hasher) (grow : ℕ → Option Exn) : ℕ → Tokens → Tokens → SequenceCall Unit
  | 0, _, _ => pure ()
  | fuel + 1, p, rest => do
    let (pool, s) ← get
    if rest.length < pool.blockSize then pure ()
    else do
      let p := p ++ rest.take pool.blockSize
      let hit ← onFst (PhysicalBlockPool.lookup hasher p)
      match hit with
      | none => pure ()
      | some handle => do
        attachHit (grow s.blockTable.size) handle
        attachLoop hasher grow fuel p (rest.drop pool.blockSize)

/-- `attach_cached_prefix(sequence, tokens)`; `reserve` is what the reservation of the prefix buffer
throws. -/
def attachCachedPrefix (cache : PrefixCache) (hasher : Hasher) (reserve : Option Exn)
    (grow : ℕ → Option Exn) (tokens : Tokens) : SequenceCall ℕ := do
  let (_, s) ← get
  ensure (s.blockTable.pool = some cache.pool)
    (.invalidArgument "sequence and prefix cache must use one physical pool")
  ensure (s.numTokens = 0) (.invalidArgument "cached prefix requires an empty sequence")
  check (match reserve with
    | some err => .error err
    | none => .ok ())
  onError (attachLoop hasher grow tokens.length [] tokens) (do
    let (_, s) ← get
    detach s.numTokens)
  let (_, s) ← get
  return s.numTokens

/-- `publish_computed_block(sequence, logical_block, prefix)`. -/
def publishComputedBlock (cache : PrefixCache) (hasher : Hasher) (logicalBlock : ℕ) (p : Tokens) :
    SequenceCall Unit := do
  let (pool, s) ← get
  ensure (s.blockTable.pool = some cache.pool)
    (.invalidArgument "sequence and prefix cache must use one physical pool")
  ensure (¬ (logicalBlock ≥ s.numAllocatedBlocks ∨ p.length % pool.blockSize ≠ 0 ∨
      p.length / pool.blockSize ≠ logicalBlock + 1 ∨ p.length > s.numTokens))
    (.invalidArgument "publish requires the exact complete token prefix")
  let handle ← check (s.blockTable.handle pool logicalBlock)
  onFst (PhysicalBlockPool.publish hasher handle p)

/-! ## Attaching -/

variable {H : Tokens → UInt64} {hasher : Hasher} {m m' m'' : PhysicalBlockPool}
  {held rest : Multiset BlockHandle} {h : BlockHandle} {new new' : List BlockHandle}
  {s : SequenceState} {err : Exn} {grow : ℕ → Option Exn} {tokens : Tokens} {k : ℕ}

/-- The pages `new` got an owner each; nothing was published or evicted. -/
structure Attached (m m' : PhysicalBlockPool) (new : List BlockHandle) : Prop where
  order : m'.reclaimOrder = m.reclaimOrder.filter (· ∉ new.map BlockHandle.id)
  cached : ∀ i, (m'.slots i).cached = (m.slots i).cached ∧
    (m'.slots i).prefixTokens = (m.slots i).prefixTokens
  blockSize : m'.blockSize = m.blockSize
  capacity : m'.capacity = m.capacity

theorem Attached.refl (m : PhysicalBlockPool) : Attached m m [] where
  order := by simp
  cached _ := ⟨rfl, rfl⟩
  blockSize := rfl
  capacity := rfl

theorem Attached.trans (ha : Attached m m' new) (ha' : Attached m' m'' new') :
    Attached m m'' (new ++ new') := by
  refine ⟨?_, fun i => ⟨?_, ?_⟩, ha'.blockSize.trans ha.blockSize, ha'.capacity.trans ha.capacity⟩
  · rw [ha'.order, ha.order, List.filter_filter]
    refine List.filter_congr fun i _ => ?_
    simp only [List.map_append, List.mem_append, not_or, Bool.decide_and, Bool.and_comm]
  · exact (ha'.cached i).1.trans (ha.cached i).1
  · exact (ha'.cached i).2.trans (ha.cached i).2

theorem Attached.shrinks (ha : Attached m m' new) : Shrinks m m' :=
  ⟨fun i hi => ⟨(ha.cached i).1 ▸ hi, (ha.cached i).2⟩, ha.blockSize, ha.capacity⟩

/-- One more owner of a page. -/
theorem attached_retained (hg : Good H m) (hf : (m.slots h.id).free = false)
    (hr : (m.slots h.id).refs ≠ sizeMax) : Attached m (m.retained h.id) [h] where
  order := by
    rw [retained_reclaim hg hf hr, hg.reclaimOrder_nodup.erase_eq_filter]
    refine List.filter_congr fun i _ => ?_
    by_cases he : i = h.id
    · simp [he]
    · simp [he]
  cached i := by
    rw [retained_slots]
    split_ifs with he
    · subst he
      exact ⟨rfl, rfl⟩
    · exact ⟨rfl, rfl⟩
  blockSize := retained_blockSize
  capacity := retained_capacity

/-- A reference on top of others is taken back without a trace. -/
theorem released_retained {id : ℕ} (hr : (m.slots id).refs ≠ 0) :
    (m.retained id).released id = m := by
  have h₁ := @retained_addRefs m [] id hr List.not_mem_nil
  have h₂ := @released_addRefs m [] id hr List.not_mem_nil
  rw [addRefs_nil, List.nil_append] at h₁
  rw [h₁, h₂, addRefs_nil]

/-- The sequence with the cached blocks `new` behind its own. -/
def extended (s : SequenceState) (n : ℕ) (new : List BlockHandle) : SequenceState :=
  { s with
    numTokens := s.numTokens + new.length * n
    blockTable := { s.blockTable with blocks := s.blockTable.blocks ++ new } }

theorem appendCachedFullBlock_cases (hs : Sound H m (s.blockTable.blocks + rest))
    (grow : Option Exn) (hh : h ∈ (s.blockTable.blocks : Multiset BlockHandle) + rest) :
    (SequenceState.appendCachedFullBlock grow h (m, s) =
        .ok () (m.retained h.id, extended s s.blockSize [h]) ∧
      Sound H (m.retained h.id) ((s.blockTable.blocks ++ [h] : List BlockHandle) + rest)) ∨
    (∃ err m', SequenceState.appendCachedFullBlock grow h (m, s) = .error err (m', s) ∧
      Sound H m' (s.blockTable.blocks + rest) ∧ Shrinks m m') := by
  have hstep : SequenceState.appendCachedFullBlock grow h (m, s) =
      (ensure (¬ (s.numTokens % s.blockSize ≠ 0 ∨ s.blockSize > sizeMax - s.numTokens))
        (Exn.invalidArgument "cached block requires a complete preceding prefix") >>= fun _ =>
        SequenceState.onTable (BlockTable.appendExisting grow h) >>= fun _ =>
        modify fun (pool, s) => (pool, { s with numTokens := s.numTokens + s.blockSize })) (m, s) :=
    rfl
  rw [hstep]
  by_cases hgo : s.numTokens % s.blockSize ≠ 0 ∨ s.blockSize > sizeMax - s.numTokens
  · right
    refine ⟨.invalidArgument "cached block requires a complete preceding prefix", m, ?_, hs, .refl m⟩
    rw [bind_apply, ensure, if_neg (not_not.mpr hgo)]
  rw [bind_of_ok (ensure_apply hgo)]
  rcases BlockTable.appendExisting_cases hs grow hh with ⟨hc, hs', -⟩ | ⟨err, m', hc, hs', hshrink⟩
  · left
    refine ⟨?_, hs'⟩
    rw [bind_of_ok (SequenceState.onTable_ok hc), extended, List.length_singleton, Nat.one_mul]
    rfl
  · right
    exact ⟨err, m', bind_of_error (SequenceState.onTable_error hc), hs', hshrink⟩

/-- **A hit** gives the page one owner more, or the reference of the lookup is returned. -/
theorem attachHit_cases (hs : Sound H m (s.blockTable.blocks + rest))
    (hfree : (m.slots h.id).free = false) (hr : (m.slots h.id).refs ≠ sizeMax)
    (hs' : Sound H (m.retained h.id) (h ::ₘ (s.blockTable.blocks + rest))) (grow : Option Exn) :
    (attachHit grow h (m.retained h.id, s) =
        .ok () (m.retained h.id, extended s s.blockSize [h]) ∧
      Sound H (m.retained h.id) ((s.blockTable.blocks ++ [h] : List BlockHandle) + rest) ∧
      Attached m (m.retained h.id) [h]) ∨
    (∃ err m', attachHit grow h (m.retained h.id, s) = .error err (m', s) ∧
      Sound H m' (s.blockTable.blocks + rest) ∧ Shrinks m m') := by
  have hatt := attached_retained hs.good hfree hr
  rw [← Multiset.add_cons] at hs'
  have hmem : h ∈ (s.blockTable.blocks : Multiset BlockHandle) + (h ::ₘ rest) := by simp
  unfold attachHit
  rcases appendCachedFullBlock_cases hs' grow hmem with ⟨hc, hs₁⟩ | ⟨err, m₁, hc, hs₁, hshrink⟩
  · left
    rw [Multiset.add_cons] at hs₁
    obtain ⟨hf, hs₂, -⟩ := hs₁.free (Multiset.mem_cons_self h _)
    have hr₁ : ((m.retained h.id).slots h.id).refs ≠ 0 := by
      rw [retained_slots, if_pos rfl]
      exact Nat.succ_ne_zero _
    rw [Multiset.erase_cons_head] at hs₂
    rw [released_retained hr₁] at hf hs₂
    refine ⟨?_, hs₂, hatt⟩
    rw [bind_of_ok (onError_ok.mpr hc), onFst_apply, hf]
  · right
    rw [Multiset.add_cons] at hs₁
    obtain ⟨hf, hs₂, hshrink₂⟩ := hs₁.free (Multiset.mem_cons_self h _)
    rw [Multiset.erase_cons_head] at hs₂
    refine ⟨err, _, ?_, hs₂, (hatt.shrinks.trans hshrink).trans hshrink₂⟩
    have hclean : (onFst (PhysicalBlockPool.free h) : SequenceCall PUnit) (m₁, s) =
        .ok ⟨⟩ (m₁.released h.id, s) := by
      rw [onFst_apply, hf]
    rw [bind_of_error (onError_clean hc hclean)]

/-- The first `i + 1` blocks of the tokens. -/
def blockPrefix (n : ℕ) (tokens : Tokens) (i : ℕ) : Tokens := tokens.take ((i + 1) * n)

/-- Block `i` of the tokens is full and cached. -/
def Cached (m : PhysicalBlockPool) (tokens : Tokens) (i : ℕ) : Prop :=
  (i + 1) * m.blockSize ≤ tokens.length ∧ ∃ j, (m.slots j).cached = true ∧
    (m.slots j).prefixTokens = blockPrefix m.blockSize tokens i

/-- The pages `new` hold the blocks of the tokens from block `k` on. -/
def Holds (m : PhysicalBlockPool) (tokens : Tokens) (k : ℕ) (new : List BlockHandle) : Prop :=
  ∀ j h, new[j]? = some h → (k + j + 1) * m.blockSize ≤ tokens.length ∧
    (m.slots h.id).cached = true ∧
    (m.slots h.id).prefixTokens = blockPrefix m.blockSize tokens (k + j)

/-- **The loop attaches the cached blocks from block `k` up to the first miss**, or throws with some
of them attached. By induction on the rounds left. -/
theorem attachLoop_cases (ha : Agrees H hasher) (grow : ℕ → Option Exn) (fuel : ℕ) :
    ∀ {m : PhysicalBlockPool} {s : SequenceState} {k : ℕ},
    Sound H m (s.blockTable.blocks + rest) → s.blockSize = m.blockSize →
    k * m.blockSize ≤ tokens.length → tokens.length < k * m.blockSize + fuel + m.blockSize →
    (∃ new m', attachLoop hasher grow fuel (tokens.take (k * m.blockSize))
        (tokens.drop (k * m.blockSize)) (m, s) = .ok () (m', extended s m.blockSize new) ∧
      Sound H m' ((s.blockTable.blocks ++ new : List BlockHandle) + rest) ∧ Attached m m' new ∧
      Holds m tokens k new ∧ ¬ Cached m tokens (k + new.length)) ∨
    (∃ err new m', attachLoop hasher grow fuel (tokens.take (k * m.blockSize))
        (tokens.drop (k * m.blockSize)) (m, s) = .error err (m', extended s m.blockSize new) ∧
      Sound H m' ((s.blockTable.blocks ++ new : List BlockHandle) + rest) ∧ Shrinks m m') := by
  induction fuel with
  | zero =>
    intro m s k hs hbs hk hlen
    left
    refine ⟨[], m, ?_, by rwa [List.append_nil], .refl m, nofun, fun hc => ?_⟩
    · simp [attachLoop, extended]
    · have := hc.1
      rw [List.length_nil, Nat.add_zero, Nat.add_mul, Nat.one_mul] at this
      omega
  | succ fuel ih =>
    intro m s k hs hbs hk hlen
    have hn := hs.blockSize_pos
    have hnext : (k + 1) * m.blockSize = k * m.blockSize + m.blockSize := by
      rw [Nat.add_mul, Nat.one_mul]
    have hrest : (tokens.drop (k * m.blockSize)).length = tokens.length - k * m.blockSize :=
      List.length_drop
    by_cases hshort : (tokens.drop (k * m.blockSize)).length < m.blockSize
    · left
      refine ⟨[], m, ?_, by rwa [List.append_nil], .refl m, nofun, fun hc => ?_⟩
      · simp only [attachLoop, bind_apply, get_apply, if_pos hshort, pure_apply]
        simp [extended]
      · have := hc.1
        rw [List.length_nil, Nat.add_zero, hnext] at this
        omega
    have hle : (k + 1) * m.blockSize ≤ tokens.length := by omega
    have hp : tokens.take (k * m.blockSize) ++ (tokens.drop (k * m.blockSize)).take m.blockSize =
        blockPrefix m.blockSize tokens k := by rw [blockPrefix, hnext, List.take_add]
    have hd : (tokens.drop (k * m.blockSize)).drop m.blockSize =
        tokens.drop ((k + 1) * m.blockSize) := by rw [hnext, List.drop_drop]
    have hplen : (blockPrefix m.blockSize tokens k).length = (k + 1) * m.blockSize := by
      rw [blockPrefix, List.length_take]
      exact min_eq_left hle
    have hpne : blockPrefix m.blockSize tokens k ≠ [] := by
      refine List.ne_nil_of_length_pos ?_
      rw [hplen, hnext]
      omega
    have hpmod : (blockPrefix m.blockSize tokens k).length % m.blockSize = 0 := by
      rw [hplen]
      exact Nat.mul_mod_left _ _
    have hstep : attachLoop hasher grow (fuel + 1) (tokens.take (k * m.blockSize))
        (tokens.drop (k * m.blockSize)) (m, s) =
        (onFst (PhysicalBlockPool.lookup hasher (blockPrefix m.blockSize tokens k)) >>= fun hit =>
          (match hit with
          | none => pure ()
          | some handle => attachHit (grow s.blockTable.size) handle >>= fun _ =>
            attachLoop hasher grow fuel (blockPrefix m.blockSize tokens k)
              (tokens.drop ((k + 1) * m.blockSize)) : SequenceCall Unit)) (m, s) := by
      rw [attachLoop, bind_of_ok (get_apply _)]
      simp only [if_neg hshort, hp, hd]
    rw [hstep]
    rcases hs.lookup ha hpne hpmod with ⟨h, hcached, hpre, hfree, hr, hc, hs'⟩ | ⟨hmiss, hc⟩ |
      ⟨err, hc⟩
    · -- a hit: the rest of the loop runs on the extended sequence
      have hc' : (onFst (PhysicalBlockPool.lookup hasher (blockPrefix m.blockSize tokens k)) :
          SequenceCall (Option BlockHandle)) (m, s) = .ok (some h) (m.retained h.id, s) := by
        rw [onFst_apply, hc]
      rw [bind_of_ok hc']
      simp only
      rcases attachHit_cases hs hfree hr hs' (grow s.blockTable.size) with ⟨hhit, hs₁, hatt⟩ |
        ⟨err, m₁, hhit, hs₁, hshrink⟩
      swap
      · right
        refine ⟨err, [], m₁, ?_, by rwa [List.append_nil], hshrink⟩
        rw [bind_of_error hhit]
        simp [extended]
      rw [bind_of_ok hhit, hbs]
      have hbs₁ : (m.retained h.id).blockSize = m.blockSize := retained_blockSize
      have hext : ∀ new, extended (extended s m.blockSize [h]) m.blockSize new =
          extended s m.blockSize (h :: new) := by
        intro new
        simp only [extended, List.length_cons, List.length_nil, List.append_assoc,
          List.singleton_append, Nat.add_mul, Nat.one_mul, Nat.zero_add]
        congr 1
        omega
      have hih := @ih (m.retained h.id) (extended s m.blockSize [h]) (k + 1) hs₁ (hbs.trans hbs₁.symm)
        (by rw [hbs₁]; exact hle) (by rw [hbs₁, hnext]; omega)
      rw [hbs₁, show tokens.take ((k + 1) * m.blockSize) = blockPrefix m.blockSize tokens k from rfl]
        at hih
      rcases hih with ⟨new, m₂, hc₂, hs₂, hatt₂, hholds, hstop⟩ | ⟨err, new, m₂, hc₂, hs₂, hshrink⟩
      · left
        refine ⟨h :: new, m₂, by rw [hc₂, hext], ?_, hatt.trans hatt₂, ?_, ?_⟩
        · simpa [extended] using hs₂
        · rintro (_ | j) g hg
          · obtain rfl : h = g := by simpa using hg
            exact ⟨hle, hcached, hpre⟩
          · have := hholds j g (by simpa using hg)
            rw [hbs₁, (hatt.cached _).1, (hatt.cached _).2, show k + 1 + j = k + (j + 1) by omega]
              at this
            exact this
        · intro hcd
          refine hstop ?_
          rw [List.length_cons, show k + (new.length + 1) = k + 1 + new.length by omega] at hcd
          obtain ⟨hl, j, hj, hjp⟩ := hcd
          refine ⟨by rwa [hbs₁], j, ?_, ?_⟩
          · rw [(hatt.cached _).1, hj]
          · rw [(hatt.cached _).2, hjp, hbs₁]
      · right
        refine ⟨err, h :: new, m₂, by rw [hc₂, hext], ?_, hatt.shrinks.trans hshrink⟩
        simpa [extended] using hs₂
    · left
      have hc' : (onFst (PhysicalBlockPool.lookup hasher (blockPrefix m.blockSize tokens k)) :
          SequenceCall (Option BlockHandle)) (m, s) = .ok none (m, s) := by
        rw [onFst_apply, hc]
      rw [bind_of_ok hc']
      refine ⟨[], m, ?_, by rwa [List.append_nil], .refl m, nofun, ?_⟩
      · simp [extended]
      · rintro ⟨-, j, hj, hjp⟩
        exact hmiss j hj hjp
    · right
      have hc' : (onFst (PhysicalBlockPool.lookup hasher (blockPrefix m.blockSize tokens k)) :
          SequenceCall (Option BlockHandle)) (m, s) = .error err (m, s) := by
        rw [onFst_apply, hc]
      refine ⟨err, [], m, ?_, by rwa [List.append_nil], .refl m⟩
      rw [bind_of_error hc']
      simp [extended]

/-- The sequence without tokens and blocks. -/
def emptied (s : SequenceState) : SequenceState :=
  { s with numTokens := 0, blockTable := { s.blockTable with blocks := [] } }

theorem emptied_eq (hn : s.numTokens = 0) (hb : s.blockTable.blocks = []) : emptied s = s := by
  simp only [emptied, ← hn, ← hb]

/-- The clean-up takes all attached blocks off again. -/
theorem detach_ok (fuel : ℕ) : ∀ {m : PhysicalBlockPool} {s : SequenceState}
    {new : List BlockHandle}, Sound H m (s.blockTable.blocks + rest) → s.blockTable.blocks = new →
    0 < m.blockSize → s.numTokens = new.length * m.blockSize → new.length ≤ fuel →
    ∃ m', detach fuel (m, s) = .ok () (m', emptied s) ∧ Sound H m' rest ∧ Shrinks m m' := by
  induction fuel with
  | zero =>
    intro m s new hs hb _ hn hlen
    obtain rfl : new = [] := List.length_eq_zero_iff.mp (Nat.le_zero.mp hlen)
    rw [hb, Multiset.coe_nil, Multiset.zero_add] at hs
    rw [List.length_nil, Nat.zero_mul] at hn
    refine ⟨m, ?_, hs, .refl m⟩
    rw [emptied_eq hn hb]
    rfl
  | succ fuel ih =>
    intro m s new hs hb hpos hn hlen
    rcases List.eq_nil_or_concat new with rfl | ⟨blocks, h, rfl⟩
    · rw [hb, Multiset.coe_nil, Multiset.zero_add] at hs
      rw [List.length_nil, Nat.zero_mul] at hn
      refine ⟨m, ?_, hs, .refl m⟩
      rw [detach, bind_of_ok (get_apply _)]
      simp only [if_pos hn, emptied_eq hn hb, pure_apply]
    · rw [List.concat_eq_append] at hb hn hlen
      rw [List.length_append, List.length_singleton] at hn hlen
      have hne : s.numTokens ≠ 0 := by
        rw [hn]
        exact Nat.mul_ne_zero (Nat.succ_ne_zero _) (Nat.ne_of_gt hpos)
      rw [hb] at hs
      obtain ⟨m₁, hc, -, hs₁, hshrink⟩ := BlockTable.popBack_ok hs hb
      have hsub : s.numTokens - m.blockSize = blocks.length * m.blockSize := by
        rw [hn, Nat.add_mul, Nat.one_mul, Nat.add_sub_cancel]
      obtain ⟨m₂, hc₂, hs₂, hshrink₂⟩ := @ih m₁ { s with
        numTokens := s.numTokens - m.blockSize
        blockTable := { s.blockTable with blocks := blocks } } blocks hs₁ rfl
        (by rw [hshrink.blockSize]; exact hpos) (by rw [hshrink.blockSize]; exact hsub) (by omega)
      refine ⟨m₂, ?_, hs₂, hshrink.trans hshrink₂⟩
      rw [detach, bind_of_ok (get_apply _)]
      simp only [if_neg hne]
      rw [bind_of_ok (SequenceState.onTable_ok hc), bind_of_ok (modify_apply _ _)]
      exact hc₂

/-- **`attach_cached_prefix`** attaches all leading cached blocks to the empty sequence, or throws
and leaves it empty. -/
theorem attachCachedPrefix_cases (hs : Sound H m (s.blockTable.blocks + rest))
    (ha : Agrees H hasher) (hbs : s.blockSize = m.blockSize) (hc : s.Covered) (cache : PrefixCache)
    (reserve : Option Exn) (grow : ℕ → Option Exn) (tokens : Tokens) :
    (∃ new m', attachCachedPrefix cache hasher reserve grow tokens (m, s) =
        .ok (new.length * m.blockSize) (m', extended s m.blockSize new) ∧
      s.numTokens = 0 ∧ s.blockTable.blocks = [] ∧ s.blockTable.pool = some cache.pool ∧
      Sound H m' (new + rest) ∧ Attached m m' new ∧ Holds m tokens 0 new ∧
      ¬ Cached m tokens new.length) ∨
    (∃ err m', attachCachedPrefix cache hasher reserve grow tokens (m, s) = .error err (m', s) ∧
      Sound H m' (s.blockTable.blocks + rest) ∧ Shrinks m m') := by
  have hn := hs.blockSize_pos
  have hstep : attachCachedPrefix cache hasher reserve grow tokens (m, s) =
      (ensure (s.blockTable.pool = some cache.pool)
        (Exn.invalidArgument "sequence and prefix cache must use one physical pool") >>= fun _ =>
      ensure (s.numTokens = 0) (.invalidArgument "cached prefix requires an empty sequence") >>=
        fun _ => check (match reserve with | some err => .error err | none => .ok ()) >>= fun _ =>
      onError (attachLoop hasher grow tokens.length [] tokens) (do
        let (_, s) ← get
        detach s.numTokens) >>= fun _ => get >>= fun st => pure st.2.numTokens) (m, s) := rfl
  rw [hstep]
  by_cases hpool : s.blockTable.pool = some cache.pool
  swap
  · right
    refine ⟨.invalidArgument "sequence and prefix cache must use one physical pool", m, ?_, hs,
      .refl m⟩
    rw [bind_apply, ensure, if_neg hpool]
  rw [bind_of_ok (ensure_apply hpool)]
  by_cases h0 : s.numTokens = 0
  swap
  · right
    refine ⟨.invalidArgument "cached prefix requires an empty sequence", m, ?_, hs, .refl m⟩
    rw [bind_apply, ensure, if_neg h0]
  rw [bind_of_ok (ensure_apply h0)]
  cases reserve with
  | some err => exact .inr ⟨err, m, rfl, hs, .refl m⟩
  | none =>
    rw [bind_of_ok (check_ok () _)]
    have hempty : s.blockTable.blocks = [] := by
      rw [SequenceState.Covered, h0, SequenceState.neededBlocks, Nat.zero_mod, Nat.zero_div] at hc
      exact List.length_eq_zero_iff.mp (by simpa [BlockTable.size] using hc)
    have hloop := @attachLoop_cases H hasher rest tokens ha grow tokens.length m s 0 hs hbs
      (by rw [Nat.zero_mul]; exact Nat.zero_le _) (by omega)
    rw [Nat.zero_mul, List.take_zero, List.drop_zero] at hloop
    rcases hloop with ⟨new, m', hrun, hs', hatt, hholds, hstop⟩ | ⟨err, new, m₁, hrun, hs₁, hshrink⟩
    · left
      rw [hempty, List.nil_append] at hs'
      rw [Nat.zero_add] at hstop
      refine ⟨new, m', ?_, by trivial, hempty, by trivial, hs', hatt, hholds, hstop⟩
      rw [bind_of_ok (onError_ok.mpr hrun), bind_of_ok (get_apply _), pure_apply]
      simp only [extended, h0, Nat.zero_add]
    · right
      rw [hempty, List.nil_append] at hs₁
      have hn₁ : (extended s m.blockSize new).numTokens = new.length * m₁.blockSize := by
        rw [hshrink.blockSize, extended, h0, Nat.zero_add]
      obtain ⟨m', hd, hs', hshrink'⟩ := @detach_ok H rest (extended s m.blockSize new).numTokens m₁
        (extended s m.blockSize new) new (by simpa [extended, hempty] using hs₁)
        (by simp [extended, hempty]) (by rw [hshrink.blockSize]; exact hn) hn₁
        (by rw [hn₁]; exact Nat.le_mul_of_pos_right _ (by rw [hshrink.blockSize]; exact hn))
      refine ⟨err, m', ?_, by rwa [hempty, Multiset.coe_nil, Multiset.zero_add],
        hshrink.trans hshrink'⟩
      have hclean : (do
          let (_, s) ← get
          detach s.numTokens : SequenceCall Unit) (m₁, extended s m.blockSize new) = .ok () (m', s) := by
        rw [bind_of_ok (get_apply _)]
        refine hd.trans (congrArg (fun s => EStateM.Result.ok () (m', s)) ?_)
        exact emptied_eq h0 hempty
      rw [bind_of_error (onError_clean hrun hclean)]

/-! ## Publishing -/

/-- What `publish_computed_block` checks of the sequence before it publishes the page `h`. -/
structure Publishable (m : PhysicalBlockPool) (s : SequenceState) (cache : PrefixCache) (k : ℕ)
    (p : Tokens) (h : BlockHandle) : Prop where
  pool : s.blockTable.pool = some cache.pool
  block : s.blockTable.blocks[k]? = some h
  length : p.length = (k + 1) * m.blockSize
  le : p.length ≤ s.numTokens

/-- The checks of the sequence, then the call on the pool. -/
theorem publishComputedBlock_checks (hs : Sound H m (s.blockTable.blocks + rest))
    (hasher : Hasher) (cache : PrefixCache) (k : ℕ) (p : Tokens) :
    (∃ h, Publishable m s cache k p h ∧ publishComputedBlock cache hasher k p (m, s) =
      onFst (PhysicalBlockPool.publish hasher h p) (m, s)) ∨
    ((∀ h, ¬ Publishable m s cache k p h) ∧
      ∃ err, publishComputedBlock cache hasher k p (m, s) = .error err (m, s)) := by
  have hn := hs.blockSize_pos
  have hstep : publishComputedBlock cache hasher k p (m, s) =
      (ensure (s.blockTable.pool = some cache.pool)
        (Exn.invalidArgument "sequence and prefix cache must use one physical pool") >>= fun _ =>
      ensure (¬ (k ≥ s.numAllocatedBlocks ∨ p.length % m.blockSize ≠ 0 ∨
          p.length / m.blockSize ≠ k + 1 ∨ p.length > s.numTokens))
        (.invalidArgument "publish requires the exact complete token prefix") >>= fun _ =>
      check (s.blockTable.handle m k) >>= fun handle =>
      onFst (PhysicalBlockPool.publish hasher handle p)) (m, s) := rfl
  rw [hstep]
  by_cases hpool : s.blockTable.pool = some cache.pool
  swap
  · right
    exact ⟨fun h hp => hpool hp.pool, _, by rw [bind_apply, ensure, if_neg hpool]⟩
  rw [bind_of_ok (ensure_apply hpool)]
  by_cases hbad : k ≥ s.numAllocatedBlocks ∨ p.length % m.blockSize ≠ 0 ∨
      p.length / m.blockSize ≠ k + 1 ∨ p.length > s.numTokens
  · right
    refine ⟨fun h hp => ?_, _, by rw [bind_apply, ensure, if_neg (not_not.mpr hbad)]⟩
    have hk : k < s.numAllocatedBlocks := (List.getElem?_eq_some_iff.mp hp.block).1
    have hmod : p.length % m.blockSize = 0 := by rw [hp.length, Nat.mul_mod_left]
    have hdiv : p.length / m.blockSize = k + 1 := by rw [hp.length, Nat.mul_div_cancel _ hn]
    have hle := hp.le
    omega
  rw [bind_of_ok (ensure_apply hbad)]
  simp only [not_or, not_le, ge_iff_le, gt_iff_lt, not_lt, ne_eq, not_not] at hbad
  obtain ⟨hk, hmod, hdiv, hle⟩ := hbad
  have hlen : p.length = (k + 1) * m.blockSize := by
    have := Nat.div_add_mod p.length m.blockSize
    rw [hmod, hdiv, Nat.add_zero, Nat.mul_comm] at this
    exact this.symm
  have hat : s.blockTable.blocks[k]? = some s.blockTable.blocks[k] := List.getElem?_eq_getElem hk
  have hmem : s.blockTable.blocks[k] ∈ (s.blockTable.blocks : Multiset BlockHandle) + rest :=
    Multiset.mem_add.mpr (.inl (List.getElem_mem hk))
  have hhandle : s.blockTable.handle m k = .ok s.blockTable.blocks[k] := by
    rw [BlockTable.handle, hat]
    simp only [hs.id_eq hmem, Except.map]
  left
  refine ⟨s.blockTable.blocks[k], ⟨hpool, hat, hlen, hle⟩, ?_⟩
  rw [hhandle, bind_of_ok (check_ok _ _)]

/-- **`publish_computed_block`** enters a full private block under a new prefix, or throws and
changes nothing. -/
theorem publishComputedBlock_cases (hs : Sound H m (s.blockTable.blocks + rest))
    (ha : Agrees H hasher) (cache : PrefixCache) (k : ℕ) (p : Tokens) :
    (∃ h, Publishable m s cache k p h ∧ (m.slots h.id).refs = 1 ∧ (m.slots h.id).cached = false ∧
      (∀ i, (m.slots i).cached = true → (m.slots i).prefixTokens ≠ p) ∧ hasher p = .ok (H p) ∧
      publishComputedBlock cache hasher k p (m, s) = .ok () (m.published h.id p (H p), s) ∧
      Sound H (m.published h.id p (H p)) (s.blockTable.blocks + rest)) ∨
    (∃ err, publishComputedBlock cache hasher k p (m, s) = .error err (m, s)) := by
  rcases publishComputedBlock_checks hs hasher cache k p with ⟨h, hp, heq⟩ | ⟨-, herr⟩
  swap
  · exact .inr herr
  rw [heq, onFst_apply, PhysicalBlockPool.publish]
  have hmem : h ∈ (s.blockTable.blocks : Multiset BlockHandle) + rest :=
    Multiset.mem_add.mpr (.inl (List.mem_of_getElem? hp.block))
  obtain ⟨free, idle, hi⟩ := hs.good
  rcases publish_cases hi ha h p with hc | hc | ⟨hv, hpre, ⟨err, -, hc⟩ | ⟨j, -, -, hc⟩ | hc⟩
  · exact absurd (hs.owned.valid h hmem) hc.1
  · exact .inr ⟨_, by rw [hc.2.2]⟩
  · exact .inr ⟨_, by rw [hc]⟩
  · exact .inr ⟨_, by rw [hc]⟩
  · left
    refine ⟨h, hp, hpre.1, hpre.2.1, hc.2.1, hc.1, ?_, ?_, hs.owned.published _ _ _⟩
    · rw [hc.2.2]
    · have := publish_keeps ha h p m hs.good
      rwa [hc.2.2] at this

end PrefixCache

end KVFlux.V2
