import KVFlux.Lib.Transition
import KVFlux.V2.PrefixCache

/-!
# Families of sequences over one pool

All sequences over a pool and the references of its other holders, under any calls.

* `Family`, `Action`, `step`: the calls on sequences with their faults, and the calls of other
  holders on pages of their own.
* `Intact`: the ledger of the pool, and what holds of one sequence. `frame` are references that no
  step touches.
* **`step_intact`**, **`intact_of_reachable`**: the step lemma and the run lemma.
-/

namespace KVFlux.V2

open Fallible BlockManager

structure Family where
  pool : PhysicalBlockPool
  sequences : List SequenceState
  others : Multiset BlockHandle

namespace Family

/-- The callback of a copy may read the pool; here only whether it throws matters. -/
inductive Action
  | create (requestId : ℕ)
  | appendTokens (i count : ℕ) (grow : ℕ → Option Exn)
  | appendToken (i : ℕ) (grow : ℕ → Option Exn)
  | appendTokenWithCopy (i : ℕ) (grow : ℕ → Option Exn)
      (copy : Option (SequenceState.BlockCopier Unit))
  | forkShared (i requestId : ℕ) (grow : ℕ → Option Exn)
  | moveConstruct (i : ℕ)
  | moveAssign (target source : ℕ)
  | destroy (i : ℕ)
  | attachCachedPrefix (i : ℕ) (hasher : Hasher) (reserve : Option Exn) (grow : ℕ → Option Exn)
      (tokens : Tokens)
  | publishComputedBlock (i : ℕ) (hasher : Hasher) (logicalBlock : ℕ) (p : Tokens)
  | other (hasher : Hasher) (op : PhysicalBlockPool.Op)

/-- Sequence `i` after a call. -/
def set {α : Type} (f : Family) (i : ℕ) :
    EStateM.Result Exn (PhysicalBlockPool × SequenceState) α → Family
  | .ok _ (pool, s) | .error _ (pool, s) =>
    { f with pool := pool, sequences := f.sequences.set i s }

/-- Another holder calls the pool; it hands in only pages of its own. -/
def other (hasher : Hasher) (f : Family) : PhysicalBlockPool.Op → Option Family
  | .allocate =>
    match PhysicalBlockPool.allocate f.pool with
    | .ok h pool => some { f with pool := pool, others := h ::ₘ f.others }
    | .error _ pool => some { f with pool := pool }
  | .retain h =>
    if h ∈ f.others then
      match PhysicalBlockPool.retain h f.pool with
      | .ok _ pool => some { f with pool := pool, others := h ::ₘ f.others }
      | .error _ pool => some { f with pool := pool }
    else none
  | .free h =>
    if h ∈ f.others then
      match PhysicalBlockPool.free h f.pool with
      | .ok _ pool => some { f with pool := pool, others := f.others.erase h }
      | .error _ pool => some { f with pool := pool }
    else none
  | .publish h p =>
    if h ∈ f.others then
      some { f with pool := finalState (PhysicalBlockPool.publish hasher h p f.pool) }
    else none
  | .lookup p =>
    match PhysicalBlockPool.lookup hasher p f.pool with
    | .ok (some h) pool => some { f with pool := pool, others := h ::ₘ f.others }
    | .ok none pool | .error _ pool => some { f with pool := pool }

/-- The state after a call; `here` is the address of the pool. -/
def step (here : ℕ) : Action → Family → Option Family
  | .create requestId, f =>
    some { f with sequences := f.sequences ++ [.new requestId here f.pool] }
  | .appendTokens i count grow, f => do
    let s ← f.sequences[i]?
    some (f.set i (SequenceState.appendTokens grow count (f.pool, s)))
  | .appendToken i grow, f => do
    let s ← f.sequences[i]?
    some (f.set i (SequenceState.appendToken grow (f.pool, s)))
  | .appendTokenWithCopy i grow copy, f => do
    let s ← f.sequences[i]?
    match SequenceState.appendTokenWithCopy grow copy ((f.pool, s), ()) with
    | .ok loc (st, _) => some (f.set i (.ok loc st))
    | .error err (st, _) => some (f.set (α := Unit) i (.error err st))
  | .forkShared i requestId grow, f => do
    let s ← f.sequences[i]?
    match SequenceState.forkShared grow requestId s f.pool with
    | .ok s' pool => some { f with pool := pool, sequences := f.sequences ++ [s'] }
    | .error _ pool => some { f with pool := pool }
  | .moveConstruct i, f => do
    let s ← f.sequences[i]?
    some { f with sequences := f.sequences.set i s.movedFrom ++ [s] }
  | .moveAssign target source, f => do
    let t ← f.sequences[target]?
    let s ← f.sequences[source]?
    if target = source then some f
    else
      match SequenceState.moveAssign s (f.pool, t) with
      | .ok _ (pool, s') | .error _ (pool, s') => some { f with
          pool := pool, sequences := (f.sequences.set target s').set source s.movedFrom }
  | .destroy i, f => do
    let s ← f.sequences[i]?
    match BlockTable.clear (f.pool, s.blockTable) with
    | .ok _ (pool, _) | .error _ (pool, _) =>
      some { f with pool := pool, sequences := f.sequences.eraseIdx i }
  | .attachCachedPrefix i hasher reserve grow tokens, f => do
    let s ← f.sequences[i]?
    some (f.set i (PrefixCache.attachCachedPrefix ⟨here⟩ hasher reserve grow tokens (f.pool, s)))
  | .publishComputedBlock i hasher logicalBlock p, f => do
    let s ← f.sequences[i]?
    some (f.set i (PrefixCache.publishComputedBlock ⟨here⟩ hasher logicalBlock p (f.pool, s)))
  | .other hasher op, f => f.other hasher op

/-- A new pool without holders. -/
def Start (H : Tokens → UInt64) (f : Family) : Prop :=
  (∃ capacity blockSize, ∃ hasher : Hasher, Agrees H hasher ∧
    PhysicalBlockPool.new capacity blockSize (some hasher) = .ok f.pool) ∧
  f.sequences = [] ∧ f.others = 0

/-- The hasher of the pool may throw. -/
def Allowed (H : Tokens → UInt64) (_ : Family) : Action → Prop
  | .attachCachedPrefix _ hasher _ _ _ | .publishComputedBlock _ hasher _ _ | .other hasher _ =>
    Agrees H hasher
  | _ => True

/-! ## References of sequences -/

variable {H : Tokens → UInt64} {here : ℕ} {f f' : Family} {m m' : PhysicalBlockPool}
  {s s' : SequenceState} {ss : List SequenceState} {frame rest : Multiset BlockHandle} {i j : ℕ}
  {g h : BlockHandle}

/-- The references of the sequences. -/
def tables (ss : List SequenceState) : Multiset BlockHandle :=
  (ss.map fun s => (s.blockTable.blocks : Multiset BlockHandle)).sum

theorem tables_append (ss ss' : List SequenceState) : tables (ss ++ ss') = tables ss + tables ss' := by
  simp only [tables, List.map_append, List.sum_append]

theorem tables_singleton (s : SequenceState) : tables [s] = s.blockTable.blocks := by
  simp [tables]

/-- One sequence and the others. -/
theorem tables_eq (hi : ss[i]? = some s) :
    tables ss = s.blockTable.blocks + tables (ss.eraseIdx i) := by
  obtain ⟨hlt, rfl⟩ := List.getElem?_eq_some_iff.mp hi
  have hlt' : i < (ss.map fun s => (s.blockTable.blocks : Multiset BlockHandle)).length := by
    rwa [List.length_map]
  have := List.CommMonoid.add_sum_eraseIdx hlt'
  rw [tables, tables, ← this, List.getElem_map, List.eraseIdx_map]

theorem tables_set (hi : ss[i]? = some s) (s' : SequenceState) :
    tables (ss.set i s') = s'.blockTable.blocks + tables (ss.eraseIdx i) := by
  have hlt := (List.getElem?_eq_some_iff.mp hi).1
  have : tables (ss.set i s') = s'.blockTable.blocks + tables ((ss.set i s').eraseIdx i) :=
    tables_eq (by simp [hlt])
  rwa [List.eraseIdx_set_eq] at this

theorem mem_tables_iff : g ∈ tables ss ↔ ∃ s ∈ ss, g ∈ s.blockTable.blocks := by
  induction ss with
  | nil => simp [tables]
  | cons s ss ih =>
    rw [show tables (s :: ss) = s.blockTable.blocks + tables ss from rfl, Multiset.mem_add, ih,
      Multiset.mem_coe]
    simp only [List.mem_cons, exists_eq_or_imp]

theorem mem_tables (hs : s ∈ ss) (hg : g ∈ s.blockTable.blocks) : g ∈ tables ss :=
  mem_tables_iff.mpr ⟨s, hs, hg⟩

theorem set_same (hi : ss[i]? = some s) : ss.set i s = ss := by
  obtain ⟨hlt, rfl⟩ := List.getElem?_eq_some_iff.mp hi
  exact List.set_getElem_self hlt

/-- The references beside those of sequence `i`. -/
def beside (f : Family) (frame : Multiset BlockHandle) (i : ℕ) : Multiset BlockHandle :=
  tables (f.sequences.eraseIdx i) + f.others + frame

/-! ## The invariant -/

/-- What holds of one sequence; one that was moved from has no pool. -/
structure Proper (here : ℕ) (m : PhysicalBlockPool) (s : SequenceState) : Prop where
  blockSize : s.blockSize = m.blockSize
  covered : s.Covered
  pool : ∀ a, s.blockTable.pool = some a → a = here

/-- **The invariant.** -/
structure Intact (H : Tokens → UInt64) (here : ℕ) (frame : Multiset BlockHandle) (f : Family) :
    Prop where
  sound : Sound H f.pool (tables f.sequences + f.others + frame)
  proper : ∀ s ∈ f.sequences, Proper here f.pool s

theorem Proper.onPool (hp : Proper here m s) (hb : m'.blockSize = m.blockSize) :
    Proper here m' s :=
  ⟨hp.blockSize.trans hb.symm, hp.covered, hp.pool⟩

namespace Intact

/-- The pool as sequence `i` sees it. -/
theorem view (hf : Intact H here frame f) (hi : f.sequences[i]? = some s) :
    Sound H f.pool (s.blockTable.blocks + f.beside frame i) := by
  have := hf.sound
  rwa [tables_eq hi, add_assoc, add_assoc, ← add_assoc (tables _)] at this

theorem at_ (hf : Intact H here frame f) (hi : f.sequences[i]? = some s) :
    Proper here f.pool s := hf.proper s (List.mem_of_getElem? hi)

theorem blockSize_pos (hf : Intact H here frame f) : 0 < f.pool.blockSize :=
  hf.sound.blockSize_pos

/-- A call on sequence `i` that keeps what the other sequences hold. -/
theorem replace (hf : Intact H here frame f) (hi : f.sequences[i]? = some s)
    (hs : Sound H m' (s'.blockTable.blocks + f.beside frame i))
    (hb : m'.blockSize = f.pool.blockSize) (hp : Proper here m' s') :
    Intact H here frame { f with pool := m', sequences := f.sequences.set i s' } := by
  refine ⟨?_, fun r hr => ?_⟩
  · rw [tables_set hi, add_assoc, add_assoc, ← add_assoc (tables _)]
    exact hs
  · rcases List.mem_or_eq_of_mem_set hr with hr | rfl
    · exact (hf.proper r hr).onPool hb
    · exact hp

/-- A call of another holder. -/
theorem withOthers {held : Multiset BlockHandle} (hf : Intact H here frame f)
    (hs : Sound H m' (tables f.sequences + held + frame)) (hb : m'.blockSize = f.pool.blockSize) :
    Intact H here frame { f with pool := m', others := held } :=
  ⟨hs, fun r hr => (hf.proper r hr).onPool hb⟩

/-! ## Steps -/

theorem create (hf : Intact H here frame f) (requestId : ℕ) :
    Intact H here frame { f with sequences := f.sequences ++ [.new requestId here f.pool] } := by
  refine ⟨?_, fun r hr => ?_⟩
  · have hnone : tables [SequenceState.new requestId here f.pool] = 0 := tables_singleton _
    rw [tables_append, hnone, add_zero]
    exact hf.sound
  · rcases List.mem_append.mp hr with hr | hr
    · exact hf.proper r hr
    · rw [List.mem_singleton.mp hr]
      refine ⟨rfl, ?_, fun a ha => (Option.some.inj ha).symm⟩
      simp [SequenceState.Covered, SequenceState.new, SequenceState.neededBlocks, BlockTable.size]

/-- More tokens on new pages. -/
theorem grown_proper (hp : Proper here m s) {new : List BlockHandle} {count : ℕ}
    (h0 : count = 0 → new = [])
    (hn : count ≠ 0 → new.length = s.neededBlocks (s.numTokens + count) - s.blockTable.size) :
    Proper here m (s.grown new count) := by
  refine ⟨hp.blockSize, ?_, hp.pool⟩
  by_cases hc : count = 0
  · have := hp.covered
    simpa [SequenceState.grown, h0 hc, hc] using this
  · exact hp.covered.grown (hn hc)

theorem appendTokens (hf : Intact H here frame f) (hi : f.sequences[i]? = some s)
    (grow : ℕ → Option Exn) (count : ℕ) :
    Intact H here frame (f.set i (SequenceState.appendTokens grow count (f.pool, s))) := by
  rcases SequenceState.appendTokens_cases (hf.view hi) grow count with
    ⟨new, m', hc, hs', ha, h0, hn⟩ | ⟨err, m', hc, hs', hshrink⟩
  · rw [hc]
    exact hf.replace hi hs' ha.blockSize
      ((grown_proper (hf.at_ hi) h0 fun h => (hn h).2).onPool ha.blockSize)
  · rw [hc]
    exact hf.replace hi hs' hshrink.blockSize ((hf.at_ hi).onPool hshrink.blockSize)

theorem appendToken (hf : Intact H here frame f) (hi : f.sequences[i]? = some s)
    (grow : ℕ → Option Exn) :
    Intact H here frame (f.set i (SequenceState.appendToken grow (f.pool, s))) := by
  have hb : 0 < s.blockSize := (hf.at_ hi).blockSize ▸ hf.blockSize_pos
  rcases SequenceState.appendToken_cases (hf.view hi) hb (hf.at_ hi).covered grow with
    ⟨new, m', loc, hc, hc', -⟩ | ⟨err, m', hc, hs', hshrink⟩
  · have := hf.appendTokens hi grow 1
    rw [hc'] at this
    rwa [hc]
  · rw [hc]
    exact hf.replace hi hs' hshrink.blockSize ((hf.at_ hi).onPool hshrink.blockSize)

/-- `append_token_with_copy`, whatever the callback does. -/
theorem appendTokenWithCopy {σ : Type} (hf : Intact H here frame f)
    (hi : f.sequences[i]? = some s) (grow : ℕ → Option Exn)
    (copy : Option (SequenceState.BlockCopier σ)) (x : σ) :
    (∀ loc st x', SequenceState.appendTokenWithCopy grow copy ((f.pool, s), x) = .ok loc (st, x') →
      Intact H here frame (f.set i (.ok loc st))) ∧
    ∀ err st x', SequenceState.appendTokenWithCopy grow copy ((f.pool, s), x) =
      .error err (st, x') → Intact H here frame (f.set (α := Unit) i (.error err st)) := by
  have hp := hf.at_ hi
  have hb : 0 < s.blockSize := hp.blockSize ▸ hf.blockSize_pos
  rcases SequenceState.appendTokenWithCopy_cases (hf.view hi) hb hp.covered grow copy x with
    ⟨loc, m', s', x', hc, hs', hshrink, hcov, -, hbs, hpool⟩ | ⟨err, m', x', hc, hs', hshrink⟩
  · refine ⟨fun loc st x' h => ?_, fun err st x' h => by rw [hc] at h; cases h⟩
    rw [hc] at h
    cases h
    exact hf.replace hi hs' hshrink.blockSize
      ⟨hbs.trans (hp.blockSize.trans hshrink.blockSize.symm), hcov, fun a ha => hp.pool a (hpool ▸ ha)⟩
  · refine ⟨fun loc st x' h => (by rw [hc] at h; cases h), fun err' st x' h => ?_⟩
    rw [hc] at h
    cases h
    exact hf.replace hi hs' hshrink.blockSize (hp.onPool hshrink.blockSize)

/-- A fork enters the family. -/
theorem forkShared (hf : Intact H here frame f) (hi : f.sequences[i]? = some s)
    (grow : ℕ → Option Exn) (requestId : ℕ) :
    (∀ s' m', SequenceState.forkShared grow requestId s f.pool = .ok s' m' →
      Intact H here frame { f with pool := m', sequences := f.sequences ++ [s'] }) ∧
    ∀ err m', SequenceState.forkShared grow requestId s f.pool = .error err m' →
      Intact H here frame { f with pool := m' } := by
  have hp := hf.at_ hi
  rcases SequenceState.forkShared_cases (hf.view hi) grow requestId with
    ⟨a, m₁, hpool, hc, hs, hshrink⟩ | ⟨err, m₁, hc, hs, hshrink⟩
  · refine ⟨fun s' m' h => ?_, fun err m' h => by rw [hc] at h; cases h⟩
    rw [hc] at h
    cases h
    refine ⟨?_, fun r hr => ?_⟩
    · rw [tables_append, tables_singleton, tables_eq hi]
      convert hs using 1
      simp only [beside]
      abel
    · rcases List.mem_append.mp hr with hr | hr
      · exact (hf.proper r hr).onPool hshrink.blockSize
      · rw [List.mem_singleton.mp hr]
        refine ⟨hshrink.blockSize.symm, ?_, hp.pool⟩
        have := hp.covered
        unfold SequenceState.Covered SequenceState.neededBlocks at this ⊢
        simp only [← hp.blockSize]
        exact this
  · refine ⟨fun s' m' h => (by rw [hc] at h; cases h), fun err' m' h => ?_⟩
    rw [hc] at h
    cases h
    have := hf.replace hi hs hshrink.blockSize (hp.onPool hshrink.blockSize)
    rwa [set_same hi] at this

/-- A moved-from sequence is empty. -/
theorem movedFrom_proper (hp : Proper here m s) : Proper here m s.movedFrom := by
  refine ⟨hp.blockSize, ?_, nofun⟩
  simp [SequenceState.Covered, SequenceState.movedFrom, SequenceState.neededBlocks, BlockTable.size]

theorem moveConstruct (hf : Intact H here frame f) (hi : f.sequences[i]? = some s) :
    Intact H here frame { f with sequences := f.sequences.set i s.movedFrom ++ [s] } := by
  have hp := hf.at_ hi
  refine ⟨?_, fun r hr => ?_⟩
  · have htables : tables (f.sequences.set i s.movedFrom ++ [s]) = tables f.sequences := by
      rw [tables_append, tables_singleton, tables_set hi, tables_eq hi,
        show s.movedFrom.blockTable.blocks = [] from rfl, Multiset.coe_nil, zero_add, add_comm]
    simpa only [htables] using hf.sound
  · rcases List.mem_append.mp hr with hr | hr
    · rcases List.mem_or_eq_of_mem_set hr with hr | rfl
      · exact hf.proper r hr
      · exact movedFrom_proper hp
    · rw [List.mem_singleton.mp hr]
      exact hp

theorem destroy (hf : Intact H here frame f) (hi : f.sequences[i]? = some s) :
    ∃ m', BlockTable.clear (f.pool, s.blockTable) = .ok () (m', { s.blockTable with blocks := [] }) ∧
      Intact H here frame { f with pool := m', sequences := f.sequences.eraseIdx i } := by
  obtain ⟨m', hc, hs, hshrink⟩ := BlockTable.clear_ok (hf.view hi)
  exact ⟨m', hc, hs, fun r hr =>
    (hf.proper r (List.mem_of_mem_eraseIdx hr)).onPool hshrink.blockSize⟩

theorem moveAssign {t : SequenceState} (hf : Intact H here frame f)
    (hj : f.sequences[j]? = some t) (hi : f.sequences[i]? = some s) (hne : j ≠ i) :
    ∃ m', SequenceState.moveAssign s (f.pool, t) = .ok () (m', s) ∧
      Intact H here frame { f with
        pool := m', sequences := (f.sequences.set j s).set i s.movedFrom } := by
  have hp := hf.at_ hi
  obtain ⟨m', hc, hs, hshrink⟩ := BlockTable.clear_ok (hf.view hj)
  have hi' : (f.sequences.set j s)[i]? = some s := by rw [List.getElem?_set_ne hne, hi]
  have htables : tables ((f.sequences.set j s).set i s.movedFrom) =
      tables (f.sequences.eraseIdx j) := by
    have h₁ := tables_eq hi'
    rw [tables_set hj] at h₁
    rw [tables_set hi', ← add_left_cancel (a := (s.blockTable.blocks : Multiset BlockHandle)) h₁,
      show s.movedFrom.blockTable.blocks = [] from rfl, Multiset.coe_nil, zero_add]
  refine ⟨m', ?_, ?_, fun r hr => ?_⟩
  · show (SequenceState.onTable BlockTable.clear >>= fun _ => modify fun st => (st.1, s))
      (f.pool, t) = _
    rw [bind_of_ok (SequenceState.onTable_ok hc)]
    rfl
  · rw [htables]
    exact hs
  · refine Proper.onPool (m := f.pool) ?_ hshrink.blockSize
    rcases List.mem_or_eq_of_mem_set hr with hr | rfl
    · rcases List.mem_or_eq_of_mem_set hr with hr | rfl
      · exact hf.proper r hr
      · exact hp
    · exact movedFrom_proper hp

theorem attach (hf : Intact H here frame f) (hi : f.sequences[i]? = some s) {hasher : Hasher}
    (ha : Agrees H hasher) (cache : PrefixCache) (reserve : Option Exn) (grow : ℕ → Option Exn)
    (tokens : Tokens) : Intact H here frame
      (f.set i (cache.attachCachedPrefix hasher reserve grow tokens (f.pool, s))) := by
  have hp := hf.at_ hi
  rcases PrefixCache.attachCachedPrefix_cases (hf.view hi) ha hp.blockSize hp.covered cache reserve
    grow tokens with ⟨new, m', hc, h0, hblocks, -, hs, hatt, -⟩ | ⟨err, m', hc, hs, hshrink⟩
  · rw [hc]
    refine hf.replace hi ?_ hatt.blockSize ⟨hp.blockSize.trans hatt.blockSize.symm, ?_, hp.pool⟩
    · show Sound H m' ((s.blockTable.blocks ++ new : List BlockHandle) + _)
      rwa [hblocks, List.nil_append]
    · have hpos : 0 < s.blockSize := hp.blockSize ▸ hf.blockSize_pos
      show (s.blockTable.blocks ++ new).length =
        s.neededBlocks (s.numTokens + new.length * f.pool.blockSize)
      rw [hblocks, List.nil_append, h0, Nat.zero_add, ← hp.blockSize, SequenceState.neededBlocks,
        Nat.mul_mod_left, Nat.mul_div_cancel _ hpos]
      simp
  · rw [hc]
    exact hf.replace hi hs hshrink.blockSize (hp.onPool hshrink.blockSize)

theorem publish (hf : Intact H here frame f) (hi : f.sequences[i]? = some s) {hasher : Hasher}
    (ha : Agrees H hasher) (cache : PrefixCache) (k : ℕ) (p : Tokens) : Intact H here frame
      (f.set i (cache.publishComputedBlock hasher k p (f.pool, s))) := by
  rcases PrefixCache.publishComputedBlock_cases (hf.view hi) ha cache k p with
    ⟨h, -, -, -, -, -, hc, hs⟩ | ⟨err, hc⟩
  · rw [hc]
    exact hf.replace hi hs published_blockSize ((hf.at_ hi).onPool published_blockSize)
  · rw [hc]
    exact hf.replace hi (hf.view hi) rfl (hf.at_ hi)

/-- A page of another holder gets one more reference. -/
theorem with_reference (hf : Intact H here frame f)
    (hs : Sound H m' (g ::ₘ (tables f.sequences + f.others + frame)))
    (hb : m'.blockSize = f.pool.blockSize) :
    Intact H here frame { f with pool := m', others := g ::ₘ f.others } := by
  refine hf.withOthers ?_ hb
  rwa [Multiset.add_cons, Multiset.cons_add]

/-- Calls of other holders. -/
theorem other (hf : Intact H here frame f) {hasher : Hasher} (ha : Agrees H hasher)
    {op : PhysicalBlockPool.Op} (h : f.other hasher op = some f') : Intact H here frame f' := by
  have hmem : ∀ g ∈ f.others, g ∈ tables f.sequences + f.others + frame := fun g hg =>
    Multiset.mem_add.mpr (.inl (Multiset.mem_add.mpr (.inr hg)))
  cases op with
  | allocate =>
    simp only [Family.other] at h
    rcases hf.sound.allocate with ⟨g, m', hc, hs, ha⟩ | ⟨err, hc⟩
    · rw [hc] at h
      cases h
      exact hf.with_reference hs ha.blockSize
    · rw [hc] at h
      cases h
      exact hf
  | retain g =>
    simp only [Family.other] at h
    split_ifs at h with hg
    rcases hf.sound.retain (hmem g hg) with ⟨hc, hs, hshrink⟩ | ⟨err, hc⟩
    · rw [hc] at h
      cases h
      exact hf.with_reference hs hshrink.blockSize
    · rw [hc] at h
      cases h
      exact hf
  | free g =>
    simp only [Family.other] at h
    split_ifs at h with hg
    obtain ⟨hc, hs, hshrink⟩ := hf.sound.free (hmem g hg)
    rw [hc] at h
    cases h
    refine hf.withOthers ?_ hshrink.blockSize
    rwa [Multiset.erase_add_left_pos _ (Multiset.mem_add.mpr (.inr hg)),
      Multiset.erase_add_right_pos _ hg] at hs
  | publish g p =>
    simp only [Family.other] at h
    split_ifs at h with hg
    cases h
    refine hf.withOthers ⟨publish_keeps ha g p _ hf.sound.good, ?_⟩ ?_
    · rcases hf.sound.owned.publish hf.sound.good ha g p with ⟨hc, -, ho⟩ | ⟨err, hc⟩
      · rw [PhysicalBlockPool.publish, hc]
        exact ho
      · rw [PhysicalBlockPool.publish, hc]
        exact hf.sound.owned
    · rcases hf.sound.owned.publish hf.sound.good ha g p with ⟨hc, -, -⟩ | ⟨err, hc⟩
      · rw [PhysicalBlockPool.publish, hc]
        exact published_blockSize
      · rw [PhysicalBlockPool.publish, hc]
        rfl
  | lookup p =>
    simp only [Family.other] at h
    rcases hf.sound.owned.lookup hf.sound.good ha p with ⟨k, -, -, hc, ho⟩ | hc | ⟨err, hc⟩
    · have hg := lookup_keeps ha p f.pool hf.sound.good
      rw [PhysicalBlockPool.lookup, hc] at h
      rw [hc] at hg
      cases h
      exact hf.with_reference ⟨hg, ho⟩ retained_blockSize
    · rw [PhysicalBlockPool.lookup, hc] at h
      cases h
      exact hf
    · rw [PhysicalBlockPool.lookup, hc] at h
      cases h
      exact hf

end Intact

/-- **The step lemma.** -/
theorem step_intact {a : Action} (hf : Intact H here frame f) (ha : Allowed H f a)
    (h : step here a f = some f') : Intact H here frame f' := by
  cases a with
  | create requestId =>
    cases h
    exact hf.create requestId
  | appendTokens i count grow =>
    obtain ⟨s, hi, h⟩ := Option.bind_eq_some_iff.mp h
    cases h
    exact hf.appendTokens hi grow count
  | appendToken i grow =>
    obtain ⟨s, hi, h⟩ := Option.bind_eq_some_iff.mp h
    cases h
    exact hf.appendToken hi grow
  | appendTokenWithCopy i grow copy =>
    obtain ⟨s, hi, h⟩ := Option.bind_eq_some_iff.mp h
    obtain ⟨hok, herr⟩ := hf.appendTokenWithCopy hi grow copy ()
    cases hc : SequenceState.appendTokenWithCopy grow copy ((f.pool, s), ()) with
    | ok loc st =>
      rw [hc] at h
      cases h
      exact hok _ _ _ hc
    | error err st =>
      rw [hc] at h
      cases h
      exact herr _ _ _ hc
  | forkShared i requestId grow =>
    obtain ⟨s, hi, h⟩ := Option.bind_eq_some_iff.mp h
    obtain ⟨hok, herr⟩ := hf.forkShared hi grow requestId
    cases hc : SequenceState.forkShared grow requestId s f.pool with
    | ok s' m' =>
      rw [hc] at h
      cases h
      exact hok _ _ hc
    | error err m' =>
      rw [hc] at h
      cases h
      exact herr _ _ hc
  | moveConstruct i =>
    obtain ⟨s, hi, h⟩ := Option.bind_eq_some_iff.mp h
    cases h
    exact hf.moveConstruct hi
  | moveAssign target source =>
    obtain ⟨t, hj, h⟩ := Option.bind_eq_some_iff.mp h
    obtain ⟨s, hi, h⟩ := Option.bind_eq_some_iff.mp h
    split_ifs at h with he
    · cases h
      exact hf
    · obtain ⟨m', hc, hf'⟩ := hf.moveAssign hj hi he
      rw [hc] at h
      cases h
      exact hf'
  | destroy i =>
    obtain ⟨s, hi, h⟩ := Option.bind_eq_some_iff.mp h
    obtain ⟨m', hc, hf'⟩ := hf.destroy hi
    rw [hc] at h
    cases h
    exact hf'
  | attachCachedPrefix i hasher reserve grow tokens =>
    obtain ⟨s, hi, h⟩ := Option.bind_eq_some_iff.mp h
    cases h
    exact hf.attach hi ha ⟨here⟩ reserve grow tokens
  | publishComputedBlock i hasher k p =>
    obtain ⟨s, hi, h⟩ := Option.bind_eq_some_iff.mp h
    cases h
    exact hf.publish hi ha ⟨here⟩ k p
  | other hasher op => exact hf.other ha h

theorem start_intact (hs : Start H f) : Intact H here 0 f := by
  obtain ⟨⟨capacity, blockSize, hasher, -, hnew⟩, hseq, hoth⟩ := hs
  have hinit : f.pool = BlockManager.init capacity blockSize := by
    unfold PhysicalBlockPool.new BlockManager.new at hnew
    split_ifs at hnew
    exact (Except.ok.inj hnew).symm
  refine ⟨⟨good_of_new hnew, ?_⟩, fun s hs => ?_⟩
  · rw [hseq, hoth, hinit]
    exact owned_init _ _
  · rw [hseq] at hs
    cases hs

/-- A new pool whose hasher returns. -/
theorem reachable_init {capacity blockSize : ℕ} (hc : 0 < capacity) (hb : 0 < blockSize) :
    Transition.Reachable (step here) (Start fun _ => 0) (Allowed fun _ => 0)
      ⟨BlockManager.init capacity blockSize, [], 0⟩ := by
  have hnew : PhysicalBlockPool.new capacity blockSize (some fun _ => .ok 0) =
      .ok (BlockManager.init capacity blockSize) := by
    unfold PhysicalBlockPool.new BlockManager.new
    exact if_neg (by simp [hc.ne', hb.ne'])
  exact .start ⟨⟨capacity, blockSize, fun _ => .ok 0, by simp [Agrees], hnew⟩, rfl, rfl⟩

/-- **The run lemma.** -/
theorem intact_of_reachable
    (hr : Transition.Reachable (step here) (Start H) (Allowed H) f) : Intact H here 0 f :=
  hr.invariant (fun _ => start_intact) fun _ _ _ _ hf ha h => step_intact hf ha h

end Family

end KVFlux.V2
