import KVFlux.V2.BlockTable

/-!
# Sequences of the paged cache

The logical address space of one request: a token count and a table of pages.

* `appendTokens`, `appendToken`, `forkShared`, `appendTokenWithCopy`, `appendCachedFullBlock`: the
  calls that change it. `grow n` is what the growth of the table throws when it has `n` entries.
* `tokenLocation`: the page and the offset of a token.
* **`appendTokens_cases`**, **`appendTokenWithCopy_shared`**, **`forkShared_cases`**: new positions
  lie on pages that nobody else owns; a call that throws changes no sequence.
-/

namespace KVFlux.V2

open Fallible BlockManager

structure TokenLocation where
  physicalBlock : ℕ
  offsetInBlock : ℕ
deriving DecidableEq, Repr

structure SequenceState where
  requestId : ℕ
  numTokens : ℕ := 0
  blockSize : ℕ
  blockTable : BlockTable
deriving DecidableEq

/-- A call on the pool and a sequence. -/
abbrev SequenceCall (α : Type) := Call (PhysicalBlockPool × SequenceState) α

namespace SequenceState

/-- The constructor; `here` is the address of the pool. -/
def new (requestId here : ℕ) (pool : PhysicalBlockPool) : SequenceState where
  requestId := requestId
  blockSize := pool.blockSize
  blockTable := ⟨some here, []⟩

def numAllocatedBlocks (s : SequenceState) : ℕ := s.blockTable.size

def lastBlockNumTokens (s : SequenceState) : ℕ :=
  if s.numTokens = 0 then 0 else (s.numTokens - 1) % s.blockSize + 1

/-- A call on the table of the sequence. -/
def onTable {α : Type} (x : TableCall α) : SequenceCall α := fun (pool, s) =>
  match x (pool, s.blockTable) with
  | .ok a (pool, t) => .ok a (pool, { s with blockTable := t })
  | .error e (pool, t) => .error e (pool, { s with blockTable := t })

/-- The tail page is partial and has another owner. -/
def sharedTail (pool : PhysicalBlockPool) (s : SequenceState) : Except Exn Bool :=
  if s.numTokens % s.blockSize = 0 then .ok false
  else (s.blockTable.refCount pool (s.blockTable.size - 1)).map fun refs => decide (refs > 1)

/-- Pages for `n` tokens. -/
def neededBlocks (s : SequenceState) (n : ℕ) : ℕ :=
  n / s.blockSize + if n % s.blockSize ≠ 0 then 1 else 0

/-- `while (size() < needed) append_new()`, with the number of rounds. -/
def appendRounds (grow : ℕ → Option Exn) : ℕ → TableCall Unit
  | 0 => pure ()
  | n + 1 => do
    let (_, t) ← get
    let _ ← BlockTable.appendNew (grow t.size)
    appendRounds grow n

/-- `append_tokens(count)`. -/
def appendTokens (grow : ℕ → Option Exn) (count : ℕ) : SequenceCall Unit := do
  let (pool, s) ← get
  if count = 0 then pure ()
  else do
    ensure (¬ count > sizeMax - s.numTokens) (.overflowError "sequence token count overflow")
    let shared ← check (s.sharedTail pool)
    ensure (¬ shared = true) (.logicError "shared partial block requires copy-on-write")
    let nextTokens := s.numTokens + count
    let originalBlocks := s.blockTable.size
    onTable (onError (appendRounds grow (s.neededBlocks nextTokens - originalBlocks))
      (BlockTable.shrinkTo originalBlocks))
    modify fun (pool, s) => (pool, { s with numTokens := nextTokens })

/-- `physical_block_id(logical_block)`. -/
def physicalBlockId (pool : PhysicalBlockPool) (s : SequenceState) (logicalBlock : ℕ) :
    Except Exn ℕ :=
  s.blockTable.physicalId pool logicalBlock

/-- `token_location(token_index)`. -/
def tokenLocation (pool : PhysicalBlockPool) (s : SequenceState) (tokenIndex : ℕ) :
    Except Exn TokenLocation :=
  if tokenIndex ≥ s.numTokens then .error (.outOfRange "token index is outside sequence")
  else (s.physicalBlockId pool (tokenIndex / s.blockSize)).map fun id =>
    ⟨id, tokenIndex % s.blockSize⟩

/-- `append_token()`. -/
def appendToken (grow : ℕ → Option Exn) : SequenceCall TokenLocation := do
  let (_, s) ← get
  appendTokens grow 1
  let (pool, s') ← get
  check (s'.tokenLocation pool s.numTokens)

/-- The loop of `fork_shared` over the entries from `logical` on, with the number of rounds. -/
def shareRounds (grow : ℕ → Option Exn) (source : BlockTable) : ℕ → ℕ → TableCall Unit
  | 0, _ => pure ()
  | n + 1, logical => do
    BlockTable.appendShared (grow logical) source logical
    shareRounds grow source n (logical + 1)

/-- `fork_shared(new_request_id)`: a throw destroys the fork. -/
def forkShared (grow : ℕ → Option Exn) (newRequestId : ℕ) (source : SequenceState) :
    Call PhysicalBlockPool SequenceState := fun pool =>
  match source.blockTable.pool with
  | none => .error (.logicError "moved-from block table has no pool") pool
  | some here =>
    let fork := new newRequestId here pool
    match onError (shareRounds grow source.blockTable source.blockTable.size 0) BlockTable.clear
        (pool, fork.blockTable) with
    | .ok _ (pool, t) => .ok { fork with numTokens := source.numTokens, blockTable := t } pool
    | .error e (pool, _) => .error e pool

/-- A `BlockCopier`: it may read the pool. An empty `std::function` is `none`. -/
abbrev BlockCopier (σ : Type) :=
  PhysicalBlockPool → PhysicalBlockHandle → PhysicalBlockHandle → Call σ Unit

/-- The copying path of `append_token_with_copy`, after `pool.allocate()`. -/
def copyTail {σ : Type} (copy : BlockCopier σ) (oldHandle newHandle : PhysicalBlockHandle) :
    Call ((PhysicalBlockPool × SequenceState) × σ) Unit := do
  let ((pool, _), _) ← get
  onSnd (copy pool oldHandle newHandle)
  onFst (onTable (BlockTable.replaceLastOwned newHandle))

/-- `append_token_with_copy(copy)`. -/
def appendTokenWithCopy {σ : Type} (grow : ℕ → Option Exn) (copy : Option (BlockCopier σ)) :
    Call ((PhysicalBlockPool × SequenceState) × σ) TokenLocation := do
  let ((pool, s), _) ← get
  ensure (s.numTokens ≠ sizeMax) (.overflowError "sequence token count overflow")
  let offset := s.numTokens % s.blockSize
  let refs ← check (if offset = 0 then .ok 1 else
    s.blockTable.refCount pool (s.blockTable.size - 1))
  if refs = 1 then onFst (appendToken grow)
  else
    match copy with
    | none => throw (.invalidArgument "copy callback is required for shared partial block")
    | some copy => do
      let oldHandle ← check (s.blockTable.handle pool (s.blockTable.size - 1))
      let newHandle ← onFst (onFst PhysicalBlockPool.allocate)
      onError (copyTail copy oldHandle newHandle) (onFst (onFst (PhysicalBlockPool.free newHandle)))
      modify fun ((pool, s), x) => ((pool, { s with numTokens := s.numTokens + 1 }), x)
      return ⟨newHandle.id, offset⟩

/-- `append_cached_full_block(handle)`. -/
def appendCachedFullBlock (grow : Option Exn) (handle : PhysicalBlockHandle) : SequenceCall Unit := do
  let (_, s) ← get
  ensure (¬ (s.numTokens % s.blockSize ≠ 0 ∨ s.blockSize > sizeMax - s.numTokens))
    (.invalidArgument "cached block requires a complete preceding prefix")
  onTable (BlockTable.appendExisting grow handle)
  modify fun (pool, s) => (pool, { s with numTokens := s.numTokens + s.blockSize })

/-- What a move leaves behind. -/
def movedFrom (s : SequenceState) : SequenceState :=
  { s with numTokens := 0, blockTable := ⟨none, []⟩ }

/-- The move assignment to another object: the old table is cleared first. -/
def moveAssign (source : SequenceState) : SequenceCall Unit := do
  onTable BlockTable.clear
  modify fun (pool, _) => (pool, source)

/-! ## Positions -/

variable {H : Tokens → UInt64} {m m' : PhysicalBlockPool} {rest : Multiset BlockHandle}
  {h : BlockHandle} {s : SequenceState} {err : Exn} {σ : Type} {x x' : σ}

/-- The table covers the tokens exactly. -/
def Covered (s : SequenceState) : Prop := s.blockTable.size = s.neededBlocks s.numTokens

/-- A position of the last covered page or before. -/
theorem lt_neededBlocks {n t : ℕ} (hb : 0 < s.blockSize) (ht : t < n) :
    t / s.blockSize < s.neededBlocks n := by
  have h₁ := Nat.div_add_mod n s.blockSize
  have h₂ := Nat.mod_lt n hb
  rw [Nat.div_lt_iff_lt_mul hb, neededBlocks]
  split_ifs with h
  · rw [Nat.add_mul, Nat.one_mul, Nat.mul_comm]
    omega
  · rw [Nat.add_zero, Nat.mul_comm]
    omega

theorem neededBlocks_mono {n k : ℕ} (h : n ≤ k) :
    s.neededBlocks n ≤ s.neededBlocks k := by
  unfold neededBlocks
  have h₁ := Nat.div_le_div_right (c := s.blockSize) h
  rcases h₁.lt_or_eq with h₁ | h₁
  · split_ifs <;> omega
  · have h₂ := Nat.div_add_mod n s.blockSize
    have h₃ := Nat.div_add_mod k s.blockSize
    rw [h₁] at h₂ ⊢
    split_ifs <;> omega

/-- The pages below the needed ones hold only earlier tokens. -/
theorem neededBlocks_le {n t : ℕ} (hn : n ≤ t)
    (h : t / s.blockSize < s.neededBlocks n) : n % s.blockSize ≠ 0 ∧
      t / s.blockSize + 1 = s.neededBlocks n := by
  have h₁ := Nat.div_le_div_right (c := s.blockSize) hn
  unfold neededBlocks at h ⊢
  split_ifs at h ⊢ with hm
  · exact ⟨hm, by omega⟩
  · omega

/-- A partial tail page takes the next token. -/
theorem neededBlocks_succ {n : ℕ} (h : n % s.blockSize ≠ 0) :
    s.neededBlocks (n + 1) = s.neededBlocks n := by
  unfold neededBlocks
  rw [Nat.succ_div, if_pos h]
  by_cases hd : s.blockSize ∣ n + 1
  · simp [hd, Nat.mod_eq_zero_of_dvd hd]
  · have : (n + 1) % s.blockSize ≠ 0 := fun h0 => hd (Nat.dvd_of_mod_eq_zero h0)
    simp [hd, this]

/-! ## Appending -/

theorem onTable_ok {α : Type} {x : TableCall α} {a : α} {t : BlockTable}
    (h : x (m, s.blockTable) = .ok a (m', t)) :
    onTable x (m, s) = .ok a (m', { s with blockTable := t }) := by
  simp only [onTable, h]

theorem onTable_error {α : Type} {x : TableCall α} {t : BlockTable}
    (h : x (m, s.blockTable) = .error err (m', t)) :
    onTable x (m, s) = .error err (m', { s with blockTable := t }) := by
  simp only [onTable, h]

/-- The loop appends `n` new pages, or throws with some of them appended. -/
theorem appendRounds_cases (grow : ℕ → Option Exn) (n : ℕ) : ∀ {m : PhysicalBlockPool}
    {t : BlockTable}, Sound H m (t.blocks + rest) →
    (∃ new m', appendRounds grow n (m, t) = .ok () (m', { t with blocks := t.blocks ++ new }) ∧
      new.length = n ∧ Sound H m' ((t.blocks ++ new : List BlockHandle) + rest) ∧
      Allocated m m' new) ∨
    (∃ err new m', appendRounds grow n (m, t) =
        .error err (m', { t with blocks := t.blocks ++ new }) ∧
      Sound H m' ((t.blocks ++ new : List BlockHandle) + rest) ∧ Shrinks m m') := by
  induction n with
  | zero =>
    intro m t hs
    left
    refine ⟨[], m, ?_, rfl, by rwa [List.append_nil], .refl m⟩
    rw [List.append_nil]
    rfl
  | succ n ih =>
    intro m t hs
    have hstep : appendRounds grow (n + 1) (m, t) =
        (BlockTable.appendNew (grow t.size) >>= fun _ => appendRounds grow n) (m, t) := rfl
    rw [hstep]
    rcases BlockTable.appendNew_cases hs (grow t.size) with ⟨h, m₁, hc, hs₁, ha⟩ |
      ⟨err, m₁, hc, hs₁, hshrink⟩
    · rw [bind_of_ok hc]
      rcases @ih m₁ { t with blocks := t.blocks ++ [h] } hs₁ with ⟨new, m₂, hc₂, hn, hs₂, ha₂⟩ |
        ⟨err, new, m₂, hc₂, hs₂, hshrink⟩
      · left
        refine ⟨h :: new, m₂, ?_, by rw [List.length_cons, hn], ?_, ha.trans hs.good ha₂⟩
        · rw [hc₂, List.append_assoc]
          rfl
        · rwa [List.append_assoc] at hs₂
      · right
        refine ⟨err, h :: new, m₂, ?_, ?_, ha.shrinks.trans hshrink⟩
        · rw [hc₂, List.append_assoc]
          rfl
        · rwa [List.append_assoc] at hs₂
    · right
      refine ⟨err, [], m₁, ?_, by rwa [List.append_nil], hshrink⟩
      rw [bind_of_error hc, List.append_nil]

/-- The sequence with `count` more tokens on the pages `new`. -/
def grown (s : SequenceState) (new : List BlockHandle) (count : ℕ) : SequenceState :=
  { s with
    numTokens := s.numTokens + count
    blockTable := { s.blockTable with blocks := s.blockTable.blocks ++ new } }

/-- **Appending tokens** takes the missing pages from the pool; a partial tail page has no other
owner. A throw changes no table. -/
theorem appendTokens_cases (hs : Sound H m (s.blockTable.blocks + rest)) (grow : ℕ → Option Exn)
    (count : ℕ) :
    (∃ new m', appendTokens grow count (m, s) = .ok () (m', s.grown new count) ∧
      Sound H m' ((s.blockTable.blocks ++ new : List BlockHandle) + rest) ∧ Allocated m m' new ∧
      (count = 0 → new = []) ∧ (count ≠ 0 → s.sharedTail m = .ok false ∧
        new.length = s.neededBlocks (s.numTokens + count) - s.blockTable.size)) ∨
    (∃ err m', appendTokens grow count (m, s) = .error err (m', s) ∧
      Sound H m' (s.blockTable.blocks + rest) ∧ Shrinks m m') := by
  by_cases h0 : count = 0
  · left
    refine ⟨[], m, ?_, by rwa [List.append_nil], .refl m, fun _ => rfl, fun h => absurd h0 h⟩
    simp [appendTokens, h0, grown]
  have hstep : appendTokens grow count (m, s) = (ensure (¬ count > sizeMax - s.numTokens)
      (Exn.overflowError "sequence token count overflow") >>= fun _ => check (s.sharedTail m) >>=
      fun shared => ensure (¬ shared = true)
        (.logicError "shared partial block requires copy-on-write") >>= fun _ =>
      onTable (onError (appendRounds grow (s.neededBlocks (s.numTokens + count) -
        s.blockTable.size)) (BlockTable.shrinkTo s.blockTable.size)) >>= fun _ =>
      modify fun (pool, s') => (pool, { s' with numTokens := s.numTokens + count })) (m, s) := by
    simp only [appendTokens, bind_apply, get_apply, if_neg h0]
  rw [hstep]
  by_cases hmax : count > sizeMax - s.numTokens
  · right
    refine ⟨.overflowError "sequence token count overflow", m, ?_, hs, .refl m⟩
    simp only [bind_apply, ensure, hmax, not_true, if_false]
  rw [bind_of_ok (ensure_apply hmax)]
  cases hshared : s.sharedTail m with
  | error err =>
    right
    exact ⟨err, m, rfl, hs, .refl m⟩
  | ok shared =>
    cases shared with
    | true =>
      right
      exact ⟨.logicError "shared partial block requires copy-on-write", m, rfl, hs, .refl m⟩
    | false =>
      rcases appendRounds_cases grow (s.neededBlocks (s.numTokens + count) - s.blockTable.size) hs
        with ⟨new, m', hc, hn, hs', ha⟩ | ⟨err, new, m₁, hc, hs₁, hshrink⟩
      · left
        refine ⟨new, m', ?_, hs', ha, fun h => absurd h h0, fun _ => ⟨by trivial, hn⟩⟩
        rw [bind_of_ok (check_ok false _), bind_of_ok (ensure_apply Bool.false_ne_true),
          bind_of_ok (onTable_ok (onError_ok.mpr hc))]
        rfl
      · right
        have hsize : s.blockTable.size = s.blockTable.blocks.length := rfl
        obtain ⟨m', hc', hs', hshrink'⟩ := BlockTable.shrinkTo_ok hs₁
          (t := { s.blockTable with blocks := s.blockTable.blocks ++ new }) rfl hsize
        refine ⟨err, m', ?_, hs', hshrink.trans hshrink'⟩
        rw [bind_of_ok (check_ok false _), bind_of_ok (ensure_apply Bool.false_ne_true),
          bind_of_error (onTable_error (onError_clean hc hc'))]

/-- The location of a token is on the page of its block. -/
theorem tokenLocation_eq (hs : Sound H m (s.blockTable.blocks + rest)) {t : ℕ}
    (ht : t < s.numTokens) (hh : s.blockTable.blocks[t / s.blockSize]? = some h) :
    s.tokenLocation m t = .ok ⟨h.id, t % s.blockSize⟩ := by
  have hmem : h ∈ (s.blockTable.blocks : Multiset BlockHandle) + rest :=
    Multiset.mem_add.mpr (.inl (List.mem_of_getElem? hh))
  rw [tokenLocation, if_neg (by omega), physicalBlockId, BlockTable.physicalId, hh]
  simp only [hs.id_eq hmem, Except.map]

theorem Covered.block (hc : s.Covered) (hb : 0 < s.blockSize) {t : ℕ} (ht : t < s.numTokens) :
    ∃ h, s.blockTable.blocks[t / s.blockSize]? = some h := by
  have := lt_neededBlocks hb ht
  rw [← hc] at this
  exact ⟨_, List.getElem?_eq_getElem this⟩

theorem Covered.grown (hc : s.Covered) {new : List BlockHandle} {count : ℕ}
    (hn : new.length = s.neededBlocks (s.numTokens + count) - s.blockTable.size) :
    (s.grown new count).Covered := by
  have hle : s.blockTable.size ≤ s.neededBlocks (s.numTokens + count) := by
    rw [hc]
    exact neededBlocks_mono (Nat.le_add_right _ _)
  show (s.blockTable.blocks ++ new).length = s.neededBlocks (s.numTokens + count)
  rw [List.length_append, hn]
  exact Nat.add_sub_cancel' hle

/-- **One more token** and where it lies. -/
theorem appendToken_cases (hs : Sound H m (s.blockTable.blocks + rest)) (hb : 0 < s.blockSize)
    (hc : s.Covered) (grow : ℕ → Option Exn) :
    (∃ new m' loc, appendToken grow (m, s) = .ok loc (m', s.grown new 1) ∧
      appendTokens grow 1 (m, s) = .ok () (m', s.grown new 1) ∧
      (s.grown new 1).tokenLocation m' s.numTokens = .ok loc) ∨
    (∃ err m', appendToken grow (m, s) = .error err (m', s) ∧
      Sound H m' (s.blockTable.blocks + rest) ∧ Shrinks m m') := by
  have hstep : appendToken grow (m, s) = (appendTokens grow 1 >>= fun _ => get >>= fun st =>
      check (st.2.tokenLocation st.1 s.numTokens)) (m, s) := rfl
  rw [hstep]
  rcases appendTokens_cases hs grow 1 with ⟨new, m', h, hs', ha, -, hn⟩ | ⟨err, m', h, hrest⟩
  · left
    have hc' : (s.grown new 1).Covered := hc.grown (hn one_ne_zero).2
    obtain ⟨g, hg⟩ := hc'.block hb (t := s.numTokens) (Nat.lt_succ_self _)
    have hloc := tokenLocation_eq (s := s.grown new 1) hs' (Nat.lt_succ_self s.numTokens) hg
    refine ⟨new, m', _, ?_, h, hloc⟩
    rw [bind_of_ok h, bind_of_ok (get_apply _), hloc]
    rfl
  · right
    exact ⟨err, m', bind_of_error h, hrest⟩

/-! ## Sharing -/

/-- The loop of `fork_shared` takes the entries `todo`. -/
theorem shareRounds_cases (grow : ℕ → Option Exn) {source : BlockTable} (n : ℕ) :
    ∀ {m : PhysicalBlockPool} {t : BlockTable} {done todo : List BlockHandle},
    Sound H m (t.blocks + rest) → source.blocks = done ++ todo → todo.length = n →
    t.pool.isSome = true → t.pool = source.pool → (∀ h ∈ source.blocks, h ∈ rest) →
    (∃ m', shareRounds grow source n done.length (m, t) =
        .ok () (m', { t with blocks := t.blocks ++ todo }) ∧
      Sound H m' ((t.blocks ++ todo : List BlockHandle) + rest) ∧ Shrinks m m') ∨
    (∃ err m' new, shareRounds grow source n done.length (m, t) =
        .error err (m', { t with blocks := t.blocks ++ new }) ∧
      Sound H m' ((t.blocks ++ new : List BlockHandle) + rest) ∧ Shrinks m m') := by
  induction n with
  | zero =>
    intro m t done todo hs _ hn _ _ _
    left
    rw [List.length_eq_zero_iff.mp hn, List.append_nil]
    exact ⟨m, rfl, hs, .refl m⟩
  | succ n ih =>
    intro m t done todo hs hsource hn hsome hpool hall
    obtain ⟨h, todo, rfl⟩ := List.exists_cons_of_length_eq_add_one hn
    have hat : source.blocks[done.length]? = some h := by
      rw [hsource, List.getElem?_append_right le_rfl, Nat.sub_self]
      rfl
    have hstep : shareRounds grow source (n + 1) done.length (m, t) =
        (BlockTable.appendExisting (grow done.length) h >>= fun _ =>
          shareRounds grow source n (done.length + 1)) (m, t) := by
      simp only [shareRounds, BlockTable.appendShared, bind_apply, get_apply,
        ensure_apply (And.intro hsome hpool), hat]
    have hmem : h ∈ (t.blocks : Multiset BlockHandle) + rest :=
      Multiset.mem_add.mpr (.inr (hall h (List.mem_of_getElem? hat)))
    rw [hstep]
    rcases BlockTable.appendExisting_cases hs (grow done.length) hmem with ⟨hc, hs₁, hshrink⟩ |
      ⟨err, m₁, hc, hs₁, hshrink⟩
    · rw [bind_of_ok hc]
      have hdone : done.length + 1 = (done ++ [h]).length := by
        rw [List.length_append, List.length_singleton]
      rw [hdone]
      rcases @ih (m.retained h.id) { t with blocks := t.blocks ++ [h] } (done ++ [h]) todo hs₁
        (by rw [hsource, List.append_assoc]; rfl) (Nat.succ.inj hn) hsome hpool hall with
        ⟨m₂, hc₂, hs₂, hshrink₂⟩ | ⟨err, m₂, new, hc₂, hs₂, hshrink₂⟩
      · left
        simp only [List.append_assoc, List.singleton_append] at hc₂ hs₂
        exact ⟨m₂, hc₂, hs₂, hshrink.trans hshrink₂⟩
      · right
        simp only [List.append_assoc, List.singleton_append] at hc₂ hs₂
        exact ⟨err, m₂, h :: new, hc₂, hs₂, hshrink.trans hshrink₂⟩
    · right
      refine ⟨err, m₁, [], ?_, by rwa [List.append_nil], hshrink⟩
      rw [bind_of_error hc, List.append_nil]

/-- **A fork** maps the same pages; a throw destroys it again. -/
theorem forkShared_cases (hs : Sound H m (s.blockTable.blocks + rest)) (grow : ℕ → Option Exn)
    (newRequestId : ℕ) :
    (∃ here m', s.blockTable.pool = some here ∧
      forkShared grow newRequestId s m =
        .ok ⟨newRequestId, s.numTokens, m.blockSize, s.blockTable⟩ m' ∧
      Sound H m' (s.blockTable.blocks + (s.blockTable.blocks + rest)) ∧ Shrinks m m') ∨
    (∃ err m', forkShared grow newRequestId s m = .error err m' ∧
      Sound H m' (s.blockTable.blocks + rest) ∧ Shrinks m m') := by
  unfold forkShared
  cases hp : s.blockTable.pool with
  | none =>
    right
    exact ⟨_, m, rfl, hs, .refl m⟩
  | some here =>
    simp only
    have hall : ∀ h ∈ s.blockTable.blocks, h ∈ (s.blockTable.blocks : Multiset BlockHandle) + rest :=
      fun h hh => Multiset.mem_add.mpr (.inl hh)
    have hs₀ : Sound H m (([] : List BlockHandle) + ((s.blockTable.blocks : Multiset BlockHandle) +
        rest)) := by
      rwa [Multiset.coe_nil, Multiset.zero_add]
    have hshare := @shareRounds_cases H _ grow s.blockTable s.blockTable.size m ⟨some here, []⟩ []
      s.blockTable.blocks hs₀ rfl rfl rfl hp.symm hall
    rcases hshare with ⟨m', hc, hs', hshrink⟩ | ⟨err, m₁, got, hc, hs₁, hshrink⟩
    · left
      have hrun : onError (shareRounds grow s.blockTable s.blockTable.size 0) BlockTable.clear
          (m, ⟨some here, []⟩) = .ok () (m', ⟨some here, s.blockTable.blocks⟩) := onError_ok.mpr hc
      refine ⟨here, m', by trivial, ?_, hs', hshrink⟩
      simp only [new, hrun]
      rw [← hp]
    · right
      obtain ⟨m', hc', hs', hshrink'⟩ := BlockTable.clear_ok (t := ⟨some here, got⟩) hs₁
      have hrun : onError (shareRounds grow s.blockTable s.blockTable.size 0) BlockTable.clear
          (m, ⟨some here, []⟩) = .error err (m', ⟨some here, []⟩) := onError_clean hc hc'
      refine ⟨err, m', ?_, hs', hshrink.trans hshrink'⟩
      simp only [new, hrun]

/-! ## Copying on write -/

/-- **The copying path**: a fresh page takes the place of the shared tail page. -/
theorem copyTail_ok {old new : BlockHandle} {blocks : List BlockHandle} {copy : BlockCopier σ}
    (hs : Sound H m (new ::ₘ ((blocks ++ [old] : List BlockHandle) + rest)))
    (hb : s.blockTable.blocks = blocks ++ [old]) (hr : (m.slots new.id).refs = 1)
    (hcached : (m.slots new.id).cached = false) (hcopy : copy m old new x = .ok () x') :
    copyTail copy old new ((m, s), x) = .ok () ((m.released old.id,
        { s with blockTable := { s.blockTable with blocks := blocks ++ [new] } }), x') ∧
      Sound H (m.released old.id) ((blocks ++ [new] : List BlockHandle) + rest) ∧
      Shrinks m (m.released old.id) := by
  obtain ⟨hc, hs', hshrink⟩ := BlockTable.replaceLastOwned_ok hs hb hr hcached
  refine ⟨?_, hs', hshrink⟩
  simp only [copyTail, bind_apply, get_apply, onSnd_apply, hcopy, onFst_apply, onTable_ok hc]

/-- The sequence with one more token and another tail page. -/
def copied (s : SequenceState) (blocks : List BlockHandle) (new : BlockHandle) : SequenceState :=
  { s with
    numTokens := s.numTokens + 1
    blockTable := { s.blockTable with blocks := blocks ++ [new] } }

/-- A sequence with a partial tail has a last block. -/
theorem Covered.concat (hc : s.Covered) (hp : s.numTokens % s.blockSize ≠ 0) :
    ∃ blocks old, s.blockTable.blocks = blocks ++ [old] := by
  have hne : s.blockTable.blocks ≠ [] := by
    intro h0
    rw [Covered, BlockTable.size, h0, neededBlocks, if_pos hp] at hc
    exact Nat.succ_ne_zero _ hc.symm
  exact ⟨_, _, (List.dropLast_append_getLast hne).symm⟩

theorem refCount_last (hs : Sound H m (s.blockTable.blocks + rest)) {blocks : List BlockHandle}
    {old : BlockHandle} (hb : s.blockTable.blocks = blocks ++ [old]) :
    s.blockTable.refCount m (s.blockTable.size - 1) = .ok (m.slots old.id).refs ∧
      s.blockTable.handle m (s.blockTable.size - 1) = .ok old := by
  have hmem : old ∈ (s.blockTable.blocks : Multiset BlockHandle) + rest :=
    Multiset.mem_add.mpr (.inl (by rw [hb]; simp))
  have hat : s.blockTable.blocks[s.blockTable.size - 1]? = some old := by
    rw [BlockTable.size, hb, List.length_append, List.length_singleton, Nat.add_sub_cancel]
    simp
  rw [BlockTable.refCount, BlockTable.handle, hat]
  simp only [hs.refCount_eq hmem, hs.id_eq hmem, Except.map]
  exact ⟨trivial, trivial⟩

/-- An unshared partial tail page has this sequence as its only owner. -/
theorem sharedTail_false (hs : Sound H m (s.blockTable.blocks + rest)) {blocks : List BlockHandle}
    {old : BlockHandle} (hb : s.blockTable.blocks = blocks ++ [old])
    (hp : s.numTokens % s.blockSize ≠ 0) (h : s.sharedTail m = .ok false) :
    (m.slots old.id).refs = 1 := by
  have hne := hs.owned.refs_pos (h := old) (Multiset.mem_add.mpr (.inl (by rw [hb]; simp)))
  rw [sharedTail, if_neg hp, (refCount_last hs hb).1] at h
  have : ¬ (m.slots old.id).refs > 1 := by simpa [Except.map] using h
  omega

/-- With a full tail page, or one of its own, the sequence appends in place. -/
theorem appendTokenWithCopy_inPlace {grow : ℕ → Option Exn} {copy : Option (BlockCopier σ)}
    (hmax : s.numTokens ≠ sizeMax) (h : s.numTokens % s.blockSize = 0 ∨
      s.blockTable.refCount m (s.blockTable.size - 1) = .ok 1) :
    appendTokenWithCopy grow copy ((m, s), x) = onFst (appendToken grow) ((m, s), x) := by
  have hrefs : (if s.numTokens % s.blockSize = 0 then .ok 1 else
      s.blockTable.refCount m (s.blockTable.size - 1) : Except Exn ℕ) = .ok 1 := by
    split_ifs with hp
    · rfl
    · exact h.resolve_left hp
  simp only [appendTokenWithCopy, bind_apply, get_apply, ensure_apply hmax, hrefs, check_ok, if_true]

/-- **With a shared partial tail page** the call takes a page, has the tail copied there and goes on
with the copy, or gives the page back. -/
theorem appendTokenWithCopy_eq (hs : Sound H m (s.blockTable.blocks + rest))
    {grow : ℕ → Option Exn} {copy : Option (BlockCopier σ)} {blocks : List BlockHandle}
    {old : BlockHandle} (hmax : s.numTokens ≠ sizeMax) (hp : s.numTokens % s.blockSize ≠ 0)
    (hblocks : s.blockTable.blocks = blocks ++ [old]) (hr : (m.slots old.id).refs ≠ 1) :
    appendTokenWithCopy grow copy ((m, s), x) =
      match copy with
      | none => .error (.invalidArgument "copy callback is required for shared partial block")
        ((m, s), x)
      | some f =>
        match PhysicalBlockPool.allocate m with
        | .error err _ => .error err ((m, s), x)
        | .ok new m₁ =>
          match f m₁ old new x with
          | .ok _ x' => .ok ⟨new.id, s.numTokens % s.blockSize⟩
            ((m₁.released old.id, s.copied blocks new), x')
          | .error err x' => .error err ((m₁.released new.id, s), x') := by
  obtain ⟨hrefs, hhandle⟩ := refCount_last hs hblocks
  cases copy with
  | none =>
    simp only [appendTokenWithCopy, bind_apply, get_apply, ensure_apply hmax, if_neg hp, hrefs,
      check_ok, if_neg hr]
    rfl
  | some f =>
    have hstep : appendTokenWithCopy grow (some f) ((m, s), x) = (do
        let newHandle ← onFst (onFst PhysicalBlockPool.allocate)
        onError (copyTail f old newHandle) (onFst (onFst (PhysicalBlockPool.free newHandle)))
        modify fun ((pool, s), x) => ((pool, { s with numTokens := s.numTokens + 1 }), x)
        return ⟨newHandle.id, s.numTokens % s.blockSize⟩ :
      Call ((PhysicalBlockPool × SequenceState) × σ) TokenLocation) ((m, s), x) := by
      simp only [appendTokenWithCopy, bind_apply, get_apply, ensure_apply hmax, if_neg hp, hrefs,
        check_ok, if_neg hr, hhandle]
    rw [hstep]
    rcases hs.allocate with ⟨new, m₁, ha, hs₁, halloc⟩ | ⟨err, ha⟩
    swap
    · simp only [bind_apply, onFst_apply, ha]
    obtain ⟨hcached, hrefs₁⟩ := halloc.fresh new List.mem_cons_self
    have ha' : (onFst (onFst PhysicalBlockPool.allocate) : Call ((PhysicalBlockPool ×
        SequenceState) × σ) BlockHandle) ((m, s), x) = .ok new ((m₁, s), x) := by
      simp only [onFst_apply, ha]
    rw [bind_of_ok ha', ha]
    simp only
    cases hcopy : f m₁ old new x with
    | ok u x' =>
      rw [hblocks] at hs₁
      obtain ⟨htail, -, -⟩ := copyTail_ok hs₁ hblocks hrefs₁ hcached hcopy
      rw [bind_of_ok (onError_ok.mpr htail)]
      rfl
    | error err x' =>
      obtain ⟨hf, -, -⟩ := hs₁.free (Multiset.mem_cons_self new _)
      have htail : copyTail f old new ((m₁, s), x) = .error err ((m₁, s), x') := by
        simp only [copyTail, bind_apply, get_apply, onSnd_apply, hcopy]
      have hclean : (onFst (onFst (PhysicalBlockPool.free new)) : Call ((PhysicalBlockPool ×
          SequenceState) × σ) PUnit) ((m₁, s), x') = .ok ⟨⟩ ((m₁.released new.id, s), x') := by
        simp only [onFst_apply, hf]
      rw [bind_of_error (onError_clean htail hclean)]

/-- The two ways such a call ends. -/
theorem appendTokenWithCopy_shared (hs : Sound H m (s.blockTable.blocks + rest))
    (grow : ℕ → Option Exn) (copy : Option (BlockCopier σ)) (x : σ) {blocks : List BlockHandle}
    {old : BlockHandle} (hmax : s.numTokens ≠ sizeMax) (hp : s.numTokens % s.blockSize ≠ 0)
    (hblocks : s.blockTable.blocks = blocks ++ [old]) (hr : (m.slots old.id).refs ≠ 1) :
    (∃ f new m₁ x', copy = some f ∧ Allocated m m₁ [new] ∧ f m₁ old new x = .ok () x' ∧
      appendTokenWithCopy grow copy ((m, s), x) =
        .ok ⟨new.id, s.numTokens % s.blockSize⟩ ((m₁.released old.id, s.copied blocks new), x') ∧
      Sound H (m₁.released old.id) ((blocks ++ [new] : List BlockHandle) + rest) ∧
      Shrinks m₁ (m₁.released old.id)) ∨
    (∃ err m' x', appendTokenWithCopy grow copy ((m, s), x) = .error err ((m', s), x') ∧
      Sound H m' (s.blockTable.blocks + rest) ∧ Shrinks m m' ∧
      (x' = x ∨ ∃ f new m₁, copy = some f ∧ Allocated m m₁ [new] ∧ Shrinks m₁ m' ∧
        f m₁ old new x = .error err x')) := by
  rw [appendTokenWithCopy_eq hs hmax hp hblocks hr]
  cases copy with
  | none => exact .inr ⟨_, m, x, rfl, hs, .refl m, .inl rfl⟩
  | some f =>
    rcases hs.allocate with ⟨new, m₁, ha, hs₁, halloc⟩ | ⟨err, ha⟩
    swap
    · right
      refine ⟨err, m, x, ?_, hs, .refl m, .inl rfl⟩
      simp only [ha]
    obtain ⟨hcached, hrefs₁⟩ := halloc.fresh new List.mem_cons_self
    simp only [ha]
    cases hcopy : f m₁ old new x with
    | ok u x' =>
      left
      rw [hblocks] at hs₁
      obtain ⟨-, hs', hshrink⟩ := copyTail_ok hs₁ hblocks hrefs₁ hcached hcopy
      exact ⟨f, new, m₁, x', rfl, halloc, hcopy, rfl, hs', hshrink⟩
    | error err x' =>
      right
      obtain ⟨-, hs', hshrink⟩ := hs₁.free (Multiset.mem_cons_self new _)
      rw [Multiset.erase_cons_head] at hs'
      exact ⟨err, m₁.released new.id, x', rfl, hs', halloc.shrinks.trans hshrink,
        .inr ⟨f, new, m₁, rfl, halloc, hshrink, hcopy⟩⟩

theorem Covered.copied (hc : s.Covered) (hp : s.numTokens % s.blockSize ≠ 0)
    {blocks : List BlockHandle} {old new : BlockHandle} (hb : s.blockTable.blocks = blocks ++ [old]) :
    (s.copied blocks new).Covered := by
  unfold Covered BlockTable.size at hc ⊢
  rw [hb, List.length_append, List.length_singleton] at hc
  show (blocks ++ [new]).length = s.neededBlocks (s.numTokens + 1)
  rw [List.length_append, List.length_singleton, hc, neededBlocks_succ hp]

/-- At the limit the call throws at once. -/
theorem appendTokenWithCopy_limit {grow : ℕ → Option Exn} {copy : Option (BlockCopier σ)}
    (hmax : s.numTokens = sizeMax) : appendTokenWithCopy grow copy ((m, s), x) =
      .error (.overflowError "sequence token count overflow") ((m, s), x) := by
  simp only [appendTokenWithCopy, bind_apply, get_apply, ensure, ne_eq, hmax, not_true, if_false]

/-- **All outcomes**: one token more on a table that covers it, or a throw that changes nothing that
anybody holds. -/
theorem appendTokenWithCopy_cases (hs : Sound H m (s.blockTable.blocks + rest))
    (hb : 0 < s.blockSize) (hc : s.Covered) (grow : ℕ → Option Exn)
    (copy : Option (BlockCopier σ)) (x : σ) :
    (∃ loc m' s' x', appendTokenWithCopy grow copy ((m, s), x) = .ok loc ((m', s'), x') ∧
      Sound H m' (s'.blockTable.blocks + rest) ∧ Shrinks m m' ∧ s'.Covered ∧
      s'.numTokens = s.numTokens + 1 ∧ s'.blockSize = s.blockSize ∧
      s'.blockTable.pool = s.blockTable.pool) ∨
    (∃ err m' x', appendTokenWithCopy grow copy ((m, s), x) = .error err ((m', s), x') ∧
      Sound H m' (s.blockTable.blocks + rest) ∧ Shrinks m m') := by
  by_cases hmax : s.numTokens = sizeMax
  · exact .inr ⟨_, m, x, appendTokenWithCopy_limit hmax, hs, .refl m⟩
  by_cases hplain : s.numTokens % s.blockSize = 0 ∨
      s.blockTable.refCount m (s.blockTable.size - 1) = .ok 1
  · rw [appendTokenWithCopy_inPlace hmax hplain, onFst_apply]
    rcases appendToken_cases hs hb hc grow with ⟨new, m', loc, h, h', -⟩ | ⟨err, m', h, hs', hshrink⟩
    · left
      rw [h]
      rcases appendTokens_cases hs grow 1 with ⟨new', m₁, h₁, hs₁, ha, -, hn⟩ | ⟨err, m₁, h₁, -⟩
      · obtain ⟨-, hst⟩ := EStateM.Result.ok.inj (h'.symm.trans h₁)
        obtain ⟨rfl, hgrown⟩ := Prod.mk.inj hst
        rw [hgrown]
        exact ⟨loc, m', _, x, rfl, hs₁, ha.shrinks, hc.grown (hn one_ne_zero).2, rfl, rfl, rfl⟩
      · rw [h'] at h₁
        cases h₁
    · rw [h]
      exact .inr ⟨err, m', x, rfl, hs', hshrink⟩
  obtain ⟨hp, hrefs⟩ := not_or.mp hplain
  obtain ⟨blocks, old, hblocks⟩ := hc.concat hp
  have hr : (m.slots old.id).refs ≠ 1 := fun he => hrefs (by rw [(refCount_last hs hblocks).1, he])
  rcases appendTokenWithCopy_shared hs grow copy x hmax hp hblocks hr with
    ⟨f, new, m₁, x', -, ha, -, h, hs', hshrink⟩ | ⟨err, m', x', h, hs', hshrink, -⟩
  · exact .inl ⟨_, _, _, x', h, hs', ha.shrinks.trans hshrink, hc.copied hp hblocks, rfl, rfl, rfl⟩
  · exact .inr ⟨err, m', x', h, hs', hshrink⟩

/-- What a copier does to a state of its own is no matter to the sequence. -/
theorem appendTokenWithCopy_projects {τ κ : Type} {π : σ → τ} (grow : ℕ → Option Exn)
    (copy : Option κ) {f : κ → BlockCopier σ} {g : κ → BlockCopier τ}
    (h : ∀ c m old new, Projects π (f c m old new) (g c m old new)) :
    Projects (Prod.map id π) (appendTokenWithCopy grow (copy.map f))
      (appendTokenWithCopy grow (copy.map g)) := by
  have htail : ∀ c old new, Projects (Prod.map id π) (copyTail (f c) old new)
      (copyTail (g c) old new) := by
    rintro c old new ⟨⟨m, s⟩, x⟩
    exact Projects.bind (.onSnd (h c m old new)) (fun _ => .onFst_beside _) ((m, s), x)
  rintro ⟨⟨m, s⟩, x⟩
  refine Projects.bind (.ensure _ _) (fun _ => .bind (.check _) fun refs => ?_) ((m, s), x)
  by_cases hr : refs = 1
  · simp only [if_pos hr]
    exact .onFst_beside _
  simp only [if_neg hr]
  cases copy with
  | none => exact .throw _
  | some c =>
    exact .bind (.check _) fun old => .bind (.onFst_beside _) fun new =>
      .bind (.onError (htail c old new) (.onFst_beside _)) fun _ =>
        .bind (.modify fun _ => rfl) fun _ => .pure _

end SequenceState

end KVFlux.V2
