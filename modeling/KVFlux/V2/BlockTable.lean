import KVFlux.V2.PoolLedger

/-!
# Block tables of the paged cache

A table maps the logical blocks of one sequence to pages of a pool and owns one reference for each
entry.

* `BlockTable`: the pool is named by its address and absent after a move.
* `appendNew`, `appendExisting`, `appendShared`, `popBack`, `replaceLastOwned`, `clear`: the calls.
  `grow` is what the growth of the vector throws, if it does.
* **`appendNew_cases`**, **`appendExisting_cases`**, **`shrinkTo_ok`**, **`clear_ok`**: what they
  do to the ledger of references.
-/

namespace KVFlux.V2

open Fallible BlockManager

structure BlockTable where
  pool : Option ℕ
  blocks : List PhysicalBlockHandle := []
deriving DecidableEq

/-- The exception of `vector::at`. -/
def rangeCheck : Exn := .outOfRange "vector::_M_range_check"

/-- A call on the pool and a table. -/
abbrev TableCall (α : Type) := Call (PhysicalBlockPool × BlockTable) α

namespace BlockTable

def size (t : BlockTable) : ℕ := t.blocks.length

/-- `blocks_.push_back(handle)`. -/
def push (grow : Option Exn) (handle : PhysicalBlockHandle) : TableCall Unit := fun (pool, t) =>
  match grow with
  | some err => .error err (pool, t)
  | none => .ok () (pool, { t with blocks := t.blocks ++ [handle] })

/-- `append_new()`. -/
def appendNew (grow : Option Exn) : TableCall ℕ := do
  let (_, t) ← get
  ensure (t.pool.isSome = true) (.logicError "cannot append to a moved-from block table")
  let handle ← onFst PhysicalBlockPool.allocate
  onError (push grow handle) (onFst (PhysicalBlockPool.free handle))
  return handle.id

/-- `append_existing(handle)`. -/
def appendExisting (grow : Option Exn) (handle : PhysicalBlockHandle) : TableCall Unit := do
  let (_, t) ← get
  ensure (t.pool.isSome = true) (.logicError "cannot append to a moved-from block table")
  onFst (PhysicalBlockPool.retain handle)
  onError (push grow handle) (onFst (PhysicalBlockPool.free handle))

/-- `append_shared(source, logical_block)`. -/
def appendShared (grow : Option Exn) (source : BlockTable) (logicalBlock : ℕ) : TableCall Unit := do
  let (_, t) ← get
  ensure (t.pool.isSome = true ∧ t.pool = source.pool)
    (.invalidArgument "block tables must use the same physical pool")
  match source.blocks[logicalBlock]? with
  | none => throw rangeCheck
  | some handle => appendExisting grow handle

/-- `physical_id(logical_block)`. -/
def physicalId (pool : PhysicalBlockPool) (t : BlockTable) (logicalBlock : ℕ) : Except Exn ℕ :=
  match t.blocks[logicalBlock]? with
  | none => .error rangeCheck
  | some handle => pool.id handle

/-- `handle(logical_block)`. -/
def handle (pool : PhysicalBlockPool) (t : BlockTable) (logicalBlock : ℕ) :
    Except Exn PhysicalBlockHandle :=
  match t.blocks[logicalBlock]? with
  | none => .error rangeCheck
  | some handle => (pool.id handle).map fun _ => handle

/-- `ref_count(logical_block)`. -/
def refCount (pool : PhysicalBlockPool) (t : BlockTable) (logicalBlock : ℕ) : Except Exn ℕ :=
  match t.blocks[logicalBlock]? with
  | none => .error rangeCheck
  | some handle => pool.refCount handle

/-- `pop_back()`. -/
def popBack : TableCall Unit := do
  let (_, t) ← get
  match t.blocks.getLast? with
  | none => throw (.outOfRange "block table is empty")
  | some handle => do
    onFst (PhysicalBlockPool.free handle)
    modify fun (pool, t) => (pool, { t with blocks := t.blocks.dropLast })

/-- `replace_last_owned(new_handle)`. -/
def replaceLastOwned (newHandle : PhysicalBlockHandle) : TableCall Unit := do
  let (pool, t) ← get
  match t.blocks.getLast? with
  | none => throw (.outOfRange "block table is empty")
  | some oldHandle => do
    let _ ← check (pool.id newHandle)
    let refs ← check (pool.refCount newHandle)
    let published ← check (pool.isPublished newHandle)
    ensure (¬ (newHandle = oldHandle ∨ refs ≠ 1 ∨ published = true))
      (.invalidArgument "replacement block must be private and unpublished")
    onFst (PhysicalBlockPool.free oldHandle)
    modify fun (pool, t) => (pool, { t with blocks := t.blocks.dropLast ++ [newHandle] })

/-- `clear()`. -/
def clear : TableCall Unit := do
  let (_, t) ← get
  onFst (releaseAll t.blocks)
  modify fun (pool, t) => (pool, { t with blocks := [] })

/-- `while (size() > n) pop_back()`, with the number of rounds. -/
def popRounds : ℕ → TableCall Unit
  | 0 => pure ()
  | n + 1 => do popBack; popRounds n

/-- The loop that shrinks a table to `n` entries. -/
def shrinkTo (n : ℕ) : TableCall Unit := do
  let (_, t) ← get
  popRounds (t.size - n)

end BlockTable

/-! ## The calls on a sound pool -/

namespace BlockTable

variable {H : Tokens → UInt64} {m m' : PhysicalBlockPool} {rest : Multiset BlockHandle}
  {h : BlockHandle} {t : BlockTable} {err : Exn}

/-- **A new entry** is the next page of the pool. -/
theorem appendNew_cases (hs : Sound H m (t.blocks + rest)) (grow : Option Exn) :
    (∃ h m', appendNew grow (m, t) = .ok h.id (m', { t with blocks := t.blocks ++ [h] }) ∧
      Sound H m' ((t.blocks ++ [h] : List BlockHandle) + rest) ∧ Allocated m m' [h]) ∨
    (∃ err m', appendNew grow (m, t) = .error err (m', t) ∧ Sound H m' (t.blocks + rest) ∧
      Shrinks m m') := by
  by_cases hp : t.pool.isSome = true
  swap
  · right
    refine ⟨.logicError "cannot append to a moved-from block table", m, ?_, hs, .refl m⟩
    simp only [appendNew, bind_apply, get_apply, ensure, if_neg hp]
  rcases hs.allocate with ⟨h, m', ha, hs', halloc⟩ | ⟨err, ha⟩
  · cases grow with
    | none =>
      left
      refine ⟨h, m', ?_, by rw [coe_append_singleton]; exact hs', halloc⟩
      simp only [appendNew, bind_apply, get_apply, ensure, if_pos hp, onFst_apply, ha, onError, push,
        pure_apply]
    | some err =>
      right
      obtain ⟨hf, hs'', hshrink⟩ := hs'.free (Multiset.mem_cons_self h _)
      rw [Multiset.erase_cons_head] at hs''
      refine ⟨err, _, ?_, hs'', halloc.shrinks.trans hshrink⟩
      simp only [appendNew, bind_apply, get_apply, ensure, if_pos hp, onFst_apply, ha, onError, push,
        hf]
  · right
    refine ⟨err, m, ?_, hs, .refl m⟩
    simp only [appendNew, bind_apply, get_apply, ensure, if_pos hp, onFst_apply, ha]

/-- An existing page gets one more owner. -/
theorem appendExisting_cases (hs : Sound H m (t.blocks + rest)) (grow : Option Exn)
    (hh : h ∈ (t.blocks : Multiset BlockHandle) + rest) :
    (appendExisting grow h (m, t) =
        .ok () (m.retained h.id, { t with blocks := t.blocks ++ [h] }) ∧
      Sound H (m.retained h.id) ((t.blocks ++ [h] : List BlockHandle) + rest) ∧
      Shrinks m (m.retained h.id)) ∨
    (∃ err m', appendExisting grow h (m, t) = .error err (m', t) ∧ Sound H m' (t.blocks + rest) ∧
      Shrinks m m') := by
  by_cases hp : t.pool.isSome = true
  swap
  · right
    refine ⟨.logicError "cannot append to a moved-from block table", m, ?_, hs, .refl m⟩
    simp only [appendExisting, bind_apply, get_apply, ensure, if_neg hp]
  rcases hs.retain hh with ⟨ha, hs', hshrink⟩ | ⟨err, ha⟩
  · cases grow with
    | none =>
      left
      refine ⟨?_, by rw [coe_append_singleton]; exact hs', hshrink⟩
      simp only [appendExisting, bind_apply, get_apply, ensure, if_pos hp, onFst_apply, ha, onError,
        push]
    | some err =>
      right
      obtain ⟨hf, hs'', hshrink'⟩ := hs'.free (Multiset.mem_cons_self h _)
      rw [Multiset.erase_cons_head] at hs''
      refine ⟨err, _, ?_, hs'', hshrink.trans hshrink'⟩
      simp only [appendExisting, bind_apply, get_apply, ensure, if_pos hp, onFst_apply, ha, onError,
        push, hf]
  · right
    refine ⟨err, m, ?_, hs, .refl m⟩
    simp only [appendExisting, bind_apply, get_apply, ensure, if_pos hp, onFst_apply, ha]

theorem popBack_ok {blocks : List BlockHandle} (hs : Sound H m ((blocks ++ [h] : List BlockHandle) + rest))
    (hb : t.blocks = blocks ++ [h]) : ∃ m', popBack (m, t) = .ok () (m', { t with blocks := blocks }) ∧
      m' = m.released h.id ∧ Sound H m' (blocks + rest) ∧ Shrinks m m' := by
  rw [coe_append_singleton] at hs
  obtain ⟨hf, hs', hshrink⟩ := hs.free (Multiset.mem_cons_self h _)
  rw [Multiset.erase_cons_head] at hs'
  refine ⟨_, ?_, rfl, hs', hshrink⟩
  simp only [popBack, bind_apply, get_apply, hb, List.getLast?_concat, onFst_apply, hf,
    modify_apply, List.dropLast_concat]

/-- The rounds that take the new entries off again. -/
theorem popRounds_ok (hs' : List BlockHandle) : ∀ {m : PhysicalBlockPool} {t : BlockTable}
    {blocks : List BlockHandle}, Sound H m ((blocks ++ hs' : List BlockHandle) + rest) →
    t.blocks = blocks ++ hs' → ∃ m', popRounds hs'.length (m, t) =
      .ok () (m', { t with blocks := blocks }) ∧ Sound H m' (blocks + rest) ∧ Shrinks m m' := by
  induction hs' using List.reverseRecOn with
  | nil =>
    intro m t blocks hs hb
    rw [List.append_nil] at hs hb
    exact ⟨m, by rw [← hb]; rfl, hs, .refl m⟩
  | append_singleton hs' h ih =>
    intro m t blocks hs hb
    rw [← List.append_assoc] at hs hb
    obtain ⟨m₁, h₁, -, hs₁, hshrink⟩ := popBack_ok hs hb
    obtain ⟨m₂, h₂, hs₂, hshrink'⟩ := @ih m₁ { t with blocks := blocks ++ hs' } blocks hs₁ rfl
    refine ⟨m₂, ?_, hs₂, hshrink.trans hshrink'⟩
    rw [List.length_append, List.length_singleton]
    show (popBack >>= fun _ => popRounds hs'.length) (m, t) = _
    rw [bind_of_ok h₁]
    exact h₂

theorem shrinkTo_ok {blocks hs' : List BlockHandle} {n : ℕ}
    (hs : Sound H m ((blocks ++ hs' : List BlockHandle) + rest)) (hb : t.blocks = blocks ++ hs')
    (hn : n = blocks.length) : ∃ m', shrinkTo n (m, t) = .ok () (m', { t with blocks := blocks }) ∧
      Sound H m' (blocks + rest) ∧ Shrinks m m' := by
  obtain ⟨m', h, hrest⟩ := popRounds_ok hs' hs hb
  refine ⟨m', ?_, hrest⟩
  have hlen : t.size - n = hs'.length := by
    rw [size, hb, List.length_append, hn]
    omega
  simp only [shrinkTo, bind_apply, get_apply, hlen]
  exact h

/-- A private unpublished page takes the place of the last entry. -/
theorem replaceLastOwned_ok {blocks : List BlockHandle} {h' : BlockHandle}
    (hs : Sound H m (h' ::ₘ ((blocks ++ [h] : List BlockHandle) + rest)))
    (hb : t.blocks = blocks ++ [h]) (hr : (m.slots h'.id).refs = 1)
    (hc : (m.slots h'.id).cached = false) :
    replaceLastOwned h' (m, t) = .ok () (m.released h.id, { t with blocks := blocks ++ [h'] }) ∧
      Sound H (m.released h.id) ((blocks ++ [h'] : List BlockHandle) + rest) ∧
      Shrinks m (m.released h.id) := by
  have hmem : h' ∈ h' ::ₘ ((blocks ++ [h] : List BlockHandle) + rest) := Multiset.mem_cons_self _ _
  have hne : h' ≠ h := fun he => hs.private_notMem hr h
    (by rw [coe_append_singleton]; exact Multiset.mem_cons_self _ _) (congrArg BlockHandle.id he.symm)
  have hs' : Sound H m (h ::ₘ (h' ::ₘ ((blocks : Multiset BlockHandle) + rest))) := by
    rwa [coe_append_singleton, Multiset.cons_swap] at hs
  obtain ⟨hf, hs'', hshrink⟩ := hs'.free (Multiset.mem_cons_self _ _)
  rw [Multiset.erase_cons_head, ← coe_append_singleton] at hs''
  refine ⟨?_, hs'', hshrink⟩
  have hgo : ¬ (h' = h ∨ (m.slots h'.id).refs ≠ 1 ∨ (m.slots h'.id).cached = true) := by
    simp [hne, hr, hc]
  simp only [replaceLastOwned, bind_apply, get_apply, hb, List.getLast?_concat, hs.id_eq hmem,
    hs.refCount_eq hmem, hs.isPublished_eq hmem, check_ok, ensure_apply hgo, onFst_apply, hf,
    modify_apply, List.dropLast_concat]

/-- A table gives all its references back. -/
theorem clear_ok (hs : Sound H m (t.blocks + rest)) : ∃ m',
    clear (m, t) = .ok () (m', { t with blocks := [] }) ∧ Sound H m' rest ∧ Shrinks m m' := by
  obtain ⟨m', h, hs', hshrink⟩ := hs.releaseAll t.blocks
  refine ⟨m', ?_, hs', hshrink⟩
  simp only [clear, bind_apply, get_apply, onFst_apply, h, modify_apply]

end BlockTable

end KVFlux.V2
