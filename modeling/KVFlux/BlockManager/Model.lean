import KVFlux.Basic
import KVFlux.IndexLru

/-!
# The block manager

Slots with reference counts and generations, a free list threaded through the slots, an LRU list
of idle cached blocks, and an index from prefix hashes to slot ids.

* `allocate`, `retain`, `release`, `publish`, `lookup`: the calls on single blocks.
* `acquire`, `share`, `releaseTable`, `blockAt`: the calls on block tables.
* `stats`, `prefixHash`.

The hasher is an argument of the calls that use it: it may throw.
-/

namespace KVFlux

open Fallible

/-- A slot id and the generation that tells the lifetimes of a slot apart. -/
structure BlockHandle where
  id : ℕ
  generation : ℕ
deriving DecidableEq, Repr

/-- The blocks of one sequence; copying a table takes no references. -/
structure BlockTable where
  blocks : List BlockHandle := []
  tokenCount : ℕ := 0
deriving DecidableEq, Repr

/-- An injected hash function. -/
abbrev Hasher := Tokens → Except Exn UInt64

structure BlockManager.Slot where
  generation : ℕ := 0
  refs : ℕ := 0
  free : Bool := true
  cached : Bool := false
  prefixTokens : Tokens := []
  hash : UInt64 := 0
  nextFree : Option ℕ := none
deriving DecidableEq, Repr

/-- `slots` is total; only the ids below `capacity` are slots of the vector. -/
structure BlockManager where
  capacity : ℕ
  blockSize : ℕ
  slots : ℕ → BlockManager.Slot
  freeHead : Option ℕ
  idleLru : IndexLru := {}
  index : UInt64 → Option (List ℕ) := fun _ => none

namespace BlockManager

/-- The free list starts in id order. -/
def init (capacity blockSize : ℕ) : BlockManager where
  capacity := capacity
  blockSize := blockSize
  slots i := { nextFree := if i + 1 < capacity then some (i + 1) else none }
  freeHead := some 0

/-- The constructor; an empty `std::function` is `none`. -/
def new (capacity blockSize : ℕ) (hasher : Option Hasher) : Except Exn BlockManager :=
  if capacity = 0 ∨ blockSize = 0 ∨ hasher.isNone then
    .error (.invalidArgument "capacity, block size and hasher must be valid")
  else .ok (init capacity blockSize)

def setSlot (m : BlockManager) (id : ℕ) (s : Slot) : BlockManager :=
  { m with slots := Function.update m.slots id s }

/-- The handle names a live block of the current generation. -/
def Valid (m : BlockManager) (h : BlockHandle) : Prop :=
  h.id < m.capacity ∧ (m.slots h.id).free = false ∧ (m.slots h.id).generation = h.generation

instance (m : BlockManager) (h : BlockHandle) : Decidable (m.Valid h) := by
  unfold Valid; infer_instance

def staleHandle : Exn := .invalidArgument "invalid or stale block handle"

/-- `checked(h)`. -/
def checked (m : BlockManager) (h : BlockHandle) : Except Exn Slot :=
  if m.Valid h then .ok (m.slots h.id) else .error staleHandle

def unlinkIdle (m : BlockManager) (id : ℕ) : BlockManager :=
  { m with idleLru := m.idleLru.erase id }

def appendIdle (m : BlockManager) (id : ℕ) : BlockManager :=
  { m with idleLru := m.idleLru.touch id }

/-- Take `id` out of its bucket, dropping an empty bucket, and clear its prefix. -/
def eraseCache (m : BlockManager) (id : ℕ) : BlockManager :=
  let s := m.slots id
  let bucket := ((m.index s.hash).getD []).erase id
  let m := { m with
    index := Function.update m.index s.hash (if bucket.isEmpty then none else some bucket) }
  m.setSlot id { s with cached := false, prefixTokens := [] }

/-- `allocate()`: the head of the free list, else the oldest idle cached block. -/
def allocate : Call BlockManager BlockHandle := fun m =>
  match m.freeHead <|> m.idleLru.oldest with
  | none => .error .capacityError m
  | some id =>
    let s := m.slots id
    if s.generation = u64Max then .error (.overflowError "block generation exhausted") m
    else
      let m :=
        if s.free then
          { m.setSlot id { s with nextFree := none } with freeHead := s.nextFree }
        else (m.unlinkIdle id).eraseCache id
      let s := m.slots id
      .ok ⟨id, s.generation + 1⟩
        (m.setSlot id { s with free := false, refs := 1, generation := s.generation + 1 })

/-- `retain(h)`: a block at zero references leaves the idle list. -/
def retain (h : BlockHandle) : Call BlockManager Unit := fun m =>
  match m.checked h with
  | .error e => .error e m
  | .ok s =>
    if s.refs = sizeMax then .error (.overflowError "reference count exhausted") m
    else
      let m := if s.refs = 0 then m.unlinkIdle h.id else m
      .ok () (m.setSlot h.id { s with refs := s.refs + 1 })

/-- `release(h)`: at zero references a cached block turns idle, any other block turns free. -/
def release (h : BlockHandle) : Call BlockManager Unit := fun m =>
  match m.checked h with
  | .error e => .error e m
  | .ok s =>
    if s.refs = 0 then .error (.invalidArgument "block already released") m
    else
      let s := { s with refs := s.refs - 1 }
      if s.refs ≠ 0 then .ok () (m.setSlot h.id s)
      else if s.cached then .ok () ((m.setSlot h.id s).appendIdle h.id)
      else
        .ok () { m.setSlot h.id { s with free := true, nextFree := m.freeHead } with
          freeHead := some h.id }

/-- `ref_count(h)`. -/
def refCount (m : BlockManager) (h : BlockHandle) : Except Exn ℕ :=
  (m.checked h).map Slot.refs

/-- `is_published(h)`. -/
def isPublished (m : BlockManager) (h : BlockHandle) : Except Exn Bool :=
  (m.checked h).map Slot.cached

/-- `publish(h, prefix)`: enter a private block with a full prefix into the index. -/
def publish (hasher : Hasher) (h : BlockHandle) (p : Tokens) : Call BlockManager Unit := fun m =>
  match m.checked h with
  | .error e => .error e m
  | .ok s =>
    if s.refs ≠ 1 ∨ s.cached ∨ p = [] ∨ p.length % m.blockSize ≠ 0 then
      .error (.invalidArgument "publish requires a private block and a full prefix") m
    else
      match hasher p with
      | .error e => .error e m
      | .ok hash =>
        let bucket := (m.index hash).getD []
        if bucket.any fun id => (m.slots id).prefixTokens = p then
          .error (.invalidArgument "prefix already published; use lookup") m
        else
          .ok () ({ m with index := Function.update m.index hash (some (bucket ++ [h.id])) }.setSlot
            h.id { s with prefixTokens := p, hash := hash, cached := true })

/-- `lookup(prefix, out)`: a hit takes a reference; `none` stands for `false`. -/
def lookup (hasher : Hasher) (p : Tokens) : Call BlockManager (Option BlockHandle) := fun m =>
  if p = [] ∨ p.length % m.blockSize ≠ 0 then .ok none m
  else
    match hasher p with
    | .error e => .error e m
    | .ok hash =>
      match ((m.index hash).getD []).find? fun id => (m.slots id).prefixTokens = p with
      | none => .ok none m
      | some id =>
        let h : BlockHandle := ⟨id, (m.slots id).generation⟩
        match retain h m with
        | .ok _ m => .ok (some h) m
        | .error e m => .error e m

/-! ## Block tables -/

/-- `for (auto h : blocks) release(h)`. -/
def releaseAll : List BlockHandle → Call BlockManager Unit
  | [] => pure ()
  | h :: hs => do release h; releaseAll hs

/-- One block of `acquire`: `table.blocks` is part of the state, so that the handler sees it. -/
def acquireBlock (hasher : Hasher) (p : Tokens) (full : Bool) :
    Call (BlockManager × List BlockHandle) Unit := do
  let hit ← (if full then onFst (lookup hasher p) else pure none :
    Call (BlockManager × List BlockHandle) (Option BlockHandle))
  match hit with
  | some h => modify fun (m, blocks) => (m, blocks ++ [h])
  | none => do
    let h ← onFst allocate
    modify fun (m, blocks) => (m, blocks ++ [h])
    if full then onFst (publish hasher h p) else pure ()

/-- The loop of `acquire` over the tokens not yet covered; `p` is the prefix covered so far. Every
round covers at least one token, so `rest.length` rounds are enough. -/
def acquireLoop (hasher : Hasher) (blockSize : ℕ) :
    ℕ → Tokens → Tokens → Call (BlockManager × List BlockHandle) Unit
  | 0, _, _ => pure ()
  | fuel + 1, p, rest =>
    if rest = [] then pure ()
    else do
      let count := min blockSize rest.length
      let p := p ++ rest.take count
      acquireBlock hasher p (count = blockSize)
      acquireLoop hasher blockSize fuel p (rest.drop count)

/-- `acquire(tokens)`: full blocks are looked up or published, the tail stays private. A throw
releases the references taken so far. -/
def acquire (hasher : Hasher) (tokens : Tokens) : Call BlockManager BlockTable := fun m =>
  match acquireLoop hasher m.blockSize tokens.length [] tokens (m, []) with
  | .ok _ (m, blocks) => .ok ⟨blocks, tokens.length⟩ m
  | .error e (m, blocks) =>
    match releaseAll blocks m with
    | .ok _ m => .error e m
    | .error e' m => .error e' m

/-- The loops of `validate`: every block is owned and occurs once. -/
def validateBlocks (m : BlockManager) : List BlockHandle → List BlockHandle → Except Exn Unit
  | _, [] => .ok ()
  | seen, h :: hs =>
    match m.checked h with
    | .error e => .error e
    | .ok s =>
      if s.refs = 0 then .error (.invalidArgument "unowned block")
      else if h ∈ seen then .error (.invalidArgument "duplicate block")
      else m.validateBlocks (seen ++ [h]) hs

/-- `validate(table)`. -/
def validate (m : BlockManager) (table : BlockTable) : Except Exn Unit :=
  let expected := table.tokenCount / m.blockSize +
    (if table.tokenCount % m.blockSize ≠ 0 then 1 else 0)
  if expected ≠ table.blocks.length then .error (.invalidArgument "invalid block table size")
  else m.validateBlocks [] table.blocks

/-- The loop of `share`; a throw releases the blocks retained so far. -/
def retainAll : List BlockHandle → List BlockHandle → Call BlockManager Unit
  | _, [] => pure ()
  | done, h :: hs => do
    onError (retain h) (releaseAll done)
    retainAll (done ++ [h]) hs

/-- `share(table)`. -/
def share (table : BlockTable) : Call BlockManager BlockTable := do
  let m ← get
  check (m.validate table)
  retainAll [] table.blocks
  return table

/-- `release(table)`: the whole table is validated first. The caller's table is emptied. -/
def releaseTable (table : BlockTable) : Call BlockManager BlockTable := do
  let m ← get
  check (m.validate table)
  releaseAll table.blocks
  return {}

/-- `block_at(table, token_index)`: a borrowed handle. -/
def blockAt (m : BlockManager) (table : BlockTable) (tokenIndex : ℕ) : Except Exn BlockHandle :=
  if tokenIndex ≥ table.tokenCount then .error (.outOfRange "token index out of range")
  else
    match table.blocks[tokenIndex / m.blockSize]? with
    | none => .error (.outOfRange "vector::_M_range_check")
    | some h =>
      match m.checked h with
      | .error e => .error e
      | .ok s => if s.refs = 0 then .error (.invalidArgument "unowned block") else .ok h

structure Stats where
  capacity : ℕ
  free : ℕ
  active : ℕ
  cachedIdle : ℕ
deriving DecidableEq, Repr

/-- `stats()`: one pass over the slots. -/
def stats (m : BlockManager) : Stats :=
  (List.range m.capacity).foldl (fun r i =>
    let s := m.slots i
    if s.free then { r with free := r.free + 1 }
    else if s.refs ≠ 0 then { r with active := r.active + 1 }
    else { r with cachedIdle := r.cachedIdle + 1 }) ⟨m.capacity, 0, 0, 0⟩

/-- `prefix_hash`: FNV-1a over the little-endian bytes of the tokens. -/
def prefixHash (p : Tokens) : UInt64 :=
  p.foldl (fun hash token =>
    ([0, 8, 16, 24] : List UInt32).foldl (fun hash shift =>
      (hash ^^^ ((token.toUInt32 >>> shift) &&& 0xff).toUInt64) * 1099511628211) hash)
    14695981039346656037

end BlockManager

end KVFlux
