import KVFlux.BlockManager.Ownership

/-!
# The physical block pool

The pages of the paged cache are the slots of a block manager; the pool renames its calls.
-/

namespace KVFlux

open Fallible

abbrev PhysicalBlockHandle := BlockHandle

abbrev PhysicalBlockPool := BlockManager

namespace PhysicalBlockPool

def new (capacity blockSize : ℕ) (hasher : Option Hasher) : Except Exn PhysicalBlockPool :=
  BlockManager.new capacity blockSize hasher

def allocate : Call PhysicalBlockPool PhysicalBlockHandle := BlockManager.allocate

def retain (handle : PhysicalBlockHandle) : Call PhysicalBlockPool Unit :=
  BlockManager.retain handle

def free (handle : PhysicalBlockHandle) : Call PhysicalBlockPool Unit :=
  BlockManager.release handle

def publish (hasher : Hasher) (handle : PhysicalBlockHandle) (p : Tokens) :
    Call PhysicalBlockPool Unit :=
  BlockManager.publish hasher handle p

def lookup (hasher : Hasher) (p : Tokens) : Call PhysicalBlockPool (Option PhysicalBlockHandle) :=
  BlockManager.lookup hasher p

def isPublished (pool : PhysicalBlockPool) (handle : PhysicalBlockHandle) : Except Exn Bool :=
  BlockManager.isPublished pool handle

def refCount (pool : PhysicalBlockPool) (handle : PhysicalBlockHandle) : Except Exn ℕ :=
  BlockManager.refCount pool handle

/-- `id(handle)`: the page number of a referenced page. -/
def id (pool : PhysicalBlockPool) (handle : PhysicalBlockHandle) : Except Exn ℕ :=
  match pool.refCount handle with
  | .error e => .error e
  | .ok refs =>
    if refs = 0 then .error (.invalidArgument "physical block has no active reference")
    else .ok handle.id

/-- A call with its arguments. -/
inductive Op
  | allocate
  | retain (handle : PhysicalBlockHandle)
  | free (handle : PhysicalBlockHandle)
  | publish (handle : PhysicalBlockHandle) (p : Tokens)
  | lookup (p : Tokens)

/-- The state after a call, also after one that throws. -/
def Op.exec (hasher : Hasher) (pool : PhysicalBlockPool) : Op → PhysicalBlockPool
  | .allocate => finalState (PhysicalBlockPool.allocate pool)
  | .retain handle => finalState (PhysicalBlockPool.retain handle pool)
  | .free handle => finalState (PhysicalBlockPool.free handle pool)
  | .publish handle p => finalState (PhysicalBlockPool.publish hasher handle p pool)
  | .lookup p => finalState (PhysicalBlockPool.lookup hasher p pool)

/-- Call after call. -/
def run (pool : PhysicalBlockPool) (ops : List (Hasher × Op)) : PhysicalBlockPool :=
  ops.foldl (fun pool c => c.2.exec c.1 pool) pool

/-- `available()`: free pages and cached pages without references. -/
def available (pool : PhysicalBlockPool) : ℕ :=
  pool.stats.free + pool.stats.cachedIdle

end PhysicalBlockPool

end KVFlux
