import KVFlux.Lib.Fallible

/-!
# Tokens, bounds and exceptions

* `Token`, `Tokens`: 32-bit signed tokens; `Bytes`: byte strings.
* `sizeMax`, `u64Max`: the largest `size_t` and `uint64_t`.
* `Exn`: the exceptions of the library with their texts; `Call σ α` is a call on a state `σ`.
-/

namespace KVFlux

/-- `std::int32_t`. -/
abbrev Token := Int32

abbrev Tokens := List Token

abbrev Bytes := List UInt8

/-- `std::numeric_limits<std::size_t>::max()`. -/
def sizeMax : ℕ := 2 ^ 64 - 1

/-- `std::numeric_limits<std::uint64_t>::max()`. -/
def u64Max : ℕ := 2 ^ 64 - 1

/-- What a call can throw. `capacityError` carries the fixed text of `CapacityError`; the text of
`ChunkStoreError` ends in the system's description of `errno`, which is left out. -/
inductive Exn
  | invalidArgument (what : String)
  | logicError (what : String)
  | outOfRange (what : String)
  | overflowError (what : String)
  | runtimeError (what : String)
  | capacityError
  | chunkStoreError (operation path : String)
  | chunkCorruptError (what : String)
  | chunkMissError (what : String)
  | chunkQuotaError (what : String)
deriving DecidableEq, Repr

/-- `what()`. -/
def Exn.what : Exn → String
  | .invalidArgument w | .logicError w | .outOfRange w | .overflowError w | .runtimeError w => w
  | .capacityError => "no reclaimable KV block"
  | .chunkStoreError operation path => operation ++ " failed for " ++ path ++ ": "
  | .chunkCorruptError w | .chunkMissError w | .chunkQuotaError w => w

/-- A call on a state `σ`; a throw keeps the state reached so far. -/
abbrev Call (σ α : Type) := EStateM Exn σ α

end KVFlux
