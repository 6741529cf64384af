import KVFlux.Lib.Chain
import KVFlux.Lib.Fallible
import KVFlux.Basic
import KVFlux.IndexLru
import KVFlux.BlockManager.Model
import KVFlux.BlockManager.Invariant
import KVFlux.BlockManager.Ops
import KVFlux.BlockManager.Run
import KVFlux.BlockManager.Ownership
import KVFlux.PhysicalBlockPool
import KVFlux.V3.Tier
import KVFlux.V3.TierInvariant
import KVFlux.Lib.Assoc
import KVFlux.V3.CacheDirectory
import KVFlux.V3.Agreement
import KVFlux.V3.DirectoryRun
import KVFlux.Lib.LittleEndian
import KVFlux.V3.ChunkCodec
import KVFlux.V3.ChunkFileStore
import KVFlux.V3.Migration.Model
import KVFlux.Lib.Transition
import KVFlux.V3.Migration.Step
import KVFlux.V3.Migration.Locks
import KVFlux.V3.Migration.Effect
import KVFlux.V3.Migration.Calls
import KVFlux.V3.Migration.Invariant
import KVFlux.V3.Migration.Tasks
import KVFlux.V3.Migration.TransferEnd
import KVFlux.V3.Migration.Exclusive
import KVFlux.V3.Migration.Wakeup
import KVFlux.V3.Migration.Lifecycle
import KVFlux.V3.Migration.Cancel
import KVFlux.V3.Migration.Discipline
import KVFlux.V3.Migration.Quota
import KVFlux.BlockManager.Tables
import KVFlux.BlockManager.Acquire
import KVFlux.BlockManager.Session
import KVFlux.BlockManager.Publications
import KVFlux.V3.ChunkFormat
import KVFlux.V3.ChunkFiles
import KVFlux.V3.StoreCrash
import KVFlux.V3.StoreRecovery
import KVFlux.V3.Migration.Determined
import KVFlux.V3.Migration.Content
import KVFlux.BlockManager.Calls
import KVFlux.BlockManager.SlotLog
import KVFlux.BlockManager.Lifetimes
import KVFlux.BlockManager.Replacement
import KVFlux.BlockManager.Capacity
import KVFlux.V3.Migration.Exact
import KVFlux.V3.Migration.FailedStart
import KVFlux.V3.Migration.Alone
import KVFlux.V3.Migration.Synchronous
import KVFlux.V2.BlockTable
import KVFlux.BlockManager.ReclaimOrder
import KVFlux.V2.SequenceState
import KVFlux.V2.PrefixCache
import KVFlux.V2.Requests
import KVFlux.V2.CopyOnWrite
import KVFlux.V2.IndependentArrays
import KVFlux.V2.PublishOrder
import KVFlux.V2.AppendExact
import KVFlux.V2.LongestPrefix
import KVFlux.V2.CopyExact
import KVFlux.V2.PagedKVLayout
import KVFlux.GpuMemoryPool
import KVFlux.Lib.Grid
import KVFlux.V2.PagedKVStorage
import KVFlux.V2.SlotMapping
import KVFlux.V2.Device
import KVFlux.V2.PagedKernels
import KVFlux.V2.BatchBlockTable
import KVFlux.V2.PagedAttention
import KVFlux.V2.ReferenceAttention
import KVFlux.V2.Addressing
import KVFlux.V2.PagedRoundTrip
import KVFlux.V2.AttentionKernel
import KVFlux.V2.BatchDecode
import KVFlux.V3.SlotTierRun
import KVFlux.IndexLruRun
import KVFlux.Lib.OnlineSoftmax
import KVFlux.V2.ExactAttention
import KVFlux.V2.SequenceLifecycle
import KVFlux.V2.Serving
import KVFlux.V3.Migration.FileTransfer
import KVFlux.Lib.Postcondition
import KVFlux.GpuMemoryPoolCalls
import KVFlux.AsyncTransfer.Model
import KVFlux.AsyncTransfer.Ledger
import KVFlux.AsyncTransfer.Submit
import KVFlux.AsyncTransfer.Traffic
import KVFlux.AsyncTransfer.Batch
import KVFlux.AsyncTransfer.Copies
import KVFlux.AsyncTransfer.Generations
import KVFlux.AsyncTransfer.CurrentData
import KVFlux.AsyncTransfer.Errors
import KVFlux.Lib.Table
import KVFlux.TieredBlockManager.Model
import KVFlux.TieredBlockManager.Invariant
import KVFlux.TieredBlockManager.Frame
import KVFlux.TieredBlockManager.Device
import KVFlux.TieredBlockManager.Slots
import KVFlux.TieredBlockManager.Finish
import KVFlux.TieredBlockManager.Moves
import KVFlux.TieredBlockManager.Wait
import KVFlux.TieredBlockManager.Demand
import KVFlux.TieredBlockManager.Prefetch
import KVFlux.TieredBlockManager.Clients
import KVFlux.TieredBlockManager.Lifetimes
import KVFlux.TieredBlockManager.Calls
import KVFlux.TieredBlockManager.Session
import KVFlux.TieredBlockManager.Consistency
import KVFlux.TieredBlockManager.Leases
import KVFlux.TieredBlockManager.CapacityErrors
