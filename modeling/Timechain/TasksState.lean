import Timechain.Primitives
import Timechain.TasksQueue

/-!
# Storage of the tasks pallet

The storage items of `pallets/tasks/src/lib.rs`, grouped by what they
record, and the interfaces the pallet is configured with. A group is a
structure and the pallet's state extends all of them, so that "this
function leaves the batches alone" is one equation.

Beside the storage, some groups keep a *history variable*: a list of
everything that was ever pushed, created or started. The functions of
the pallet append to them and never read them; statements about whole
runs ("all ops ever pushed") are statements about these lists.
-/

namespace Timechain

namespace Tasks

/-! ## Configuration -/

/-- Origin of a dispatched call. -/
inductive Origin where
  | root
  | signed (who : AccountId)
  | none
deriving DecidableEq

/-- Constants of the runtime and functions of other crates.

The three keys are the storage order: maps iterate by the hash of the
encoded key (`Blake2_128Concat`). -/
structure Config where
  keccak256 : List UInt8 → Hash
  verifySignature : TssPublicKey → List UInt8 → TssSignature → Bool
  adminOrigin : Origin → Bool
  maxTasksPerBlock : Nat
  maxBatchesPerBlock : Nat
  maxTasksPerBlock_lt : maxTasksPerBlock < 2 ^ 32
  maxBatchesPerBlock_lt : maxBatchesPerBlock < 2 ^ 32
  /-- Built with `overflow-checks` (the testnet profile). -/
  overflowChecks : Bool
  networkKey : NetworkId → Nat
  shardKey : ShardId → Nat
  taskKey : TaskId → Nat

/-- What the pallet asks the shards pallet. -/
structure ShardsInterface where
  isShardOnline : ShardId → Bool
  shardMembers : ShardId → List AccountId
  shardNetwork : ShardId → Option NetworkId
  tssPublicKey : ShardId → Option TssPublicKey

/-- What the pallet asks the networks pallet. -/
structure NetworksInterface where
  gateway : NetworkId → Option Address32
  nextBatchSize : NetworkId → Nat → Nat
  batchGasLimit : NetworkId → Nat
  shardTaskLimit : NetworkId → Nat

/-- The other pallets as seen during one call. -/
structure Env where
  shards : ShardsInterface
  networks : NetworksInterface

/-! ## Events and errors -/

inductive Event where
  | taskCreated (taskId : TaskId)
  | taskResult (taskId : TaskId) (result : Except ErrorMsg Unit)
  | batchRestarted (oldTaskId newTaskId : TaskId)
  | messageReceived (id : MessageId)
  | messageExecuted (id : MessageId)

inductive DispatchError where
  | badOrigin
  | unknownTask
  | unknownShard
  | invalidSignature
  | invalidTaskResult
  | invalidSigner
  | unassignedTask
  | invalidBatchId
  | cannotRemoveTask
deriving DecidableEq

/-! ## Storage -/

/-- Tasks by id, where they wait and run, and what became of them. -/
structure TaskStore where
  taskIdCounter : Nat
  tasks : StorageMap TaskId Task
  taskNetwork : StorageMap TaskId NetworkId
  taskCount : StorageMap NetworkId Nat
  readEventsTask : StorageMap NetworkId TaskId
  syncHeight : StorageMap NetworkId Nat
  uaTasks : QueueImpl NetworkId TaskId
  shardTasks : StorageMap (ShardId × TaskId) Unit
  taskShard : StorageMap TaskId ShardId
  networkShards : StorageMap (NetworkId × ShardId) Unit
  executedTaskCount : StorageMap NetworkId Nat
  taskOutput : StorageMap TaskId (Except ErrorMsg Unit)
  batchTaskId : StorageMap BatchId TaskId
  /-- History: every task ever created. -/
  createdTasks : List (NetworkId × TaskId × Task)
  /-- History: every push onto a queue of unassigned tasks. -/
  queuedTasks : List (NetworkId × TaskId)

structure LoadStore where
  shardTaskCount : StorageMap ShardId Nat

structure BatchStore where
  batchIdCounter : Nat
  batchMessage : StorageMap BatchId GatewayMessage
  pendingBatches : StorageMap BatchId Unit
  failedBatchIds : StorageMap BatchId Unit
  batchTxHash : StorageMap BatchId Hash
  shardRegisterBatchId : StorageMap TssPublicKey BatchId
  shardUnregisterBatchId : StorageMap TssPublicKey BatchId
  messageBatchId : StorageMap MessageId BatchId
  /-- History: every batch ever started. -/
  startedBatches : List (NetworkId × BatchId × GatewayMessage)

structure OpStore where
  ops : QueueImpl NetworkId GatewayOp
  /-- History: every op ever pushed. -/
  pushedOps : List (NetworkId × GatewayOp)

/-- What gateways reported. -/
structure EventStore where
  shardRegistered : StorageMap TssPublicKey Unit
  messageReceivedTaskId : StorageMap MessageId TaskId
  messageExecutedTaskId : StorageMap MessageId TaskId
  /-- Deposited events. -/
  events : List Event
  /-- History: every gateway event ever processed, with the network and
  the task it was processed for. -/
  processedEvents : List (NetworkId × TaskId × GmpEvent)

structure State extends TaskStore, LoadStore, BatchStore, OpStore, EventStore

/-- Storage at genesis. -/
def State.genesis : State where
  taskIdCounter := 0
  tasks := ∅
  taskNetwork := ∅
  taskCount := ∅
  readEventsTask := ∅
  syncHeight := ∅
  createdTasks := []
  uaTasks := .empty
  shardTasks := ∅
  taskShard := ∅
  networkShards := ∅
  shardTaskCount := ∅
  executedTaskCount := ∅
  taskOutput := ∅
  queuedTasks := []
  batchIdCounter := 0
  batchMessage := ∅
  batchTaskId := ∅
  pendingBatches := ∅
  failedBatchIds := ∅
  batchTxHash := ∅
  shardRegisterBatchId := ∅
  shardUnregisterBatchId := ∅
  messageBatchId := ∅
  startedBatches := []
  ops := .empty
  pushedOps := []
  shardRegistered := ∅
  messageReceivedTaskId := ∅
  messageExecutedTaskId := ∅
  events := []
  processedEvents := []

end Tasks

end Timechain
