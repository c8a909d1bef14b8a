import Timechain.Run
import Timechain.TasksState

/-!
# The tasks pallet

The functions of `pallets/tasks/src/lib.rs` as state transformers, in
the source's order: the life of a task (`createTask`, `finishTask`),
processing of gateway events, scheduling, batching, the dispatchables,
the hook and the interface called by the shards and networks pallets.

A dispatchable returns `Except`: all its checks come before its first
write, so an error leaves the state alone. The hook returns `Option`:
its plain subtractions panic when built with overflow checks.

Loops over storage iterate over the entries in storage order; `while`
loops carry fuel, with a lemma that the fuel given is enough.
-/

namespace Timechain

namespace Tasks

namespace State

/-! ## The life of a task -/

def depositEvent (s : State) (event : Event) : State :=
  { s with events := s.events ++ [event] }

/-- `ua_task_queue(network).push(task_id)`. -/
def pushTask (s : State) (network : NetworkId) (taskId : TaskId) : State :=
  { s with
    uaTasks := s.uaTasks.push network taskId
    queuedTasks := s.queuedTasks ++ [(network, taskId)] }

/-- `ops_queue(network).push(op)`. -/
def pushOp (s : State) (network : NetworkId) (op : GatewayOp) : State :=
  { s with
    ops := s.ops.push network op
    pushedOps := s.pushedOps ++ [(network, op)] }

/-- The id `create_task` hands out next. -/
def nextTaskId (s : State) : TaskId := satSucc 64 s.taskIdCounter

def createTask (s : State) (network : NetworkId) (task : Task) : State :=
  let taskId := s.nextTaskId
  let s := { s with
    tasks := s.tasks.insert taskId task
    taskNetwork := s.taskNetwork.insert taskId network
    taskIdCounter := taskId
    createdTasks := s.createdTasks ++ [(network, taskId, task)] }
  let s :=
    if !task.needsRegistration then
      { s with readEventsTask := s.readEventsTask.insert network taskId }
    else s.pushTask network taskId
  let s := { s with
    taskCount := s.taskCount.insert network (satAdd 64 (s.taskCount.getD network 0) 1) }
  s.depositEvent (.taskCreated taskId)

def finishTask (s : State) (network : NetworkId) (taskId : TaskId)
    (result : Except ErrorMsg Unit) : State :=
  if s.taskOutput.containsKey taskId then s
  else
    let s := { s with taskOutput := s.taskOutput.insert taskId result }
    let s :=
      match s.taskShard.get taskId with
      | some shard =>
          { s with
            taskShard := s.taskShard.remove taskId
            shardTasks := s.shardTasks.remove (shard, taskId)
            shardTaskCount :=
              s.shardTaskCount.insert shard (s.shardTaskCount.getD shard 0 - 1)
            executedTaskCount :=
              s.executedTaskCount.insert network
                (satAdd 64 (s.executedTaskCount.getD network 0) 1) }
      | none => s
    s.depositEvent (.taskResult taskId result)

/-- The blocks the next read task of `network` covers. -/
def nextBlocks (s : State) (env : Env) (network : NetworkId) : BlockRange :=
  let block := s.syncHeight.getD network 0
  ⟨block, satAdd 64 block (env.networks.nextBatchSize network block)⟩

def readGatewayEvents (s : State) (env : Env) (network : NetworkId) : State :=
  s.createTask network (.readGatewayEvents (s.nextBlocks env network))

/-! ## Gateway events -/

def processEvent (cfg : Config) (network : NetworkId) (taskId : TaskId) (s : State)
    (event : GmpEvent) : State :=
  let s := { s with processedEvents := s.processedEvents ++ [(network, taskId, event)] }
  match event with
  | .shardRegistered key => { s with shardRegistered := s.shardRegistered.insert key () }
  | .shardUnregistered key => { s with shardRegistered := s.shardRegistered.remove key }
  | .messageReceived msg =>
      let id := msg.messageId cfg.keccak256
      let s := s.pushOp msg.destNetwork (.sendMessage msg)
      let s := { s with messageReceivedTaskId := s.messageReceivedTaskId.insert id taskId }
      s.depositEvent (.messageReceived id)
  | .messageExecuted id =>
      let s := { s with messageExecutedTaskId := s.messageExecutedTaskId.insert id taskId }
      s.depositEvent (.messageExecuted id)
  | .batchExecuted batchId txHash =>
      let s := { s with pendingBatches := s.pendingBatches.remove batchId }
      let s :=
        match s.batchTaskId.get batchId with
        | some taskId => s.finishTask network taskId (.ok ())
        | none => s
      match txHash with
      | some hash => { s with batchTxHash := s.batchTxHash.insert batchId hash }
      | none => s

def processEvents (s : State) (cfg : Config) (network : NetworkId) (taskId : TaskId)
    (events : List GmpEvent) : State :=
  events.foldl (processEvent cfg network taskId) s

/-! ## Scheduling -/

def isShardRegistered (s : State) (env : Env) (shard : ShardId) : Bool :=
  match env.shards.tssPublicKey shard with
  | some key => s.shardRegistered.containsKey key
  | none => false

def assignTask (s : State) (shard : ShardId) (taskId : TaskId) : State :=
  { s with
    shardTasks := s.shardTasks.insert (shard, taskId) ()
    taskShard := s.taskShard.insert taskId shard
    shardTaskCount := s.shardTaskCount.insert shard (satAdd 32 (s.shardTaskCount.getD shard 0) 1) }

/-- Assign up to `capacity` queued tasks; counts those assigned. -/
def scheduleTasksShard (network : NetworkId) (shard : ShardId) :
    (capacity : Nat) → State → Nat → State × Nat
  | 0, s, assigned => (s, assigned)
  | capacity + 1, s, assigned =>
      match s.uaTasks.pop network with
      | (none, _) => (s, assigned)
      | (some taskId, queue) =>
          scheduleTasksShard network shard capacity
            ({ s with uaTasks := queue }.assignTask shard taskId) (satSucc 32 assigned)

/-- How a loop of `schedule_tasks` ends: it runs on with a new count, or
the whole function returns because the block's limit is reached. -/
inductive Loop where
  | next (s : State) (assigned : Nat)
  | done (s : State)

/-- Assign the read task to the first shard with capacity. -/
def scheduleReadTask (cfg : Config) (limit : Nat) (taskId : TaskId) (assigned : Nat) (s : State) :
    List ShardId → Loop
  | [] => .next s assigned
  | shard :: shards =>
      if s.shardTaskCount.getD shard 0 < limit then
        if assigned = cfg.maxTasksPerBlock then .done s
        else .next (s.assignTask shard taskId) (satSucc 32 assigned)
      else scheduleReadTask cfg limit taskId assigned s shards

/-- Fill the registered shards of a network up to `tasksPerShard`. -/
def scheduleShards (cfg : Config) (network : NetworkId) (tasksPerShard : Nat) :
    List ShardId → State → Nat → Loop
  | [], s, assigned => .next s assigned
  | shard :: shards, s, assigned =>
      let capacity := tasksPerShard - s.shardTaskCount.getD shard 0
      if cfg.maxTasksPerBlock > satAdd 32 assigned capacity then
        let (s, num) := scheduleTasksShard network shard capacity s 0
        scheduleShards cfg network tasksPerShard shards s (satAdd 32 assigned num)
      else
        .done (scheduleTasksShard network shard (cfg.maxTasksPerBlock - assigned) s 0).1

/-- The per-shard quota: unexecuted tasks over registered shards, rounded
up. All of it is plain `u64` and `u32` arithmetic. -/
def tasksPerShard (cfg : Config) (taskCount executedTaskCount numShards : Nat) : Option Nat := do
  let assignable ← subChecked cfg.overflowChecks 64 taskCount executedTaskCount
  let pred ← subChecked cfg.overflowChecks 32 (assignable % 2 ^ 32) 1
  if numShards % 2 ^ 32 = 0 then none
  else addChecked cfg.overflowChecks 32 (pred / (numShards % 2 ^ 32)) 1

/-- `NetworkShards::iter_prefix(network)`. -/
def shardsOf (s : State) (cfg : Config) (network : NetworkId) : List ShardId :=
  (s.networkShards.iterPrefix cfg.shardKey network).map Prod.fst

def scheduleNetwork (cfg : Config) (env : Env) (network : NetworkId) (taskId : TaskId)
    (s : State) (assigned : Nat) : Option Loop :=
  let limit := env.networks.shardTaskLimit network
  let read :=
    if s.taskShard.containsKey taskId then .next s assigned
    else scheduleReadTask cfg limit taskId assigned s (s.shardsOf cfg network)
  match read with
  | .done s => some (.done s)
  | .next s assigned =>
      let registered := (s.shardsOf cfg network).filter fun shard =>
        s.isShardRegistered env shard && env.shards.isShardOnline shard
      if registered.isEmpty then some (.next s assigned)
      else do
        let quota ← tasksPerShard cfg (s.taskCount.getD network 0)
          (s.executedTaskCount.getD network 0) registered.length
        return scheduleShards cfg network (min quota limit) registered s assigned

def scheduleNetworks (cfg : Config) (env : Env) :
    List (NetworkId × TaskId) → State → Nat → Option State
  | [], s, _ => some s
  | (network, taskId) :: rest, s, assigned =>
      match scheduleNetwork cfg env network taskId s assigned with
      | none => none
      | some (.done s) => some s
      | some (.next s assigned) => scheduleNetworks cfg env rest s assigned

def scheduleTasks (s : State) (cfg : Config) (env : Env) : Option State :=
  scheduleNetworks cfg env (s.readEventsTask.iter cfg.networkKey) s 0

/-! ## Batching -/

/-- Note the batch an op is sent in. -/
def recordOp (cfg : Config) (batchId : BatchId) (s : State) (op : GatewayOp) : State :=
  match op with
  | .sendMessage msg =>
      { s with messageBatchId := s.messageBatchId.insert (msg.messageId cfg.keccak256) batchId }
  | .registerShard key =>
      { s with shardRegisterBatchId := s.shardRegisterBatchId.insert key batchId }
  | .unregisterShard key =>
      { s with shardUnregisterBatchId := s.shardUnregisterBatchId.insert key batchId }

def startBatch (s : State) (cfg : Config) (network : NetworkId) (msg : GatewayMessage) : State :=
  let batchId := s.batchIdCounter
  let s := { s with
    batchIdCounter := satAdd 64 batchId 1
    startedBatches := s.startedBatches ++ [(network, batchId, msg)] }
  let s := msg.ops.foldl (recordOp cfg batchId) s
  let s := { s with batchMessage := s.batchMessage.insert batchId msg }
  let taskId := s.nextTaskId
  let s := s.createTask network (.submitGatewayMessage batchId)
  { s with
    pendingBatches := s.pendingBatches.insert batchId ()
    batchTaskId := s.batchTaskId.insert batchId taskId }

/-- Start the batch a builder returned, if any. -/
def startBatch? (s : State) (cfg : Config) (network : NetworkId) (batch : Option GatewayMessage)
    (started : Nat) : State × Nat :=
  match batch with
  | some msg => (s.startBatch cfg network msg, satSucc 32 started)
  | none => (s, started)

/-- The `while let Some(op) = queue.pop()` loop of one network. -/
def drainOps (cfg : Config) (network : NetworkId) :
    (fuel : Nat) → BatchBuilder → State → Nat → BatchBuilder × State × Nat
  | 0, batcher, s, started => (batcher, s, started)
  | fuel + 1, batcher, s, started =>
      match s.ops.pop network with
      | (none, _) => (batcher, s, started)
      | (some op, queue) =>
          let (batch, batcher) := batcher.push op
          let (s, started) := { s with ops := queue }.startBatch? cfg network batch started
          if started = cfg.maxBatchesPerBlock - 1 then (batcher, s, started)
          else drainOps cfg network fuel batcher s started

/-- Batch the ops of one network: drain the queue, then flush. One unit of
fuel per queued op, and one to see the queue empty. -/
def prepareNetwork (cfg : Config) (env : Env) (acc : State × Nat) (network : NetworkId) :
    State × Nat :=
  let (s, started) := acc
  let batcher := BatchBuilder.new (env.networks.batchGasLimit network)
  let (batcher, s, started) :=
    drainOps cfg network ((s.ops.contents network).length + 1) batcher s started
  s.startBatch? cfg network batcher.takeBatch.1 started

/-- `prepare_batches`, with the number of batches started. -/
def prepareBatches (s : State) (cfg : Config) (env : Env) : State × Nat :=
  ((s.readEventsTask.iter cfg.networkKey).map Prod.fst).foldl (prepareNetwork cfg env) (s, 0)

def onInitialize (s : State) (cfg : Config) (env : Env) : Option State :=
  (s.prepareBatches cfg env).1.scheduleTasks cfg env

/-! ## Dispatchables -/

def ensureSigned : Origin → Except DispatchError AccountId
  | .signed who => .ok who
  | _ => .error .badOrigin

def ensureAdmin (cfg : Config) (origin : Origin) : Except DispatchError Unit :=
  if cfg.adminOrigin origin then .ok () else .error .badOrigin

def okOr {α : Type} (x : Option α) (error : DispatchError) : Except DispatchError α :=
  match x with
  | some a => .ok a
  | none => .error error

def verifySignature (cfg : Config) (env : Env) (shard : ShardId) (data : List UInt8)
    (signature : TssSignature) : Except DispatchError Unit := do
  let key ← okOr (env.shards.tssPublicKey shard) .unknownShard
  if cfg.verifySignature key data signature then .ok () else .error .invalidSignature

/-- Update the sync height unless the network was synced by hand. -/
def advanceSync (s : State) (network : NetworkId) (blocks : BlockRange) : State :=
  if s.syncHeight.getD network 0 = blocks.start then
    { s with syncHeight := s.syncHeight.insert network blocks.stop }
  else s

/-- Start the next read unless the network was stopped. -/
def readNext (s : State) (env : Env) (network : NetworkId) : State :=
  if s.readEventsTask.containsKey network then s.readGatewayEvents env network else s

/-- What a verified `ReadGatewayEvents` result does. A full chunk leaves
the task open: more events follow in later transactions. -/
def acceptEvents (s : State) (cfg : Config) (env : Env) (network : NetworkId) (taskId : TaskId)
    (blocks : BlockRange) (events : List GmpEvent) : State :=
  let s := s.advanceSync network blocks
  let s := s.readNext env network
  let s := s.processEvents cfg network taskId events
  if events.length = maxGmpEvents then s
  else s.finishTask network taskId (.ok ())

/-- What a member's error report for a batch task does. -/
def acceptError (s : State) (network : NetworkId) (taskId : TaskId) (batchId : BatchId)
    (error : ErrorMsg) : State :=
  let s := { s with
    pendingBatches := s.pendingBatches.remove batchId
    failedBatchIds := s.failedBatchIds.insert batchId () }
  s.finishTask network taskId (.error error)

def submitTaskResult (s : State) (cfg : Config) (env : Env) (origin : Origin) (taskId : TaskId)
    (result : TaskResult) : Except DispatchError State := do
  let signer ← ensureSigned origin
  let task ← okOr (s.tasks.get taskId) .unknownTask
  if s.taskOutput.containsKey taskId then return s
  let shard ← okOr (s.taskShard.get taskId) .unassignedTask
  let network ← okOr (env.shards.shardNetwork shard) .unknownShard
  match task, result with
  | .readGatewayEvents blocks, .readGatewayEvents events signature =>
      verifySignature cfg env shard (encodeGmpEvents taskId events.val) signature
      return s.acceptEvents cfg env network taskId blocks events.val
  | .submitGatewayMessage batchId, .submitGatewayMessage error =>
      if signer ∈ env.shards.shardMembers shard then
        return s.acceptError network taskId batchId error
      else throw .invalidSigner
  | _, _ => throw .invalidTaskResult

/-- Forget that a batch failed and that its task has finished. -/
def reopenBatch (s : State) (batchId : BatchId) : State :=
  let s := { s with failedBatchIds := s.failedBatchIds.remove batchId }
  match s.batchTaskId.get batchId with
  | some taskId => { s with taskOutput := s.taskOutput.remove taskId }
  | none => s

def submitGmpEvents (s : State) (cfg : Config) (origin : Origin) (network : NetworkId)
    (events : GmpEvents) : Except DispatchError State := do
  ensureAdmin cfg origin
  let s := (executedBatches events.val).foldl reopenBatch s
  return s.processEvents cfg network 0 events.val

def syncNetwork (s : State) (cfg : Config) (origin : Origin) (network : NetworkId) (block : Nat) :
    Except DispatchError State := do
  ensureAdmin cfg origin
  return { s with syncHeight := s.syncHeight.insert network block }

def stopNetwork (s : State) (cfg : Config) (origin : Origin) (network : NetworkId) :
    Except DispatchError State := do
  ensureAdmin cfg origin
  return { s with readEventsTask := s.readEventsTask.remove network }

/-- Forget the messages of a removed batch. -/
def forgetOp (cfg : Config) (s : State) (op : GatewayOp) : State :=
  match op with
  | .sendMessage msg =>
      let id := msg.messageId cfg.keccak256
      { s with
        messageReceivedTaskId := s.messageReceivedTaskId.remove id
        messageBatchId := s.messageBatchId.remove id }
  | _ => s

/-- Forget the batch of a removed task. -/
def forgetBatch (s : State) (cfg : Config) (batchId : BatchId) : State :=
  let s :=
    match s.batchMessage.get batchId with
    | some msg =>
        msg.ops.foldl (forgetOp cfg) { s with batchMessage := s.batchMessage.remove batchId }
    | none => s
  { s with batchTaskId := s.batchTaskId.remove batchId }

def removeTask (s : State) (cfg : Config) (origin : Origin) (taskId : TaskId) :
    Except DispatchError State := do
  ensureAdmin cfg origin
  if s.taskOutput.containsKey taskId then
    let task := s.tasks.get taskId
    let s := { s with
      taskOutput := s.taskOutput.remove taskId
      tasks := s.tasks.remove taskId }
    let s :=
      match task with
      | some (.submitGatewayMessage batchId) => s.forgetBatch cfg batchId
      | _ => s
    return { s with taskNetwork := s.taskNetwork.remove taskId }
  else throw .cannotRemoveTask

def restartBatch (s : State) (cfg : Config) (origin : Origin) (batchId : BatchId) :
    Except DispatchError State := do
  ensureAdmin cfg origin
  let oldTaskId ← okOr (s.batchTaskId.get batchId) .invalidBatchId
  let network ← okOr (s.taskNetwork.get oldTaskId) .unknownTask
  let newTaskId := s.nextTaskId
  let s := s.createTask network (.submitGatewayMessage batchId)
  let s := { s with
    batchTaskId := s.batchTaskId.insert batchId newTaskId
    pendingBatches := s.pendingBatches.insert batchId ()
    failedBatchIds := s.failedBatchIds.remove batchId }
  return s.depositEvent (.batchRestarted oldTaskId newTaskId)

/-! ## The interface of the other pallets -/

def shardOnline (s : State) (env : Env) (shard : ShardId) (network : NetworkId) : State :=
  let s := { s with networkShards := s.networkShards.insert (network, shard) () }
  if (env.networks.gateway network).isSome then
    match env.shards.tssPublicKey shard with
    | some key => s.pushOp network (.registerShard key)
    | none => s
  else s

/-- Take one task from a shard that goes offline: the current read task
is rescheduled by itself, any other goes back to the queue. -/
def releaseTask (network : NetworkId) (shard : ShardId) (readEventsTask : Option TaskId)
    (s : State) (taskId : TaskId) : State :=
  let s := { s with
    shardTasks := s.shardTasks.remove (shard, taskId)
    taskShard := s.taskShard.remove taskId }
  if some taskId ≠ readEventsTask then s.pushTask network taskId else s

def shardOffline (s : State) (cfg : Config) (env : Env) (shard : ShardId) (network : NetworkId) :
    State :=
  let s := { s with networkShards := s.networkShards.remove (network, shard) }
  let readEventsTask := s.readEventsTask.get network
  let s := ((s.shardTasks.iterPrefix cfg.taskKey shard).map Prod.fst).foldl
    (releaseTask network shard readEventsTask) s
  let s := { s with shardTaskCount := s.shardTaskCount.insert shard 0 }
  match env.shards.tssPublicKey shard with
  | some key => s.pushOp network (.unregisterShard key)
  | none => s

def gatewayRegistered (s : State) (env : Env) (network : NetworkId) (block : Nat) : State :=
  readGatewayEvents { s with syncHeight := s.syncHeight.insert network block } env network

end State

/-! ## The pallet as a transition system -/

inductive Call where
  | onInitialize
  | submitTaskResult (origin : Origin) (taskId : TaskId) (result : TaskResult)
  | submitGmpEvents (origin : Origin) (network : NetworkId) (events : GmpEvents)
  | syncNetwork (origin : Origin) (network : NetworkId) (block : UInt64)
  | stopNetwork (origin : Origin) (network : NetworkId)
  | removeTask (origin : Origin) (taskId : TaskId)
  | restartBatch (origin : Origin) (batchId : BatchId)
  | shardOnline (shard : ShardId) (network : NetworkId)
  | shardOffline (shard : ShardId) (network : NetworkId)
  | gatewayRegistered (network : NetworkId) (block : UInt64)

/-- A call, and the other pallets at that moment. -/
structure Input where
  env : Env
  call : Call

/-- A failed dispatch changes nothing. -/
def dispatch (s : State) : Except DispatchError State → State
  | .ok s' => s'
  | .error _ => s

/-- One call; `none` is a panic. -/
def exec (cfg : Config) (s : State) (i : Input) : Option State :=
  match i.call with
  | .onInitialize => s.onInitialize cfg i.env
  | .submitTaskResult origin taskId result =>
      some (dispatch s (s.submitTaskResult cfg i.env origin taskId result))
  | .submitGmpEvents origin network events =>
      some (dispatch s (s.submitGmpEvents cfg origin network events))
  | .syncNetwork origin network block =>
      some (dispatch s (s.syncNetwork cfg origin network block.toNat))
  | .stopNetwork origin network => some (dispatch s (s.stopNetwork cfg origin network))
  | .removeTask origin taskId => some (dispatch s (s.removeTask cfg origin taskId))
  | .restartBatch origin batchId => some (dispatch s (s.restartBatch cfg origin batchId))
  | .shardOnline shard network => some (s.shardOnline i.env shard network)
  | .shardOffline shard network => some (s.shardOffline cfg i.env shard network)
  | .gatewayRegistered network block => some (s.gatewayRegistered i.env network block.toNat)

/-- What the shards pallet guarantees: a shard keeps one network, its
`home`, in every query and every notification. -/
structure Input.Homed (home : ShardId → NetworkId) (i : Input) : Prop where
  network : ∀ {shard network}, i.env.shards.shardNetwork shard = some network →
    network = home shard
  online : ∀ {shard network}, i.call = .shardOnline shard network → network = home shard
  offline : ∀ {shard network}, i.call = .shardOffline shard network → network = home shard

/-- Runs of the pallet from genesis in which every input also meets `ok`. -/
abbrev PalletRun (cfg : Config) (home : ShardId → NetworkId) (ok : State → Input → Prop) :
    List Input → State → Prop :=
  Run (exec cfg) (fun s i => i.Homed home ∧ ok s i) State.genesis

/-! ## An example chain

The limits of the runtime (`runtime/src/configs/custom.rs`), keys stored
in numerical order, and shards that serve network 0, except for shard 1,
which serves network 1. -/

def exampleConfig : Config where
  keccak256 _ := Vector.replicate 32 0
  verifySignature _ _ _ := true
  adminOrigin origin := origin == .root
  maxTasksPerBlock := 50
  maxBatchesPerBlock := 10
  maxTasksPerBlock_lt := by decide
  maxBatchesPerBlock_lt := by decide
  overflowChecks := true
  networkKey network := network.toNat
  shardKey shard := shard
  taskKey taskId := taskId

/-- The group key of a shard, its id in little-endian bytes. -/
def exampleKey (shard : ShardId) : TssPublicKey :=
  Vector.ofFn fun i => UInt8.ofNat (shard / 256 ^ i.val)

def exampleMember : AccountId := Vector.replicate 32 1

def exampleHome (shard : ShardId) : NetworkId := if shard = 1 then 1 else 0

def exampleEnv : Env where
  shards :=
    { isShardOnline := fun _ => true
      shardMembers := fun _ => [exampleMember]
      shardNetwork := fun shard => some (exampleHome shard)
      tssPublicKey := fun shard => some (exampleKey shard) }
  networks :=
    { gateway := fun _ => some (Vector.replicate 32 0)
      nextBatchSize := fun _ _ => 10
      batchGasLimit := fun _ => 1000000
      shardTaskLimit := fun _ => 10 }

/-- The call, in the example chain. -/
def exampleInput (call : Call) : Input := ⟨exampleEnv, call⟩

/-- Shards go on- and offline for their own network. -/
def Call.onHome : Call → Bool
  | .shardOnline shard network => network == exampleHome shard
  | .shardOffline shard network => network == exampleHome shard
  | _ => true

theorem homed_of_onHome {i : Input} (henv : i.env.shards = exampleEnv.shards)
    (h : i.call.onHome = true) : i.Homed exampleHome where
  network hn := by
    rw [henv] at hn
    exact (Option.some.inj hn).symm
  online hc := by
    rw [hc] at h
    exact beq_iff_eq.mp h
  offline hc := by
    rw [hc] at h
    exact beq_iff_eq.mp h

theorem exampleInput_homed {call : Call} (h : call.onHome = true) :
    (exampleInput call).Homed exampleHome := homed_of_onHome rfl h

def exampleRun (calls : List Call) : Option State :=
  (calls.map exampleInput).foldlM (exec exampleConfig) State.genesis

/-- The state after `calls`, if none of them panics. -/
def exampleState (calls : List Call) : State := (exampleRun calls).getD State.genesis

/-- One more call. -/
theorem exampleState_step {calls : List Call} {call : Call}
    (hrun : (exampleRun (calls ++ [call])).isSome = true) :
    exec exampleConfig (exampleState calls) (exampleInput call)
      = some (exampleState (calls ++ [call])) := by
  obtain ⟨s', hs'⟩ := Option.isSome_iff_exists.mp hrun
  rw [exampleState, exampleState, hs', Option.getD_some]
  rw [exampleRun, List.map_append, List.foldlM_append] at hs'
  obtain ⟨s, hs, hlast⟩ := Option.bind_eq_some_iff.mp hs'
  rw [exampleRun, hs, Option.getD_some]
  simpa using hlast

section Example

variable {ok : State → Input → Prop} {calls : List Call}

theorem exampleState_run (hhome : calls.all Call.onHome = true)
    (hok : ∀ s, ∀ call ∈ calls, ok s (exampleInput call))
    (hrun : (exampleRun calls).isSome = true) :
    PalletRun exampleConfig exampleHome ok (calls.map exampleInput) (exampleState calls) := by
  refine Run.of_foldlM (fun s i hi => ?_) ?_
  · obtain ⟨c, hc, rfl⟩ := List.mem_map.mp hi
    exact ⟨exampleInput_homed (List.all_eq_true.mp hhome c hc), hok s c hc⟩
  · obtain ⟨s, hs⟩ := Option.isSome_iff_exists.mp hrun
    rw [exampleState, hs]
    exact hs

theorem exampleState_next {call : Call}
    (h : PalletRun exampleConfig exampleHome ok (calls.map exampleInput) (exampleState calls))
    (hhome : call.onHome = true) (hok : ok (exampleState calls) (exampleInput call))
    (hrun : (exampleRun (calls ++ [call])).isSome = true) :
    PalletRun exampleConfig exampleHome ok ((calls ++ [call]).map exampleInput)
      (exampleState (calls ++ [call])) := by
  rw [List.map_append]
  exact .next h ⟨exampleInput_homed hhome, hok⟩ (exampleState_step hrun)

end Example

/-- Root reports one event of `network`. -/
def exampleEvent (network : NetworkId) (event : GmpEvent) : Call :=
  .submitGmpEvents .root network ⟨[event], Nat.le_add_left ..⟩

/-- A member of the shard reports the events of a read task. -/
def exampleReport (taskId : TaskId) (events : GmpEvents) : Call :=
  .submitTaskResult (.signed exampleMember) taskId
    (.readGatewayEvents events (Vector.replicate 64 0))

/-- A message that fills a batch on its own. -/
def exampleMessage (destNetwork : NetworkId) (nonce : Nat) : GmpMessage where
  srcNetwork := 0
  destNetwork := destNetwork
  src := Vector.replicate 32 0
  dest := Vector.replicate 32 0
  nonce := UInt64.ofNat nonce
  gasLimit := 2000000
  gasCost := 2000000
  bytes := []

/-- A shard comes online and its registration is batched and assigned. -/
def registrationCalls : List Call :=
  [.gatewayRegistered 0 0, .shardOnline 0 0, exampleEvent 0 (.shardRegistered (exampleKey 0)),
    .onInitialize]

end Tasks

end Timechain
