import Timechain.TasksPallet

/-!
# Small steps of the tasks pallet

Every call of the pallet is a sequence of a few kinds of small steps:
create a task, finish one, assign one, release one, and so on. `Quiet`
lists the steps that leave the reading of gateways alone - they create
no read task, replace no current one and move no sync height; `Small`
adds those that do.

`TasksCalls` has the decomposition: whatever the call, the state after it
is reached by small steps. Invariants of the task storage are then
proved step kind by step kind, never call by call. Storage outside
`TaskStore` may change in any way during a step (`frame`).

Two parameters carry what a single step cannot know. `ok` restricts the
tasks events may finish. `exempt` are the tasks whose output
`submit_gmp_events` removes; they have an output again when it returns.
-/

namespace Timechain

namespace Tasks

open Relation (ReflTransGen)

/-- What a task removal leaves of the task storage. -/
def TaskStore.forget (s : TaskStore) (taskId : TaskId) : TaskStore :=
  { s with
    taskOutput := s.taskOutput.remove taskId
    tasks := s.tasks.remove taskId
    taskNetwork := s.taskNetwork.remove taskId
    batchTaskId :=
      match s.tasks.get taskId with
      | some (.submitGatewayMessage batchId) => s.batchTaskId.remove batchId
      | _ => s.batchTaskId }

section Steps

variable (home : ShardId → NetworkId) (ok : State → NetworkId → TaskId → Prop)
  (exempt : TaskId → Prop)

inductive Quiet : State → State → Prop
  | batchTask {s} (network : NetworkId) (batchId : BatchId) :
      Quiet s (s.createTask network (.submitGatewayMessage batchId))
  /-- A task is finished by its shard. A read task has been replaced by
  then, unless ids have run out. -/
  | finishOwn {s shard taskId} (result : Except ErrorMsg Unit) :
      s.tasks.get taskId ≠ none → s.taskShard.get taskId = some shard →
      (∀ blocks, s.tasks.get taskId = some (.readGatewayEvents blocks) →
        s.readEventsTask.get (home shard) = some taskId → 2 ^ 64 ≤ s.createdTasks.length) →
      Quiet s (s.finishTask (home shard) taskId result)
  | finishBatch {s network batchId taskId} (result : Except ErrorMsg Unit) :
      s.batchTaskId.get batchId = some taskId → ok s network taskId →
      Quiet s (s.finishTask network taskId result)
  | assignRead {s shard taskId} : s.readEventsTask.get (home shard) = some taskId →
      s.taskShard.get taskId = none → Quiet s (s.assignTask shard taskId)
  | dequeue {s shard taskId queue} : s.uaTasks.pop (home shard) = (some taskId, queue) →
      Quiet s ({ s with uaTasks := queue }.assignTask shard taskId)
  | release {s shard taskId} : s.shardTasks.get (shard, taskId) ≠ none →
      Quiet s (State.releaseTask (home shard) shard (s.readEventsTask.get (home shard)) s taskId)
  | link {s batchId taskId} : s.tasks.get taskId = some (.submitGatewayMessage batchId) →
      Quiet s { s with batchTaskId := s.batchTaskId.insert batchId taskId }
  | forget {s s' taskId} : s.taskOutput.get taskId ≠ none →
      s'.toTaskStore = s.toTaskStore.forget taskId → Quiet s s'
  | reopen {s batchId taskId} : s.batchTaskId.get batchId = some taskId → exempt taskId →
      Quiet s { s with taskOutput := s.taskOutput.remove taskId }
  | online {s} (shard : ShardId) :
      Quiet s { s with networkShards := s.networkShards.insert (home shard, shard) () }
  | offline {s} (network : NetworkId) (shard : ShardId) :
      Quiet s { s with networkShards := s.networkShards.remove (network, shard) }
  | frame {s s'} : s'.toTaskStore = s.toTaskStore → Quiet s s'

inductive Small : State → State → Prop
  | quiet {s s'} : Quiet home ok exempt s s' → Small s s'
  | readTask {s} (network : NetworkId) (blocks : BlockRange) :
      Small s (s.createTask network (.readGatewayEvents blocks))
  | sync {s} (network : NetworkId) (height : Nat) :
      Small s { s with syncHeight := s.syncHeight.insert network height }
  | stop {s} (network : NetworkId) :
      Small s { s with readEventsTask := s.readEventsTask.remove network }

abbrev QuietSteps : State → State → Prop := ReflTransGen (Quiet home ok exempt)

abbrev SmallSteps : State → State → Prop := ReflTransGen (Small home ok exempt)

end Steps

variable {home : ShardId → NetworkId} {ok : State → NetworkId → TaskId → Prop}
  {exempt : TaskId → Prop}

theorem QuietSteps.small {s s' : State} (h : QuietSteps home ok exempt s s') :
    SmallSteps home ok exempt s s' :=
  ReflTransGen.mono (fun _ _ hstep => Small.quiet hstep) _ _ h

/-- Registered shards are listed under their own network. -/
def HomedShards (home : ShardId → NetworkId) (s : State) : Prop :=
  ∀ ⦃network shard⦄, s.networkShards.get (network, shard) ≠ none → network = home shard

/-! ## Creating a task -/

section Create

variable (s : State) (network : NetworkId) (task : Task)

theorem createTask_tasks :
    (s.createTask network task).tasks = s.tasks.insert s.nextTaskId task := by
  cases task <;> rfl

theorem createTask_createdTasks :
    (s.createTask network task).createdTasks
      = s.createdTasks ++ [(network, s.nextTaskId, task)] := by
  cases task <;> rfl

theorem createTask_taskOutput : (s.createTask network task).taskOutput = s.taskOutput := by
  cases task <;> rfl

theorem createTask_networkShards :
    (s.createTask network task).networkShards = s.networkShards := by
  cases task <;> rfl

theorem createTask_syncHeight : (s.createTask network task).syncHeight = s.syncHeight := by
  cases task <;> rfl

end Create

/-! ## Finishing tasks -/

/-- Between the two states tasks were finished and nothing else was done
to the task storage. -/
structure Finishing (s s' : State) : Prop where
  rest : s'.toTaskStore =
    { s.toTaskStore with
      taskOutput := s'.taskOutput
      taskShard := s'.taskShard
      shardTasks := s'.shardTasks
      executedTaskCount := s'.executedTaskCount }
  shard : ∀ taskId, s'.taskShard.get taskId = s.taskShard.get taskId ∨
    s'.taskShard.get taskId = none ∧ s'.taskOutput.get taskId ≠ none
  output : ∀ {taskId}, s.taskOutput.get taskId ≠ none → s'.taskOutput.get taskId ≠ none

namespace Finishing

variable {s s' s'' : State}

theorem uaTasks (h : Finishing s s') : s'.uaTasks = s.uaTasks :=
  (congrArg TaskStore.uaTasks h.rest :)

theorem batchTaskId (h : Finishing s s') : s'.batchTaskId = s.batchTaskId :=
  (congrArg TaskStore.batchTaskId h.rest :)

theorem readEventsTask (h : Finishing s s') : s'.readEventsTask = s.readEventsTask :=
  (congrArg TaskStore.readEventsTask h.rest :)

theorem tasks (h : Finishing s s') : s'.tasks = s.tasks :=
  (congrArg TaskStore.tasks h.rest :)

theorem createdTasks (h : Finishing s s') : s'.createdTasks = s.createdTasks :=
  (congrArg TaskStore.createdTasks h.rest :)

theorem of_frame (h : s'.toTaskStore = s.toTaskStore) : Finishing s s' where
  rest := by
    have hout := congrArg TaskStore.taskOutput h
    have hshard := congrArg TaskStore.taskShard h
    have hheld := congrArg TaskStore.shardTasks h
    have hexec := congrArg TaskStore.executedTaskCount h
    rw [hout, hshard, hheld, hexec]
    exact h
  shard taskId := Or.inl (by rw [congrArg TaskStore.taskShard h])
  output hout := by rwa [congrArg TaskStore.taskOutput h]

theorem refl (s : State) : Finishing s s := of_frame rfl

theorem trans (h : Finishing s s') (h' : Finishing s' s'') : Finishing s s'' where
  rest := by
    rw [h'.rest, h.rest]
  shard taskId := by
    rcases h'.shard taskId with heq | hnone
    · rcases h.shard taskId with heq' | ⟨hnone, hout⟩
      · exact Or.inl (heq.trans heq')
      · exact Or.inr ⟨heq.trans hnone, h'.output hout⟩
    · exact Or.inr hnone
  output hout := h'.output (h.output hout)

end Finishing

/-- A restriction on finished tasks that survives while nothing is queued
or assigned. -/
def Stable (ok : State → NetworkId → TaskId → Prop) : Prop :=
  ∀ ⦃s s' network taskId⦄, s'.uaTasks = s.uaTasks →
    (∀ t, s'.taskShard.get t = s.taskShard.get t ∨ s'.taskShard.get t = none) →
    ok s network taskId → ok s' network taskId

theorem Finishing.keeps {s s' : State} (h : Finishing s s') (hok : Stable ok) {network : NetworkId}
    {taskId : TaskId} : ok s network taskId → ok s' network taskId :=
  hok h.uaTasks fun t => (h.shard t).imp_right And.left

section Finish

variable {s : State} {network : NetworkId} {taskId : TaskId} {result : Except ErrorMsg Unit}

theorem finishTask_of_output (h : s.taskOutput.get taskId ≠ none) :
    s.finishTask network taskId result = s :=
  if_pos (StorageMap.containsKey_iff.mpr h)

/-- What finishing an open task writes. -/
theorem finishTask_of_open (h : s.taskOutput.get taskId = none) :
    (s.finishTask network taskId result).toTaskStore =
      { s.toTaskStore with
        taskOutput := s.taskOutput.insert taskId result
        taskShard := match s.taskShard.get taskId with
          | some _ => s.taskShard.remove taskId
          | none => s.taskShard
        shardTasks := match s.taskShard.get taskId with
          | some shard => s.shardTasks.remove (shard, taskId)
          | none => s.shardTasks
        executedTaskCount := match s.taskShard.get taskId with
          | some _ => s.executedTaskCount.insert network
              (satAdd 64 (s.executedTaskCount.getD network 0) 1)
          | none => s.executedTaskCount } := by
  rw [State.finishTask, if_neg (fun hc => StorageMap.containsKey_iff.mp hc h)]
  cases hs : s.taskShard.get taskId <;> simp [hs, State.depositEvent]

theorem finishTask_output_self :
    (s.finishTask network taskId result).taskOutput.get taskId ≠ none := by
  by_cases h : s.taskOutput.get taskId = none
  · rw [congrArg TaskStore.taskOutput (finishTask_of_open h)]
    simp
  · rwa [finishTask_of_output h]

/-- Other tasks stay where they are. -/
theorem finishTask_of_ne {t : TaskId} (h : t ≠ taskId) :
    (s.finishTask network taskId result).taskOutput.get t = s.taskOutput.get t ∧
      (s.finishTask network taskId result).taskShard.get t = s.taskShard.get t := by
  by_cases hout : s.taskOutput.get taskId = none
  · rw [congrArg TaskStore.taskOutput (finishTask_of_open hout),
      congrArg TaskStore.taskShard (finishTask_of_open hout)]
    refine ⟨StorageMap.get_insert_of_ne _ _ h, ?_⟩
    cases s.taskShard.get taskId with
    | none => rfl
    | some shard => exact StorageMap.get_remove_of_ne _ h
  · rw [finishTask_of_output hout]
    exact ⟨rfl, rfl⟩

theorem finishTask_processed :
    (s.finishTask network taskId result).processedEvents = s.processedEvents := by
  unfold State.finishTask
  split
  · rfl
  · dsimp only
    split <;> rfl

theorem finishTask_finishing : Finishing s (s.finishTask network taskId result) := by
  by_cases h : s.taskOutput.get taskId = none
  · have hout := congrArg TaskStore.taskOutput (@finishTask_of_open s network taskId result h)
    have hshard := congrArg TaskStore.taskShard (@finishTask_of_open s network taskId result h)
    refine ⟨?_, fun t => ?_, fun {t} ht => ?_⟩
    · rw [finishTask_of_open h]
    · by_cases ht : t = taskId
      · subst ht
        refine Or.imp_right (fun hnone => ⟨hnone, finishTask_output_self⟩) ?_
        rw [hshard]
        cases hs : s.taskShard.get t <;> simp [hs]
      · rw [hshard]
        refine Or.inl ?_
        cases s.taskShard.get taskId with
        | none => rfl
        | some shard => exact StorageMap.get_remove_of_ne _ ht
    · rw [hout]
      show (s.taskOutput.insert taskId result).get t ≠ none
      rw [StorageMap.get_insert]
      split
      · exact Option.some_ne_none _
      · exact ht
  · rw [finishTask_of_output h]
    exact .refl s

end Finish

/-! ## Processing events -/

section Events

variable {cfg : Config} {network : NetworkId} {taskId : TaskId}

/-- `BatchExecuted` finishes the batch's task, if it has one. -/
theorem processEvent_batchExecuted (s : State) (batchId : BatchId) (txHash : Option Hash) :
    ∃ s₁ : State, s₁.toTaskStore = s.toTaskStore ∧
      (State.processEvent cfg network taskId s (.batchExecuted batchId txHash)).toTaskStore =
        match s.batchTaskId.get batchId with
        | some t => (s₁.finishTask network t (.ok ())).toTaskStore
        | none => s.toTaskStore := by
  refine ⟨{ s with
    processedEvents := s.processedEvents ++ [(network, taskId, .batchExecuted batchId txHash)]
    pendingBatches := s.pendingBatches.remove batchId }, rfl, ?_⟩
  cases hb : s.batchTaskId.get batchId <;> cases txHash <;> simp [State.processEvent, hb]

theorem processEvent_finishing (s : State) (event : GmpEvent) :
    Finishing s (State.processEvent cfg network taskId s event) := by
  cases event with
  | batchExecuted batchId txHash =>
      obtain ⟨s₁, hs₁, heq⟩ := @processEvent_batchExecuted cfg network taskId s batchId txHash
      cases hb : s.batchTaskId.get batchId with
      | none =>
          rw [hb] at heq
          exact .of_frame heq
      | some t =>
          rw [hb] at heq
          exact (Finishing.of_frame hs₁).trans (finishTask_finishing.trans (.of_frame heq))
  | _ => exact .of_frame rfl

theorem processEvents_finishing (s : State) (events : List GmpEvent) :
    Finishing s (s.processEvents cfg network taskId events) := by
  induction events generalizing s with
  | nil => exact .refl s
  | cons event events ih => exact (processEvent_finishing s event).trans (ih _)

/-- Events other than `BatchExecuted` do not reach the task storage. -/
theorem processEvents_toTaskStore (s : State) {events : List GmpEvent}
    (h : executedBatches events = []) :
    (s.processEvents cfg network taskId events).toTaskStore = s.toTaskStore := by
  induction events generalizing s with
  | nil => rfl
  | cons event events ih =>
      cases event with
      | batchExecuted batchId txHash => cases h
      | _ => exact ih _ h

theorem processEvent_processed (s : State) (event : GmpEvent) :
    (State.processEvent cfg network taskId s event).processedEvents
      = s.processedEvents ++ [(network, taskId, event)] := by
  cases event with
  | batchExecuted batchId txHash =>
      unfold State.processEvent
      dsimp only
      cases s.batchTaskId.get batchId <;> cases txHash <;> simp only [finishTask_processed]
  | _ => rfl

theorem processEvents_processed (s : State) (events : List GmpEvent) :
    (s.processEvents cfg network taskId events).processedEvents
      = s.processedEvents ++ events.map fun event => (network, taskId, event) := by
  induction events generalizing s with
  | nil => exact (List.append_nil _).symm
  | cons event events ih =>
      rw [State.processEvents, List.foldl_cons]
      refine (ih _).trans ?_
      rw [processEvent_processed, List.append_assoc]
      rfl

/-- Events leave a task alone that no batch is linked to. -/
theorem processEvents_of_unlinked (s : State) {events : List GmpEvent} {t : TaskId}
    (h : ∀ batchId, s.batchTaskId.get batchId ≠ some t) :
    (s.processEvents cfg network taskId events).taskOutput.get t = s.taskOutput.get t ∧
      (s.processEvents cfg network taskId events).taskShard.get t = s.taskShard.get t := by
  induction events generalizing s with
  | nil => exact ⟨rfl, rfl⟩
  | cons event events ih =>
      have hfin := @processEvent_finishing cfg network taskId s event
      obtain ⟨hout, hshard⟩ := ih (State.processEvent cfg network taskId s event) fun batchId => by
        rw [hfin.batchTaskId]
        exact h batchId
      suffices hone : (State.processEvent cfg network taskId s event).taskOutput.get t
          = s.taskOutput.get t ∧
          (State.processEvent cfg network taskId s event).taskShard.get t = s.taskShard.get t from
        ⟨hout.trans hone.1, hshard.trans hone.2⟩
      cases event with
      | batchExecuted batchId txHash =>
          obtain ⟨s₁, hs₁, heq⟩ := @processEvent_batchExecuted cfg network taskId s batchId txHash
          cases hb : s.batchTaskId.get batchId with
          | none =>
              rw [hb] at heq
              rw [congrArg TaskStore.taskOutput heq, congrArg TaskStore.taskShard heq]
              exact ⟨rfl, rfl⟩
          | some u =>
              rw [hb] at heq
              have hne : t ≠ u := fun htu => h batchId (htu ▸ hb)
              rw [congrArg TaskStore.taskOutput heq, congrArg TaskStore.taskShard heq,
                (finishTask_of_ne hne).1, (finishTask_of_ne hne).2,
                congrArg TaskStore.taskOutput hs₁, congrArg TaskStore.taskShard hs₁]
              exact ⟨rfl, rfl⟩
      | _ => exact ⟨rfl, rfl⟩

theorem processEvent_quiet (hok : Stable ok) {s : State} {event : GmpEvent}
    (h : ∀ {batchId txHash t}, event = .batchExecuted batchId txHash →
      s.batchTaskId.get batchId = some t → ok s network t) :
    QuietSteps home ok exempt s (State.processEvent cfg network taskId s event) := by
  cases event with
  | batchExecuted batchId txHash =>
      obtain ⟨s₁, hs₁, heq⟩ := @processEvent_batchExecuted cfg network taskId s batchId txHash
      cases hb : s.batchTaskId.get batchId with
      | none =>
          rw [hb] at heq
          exact .single (.frame heq)
      | some t =>
          rw [hb] at heq
          have hb₁ : s₁.batchTaskId.get batchId = some t := by
            rw [congrArg TaskStore.batchTaskId hs₁]
            exact hb
          refine ReflTransGen.head (.frame hs₁) (.head (.finishBatch (.ok ()) hb₁ ?_)
            (.single (.frame heq)))
          exact (Finishing.of_frame hs₁).keeps hok (h rfl hb)
  | _ => exact .single (.frame rfl)

theorem processEvents_quiet (hok : Stable ok) {s : State} {events : List GmpEvent}
    (h : ∀ {batchId t}, batchId ∈ executedBatches events →
      s.batchTaskId.get batchId = some t → ok s network t) :
    QuietSteps home ok exempt s (s.processEvents cfg network taskId events) := by
  induction events generalizing s with
  | nil => exact .refl
  | cons event events ih =>
      have hfin := @processEvent_finishing cfg network taskId s event
      refine (processEvent_quiet hok fun {batchId txHash t} hev hb => ?_).trans
        (ih fun {batchId t} hmem hb => ?_)
      · exact h (by simp [executedBatches, hev]) hb
      · rw [hfin.batchTaskId] at hb
        refine hfin.keeps hok (h ?_ hb)
        cases event with
        | batchExecuted b _ => exact List.mem_cons_of_mem b hmem
        | _ => exact hmem

/-- Every task whose batch is reported executed has an output afterwards. -/
theorem processEvents_output {s : State} {events : List GmpEvent} {batchId : BatchId} {t : TaskId}
    (hmem : batchId ∈ executedBatches events) (hb : s.batchTaskId.get batchId = some t) :
    (s.processEvents cfg network taskId events).taskOutput.get t ≠ none := by
  induction events generalizing s with
  | nil => cases hmem
  | cons event events ih =>
      have hfin := @processEvent_finishing cfg network taskId s event
      have hb' : (State.processEvent cfg network taskId s event).batchTaskId.get batchId
          = some t := by rw [hfin.batchTaskId, hb]
      cases event with
      | batchExecuted b txHash =>
          rcases List.mem_cons.mp hmem with rfl | hmem
          · refine (processEvents_finishing _ events).output ?_
            obtain ⟨s₁, -, heq⟩ := @processEvent_batchExecuted cfg network taskId s batchId txHash
            rw [hb] at heq
            rw [congrArg TaskStore.taskOutput heq]
            exact finishTask_output_self
          · exact ih hmem hb'
      | _ => exact ih hmem hb'

end Events

/-! ## Scheduling -/

section Schedule

variable {cfg : Config} {env : Env}

/-- Between the two states tasks were taken from queues and assigned;
counts, shards, batches, ops and events are untouched. -/
structure Assigning (s s' : State) : Prop where
  taskCount : s'.taskCount = s.taskCount
  executedTaskCount : s'.executedTaskCount = s.executedTaskCount
  networkShards : s'.networkShards = s.networkShards
  toBatchStore : s'.toBatchStore = s.toBatchStore
  toOpStore : s'.toOpStore = s.toOpStore
  toEventStore : s'.toEventStore = s.toEventStore

theorem Assigning.refl (s : State) : Assigning s s := ⟨rfl, rfl, rfl, rfl, rfl, rfl⟩

theorem Assigning.trans {s₁ s₂ s₃ : State} (h : Assigning s₁ s₂) (h' : Assigning s₂ s₃) :
    Assigning s₁ s₃ :=
  ⟨h'.taskCount.trans h.taskCount, h'.executedTaskCount.trans h.executedTaskCount,
    h'.networkShards.trans h.networkShards, h'.toBatchStore.trans h.toBatchStore,
    h'.toOpStore.trans h.toOpStore, h'.toEventStore.trans h.toEventStore⟩

/-! What one assignment keeps, the whole of `schedule_tasks` keeps. -/

/-- The state a loop of `schedule_tasks` ends in. -/
def State.Loop.state : State.Loop → State
  | .next s _ => s
  | .done s => s

section Rule

variable {P : State → Prop} {s : State} (hassign : ∀ {s} queue shard taskId, P s →
  P ({ s with uaTasks := queue }.assignTask shard taskId))

include hassign

theorem scheduleTasksShard_rule (hs : P s) (network : NetworkId) (shard : ShardId)
    (capacity assigned : Nat) :
    P (State.scheduleTasksShard network shard capacity s assigned).1 := by
  induction capacity generalizing s assigned with
  | zero => exact hs
  | succ capacity ih =>
      rw [State.scheduleTasksShard]
      split
      · exact hs
      · exact ih (hassign _ _ _ hs) _

theorem scheduleShards_rule (hs : P s) (network : NetworkId) (quota : Nat)
    (shards : List ShardId) (assigned : Nat) :
    P (State.scheduleShards cfg network quota shards s assigned).state := by
  induction shards generalizing s assigned with
  | nil => exact hs
  | cons shard shards ih =>
      rw [State.scheduleShards]
      split
      · exact ih (scheduleTasksShard_rule hassign hs ..) _
      · exact scheduleTasksShard_rule hassign hs ..

/-- The read-task part of `scheduleNetwork`. -/
theorem scheduleRead_rule (hs : P s) (limit : Nat) (taskId : TaskId) (assigned : Nat)
    (shards : List ShardId) :
    P (if s.taskShard.containsKey taskId then State.Loop.next s assigned
        else State.scheduleReadTask cfg limit taskId assigned s shards).state := by
  split
  · exact hs
  · induction shards with
    | nil => exact hs
    | cons shard shards ih =>
        rw [State.scheduleReadTask]
        split
        · split
          · exact hs
          · exact hassign s.uaTasks shard taskId hs
        · exact ih

theorem scheduleNetwork_rule (hs : P s) {network : NetworkId} {taskId : TaskId} {assigned : Nat}
    {loop : State.Loop}
    (h : State.scheduleNetwork cfg env network taskId s assigned = some loop) : P loop.state := by
  have hread := @scheduleRead_rule cfg P s hassign hs (env.networks.shardTaskLimit network) taskId
    assigned (s.shardsOf cfg network)
  simp only [State.scheduleNetwork] at h
  split at h
  · next s₁ heq =>
      rw [heq] at hread
      cases h
      exact hread
  · next s₁ assigned₁ heq =>
      rw [heq] at hread
      split at h
      · cases h
        exact hread
      · simp only [bind, Option.bind_eq_some_iff, pure, Option.some.injEq] at h
        obtain ⟨quota, -, rfl⟩ := h
        exact scheduleShards_rule hassign hread ..

theorem scheduleTasks_rule (hs : P s) {s' : State} (h : s.scheduleTasks cfg env = some s') :
    P s' := by
  have hloop : ∀ (entries : List (NetworkId × TaskId)) (assigned : Nat) {s}, P s →
      State.scheduleNetworks cfg env entries s assigned = some s' → P s' := by
    intro entries
    induction entries with
    | nil =>
        intro assigned s hs h
        cases h
        exact hs
    | cons e entries ih =>
        intro assigned s hs h
        obtain ⟨network, taskId⟩ := e
        rw [State.scheduleNetworks] at h
        split at h
        · cases h
        · next s₁ heq =>
            cases h
            exact scheduleNetwork_rule hassign hs heq
        · next s₁ assigned₁ heq => exact ih assigned₁ (scheduleNetwork_rule hassign hs heq) h
  exact hloop _ _ hs h

end Rule

theorem Assigning.assign {s s₁ : State} (h : Assigning s s₁) (queue : QueueImpl NetworkId TaskId)
    (shard : ShardId) (taskId : TaskId) :
    Assigning s ({ s₁ with uaTasks := queue }.assignTask shard taskId) :=
  h.trans ⟨rfl, rfl, rfl, rfl, rfl, rfl⟩

theorem scheduleTasksShard_assigning (network : NetworkId) (shard : ShardId) (capacity : Nat)
    (s : State) (assigned : Nat) :
    Assigning s (State.scheduleTasksShard network shard capacity s assigned).1 :=
  scheduleTasksShard_rule (fun q sh t h => h.assign q sh t) (.refl s) ..

theorem scheduleShards_assigning (network : NetworkId) (quota : Nat) (shards : List ShardId)
    (s : State) (assigned : Nat) :
    Assigning s (State.scheduleShards cfg network quota shards s assigned).state :=
  scheduleShards_rule (fun q sh t h => h.assign q sh t) (.refl s) ..

theorem scheduleRead_assigning (limit : Nat) (taskId : TaskId) (assigned : Nat) (s : State)
    (shards : List ShardId) :
    Assigning s
      (if s.taskShard.containsKey taskId then State.Loop.next s assigned
        else State.scheduleReadTask cfg limit taskId assigned s shards).state :=
  scheduleRead_rule (fun q sh t h => h.assign q sh t) (.refl s) ..

theorem scheduleTasks_assigning {s s' : State} (h : s.scheduleTasks cfg env = some s') :
    Assigning s s' :=
  scheduleTasks_rule (fun q sh t h => h.assign q sh t) (.refl s) h

theorem scheduleTasksShard_quiet (shard : ShardId) (capacity : Nat) (s : State) (assigned : Nat) :
    QuietSteps home ok exempt s
      (State.scheduleTasksShard (home shard) shard capacity s assigned).1 := by
  induction capacity generalizing s assigned with
  | zero => exact .refl
  | succ capacity ih =>
      rw [State.scheduleTasksShard]
      split
      · exact .refl
      · next taskId queue hpop => exact .head (.dequeue hpop) (ih _ _)

theorem scheduleShards_quiet {network : NetworkId} (quota : Nat) {shards : List ShardId}
    (hhome : ∀ shard ∈ shards, network = home shard) (s : State) (assigned : Nat) :
    QuietSteps home ok exempt s
      (State.scheduleShards cfg network quota shards s assigned).state := by
  induction shards generalizing s assigned with
  | nil => exact .refl
  | cons shard shards ih =>
      obtain rfl := hhome shard (List.mem_cons_self ..)
      rw [State.scheduleShards]
      split
      · exact (scheduleTasksShard_quiet shard _ s 0).trans
          (ih (fun sh hsh => hhome sh (List.mem_cons_of_mem _ hsh)) _ _)
      · exact scheduleTasksShard_quiet shard _ s 0

theorem scheduleReadTask_quiet {network : NetworkId} {limit assigned : Nat} {taskId : TaskId}
    {s : State} {shards : List ShardId} (hhome : ∀ shard ∈ shards, network = home shard)
    (hread : s.readEventsTask.get network = some taskId) (hs : s.taskShard.get taskId = none) :
    QuietSteps home ok exempt s
      (State.scheduleReadTask cfg limit taskId assigned s shards).state := by
  induction shards with
  | nil => exact .refl
  | cons shard shards ih =>
      obtain rfl := hhome shard (List.mem_cons_self ..)
      rw [State.scheduleReadTask]
      split
      · split
        · exact .refl
        · exact .single (.assignRead hread hs)
      · exact ih fun sh hsh => hhome sh (List.mem_cons_of_mem _ hsh)

theorem mem_shardsOf {s : State} {network : NetworkId} {shard : ShardId} :
    shard ∈ s.shardsOf cfg network ↔ s.networkShards.get (network, shard) ≠ none := by
  rw [State.shardsOf, List.mem_map, Option.ne_none_iff_exists']
  constructor
  · rintro ⟨⟨sh, u⟩, hmem, rfl⟩
    exact ⟨u, StorageMap.mem_iterPrefix.mp hmem⟩
  · rintro ⟨u, hget⟩
    exact ⟨(shard, u), StorageMap.mem_iterPrefix.mpr hget, rfl⟩

theorem scheduleNetwork_quiet {network : NetworkId} {taskId : TaskId} {s : State} {assigned : Nat}
    {loop : State.Loop} (hhome : HomedShards home s)
    (hread : s.readEventsTask.get network = some taskId)
    (h : State.scheduleNetwork cfg env network taskId s assigned = some loop) :
    QuietSteps home ok exempt s loop.state := by
  have hreadTask : QuietSteps home ok exempt s
      (if s.taskShard.containsKey taskId then State.Loop.next s assigned
        else State.scheduleReadTask cfg (env.networks.shardTaskLimit network) taskId assigned s
          (s.shardsOf cfg network)).state := by
    split
    · exact .refl
    · next hs =>
        rw [StorageMap.containsKey_iff, not_not] at hs
        exact scheduleReadTask_quiet (fun sh hsh => hhome (mem_shardsOf.mp hsh)) hread hs
  have hread' := @scheduleRead_assigning cfg (env.networks.shardTaskLimit network) taskId assigned
    s (s.shardsOf cfg network)
  simp only [State.scheduleNetwork] at h
  split at h
  · next s₁ heq =>
      rw [heq] at hreadTask
      cases h
      exact hreadTask
  · next s₁ assigned₁ heq =>
      rw [heq] at hreadTask hread'
      have hnext : s₁.networkShards = s.networkShards := hread'.networkShards
      refine ReflTransGen.trans hreadTask ?_
      split at h
      · cases h
        exact .refl
      · simp only [bind, Option.bind_eq_some_iff, pure, Option.some.injEq] at h
        obtain ⟨quota, -, rfl⟩ := h
        refine scheduleShards_quiet _ (fun shard hsh => ?_) _ _
        have hmem := mem_shardsOf.mp (List.mem_of_mem_filter hsh)
        rw [hnext] at hmem
        exact hhome hmem

/-- Without registered shards only the read task is assigned. -/
theorem scheduleNetwork_unregistered {s : State} {network : NetworkId} {taskId : TaskId}
    {shard : ShardId} {assigned : Nat}
    (hfree : s.taskShard.get taskId = none) (hshards : s.shardsOf cfg network = [shard])
    (hload : s.shardTaskCount.getD shard 0 < env.networks.shardTaskLimit network)
    (hblock : assigned ≠ cfg.maxTasksPerBlock) (hreg : s.isShardRegistered env shard = false) :
    State.scheduleNetwork cfg env network taskId s assigned
      = some (.next (s.assignTask shard taskId) (satSucc 32 assigned)) := by
  have hread : s.taskShard.containsKey taskId = false := StorageMap.containsKey_eq_false.mpr hfree
  have hshards' : (s.assignTask shard taskId).shardsOf cfg network = [shard] := hshards
  have hreg' : (s.assignTask shard taskId).isShardRegistered env shard = false := hreg
  simp [State.scheduleNetwork, hread, hshards, State.scheduleReadTask, hload, hblock, hshards',
    hreg']

end Schedule

/-! ## What quiet steps keep -/

namespace Quiet

variable {s s' : State}

theorem readEventsTask (h : Quiet home ok exempt s s') : s'.readEventsTask = s.readEventsTask := by
  cases h with
  | finishOwn => exact finishTask_finishing.readEventsTask
  | finishBatch => exact finishTask_finishing.readEventsTask
  | release =>
      unfold State.releaseTask
      split <;> rfl
  | forget _ heq => exact (congrArg TaskStore.readEventsTask heq :)
  | frame heq => exact (congrArg TaskStore.readEventsTask heq :)
  | _ => rfl

theorem syncHeight (h : Quiet home ok exempt s s') : s'.syncHeight = s.syncHeight := by
  cases h with
  | finishOwn => exact (congrArg TaskStore.syncHeight finishTask_finishing.rest :)
  | finishBatch => exact (congrArg TaskStore.syncHeight finishTask_finishing.rest :)
  | release =>
      unfold State.releaseTask
      split <;> rfl
  | forget _ heq => exact (congrArg TaskStore.syncHeight heq :)
  | frame heq => exact (congrArg TaskStore.syncHeight heq :)
  | _ => rfl

theorem homedShards (h : Quiet home ok exempt s s') (hs : HomedShards home s) :
    HomedShards home s' := by
  intro network shard hget
  cases h with
  | finishOwn => exact hs ((congrArg TaskStore.networkShards finishTask_finishing.rest :) ▸ hget)
  | finishBatch => exact hs ((congrArg TaskStore.networkShards finishTask_finishing.rest :) ▸ hget)
  | release =>
      unfold State.releaseTask at hget
      split at hget <;> exact hs hget
  | forget _ heq => exact hs ((congrArg TaskStore.networkShards heq :) ▸ hget)
  | frame heq => exact hs ((congrArg TaskStore.networkShards heq :) ▸ hget)
  | online sh =>
      simp only [StorageMap.get_insert] at hget
      split at hget
      · next heq =>
          obtain ⟨rfl, rfl⟩ := Prod.mk.injEq .. |>.mp heq
          rfl
      · exact hs hget
  | offline n sh =>
      simp only [StorageMap.get_remove] at hget
      split at hget
      · exact absurd rfl hget
      · exact hs hget
  | _ => exact hs hget

end Quiet

namespace QuietSteps

variable {s s' : State}

theorem readEventsTask (h : QuietSteps home ok exempt s s') :
    s'.readEventsTask = s.readEventsTask := by
  induction h with
  | refl => rfl
  | tail _ hstep ih => rw [hstep.readEventsTask, ih]

theorem syncHeight (h : QuietSteps home ok exempt s s') : s'.syncHeight = s.syncHeight := by
  induction h with
  | refl => rfl
  | tail _ hstep ih => rw [hstep.syncHeight, ih]

theorem homedShards (h : QuietSteps home ok exempt s s') (hs : HomedShards home s) :
    HomedShards home s' := by
  induction h with
  | refl => exact hs
  | tail _ hstep ih => exact hstep.homedShards ih

end QuietSteps

/-! ## Counters and histories -/

/-- How often a task was pushed onto the queue of `network`. -/
def State.pushes (s : State) (network : NetworkId) : Nat :=
  s.queuedTasks.countP fun push => push.1 = network

/-- Counters never run ahead of what they count. -/
structure Counted (s : State) : Prop where
  counter_le : s.taskIdCounter ≤ s.createdTasks.length
  counter_max : s.taskIdCounter ≤ maxVal 64
  task_le : ∀ ⦃taskId⦄, s.tasks.get taskId ≠ none → taskId ≤ s.taskIdCounter
  taskCount_le : ∀ network, s.taskCount.getD network 0 ≤ s.createdTasks.length
  insert_le : ∀ network, s.uaTasks.insertI network ≤ s.pushes network

/-- An id is handed out twice only when ids have run out. -/
theorem Counted.nextTaskId_ne {s : State} (h : Counted s) {taskId : TaskId}
    (htask : s.tasks.get taskId ≠ none) (hlen : s.createdTasks.length + 1 < 2 ^ 64) :
    s.nextTaskId ≠ taskId := by
  have hle := h.task_le htask
  have hcount := h.counter_le
  have hnext : s.nextTaskId = s.taskIdCounter + 1 := satSucc_of_lt (by simp only [maxVal]; omega)
  rintro rfl
  rw [hnext] at hle
  exact Nat.not_succ_le_self _ hle

theorem Counted.of_eq {s s' : State} (h : Counted s)
    (hcounter : s'.taskIdCounter = s.taskIdCounter) (hcreated : s'.createdTasks = s.createdTasks)
    (htasks : ∀ taskId, s'.tasks.get taskId ≠ none → s.tasks.get taskId ≠ none)
    (htaskCount : s'.taskCount = s.taskCount)
    (hinsert : ∀ network, s'.uaTasks.insertI network = s.uaTasks.insertI network)
    (hqueued : s'.queuedTasks = s.queuedTasks) : Counted s' where
  counter_le := by rw [hcounter, hcreated]; exact h.counter_le
  counter_max := by rw [hcounter]; exact h.counter_max
  task_le taskId ht := by rw [hcounter]; exact h.task_le (htasks taskId ht)
  taskCount_le network := by rw [htaskCount, hcreated]; exact h.taskCount_le network
  insert_le network := by
    rw [hinsert, State.pushes, hqueued]
    exact h.insert_le network

theorem Counted.pushTask {s : State} (h : Counted s) (network : NetworkId) (taskId : TaskId) :
    Counted (s.pushTask network taskId) :=
  { h with
    insert_le := fun m => by
      have hle := h.insert_le m
      simp only [State.pushTask, State.pushes, List.countP_append, List.countP_singleton]
      by_cases hm : m = network
      · subst hm
        rw [QueueImpl.insertI_push_self, if_pos (by simp)]
        exact Nat.le_trans (satAdd_le ..) (Nat.add_le_add_right hle 1)
      · rw [QueueImpl.insertI_push_of_ne _ _ hm]
        exact Nat.le_trans hle (Nat.le_add_right ..) }

theorem Counted.createTask {s : State} (h : Counted s) (network : NetworkId) (task : Task) :
    Counted (s.createTask network task) := by
  -- everything but the queue, which only a batch task touches
  have hbase : Counted
      { s with
        tasks := s.tasks.insert s.nextTaskId task
        taskNetwork := s.taskNetwork.insert s.nextTaskId network
        taskIdCounter := s.nextTaskId
        createdTasks := s.createdTasks ++ [(network, s.nextTaskId, task)]
        taskCount := s.taskCount.insert network (satAdd 64 (s.taskCount.getD network 0) 1) } := by
    refine ⟨?_, satAdd_le_max .., fun taskId ht => ?_, fun m => ?_, h.insert_le⟩
    · rw [List.length_append]
      exact Nat.le_trans (satAdd_le ..) (Nat.add_le_add_right h.counter_le 1)
    · simp only [StorageMap.get_insert] at ht
      split at ht
      · next heq => exact Nat.le_of_eq heq
      · exact Nat.le_trans (h.task_le ht) (le_satAdd h.counter_max)
    · have hle := h.taskCount_le
      rw [List.length_append, StorageMap.getD_insert]
      split
      · exact Nat.le_trans (satAdd_le ..) (Nat.add_le_add_right (hle network) 1)
      · exact Nat.le_trans (hle m) (Nat.le_add_right ..)
  cases task with
  | readGatewayEvents blocks =>
      exact hbase.of_eq rfl rfl (fun _ => id) rfl (fun _ => rfl) rfl
  | submitGatewayMessage batchId =>
      exact (hbase.pushTask network s.nextTaskId).of_eq rfl rfl (fun _ => id) rfl (fun _ => rfl) rfl

theorem Counted.finishing {s s' : State} (h : Counted s) (hfin : Finishing s s') : Counted s' :=
  h.of_eq (congrArg TaskStore.taskIdCounter hfin.rest :) hfin.createdTasks
    (fun _ ht => hfin.tasks ▸ ht) (congrArg TaskStore.taskCount hfin.rest :)
    (fun _ => by rw [hfin.uaTasks]) (congrArg TaskStore.queuedTasks hfin.rest :)

theorem Quiet.counted {s s' : State} (h : Quiet home ok exempt s s') (hs : Counted s) :
    Counted s' := by
  cases h with
  | batchTask network batchId => exact hs.createTask network _
  | finishOwn => exact hs.finishing finishTask_finishing
  | finishBatch => exact hs.finishing finishTask_finishing
  | @dequeue shard taskId queue hpop =>
      refine hs.of_eq rfl rfl (fun _ => id) rfl (fun n => ?_) rfl
      show queue.insertI n = s.uaTasks.insertI n
      rw [← QueueImpl.insertI_pop s.uaTasks (home shard) n, hpop]
  | @release shard taskId _ =>
      have hrem : Counted { s with
          shardTasks := s.shardTasks.remove (shard, taskId)
          taskShard := s.taskShard.remove taskId } :=
        hs.of_eq rfl rfl (fun _ => id) rfl (fun _ => rfl) rfl
      unfold State.releaseTask
      dsimp only
      split
      · exact hrem.pushTask _ _
      · exact hrem
  | @forget taskId _ _ heq =>
      refine hs.of_eq (congrArg TaskStore.taskIdCounter heq :)
        (congrArg TaskStore.createdTasks heq :) (fun t ht => ?_)
        (congrArg TaskStore.taskCount heq :) (fun n => ?_) (congrArg TaskStore.queuedTasks heq :)
      · rw [(congrArg TaskStore.tasks heq :)] at ht
        simp only [TaskStore.forget, StorageMap.get_remove] at ht
        split at ht
        · exact absurd rfl ht
        · exact ht
      · rw [(congrArg TaskStore.uaTasks heq :)]
        rfl
  | frame heq =>
      exact hs.finishing (.of_frame heq)
  | _ => exact hs.of_eq rfl rfl (fun _ => id) rfl (fun _ => rfl) rfl

theorem Small.counted {s s' : State} (h : Small home ok exempt s s') (hs : Counted s) :
    Counted s' := by
  cases h with
  | quiet h => exact h.counted hs
  | readTask network blocks => exact hs.createTask network _
  | _ => exact hs.of_eq rfl rfl (fun _ => id) rfl (fun _ => rfl) rfl

theorem SmallSteps.counted {s s' : State} (h : SmallSteps home ok exempt s s') (hs : Counted s) :
    Counted s' := by
  induction h with
  | refl => exact hs
  | tail _ hstep ih => exact hstep.counted ih

theorem Quiet.counter_le {s s' : State} (h : Quiet home ok exempt s s') (hs : Counted s) :
    s.taskIdCounter ≤ s'.taskIdCounter := by
  have hfin : ∀ {s' : State}, Finishing s s' → s.taskIdCounter ≤ s'.taskIdCounter := fun hfin =>
    Nat.le_of_eq (congrArg TaskStore.taskIdCounter hfin.rest).symm
  cases h with
  | batchTask network batchId => exact le_satAdd hs.counter_max
  | finishOwn => exact hfin finishTask_finishing
  | finishBatch => exact hfin finishTask_finishing
  | release =>
      unfold State.releaseTask
      split <;> exact Nat.le_refl _
  | forget _ hstore => exact Nat.le_of_eq (congrArg TaskStore.taskIdCounter hstore).symm
  | frame hstore => exact hfin (.of_frame hstore)
  | _ => exact Nat.le_refl _

/-- Ids are handed out in order. -/
theorem SmallSteps.counter_le {s s' : State} (h : SmallSteps home ok exempt s s')
    (hs : Counted s) : s.taskIdCounter ≤ s'.taskIdCounter := by
  have hstep : ∀ {a b : State}, Small home ok exempt a b → Counted a →
      a.taskIdCounter ≤ b.taskIdCounter := by
    intro a b hsmall ha
    cases hsmall with
    | quiet hquiet => exact hquiet.counter_le ha
    | readTask network blocks => exact le_satAdd ha.counter_max
    | _ => exact Nat.le_refl _
  induction h with
  | refl => exact Nat.le_refl _
  | tail hsteps hsmall ih => exact Nat.le_trans ih (hstep hsmall (SmallSteps.counted hsteps hs))

end Tasks

end Timechain
