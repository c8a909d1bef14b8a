import Timechain.Ledger
import Timechain.TasksRefine

/-!
# Who works on what

`TaskShard`, `ShardTasks` and `ShardTaskCount` are the three parts of a
ledger of assigned tasks (`State.ledger`). Every call makes entries in
it: tasks are finished by results and events, assigned by the two loops
of `schedule_tasks`, and a shard that goes offline drops all it holds.

Two facts about assignments come from elsewhere. That the loops hand out
tasks nobody has, is known from the board, hence only while ids last;
that they hand them to listed shards only, is read off the loops. The
`u32` count of a shard is never clamped, since both loops stop at the
network's limit.
-/

namespace Timechain

namespace Tasks

open Relation (ReflTransGen)

def State.ledger (s : State) : Ledger ShardId TaskId where
  owner := s.taskShard.get
  held := s.shardTasks.prefixKeys
  load shard := s.shardTaskCount.getD shard 0

/-- One entry in the ledger, while no shard goes on- or offline. -/
structure Works (may : State → ShardId → TaskId → Prop) (s s' : State) : Prop where
  networkShards : s'.networkShards = s.networkShards
  entry : s.ledger.Entry (may s) s'.ledger

abbrev WorkSteps (may : State → ShardId → TaskId → Prop) : State → State → Prop :=
  ReflTransGen (Works may)

section Works

variable {may : State → ShardId → TaskId → Prop} {s s' : State}

theorem WorkSteps.networkShards (h : WorkSteps may s s') : s'.networkShards = s.networkShards := by
  induction h with
  | refl => rfl
  | tail _ hstep ih => rw [hstep.networkShards, ih]

theorem works_of_eq (hshards : s'.networkShards = s.networkShards)
    (hledger : s'.ledger = s.ledger) : WorkSteps may s s' :=
  .single ⟨hshards, hledger ▸ .refl⟩

theorem works_of_fields (hshards : s'.networkShards = s.networkShards)
    (howner : s'.taskShard = s.taskShard) (hheld : s'.shardTasks = s.shardTasks)
    (hload : s'.shardTaskCount = s.shardTaskCount) : WorkSteps may s s' := by
  refine works_of_eq hshards ?_
  rw [State.ledger, State.ledger, howner, hheld, hload]

/-! ## Entries of the three maps -/

theorem assignTask_ledger {shard : ShardId} (taskId : TaskId)
    (h : s.shardTaskCount.getD shard 0 < maxVal 32) :
    (s.assignTask shard taskId).ledger = s.ledger.assign shard taskId := by
  refine Ledger.ext ?_ ?_ ?_
  · exact StorageMap.get_insert_eq ..
  · exact StorageMap.prefixKeys_insert ..
  · refine (StorageMap.getD_insert_eq_update ..).trans ?_
    have hsucc : satAdd 32 (s.shardTaskCount.getD shard 0) 1 = s.shardTaskCount.getD shard 0 + 1 :=
      satSucc_of_lt h
    rw [hsucc]
    rfl

theorem finishTask_works (network : NetworkId) (taskId : TaskId) (result : Except ErrorMsg Unit) :
    Works may s (s.finishTask network taskId result) := by
  refine ⟨(congrArg TaskStore.networkShards finishTask_finishing.rest :), ?_⟩
  by_cases hout : s.taskOutput.get taskId = none
  · have hledger : (s.finishTask network taskId result).ledger = s.ledger.finish taskId := by
      rw [State.finishTask, if_neg (fun hc => StorageMap.containsKey_iff.mp hc hout)]
      cases hs : s.taskShard.get taskId with
      | none => simp [Ledger.finish, State.ledger, hs, State.depositEvent]
      | some shard =>
          simp only [Ledger.finish, State.ledger, hs, State.depositEvent]
          rw [StorageMap.get_remove_eq, StorageMap.prefixKeys_remove,
            StorageMap.getD_insert_eq_update]
    rw [hledger]
    exact .finish taskId
  · rw [finishTask_of_output hout]
    exact .refl

/-! ## Calls that assign nothing -/

theorem processEvent_works {cfg : Config} (network : NetworkId) (taskId : TaskId)
    (event : GmpEvent) : WorkSteps may s (State.processEvent cfg network taskId s event) := by
  cases event with
  | batchExecuted batchId txHash =>
      -- the log, the task if the batch has one, the hash if there is one
      have hlog : WorkSteps may s { s with
          processedEvents := s.processedEvents ++ [(network, taskId, .batchExecuted batchId txHash)]
          pendingBatches := s.pendingBatches.remove batchId } := works_of_fields rfl rfl rfl rfl
      cases hb : s.batchTaskId.get batchId with
      | none =>
          refine hlog.trans ?_
          cases txHash with
          | none =>
              simp only [State.processEvent, hb]
              exact .refl
          | some hash =>
              simp only [State.processEvent, hb]
              exact works_of_fields rfl rfl rfl rfl
      | some t =>
          refine (hlog.tail (finishTask_works network t (.ok ()))).trans ?_
          cases txHash with
          | none =>
              simp only [State.processEvent, hb]
              exact .refl
          | some hash =>
              simp only [State.processEvent, hb]
              exact works_of_fields rfl rfl rfl rfl
  | _ => exact works_of_fields rfl rfl rfl rfl

theorem processEvents_works (cfg : Config) (network : NetworkId) (taskId : TaskId)
    (events : List GmpEvent) (s : State) :
    WorkSteps may s (s.processEvents cfg network taskId events) := by
  induction events generalizing s with
  | nil => exact .refl
  | cons event events ih => exact (processEvent_works network taskId event).trans (ih _)

theorem createTask_works (network : NetworkId) (task : Task) :
    WorkSteps may s (s.createTask network task) := by
  cases task <;> exact works_of_fields rfl rfl rfl rfl

theorem acceptEvents_works {cfg : Config} {env : Env} (network : NetworkId) (taskId : TaskId)
    (blocks : BlockRange) (events : List GmpEvent) (s : State) :
    WorkSteps may s (s.acceptEvents cfg env network taskId blocks events) := by
  have hsync : WorkSteps may s (s.advanceSync network blocks) := by
    unfold State.advanceSync
    split
    · exact works_of_fields rfl rfl rfl rfl
    · exact .refl
  have hread : WorkSteps may (s.advanceSync network blocks)
      ((s.advanceSync network blocks).readNext env network) := by
    unfold State.readNext
    split
    · exact createTask_works ..
    · exact .refl
  have hsteps := (hsync.trans hread).trans (processEvents_works cfg network taskId events _)
  rw [State.acceptEvents]
  split
  · exact hsteps
  · exact hsteps.tail (finishTask_works ..)

theorem reopenBatches_works (batchIds : List BatchId) (s : State) :
    WorkSteps may s (batchIds.foldl State.reopenBatch s) := by
  induction batchIds generalizing s with
  | nil => exact .refl
  | cons batchId batchIds ih =>
      refine ReflTransGen.trans ?_ (ih _)
      unfold State.reopenBatch
      dsimp only
      split <;> exact works_of_fields rfl rfl rfl rfl

theorem foldl_forgetOp_works {cfg : Config} (ops : List GatewayOp) (s : State) :
    WorkSteps may s (ops.foldl (State.forgetOp cfg) s) := by
  induction ops generalizing s with
  | nil => exact .refl
  | cons op ops ih =>
      refine ReflTransGen.trans ?_ (ih _)
      cases op <;> exact works_of_fields rfl rfl rfl rfl

theorem forgetBatch_works {cfg : Config} (batchId : BatchId) :
    WorkSteps may s (s.forgetBatch cfg batchId) := by
  unfold State.forgetBatch
  cases hmsg : s.batchMessage.get batchId with
  | none => exact works_of_fields rfl rfl rfl rfl
  | some msg =>
      have hmessage : WorkSteps may s { s with batchMessage := s.batchMessage.remove batchId } :=
        works_of_fields rfl rfl rfl rfl
      exact (hmessage.trans (foldl_forgetOp_works msg.ops _)).trans
        (works_of_fields rfl rfl rfl rfl)

theorem removeTask_works {cfg : Config} {origin : Origin} {taskId : TaskId}
    (h : s.removeTask cfg origin taskId = .ok s') : WorkSteps may s s' := by
  obtain ⟨-, -, h⟩ := bind_ok h
  split at h
  · cases h
    have hforget : WorkSteps may s { s with
        taskOutput := s.taskOutput.remove taskId
        tasks := s.tasks.remove taskId } := works_of_fields rfl rfl rfl rfl
    split
    · next batchId _ =>
        exact (hforget.trans (forgetBatch_works batchId)).trans (works_of_fields rfl rfl rfl rfl)
    · exact works_of_fields rfl rfl rfl rfl
  · cases h

theorem restartBatch_works {cfg : Config} {origin : Origin} {batchId : BatchId}
    (h : s.restartBatch cfg origin batchId = .ok s') : WorkSteps may s s' := by
  obtain ⟨-, -, h⟩ := bind_ok h
  obtain ⟨oldTaskId, -, h⟩ := bind_ok h
  obtain ⟨network, -, h⟩ := bind_ok h
  cases h
  exact works_of_fields rfl rfl rfl rfl

/-! ### Batching -/

theorem foldl_recordOp_works {cfg : Config} (batchId : BatchId) (ops : List GatewayOp)
    (s : State) : WorkSteps may s (ops.foldl (State.recordOp cfg batchId) s) := by
  induction ops generalizing s with
  | nil => exact .refl
  | cons op ops ih =>
      refine ReflTransGen.trans ?_ (ih _)
      cases op <;> exact works_of_fields rfl rfl rfl rfl

theorem startBatch_works (cfg : Config) (network : NetworkId) (msg : GatewayMessage) :
    WorkSteps may s (s.startBatch cfg network msg) := by
  have hstart : WorkSteps may s { s with
      batchIdCounter := satAdd 64 s.batchIdCounter 1
      startedBatches := s.startedBatches ++ [(network, s.batchIdCounter, msg)] } :=
    works_of_fields rfl rfl rfl rfl
  exact (hstart.trans (foldl_recordOp_works s.batchIdCounter msg.ops _)).trans
    (works_of_fields rfl rfl rfl rfl)

theorem prepareBatches_works {cfg : Config} {env : Env} (s : State) :
    WorkSteps may s (s.prepareBatches cfg env).1 :=
  prepareBatches_rule (fun _ hs => hs.trans (works_of_fields rfl rfl rfl rfl))
    (fun network msg hs => hs.trans (startBatch_works cfg network msg)) .refl

/-- Every call but those of the shards pallet. -/
theorem exec_works {cfg : Config} {i : Input}
    (honline : ∀ shard network, i.call ≠ .shardOnline shard network)
    (hoffline : ∀ shard network, i.call ≠ .shardOffline shard network)
    (hsched : (s.prepareBatches cfg i.env).1.scheduleTasks cfg i.env = some s' →
      WorkSteps may (s.prepareBatches cfg i.env).1 s')
    (h : exec cfg s i = some s') : WorkSteps may s s' := by
  obtain ⟨env, call⟩ := i
  cases exec_ends h with
  | idle => exact .refl
  | onInitialize hrun => exact (prepareBatches_works s).trans (hsched hrun)
  | acceptEvents => exact acceptEvents_works ..
  | @acceptError _ taskId batchId _ network error _ _ =>
      have hfailed : WorkSteps may s { s with
          pendingBatches := s.pendingBatches.remove batchId
          failedBatchIds := s.failedBatchIds.insert batchId () } :=
        works_of_fields rfl rfl rfl rfl
      exact hfailed.tail (finishTask_works network taskId (.error error))
  | submitGmpEvents => exact (reopenBatches_works ..).trans (processEvents_works ..)
  | syncNetwork => exact works_of_fields rfl rfl rfl rfl
  | stopNetwork => exact works_of_fields rfl rfl rfl rfl
  | removeTask _ hok => exact removeTask_works hok
  | restartBatch hok => exact restartBatch_works hok
  | @shardOnline shard network => exact absurd rfl (honline shard network)
  | @shardOffline shard network => exact absurd rfl (hoffline shard network)
  | gatewayRegistered => exact works_of_fields rfl rfl rfl rfl

end Works

/-! ## Scheduling -/

/-- What the loops of `schedule_tasks` hand out: to a listed shard, a task
that is queued or has no shard. -/
structure Handed (s : State) (shard : ShardId) (taskId : TaskId) : Prop where
  listed : ∃ network, s.networkShards.get (network, shard) ≠ none
  waiting : s.taskShard.get taskId = none ∨ ∃ network, taskId ∈ s.uaTasks.contents network

/-- An assignment, as a step of the board and as an entry in the ledger. -/
def Schedules (home : ShardId → NetworkId) (s s' : State) : Prop :=
  Quiet home (fun _ _ _ => True) (fun _ => False) s s' ∧ Works Handed s s'

/-- `ShardTaskLimit` is a `u32`. -/
def Env.Limited (env : Env) : Prop := ∀ network, env.networks.shardTaskLimit network ≤ maxVal 32

section Schedule

variable {home : ShardId → NetworkId} {cfg : Config} {env : Env}

theorem scheduleTasksShard_schedules {quota : Nat} (hquota : quota ≤ maxVal 32) (shard : ShardId)
    {capacity : Nat} (s : State) (assigned : Nat)
    (hcap : capacity ≤ quota - s.shardTaskCount.getD shard 0)
    (hlisted : s.networkShards.get (home shard, shard) ≠ none) :
    ReflTransGen (Schedules home) s
      (State.scheduleTasksShard (home shard) shard capacity s assigned).1 := by
  induction capacity generalizing s assigned with
  | zero => exact .refl
  | succ capacity ih =>
      rw [State.scheduleTasksShard]
      split
      · exact .refl
      · next taskId queue hpop =>
          have hroom : s.shardTaskCount.getD shard 0 < maxVal 32 := by omega
          have hledger : ({ s with uaTasks := queue }.assignTask shard taskId).ledger
              = s.ledger.assign shard taskId :=
            @assignTask_ledger { s with uaTasks := queue } _ _ hroom
          have hmem : taskId ∈ s.uaTasks.contents (home shard) := by
            rw [QueueImpl.pop_cons hpop]
            exact List.mem_cons_self ..
          refine .head ⟨.dequeue hpop, rfl, ?_⟩ (ih _ _ ?_ hlisted)
          · rw [hledger]
            exact .assign ⟨⟨_, hlisted⟩, Or.inr ⟨_, hmem⟩⟩
          · have hload := congrFun (congrArg Ledger.load hledger) shard
            simp only [State.ledger, Ledger.assign, Function.update_self] at hload
            omega

theorem scheduleReadTask_schedules {network : NetworkId} {limit assigned : Nat} {taskId : TaskId}
    {s : State} {shards : List ShardId} (hlimit : limit ≤ maxVal 32)
    (hhome : ∀ shard ∈ shards, network = home shard)
    (hlisted : ∀ shard ∈ shards, s.networkShards.get (network, shard) ≠ none)
    (hread : s.readEventsTask.get network = some taskId) (hs : s.taskShard.get taskId = none) :
    ReflTransGen (Schedules home) s
      (State.scheduleReadTask cfg limit taskId assigned s shards).state := by
  induction shards with
  | nil => exact .refl
  | cons shard shards ih =>
      obtain rfl := hhome shard (List.mem_cons_self ..)
      rw [State.scheduleReadTask]
      split
      · next hroom =>
          split
          · exact .refl
          · refine .single ⟨.assignRead hread hs, rfl, ?_⟩
            show s.ledger.Entry (Handed s) (s.assignTask shard taskId).ledger
            rw [assignTask_ledger taskId (Nat.lt_of_lt_of_le hroom hlimit)]
            exact .assign ⟨⟨_, hlisted shard (List.mem_cons_self ..)⟩, Or.inl hs⟩
      · exact ih (fun sh hsh => hhome sh (List.mem_cons_of_mem _ hsh))
          fun sh hsh => hlisted sh (List.mem_cons_of_mem _ hsh)

theorem scheduleShards_schedules {network : NetworkId} {quota : Nat} (hquota : quota ≤ maxVal 32)
    {shards : List ShardId} (hhome : ∀ shard ∈ shards, network = home shard) (s : State)
    (assigned : Nat) (hlisted : ∀ shard ∈ shards, s.networkShards.get (network, shard) ≠ none) :
    ReflTransGen (Schedules home) s
      (State.scheduleShards cfg network quota shards s assigned).state := by
  induction shards generalizing s assigned with
  | nil => exact .refl
  | cons shard shards ih =>
      obtain rfl := hhome shard (List.mem_cons_self ..)
      have hshard := hlisted shard (List.mem_cons_self ..)
      rw [State.scheduleShards]
      split
      · refine (scheduleTasksShard_schedules hquota shard s 0 (Nat.le_refl _) hshard).trans
          (ih (fun sh hsh => hhome sh (List.mem_cons_of_mem _ hsh)) _ _ fun sh hsh => ?_)
        rw [(scheduleTasksShard_assigning ..).networkShards]
        exact hlisted sh (List.mem_cons_of_mem _ hsh)
      · next hfull =>
          -- what is left of the block is no more than what the shard can take
          have hle := satAdd_le 32 assigned (quota - s.shardTaskCount.getD shard 0)
          exact scheduleTasksShard_schedules hquota shard s 0 (by omega) hshard

theorem scheduleNetwork_schedules {network : NetworkId} {taskId : TaskId} {s : State}
    {assigned : Nat} {loop : State.Loop} (hlimit : env.Limited) (hhome : HomedShards home s)
    (hread : s.readEventsTask.get network = some taskId)
    (h : State.scheduleNetwork cfg env network taskId s assigned = some loop) :
    ReflTransGen (Schedules home) s loop.state := by
  have hlisted : ∀ shard ∈ s.shardsOf cfg network, s.networkShards.get (network, shard) ≠ none :=
    fun _ hmem => mem_shardsOf.mp hmem
  have hreadTask : ReflTransGen (Schedules home) s
      (if s.taskShard.containsKey taskId then State.Loop.next s assigned
        else State.scheduleReadTask cfg (env.networks.shardTaskLimit network) taskId assigned s
          (s.shardsOf cfg network)).state := by
    split
    · exact .refl
    · next hs =>
        rw [StorageMap.containsKey_iff, not_not] at hs
        exact scheduleReadTask_schedules (hlimit network) (fun sh hsh => hhome (hlisted sh hsh))
          hlisted hread hs
  have hread' := @scheduleRead_assigning cfg (env.networks.shardTaskLimit network) taskId assigned
    s (s.shardsOf cfg network)
  simp only [State.scheduleNetwork] at h
  split at h
  · next s₁ heq =>
      rw [heq] at hreadTask
      cases h
      exact hreadTask
  · next s₁ assigned₁ heq =>
      rw [heq] at hreadTask hread'
      have hnext : s₁.networkShards = s.networkShards := hread'.networkShards
      refine ReflTransGen.trans hreadTask ?_
      split at h
      · cases h
        exact .refl
      · simp only [bind, Option.bind_eq_some_iff, pure, Option.some.injEq] at h
        obtain ⟨quota, -, rfl⟩ := h
        have hmem : ∀ shard ∈ (s₁.shardsOf cfg network).filter fun shard =>
            s₁.isShardRegistered env shard && env.shards.isShardOnline shard,
            s₁.networkShards.get (network, shard) ≠ none :=
          fun shard hsh => mem_shardsOf.mp (List.mem_of_mem_filter hsh)
        refine scheduleShards_schedules (Nat.le_trans (Nat.min_le_right ..) (hlimit network))
          (fun shard hsh => hhome ?_) _ _ hmem
        rw [← hnext]
        exact hmem shard hsh

theorem scheduleNetworks_schedules {entries : List (NetworkId × TaskId)} {s s' : State}
    {assigned : Nat} (hlimit : env.Limited) (hhome : HomedShards home s)
    (hread : ∀ e ∈ entries, s.readEventsTask.get e.1 = some e.2)
    (h : State.scheduleNetworks cfg env entries s assigned = some s') :
    ReflTransGen (Schedules home) s s' := by
  induction entries generalizing s assigned with
  | nil =>
      cases h
      exact .refl
  | cons e entries ih =>
      obtain ⟨network, taskId⟩ := e
      have hnet : ∀ {loop}, State.scheduleNetwork cfg env network taskId s assigned = some loop →
          ReflTransGen (Schedules home) s loop.state :=
        scheduleNetwork_schedules hlimit hhome (hread _ (List.mem_cons_self ..))
      rw [State.scheduleNetworks] at h
      split at h
      · cases h
      · next s₁ heq =>
          cases h
          exact hnet heq
      · next s₁ assigned₁ heq =>
          have hsteps : ReflTransGen (Schedules home) s s₁ := hnet heq
          have hquiet : QuietSteps home (fun _ _ _ => True) (fun _ => False) s s₁ :=
            ReflTransGen.mono (fun _ _ hstep => hstep.1) _ _ hsteps
          refine hsteps.trans (ih (hquiet.homedShards hhome) (fun e he => ?_) h)
          rw [hquiet.readEventsTask]
          exact hread e (List.mem_cons_of_mem _ he)

theorem scheduleTasks_schedules {s s' : State} (hlimit : env.Limited)
    (hhome : HomedShards home s) (h : s.scheduleTasks cfg env = some s') :
    ReflTransGen (Schedules home) s s' :=
  scheduleNetworks_schedules hlimit hhome (fun _ he => StorageMap.mem_iter.mp he) h

/-- The task has no shard. -/
def Unowned (s : State) (_ : ShardId) (taskId : TaskId) : Prop := s.taskShard.get taskId = none

/-- While ids last, nobody is working on what is handed out. -/
theorem schedules_unowned {s s' : State} (h : ReflTransGen (Schedules home) s s')
    (hb : Bounded True s') (hcount : Counted s) (hinv : Board.Inv home (board s.toTaskStore)) :
    WorkSteps Unowned s s' := by
  induction h with
  | refl => exact .refl
  | @tail s₁ s₂ hsteps hstep ih =>
      have hb₁ : Bounded True s₁ := (Small.quiet hstep.1).bounded hb
      have hquiet : QuietSteps home (fun _ _ _ => True) (fun _ => False) s s₁ :=
        ReflTransGen.mono (fun _ _ hstep => hstep.1) _ _ hsteps
      have hinv₁ : Board.Inv home (board s₁.toTaskStore) :=
        (hquiet.small.keeps (P := fun _ => True) unrestricted_guards (fun _ _ _ => trivial) hb₁
          hcount hinv trivial).1
      refine (ih hb₁).tail ⟨hstep.2.networkShards, hstep.2.entry.mono fun shard taskId hm => ?_⟩
      rcases hm.waiting with hnone | ⟨network, hmem⟩
      · exact hnone
      · exact hinv₁.queue_unplaced hmem

end Schedule

/-! ## Shards going on- and offline -/

section Shards

variable {cfg : Config} {env : Env} (s : State) (shard : ShardId) (network : NetworkId)

theorem shardOnline_ledger :
    (s.shardOnline env shard network).networkShards
        = s.networkShards.insert (network, shard) () ∧
      (s.shardOnline env shard network).ledger = s.ledger := by
  unfold State.shardOnline
  split
  · split <;> exact ⟨rfl, rfl⟩
  · exact ⟨rfl, rfl⟩

/-- What releasing some tasks of a shard leaves. -/
theorem foldl_releaseTask (read : Option TaskId) (taskIds : List TaskId) (s : State) :
    (taskIds.foldl (State.releaseTask network shard read) s).networkShards = s.networkShards ∧
    (taskIds.foldl (State.releaseTask network shard read) s).toLoadStore = s.toLoadStore ∧
    (∀ t, (taskIds.foldl (State.releaseTask network shard read) s).taskShard.get t
      = if t ∈ taskIds then none else s.taskShard.get t) ∧
    ∀ x t, (taskIds.foldl (State.releaseTask network shard read) s).shardTasks.get (x, t)
      = if x = shard ∧ t ∈ taskIds then none else s.shardTasks.get (x, t) := by
  induction taskIds generalizing s with
  | nil => exact ⟨rfl, rfl, fun t => by simp, fun x t => by simp⟩
  | cons u taskIds ih =>
      obtain ⟨hnet, hload, howner, hheld⟩ := ih (State.releaseTask network shard read s u)
      have hone : (State.releaseTask network shard read s u).networkShards = s.networkShards ∧
          (State.releaseTask network shard read s u).toLoadStore = s.toLoadStore ∧
          (State.releaseTask network shard read s u).taskShard = s.taskShard.remove u := by
        unfold State.releaseTask
        split <;> exact ⟨rfl, rfl, rfl⟩
      refine ⟨hnet.trans hone.1, hload.trans hone.2.1, fun t => ?_, fun x t => ?_⟩
      · rw [List.foldl_cons, howner, hone.2.2, StorageMap.get_remove]
        by_cases ht : t = u
        · simp [ht]
        · simp [ht]
      · rw [List.foldl_cons, hheld, releaseTask_shardTasks, StorageMap.get_remove]
        by_cases ht : t = u
        · by_cases hx : x = shard
          · simp [ht, hx]
          · simp [hx]
        · simp [ht]

theorem shardOffline_ledger :
    (s.shardOffline cfg env shard network).networkShards
        = s.networkShards.remove (network, shard) ∧
      (s.shardOffline cfg env shard network).ledger = s.ledger.drain shard := by
  obtain ⟨hnet, hload, howner, hheld⟩ := foldl_releaseTask shard network
    (s.readEventsTask.get network) ((s.shardTasks.iterPrefix cfg.taskKey shard).map Prod.fst)
    { s with networkShards := s.networkShards.remove (network, shard) }
  have hmem : ∀ t, t ∈ (s.shardTasks.iterPrefix cfg.taskKey shard).map Prod.fst ↔
      t ∈ s.shardTasks.prefixKeys shard :=
    fun t => StorageMap.mem_map_iterPrefix.trans StorageMap.mem_prefixKeys.symm
  obtain ⟨s₁, hs₁⟩ : ∃ s₁, ((s.shardTasks.iterPrefix cfg.taskKey shard).map Prod.fst).foldl
      (State.releaseTask network shard (s.readEventsTask.get network))
      { s with networkShards := s.networkShards.remove (network, shard) } = s₁ := ⟨_, rfl⟩
  rw [hs₁] at hnet hload howner hheld
  have hledger : (State.ledger { s₁ with shardTaskCount := s₁.shardTaskCount.insert shard 0 })
      = s.ledger.drain shard := by
    refine Ledger.ext (funext fun t => ?_) (funext fun x => Finset.ext fun t => ?_) ?_
    · refine (howner t).trans ?_
      simp only [hmem]
      rfl
    · refine StorageMap.mem_prefixKeys.trans ?_
      rw [hheld]
      simp only [hmem]
      by_cases hx : x = shard
      · by_cases ht : t ∈ s.shardTasks.prefixKeys shard
        · simp [Ledger.drain, hx, ht]
        · rw [StorageMap.mem_prefixKeys, not_not] at ht
          simp [Ledger.drain, hx, ht]
      · simp [Ledger.drain, State.ledger, hx, StorageMap.mem_prefixKeys]
    · refine (StorageMap.getD_insert_eq_update ..).trans ?_
      rw [(congrArg LoadStore.shardTaskCount hload :)]
      rfl
  simp only [State.shardOffline, hs₁]
  split <;> exact ⟨hnet, hledger⟩

end Shards

/-! ## Runs -/

section Runs

variable {cfg : Config} {home : ShardId → NetworkId} {ok : State → Input → Prop}

/-- Every shard with a task is listed. -/
def Serving (s : State) : Prop :=
  ∀ ⦃shard taskId⦄, taskId ∈ s.ledger.held shard → ∃ network,
    s.networkShards.get (network, shard) ≠ none

theorem WorkSteps.serving {s s' : State} (h : WorkSteps Handed s s') (hs : Serving s) :
    Serving s' := by
  induction h with
  | refl => exact hs
  | tail _ hstep ih =>
      intro shard taskId hmem
      rw [hstep.networkShards]
      rcases hstep.entry.held hmem with hold | hnew
      · exact ih hold
      · exact hnew.listed

theorem WorkSteps.balanced {s s' : State} (h : WorkSteps Unowned s s') (hs : s.ledger.Balanced) :
    s'.ledger.Balanced := by
  induction h with
  | refl => exact hs
  | tail _ hstep ih => exact ih.entry id hstep.entry

/-- What a call does with tasks and listed shards. -/
inductive Deals (may : State → ShardId → TaskId → Prop) (s : State) (call : Call) (s' : State) :
    Prop
  | works : (∀ shard network, call ≠ .shardOnline shard network) →
      (∀ shard network, call ≠ .shardOffline shard network) → WorkSteps may s s' →
      Deals may s call s'
  | online {shard network} : call = .shardOnline shard network →
      s'.networkShards = s.networkShards.insert (network, shard) () → s'.ledger = s.ledger →
      Deals may s call s'
  | offline {shard network} : call = .shardOffline shard network →
      s'.networkShards = s.networkShards.remove (network, shard) →
      s'.ledger = s.ledger.drain shard → Deals may s call s'

theorem exec_deals {may : State → ShardId → TaskId → Prop} {s s' : State} {i : Input}
    (hsched : (s.prepareBatches cfg i.env).1.scheduleTasks cfg i.env = some s' →
      WorkSteps may (s.prepareBatches cfg i.env).1 s')
    (h : exec cfg s i = some s') : Deals may s i.call s' := by
  by_cases honline : ∀ shard network, i.call ≠ .shardOnline shard network
  · by_cases hoffline : ∀ shard network, i.call ≠ .shardOffline shard network
    · exact .works honline hoffline (exec_works honline hoffline hsched h)
    · push Not at hoffline
      obtain ⟨shard, network, hcall⟩ := hoffline
      simp only [exec, hcall, Option.some.injEq] at h
      subst h
      exact .offline hcall (shardOffline_ledger s shard network).1
        (shardOffline_ledger s shard network).2
  · push Not at honline
    obtain ⟨shard, network, hcall⟩ := honline
    simp only [exec, hcall, Option.some.injEq] at h
    subst h
    exact .online hcall (shardOnline_ledger s shard network).1
      (shardOnline_ledger s shard network).2

/-- Whatever is reported and however long the run. -/
theorem exec_handed {s s' : State} {i : Input} (hshards : HomedShards home s)
    (hlimit : i.env.Limited) (h : exec cfg s i = some s') : Deals Handed s i.call s' := by
  refine exec_deals (fun hsched => ?_) h
  have hprep : QuietSteps home (fun _ _ _ => True) (fun _ => False) s
      (s.prepareBatches cfg i.env).1 := prepareBatches_quiet s
  exact ReflTransGen.mono (fun _ _ hstep => hstep.2) _ _
    (scheduleTasks_schedules hlimit (hprep.homedShards hshards) hsched)

theorem run_serving (hok : ∀ {s i}, ok s i → i.env.Limited) {is : List Input} {s : State}
    (h : PalletRun cfg home ok is s) : Serving s := by
  refine Run.invariant (P := fun _ s => Serving s)
    (fun _ _ hmem => absurd hmem (Finset.notMem_empty _)) (fun {is s i s'} hrun hs hi hexec => ?_) h
  cases exec_handed (run_counted hrun).2 (hok hi.2) hexec with
  | works _ _ hsteps => exact hsteps.serving hs
  | @online x n _ hnet hledger =>
      intro shard taskId hmem
      rw [hledger] at hmem
      obtain ⟨network, hget⟩ := hs hmem
      refine ⟨network, ?_⟩
      rw [hnet, StorageMap.get_insert]
      split
      · exact Option.some_ne_none _
      · exact hget
  | @offline x n _ hnet hledger =>
      intro shard taskId hmem
      rw [hledger] at hmem
      by_cases hx : shard = x
      · simp [Ledger.drain, hx] at hmem
      · simp only [Ledger.drain, Function.update_of_ne hx] at hmem
        obtain ⟨network, hget⟩ := hs hmem
        refine ⟨network, ?_⟩
        rw [hnet, StorageMap.get_remove_of_ne]
        · exact hget
        · intro heq
          exact hx (Prod.mk.injEq .. |>.mp heq).2

theorem run_balanced (hok : ∀ {s i}, ok s i → i.env.Limited) {is : List Input} {s : State}
    (h : PalletRun cfg home ok is s) (hcreated : s.createdTasks.length < 2 ^ 64) :
    s.ledger.Balanced := by
  refine run_induction (P := fun _ s => s.ledger.Balanced) ⟨?_, fun _ => rfl⟩
    (fun {is s i s'} hstep hs => ?_) h hcreated
  · intro x t
    exact iff_of_false (fun hc => nomatch hc) (Finset.notMem_empty _)
  have hdeals : Deals Unowned s i.call s' := by
    refine exec_deals (fun hsched => ?_) hstep.exec
    have hprep : QuietSteps home (fun _ _ _ => True) (fun _ => False) s
        (s.prepareBatches cfg i.env).1 := prepareBatches_quiet s
    have hsteps := scheduleTasks_schedules (hok hstep.ok)
      (hprep.homedShards (run_counted hstep.run).2) hsched
    have hb' : Bounded True s' := ⟨hstep.created_next, fun hl => (hl trivial).elim⟩
    have hquiet : QuietSteps home (fun _ _ _ => True) (fun _ => False)
        (s.prepareBatches cfg i.env).1 s' := ReflTransGen.mono (fun _ _ hstep => hstep.1) _ _ hsteps
    have hinv := (hprep.small.keeps (P := fun _ => True) unrestricted_guards
      (fun _ _ _ => trivial) (hquiet.small.bounded hb') hstep.counted hstep.inv trivial).1
    exact schedules_unowned hsteps hb' (hprep.small.counted hstep.counted) hinv
  cases hdeals with
  | works _ _ hsteps => exact hsteps.balanced hs
  | online _ _ hledger => rwa [hledger]
  | offline _ _ hledger =>
      rw [hledger]
      exact hs.drain _

end Runs

end Tasks

end Timechain
