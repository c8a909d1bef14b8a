import Timechain.ChainNotices
import Timechain.NetworksPallet
import Timechain.TasksRefine

/-!
# Heights

Sync heights are set to the block of a gateway or by an administrator,
and move on by at most one batch for each task that was created. So they
stay below a bound that grows with the number of tasks (`Heights`), and
so do the heights for which `next_batch_size` is called (`Climbs`).
-/

namespace Timechain

namespace Runtime

open Tasks (Origin TaskStore Finishing)

structure Heights (H : Nat) (t : Tasks.State) : Prop where
  sync : ∀ network, t.syncHeight.getD network 0 ≤ H + 2 ^ 32 * t.createdTasks.length
  range : ∀ {taskId blocks}, t.tasks.get taskId = some (.readGatewayEvents blocks) →
    blocks.stop ≤ H + 2 ^ 32 * t.createdTasks.length

/-- From `t` to `t'` the heights keep their bound, and only tasks are
created that read from heights in `asked`. -/
structure Climbs (H : Nat) (asked : NetworkId × Nat → Prop) (t t' : Tasks.State) : Prop where
  heights : Heights H t'
  created : ∃ new, t'.createdTasks = t.createdTasks ++ new ∧
    ∀ e ∈ new, ∀ q, readHeight e = some q → asked q

section Climbs

variable {H : Nat} {asked : NetworkId × Nat → Prop} {cfg : Tasks.Config} {env : Tasks.Env}
  {t t' t'' : Tasks.State}

theorem Climbs.mem_heightsAsked (h : Climbs H asked t t') {q : NetworkId × Nat}
    (hq : q ∈ heightsAsked t t') : asked q := by
  obtain ⟨new, heq, hnew⟩ := h.created
  rw [heightsAsked, heq, List.drop_left] at hq
  obtain ⟨e, he, hread⟩ := List.mem_filterMap.mp hq
  exact hnew e he q hread

theorem Climbs.trans (h : Climbs H asked t t') (h' : Climbs H asked t' t'') :
    Climbs H asked t t'' := by
  obtain ⟨new, heq, hnew⟩ := h.created
  obtain ⟨new', heq', hnew'⟩ := h'.created
  refine ⟨h'.heights, new ++ new', by rw [heq', heq, List.append_assoc], fun e he => ?_⟩
  exact (List.mem_append.mp he).elim (hnew e) (hnew' e)

/-- Tasks may be forgotten, and nothing is created. -/
theorem Heights.climbs (h : Heights H t)
    (htasks : ∀ taskId task, t'.tasks.get taskId = some task → t.tasks.get taskId = some task)
    (hsync : t'.syncHeight = t.syncHeight) (hcreated : t'.createdTasks = t.createdTasks) :
    Climbs H asked t t' where
  heights := by
    refine ⟨fun network => ?_, fun {taskId blocks} ht => ?_⟩
    · rw [hsync, hcreated]
      exact h.sync network
    · rw [hcreated]
      exact h.range (htasks _ _ ht)
  created := ⟨[], by rw [hcreated, List.append_nil], fun e he => absurd he List.not_mem_nil⟩

theorem Heights.climbs_of_store (h : Heights H t) (hstore : t'.toTaskStore = t.toTaskStore) :
    Climbs H asked t t' :=
  h.climbs (fun _ _ ht => (congrArg TaskStore.tasks hstore :) ▸ ht)
    (congrArg TaskStore.syncHeight hstore :) (congrArg TaskStore.createdTasks hstore :)

theorem Heights.climbs_of_finishing (h : Heights H t) (hfin : Finishing t t') :
    Climbs H asked t t' :=
  h.climbs (fun _ _ ht => hfin.tasks ▸ ht) (congrArg TaskStore.syncHeight hfin.rest :)
    hfin.createdTasks

theorem createTask_climbs (h : Heights H t) (network : NetworkId) {task : Task}
    (hstop : ∀ blocks, task = .readGatewayEvents blocks →
      blocks.stop ≤ H + 2 ^ 32 * (t.createdTasks.length + 1))
    (hasked : ∀ q, readHeight (network, t.nextTaskId, task) = some q → asked q) :
    Climbs H asked t (t.createTask network task) where
  heights := by
    have hlen := Tasks.createTask_length t network task
    refine ⟨fun m => ?_, fun {taskId blocks} ht => ?_⟩
    · rw [Tasks.createTask_syncHeight, hlen]
      exact Nat.le_trans (h.sync m) (by omega)
    · rw [Tasks.createTask_tasks, StorageMap.get_insert] at ht
      rw [hlen]
      split at ht
      · cases ht
        exact hstop blocks rfl
      · exact Nat.le_trans (h.range ht) (by omega)
  created := ⟨[(network, t.nextTaskId, task)], Tasks.createTask_createdTasks .., fun e he => by
    rw [List.mem_singleton.mp he]
    exact hasked⟩

/-- A task that submits a batch reads nothing. -/
theorem createBatchTask_climbs (h : Heights H t) (network : NetworkId) (batchId : BatchId) :
    Climbs H asked t (t.createTask network (.submitGatewayMessage batchId)) :=
  createTask_climbs h network (fun _ hno => by cases hno) fun _ hno => by cases hno

theorem startBatch_climbs (h : Heights H t) (network : NetworkId) (msg : GatewayMessage) :
    Climbs H asked t (t.startBatch cfg network msg) := by
  have hrec := @Tasks.foldl_recordOp_toTaskStore cfg t.batchIdCounter msg.ops
    { t with
      batchIdCounter := satAdd 64 t.batchIdCounter 1
      startedBatches := t.startedBatches ++ [(network, t.batchIdCounter, msg)] }
  rw [Tasks.State.startBatch]
  revert hrec
  generalize msg.ops.foldl (Tasks.State.recordOp cfg t.batchIdCounter) _ = t₁
  intro hrec
  have hfirst : Climbs H asked t { t₁ with
      batchMessage := t₁.batchMessage.insert t.batchIdCounter msg } := h.climbs_of_store hrec
  have hcreate := hfirst.trans (createBatchTask_climbs hfirst.heights network t.batchIdCounter)
  exact hcreate.trans (hcreate.heights.climbs (fun _ _ ht => ht) rfl rfl)

theorem onInitialize_climbs (h : Heights H t) (hexec : t.onInitialize cfg env = some t') :
    Climbs H asked t t' := by
  refine Tasks.scheduleTasks_rule (P := Climbs H asked t) (fun _ _ _ hs => ?_) ?_ hexec
  · exact hs.trans (hs.heights.climbs (fun _ _ ht => ht) rfl rfl)
  · refine Tasks.prepareBatches_rule (P := Climbs H asked t) (fun _ hs => ?_)
      (fun network msg hs => hs.trans (startBatch_climbs hs.heights network msg))
      (h.climbs_of_store rfl)
    exact hs.trans (hs.heights.climbs_of_store rfl)

theorem shardOnline_climbs (h : Heights H t) (shard : ShardId) (network : NetworkId) :
    Climbs H asked t (t.shardOnline env shard network) := by
  unfold Tasks.State.shardOnline
  split
  · split <;> exact h.climbs (fun _ _ ht => ht) rfl rfl
  · exact h.climbs (fun _ _ ht => ht) rfl rfl

theorem shardOffline_climbs (h : Heights H t) (shard : ShardId) (network : NetworkId) :
    Climbs H asked t (t.shardOffline cfg env shard network) := by
  have hrelease : Climbs H asked t
      (List.foldl (Tasks.State.releaseTask network shard (t.readEventsTask.get network))
        { t with networkShards := t.networkShards.remove (network, shard) }
        ((t.shardTasks.iterPrefix cfg.taskKey shard).map Prod.fst)) := by
    refine List.foldlRecOn _ _ (h.climbs (fun _ _ ht => ht) rfl rfl) fun t₁ ht₁ taskId _ => ?_
    unfold Tasks.State.releaseTask
    dsimp only
    split <;> exact ht₁.trans (ht₁.heights.climbs (fun _ _ ht => ht) rfl rfl)
  unfold Tasks.State.shardOffline
  dsimp only
  split <;> exact hrelease.trans (hrelease.heights.climbs (fun _ _ ht => ht) rfl rfl)

/-- The bound on heights before a task is created. -/
def Below (H : Nat) (t : Tasks.State) (q : NetworkId × Nat) : Prop :=
  q.2 ≤ H + 2 ^ 32 * t.createdTasks.length

theorem readGatewayEvents_climbs (h : Heights H t)
    (hsize : ∀ network height, env.networks.nextBatchSize network height ≤ 2 ^ 32)
    (network : NetworkId) : Climbs H (Below H t) t (t.readGatewayEvents env network) := by
  have hstart := h.sync network
  have hstop := hsize network (t.syncHeight.getD network 0)
  refine createTask_climbs h network (fun blocks hblocks => ?_) fun q hq => ?_
  · cases hblocks
    refine Nat.le_trans (satAdd_le ..) ?_
    omega
  · cases hq
    exact hstart

theorem Heights.setSync (h : Heights H t) (network : NetworkId) {height : Nat}
    (hheight : height ≤ H + 2 ^ 32 * t.createdTasks.length) :
    Heights H { t with syncHeight := t.syncHeight.insert network height } := by
  refine ⟨fun m => ?_, h.range⟩
  rw [StorageMap.getD_insert]
  split
  · exact hheight
  · exact h.sync m

theorem acceptEvents_climbs (h : Heights H t)
    (hsize : ∀ network height, env.networks.nextBatchSize network height ≤ 2 ^ 32)
    {network : NetworkId} {taskId : TaskId} {blocks : BlockRange} (events : List GmpEvent)
    (htask : t.tasks.get taskId = some (.readGatewayEvents blocks)) :
    Climbs H (Below H t) t (t.acceptEvents cfg env network taskId blocks events) := by
  have hsync : Heights H (t.advanceSync network blocks) ∧
      (t.advanceSync network blocks).createdTasks = t.createdTasks := by
    unfold Tasks.State.advanceSync
    split
    · exact ⟨h.setSync network (h.range htask), rfl⟩
    · exact ⟨h, rfl⟩
  obtain ⟨hheights, hcreated⟩ := hsync
  have hbelow : Below H (t.advanceSync network blocks) = Below H t := by
    unfold Below
    rw [hcreated]
  have hread : Climbs H (Below H t) (t.advanceSync network blocks)
      ((t.advanceSync network blocks).readNext env network) := by
    unfold Tasks.State.readNext
    split
    · exact hbelow ▸ readGatewayEvents_climbs hheights hsize network
    · exact hheights.climbs_of_store rfl
  have hstart : Climbs H (Below H t) t ((t.advanceSync network blocks).readNext env network) := by
    obtain ⟨new, heq, hnew⟩ := hread.created
    exact ⟨hread.heights, new, heq.trans (by rw [hcreated]), hnew⟩
  have hprocess := hstart.trans (hstart.heights.climbs_of_finishing
    (@Tasks.processEvents_finishing cfg network taskId _ events))
  rw [Tasks.State.acceptEvents]
  split
  · exact hprocess
  · exact hprocess.trans (hprocess.heights.climbs_of_finishing Tasks.finishTask_finishing)

/-- Heights that calls set are at most `H`. -/
structure Levels (H : Nat) (cfg : Tasks.Config) (call : Tasks.Call) : Prop where
  sync : ∀ {origin network block}, call = .syncNetwork origin network block →
    cfg.adminOrigin origin = true → block.toNat ≤ H
  gateway : ∀ {network block}, call = .gatewayRegistered network block → block.toNat ≤ H

theorem exec_climbs {call : Tasks.Call} (h : Heights H t)
    (hsize : ∀ network height, env.networks.nextBatchSize network height ≤ 2 ^ 32)
    (hlevels : Levels H cfg call) (hexec : Tasks.exec cfg t ⟨env, call⟩ = some t') :
    Climbs H (Below H t) t t' := by
  have hrefl : Climbs H (Below H t) t t := h.climbs_of_store rfl
  cases Tasks.exec_ends hexec with
  | idle => exact hrefl
  | onInitialize hrun => exact onInitialize_climbs h hrun
  | @acceptEvents _ _ _ _ _ events _ _ hacc =>
      exact acceptEvents_climbs h hsize events.val hacc.task
  | @acceptError _ _ batchId _ _ _ _ _ =>
      have hmarked : Climbs H (Below H t) t { t with
          pendingBatches := t.pendingBatches.remove batchId
          failedBatchIds := t.failedBatchIds.insert batchId () } := h.climbs_of_store rfl
      exact hmarked.trans (hmarked.heights.climbs_of_finishing Tasks.finishTask_finishing)
  | @submitGmpEvents _ _ events _ =>
      have hstore := Tasks.reopenBatches_toTaskStore t (executedBatches events.val)
      have hreopen : Climbs H (Below H t) t
          ((executedBatches events.val).foldl Tasks.State.reopenBatch t) :=
        h.climbs (fun _ _ ht => (congrArg TaskStore.tasks hstore :) ▸ ht)
          (congrArg TaskStore.syncHeight hstore :) (congrArg TaskStore.createdTasks hstore :)
      exact hreopen.trans (hreopen.heights.climbs_of_finishing (Tasks.processEvents_finishing ..))
  | @syncNetwork _ network _ hadmin =>
      have hblock := hlevels.sync rfl hadmin
      exact ⟨h.setSync network (Nat.le_trans hblock (Nat.le_add_right ..)), hrefl.created⟩
  | stopNetwork => exact h.climbs (fun _ _ ht => ht) rfl rfl
  | @removeTask _ taskId _ _ hok =>
      obtain ⟨-, hstore⟩ := Tasks.removeTask_ok hok
      have htasks : t'.tasks = t.tasks.remove taskId := (congrArg TaskStore.tasks hstore :)
      refine h.climbs (fun id task ht => ?_) (congrArg TaskStore.syncHeight hstore :)
        (congrArg TaskStore.createdTasks hstore :)
      rw [htasks, StorageMap.get_remove] at ht
      split at ht
      · cases ht
      · exact ht
  | @restartBatch _ batchId _ hok =>
      obtain ⟨network, hstore⟩ := Tasks.restartBatch_ok hok
      have hcreate := @createBatchTask_climbs H (Below H t) t h network batchId
      exact hcreate.trans (hcreate.heights.climbs
        (fun _ _ ht => (congrArg TaskStore.tasks hstore :) ▸ ht)
        (congrArg TaskStore.syncHeight hstore :) (congrArg TaskStore.createdTasks hstore :))
  | @shardOnline shard network => exact shardOnline_climbs h shard network
  | @shardOffline shard network => exact shardOffline_climbs h shard network
  | @gatewayRegistered network block =>
      have hsync := h.setSync network
        (Nat.le_trans (hlevels.gateway rfl) (Nat.le_add_right H (2 ^ 32 * t.createdTasks.length)))
      have hread := readGatewayEvents_climbs hsync hsize network
      exact ⟨hread.heights, hread.created⟩

end Climbs

theorem chain_climbs {H : Nat} {cfg : Chain.Config} {s s' : Chain.State} {i : Chain.Input}
    (h : Heights H s.tasks)
    (hsize : ∀ network height, i.networks.nextBatchSize network height ≤ 2 ^ 32)
    (hlevels : ∀ call, i.call = .tasks call → Levels H cfg.tasks call)
    (hexec : Chain.exec cfg s i = some s') : Climbs H (Below H s.tasks) s.tasks s'.tasks := by
  by_cases hcall : ∃ call, i.call = .tasks call
  · obtain ⟨call, hcall⟩ := hcall
    simp only [Chain.exec, hcall] at hexec
    split at hexec
    · obtain ⟨tasks, htasks, rfl⟩ := Option.map_eq_some_iff.mp hexec
      exact @exec_climbs H cfg.tasks (s.tasksEnv cfg i.networks) s.tasks tasks call h hsize
        (hlevels call hcall) htasks
    · cases hexec
  · refine Chain.exec_tasks_rule (P := Climbs H (Below H s.tasks) s.tasks)
      (fun _ shard network ht => ht.trans (shardOffline_climbs ht.heights shard network))
      (fun _ shard network ht => ht.trans (shardOnline_climbs ht.heights shard network))
      (fun _ hinit ht => ht.trans (onInitialize_climbs ht.heights hinit))
      (fun call hno => hcall ⟨call, hno⟩) hexec (h.climbs_of_store rfl)

end Runtime

end Timechain
