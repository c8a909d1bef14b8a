import Timechain.TasksRefine

/-!
# Where tasks are

Two results about every run of the pallet, both read off the board.

An unfinished batch task is in one place: once in the queue of its
network, or on one shard. The code keeps this for fewer than 2^64 tasks
*and* fewer than 2^64 pushes per queue. A push past the last index is
lost, and a queue can get there first: a task is pushed when it is
created and again whenever its shard leaves (`requeued_task_lost`).

A finished task should be in no place. `finish_task` takes a task off
its shard but not out of a queue, so this holds only in runs where no
`BatchExecuted` arrives for a task that is waiting
(`finished_task_settled`). Without that condition a finished task stays
in the queue (`finished_task_stays_queued`) and the next block hands it
to a shard.
-/

namespace Timechain

namespace Tasks

variable {cfg : Config} {home : ShardId → NetworkId} {is : List Input} {s : State}

/-! ## Unfinished batch tasks -/

/-- `taskId` occurs once in the queue of its network and nowhere else. -/
def Waiting (s : State) (taskId : TaskId) : Prop :=
  ∃ network, s.taskNetwork.get taskId = some network ∧
    (s.uaTasks.contents network).count taskId = 1 ∧
    (∀ other, other ≠ network → taskId ∉ s.uaTasks.contents other) ∧
    s.taskShard.get taskId = none ∧ ∀ shard, s.shardTasks.get (shard, taskId) = none

/-- `taskId` is on exactly one shard and in no queue. -/
def Assigned (s : State) (taskId : TaskId) : Prop :=
  (∀ network, taskId ∉ s.uaTasks.contents network) ∧
    ∃ shard, s.taskShard.get taskId = some shard ∧
      ∀ other, s.shardTasks.get (other, taskId) ≠ none ↔ other = shard

theorem waiting_of_queue (hinv : Board.Inv home (board s.toTaskStore)) {taskId : TaskId}
    {network : NetworkId} (htask : s.tasks.get taskId ≠ none)
    (hq : taskId ∈ s.uaTasks.contents network) : Waiting s taskId := by
  have hjob : (board s.toTaskStore).job taskId ≠ none := by
    simpa [board] using htask
  obtain ⟨n, hnet⟩ := Option.ne_none_iff_exists'.mp (hinv.net_of_job hjob)
  obtain rfl : n = network := hinv.queue_net hq hnet
  refine ⟨n, hnet, List.count_eq_one_of_mem (hinv.queue_nodup n) hq, fun m hm hq' => ?_,
    hinv.queue_unplaced hq, fun shard => ?_⟩
  · exact hm (hinv.queue_unique hq' hq)
  · by_contra hheld
    exact hinv.shard_unqueued (hinv.held_iff.mp hheld) n hq

theorem assigned_of_shard (hinv : Board.Inv home (board s.toTaskStore)) {taskId : TaskId}
    {shard : ShardId} (hs : s.taskShard.get taskId = some shard) : Assigned s taskId := by
  refine ⟨fun n => hinv.shard_unqueued hs n, shard, hs, fun other => ?_⟩
  have hheld : s.shardTasks.get (other, taskId) ≠ none ↔ s.taskShard.get taskId = some other :=
    hinv.held_iff
  rw [hheld, hs, Option.some.injEq]
  exact eq_comm

/-- **No unfinished batch task is lost or duplicated**, in any run that
creates fewer than 2^64 tasks and pushes fewer than 2^64 times onto each
queue. -/
theorem batch_task_in_one_place (h : PalletRun cfg home (fun _ _ => True) is s)
    (hcreated : s.createdTasks.length < 2 ^ 64) (hpushed : ∀ network, s.pushes network < 2 ^ 64)
    {taskId : TaskId} {batchId : BatchId}
    (htask : s.tasks.get taskId = some (.submitGatewayMessage batchId))
    (hout : s.taskOutput.get taskId = none) : Waiting s taskId ∨ Assigned s taskId := by
  have hrun : PalletRun cfg home (ReportsOk fun _ _ _ => True) is s :=
    h.mono fun _ _ hi => ⟨hi.1, fun _ _ => trivial⟩
  obtain ⟨hinv, hplaced⟩ := @run_board cfg home _ _ False Board.Placed unrestricted_guards
    (fun hinv hm hp => hp.move hinv hm)
    (fun hp _ _ hj hd _ => hp hj hd not_false)
    (fun hdone hp t _ hj hd _ => hp hj hd fun hx => hd (hdone t hx))
    (fun hj => nomatch hj) is s hrun ⟨hcreated, fun _ => hpushed⟩
  have hjob : (board s.toTaskStore).job taskId = some (.submit batchId) := by
    show (s.tasks.get taskId).map taskJob = _
    rw [htask]
    rfl
  rcases hplaced hjob (fun hd => hd hout) not_false with ⟨network, hq⟩ | hs
  · exact Or.inl (waiting_of_queue hinv (by rw [htask]; exact Option.some_ne_none _) hq)
  · obtain ⟨shard, hs⟩ := Option.ne_none_iff_exists'.mp hs
    exact Or.inr (assigned_of_shard hinv hs)

theorem pushes_le (s : State) (network : NetworkId) : s.pushes network ≤ s.queuedTasks.length :=
  List.countP_le_length

theorem batch_task_in_one_place_registration :
    (exampleState registrationCalls).tasks.get 2 = some (.submitGatewayMessage 0) ∧
      (Waiting (exampleState registrationCalls) 2 ∨
        Assigned (exampleState registrationCalls) 2) := by
  have htask : (exampleState registrationCalls).tasks.get 2 = some (.submitGatewayMessage 0) := by
    decide +kernel
  have hlen : (exampleState registrationCalls).queuedTasks.length < 2 ^ 64 := by decide +kernel
  exact ⟨htask, batch_task_in_one_place
    (exampleState_run (by decide +kernel) (fun _ _ _ => trivial) (by decide +kernel))
    (by decide +kernel) (fun network => Nat.lt_of_le_of_lt (pushes_le _ network) hlen) htask
    (Option.isNone_iff_eq_none.mp (by decide +kernel))⟩

/-! ## A queue without indices left -/

/-- The registered shard holds two tasks of the same batch. -/
def restartedCalls : List Call := registrationCalls ++ [.restartBatch .root 0, .onInitialize]

/-- The batch was restarted `k` more times, and no block came since. -/
structure Restarted (k : Nat) (s : State) : Prop where
  created : s.createdTasks.length = 3 + k
  counter : s.taskIdCounter = 3 + k
  insertI : s.uaTasks.insertI 0 = 2 + k
  shardTasks : s.shardTasks = (exampleState restartedCalls).shardTasks
  taskShard : s.taskShard.get 3 = some 0
  readEventsTask : s.readEventsTask.get 0 = some 1
  unfinished : s.taskOutput.get 3 = none
  task : s.tasks.get 3 = some (.submitGatewayMessage 0)
  link : ∃ taskId, s.batchTaskId.get 0 = some taskId ∧ s.taskNetwork.get taskId = some 0

theorem restarted_zero : Restarted 0 (exampleState restartedCalls) where
  created := by decide +kernel
  counter := by decide +kernel
  insertI := by decide +kernel
  shardTasks := rfl
  taskShard := by decide +kernel
  readEventsTask := by decide +kernel
  unfinished := Option.isNone_iff_eq_none.mp (by decide +kernel)
  task := by decide +kernel
  link := ⟨3, by decide +kernel, by decide +kernel⟩

theorem Restarted.next {k : Nat} (h : Restarted k s) (hk : 3 + k < maxVal 64) :
    ∃ s', exec exampleConfig s (exampleInput (.restartBatch .root 0)) = some s' ∧
      Restarted (k + 1) s' := by
  obtain ⟨taskId, hlink, hnet⟩ := h.link
  have hadmin : exampleConfig.adminOrigin .root = true := rfl
  obtain ⟨s', hok, hstore, -⟩ := restartBatch_of_link hadmin hlink hnet
  have hid : s.nextTaskId = 3 + k + 1 := by
    rw [State.nextTaskId, h.counter]
    exact satSucc_of_lt hk
  have hne : (3 : TaskId) ≠ s.nextTaskId := by
    rw [hid]
    exact Nat.ne_of_lt (Nat.lt_succ_of_le (Nat.le_add_right 3 k))
  refine ⟨s', ?_, ?_, ?_, ?_, ?_, ?_, ?_, ?_, ?_, s.nextTaskId, ?_, ?_⟩
  · simp only [exec, exampleInput, hok, dispatch]
  · rw [(congrArg TaskStore.createdTasks hstore :)]
    simp only [createTask_createdTasks, List.length_append, h.created]
    rfl
  · rw [(congrArg TaskStore.taskIdCounter hstore :)]
    exact hid
  · rw [(congrArg TaskStore.uaTasks hstore :)]
    show (s.uaTasks.push 0 s.nextTaskId).insertI 0 = _
    rw [QueueImpl.insertI_push_self, h.insertI]
    exact satSucc_of_lt (by omega)
  · rw [(congrArg TaskStore.shardTasks hstore :)]
    exact h.shardTasks
  · rw [(congrArg TaskStore.taskShard hstore :)]
    exact h.taskShard
  · rw [(congrArg TaskStore.readEventsTask hstore :)]
    exact h.readEventsTask
  · rw [(congrArg TaskStore.taskOutput hstore :)]
    exact h.unfinished
  · rw [(congrArg TaskStore.tasks hstore :)]
    simp only [createTask_tasks]
    rw [StorageMap.get_insert_of_ne _ _ hne]
    exact h.task
  · rw [(congrArg TaskStore.batchTaskId hstore :)]
    exact StorageMap.get_insert_self ..
  · rw [(congrArg TaskStore.taskNetwork hstore :)]
    exact StorageMap.get_insert_self ..

/-- What the shard's leaving does to its tasks: the read task is dropped,
the other two are queued, in this order. -/
theorem Restarted.offline {k : Nat} (h : Restarted k s) :
    (s.shardOffline exampleConfig exampleEnv 0 0).toTaskStore =
      { s.toTaskStore with
        networkShards := s.networkShards.remove (0, 0)
        shardTasks := ((s.shardTasks.remove (0, 1)).remove (0, 2)).remove (0, 3)
        taskShard := ((s.taskShard.remove 1).remove 2).remove 3
        uaTasks := (s.uaTasks.push 0 2).push 0 3
        queuedTasks := s.queuedTasks ++ [(0, 2), (0, 3)] } := by
  have htasks : (s.shardTasks.iterPrefix exampleConfig.taskKey 0).map Prod.fst = [1, 2, 3] := by
    rw [h.shardTasks]
    decide +kernel
  simp only [State.shardOffline, htasks, h.readEventsTask, List.foldl_cons, List.foldl_nil]
  simp [State.releaseTask, State.pushTask, State.pushOp, exampleEnv]

/-- With one index left, the second task finds no place. -/
theorem Restarted.offline_lost {k : Nat} (h : Restarted k s)
    (hinv : Board.Inv exampleHome (board s.toTaskStore)) (hk : 2 + k + 1 = maxVal 64) :
    ¬(Waiting (s.shardOffline exampleConfig exampleEnv 0 0) 3 ∨
      Assigned (s.shardOffline exampleConfig exampleEnv 0 0) 3) := by
  have hunqueued : ∀ network, 3 ∉ s.uaTasks.contents network := fun network =>
    hinv.shard_unqueued h.taskShard network
  have hroom : s.uaTasks.insertI 0 < maxVal 64 := by
    rw [h.insertI]
    omega
  have hfull : ¬(s.uaTasks.push 0 2).insertI 0 < maxVal 64 := by
    rw [QueueImpl.insertI_push_self, satSucc_of_lt hroom, h.insertI]
    omega
  rintro (⟨network, -, hcount, -⟩ | ⟨-, shard, hshard, -⟩)
  · rw [(congrArg TaskStore.uaTasks h.offline :)] at hcount
    have hmem : 3 ∈ ((s.uaTasks.push 0 2).push 0 3).contents network :=
      List.count_pos_iff.mp (by rw [hcount]; exact Nat.one_pos)
    by_cases hnet : network = 0
    · subst hnet
      rw [QueueImpl.contents_push_full _ _ hfull, QueueImpl.contents_push_self _ _ hroom,
        List.mem_append, List.mem_singleton] at hmem
      rcases hmem with hmem | hmem
      · exact hunqueued 0 hmem
      · exact absurd hmem (by decide)
    · rw [QueueImpl.contents_push_of_ne _ _ hnet, QueueImpl.contents_push_of_ne _ _ hnet] at hmem
      exact hunqueued network hmem
  · rw [(congrArg TaskStore.taskShard h.offline :)] at hshard
    simp only [StorageMap.get_remove_self, reduceCtorEq] at hshard

/-- The batch is restarted until its queue has one index left; the shard
then hands two tasks back, and the second one is gone. -/
theorem requeued_task_lost :
    ¬∀ (is : List Input) (s : State), PalletRun exampleConfig exampleHome (fun _ _ => True) is s →
      s.createdTasks.length < 2 ^ 64 → ∀ taskId batchId,
        s.tasks.get taskId = some (.submitGatewayMessage batchId) →
        s.taskOutput.get taskId = none → Waiting s taskId ∨ Assigned s taskId := by
  intro hall
  have hfirst : PalletRun exampleConfig exampleHome (fun _ _ => True)
      (restartedCalls.map exampleInput) (exampleState restartedCalls) :=
    exampleState_run (by decide +kernel) (fun _ _ _ => trivial) (by decide +kernel)
  obtain ⟨s, hrestarts, hs⟩ := @Run.replicate _ _ (exec exampleConfig)
    (fun _ i => i.Homed exampleHome ∧ True) _ Restarted (exampleInput (.restartBatch .root 0))
    (maxVal 64 - 3) restarted_zero
    (fun hk hs => ⟨⟨exampleInput_homed rfl, trivial⟩, hs.next (by omega)⟩)
  have hrun := hfirst.append hrestarts
  have hlen : s.createdTasks.length < 2 ^ 64 := by
    rw [hs.created]
    decide
  have hexec : exec exampleConfig s (exampleInput (.shardOffline 0 0))
      = some (s.shardOffline exampleConfig exampleEnv 0 0) := rfl
  have hend := Run.next hrun ⟨exampleInput_homed rfl, trivial⟩ hexec
  refine hs.offline_lost (run_inv hrun hlen) (by decide) (hall _ _ hend ?_ 3 0 ?_ ?_)
  · rw [(congrArg TaskStore.createdTasks hs.offline :)]
    exact hlen
  · rw [(congrArg TaskStore.tasks hs.offline :)]
    exact hs.task
  · rw [(congrArg TaskStore.taskOutput hs.offline :)]
    exact hs.unfinished

/-! ## Finished tasks -/

/-- The report does not concern a task that is waiting. -/
def NotWaiting (s : State) (_ : NetworkId) (taskId : TaskId) : Prop :=
  ∀ network, taskId ∉ s.uaTasks.contents network

theorem notWaiting_guards : Guards home NotWaiting Board.Unqueued where
  stable s s' network taskId hua _ h := by
    intro m
    rw [hua]
    exact h m
  event h := h
  own hinv hs := fun n => hinv.shard_unqueued hs n

/-- **A finished task is never scheduled again**, in any run that creates
fewer than 2^64 tasks and in which every batch reported executed has a
task that is not waiting in a queue. -/
theorem finished_task_settled (h : PalletRun cfg home (ReportsOk NotWaiting) is s)
    (hcreated : s.createdTasks.length < 2 ^ 64) {taskId : TaskId}
    (hout : s.taskOutput.get taskId ≠ none) :
    (∀ network, taskId ∉ s.uaTasks.contents network) ∧ s.taskShard.get taskId = none ∧
      ∀ shard, s.shardTasks.get (shard, taskId) = none := by
  obtain ⟨hinv, hsettled⟩ := @run_board cfg home _ _ True (fun _ => Board.Settled)
    notWaiting_guards (fun hinv hm hs => hs.move hinv hm) (fun hs => hs) (fun _ hs => hs)
    (fun hd => absurd rfl hd) is s h ⟨hcreated, fun hl => (hl trivial).elim⟩
  obtain ⟨hq, hs⟩ := hsettled hout
  refine ⟨hq, hs, fun shard => ?_⟩
  by_contra hheld
  have hshard := hinv.held_iff.mp hheld
  rw [hs] at hshard
  cases hshard

/-- The shard's batch task is executed while it is assigned. -/
def executedCalls : List Call := registrationCalls ++ [exampleEvent 0 (.batchExecuted 0 none)]

/-- No batch is reported executed during the registration. -/
theorem registrationCalls_reports {ok : State → NetworkId → TaskId → Prop} (s : State) (c : Call)
    (hc : c ∈ registrationCalls) : ReportsOk ok s (exampleInput c) := by
  simp only [registrationCalls, List.mem_cons, List.not_mem_nil, or_false] at hc
  rcases hc with rfl | rfl | rfl | rfl <;> exact fun r hr => nomatch hr

theorem finished_task_settled_executed :
    (exampleState executedCalls).taskOutput.get 2 ≠ none ∧
      (∀ network, 2 ∉ (exampleState executedCalls).uaTasks.contents network) ∧
      (exampleState executedCalls).taskShard.get 2 = none ∧
      ∀ shard, (exampleState executedCalls).shardTasks.get (shard, 2) = none := by
  have hreg : PalletRun exampleConfig exampleHome (fun _ _ => True)
      (registrationCalls.map exampleInput) (exampleState registrationCalls) :=
    exampleState_run (by decide +kernel) (fun _ _ _ => trivial) (by decide +kernel)
  have hreports : (exampleInput (exampleEvent 0 (.batchExecuted 0 none))).reportedTasks
      (exampleState registrationCalls) = [(0, 2)] := by decide +kernel
  have hshard : (exampleState registrationCalls).taskShard.get 2 = some 0 := by decide +kernel
  have hrun : PalletRun exampleConfig exampleHome (ReportsOk NotWaiting)
      (executedCalls.map exampleInput) (exampleState executedCalls) := by
    refine exampleState_next (exampleState_run (by decide +kernel) (fun s c hc => ?_)
      (by decide +kernel)) rfl ?_ (by decide +kernel)
    · exact registrationCalls_reports s c hc
    · intro r hr
      rw [hreports, List.mem_singleton] at hr
      subst hr
      exact (assigned_of_shard (run_inv hreg (by decide +kernel)) hshard).1
  have hout : (exampleState executedCalls).taskOutput.get 2 ≠ none :=
    Option.isSome_iff_ne_none.mp (by decide +kernel)
  exact ⟨hout, finished_task_settled hrun (by decide +kernel) hout⟩

/-- The shard leaves first: its batch task is executed while it waits. -/
def executedWaitingCalls : List Call :=
  registrationCalls ++ [.shardOffline 0 0, exampleEvent 0 (.batchExecuted 0 none)]

/-- A task finished while it waits stays in the queue. -/
theorem finished_task_stays_queued :
    ¬∀ (is : List Input) (s : State), PalletRun exampleConfig exampleHome (fun _ _ => True) is s →
      ∀ taskId, s.taskOutput.get taskId ≠ none →
        (∀ network, taskId ∉ s.uaTasks.contents network) ∧ s.taskShard.get taskId = none ∧
          ∀ shard, s.shardTasks.get (shard, taskId) = none := by
  intro hall
  have hrun : PalletRun exampleConfig exampleHome (fun _ _ => True)
      (executedWaitingCalls.map exampleInput) (exampleState executedWaitingCalls) :=
    exampleState_run (by decide +kernel) (fun _ _ _ => trivial) (by decide +kernel)
  have hout : (exampleState executedWaitingCalls).taskOutput.get 2 ≠ none :=
    Option.isSome_iff_ne_none.mp (by decide +kernel)
  have hqueued : 2 ∈ (exampleState executedWaitingCalls).uaTasks.contents 0 := by decide +kernel
  exact (hall _ _ hrun 2 hout).1 0 hqueued

end Tasks

end Timechain
