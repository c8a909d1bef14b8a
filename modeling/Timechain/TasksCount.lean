import Timechain.TasksPlacement

/-!
# The count of unexecuted tasks

`schedule_tasks` computes `task_count - executed_task_count` and then
subtracts one more, in plain machine arithmetic. Neither can underflow
as long as a network with a read task has created more tasks than it has
executed: every task that is queued, assigned or current is paid for by
one that was created (`Board.Funded`).

The two counters are kept under different networks. A task is counted as
created under its own network, but as executed under the network the
*event* was reported for. Finishing a task of one network with an event
of another breaks the balance, and `on_initialize` panics
(`foreign_report_panics`).
-/

namespace Timechain

namespace Tasks

variable {cfg : Config} {env : Env} {home : ShardId → NetworkId} {is : List Input} {s s' : State}

/-! ## The quota of a shard -/

/-- Below 2^32 and with one task to spare, the quota is the rounded-up
quotient, however the code was built. -/
theorem tasksPerShard_of_lt {taskCount executed numShards : Nat} (hlt : executed + 1 ≤ taskCount)
    (hcount : taskCount < 2 ^ 32) (hpos : 0 < numShards) (hshards : numShards < 2 ^ 32) :
    State.tasksPerShard cfg taskCount executed numShards
      = some ((taskCount - executed - 1) / numShards + 1) := by
  have hmod : (taskCount - executed) % 2 ^ 32 = taskCount - executed :=
    Nat.mod_eq_of_lt (by omega)
  have hshards' : numShards % 2 ^ 32 = numShards := Nat.mod_eq_of_lt hshards
  have hquot : (taskCount - executed - 1) / numShards + 1 ≤ maxVal 32 := by
    have := Nat.div_le_self (taskCount - executed - 1) numShards
    simp only [maxVal]
    omega
  simp only [State.tasksPerShard, bind, Option.bind]
  rw [subChecked_of_le (by omega)]
  simp only [hmod, hshards']
  rw [subChecked_of_le (by omega)]
  simp only [if_neg (Nat.pos_iff_ne_zero.mp hpos), addChecked, if_pos hquot]

/-! ## The hook does not panic -/

/-- What the arithmetic of one network needs. -/
structure Countable (cfg : Config) (s : State) (network : NetworkId) : Prop where
  executed_lt : s.executedTaskCount.getD network 0 + 1 ≤ s.taskCount.getD network 0
  taskCount_lt : s.taskCount.getD network 0 < 2 ^ 32
  shards_lt : (s.shardsOf cfg network).length < 2 ^ 32

theorem Countable.assigning {network : NetworkId} (h : Countable cfg s network)
    (ha : Assigning s s') : Countable cfg s' network := by
  obtain ⟨hlt, hcount, hshards⟩ := h
  refine ⟨?_, ?_, ?_⟩
  · rwa [ha.executedTaskCount, ha.taskCount]
  · rwa [ha.taskCount]
  · rwa [State.shardsOf, ha.networkShards]

theorem scheduleNetwork_isSome {network : NetworkId} (h : Countable cfg s network)
    (taskId : TaskId) (assigned : Nat) :
    ∃ loop, State.scheduleNetwork cfg env network taskId s assigned = some loop ∧
      Assigning s loop.state := by
  have hread := @scheduleRead_assigning cfg (env.networks.shardTaskLimit network) taskId assigned
    s (s.shardsOf cfg network)
  simp only [State.scheduleNetwork]
  split
  · next s₁ heq =>
      rw [heq] at hread
      exact ⟨_, rfl, hread⟩
  · next s₁ assigned₁ heq =>
      rw [heq] at hread
      have h₁ : Countable cfg s₁ network := h.assigning hread
      split
      · exact ⟨_, rfl, hread⟩
      · next hne =>
          have hpos := List.length_pos_iff.mpr (fun hnil => hne (List.isEmpty_iff.mpr hnil))
          rw [tasksPerShard_of_lt h₁.executed_lt h₁.taskCount_lt hpos
            (Nat.lt_of_le_of_lt (List.length_filter_le ..) h₁.shards_lt)]
          exact ⟨_, rfl, hread.trans (scheduleShards_assigning ..)⟩

theorem scheduleNetworks_isSome {entries : List (NetworkId × TaskId)} {assigned : Nat}
    (h : ∀ e ∈ entries, Countable cfg s e.1) :
    (State.scheduleNetworks cfg env entries s assigned).isSome = true := by
  induction entries generalizing s assigned with
  | nil => rfl
  | cons e entries ih =>
      obtain ⟨network, taskId⟩ := e
      obtain ⟨loop, hloop, ha⟩ := @scheduleNetwork_isSome cfg env s network
        (h _ (List.mem_cons_self ..)) taskId assigned
      rw [State.scheduleNetworks, hloop]
      cases loop with
      | done s₁ => rfl
      | next s₁ assigned₁ =>
          exact ih fun e he => (h e (List.mem_cons_of_mem _ he)).assigning ha

/-! ## Runs -/

/-- A report for `network` concerns no task on a shard of another network. -/
def OwnNetwork (home : ShardId → NetworkId) (s : State) (network : NetworkId) (taskId : TaskId) :
    Prop :=
  ∀ shard, s.taskShard.get taskId = some shard → home shard = network

theorem genesis_funded : Board.Funded home (board State.genesis.toTaskStore) := by
  refine ⟨fun _ => ∅, fun {n t} hl => ?_, fun _ => Nat.le_refl 0⟩
  rcases hl with hq | ⟨_, hs, _⟩ | hc
  · cases hq
  · cases hs
  · cases hc

theorem ownNetwork_guards : Guards home (OwnNetwork home) (Board.Homed home) where
  stable s s' network taskId _ hshard h shard hs := by
    rcases hshard taskId with heq | hnone
    · exact h shard (heq ▸ hs)
    · rw [hnone] at hs
      cases hs
  event h := fun hs => h _ hs
  own _ hs := fun hs' => congrArg home (Option.some.inj (hs'.symm.trans hs))

/-- More tasks are created than executed, also during the hook: after
`prepare_batches` and whatever else quiet steps do. -/
theorem run_executed_lt (h : PalletRun cfg home (ReportsOk (OwnNetwork home)) is s)
    {exempt : TaskId → Prop} (hsteps : QuietSteps home (OwnNetwork home) exempt s s')
    (hcreated : s'.createdTasks.length < 2 ^ 64) {network : NetworkId}
    (hread : s'.readEventsTask.get network ≠ none) :
    s'.executedTaskCount.getD network 0 + 1 ≤ s'.taskCount.getD network 0 := by
  have hb : Bounded True s' := ⟨hcreated, fun hl => (hl trivial).elim⟩
  obtain ⟨hinv, hfunded⟩ := @run_board cfg home _ _ True (fun _ => Board.Funded home)
    ownNetwork_guards (fun hinv hm hf => hf.move hinv hm) (fun hf => hf) (fun _ hf => hf)
    genesis_funded is s h (hsteps.small.bounded hb)
  obtain ⟨-, hfunded'⟩ := hsteps.small.keeps ownNetwork_guards
    (fun hinv hm hf => Board.Funded.move hf hinv hm) hb (run_counted h).1 hinv hfunded
  obtain ⟨taskId, hread⟩ := Option.ne_none_iff_exists'.mp hread
  exact hfunded'.current hread

/-- **The scheduling arithmetic cannot underflow** in runs that create
fewer than 2^64 tasks and in which no event reports a batch whose task is
on a shard of another network: a network with a read task has created
more tasks than it executed, and `on_initialize` does not panic while
counts are below 2^32. -/
theorem scheduling_never_underflows (h : PalletRun cfg home (ReportsOk (OwnNetwork home)) is s)
    (hcreated : s.createdTasks.length < 2 ^ 64) :
    (∀ network, s.readEventsTask.get network ≠ none →
      s.executedTaskCount.getD network 0 + 1 ≤ s.taskCount.getD network 0) ∧
    ∀ env : Env, (s.prepareBatches cfg env).1.createdTasks.length < 2 ^ 64 →
      (∀ network, (s.prepareBatches cfg env).1.taskCount.getD network 0 < 2 ^ 32) →
      (∀ network, ((s.prepareBatches cfg env).1.shardsOf cfg network).length < 2 ^ 32) →
      (s.onInitialize cfg env).isSome = true := by
  refine ⟨fun network => @run_executed_lt cfg home is s s h (fun _ => False) .refl hcreated network,
    fun env hcreated' hcount hshards => scheduleNetworks_isSome fun e he => ?_⟩
  have hread := StorageMap.mem_iter.mp he
  exact ⟨@run_executed_lt cfg home is s _ h (fun _ => False) (prepareBatches_quiet s) hcreated' e.1
    (by rw [hread]; exact Option.some_ne_none _), hcount e.1, hshards e.1⟩

/-- The batch of shard 0 is reported executed for its own network. -/
theorem scheduling_never_underflows_executed :
    (exampleState executedCalls).readEventsTask.get 0 = some 1 ∧
      (exampleState executedCalls).executedTaskCount.getD 0 0 + 1
        ≤ (exampleState executedCalls).taskCount.getD 0 0 := by
  have hread : (exampleState executedCalls).readEventsTask.get 0 = some 1 := by decide +kernel
  have hreports : (exampleInput (exampleEvent 0 (.batchExecuted 0 none))).reportedTasks
      (exampleState registrationCalls) = [(0, 2)] := by decide +kernel
  have hshard : (exampleState registrationCalls).taskShard.get 2 = some 0 := by decide +kernel
  have hrun : PalletRun exampleConfig exampleHome (ReportsOk (OwnNetwork exampleHome))
      (executedCalls.map exampleInput) (exampleState executedCalls) := by
    refine exampleState_next (exampleState_run (by decide +kernel) (fun s c hc => ?_)
      (by decide +kernel)) rfl ?_ (by decide +kernel)
    · exact registrationCalls_reports s c hc
    · intro r hr shard hs
      rw [hreports, List.mem_singleton] at hr
      subst hr
      cases hshard.symm.trans hs
      rfl
  exact ⟨hread, (scheduling_never_underflows hrun (by decide +kernel)).1 0
    (by rw [hread]; exact Option.some_ne_none _)⟩

/-- Two networks with one shard and one batch each; both batches are
reported executed for network 1. -/
def foreignReportCalls : List Call :=
  [.gatewayRegistered 0 0, .gatewayRegistered 1 0, .shardOnline 0 0, .shardOnline 1 1,
    exampleEvent 0 (.shardRegistered (exampleKey 0)),
    exampleEvent 1 (.shardRegistered (exampleKey 1)), .onInitialize,
    exampleEvent 1 (.batchExecuted 0 none), exampleEvent 1 (.batchExecuted 1 none)]

/-- Network 1 has executed as many tasks as it has created, and the next
block cannot be built. -/
theorem foreign_report_panics :
    PalletRun exampleConfig exampleHome (fun _ _ => True) (foreignReportCalls.map exampleInput)
        (exampleState foreignReportCalls) ∧
      (exampleState foreignReportCalls).readEventsTask.get 1 = some 2 ∧
      (exampleState foreignReportCalls).taskCount.getD 1 0 = 2 ∧
      (exampleState foreignReportCalls).executedTaskCount.getD 1 0 = 2 ∧
      ((exampleState foreignReportCalls).onInitialize exampleConfig exampleEnv).isNone = true :=
  ⟨exampleState_run (by decide +kernel) (fun _ _ _ => trivial) (by decide +kernel),
    by decide +kernel, by decide +kernel, by decide +kernel, by decide +kernel⟩

end Tasks

end Timechain
