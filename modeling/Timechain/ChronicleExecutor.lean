import Timechain.Primitives
import Timechain.Storage
import Timechain.Transducer

/-!
# The task executor of a chronicle

For every finalized block and every shard it is in, a chronicle starts the
tasks of the shard that are due and not running yet, and forgets those the
shard does not have any more (`TaskExecutor::process_tasks` in
`chronicle/src/tasks/mod.rs`). The tasks it started are returned: the signing
layer opens a session for each of them, and drops what other members send
about a task without a session.

Every query to the chain or the target chain may fail, and ends the call. A
call is therefore modelled with the answers to its queries. What the tasks do
once they run is not part of this; the executor only keeps their handles.

A call that returns announces exactly the tasks it inserted
(`mem_started_iff`). One that fails announces none of them, but keeps them as
running, so no later call starts them (`announced_iff_call_returns`).
-/

namespace Timechain

/-- `Task::start_block`: the height of the target chain a task waits for. -/
def Task.startBlock : Task → Nat
  | .readGatewayEvents blocks => blocks.stop
  | .submitGatewayMessage _ => 0

namespace Chronicle

open Transducer

inductive ProcessError where
  /-- A query failed. -/
  | query
  | noGatewayRegistered
  | invalidTask
deriving DecidableEq

/-- What is spawned for a task. -/
structure Execution where
  blockHash : Hash
  blockNumber : Nat
  cctpInfo : Option (List Address32 × String)
  network : NetworkId
  gateway : Address32
  shardId : ShardId
  task : Task

structure TaskExecutor where
  network : NetworkId
  runningTasks : StorageMap TaskId Execution

/-- A call, with the answers to its queries; a query without an answer fails.
The queries made for a task are numbered by its place in the list. -/
structure ProcessTasks where
  blockHash : Hash
  blockNumber : Nat
  shardId : ShardId
  getGateway : Option (Option Address32)
  getCctpInfo : Option (Option (List Address32 × String))
  getShardTasks : Option (List TaskId)
  getTask : Nat → Option (Option Task)
  finalizedBlock : Nat → Option Nat
  /-- The tasks started that have failed by the end of the call. -/
  failedTasks : Nat

namespace TaskExecutor

def new (network : NetworkId) : TaskExecutor := ⟨network, ∅⟩

/-- The loop over the tasks of the shard. -/
def startTasks (call : ProcessTasks) (spawn : Task → Execution) :
    Nat → List TaskId → StorageMap TaskId Execution → List TaskId →
    Except ProcessError (List TaskId) × StorageMap TaskId Execution
  | _, [], running, started => (.ok started, running)
  | i, taskId :: tasks, running, started =>
      if running.containsKey taskId then startTasks call spawn (i + 1) tasks running started
      else
        match call.getTask i with
        | none => (.error .query, running)
        | some none => (.error .invalidTask, running)
        | some (some task) =>
            match call.finalizedBlock i with
            | none => (.error .query, running)
            | some chainBlock =>
                if chainBlock < task.startBlock then
                  startTasks call spawn (i + 1) tasks running started
                else
                  startTasks call spawn (i + 1) tasks (running.insert taskId (spawn task))
                    (started ++ [taskId])

/-- The tasks started, the tasks completed and how many failed. -/
def processTasks (e : TaskExecutor) (call : ProcessTasks) :
    Except ProcessError (List TaskId × List TaskId × Nat) × TaskExecutor :=
  match call.getGateway with
  | none => (.error .query, e)
  | some none => (.error .noGatewayRegistered, e)
  | some (some gateway) =>
      match call.getCctpInfo with
      | none => (.error .query, e)
      | some cctpInfo =>
          match call.getShardTasks with
          | none => (.error .query, e)
          | some tasks =>
              let spawn := fun task =>
                { blockHash := call.blockHash
                  blockNumber := call.blockNumber
                  cctpInfo := cctpInfo
                  network := e.network
                  gateway := gateway
                  shardId := call.shardId
                  task := task }
              match startTasks call spawn 0 tasks e.runningTasks [] with
              | (.error error, running) => (.error error, { e with runningTasks := running })
              | (.ok started, running) =>
                  let completed := ((running.iter id).map Prod.fst).filter (!tasks.contains ·)
                  (.ok (started, completed, call.failedTasks),
                    { e with runningTasks := running.removeAll completed })

/-- A task is running. -/
def IsRunning (e : TaskExecutor) (taskId : TaskId) : Prop := e.runningTasks.get taskId ≠ none

/-- A call puts a task among the running ones. -/
def Inserts (e : TaskExecutor) (call : ProcessTasks) (taskId : TaskId) : Prop :=
  ¬e.IsRunning taskId ∧ (e.processTasks call).2.IsRunning taskId

instance instDecidableIsRunning (e : TaskExecutor) (taskId : TaskId) :
    Decidable (e.IsRunning taskId) :=
  decidable_of_iff _ StorageMap.containsKey_iff

instance instDecidableInserts (e : TaskExecutor) (call : ProcessTasks) (taskId : TaskId) :
    Decidable (e.Inserts call taskId) :=
  inferInstanceAs (Decidable (_ ∧ _))

/-! ## One call -/

/-- The loop adds tasks of the list that were not running; if it gets to the
end, it has collected them. -/
structure Starts (tasks : List TaskId) (running : StorageMap TaskId Execution)
    (started : List TaskId) (new : List TaskId)
    (result : Except ProcessError (List TaskId) × StorageMap TaskId Execution) : Prop where
  mem : ∀ taskId ∈ new, taskId ∈ tasks ∧ running.get taskId = none
  running : ∀ taskId, result.2.get taskId ≠ none ↔ running.get taskId ≠ none ∨ taskId ∈ new
  started : ∀ out, result.1 = .ok out → out = started ++ new

namespace Starts

variable {tasks new started : List TaskId} {running : StorageMap TaskId Execution}
  {result : Except ProcessError (List TaskId) × StorageMap TaskId Execution} {taskId : TaskId}

theorem stop : Starts tasks running started [] (.ok started, running) where
  mem _ h := absurd h List.not_mem_nil
  running _ := (or_iff_left List.not_mem_nil).symm
  started out h := by
    cases h
    exact (List.append_nil _).symm

theorem fail (error : ProcessError) : Starts tasks running started [] (.error error, running) where
  mem _ h := absurd h List.not_mem_nil
  running _ := (or_iff_left List.not_mem_nil).symm
  started out h := by cases h

theorem skip (h : Starts tasks running started new result) :
    Starts (taskId :: tasks) running started new result where
  mem id hid := ⟨List.mem_cons_of_mem _ (h.mem id hid).1, (h.mem id hid).2⟩
  running := h.running
  started := h.started

theorem start {execution : Execution} (hidle : running.get taskId = none)
    (h : Starts tasks (running.insert taskId execution) (started ++ [taskId]) new result) :
    Starts (taskId :: tasks) running started (taskId :: new) result where
  mem id hid := by
    rcases List.mem_cons.mp hid with rfl | hid
    · exact ⟨List.mem_cons_self .., hidle⟩
    · obtain ⟨hmem, hget⟩ := h.mem id hid
      have hne : id ≠ taskId := by
        rintro rfl
        rw [StorageMap.get_insert_self] at hget
        cases hget
      rw [StorageMap.get_insert_of_ne _ _ hne] at hget
      exact ⟨List.mem_cons_of_mem _ hmem, hget⟩
  running id := by
    rw [h.running, StorageMap.get_insert, List.mem_cons]
    by_cases hid : id = taskId
    · simp [hid]
    · simp [hid]
  started out hout := by rw [h.started out hout, List.append_assoc, List.singleton_append]

end Starts

theorem startTasks_spec (call : ProcessTasks) (spawn : Task → Execution) (i : Nat)
    (tasks : List TaskId) (running : StorageMap TaskId Execution) (started : List TaskId) :
    ∃ new, Starts tasks running started new (startTasks call spawn i tasks running started) := by
  induction tasks generalizing i running started with
  | nil => exact ⟨[], .stop⟩
  | cons taskId tasks ih =>
      rw [startTasks]
      split
      · obtain ⟨new, hnew⟩ := ih (i + 1) running started
        exact ⟨new, hnew.skip⟩
      · next hidle =>
          replace hidle : running.get taskId = none :=
            StorageMap.containsKey_eq_false.mp (Bool.eq_false_iff.mpr hidle)
          split
          · exact ⟨[], .fail _⟩
          · exact ⟨[], .fail _⟩
          · split
            · exact ⟨[], .fail _⟩
            · split
              · obtain ⟨new, hnew⟩ := ih (i + 1) running started
                exact ⟨new, hnew.skip⟩
              · obtain ⟨new, hnew⟩ := ih (i + 1) (running.insert taskId _) (started ++ [taskId])
                exact ⟨taskId :: new, hnew.start hidle⟩

/-- The shard still has the task, as far as the call finds out. -/
def Assigns (call : ProcessTasks) (taskId : TaskId) : Prop :=
  ∀ tasks, call.getShardTasks = some tasks → taskId ∈ tasks

/-- The effect of a call: `new` is added, and returned if the call returns.
Of the rest, what the shard still has is kept. -/
structure Processed (e : TaskExecutor) (call : ProcessTasks) (new : List TaskId) : Prop where
  mem : ∀ taskId ∈ new, ¬e.IsRunning taskId ∧ Assigns call taskId
  started : ∀ started completed failed,
    (e.processTasks call).1 = .ok (started, completed, failed) → started = new
  running : ∀ taskId, (e.processTasks call).2.IsRunning taskId → e.IsRunning taskId ∨ taskId ∈ new
  kept : ∀ taskId, Assigns call taskId → e.IsRunning taskId ∨ taskId ∈ new →
    (e.processTasks call).2.IsRunning taskId

theorem Processed.of_failed {e : TaskExecutor} {call : ProcessTasks} (error : ProcessError)
    (h : e.processTasks call = (.error error, e)) : Processed e call [] where
  mem _ hmem := absurd hmem List.not_mem_nil
  started _ _ _ hok := by
    rw [h] at hok
    cases hok
  running _ hrun := by
    rw [h] at hrun
    exact .inl hrun
  kept taskId _ hrun := by
    rw [h]
    exact hrun.resolve_right List.not_mem_nil

theorem processTasks_spec (e : TaskExecutor) (call : ProcessTasks) :
    ∃ new, Processed e call new := by
  cases hgateway : call.getGateway with
  | none => exact ⟨[], .of_failed .query (by simp only [processTasks, hgateway])⟩
  | some gateway? =>
  cases gateway? with
  | none =>
      exact ⟨[], .of_failed .noGatewayRegistered (by simp only [processTasks, hgateway])⟩
  | some gateway =>
  cases hcctp : call.getCctpInfo with
  | none => exact ⟨[], .of_failed .query (by simp only [processTasks, hgateway, hcctp])⟩
  | some cctpInfo =>
  cases htasks : call.getShardTasks with
  | none => exact ⟨[], .of_failed .query (by simp only [processTasks, hgateway, hcctp, htasks])⟩
  | some tasks =>
  have hcall := processTasks.eq_def e call
  simp only [hgateway, hcctp, htasks] at hcall
  generalize hspawn : (fun task => Execution.mk call.blockHash call.blockNumber cctpInfo e.network
    gateway call.shardId task) = spawn at hcall
  obtain ⟨new, hmem, hrunning, hstarted⟩ := startTasks_spec call spawn 0 tasks e.runningTasks []
  have hnew : ∀ taskId ∈ new, ¬e.IsRunning taskId ∧ Assigns call taskId := by
    intro taskId hid
    obtain ⟨hlisted, hidle⟩ := hmem taskId hid
    refine ⟨fun hrun => hrun hidle, fun tasks' htasks' => ?_⟩
    rw [htasks] at htasks'
    cases htasks'
    exact hlisted
  refine ⟨new, ?_⟩
  cases hloop : startTasks call spawn 0 tasks e.runningTasks [] with
  | mk result running =>
  rw [hloop] at hcall hrunning hstarted
  cases result with
  | error error =>
      simp only at hcall
      refine ⟨hnew, fun _ _ _ hok => ?_, fun taskId hrun => ?_, fun taskId _ hrun => ?_⟩
      · rw [hcall] at hok
        cases hok
      · rw [hcall] at hrun
        exact (hrunning taskId).mp hrun
      · rw [hcall]
        exact (hrunning taskId).mpr hrun
  | ok started =>
      simp only at hcall
      refine ⟨hnew, fun started' _ _ hok => ?_, fun taskId hrun => ?_,
        fun taskId hassigned hrun => ?_⟩
      · rw [hcall] at hok
        cases hok
        exact hstarted started rfl
      · rw [hcall, IsRunning, StorageMap.get_removeAll] at hrun
        refine (hrunning taskId).mp fun hnone => hrun ?_
        rw [hnone, ite_self]
      · rw [hcall, IsRunning, StorageMap.get_removeAll, if_neg]
        · exact (hrunning taskId).mpr hrun
        · intro hcompleted
          have hout := (List.mem_filter.mp hcompleted).2
          have hin := hassigned tasks htasks
          simp [hin] at hout

theorem inserts_iff {e : TaskExecutor} {call : ProcessTasks} {new : List TaskId}
    (h : Processed e call new) (taskId : TaskId) : e.Inserts call taskId ↔ taskId ∈ new := by
  constructor
  · rintro ⟨hidle, hrun⟩
    exact (h.running taskId hrun).resolve_left hidle
  · intro hmem
    obtain ⟨hidle, hassigned⟩ := h.mem taskId hmem
    exact ⟨hidle, h.kept taskId hassigned (.inr hmem)⟩

/-- A call that returns announces the tasks it inserted, and no others. -/
theorem mem_started_iff {e : TaskExecutor} {call : ProcessTasks} {started completed : List TaskId}
    {failed : Nat} (h : (e.processTasks call).1 = .ok (started, completed, failed))
    (taskId : TaskId) : taskId ∈ started ↔ e.Inserts call taskId := by
  obtain ⟨new, hnew⟩ := processTasks_spec e call
  rw [hnew.started started completed failed h, inserts_iff hnew]

theorem isRunning_processTasks {e : TaskExecutor} {call : ProcessTasks} {taskId : TaskId}
    (hrun : e.IsRunning taskId) (hassigned : Assigns call taskId) :
    (e.processTasks call).2.IsRunning taskId := by
  obtain ⟨new, hnew⟩ := processTasks_spec e call
  exact hnew.kept taskId hassigned (.inl hrun)

/-! ## Runs -/

/-- The task is in a list of started tasks that a call of the run returned. -/
def Announced (run : List (ProcessTasks × Except ProcessError (List TaskId × List TaskId × Nat)))
    (taskId : TaskId) : Prop :=
  ∃ call started completed failed, (call, .ok (started, completed, failed)) ∈ run ∧
    taskId ∈ started

/-- A task that is running is not announced, as long as the shard has it. -/
theorem not_announced {e : TaskExecutor} {taskId : TaskId} (hrun : e.IsRunning taskId)
    {calls : List ProcessTasks} (hassigned : ∀ call ∈ calls, Assigns call taskId) :
    ¬Announced (trace processTasks e calls) taskId := by
  induction calls generalizing e with
  | nil =>
      rintro ⟨_, _, _, _, hmem, -⟩
      cases hmem
  | cons call calls ih =>
      rintro ⟨call', started, completed, failed, hmem, hstarted⟩
      rcases List.mem_cons.mp hmem with heq | hmem
      · have hok : (e.processTasks call).1 = .ok (started, completed, failed) :=
          (congrArg Prod.snd heq).symm
        exact ((mem_started_iff hok taskId).mp hstarted).1 hrun
      · refine ih (isRunning_processTasks hrun (hassigned call List.mem_cons_self))
          (fun c hc => hassigned c (List.mem_cons_of_mem _ hc)) ?_
        exact ⟨call', started, completed, failed, hmem, hstarted⟩

/-- A shard with two batches to submit. -/
def exampleCall : ProcessTasks where
  blockHash := Vector.replicate 32 0
  blockNumber := 5
  shardId := 0
  getGateway := some (some (Vector.replicate 32 1))
  getCctpInfo := some none
  getShardTasks := some [1, 2]
  getTask i := some (some (.submitGatewayMessage i))
  finalizedBlock _ := some 100
  failedTasks := 0

/-- The same call, in which the query for the second task fails. -/
def interruptedCall : ProcessTasks :=
  { exampleCall with getTask := fun i => if i = 1 then none else exampleCall.getTask i }

end TaskExecutor

end Chronicle

end Timechain
