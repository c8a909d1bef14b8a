import Timechain.TasksDocket
import Timechain.TasksRefine

/-!
# The pallet keeps its docket

`docket` is what the pallet knows about batches. Every function of the
pallet leaves it alone or makes moves on it (`Books`), as long as ids
have not run out, and which moves a call makes is `exec_books`. What the
moves keep therefore holds in every state of a run (`run_docket`).
-/

namespace Timechain

namespace Tasks

open Function (update update_apply)
open Relation (ReflTransGen)
open Docket (Move)

/-! ## The docket of a state -/

def docket (s : State) : Docket TaskId BatchId where
  known taskId := taskId ≤ s.taskIdCounter
  started batchId := batchId < s.batchIdCounter
  job taskId := (s.tasks.get taskId).map taskJob
  done taskId := s.taskOutput.get taskId ≠ none
  task := s.batchTaskId.get
  message batchId := s.batchMessage.get batchId ≠ none
  pending batchId := s.pendingBatches.get batchId ≠ none
  failed batchId := s.failedBatchIds.get batchId ≠ none

/-- Ids are at most as many as tasks were created. -/
structure Enumerated (s : State) : Prop where
  taskIds : s.taskIdCounter ≤ s.createdTasks.length
  batchIds : s.batchIdCounter ≤ s.createdTasks.length

/-- Nothing on the docket changed. -/
structure Unfiled (s s' : State) : Prop where
  created : s'.createdTasks = s.createdTasks
  taskIds : s'.taskIdCounter = s.taskIdCounter
  batchIds : s'.batchIdCounter = s.batchIdCounter
  docket : docket s' = docket s

/-- Within the bounds of the ids, the pallet made moves on the docket. -/
structure Books (g : Docket.Guards TaskId BatchId) (s s' : State) : Prop where
  grows : s.createdTasks.length ≤ s'.createdTasks.length
  numbered : Enumerated s → Enumerated s'
  moves : Enumerated s → s'.createdTasks.length < 2 ^ 64 →
    ReflTransGen (Move g) (docket s) (docket s')

section Books

variable {g : Docket.Guards TaskId BatchId} {s s' s'' : State}

theorem Unfiled.refl (s : State) : Unfiled s s := ⟨rfl, rfl, rfl, rfl⟩

theorem Unfiled.trans (h : Unfiled s s') (h' : Unfiled s' s'') : Unfiled s s'' :=
  ⟨h'.created.trans h.created, h'.taskIds.trans h.taskIds, h'.batchIds.trans h.batchIds,
    h'.docket.trans h.docket⟩

theorem Unfiled.books (h : Unfiled s s') : Books g s s' where
  grows := by rw [h.created]
  numbered hs := ⟨by rw [h.created, h.taskIds]; exact hs.taskIds,
    by rw [h.created, h.batchIds]; exact hs.batchIds⟩
  moves _ _ := by rw [h.docket]

theorem Books.refl (s : State) : Books g s s := (Unfiled.refl s).books

theorem Books.trans (h : Books g s s') (h' : Books g s' s'') : Books g s s'' where
  grows := Nat.le_trans h.grows h'.grows
  numbered hs := h'.numbered (h.numbered hs)
  moves hs hlen := (h.moves hs (Nat.lt_of_le_of_lt h'.grows hlen)).trans
    (h'.moves (h.numbered hs) hlen)

/-- A move that creates no task. -/
theorem Books.of_move (hcreated : s'.createdTasks = s.createdTasks)
    (htask : s'.taskIdCounter = s.taskIdCounter) (hbatch : s'.batchIdCounter = s.batchIdCounter)
    (hmove : Move g (docket s) (docket s')) : Books g s s' where
  grows := by rw [hcreated]
  numbered hs := ⟨by rw [hcreated, htask]; exact hs.taskIds,
    by rw [hcreated, hbatch]; exact hs.batchIds⟩
  moves _ _ := .single hmove

end Books

/-! ## Creating tasks -/

section Create

variable {g : Docket.Guards TaskId BatchId} {s : State}

/-- Ids that are left are new. -/
theorem nextTaskId_of_le (h : s.taskIdCounter ≤ s.createdTasks.length)
    (hlen : s.createdTasks.length + 1 < 2 ^ 64) : s.nextTaskId = s.taskIdCounter + 1 := by
  refine satSucc_of_lt ?_
  simp only [maxVal]
  omega

theorem nextTaskId_unknown (h : s.taskIdCounter ≤ s.createdTasks.length)
    (hlen : s.createdTasks.length + 1 < 2 ^ 64) : ¬(docket s).known s.nextTaskId := by
  show ¬s.nextTaskId ≤ s.taskIdCounter
  rw [nextTaskId_of_le h hlen]
  exact Nat.not_succ_le_self _

theorem createTask_taskIdCounter (s : State) (network : NetworkId) (task : Task) :
    (s.createTask network task).taskIdCounter = s.nextTaskId := by
  cases task <;> rfl

theorem docket_createTask (h : s.taskIdCounter ≤ s.createdTasks.length)
    (hlen : s.createdTasks.length + 1 < 2 ^ 64) (network : NetworkId) (task : Task) :
    docket (s.createTask network task) = (docket s).create s.nextTaskId (taskJob task) := by
  have hframe : (s.createTask network task).batchTaskId = s.batchTaskId ∧
      (s.createTask network task).toBatchStore = s.toBatchStore := by
    cases task <;> exact ⟨rfl, rfl⟩
  simp only [docket, Docket.create, createTask_taskIdCounter, createTask_tasks,
    createTask_taskOutput, hframe.1, hframe.2, Docket.mk.injEq, and_true, true_and]
  refine ⟨funext fun t => ?_, funext fun t => ?_⟩
  · rw [nextTaskId_of_le h hlen]
    exact propext (Nat.le_add_one_iff.trans or_comm)
  · rw [StorageMap.get_insert, update_apply]
    split <;> rfl

theorem nextTaskId_le (h : s.taskIdCounter ≤ s.createdTasks.length) :
    s.nextTaskId ≤ s.createdTasks.length + 1 :=
  Nat.le_trans (satAdd_le ..) (Nat.add_le_add_right h 1)

/-- A call that creates one task. -/
theorem Books.of_create {s' : State} (hcreated : s'.createdTasks.length = s.createdTasks.length + 1)
    (htask : s'.taskIdCounter = s.nextTaskId) (hbatch : s'.batchIdCounter ≤ s.batchIdCounter + 1)
    (hmove : s.taskIdCounter ≤ s.createdTasks.length → s.batchIdCounter ≤ s.createdTasks.length →
      s.createdTasks.length + 1 < 2 ^ 64 → Move g (docket s) (docket s')) : Books g s s' where
  grows := by
    rw [hcreated]
    exact Nat.le_succ _
  numbered h := by
    refine ⟨?_, ?_⟩
    · rw [hcreated, htask]
      exact nextTaskId_le h.taskIds
    · rw [hcreated]
      exact Nat.le_trans hbatch (Nat.add_le_add_right h.batchIds 1)
  moves h hlen := by
    rw [hcreated] at hlen
    exact .single (hmove h.taskIds h.batchIds hlen)

theorem readGatewayEvents_books (s : State) (env : Env) (network : NetworkId) :
    Books g s (s.readGatewayEvents env network) := by
  refine .of_create (createTask_length ..) (createTask_taskIdCounter ..) (Nat.le_succ _) ?_
  intro hids _ hlen
  rw [State.readGatewayEvents, docket_createTask hids hlen]
  exact .read (nextTaskId_unknown hids hlen)

/-- A task takes over the batch. -/
theorem docket_link (s : State) (batchId : BatchId) (taskId : TaskId) :
    docket { s with
      pendingBatches := s.pendingBatches.insert batchId ()
      batchTaskId := s.batchTaskId.insert batchId taskId } =
    { docket s with
      task := update (docket s).task batchId (some taskId)
      pending := fun b => b = batchId ∨ (docket s).pending b } := by
  simp only [docket, Docket.mk.injEq, and_true, true_and]
  exact ⟨StorageMap.get_insert_eq .., funext fun b => propext StorageMap.get_insert_ne_none⟩

theorem foldl_recordOp_unfiled (cfg : Config) (batchId : BatchId) (ops : List GatewayOp)
    (s : State) : Unfiled s (ops.foldl (State.recordOp cfg batchId) s) := by
  induction ops generalizing s with
  | nil => exact .refl s
  | cons op ops ih =>
      refine Unfiled.trans ?_ (ih _)
      cases op <;> exact ⟨rfl, rfl, rfl, rfl⟩

theorem startBatch_books (s : State) (cfg : Config) (network : NetworkId) (msg : GatewayMessage) :
    Books g s (s.startBatch cfg network msg) := by
  have hrec := foldl_recordOp_unfiled cfg s.batchIdCounter msg.ops
    { s with
      batchIdCounter := satAdd 64 s.batchIdCounter 1
      startedBatches := s.startedBatches ++ [(network, s.batchIdCounter, msg)] }
  rw [State.startBatch]
  revert hrec
  generalize msg.ops.foldl (State.recordOp cfg s.batchIdCounter) _ = s₁
  intro hrec
  have hcreated : s₁.createdTasks = s.createdTasks := hrec.created
  have hids : s₁.taskIdCounter = s.taskIdCounter := hrec.taskIds
  have hnext : s₁.nextTaskId = s.nextTaskId := congrArg (satSucc 64) hids
  refine .of_create ?_ ?_ ?_ ?_
  · refine (createTask_length ..).trans ?_
    exact congrArg (·.length + 1) hcreated
  · exact (createTask_taskIdCounter ..).trans hnext
  · have hbatch : s₁.batchIdCounter = satAdd 64 s.batchIdCounter 1 := hrec.batchIds
    refine Nat.le_trans (Nat.le_of_eq hbatch) (satAdd_le ..)
  · intro htask hbatch hlen
    have hnew : ¬(docket s).started s.batchIdCounter := Nat.lt_irrefl _
    have hcreate := @docket_createTask
      { s₁ with batchMessage := s₁.batchMessage.insert s.batchIdCounter msg }
      (by rw [hids, hcreated]; exact htask) (by rw [hcreated]; exact hlen) network
      (.submitGatewayMessage s.batchIdCounter)
    have hmessage : docket { s₁ with
        batchMessage := s₁.batchMessage.insert s.batchIdCounter msg } =
        { docket s₁ with
          message := fun b => b = s.batchIdCounter ∨ (docket s₁).message b } := by
      simp only [docket, Docket.mk.injEq, and_true, true_and]
      exact funext fun b => propext StorageMap.get_insert_ne_none
    have hstarted : docket s₁ = { docket s with
        started := fun b => b = s.batchIdCounter ∨ (docket s).started b } := by
      refine hrec.docket.trans ?_
      simp only [docket, Docket.mk.injEq, and_true, true_and]
      rw [satAdd_of_lt (by omega)]
      exact funext fun b => propext (Nat.lt_succ_iff_lt_or_eq.trans or_comm)
    have hmove : Move g (docket s) ((docket s).start s.batchIdCounter s₁.nextTaskId) :=
      .start hnew (hnext ▸ nextTaskId_unknown htask hlen)
    rw [docket_link, hcreate, hmessage, hstarted]
    exact hmove

theorem restartBatch_books {cfg : Config} {s' : State} {origin : Origin} {batchId : BatchId}
    (h : s.restartBatch cfg origin batchId = .ok s') (hg : g.restart (docket s) batchId) :
    Books g s s' := by
  obtain ⟨-, -, h⟩ := bind_ok h
  obtain ⟨oldTaskId, hold, h⟩ := bind_ok h
  obtain ⟨network, -, h⟩ := bind_ok h
  cases h
  refine .of_create (createTask_length ..) (createTask_taskIdCounter ..) (Nat.le_succ _) ?_
  intro hids _ hlen
  have hcreate := docket_createTask hids hlen network (.submitGatewayMessage batchId)
  have hfailed : ∀ s₁ : State, docket { s₁ with
      failedBatchIds := s₁.failedBatchIds.remove batchId } =
      { docket s₁ with failed := fun b => b ≠ batchId ∧ (docket s₁).failed b } := by
    intro s₁
    simp only [docket, Docket.mk.injEq, true_and]
    exact funext fun b => propext StorageMap.get_remove_ne_none
  have hmove : Move g (docket s) ((docket s).restart batchId s.nextTaskId) :=
    .restart (okOr_ok hold) (nextTaskId_unknown hids hlen) hg
  have hlink := docket_link (s.createTask network (.submitGatewayMessage batchId)) batchId
    s.nextTaskId
  have hdocket := hfailed { s.createTask network (.submitGatewayMessage batchId) with
    batchTaskId := s.batchTaskId.insert batchId s.nextTaskId
    pendingBatches := s.pendingBatches.insert batchId () }
  rw [hcreate] at hlink
  refine hdocket.symm ▸ ?_
  exact hlink.symm ▸ hmove

end Create

/-! ## Results and events -/

section Results

variable {g : Docket.Guards TaskId BatchId} {cfg : Config} {s : State}

theorem finishTask_toBatchStore (s : State) (network : NetworkId) (taskId : TaskId)
    (result : Except ErrorMsg Unit) :
    (s.finishTask network taskId result).toBatchStore = s.toBatchStore := by
  unfold State.finishTask
  split
  · rfl
  · dsimp only
    split <;> rfl

theorem finishTask_output_iff {network : NetworkId} {taskId t : TaskId}
    {result : Except ErrorMsg Unit} :
    (s.finishTask network taskId result).taskOutput.get t ≠ none
      ↔ t = taskId ∨ s.taskOutput.get t ≠ none := by
  by_cases ht : t = taskId
  · rw [ht]
    exact iff_of_true finishTask_output_self (Or.inl rfl)
  · rw [(finishTask_of_ne ht).1, or_iff_right ht]

theorem docket_finishTask (s : State) (network : NetworkId) (taskId : TaskId)
    (result : Except ErrorMsg Unit) :
    docket (s.finishTask network taskId result) = (docket s).finish taskId := by
  have hfin := @finishTask_finishing s network taskId result
  have hcounter : (s.finishTask network taskId result).taskIdCounter = s.taskIdCounter :=
    (congrArg TaskStore.taskIdCounter hfin.rest :)
  simp only [docket, Docket.finish, finishTask_toBatchStore, hfin.tasks, hfin.batchTaskId,
    hcounter, Docket.mk.injEq, and_true, true_and]
  exact funext fun t => propext finishTask_output_iff

/-- Finishing writes no ids. -/
theorem finishTask_books {network : NetworkId} {taskId : TaskId} {result : Except ErrorMsg Unit}
    (hmove : Move g (docket s) ((docket s).finish taskId)) :
    Books g s (s.finishTask network taskId result) := by
  have hfin := @finishTask_finishing s network taskId result
  refine .of_move hfin.createdTasks (congrArg TaskStore.taskIdCounter hfin.rest :)
    (congrArg BatchStore.batchIdCounter (finishTask_toBatchStore s network taskId result) :) ?_
  rw [docket_finishTask]
  exact hmove

theorem docket_processEvent (s : State) (network : NetworkId) (taskId : TaskId)
    (event : GmpEvent) :
    docket (State.processEvent cfg network taskId s event)
      = (executedBatches [event]).foldl Docket.execute (docket s) := by
  cases event with
  | batchExecuted batchId txHash =>
      have hpending : docket { s with
          processedEvents := s.processedEvents
            ++ [(network, taskId, .batchExecuted batchId txHash)]
          pendingBatches := s.pendingBatches.remove batchId } =
          { docket s with pending := fun b => b ≠ batchId ∧ (docket s).pending b } := by
        simp only [docket, Docket.mk.injEq, and_true, true_and]
        exact funext fun b => propext StorageMap.get_remove_ne_none
      unfold State.processEvent
      dsimp only
      cases hb : s.batchTaskId.get batchId with
      | none =>
          have hexec : (docket s).execute batchId =
              { docket s with pending := fun b => b ≠ batchId ∧ (docket s).pending b } := by
            simp [Docket.execute, docket, hb]
          cases txHash <;> exact hpending.trans hexec.symm
      | some t =>
          have hexec : (docket s).execute batchId = Docket.finish
              { docket s with pending := fun b => b ≠ batchId ∧ (docket s).pending b } t := by
            simp [Docket.execute, Docket.finish, docket, hb, eq_comm]
          cases txHash <;> exact (docket_finishTask ..).trans (hpending ▸ hexec.symm)
  | _ => rfl

theorem docket_processEvents (s : State) (network : NetworkId) (taskId : TaskId)
    (events : List GmpEvent) :
    docket (s.processEvents cfg network taskId events)
      = (executedBatches events).foldl Docket.execute (docket s) := by
  induction events generalizing s with
  | nil => rfl
  | cons event events ih =>
      have hsplit : executedBatches (event :: events)
          = executedBatches [event] ++ executedBatches events :=
        List.filterMap_append (l := [event])
      rw [hsplit, List.foldl_append, ← docket_processEvent]
      exact ih _

theorem processEvents_batchIdCounter (s : State) (network : NetworkId) (taskId : TaskId)
    (events : List GmpEvent) :
    (s.processEvents cfg network taskId events).batchIdCounter = s.batchIdCounter := by
  induction events generalizing s with
  | nil => rfl
  | cons event events ih =>
      refine (ih _).trans ?_
      cases event with
      | batchExecuted batchId txHash =>
          unfold State.processEvent
          dsimp only
          cases s.batchTaskId.get batchId <;> cases txHash <;>
            simp only [finishTask_toBatchStore]
      | _ => rfl

theorem foldl_execute_moves (d : Docket TaskId BatchId) (bs : List BatchId) :
    ReflTransGen (Move g) d (bs.foldl Docket.execute d) := by
  induction bs generalizing d with
  | nil => exact .refl
  | cons b bs ih => exact .head (.execute b) (ih _)

theorem processEvents_books (s : State) (network : NetworkId) (taskId : TaskId)
    (events : List GmpEvent) : Books g s (s.processEvents cfg network taskId events) := by
  have hfin := @processEvents_finishing cfg network taskId s events
  have hcounter : (s.processEvents cfg network taskId events).taskIdCounter = s.taskIdCounter :=
    (congrArg TaskStore.taskIdCounter hfin.rest :)
  refine ⟨?_, fun h => ⟨?_, ?_⟩, fun _ _ => ?_⟩
  · rw [hfin.createdTasks]
  · rw [hfin.createdTasks, hcounter]
    exact h.taskIds
  · rw [hfin.createdTasks, processEvents_batchIdCounter]
    exact h.batchIds
  · rw [docket_processEvents]
    exact foldl_execute_moves ..

theorem docket_reopenBatch (s : State) (batchId : BatchId) :
    docket (s.reopenBatch batchId) = (docket s).reopen batchId := by
  unfold State.reopenBatch
  cases hb : s.batchTaskId.get batchId with
  | none =>
      simp only [hb]
      simp only [docket, Docket.reopen, hb, Docket.mk.injEq, true_and]
      refine ⟨?_, funext fun b => propext StorageMap.get_remove_ne_none⟩
      exact funext fun t => propext (and_iff_right (Option.some_ne_none t).symm).symm
  | some taskId =>
      simp only [hb]
      simp only [docket, Docket.reopen, hb, Docket.mk.injEq, true_and]
      refine ⟨funext fun t => propext ?_, funext fun b => propext StorageMap.get_remove_ne_none⟩
      refine StorageMap.get_remove_ne_none.trans (and_congr_left' ?_)
      rw [ne_comm]
      exact (Option.some_injective _).ne_iff.symm

theorem reopenBatch_books {batchId : BatchId} (hg : g.reopen (docket s) batchId) :
    Books g s (s.reopenBatch batchId) := by
  have hstore := reopenBatch_toTaskStore s batchId
  refine .of_move (congrArg TaskStore.createdTasks hstore :)
    (congrArg TaskStore.taskIdCounter hstore :) ?_ ?_
  · unfold State.reopenBatch
    cases hb : s.batchTaskId.get batchId <;> simp only [hb]
  · rw [docket_reopenBatch]
    exact .reopen hg

theorem docket_reopenBatches (s : State) (batchIds : List BatchId) :
    docket (batchIds.foldl State.reopenBatch s) = batchIds.foldl Docket.reopen (docket s) := by
  induction batchIds generalizing s with
  | nil => rfl
  | cons batchId batchIds ih =>
      rw [List.foldl_cons, ih, docket_reopenBatch]
      rfl

theorem reopenBatches_books {batchIds : List BatchId}
    (hg : ∀ batchId ∈ batchIds, ∀ d, g.reopen d batchId) :
    Books g s (batchIds.foldl State.reopenBatch s) := by
  induction batchIds generalizing s with
  | nil => exact .refl s
  | cons batchId batchIds ih =>
      exact (reopenBatch_books (hg batchId (List.mem_cons_self ..) _)).trans
        (ih fun b hb => hg b (List.mem_cons_of_mem _ hb))

theorem docket_acceptError (s : State) (network : NetworkId) (taskId : TaskId)
    (batchId : BatchId) (error : ErrorMsg) :
    docket (s.acceptError network taskId batchId error) = (docket s).fail taskId batchId := by
  rw [State.acceptError, docket_finishTask]
  simp only [docket, Docket.fail, Docket.finish, Docket.mk.injEq, true_and]
  exact ⟨funext fun b => propext StorageMap.get_remove_ne_none,
    funext fun b => propext StorageMap.get_insert_ne_none⟩

theorem acceptError_books {network : NetworkId} {taskId : TaskId} {batchId : BatchId}
    {error : ErrorMsg} (htask : s.tasks.get taskId = some (.submitGatewayMessage batchId))
    (hopen : s.taskOutput.get taskId = none) (hg : g.fail (docket s) taskId batchId) :
    Books g s (s.acceptError network taskId batchId error) := by
  have hfin := @finishTask_finishing
    { s with
      pendingBatches := s.pendingBatches.remove batchId
      failedBatchIds := s.failedBatchIds.insert batchId () } network taskId (.error error)
  refine .of_move hfin.createdTasks (congrArg TaskStore.taskIdCounter hfin.rest :)
    (congrArg BatchStore.batchIdCounter (finishTask_toBatchStore ..) :) ?_
  rw [docket_acceptError]
  refine .fail ?_ (fun hdone => hdone hopen) hg
  exact congrArg (Option.map taskJob) htask

theorem advanceSync_unfiled (s : State) (network : NetworkId) (blocks : BlockRange) :
    Unfiled s (s.advanceSync network blocks) := by
  unfold State.advanceSync
  split
  · exact ⟨rfl, rfl, rfl, rfl⟩
  · exact .refl s

theorem readNext_books (s : State) (env : Env) (network : NetworkId) :
    Books g s (s.readNext env network) := by
  unfold State.readNext
  split
  · exact readGatewayEvents_books s env network
  · exact .refl s

/-- A task that reads keeps doing so, whatever id the next one gets. -/
theorem readNext_job {env : Env} {network : NetworkId} {taskId : TaskId}
    (h : (docket s).job taskId = some .read) :
    (docket (s.readNext env network)).job taskId = some .read := by
  unfold State.readNext
  split
  · show ((s.createTask network _).tasks.get taskId).map taskJob = some .read
    rw [createTask_tasks, StorageMap.get_insert]
    split
    · rfl
    · exact h
  · exact h

theorem acceptEvents_books {env : Env} {network : NetworkId} {taskId : TaskId}
    {blocks : BlockRange} (events : List GmpEvent)
    (htask : s.tasks.get taskId = some (.readGatewayEvents blocks)) :
    Books g s (s.acceptEvents cfg env network taskId blocks events) := by
  have hsync := advanceSync_unfiled s network blocks
  have hjob : (docket (s.advanceSync network blocks)).job taskId = some .read := by
    rw [hsync.docket]
    exact congrArg (Option.map taskJob) htask
  have hread := @readNext_job _ env network taskId hjob
  have hbooks : Books g s (State.processEvents ((s.advanceSync network blocks).readNext env network)
      cfg network taskId events) :=
    (hsync.books.trans (readNext_books ..)).trans (processEvents_books ..)
  rw [State.acceptEvents]
  split
  · exact hbooks
  · refine hbooks.trans (finishTask_books (.finish ?_))
    rw [docket_processEvents, Docket.foldl_execute]
    exact hread

/-- What was executed shows on the docket. -/
theorem acceptEvents_over {env : Env} {network : NetworkId} {taskId : TaskId}
    {blocks : BlockRange} {events : List GmpEvent} {batchId : BatchId}
    (hb : batchId ∈ executedBatches events) (hstarted : (docket s).started batchId)
    (hfailed : ¬(docket s).failed batchId) :
    (docket (s.acceptEvents cfg env network taskId blocks events)).Over batchId ∧
      (docket (s.acceptEvents cfg env network taskId blocks events)).Idle batchId := by
  have hframe : ((s.advanceSync network blocks).readNext env network).toBatchStore
      = s.toBatchStore := by
    unfold State.readNext State.advanceSync
    split <;> split <;> rfl
  have hover := @Docket.foldl_execute_over _ _
    (docket ((s.advanceSync network blocks).readNext env network)) batchId _ hb
    (show batchId < BatchStore.batchIdCounter _ by rw [hframe]; exact hstarted)
    (show ¬(BatchStore.failedBatchIds _).get batchId ≠ none by rw [hframe]; exact hfailed)
  rw [← @docket_processEvents cfg _ network taskId] at hover
  rw [State.acceptEvents]
  split
  · exact hover
  · rw [docket_finishTask]
    exact ⟨⟨hover.1.started, hover.1.pending, hover.1.failed⟩, fun t ht => Or.inr (hover.2 t ht)⟩

theorem submitGmpEvents_over {network : NetworkId} {events : GmpEvents} {batchId : BatchId}
    (hb : batchId ∈ executedBatches events.val) (hstarted : (docket s).started batchId) :
    (docket (((executedBatches events.val).foldl State.reopenBatch s).processEvents cfg network 0
      events.val)).Over batchId ∧
    (docket (((executedBatches events.val).foldl State.reopenBatch s).processEvents cfg network 0
      events.val)).Idle batchId := by
  rw [docket_processEvents, docket_reopenBatches]
  refine Docket.foldl_execute_over hb ?_ ?_
  · rw [Docket.foldl_reopen]
    exact hstarted
  · rw [Docket.foldl_reopen]
    exact fun hno => hno.1 hb

end Results

/-! ## Removing tasks -/

section Remove

variable {g : Docket.Guards TaskId BatchId} {cfg : Config} {s s' : State}

theorem foldl_forgetOp_unfiled (ops : List GatewayOp) (s : State) :
    Unfiled s (ops.foldl (State.forgetOp cfg) s) := by
  induction ops generalizing s with
  | nil => exact .refl s
  | cons op ops ih =>
      refine Unfiled.trans ?_ (ih _)
      cases op <;> exact ⟨rfl, rfl, rfl, rfl⟩

theorem docket_unlink (s : State) (batchId : BatchId) :
    docket { s with batchTaskId := s.batchTaskId.remove batchId } =
      { docket s with task := fun b => if b = batchId then none else (docket s).task b } := by
  simp only [docket, Docket.mk.injEq, and_true, true_and]
  exact funext fun b => StorageMap.get_remove ..

theorem docket_forgetBatch (s : State) (batchId : BatchId) :
    docket (s.forgetBatch cfg batchId) =
      { docket s with
        task := fun b => if b = batchId then none else (docket s).task b
        message := fun b => b ≠ batchId ∧ (docket s).message b } := by
  rw [State.forgetBatch]
  cases hget : s.batchMessage.get batchId with
  | none =>
      have hmessage : (fun b => b ≠ batchId ∧ (docket s).message b) = (docket s).message := by
        refine funext fun b => propext (and_iff_right_of_imp ?_)
        rintro hb rfl
        exact hb hget
      rw [hmessage]
      exact docket_unlink s batchId
  | some msg =>
      have hforget := (@foldl_forgetOp_unfiled cfg msg.ops
        { s with batchMessage := s.batchMessage.remove batchId }).docket
      have hmessage : docket { s with batchMessage := s.batchMessage.remove batchId } =
          { docket s with message := fun b => b ≠ batchId ∧ (docket s).message b } := by
        simp only [docket, Docket.mk.injEq, and_true, true_and]
        exact funext fun b => propext StorageMap.get_remove_ne_none
      refine (docket_unlink _ batchId).trans ?_
      rw [hforget, hmessage]

theorem forgetBatch_ids (s : State) (batchId : BatchId) :
    (s.forgetBatch cfg batchId).createdTasks = s.createdTasks ∧
      (s.forgetBatch cfg batchId).taskIdCounter = s.taskIdCounter ∧
      (s.forgetBatch cfg batchId).batchIdCounter = s.batchIdCounter := by
  rw [State.forgetBatch]
  cases s.batchMessage.get batchId with
  | none => exact ⟨rfl, rfl, rfl⟩
  | some msg =>
      have hforget := @foldl_forgetOp_unfiled cfg msg.ops
        { s with batchMessage := s.batchMessage.remove batchId }
      exact ⟨hforget.created, hforget.taskIds, hforget.batchIds⟩

theorem docket_dropTask (s : State) (taskId : TaskId) :
    docket { s with
      taskOutput := s.taskOutput.remove taskId
      tasks := s.tasks.remove taskId } =
    { docket s with
      job := update (docket s).job taskId none
      done := fun t => t ≠ taskId ∧ (docket s).done t } := by
  simp only [docket, Docket.mk.injEq, and_true, true_and]
  refine ⟨funext fun t => ?_, funext fun t => propext StorageMap.get_remove_ne_none⟩
  rw [StorageMap.get_remove, update_apply]
  split <;> rfl

theorem removeTask_books {origin : Origin} {taskId : TaskId}
    (h : s.removeTask cfg origin taskId = .ok s')
    (hg : (docket s).done taskId → g.remove (docket s) taskId) : Books g s s' := by
  obtain ⟨-, -, h⟩ := bind_ok h
  split at h
  · next hout =>
      have hdone := StorageMap.containsKey_iff.mp hout
      have hmove : Move g (docket s) ((docket s).remove taskId) := .remove hdone (hg hdone)
      have hdrop := docket_dropTask s taskId
      have hplain : (∀ b, (docket s).job taskId ≠ some (.submit b)) →
          Books g s { s with
            taskOutput := s.taskOutput.remove taskId
            tasks := s.tasks.remove taskId } := by
        intro hjob
        refine .of_move rfl rfl rfl ?_
        rw [hdrop]
        simpa [Docket.remove, hjob] using hmove
      cases h
      cases htask : s.tasks.get taskId with
      | none =>
          have hbooks := hplain fun b => by simp [docket, htask]
          exact hbooks.trans (Unfiled.books ⟨rfl, rfl, rfl, rfl⟩)
      | some task =>
          cases task with
          | readGatewayEvents blocks =>
              have hbooks := hplain fun b => by simp [docket, htask, taskJob]
              exact hbooks.trans (Unfiled.books ⟨rfl, rfl, rfl, rfl⟩)
          | submitGatewayMessage batchId =>
              have hforget := @docket_forgetBatch cfg { s with
                taskOutput := s.taskOutput.remove taskId
                tasks := s.tasks.remove taskId } batchId
              obtain ⟨hcreated, htaskIds, hbatchIds⟩ := @forgetBatch_ids cfg { s with
                taskOutput := s.taskOutput.remove taskId
                tasks := s.tasks.remove taskId } batchId
              have hremove : (docket s).remove taskId = docket (State.forgetBatch { s with
                  taskOutput := s.taskOutput.remove taskId
                  tasks := s.tasks.remove taskId } cfg batchId) := by
                rw [hforget, hdrop]
                simp [Docket.remove, docket, htask, taskJob, eq_comm]
              refine .of_move hcreated htaskIds hbatchIds ?_
              exact hremove ▸ hmove
  · cases h

end Remove

/-! ## Calls -/

section Calls

variable {g : Docket.Guards TaskId BatchId} {cfg : Config} {s s' : State} {i : Input}

theorem onInitialize_books {env : Env} (h : s.onInitialize cfg env = some s') : Books g s s' := by
  refine scheduleTasks_rule ?_ (prepareBatches_rule ?_ ?_ (.refl s)) h
  · exact fun queue shard taskId hs => hs.trans (Unfiled.books ⟨rfl, rfl, rfl, rfl⟩)
  · exact fun queue hs => hs.trans (Unfiled.books ⟨rfl, rfl, rfl, rfl⟩)
  · exact fun network msg hs => hs.trans (startBatch_books ..)

theorem shardOnline_unfiled (s : State) (env : Env) (shard : ShardId) (network : NetworkId) :
    Unfiled s (s.shardOnline env shard network) := by
  unfold State.shardOnline
  split
  · split <;> exact ⟨rfl, rfl, rfl, rfl⟩
  · exact ⟨rfl, rfl, rfl, rfl⟩

theorem releaseTask_unfiled (network : NetworkId) (shard : ShardId) (read : Option TaskId)
    (s : State) (taskId : TaskId) : Unfiled s (State.releaseTask network shard read s taskId) := by
  unfold State.releaseTask
  dsimp only
  split <;> exact ⟨rfl, rfl, rfl, rfl⟩

theorem shardOffline_unfiled (s : State) (env : Env) (shard : ShardId) (network : NetworkId) :
    Unfiled s (s.shardOffline cfg env shard network) := by
  have hfold : ∀ (read : Option TaskId) (taskIds : List TaskId) (s : State),
      Unfiled s (taskIds.foldl (State.releaseTask network shard read) s) := by
    intro read taskIds
    induction taskIds with
    | nil => exact .refl
    | cons taskId taskIds ih =>
        exact fun s => (releaseTask_unfiled network shard read s taskId).trans (ih _)
  have hrelease := hfold (s.readEventsTask.get network)
    ((s.shardTasks.iterPrefix cfg.taskKey shard).map Prod.fst)
    { s with networkShards := s.networkShards.remove (network, shard) }
  unfold State.shardOffline
  dsimp only
  split <;> exact ⟨hrelease.created, hrelease.taskIds, hrelease.batchIds, hrelease.docket⟩

/-- What the guards have to allow for a call. -/
structure Permits (g : Docket.Guards TaskId BatchId) (cfg : Config) (s : State) (i : Input) :
    Prop where
  restart : ∀ {origin batchId s'}, i.call = .restartBatch origin batchId →
    s.restartBatch cfg origin batchId = .ok s' → g.restart (docket s) batchId
  fail : ∀ {origin taskId error batchId s'},
    i.call = .submitTaskResult origin taskId (.submitGatewayMessage error) →
    s.submitTaskResult cfg i.env origin taskId (.submitGatewayMessage error) = .ok s' →
    s.tasks.get taskId = some (.submitGatewayMessage batchId) → s.taskOutput.get taskId = none →
    g.fail (docket s) taskId batchId
  reopen : ∀ {origin network events}, i.call = .submitGmpEvents origin network events →
    cfg.adminOrigin origin = true → ∀ batchId ∈ executedBatches events.val, ∀ d,
      g.reopen d batchId
  remove : ∀ {origin taskId}, i.call = .removeTask origin taskId →
    cfg.adminOrigin origin = true → s.taskOutput.get taskId ≠ none → g.remove (docket s) taskId

/-- **Every call makes moves on the docket.** -/
theorem exec_books (hp : Permits g cfg s i) (h : exec cfg s i = some s') : Books g s s' := by
  obtain ⟨env, call⟩ := i
  cases exec_ends h with
  | idle => exact .refl s
  | onInitialize hrun => exact onInitialize_books hrun
  | @acceptEvents _ _ _ _ _ events _ _ hacc => exact acceptEvents_books events.val hacc.task
  | acceptError hok hacc =>
      exact acceptError_books hacc.task hacc.unfinished (hp.fail rfl hok hacc.task hacc.unfinished)
  | submitGmpEvents hadmin =>
      exact (reopenBatches_books (hp.reopen rfl hadmin)).trans (processEvents_books ..)
  | syncNetwork => exact Unfiled.books ⟨rfl, rfl, rfl, rfl⟩
  | stopNetwork => exact Unfiled.books ⟨rfl, rfl, rfl, rfl⟩
  | removeTask hadmin hok => exact removeTask_books hok fun hdone => hp.remove rfl hadmin hdone
  | restartBatch hok => exact restartBatch_books hok (hp.restart rfl hok)
  | @shardOnline shard network => exact (shardOnline_unfiled s env shard network).books
  | @shardOffline shard network => exact (shardOffline_unfiled s env shard network).books
  | @gatewayRegistered network block =>
      have hsync : Unfiled s { s with syncHeight := s.syncHeight.insert network block.toNat } :=
        ⟨rfl, rfl, rfl, rfl⟩
      exact hsync.books.trans (readGatewayEvents_books ..)

end Calls

/-! ## Runs -/

section Runs

variable {cfg : Config} {ok : State → Input → Prop} {is : List Input} {s s' : State} {i : Input}

theorem genesis_enumerated : Enumerated State.genesis := ⟨Nat.le_refl 0, Nat.le_refl 0⟩

theorem genesis_docket : (docket State.genesis).Inv where
  known_of_job ht := absurd rfl ht
  known_of_done ht := absurd rfl ht
  started_of_job ht := by cases ht
  linked ht := by cases ht
  message_iff := iff_of_false (fun h => h rfl) (fun h => h rfl)

/-- The invariant of the docket, and any property its moves keep. -/
theorem run_docket {g : Docket.Guards TaskId BatchId} {P : Docket TaskId BatchId → Prop}
    (hpermits : ∀ {is s i}, Run (exec cfg) ok State.genesis is s → ok s i → Permits g cfg s i)
    (hgenesis : P (docket State.genesis))
    (hmove : ∀ {d d'}, d.Inv → P d → Move g d d' → P d')
    (h : Run (exec cfg) ok State.genesis is s) :
    Enumerated s ∧ (s.createdTasks.length < 2 ^ 64 → (docket s).Inv ∧ P (docket s)) := by
  refine h.invariant (P := fun _ s => Enumerated s ∧
    (s.createdTasks.length < 2 ^ 64 → (docket s).Inv ∧ P (docket s)))
    ⟨genesis_enumerated, fun _ => ⟨genesis_docket, hgenesis⟩⟩ ?_
  intro is s i s' hrun ⟨hnum, hinv⟩ hok hexec
  have hbooks := exec_books (hpermits hrun hok) hexec
  refine ⟨hbooks.numbered hnum, fun hlen => ?_⟩
  obtain ⟨hd, hP⟩ := hinv (Nat.lt_of_le_of_lt hbooks.grows hlen)
  exact hd.moves hmove hP (hbooks.moves hnum hlen)

end Runs

end Tasks

end Timechain
