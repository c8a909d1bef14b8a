import Timechain.TasksBoard
import Timechain.TasksCalls

/-!
# The pallet plays by the rules of the board

`board` forgets the encoding: queues become lists, maps become
functions. `Small.refines` says that a small step of the pallet leaves
the board alone or is one `Move` on it, as long as the counters have
room: an id handed out for the second time, or a push at the last index,
is no move. The histories only grow, so room at the end of a run is room
all along (`Small.bounded`).

`run_board` is what the results about runs use: in every state reached
within the bounds, the invariant of the board holds, together with any
further property the moves keep.
-/

namespace Timechain

namespace Tasks

open Function (update update_apply)
open Relation (ReflTransGen)

/-! ## The board of a state -/

def taskJob : Task → Job BatchId
  | .readGatewayEvents _ => .read
  | .submitGatewayMessage batchId => .submit batchId

def board (s : TaskStore) : Board NetworkId ShardId TaskId BatchId where
  known taskId := taskId ≤ s.taskIdCounter
  job taskId := (s.tasks.get taskId).map taskJob
  net := s.taskNetwork.get
  queue := s.uaTasks.contents
  shard := s.taskShard.get
  held shard taskId := s.shardTasks.get (shard, taskId) ≠ none
  current := s.readEventsTask.get
  done taskId := s.taskOutput.get taskId ≠ none
  batchTask := s.batchTaskId.get
  created network := s.taskCount.getD network 0
  executed network := s.executedTaskCount.getD network 0

/-- Ids have not run out and, unless pushes may be lost, neither have
queue indices. -/
structure Bounded (lossy : Prop) (s : State) : Prop where
  created : s.createdTasks.length < 2 ^ 64
  pushed : ¬lossy → ∀ network, s.pushes network < 2 ^ 64

/-! ## Pushing a task -/

theorem pushTask_enqueued {lossy : Prop} {s : State} (hcount : Counted s) {network : NetworkId}
    {taskId : TaskId} (hb : Bounded lossy (s.pushTask network taskId)) :
    Board.Enqueued lossy (board s.toTaskStore) network taskId
      (s.pushTask network taskId).uaTasks.contents := by
  have hother : ∀ {m}, m ≠ network →
      (s.pushTask network taskId).uaTasks.contents m = s.uaTasks.contents m := fun hm =>
    QueueImpl.contents_push_of_ne _ _ hm
  by_cases hroom : s.uaTasks.insertI network < maxVal 64
  · refine Or.inl (funext fun m => ?_)
    by_cases hm : m = network
    · subst hm
      rw [Function.update_self]
      exact QueueImpl.contents_push_self _ _ hroom
    · rw [Function.update_of_ne hm, hother hm]
      rfl
  · refine Or.inr ⟨Classical.byContradiction fun hl => hroom ?_, funext fun m => ?_⟩
    · have hpush := hb.pushed hl network
      have hle := hcount.insert_le network
      simp only [State.pushTask, State.pushes, List.countP_append, List.countP_singleton] at hpush
      simp only [State.pushes, maxVal, decide_true, if_true] at *
      omega
    · by_cases hm : m = network
      · subst hm
        exact QueueImpl.contents_push_full _ _ hroom
      · exact hother hm

/-! ## Creating a task -/

section Create

variable {s : State} {network : NetworkId} {lossy : Prop}

theorem nextTaskId_eq (hcount : Counted s) (hlen : s.createdTasks.length + 1 < 2 ^ 64) :
    s.nextTaskId = s.taskIdCounter + 1 := by
  have hle := hcount.counter_le
  refine satSucc_of_lt ?_
  simp only [maxVal]
  omega

theorem nextTaskId_fresh (hcount : Counted s) (hlen : s.createdTasks.length + 1 < 2 ^ 64) :
    ¬(board s.toTaskStore).known s.nextTaskId := by
  show ¬s.nextTaskId ≤ s.taskIdCounter
  rw [nextTaskId_eq hcount hlen]
  exact Nat.not_succ_le_self _

/-- The part of `create_task` that is the same for all tasks. -/
theorem board_register (hcount : Counted s) (task : Task)
    (hlen : s.createdTasks.length + 1 < 2 ^ 64) :
    board
      { s.toTaskStore with
        tasks := s.tasks.insert s.nextTaskId task
        taskNetwork := s.taskNetwork.insert s.nextTaskId network
        taskIdCounter := s.nextTaskId
        taskCount := s.taskCount.insert network (satAdd 64 (s.taskCount.getD network 0) 1) }
      = (board s.toTaskStore).register network (taskJob task) s.nextTaskId := by
  have hsat : satAdd 64 (s.taskCount.getD network 0) 1 = s.taskCount.getD network 0 + 1 := by
    have := hcount.taskCount_le network
    exact satAdd_of_lt (by omega)
  simp only [board, Board.register, Board.mk.injEq, and_true, true_and]
  refine ⟨funext fun t => ?_, funext fun t => ?_, StorageMap.get_insert_eq .., funext fun m => ?_⟩
  · rw [nextTaskId_eq hcount hlen]
    exact propext (Nat.le_add_one_iff.trans or_comm)
  · rw [StorageMap.get_insert, update_apply]
    split <;> rfl
  · rw [StorageMap.getD_insert, update_apply, hsat]

theorem createTask_length (s : State) (network : NetworkId) (task : Task) :
    (s.createTask network task).createdTasks.length = s.createdTasks.length + 1 := by
  rw [createTask_createdTasks, List.length_append, List.length_singleton]

theorem createRead_refines {home : ShardId → NetworkId}
    {ok : Board NetworkId ShardId TaskId BatchId → NetworkId → TaskId → Prop}
    {exempt : TaskId → Prop} (hcount : Counted s) {blocks : BlockRange}
    (hb : Bounded lossy (s.createTask network (.readGatewayEvents blocks))) :
    Board.Move home ok lossy exempt (board s.toTaskStore)
      (board (s.createTask network (.readGatewayEvents blocks)).toTaskStore) := by
  have hlen := createTask_length s network (.readGatewayEvents blocks) ▸ hb.created
  have hreg := @board_register s network hcount (.readGatewayEvents blocks) hlen
  have heq : board (s.createTask network (.readGatewayEvents blocks)).toTaskStore =
      { (board s.toTaskStore).register network .read s.nextTaskId with
        current := update (board s.toTaskStore).current network (some s.nextTaskId) } := by
    rw [show Job.read = taskJob (.readGatewayEvents blocks) from rfl, ← hreg]
    simp only [board, Board.mk.injEq]
    refine ⟨rfl, rfl, rfl, rfl, rfl, rfl, ?_, rfl, rfl, rfl, rfl⟩
    exact StorageMap.get_insert_eq ..
  rw [heq]
  exact .read (nextTaskId_fresh hcount hlen)

theorem createBatch_refines {home : ShardId → NetworkId}
    {ok : Board NetworkId ShardId TaskId BatchId → NetworkId → TaskId → Prop}
    {exempt : TaskId → Prop} (hcount : Counted s) {batchId : BatchId}
    (hb : Bounded lossy (s.createTask network (.submitGatewayMessage batchId))) :
    Board.Move home ok lossy exempt (board s.toTaskStore)
      (board (s.createTask network (.submitGatewayMessage batchId)).toTaskStore) := by
  have hlen := createTask_length s network (.submitGatewayMessage batchId) ▸ hb.created
  have hreg := @board_register s network hcount (.submitGatewayMessage batchId) hlen
  have heq : board (s.createTask network (.submitGatewayMessage batchId)).toTaskStore =
      { (board s.toTaskStore).register network (.submit batchId) s.nextTaskId with
        queue := (s.pushTask network s.nextTaskId).uaTasks.contents } := by
    rw [show Job.submit batchId = taskJob (.submitGatewayMessage batchId) from rfl, ← hreg]
    rfl
  rw [heq]
  refine .submit (nextTaskId_fresh hcount hlen) (pushTask_enqueued hcount ?_)
  exact ⟨Nat.lt_of_succ_lt hlen, hb.pushed⟩

end Create

/-! ## Finishing, assigning, releasing -/

section Moves

variable {home : ShardId → NetworkId} {s : State} {taskId : TaskId} {shard : ShardId}

theorem board_finishTask {network : NetworkId} {result : Except ErrorMsg Unit}
    (hinv : Board.Inv home (board s.toTaskStore)) (hout : s.taskOutput.get taskId = none) :
    board (s.finishTask network taskId result).toTaskStore =
      { (board s.toTaskStore).unplace taskId with
        done := fun t => t = taskId ∨ (board s.toTaskStore).done t
        executed := (board (s.finishTask network taskId result).toTaskStore).executed } := by
  rw [finishTask_of_open hout]
  simp only [board, Board.unplace, Board.mk.injEq, and_true, true_and]
  have hheld : ∀ {sh t}, s.shardTasks.get (sh, t) ≠ none ↔ s.taskShard.get t = some sh :=
    hinv.held_iff
  refine ⟨?_, funext fun sh => funext fun t => propext ?_, funext fun t => propext ?_⟩
  · cases hs : s.taskShard.get taskId with
    | none => exact (Function.update_eq_self_iff.mpr hs.symm).symm
    | some sh => exact StorageMap.get_remove_eq ..
  · cases hs : s.taskShard.get taskId with
    | none =>
        refine ⟨fun h => ⟨h, ?_⟩, And.left⟩
        rintro rfl
        rw [hheld, hs] at h
        cases h
    | some sh' =>
        simp only [StorageMap.get_remove]
        split
        · next heq =>
            obtain ⟨-, rfl⟩ := Prod.mk.injEq .. |>.mp heq
            simp
        · next hne =>
            refine ⟨fun h => ⟨h, ?_⟩, And.left⟩
            rintro rfl
            rw [hheld, hs] at h
            cases h
            exact hne rfl
  · rw [StorageMap.get_insert]
    split
    · next heq => simp [heq]
    · next hne => simp [hne]

theorem board_charged {network : NetworkId} {result : Except ErrorMsg Unit}
    (hout : s.taskOutput.get taskId = none) :
    Board.Charged (board s.toTaskStore) network taskId
      (board (s.finishTask network taskId result).toTaskStore).executed := by
  intro m
  rw [finishTask_of_open hout]
  rcases Option.eq_none_or_eq_some (s.taskShard.get taskId) with hs | ⟨sh, hs⟩
  · simp [board, hs]
  · simp only [board, hs, StorageMap.getD_insert]
    by_cases hm : m = network
    · subst hm
      simpa using satAdd_le 64 (s.executedTaskCount.getD m 0) 1
    · rw [if_neg hm]
      exact Nat.le_add_right ..

theorem board_assignTask (s : State) (shard : ShardId) (taskId : TaskId) :
    board (s.assignTask shard taskId).toTaskStore = (board s.toTaskStore).place shard taskId := by
  simp only [board, Board.place, State.assignTask, Board.mk.injEq, and_true, true_and]
  refine ⟨StorageMap.get_insert_eq .., funext fun sh => funext fun t => propext ?_⟩
  rw [StorageMap.get_insert]
  split
  · next heq => simp [Prod.mk.injEq .. |>.mp heq]
  · next hne =>
      refine ⟨Or.inr, fun h => h.resolve_left ?_⟩
      rintro ⟨rfl, rfl⟩
      exact hne rfl

theorem board_dequeue {queue : QueueImpl NetworkId TaskId} {network : NetworkId}
    (hpop : s.uaTasks.pop network = (some taskId, queue)) :
    (board s.toTaskStore).queue network = taskId :: queue.contents network ∧
    board { s.toTaskStore with uaTasks := queue } =
      { board s.toTaskStore with
        queue := update (board s.toTaskStore).queue network (queue.contents network) } := by
  refine ⟨QueueImpl.pop_cons hpop, ?_⟩
  simp only [board, Board.mk.injEq, and_true, true_and]
  funext m
  by_cases hm : m = network
  · subst hm
    rw [Function.update_self]
  · rw [Function.update_of_ne hm, ← QueueImpl.contents_pop_of_ne s.uaTasks hm, hpop]

theorem board_unassign (hinv : Board.Inv home (board s.toTaskStore))
    (hheld : s.shardTasks.get (shard, taskId) ≠ none) :
    board
      { s.toTaskStore with
        shardTasks := s.shardTasks.remove (shard, taskId)
        taskShard := s.taskShard.remove taskId }
      = (board s.toTaskStore).unplace taskId := by
  have hiff : ∀ {sh t}, s.shardTasks.get (sh, t) ≠ none ↔ s.taskShard.get t = some sh :=
    hinv.held_iff
  simp only [board, Board.unplace, Board.mk.injEq, and_true, true_and]
  refine ⟨StorageMap.get_remove_eq .., funext fun sh => funext fun t => propext ?_⟩
  rw [StorageMap.get_remove]
  split
  · next heq =>
      obtain ⟨-, rfl⟩ := Prod.mk.injEq .. |>.mp heq
      simp
  · next hne =>
      refine ⟨fun h => ⟨h, ?_⟩, And.left⟩
      rintro rfl
      have hsh := (hiff.mp hheld).symm.trans (hiff.mp h)
      cases hsh
      exact hne rfl

end Moves

/-! ## Refinement -/

section Refine

variable {home : ShardId → NetworkId} {ok : State → NetworkId → TaskId → Prop}
  {bok : Board NetworkId ShardId TaskId BatchId → NetworkId → TaskId → Prop}
  {lossy : Prop} {exempt : TaskId → Prop} {s s' : State}

/-- How a restriction on the pallet's steps and one on the board's moves
belong together. A shard may always report on its own tasks. -/
structure Guards (home : ShardId → NetworkId) (ok : State → NetworkId → TaskId → Prop)
    (bok : Board NetworkId ShardId TaskId BatchId → NetworkId → TaskId → Prop) : Prop where
  stable : Stable ok
  event : ∀ {s network taskId}, ok s network taskId → bok (board s.toTaskStore) network taskId
  own : ∀ {b shard taskId}, Board.Inv home b → b.shard taskId = some shard →
    bok b (home shard) taskId

theorem finishTask_refines {network : NetworkId} {taskId : TaskId} {result : Except ErrorMsg Unit}
    (hinv : Board.Inv home (board s.toTaskStore))
    (hknown : (board s.toTaskStore).known taskId)
    (hcur : ∀ m, (board s.toTaskStore).current m ≠ some taskId)
    (hok : bok (board s.toTaskStore) network taskId) :
    board (s.finishTask network taskId result).toTaskStore = board s.toTaskStore ∨
      Board.Move home bok lossy exempt (board s.toTaskStore)
        (board (s.finishTask network taskId result).toTaskStore) := by
  by_cases hout : s.taskOutput.get taskId = none
  · refine Or.inr ?_
    rw [board_finishTask hinv hout]
    exact .finish hknown hcur hok (board_charged hout)
  · rw [finishTask_of_output hout]
    exact Or.inl rfl

theorem releaseTask_refines (hcount : Counted s) (hinv : Board.Inv home (board s.toTaskStore))
    {shard : ShardId} {taskId : TaskId} (hheld : s.shardTasks.get (shard, taskId) ≠ none)
    (hb : Bounded lossy
      (State.releaseTask (home shard) shard (s.readEventsTask.get (home shard)) s taskId)) :
    Board.Move home bok lossy exempt (board s.toTaskStore)
      (board (State.releaseTask (home shard) shard (s.readEventsTask.get (home shard)) s
        taskId).toTaskStore) := by
  have hun := board_unassign hinv hheld
  unfold State.releaseTask at hb ⊢
  dsimp only at hb ⊢
  split at hb
  · next hne =>
      rw [if_pos hne]
      have hcount' : Counted { s with
          shardTasks := s.shardTasks.remove (shard, taskId)
          taskShard := s.taskShard.remove taskId } :=
        hcount.of_eq rfl rfl (fun _ => id) rfl (fun _ => rfl) rfl
      have henq := pushTask_enqueued hcount' hb
      have heq : board (State.pushTask { s with
            shardTasks := s.shardTasks.remove (shard, taskId)
            taskShard := s.taskShard.remove taskId } (home shard) taskId).toTaskStore =
          { (board s.toTaskStore).unplace taskId with
            queue := (s.pushTask (home shard) taskId).uaTasks.contents } := by
        rw [← hun]
        rfl
      rw [heq]
      exact .requeue (fun hc => hne hc.symm) hheld henq
  · next hne =>
      rw [if_neg hne]
      rw [not_not] at hne
      rw [hun]
      exact .keep hne.symm hheld

theorem board_forget (s : TaskStore) (taskId : TaskId) :
    board (s.forget taskId) =
      { board s with
        job := update (board s).job taskId none
        net := update (board s).net taskId none
        done := fun t => (board s).done t ∧ t ≠ taskId
        batchTask := (board (s.forget taskId)).batchTask } := by
  simp only [board, TaskStore.forget, Board.mk.injEq, and_true, true_and]
  refine ⟨funext fun t => ?_, StorageMap.get_remove_eq .., funext fun t => ?_⟩
  · rw [StorageMap.get_remove, update_apply]
    split <;> rfl
  · rw [StorageMap.get_remove]
    split
    · next heq => simp [heq]
    · next hne => simp [hne]

theorem forget_batchTask (s : TaskStore) (taskId : TaskId) (batchId : BatchId) :
    (board (s.forget taskId)).batchTask batchId = none ∨
      (board (s.forget taskId)).batchTask batchId = (board s).batchTask batchId := by
  simp only [board, TaskStore.forget]
  split
  · rw [StorageMap.get_remove]
    split
    · exact Or.inl rfl
    · exact Or.inr rfl
  · exact Or.inr rfl

/-- A removed batch task takes the link of its batch with it. -/
theorem forget_batchTask_self (s : TaskStore) (taskId : TaskId) (batchId : BatchId)
    (hjob : (board s).job taskId = some (.submit batchId)) :
    (board (s.forget taskId)).batchTask batchId = none := by
  obtain ⟨task, htask, hsubmit⟩ := Option.map_eq_some_iff.mp hjob
  cases task with
  | readGatewayEvents blocks => cases hsubmit
  | submitGatewayMessage b =>
      cases hsubmit
      simp [board, TaskStore.forget, htask]

theorem Quiet.refines (hg : Guards home ok bok) (h : Quiet home ok exempt s s')
    (hcount : Counted s) (hb : Bounded lossy s') (hinv : Board.Inv home (board s.toTaskStore)) :
    board s'.toTaskStore = board s.toTaskStore ∨
      Board.Move home bok lossy exempt (board s.toTaskStore) (board s'.toTaskStore) := by
  cases h with
  | batchTask network batchId => exact Or.inr (createBatch_refines hcount hb)
  | @finishOwn shard taskId result htask hshard hcur =>
      refine finishTask_refines hinv (hcount.task_le htask) (hinv.current_ne hshard fun hc => ?_)
        (hg.own hinv hshard)
      have hlen : s.createdTasks.length < 2 ^ 64 := finishTask_finishing.createdTasks ▸ hb.created
      have hjob : (s.tasks.get taskId).map taskJob = some .read := hinv.current_job hc
      obtain ⟨task, htask, hread⟩ := Option.map_eq_some_iff.mp hjob
      cases task with
      | readGatewayEvents blocks => exact absurd hlen (Nat.not_lt.mpr (hcur blocks htask hc))
      | submitGatewayMessage batchId => cases hread
  | @finishBatch network batchId taskId result hlink hok =>
      have hjob := hinv.linked hlink
      exact finishTask_refines hinv (hinv.known_of_job (by rw [hjob]; exact Option.some_ne_none _))
        (hinv.linked_current_ne hlink) (hg.event hok)
  | assignRead hread hs =>
      rw [board_assignTask]
      exact Or.inr (.assign hread hs)
  | @dequeue shard taskId queue hpop =>
      obtain ⟨hcons, hboard⟩ := board_dequeue hpop
      refine Or.inr ?_
      rw [board_assignTask, hboard]
      exact .dequeue hcons
  | release hheld => exact Or.inr (releaseTask_refines hcount hinv hheld hb)
  | @link batchId taskId htask =>
      refine Or.inr ?_
      have heq : board { s with batchTaskId := s.batchTaskId.insert batchId taskId }.toTaskStore =
          { board s.toTaskStore with
            batchTask := update (board s.toTaskStore).batchTask batchId (some taskId) } := by
        simp only [board, Board.mk.injEq, and_true, true_and]
        exact StorageMap.get_insert_eq ..
      rw [heq]
      refine .link ?_
      show (s.tasks.get taskId).map taskJob = _
      rw [htask]
      rfl
  | @forget _ taskId hout hstore =>
      refine Or.inr ?_
      rw [hstore, board_forget]
      exact .forget hout (forget_batchTask s.toTaskStore taskId)
        (forget_batchTask_self s.toTaskStore taskId)
  | @reopen batchId taskId hlink hex =>
      refine Or.inr ?_
      have heq : board { s with taskOutput := s.taskOutput.remove taskId }.toTaskStore =
          { board s.toTaskStore with
            done := fun t => (board s.toTaskStore).done t ∧ t ≠ taskId } := by
        simp only [board, Board.mk.injEq, and_true, true_and]
        funext t
        rw [StorageMap.get_remove]
        split
        · next heq => simp [heq]
        · next hne => simp [hne]
      rw [heq]
      exact .reopen hlink hex
  | online shard => exact Or.inl rfl
  | offline network shard => exact Or.inl rfl
  | frame hstore => exact Or.inl (by rw [hstore])

theorem Small.refines (hg : Guards home ok bok) (h : Small home ok exempt s s')
    (hcount : Counted s) (hb : Bounded lossy s') (hinv : Board.Inv home (board s.toTaskStore)) :
    board s'.toTaskStore = board s.toTaskStore ∨
      Board.Move home bok lossy exempt (board s.toTaskStore) (board s'.toTaskStore) := by
  cases h with
  | quiet h => exact h.refines hg hcount hb hinv
  | readTask network blocks => exact Or.inr (createRead_refines hcount hb)
  | sync network height => exact Or.inl rfl
  | @stop network =>
      refine Or.inr ?_
      have heq : board { s with readEventsTask := s.readEventsTask.remove network }.toTaskStore =
          { board s.toTaskStore with
            current := update (board s.toTaskStore).current network none } := by
        simp only [board, Board.mk.injEq, and_true, true_and]
        exact StorageMap.get_remove_eq ..
      rw [heq]
      exact .stop

/-! ## Bounds are inherited backwards -/

/-- Histories only grow. -/
theorem Small.grows (h : Small home ok exempt s s') :
    s.createdTasks <+: s'.createdTasks ∧ s.queuedTasks <+: s'.queuedTasks := by
  have hcreate : ∀ (network : NetworkId) (task : Task),
      s.createdTasks <+: (s.createTask network task).createdTasks ∧
        s.queuedTasks <+: (s.createTask network task).queuedTasks := by
    intro network task
    refine ⟨createTask_createdTasks s network task ▸ List.prefix_append .., ?_⟩
    cases task with
    | readGatewayEvents blocks => exact List.prefix_rfl
    | submitGatewayMessage batchId => exact List.prefix_append ..
  have hfin : ∀ {s'}, Finishing s s' →
      s.createdTasks <+: s'.createdTasks ∧ s.queuedTasks <+: s'.queuedTasks := fun hfin =>
    ⟨hfin.createdTasks ▸ List.prefix_rfl,
      (congrArg TaskStore.queuedTasks hfin.rest :) ▸ List.prefix_rfl⟩
  cases h with
  | quiet h =>
      cases h with
      | batchTask network batchId => exact hcreate network _
      | finishOwn => exact hfin finishTask_finishing
      | finishBatch => exact hfin finishTask_finishing
      | release =>
          unfold State.releaseTask
          dsimp only
          split
          · exact ⟨List.prefix_rfl, List.prefix_append ..⟩
          · exact ⟨List.prefix_rfl, List.prefix_rfl⟩
      | forget _ hstore =>
          exact ⟨(congrArg TaskStore.createdTasks hstore :) ▸ List.prefix_rfl,
            (congrArg TaskStore.queuedTasks hstore :) ▸ List.prefix_rfl⟩
      | frame hstore => exact hfin (.of_frame hstore)
      | _ => exact ⟨List.prefix_rfl, List.prefix_rfl⟩
  | readTask network blocks => exact hcreate network _
  | _ => exact ⟨List.prefix_rfl, List.prefix_rfl⟩

theorem Bounded.of_prefix (hcreated : s.createdTasks <+: s'.createdTasks)
    (hqueued : s.queuedTasks <+: s'.queuedTasks) (hb : Bounded lossy s') : Bounded lossy s where
  created := Nat.lt_of_le_of_lt hcreated.length_le hb.created
  pushed hl network := by
    have hle : s.pushes network ≤ s'.pushes network := hqueued.sublist.countP_le
    exact Nat.lt_of_le_of_lt hle (hb.pushed hl network)

theorem Small.bounded (h : Small home ok exempt s s') (hb : Bounded lossy s') : Bounded lossy s :=
  hb.of_prefix h.grows.1 h.grows.2

theorem SmallSteps.bounded (h : SmallSteps home ok exempt s s') (hb : Bounded lossy s') :
    Bounded lossy s := by
  induction h with
  | refl => exact hb
  | tail _ hstep ih => exact ih (hstep.bounded hb)

/-- Whatever the moves of the board keep, a sequence of small steps keeps. -/
theorem SmallSteps.keeps {P : Board NetworkId ShardId TaskId BatchId → Prop}
    (hg : Guards home ok bok)
    (hP : ∀ {b b'}, Board.Inv home b → Board.Move home bok lossy exempt b b' → P b → P b')
    (h : SmallSteps home ok exempt s s') (hb : Bounded lossy s') (hcount : Counted s)
    (hinv : Board.Inv home (board s.toTaskStore)) (hs : P (board s.toTaskStore)) :
    Board.Inv home (board s'.toTaskStore) ∧ P (board s'.toTaskStore) := by
  refine (bounded_invariant (B := Bounded lossy)
    (P := fun s => Counted s ∧ Board.Inv home (board s.toTaskStore) ∧ P (board s.toTaskStore))
    (fun hstep hb => hstep.bounded hb) (fun {a b} hstep hb => ?_) h hb ⟨hcount, hinv, hs⟩).2
  rintro ⟨hcount, hinv, hs⟩
  refine ⟨hstep.counted hcount, ?_⟩
  rcases hstep.refines hg hcount hb hinv with heq | hmove
  · rw [heq]
    exact ⟨hinv, hs⟩
  · exact ⟨hinv.move hmove, hP hinv hmove hs⟩

end Refine

/-! ## Runs -/

section Runs

variable {cfg : Config} {home : ShardId → NetworkId} {ok : State → NetworkId → TaskId → Prop}
  {bok : Board NetworkId ShardId TaskId BatchId → NetworkId → TaskId → Prop}

theorem Small.homedShards {exempt : TaskId → Prop} {s s' : State}
    (h : Small home ok exempt s s') (hs : HomedShards home s) : HomedShards home s' := by
  cases h with
  | quiet h => exact h.homedShards hs
  | readTask network blocks =>
      intro n shard hget
      exact hs (createTask_networkShards s network _ ▸ hget)
  | _ => exact hs

theorem genesis_counted : Counted State.genesis where
  counter_le := Nat.le_refl 0
  counter_max := Nat.zero_le _
  task_le _ h := absurd rfl h
  taskCount_le _ := Nat.le_refl 0
  insert_le _ := Nat.le_refl 0

theorem genesis_inv : Board.Inv home (board State.genesis.toTaskStore) where
  known_of_job h := absurd rfl h
  known_of_queue h := nomatch h
  known_of_shard h := absurd rfl h
  known_of_done h := absurd rfl h
  queue_nodup _ := List.nodup_nil
  queue_unique h := nomatch h
  queue_unplaced h := nomatch h
  held_iff := ⟨fun h => absurd rfl h, fun h => nomatch h⟩
  current_job h := nomatch h
  current_net h := nomatch h
  current_open h := nomatch h
  current_unqueued h := nomatch h
  net_of_job h := absurd rfl h
  queue_net h := nomatch h
  shard_net h := nomatch h
  linked h := nomatch h

/-- What holds in every run, whatever is reported and however long. -/
theorem run_counted {okCall : State → Input → Prop} {is : List Input} {s : State}
    (h : PalletRun cfg home okCall is s) : Counted s ∧ HomedShards home s := by
  refine Run.invariant (P := fun _ s => Counted s ∧ HomedShards home s)
    ⟨genesis_counted, fun _ _ h => absurd rfl h⟩ ?_ h
  rintro is s i s' - ⟨hcount, hshards⟩ ⟨hi, -⟩ hexec
  have hstable : Stable fun _ _ _ => True := fun _ _ _ _ _ _ _ => trivial
  obtain ⟨exempt, -, hsteps⟩ :=
    (exec_effect hstable hshards hi (fun _ _ => trivial) hexec).small hstable hcount
  refine ⟨hsteps.counted hcount, ?_⟩
  clear hexec
  induction hsteps with
  | refl => exact hshards
  | tail _ hstep ih => exact hstep.homedShards ih

/-- Calls whose reports all meet `ok`. -/
def ReportsOk (ok : State → NetworkId → TaskId → Prop) (s : State) (i : Input) : Prop :=
  ∀ r ∈ i.reportedTasks s, ok s r.1 r.2

/-- **Every run plays on the board.** In a run within the bounds whose
reports meet `ok`, the board's invariant holds in the end, and so does
every property `P` of boards that moves keep. `P` may depend on a set of
exempt tasks as long as finished tasks need not be exempt. -/
theorem run_board {lossy : Prop}
    {P : (TaskId → Prop) → Board NetworkId ShardId TaskId BatchId → Prop}
    (hg : Guards home ok bok)
    (hP : ∀ {exempt b b'}, Board.Inv home b → Board.Move home bok lossy exempt b b' →
      P exempt b → P exempt b')
    (hexempt : ∀ {exempt b}, P (fun _ => False) b → P exempt b)
    (hdone : ∀ {exempt b}, (∀ t, exempt t → b.done t) → P exempt b → P (fun _ => False) b)
    (hgenesis : P (fun _ => False) (board State.genesis.toTaskStore))
    {is : List Input} {s : State} (h : PalletRun cfg home (ReportsOk ok) is s)
    (hb : Bounded lossy s) :
    Board.Inv home (board s.toTaskStore) ∧ P (fun _ => False) (board s.toTaskStore) := by
  revert hb
  refine Run.invariant (P := fun _ s => Bounded lossy s →
    Board.Inv home (board s.toTaskStore) ∧ P (fun _ => False) (board s.toTaskStore))
    (fun _ => ⟨genesis_inv, hgenesis⟩) ?_ h
  rintro is s i s' hrun ih ⟨hi, hrep⟩ hexec hb
  obtain ⟨hcount, hshards⟩ := run_counted hrun
  obtain ⟨exempt, hout, hsteps⟩ :=
    (exec_effect hg.stable hshards hi hrep hexec).small hg.stable hcount
  obtain ⟨hinv, hs⟩ := ih (hsteps.bounded hb)
  obtain ⟨hinv', hs'⟩ := hsteps.keeps hg hP hb hcount hinv (hexempt hs)
  exact ⟨hinv', hdone hout hs'⟩

theorem unrestricted_guards : Guards home (fun _ _ _ => True) (fun _ _ _ => True) where
  stable _ _ _ _ _ _ _ := trivial
  event _ := trivial
  own _ _ := trivial

/-- The invariant of the board holds whatever is reported. -/
theorem run_inv {okCall : State → Input → Prop} {is : List Input} {s : State}
    (h : PalletRun cfg home okCall is s) (hcreated : s.createdTasks.length < 2 ^ 64) :
    Board.Inv home (board s.toTaskStore) := by
  refine (@run_board cfg home _ _ True (fun _ _ => True) unrestricted_guards (fun _ _ _ => trivial)
    (fun _ => trivial) (fun _ _ => trivial) trivial is s ?_
    ⟨hcreated, fun hl => (hl trivial).elim⟩).1
  exact h.mono fun _ _ hi => ⟨hi.1, fun _ _ => trivial⟩

/-- One call in a run that creates fewer than 2^64 tasks, with what is
known about such runs. -/
structure CallStep (cfg : Config) (home : ShardId → NetworkId) (okCall : State → Input → Prop)
    (is : List Input) (s : State) (i : Input) (s' : State) : Prop where
  run : PalletRun cfg home okCall is s
  homed : i.Homed home
  ok : okCall s i
  exec : exec cfg s i = some s'
  created : s.createdTasks.length < 2 ^ 64
  created_next : s'.createdTasks.length < 2 ^ 64
  counted : Counted s
  inv : Board.Inv home (board s.toTaskStore)
  effect : Effect cfg home (fun _ _ _ => True) s i s'

/-- Induction over a run that creates fewer than 2^64 tasks. -/
theorem run_induction {okCall : State → Input → Prop} {P : List Input → State → Prop}
    (hinit : P [] State.genesis)
    (hstep : ∀ {is s i s'}, CallStep cfg home okCall is s i s' → P is s → P (is ++ [i]) s')
    {is : List Input} {s : State} (h : PalletRun cfg home okCall is s)
    (hcreated : s.createdTasks.length < 2 ^ 64) : P is s := by
  revert hcreated
  refine Run.invariant (P := fun is s => s.createdTasks.length < 2 ^ 64 → P is s)
    (fun _ => hinit) ?_ h
  rintro is s i s' hrun ih ⟨hi, hok⟩ hexec hcreated
  obtain ⟨hcount, hshards⟩ := run_counted hrun
  have hstable : Stable fun _ _ _ => True := fun _ _ _ _ _ _ _ => trivial
  have heffect : Effect cfg home (fun _ _ _ => True) s i s' :=
    exec_effect hstable hshards hi (fun _ _ => trivial) hexec
  obtain ⟨exempt, -, hsteps⟩ := heffect.small hstable hcount
  have hb : Bounded True s := hsteps.bounded ⟨hcreated, fun hl => (hl trivial).elim⟩
  exact hstep ⟨hrun, hi, hok, hexec, hb.created, hcreated, hcount, run_inv hrun hb.created, heffect⟩
    (ih hb.created)

end Runs

end Tasks

end Timechain
