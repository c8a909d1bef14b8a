import Timechain.TasksRefine

/-!
# Reading gateway blocks

What a run does to the reading of one network: its sync height, the read
tasks created for it and those still open. Most of what a call does
leaves these alone (`Untouched`); only an accepted report of events, a
registration and `sync_network` move the reading on (`CallStep.reading`).

What is logged about a reading in any run is `run_logged`; the two
results built on it are in `TasksReadAll` and `TasksReadOnce`.
-/

namespace Timechain

namespace Tasks

open Relation (ReflTransGen)

variable {cfg : Config} {home : ShardId → NetworkId} {network : NetworkId} {s s' s'' : State}

/-! ## The reading of a network -/

/-- `SyncHeight::get(network)`. -/
def State.height (s : State) (network : NetworkId) : Nat := s.syncHeight.getD network 0

/-- The read tasks created for `network`, oldest first. -/
def State.reads (s : State) (network : NetworkId) : List (TaskId × BlockRange) :=
  s.createdTasks.filterMap fun
    | (n, taskId, .readGatewayEvents blocks) => if n = network then some (taskId, blocks) else none
    | (_, _, .submitGatewayMessage _) => none

/-- `taskId` reads `blocks` of `network` and still takes results. -/
structure OpenRead (s : State) (network : NetworkId) (taskId : TaskId) (blocks : BlockRange) :
    Prop where
  task : s.tasks.get taskId = some (.readGatewayEvents blocks)
  network : s.taskNetwork.get taskId = some network
  unfinished : s.taskOutput.get taskId = none

/-- The reading of `network` did not move on; tasks may have finished. -/
structure Untouched (network : NetworkId) (s s' : State) : Prop where
  height : s'.height network = s.height network
  reads : s'.reads network = s.reads network
  opened : ∀ {taskId blocks}, OpenRead s' network taskId blocks → OpenRead s network taskId blocks

theorem Untouched.refl (network : NetworkId) (s : State) : Untouched network s s :=
  ⟨rfl, rfl, id⟩

theorem Untouched.trans (h : Untouched network s s') (h' : Untouched network s' s'') :
    Untouched network s s'' :=
  ⟨h'.height.trans h.height, h'.reads.trans h.reads, fun ho => h.opened (h'.opened ho)⟩

theorem Untouched.of_finishing (h : Finishing s s') : Untouched network s s' where
  height := by rw [State.height, (congrArg TaskStore.syncHeight h.rest :), State.height]
  reads := by rw [State.reads, h.createdTasks, State.reads]
  opened ho := by
    refine ⟨h.tasks ▸ ho.task, (congrArg TaskStore.taskNetwork h.rest :) ▸ ho.network, ?_⟩
    by_contra hout
    exact h.output hout ho.unfinished

/-! ## Quiet steps -/

section Create

variable (s : State) (network : NetworkId)

theorem reads_createBatch (batchId : BatchId) (m : NetworkId) :
    (s.createTask network (.submitGatewayMessage batchId)).reads m = s.reads m := by
  rw [State.reads, createTask_createdTasks, List.filterMap_append]
  exact List.append_nil _

theorem reads_createRead (blocks : BlockRange) (m : NetworkId) :
    (s.createTask network (.readGatewayEvents blocks)).reads m
      = s.reads m ++ if network = m then [(s.nextTaskId, blocks)] else [] := by
  rw [State.reads, createTask_createdTasks, List.filterMap_append, State.reads]
  split <;> simp_all

end Create

/-- A new task is the only one that can have been opened. -/
theorem OpenRead.of_createTask {task : Task} {n m : NetworkId} {taskId : TaskId}
    {blocks : BlockRange}
    (h : OpenRead (s.createTask n task) m taskId blocks) :
    (taskId = s.nextTaskId ∧ m = n ∧ task = .readGatewayEvents blocks) ∨
      OpenRead s m taskId blocks := by
  obtain ⟨htask, hnet, hout⟩ := h
  rw [createTask_tasks, StorageMap.get_insert] at htask
  have hnet' : (s.taskNetwork.insert s.nextTaskId n).get taskId = some m := by
    cases task <;> exact hnet
  rw [StorageMap.get_insert] at hnet'
  rw [createTask_taskOutput] at hout
  split at htask
  · next heq =>
      rw [if_pos heq] at hnet'
      exact Or.inl ⟨heq, (Option.some.inj hnet').symm, Option.some.inj htask⟩
  · next hne =>
      rw [if_neg hne] at hnet'
      exact Or.inr ⟨htask, hnet', hout⟩

theorem Quiet.untouched {ok : State → NetworkId → TaskId → Prop} {exempt : TaskId → Prop}
    (h : Quiet home ok exempt s s') (hinv : Board.Inv home (board s.toTaskStore))
    (network : NetworkId) : Untouched network s s' := by
  have hheight : s'.height network = s.height network := by
    rw [State.height, h.syncHeight, State.height]
  cases h with
  | batchTask n batchId =>
      refine ⟨hheight, reads_createBatch .., fun ho => ?_⟩
      rcases ho.of_createTask with ⟨-, -, heq⟩ | ho
      · cases heq
      · exact ho
  | finishOwn => exact .of_finishing finishTask_finishing
  | finishBatch => exact .of_finishing finishTask_finishing
  | release =>
      refine ⟨hheight, ?_, fun ho => ?_⟩
      · unfold State.releaseTask
        split <;> rfl
      · unfold State.releaseTask at ho
        dsimp only at ho
        split at ho <;> exact ⟨ho.task, ho.network, ho.unfinished⟩
  | @forget _ taskId hout hstore =>
      refine ⟨hheight, ?_, fun {t blocks} ho => ?_⟩
      · rw [State.reads, (congrArg TaskStore.createdTasks hstore :)]
        rfl
      · obtain ⟨htask, hnet, hout'⟩ := ho
        rw [(congrArg TaskStore.tasks hstore :)] at htask
        rw [(congrArg TaskStore.taskNetwork hstore :)] at hnet
        rw [(congrArg TaskStore.taskOutput hstore :)] at hout'
        simp only [TaskStore.forget, StorageMap.get_remove] at htask hnet hout'
        split at htask
        · cases htask
        · next hne =>
            rw [if_neg hne] at hnet hout'
            exact ⟨htask, hnet, hout'⟩
  | @reopen batchId taskId hlink _ =>
      refine ⟨hheight, rfl, fun {t blocks} ho => ⟨ho.task, ho.network, ?_⟩⟩
      -- the task of a batch is no read task
      have hne : t ≠ taskId := by
        rintro rfl
        have hjob : (s.tasks.get t).map taskJob = some (.submit batchId) := hinv.linked hlink
        rw [show s.tasks.get t = _ from ho.task] at hjob
        cases hjob
      have hout := ho.unfinished
      rwa [show (s.taskOutput.remove taskId).get t = _ from StorageMap.get_remove_of_ne _ hne]
        at hout
  | frame hstore => exact .of_finishing (.of_frame hstore)
  | _ => exact ⟨hheight, rfl, fun ho => ⟨ho.task, ho.network, ho.unfinished⟩⟩

theorem QuietSteps.untouched {exempt : TaskId → Prop}
    (h : QuietSteps home (fun _ _ _ => True) exempt s s') (hcount : Counted s)
    (hinv : Board.Inv home (board s.toTaskStore)) (hcreated : s'.createdTasks.length < 2 ^ 64)
    (network : NetworkId) : Untouched network s s' := by
  refine (bounded_invariant (B := Bounded True)
    (P := fun x => Counted x ∧ Board.Inv home (board x.toTaskStore) ∧ Untouched network s x)
    (fun hstep hb => (Small.quiet hstep).bounded hb) (fun {a b} hstep hb => ?_) h
    ⟨hcreated, fun hl => (hl trivial).elim⟩ ⟨hcount, hinv, .refl network s⟩).2.2
  rintro ⟨hcount, hinv, hs⟩
  refine ⟨hstep.counted hcount, ?_, hs.trans (hstep.untouched hinv network)⟩
  rcases hstep.refines unrestricted_guards hcount hb hinv with heq | hmove
  · rw [heq]
    exact hinv
  · exact hinv.move hmove

/-! ## Moving on -/

/-- The reading of `network` moved on: at most one read task was created,
to read from the new height. -/
structure ReadsOn (network : NetworkId) (new : Option (TaskId × BlockRange)) (s s' : State) :
    Prop where
  reads : s'.reads network = s.reads network ++ new.toList
  fresh : ∀ {read}, new = some read →
    read.1 = s.nextTaskId ∧ s.createdTasks.length < s'.createdTasks.length
  start : ∀ {read}, new = some read → read.2.start = s'.height network
  stop : ∀ {read}, new = some read → ∃ size, read.2.stop = satAdd 64 (s'.height network) size
  opened : ∀ {taskId blocks}, OpenRead s' network taskId blocks →
    OpenRead s network taskId blocks ∨ new = some (taskId, blocks)

theorem ReadsOn.finishing {new : Option (TaskId × BlockRange)} (h : ReadsOn network new s s')
    (h' : Finishing s' s'') : ReadsOn network new s s'' := by
  have hun : Untouched network s' s'' := .of_finishing h'
  refine ⟨hun.reads.trans h.reads, fun hr => ?_, fun hr => hun.height ▸ h.start hr,
    fun hr => hun.height ▸ h.stop hr, fun ho => h.opened (hun.opened ho)⟩
  rw [h'.createdTasks]
  exact h.fresh hr

theorem readGatewayEvents_readsOn (s : State) (env : Env) (network : NetworkId) :
    ReadsOn network (some (s.nextTaskId, s.nextBlocks env network)) s
      (s.readGatewayEvents env network) where
  reads := by
    rw [State.readGatewayEvents, reads_createRead, if_pos rfl]
    rfl
  fresh hr := by
    cases hr
    rw [State.readGatewayEvents, createTask_length]
    exact ⟨rfl, Nat.lt_succ_self _⟩
  start hr := by
    cases hr
    rfl
  stop hr := by
    cases hr
    exact ⟨_, rfl⟩
  opened ho := by
    rcases ho.of_createTask with ⟨rfl, -, hblocks⟩ | ho
    · cases hblocks
      exact Or.inr rfl
    · exact Or.inl ho

theorem readGatewayEvents_untouched (s : State) (env : Env) {m : NetworkId} (hm : m ≠ network) :
    Untouched network s (s.readGatewayEvents env m) where
  height := rfl
  reads := by rw [State.readGatewayEvents, reads_createRead, if_neg hm, List.append_nil]
  opened ho := by
    rcases ho.of_createTask with ⟨-, heq, -⟩ | ho
    · exact absurd heq.symm hm
    · exact ho

theorem readNext_readsOn (s : State) (env : Env) (network : NetworkId) :
    ∃ new, ReadsOn network new s (s.readNext env network) := by
  unfold State.readNext
  split
  · exact ⟨_, readGatewayEvents_readsOn s env network⟩
  · exact ⟨none, by simp, by simp, by simp, by simp, Or.inl⟩

theorem readNext_untouched (s : State) (env : Env) {m : NetworkId} (hm : m ≠ network) :
    Untouched network s (s.readNext env m) := by
  unfold State.readNext
  split
  · exact readGatewayEvents_untouched s env hm
  · exact .refl network s

/-- Only `SyncHeight` of another network was written. -/
theorem untouched_of_sync {m : NetworkId} (hm : m ≠ network) (height : Nat) :
    Untouched network s { s with syncHeight := s.syncHeight.insert m height } where
  height := by
    show (s.syncHeight.insert m height).getD network 0 = s.syncHeight.getD network 0
    rw [StorageMap.getD_insert, if_neg (Ne.symm hm)]
  reads := rfl
  opened ho := ⟨ho.task, ho.network, ho.unfinished⟩

theorem advanceSync_untouched (s : State) (blocks : BlockRange) {m : NetworkId} (hm : m ≠ network) :
    Untouched network s (s.advanceSync m blocks) := by
  unfold State.advanceSync
  split
  · exact untouched_of_sync hm _
  · exact .refl network s

theorem advanceSync_height (s : State) (network : NetworkId) (blocks : BlockRange) :
    (s.advanceSync network blocks).height network
      = if s.height network = blocks.start then blocks.stop else s.height network := by
  by_cases h : s.height network = blocks.start
  · rw [State.advanceSync, if_pos (show s.syncHeight.getD network 0 = _ from h), if_pos h]
    show (s.syncHeight.insert network blocks.stop).getD network 0 = blocks.stop
    rw [StorageMap.getD_insert, if_pos rfl]
  · rw [State.advanceSync, if_neg (show ¬s.syncHeight.getD network 0 = _ from h), if_neg h]

theorem OpenRead.of_advanceSync {m : NetworkId} {range blocks : BlockRange} {taskId : TaskId}
    (h : OpenRead (s.advanceSync m range) network taskId blocks) :
    OpenRead s network taskId blocks := by
  unfold State.advanceSync at h
  split at h <;> exact ⟨h.task, h.network, h.unfinished⟩

theorem readNext_height (s : State) (env : Env) (network m : NetworkId) :
    (s.readNext env network).height m = s.height m := by
  unfold State.readNext
  split <;> rfl

theorem acceptEvents_finishing (s : State) (env : Env) (network : NetworkId) (taskId : TaskId)
    (blocks : BlockRange) (events : List GmpEvent) :
    Finishing ((s.advanceSync network blocks).readNext env network)
      (s.acceptEvents cfg env network taskId blocks events) := by
  unfold State.acceptEvents
  dsimp only
  split
  · exact processEvents_finishing ..
  · exact (processEvents_finishing ..).trans finishTask_finishing

/-- A report that is no full chunk finishes its task. -/
theorem acceptEvents_output (s : State) (env : Env) (network : NetworkId) (taskId : TaskId)
    (blocks : BlockRange) {events : List GmpEvent} (h : events.length ≠ maxGmpEvents) :
    (s.acceptEvents cfg env network taskId blocks events).taskOutput.get taskId ≠ none := by
  simp only [State.acceptEvents, if_neg h]
  exact finishTask_output_self

theorem acceptEvents_readsOn (s : State) (env : Env) (network : NetworkId) (taskId : TaskId)
    (blocks : BlockRange) (events : List GmpEvent) :
    ∃ new, ReadsOn network new s (s.acceptEvents cfg env network taskId blocks events) := by
  obtain ⟨new, hnew⟩ := readNext_readsOn (s.advanceSync network blocks) env network
  have hstore := advanceSync_toTaskStore s network blocks
  have hcreated : (s.advanceSync network blocks).createdTasks = s.createdTasks :=
    (congrArg TaskStore.createdTasks hstore :)
  have hreads : (s.advanceSync network blocks).reads network = s.reads network := by
    rw [State.reads, hcreated, State.reads]
  have hnext : (s.advanceSync network blocks).nextTaskId = s.nextTaskId := by
    rw [State.nextTaskId, (congrArg TaskStore.taskIdCounter hstore :)]
    rfl
  have hnew' : ReadsOn network new s ((s.advanceSync network blocks).readNext env network) :=
    ⟨hreads ▸ hnew.reads, hnext ▸ hcreated ▸ hnew.fresh, hnew.start, hnew.stop,
      fun ho => (hnew.opened ho).imp_left OpenRead.of_advanceSync⟩
  exact ⟨new, hnew'.finishing (acceptEvents_finishing ..)⟩

theorem acceptEvents_untouched (s : State) (env : Env) {m : NetworkId} (hm : m ≠ network)
    (taskId : TaskId) (blocks : BlockRange) (events : List GmpEvent) :
    Untouched network s (s.acceptEvents cfg env m taskId blocks events) :=
  ((advanceSync_untouched s blocks hm).trans (readNext_untouched _ env hm)).trans
    (.of_finishing (acceptEvents_finishing ..))

theorem acceptEvents_height (s : State) (env : Env) (network : NetworkId) (taskId : TaskId)
    (blocks : BlockRange) (events : List GmpEvent) :
    (s.acceptEvents cfg env network taskId blocks events).height network
      = if s.height network = blocks.start then blocks.stop else s.height network := by
  have hfin := @acceptEvents_finishing cfg s env network taskId blocks events
  rw [(Untouched.of_finishing hfin).height, readNext_height, advanceSync_height]

theorem gatewayRegistered_readsOn (s : State) (env : Env) (network : NetworkId) (block : Nat) :
    (s.gatewayRegistered env network block).height network = block ∧
      ∃ new, ReadsOn network new s (s.gatewayRegistered env network block) := by
  obtain ⟨hreads, hfresh, hstart, hstop, hopen⟩ := readGatewayEvents_readsOn
    { s with syncHeight := s.syncHeight.insert network block } env network
  refine ⟨?_, _, hreads, hfresh, hstart, hstop, fun ho => (hopen ho).imp_left fun ho =>
    ⟨ho.task, ho.network, ho.unfinished⟩⟩
  show (s.syncHeight.insert network block).getD network 0 = block
  rw [StorageMap.getD_insert, if_pos rfl]

/-- `i` is an accepted report for `taskId`, a task that reads `blocks` of
`network`. -/
structure Reported (cfg : Config) (network : NetworkId) (s : State) (i : Input) (taskId : TaskId)
    (blocks : BlockRange) (events : GmpEvents) : Prop where
  accepted : ∃ origin shard signature,
    i.call = .submitTaskResult origin taskId (.readGatewayEvents events signature) ∧
    AcceptsEvents cfg i.env s taskId blocks shard network events signature
  opened : OpenRead s network taskId blocks

/-- An accepted report is for an open read task of the shard's network. -/
theorem AcceptsEvents.opened {env : Env} {taskId : TaskId} {blocks : BlockRange} {shard : ShardId}
    {events : GmpEvents} {signature : TssSignature}
    (h : AcceptsEvents cfg env s taskId blocks shard (home shard) events signature)
    (hinv : Board.Inv home (board s.toTaskStore)) : OpenRead s (home shard) taskId blocks := by
  have hjob : (board s.toTaskStore).job taskId ≠ none := by
    simp [board, h.task]
  obtain ⟨m, hm⟩ := Option.ne_none_iff_exists'.mp (hinv.net_of_job hjob)
  exact ⟨h.task, (hinv.shard_net h.assigned hm) ▸ hm, h.unfinished⟩

/-- The call is `gateway_registered(network, _)`. -/
def Input.registers (network : NetworkId) (i : Input) : Bool :=
  match i.call with
  | .gatewayRegistered n _ => n == network
  | _ => false

/-- What a call does to the reading of `network`. -/
theorem CallStep.reading {okCall : State → Input → Prop} {is : List Input} {i : Input}
    (h : CallStep cfg home okCall is s i s') (network : NetworkId) :
    (i.registers network = false ∧ Untouched network s s') ∨
    (i.registers network = false ∧ ∃ taskId blocks events,
      Reported cfg network s i taskId blocks events ∧
      s' = s.acceptEvents cfg i.env network taskId blocks events.val) ∨
    (∃ block, i.call = .gatewayRegistered network block ∧
      s' = s.gatewayRegistered i.env network block.toNat) ∨
    ∃ origin block, i.call = .syncNetwork origin network block ∧
      s' = { s with syncHeight := s.syncHeight.insert network block.toNat } := by
  cases h.effect with
  | quiet hcall _ hsteps =>
      refine Or.inl ⟨?_, hsteps.untouched h.counted h.inv h.created_next network⟩
      unfold Input.registers
      split
      · next m block heq => exact absurd heq (hcall m block)
      · rfl
  | @accept origin taskId blocks shard events signature hcall hacc _ heq =>
      subst heq
      have hreg : i.registers network = false := by rw [Input.registers, hcall]
      by_cases hm : home shard = network
      · subst hm
        exact Or.inr (Or.inl ⟨hreg, taskId, blocks, events,
          ⟨⟨_, _, _, hcall, hacc⟩, hacc.opened h.inv⟩, rfl⟩)
      · exact Or.inl ⟨hreg, acceptEvents_untouched s i.env hm taskId blocks events.val⟩
  | @register m block hcall heq =>
      subst heq
      by_cases hm : m = network
      · subst hm
        exact Or.inr (Or.inr (Or.inl ⟨block, hcall, rfl⟩))
      · refine Or.inl ⟨?_, (untouched_of_sync hm _).trans
          (readGatewayEvents_untouched _ i.env hm)⟩
        rw [Input.registers, hcall]
        exact beq_eq_false_iff_ne.mpr hm
  | @sync origin m block hcall heq =>
      subst heq
      by_cases hm : m = network
      · subst hm
        exact Or.inr (Or.inr (Or.inr ⟨origin, block, hcall, rfl⟩))
      · exact Or.inl ⟨by rw [Input.registers, hcall], untouched_of_sync hm _⟩
  | stop hcall heq =>
      subst heq
      exact Or.inl ⟨by rw [Input.registers, hcall], rfl, rfl,
        fun ho => ⟨ho.task, ho.network, ho.unfinished⟩⟩

/-! ## The log of reads -/

/-- What is known about the read tasks of `network` in every state. -/
structure Logged (network : NetworkId) (s : State) : Prop where
  height_le : s.height network ≤ maxVal 64
  mem : ∀ {taskId blocks}, OpenRead s network taskId blocks → (taskId, blocks) ∈ s.reads network
  range : ∀ read ∈ s.reads network, read.2.start ≤ read.2.stop ∧ read.2.stop ≤ maxVal 64

theorem Logged.untouched (h : Logged network s) (h' : Untouched network s s') :
    Logged network s' where
  height_le := h'.height ▸ h.height_le
  mem ho := h'.reads ▸ h.mem (h'.opened ho)
  range := h'.reads ▸ h.range

theorem Logged.readsOn {new : Option (TaskId × BlockRange)} (h : Logged network s)
    (h' : ReadsOn network new s s') (hle : s'.height network ≤ maxVal 64) : Logged network s' where
  height_le := hle
  mem ho := by
    rw [h'.reads, List.mem_append]
    rcases h'.opened ho with ho | rfl
    · exact Or.inl (h.mem ho)
    · exact Or.inr (List.mem_singleton_self _)
  range read hmem := by
    rw [h'.reads, List.mem_append, Option.mem_toList] at hmem
    rcases hmem with hmem | hnew
    · exact h.range read hmem
    · obtain ⟨size, hstop⟩ := h'.stop hnew
      rw [h'.start hnew, hstop]
      exact ⟨le_satAdd hle, satAdd_le_max ..⟩

/-- The height of `network` is not set by hand. -/
def NoSync (network : NetworkId) (_ : State) (i : Input) : Prop :=
  ∀ origin block, i.call ≠ .syncNetwork origin network block

/-- Nothing is read before the network is registered. -/
theorem run_logged {is : List Input} (h : PalletRun cfg home (NoSync network) is s)
    (hcreated : s.createdTasks.length < 2 ^ 64) :
    Logged network s ∧
      (is.countP (Input.registers network) = 0 → s.height network = 0 ∧ s.reads network = []) := by
  refine run_induction (P := fun is s => Logged network s ∧
    (is.countP (Input.registers network) = 0 → s.height network = 0 ∧ s.reads network = []))
    ?_ ?_ h hcreated
  · exact ⟨⟨Nat.zero_le _, fun ho => (nomatch ho.task), nofun⟩, fun _ => ⟨rfl, rfl⟩⟩
  · rintro is s i s' hstep ⟨hlog, hfirst⟩
    rcases hstep.reading network with
      ⟨-, hun⟩ | ⟨hreg, taskId, blocks, events, hrep, rfl⟩ | ⟨block, hcall, rfl⟩ |
      ⟨origin, block, hcall, -⟩
    · refine ⟨hlog.untouched hun, fun hnone => ?_⟩
      rw [List.countP_append, Nat.add_eq_zero_iff] at hnone
      rw [hun.height, hun.reads]
      exact hfirst hnone.1
    · have hmem := hlog.mem hrep.opened
      obtain ⟨new, hnew⟩ :=
        @acceptEvents_readsOn cfg s i.env network taskId blocks events.val
      refine ⟨hlog.readsOn hnew ?_, fun hnone => ?_⟩
      · rw [acceptEvents_height]
        split
        · exact (hlog.range _ hmem).2
        · exact hlog.height_le
      · rw [List.countP_append, Nat.add_eq_zero_iff] at hnone
        rw [(hfirst hnone.1).2] at hmem
        cases hmem
    · obtain ⟨hheight, new, hnew⟩ := gatewayRegistered_readsOn s i.env network block.toNat
      refine ⟨hlog.readsOn hnew (hheight.symm ▸ le_maxVal_iff.mpr block.toNat_lt), fun hnone => ?_⟩
      rw [List.countP_append, Nat.add_eq_zero_iff, List.countP_singleton] at hnone
      simp [Input.registers, hcall] at hnone
    · exact absurd hcall (hstep.ok origin block)

/-- The first read of the example chain finds no events. -/
def readCalls : List Call := registrationCalls ++ [exampleReport 1 ⟨[], Nat.zero_le _⟩]

theorem registrationCalls_noSync {call : Call} (hcall : call ∈ registrationCalls) (s : State)
    (network : NetworkId) : NoSync network s (exampleInput call) := by
  simp only [registrationCalls, List.mem_cons, List.not_mem_nil, or_false] at hcall
  rcases hcall with rfl | rfl | rfl | rfl <;> exact nofun

theorem readCalls_noSync {call : Call} (hcall : call ∈ readCalls) (s : State)
    (network : NetworkId) : NoSync network s (exampleInput call) := by
  rcases List.mem_append.mp hcall with hcall | hcall
  · exact registrationCalls_noSync hcall s network
  · rw [List.mem_singleton.mp hcall]
    exact nofun

end Tasks

end Timechain
