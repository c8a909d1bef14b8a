import Timechain.TasksReading

/-!
# Blocks read once

That a block is read by one task only needs more than that none is
skipped. Every accepted report starts a new read task, also the second
chunk of a task whose first one has already done so. Where every report
is a single chunk, the ranges follow each other
(`read_blocks_disjoint`); two chunks for one task make two tasks for the
same blocks (`chunked_reads_overlap`).
-/

namespace Timechain

namespace Tasks

variable {cfg : Config} {home : ShardId → NetworkId} {network : NetworkId} {s s' : State}

/-! ## Blocks read once -/

/-- The ranges of the read tasks follow each other; only the last task may
be open, and it starts at the sync height. -/
structure Sequential (network : NetworkId) (s : State) : Prop where
  sorted : (s.reads network).Pairwise fun read read' => read.2.stop ≤ read'.2.start
  last : ∀ {taskId blocks}, OpenRead s network taskId blocks →
    (s.reads network).getLast? = some (taskId, blocks) ∧ blocks.start = s.height network

theorem Sequential.untouched (h : Sequential network s) (h' : Untouched network s s') :
    Sequential network s' where
  sorted := h'.reads ▸ h.sorted
  last ho := by
    rw [h'.reads, h'.height]
    exact h.last (h'.opened ho)

/-- The reading moves on from behind all earlier ranges and nothing but the
new task stays open. -/
theorem Sequential.readsOn {new : Option (TaskId × BlockRange)} (h : Sequential network s)
    (h' : ReadsOn network new s s')
    (hbehind : ∀ read ∈ s.reads network, read.2.stop ≤ s'.height network)
    (hclosed : ∀ {taskId blocks}, OpenRead s' network taskId blocks →
      ¬OpenRead s network taskId blocks) : Sequential network s' where
  sorted := by
    rw [h'.reads, List.pairwise_append]
    refine ⟨h.sorted, ?_, fun read hmem read' hnew => ?_⟩
    · cases new with
      | none => exact List.Pairwise.nil
      | some read => exact List.pairwise_singleton _ read
    · rw [Option.mem_toList] at hnew
      rw [h'.start hnew]
      exact hbehind read hmem
  last ho := by
    rcases h'.opened ho with ho' | hnew
    · exact absurd ho' (hclosed ho)
    · rw [h'.reads, hnew]
      exact ⟨List.getLast?_concat, h'.start hnew⟩

/-- Every read report for the network fits in one chunk. -/
structure SingleChunks (network : NetworkId) (s : State) (i : Input) : Prop where
  sync : NoSync network s i
  chunk : ∀ {origin taskId events signature},
    i.call = .submitTaskResult origin taskId (.readGatewayEvents events signature) →
    s.taskNetwork.get taskId = some network → events.val.length < maxGmpEvents

theorem Sequential.stop_le (h : Sequential network s) {read read' : TaskId × BlockRange}
    (hlast : (s.reads network).getLast? = some read') (hrange : read'.2.start ≤ read'.2.stop)
    (hmem : read ∈ s.reads network) : read.2.stop ≤ read'.2.stop := by
  have hsorted := h.sorted
  obtain ⟨earlier, heq⟩ := List.getLast?_eq_some_iff.mp hlast
  rw [heq, List.pairwise_append] at hsorted
  rw [heq, List.mem_append, List.mem_singleton] at hmem
  rcases hmem with hmem | rfl
  · exact Nat.le_trans (hsorted.2.2 read hmem read' (List.mem_singleton_self _)) hrange
  · exact Nat.le_refl _

theorem Sequential.accept (h : Sequential network s) (hlog : Logged network s) (env : Env)
    {taskId : TaskId} {blocks : BlockRange} {events : List GmpEvent}
    (hopen : OpenRead s network taskId blocks) (hlen : events.length < maxGmpEvents) :
    Sequential network (s.acceptEvents cfg env network taskId blocks events) := by
  obtain ⟨new, hnew⟩ := @acceptEvents_readsOn cfg s env network taskId blocks events
  obtain ⟨hlast, hstart⟩ := h.last hopen
  refine h.readsOn hnew (fun read hmem => ?_) fun {t b} ho ho' => ?_
  · rw [acceptEvents_height, if_pos hstart.symm]
    exact h.stop_le hlast (hlog.range _ (List.mem_of_getLast? hlast)).1 hmem
  · obtain ⟨hlast', -⟩ := h.last ho'
    obtain ⟨rfl, -⟩ := Prod.mk.injEq .. |>.mp (Option.some.inj (hlast.symm.trans hlast'))
    exact acceptEvents_output s env network taskId blocks (Nat.ne_of_lt hlen) ho.unfinished

theorem run_sequential {is : List Input} (h : PalletRun cfg home (SingleChunks network) is s)
    (hcreated : s.createdTasks.length < 2 ^ 64)
    (honce : is.countP (Input.registers network) ≤ 1) : Sequential network s := by
  revert honce
  refine run_induction (P := fun is s => is.countP (Input.registers network) ≤ 1 →
    Sequential network s) ?_ ?_ h hcreated
  · exact fun _ => ⟨List.Pairwise.nil, fun ho => nomatch ho.task⟩
  · intro is s i s' hstep ih honce
    rw [List.countP_append, List.countP_singleton] at honce
    have hseq := ih (by omega)
    obtain ⟨hlog, hfirst⟩ :=
      run_logged (hstep.run.mono fun _ _ hi => ⟨hi.1, hi.2.sync⟩) hstep.created
    rcases hstep.reading network with
      ⟨-, hun⟩ | ⟨-, taskId, blocks, events, hrep, rfl⟩ | ⟨b, hcall, rfl⟩ | ⟨origin, b, hcall, -⟩
    · exact hseq.untouched hun
    · obtain ⟨_, _, _, hcall, _⟩ := hrep.accepted
      exact hseq.accept hlog i.env hrep.opened (hstep.ok.chunk hcall hrep.opened.network)
    · rw [if_pos (by simp [Input.registers, hcall])] at honce
      obtain ⟨-, hnil⟩ := hfirst (by omega)
      obtain ⟨-, new, hnew⟩ := gatewayRegistered_readsOn s i.env network b.toNat
      refine hseq.readsOn hnew (fun read hmem => ?_) fun {t blocks} _ ho => ?_
      · rw [hnil] at hmem
        cases hmem
      · have hmem := hlog.mem ho
        rw [hnil] at hmem
        cases hmem
    · exact absurd hcall (hstep.ok.sync origin b)

/-- **Each gateway block is read by at most one task**, in any run that
registers the network at most once, never syncs it by hand, creates
fewer than 2^64 tasks and in which no report is a full chunk. -/
theorem read_blocks_disjoint {is : List Input} (h : PalletRun cfg home (SingleChunks network) is s)
    (hcreated : s.createdTasks.length < 2 ^ 64)
    (honce : is.countP (Input.registers network) ≤ 1) :
    (s.reads network).Pairwise fun read read' => read.2.Disjoint read'.2 :=
  (run_sequential h hcreated honce).sorted.imp BlockRange.disjoint_of_stop_le

theorem read_blocks_disjoint_read :
    (exampleState readCalls).reads 0 = [(1, ⟨0, 10⟩), (3, ⟨10, 20⟩)] ∧
      ((exampleState readCalls).reads 0).Pairwise fun read read' => read.2.Disjoint read'.2 := by
  have hrun : PalletRun exampleConfig exampleHome (SingleChunks 0) (readCalls.map exampleInput)
      (exampleState readCalls) := by
    refine exampleState_run (by decide +kernel) (fun s call hcall => ?_) (by decide +kernel)
    refine ⟨readCalls_noSync hcall s 0, fun heq _ => ?_⟩
    simp only [readCalls, registrationCalls, List.cons_append, List.nil_append, List.mem_cons,
      List.not_mem_nil, or_false] at hcall
    rcases hcall with rfl | rfl | rfl | rfl | rfl <;> cases heq
    decide
  exact ⟨by decide +kernel, read_blocks_disjoint hrun (by decide +kernel) (by decide +kernel)⟩

/-! ### Two chunks, two readers

A full chunk moves the height to the end of its task and starts the next
one. The chunk after it no longer starts at the height, but starts
another task all the same. -/

/-- A report for a task that does not start at the height reads on from
the height. -/
theorem reads_acceptEvents_of_passed (env : Env) {taskId : TaskId} {blocks : BlockRange}
    (events : List GmpEvent) (hpassed : s.height network ≠ blocks.start)
    (hread : s.readEventsTask.get network ≠ none) :
    (s.acceptEvents cfg env network taskId blocks events).reads network
      = s.reads network ++ [(s.nextTaskId, s.nextBlocks env network)] := by
  have hfin := @acceptEvents_finishing cfg s env network taskId blocks events
  have hsync : s.advanceSync network blocks = s := if_neg hpassed
  have hnext : s.readNext env network = s.readGatewayEvents env network :=
    if_pos (StorageMap.containsKey_iff.mpr hread)
  rw [(Untouched.of_finishing hfin).reads, hsync, hnext]
  exact (readGatewayEvents_readsOn s env network).reads

/-- In the example chain every report for an assigned read task is
accepted. -/
theorem exampleReport_exec {taskId : TaskId} {blocks : BlockRange} {shard : ShardId}
    (events : GmpEvents) (htask : s.tasks.get taskId = some (.readGatewayEvents blocks))
    (hout : s.taskOutput.get taskId = none) (hshard : s.taskShard.get taskId = some shard) :
    exec exampleConfig s (exampleInput (exampleReport taskId events))
      = some (s.acceptEvents exampleConfig exampleEnv (exampleHome shard) taskId blocks
          events.val) := by
  have haccepts : AcceptsEvents exampleConfig exampleEnv s taskId blocks shard (exampleHome shard)
      events (Vector.replicate 64 0) := ⟨htask, hout, hshard, rfl, exampleKey shard, rfl, rfl⟩
  have hsubmit := haccepts.submit exampleMember
  simp only [exec, exampleInput, exampleReport, hsubmit, dispatch]

/-- A message, then `n` events of no consequence. -/
def chunkOf (n : Nat) : List GmpEvent :=
  .messageReceived (exampleMessage 0 0) :: List.replicate n (.shardRegistered (exampleKey 0))

theorem length_chunkOf (n : Nat) : (chunkOf n).length = n + 1 := by
  rw [chunkOf, List.length_cons, List.length_replicate]

theorem executedBatches_chunkOf (n : Nat) : executedBatches (chunkOf n) = [] := by
  induction n with
  | zero => rfl
  | succ n ih => exact ih

def fullChunk : GmpEvents := ⟨chunkOf (maxGmpEvents - 1), Nat.le_of_eq (length_chunkOf _)⟩

theorem length_fullChunk : fullChunk.val.length = maxGmpEvents := length_chunkOf _

/-- A full chunk that finishes no task leaves the task storage to the
next read. -/
theorem acceptEvents_full (s : State) (env : Env) (network : NetworkId) (taskId : TaskId)
    (blocks : BlockRange) {events : List GmpEvent} (hlen : events.length = maxGmpEvents)
    (hexec : executedBatches events = []) :
    (s.acceptEvents cfg env network taskId blocks events).toTaskStore
      = ((s.advanceSync network blocks).readNext env network).toTaskStore := by
  simp only [State.acceptEvents, if_pos hlen]
  exact processEvents_toTaskStore _ hexec

theorem registration_reading :
    (exampleState registrationCalls).tasks.get 1 = some (.readGatewayEvents ⟨0, 10⟩) ∧
      (exampleState registrationCalls).taskOutput.get 1 = none ∧
      (exampleState registrationCalls).taskShard.get 1 = some 0 := by
  have hout : (exampleState registrationCalls).taskOutput.containsKey 1 = false := by decide +kernel
  exact ⟨by decide +kernel, StorageMap.containsKey_eq_false.mp hout, by decide +kernel⟩

/-- The example chain with the read of blocks 0 to 9 passed and the next
one started. -/
def passedState : State :=
  ((exampleState registrationCalls).advanceSync 0 ⟨0, 10⟩).readNext exampleEnv 0

/-- The read task of the example chain has reported a full chunk. -/
def fullChunkState : State :=
  (exampleState registrationCalls).acceptEvents exampleConfig exampleEnv 0 1 ⟨0, 10⟩ fullChunk.val

theorem fullChunkState_store : fullChunkState.toTaskStore = passedState.toTaskStore :=
  acceptEvents_full _ _ _ _ _ length_fullChunk (executedBatches_chunkOf _)

/-- The task that reported it is still open. -/
theorem fullChunkState_reading :
    fullChunkState.tasks.get 1 = some (.readGatewayEvents ⟨0, 10⟩) ∧
      fullChunkState.taskOutput.get 1 = none ∧ fullChunkState.taskShard.get 1 = some 0 := by
  have hout : passedState.taskOutput.containsKey 1 = false := by decide +kernel
  rw [(congrArg TaskStore.tasks fullChunkState_store :),
    (congrArg TaskStore.taskOutput fullChunkState_store :),
    (congrArg TaskStore.taskShard fullChunkState_store :)]
  exact ⟨by decide +kernel, StorageMap.containsKey_eq_false.mp hout, by decide +kernel⟩

def fullChunkCalls : List Call := registrationCalls ++ [exampleReport 1 fullChunk]

theorem fullChunkState_run {ok : State → Input → Prop}
    (hok : ∀ s, ∀ call ∈ fullChunkCalls, ok s (exampleInput call)) :
    PalletRun exampleConfig exampleHome ok (fullChunkCalls.map exampleInput) fullChunkState := by
  have hrun : PalletRun exampleConfig exampleHome ok
      (registrationCalls.map exampleInput) (exampleState registrationCalls) :=
    exampleState_run (by decide +kernel)
      (fun s call hcall => hok s call (List.mem_append_left _ hcall)) (by decide +kernel)
  obtain ⟨htask, hout, hshard⟩ := registration_reading
  have hexec := exampleReport_exec fullChunk htask hout hshard
  rw [show exampleHome 0 = 0 from rfl] at hexec
  rw [fullChunkCalls, List.map_append]
  exact .next hrun ⟨exampleInput_homed rfl,
    hok _ _ (List.mem_append_right _ (List.mem_singleton_self _))⟩ hexec

theorem chunked_reads_overlap :
    ¬∀ (is : List Input) (s : State), PalletRun exampleConfig exampleHome (NoSync 0) is s →
      is.countP (Input.registers 0) ≤ 1 →
      (s.reads 0).Pairwise fun read read' => read.2.Disjoint read'.2 := by
  intro hall
  have hrun : PalletRun exampleConfig exampleHome (NoSync 0) (fullChunkCalls.map exampleInput)
      fullChunkState := by
    refine fullChunkState_run fun s call hcall => ?_
    rcases List.mem_append.mp hcall with hcall | hcall
    · exact registrationCalls_noSync hcall s 0
    · rw [List.mem_singleton.mp hcall]
      exact nofun
  -- the rest of the events, in a chunk that finishes the task
  obtain ⟨htask, hout, hshard⟩ := fullChunkState_reading
  have hexec := exampleReport_exec ⟨[], Nat.zero_le _⟩ htask hout hshard
  rw [show exampleHome 0 = 0 from rfl] at hexec
  have hsync : NoSync 0 fullChunkState (exampleInput (exampleReport 1 ⟨[], Nat.zero_le _⟩)) := nofun
  have hpairs := hall _ _ (.next hrun ⟨exampleInput_homed rfl, hsync⟩ hexec) (by decide +kernel)
  have hheight : fullChunkState.height 0 = 10 := by
    rw [State.height, (congrArg TaskStore.syncHeight fullChunkState_store :)]
    decide +kernel
  have hread : fullChunkState.readEventsTask.get 0 ≠ none := by
    rw [(congrArg TaskStore.readEventsTask fullChunkState_store :)]
    exact StorageMap.containsKey_iff.mp (by decide +kernel)
  have hreads : fullChunkState.reads 0 = [(1, ⟨0, 10⟩), (3, ⟨10, 20⟩)] := by
    rw [State.reads, (congrArg TaskStore.createdTasks fullChunkState_store :)]
    decide +kernel
  have hnext : fullChunkState.nextBlocks exampleEnv 0 = ⟨10, 20⟩ := by
    rw [State.nextBlocks, show fullChunkState.syncHeight.getD 0 0 = 10 from hheight]
    rfl
  rw [reads_acceptEvents_of_passed exampleEnv _ (by rw [hheight]; decide) hread, hreads, hnext,
    List.pairwise_append] at hpairs
  refine hpairs.2.2 (3, ⟨10, 20⟩) (by simp) _ (List.mem_singleton_self _) 10 ?_
  exact ⟨⟨by decide, by decide⟩, by decide, by decide⟩

end Tasks

end Timechain
