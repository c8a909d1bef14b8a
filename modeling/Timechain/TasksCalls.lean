import Timechain.TasksSteps

/-!
# The calls of the tasks pallet, in small steps

Per call, what it does in terms of small steps. `exec_effect` sorts the
calls by what they do to the reading of gateways: most are quiet, an
accepted report of events moves it on, and the other pallets and the
admin can register, sync or stop a network. `Effect.small` forgets that
distinction: every call is a sequence of small steps.
-/

namespace Timechain

namespace Tasks

open Relation (ReflTransGen)

variable {home : ShardId → NetworkId} {ok : State → NetworkId → TaskId → Prop}
  {exempt : TaskId → Prop}

/-! ## The calls -/

section Calls

variable {cfg : Config} {env : Env}

theorem scheduleNetworks_quiet {entries : List (NetworkId × TaskId)} {s s' : State} {assigned : Nat}
    (hhome : HomedShards home s)
    (hread : ∀ e ∈ entries, s.readEventsTask.get e.1 = some e.2)
    (h : State.scheduleNetworks cfg env entries s assigned = some s') :
    QuietSteps home ok exempt s s' := by
  induction entries generalizing s assigned with
  | nil =>
      cases h
      exact .refl
  | cons e entries ih =>
      obtain ⟨network, taskId⟩ := e
      have hnet : ∀ {loop}, State.scheduleNetwork cfg env network taskId s assigned = some loop →
          QuietSteps home ok exempt s loop.state :=
        scheduleNetwork_quiet hhome (hread _ (List.mem_cons_self ..))
      rw [State.scheduleNetworks] at h
      split at h
      · cases h
      · next s₁ heq =>
          cases h
          exact hnet heq
      · next s₁ assigned₁ heq =>
          have hsteps : QuietSteps home ok exempt s s₁ := hnet heq
          refine hsteps.trans (ih (hsteps.homedShards hhome) (fun e he => ?_) h)
          rw [hsteps.readEventsTask]
          exact hread e (List.mem_cons_of_mem _ he)

theorem scheduleTasks_quiet {s s' : State} (hhome : HomedShards home s)
    (h : s.scheduleTasks cfg env = some s') : QuietSteps home ok exempt s s' :=
  scheduleNetworks_quiet hhome (fun _ he => StorageMap.mem_iter.mp he) h

theorem foldl_recordOp_toTaskStore (batchId : BatchId) (ops : List GatewayOp) (s : State) :
    (ops.foldl (State.recordOp cfg batchId) s).toTaskStore = s.toTaskStore := by
  induction ops generalizing s with
  | nil => rfl
  | cons op ops ih =>
      rw [List.foldl_cons, ih]
      cases op <;> rfl

/-- Create a task for a batch and link the two. -/
theorem createBatchTask_quiet {s s' : State} (network : NetworkId) (batchId : BatchId)
    (h : s'.toTaskStore =
      { (s.createTask network (.submitGatewayMessage batchId)).toTaskStore with
        batchTaskId := s.batchTaskId.insert batchId s.nextTaskId }) :
    QuietSteps home ok exempt s s' := by
  refine .head (.batchTask network batchId) (.head (.link ?_) (.single (.frame h)))
  rw [createTask_tasks, StorageMap.get_insert_self]

theorem startBatch_quiet (s : State) (network : NetworkId) (msg : GatewayMessage) :
    QuietSteps home ok exempt s (s.startBatch cfg network msg) := by
  refine ReflTransGen.head (.frame ?_) (createBatchTask_quiet (s := { (msg.ops.foldl
    (State.recordOp cfg s.batchIdCounter)
    { s with
      batchIdCounter := satAdd 64 s.batchIdCounter 1
      startedBatches := s.startedBatches ++ [(network, s.batchIdCounter, msg)] }) with
        batchMessage := _ }) network s.batchIdCounter rfl)
  exact foldl_recordOp_toTaskStore ..

/-! What popping an op and starting a batch keep, `prepare_batches` keeps. -/

section Rule

variable {P : State → Prop} {s : State} (hpop : ∀ {s} queue, P s → P { s with ops := queue })
  (hstart : ∀ {s} network msg, P s → P (s.startBatch cfg network msg))

include hstart

theorem startBatch?_rule (hs : P s) (network : NetworkId) (batch : Option GatewayMessage)
    (started : Nat) : P (s.startBatch? cfg network batch started).1 := by
  cases batch with
  | none => exact hs
  | some msg => exact hstart network msg hs

include hpop

theorem drainOps_rule (hs : P s) (network : NetworkId) (fuel : Nat) (batcher : BatchBuilder)
    (started : Nat) : P (State.drainOps cfg network fuel batcher s started).2.1 := by
  induction fuel generalizing batcher s started with
  | zero => exact hs
  | succ fuel ih =>
      rw [State.drainOps]
      split
      · exact hs
      · next op queue _ =>
          have hnext := startBatch?_rule hstart (hpop queue hs) network (batcher.push op).1 started
          dsimp only
          split
          · exact hnext
          · exact ih hnext ..

theorem prepareNetwork_rule {acc : State × Nat} (hs : P acc.1) (network : NetworkId) :
    P (State.prepareNetwork cfg env acc network).1 := by
  obtain ⟨s, started⟩ := acc
  have hdrain := drainOps_rule hpop hstart hs network ((s.ops.contents network).length + 1)
    (BatchBuilder.new (env.networks.batchGasLimit network)) started
  simp only [State.prepareNetwork]
  exact startBatch?_rule hstart hdrain ..

theorem prepareBatches_rule (hs : P s) : P (s.prepareBatches cfg env).1 := by
  have hfold : ∀ (networks : List NetworkId) (acc : State × Nat), P acc.1 →
      P (networks.foldl (State.prepareNetwork cfg env) acc).1 := by
    intro networks
    induction networks with
    | nil => exact fun _ hacc => hacc
    | cons network networks ih =>
        exact fun acc hacc => ih _ (prepareNetwork_rule hpop hstart hacc network)
  exact hfold _ (s, 0) hs

end Rule

theorem prepareBatches_quiet (s : State) :
    QuietSteps home ok exempt s (s.prepareBatches cfg env).1 :=
  prepareBatches_rule (fun _ hs => hs.tail (.frame rfl))
    (fun _ _ hs => hs.trans (startBatch_quiet ..)) .refl

theorem prepareNetwork_of_nil {s : State} {network : NetworkId} {started : Nat}
    (h : s.ops.contents network = []) :
    State.prepareNetwork cfg env (s, started) network = (s, started) := by
  have hpop : s.ops.pop network = (none, s.ops) := QueueImpl.pop_nil h
  simp [State.prepareNetwork, State.drainOps, hpop, BatchBuilder.new, BatchBuilder.takeBatch,
    State.startBatch?]

/-- Without queued ops no batch is started. -/
theorem prepareBatches_of_nil {s : State} (h : ∀ network, s.ops.contents network = []) :
    s.prepareBatches cfg env = (s, 0) := by
  rw [State.prepareBatches]
  induction (s.readEventsTask.iter cfg.networkKey).map Prod.fst with
  | nil => rfl
  | cons network networks ih => rw [List.foldl_cons, prepareNetwork_of_nil (h network), ih]

theorem onInitialize_quiet {s s' : State} (hhome : HomedShards home s)
    (h : s.onInitialize cfg env = some s') : QuietSteps home ok exempt s s' := by
  have hprep : QuietSteps home ok exempt s (s.prepareBatches cfg env).1 := prepareBatches_quiet s
  exact hprep.trans (scheduleTasks_quiet (hprep.homedShards hhome) h)

/-! ### Shards going on- and offline -/

theorem shardOnline_quiet (s : State) (shard : ShardId) :
    QuietSteps home ok exempt s (s.shardOnline env shard (home shard)) := by
  refine .head (.online shard) (.single (.frame ?_))
  unfold State.shardOnline
  split
  · split <;> rfl
  · rfl

theorem releaseTask_shardTasks (network : NetworkId) (shard : ShardId) (read : Option TaskId)
    (s : State) (taskId : TaskId) :
    (State.releaseTask network shard read s taskId).shardTasks
      = s.shardTasks.remove (shard, taskId) := by
  unfold State.releaseTask
  split <;> rfl

theorem releaseTask_readEventsTask (network : NetworkId) (shard : ShardId) (read : Option TaskId)
    (s : State) (taskId : TaskId) :
    (State.releaseTask network shard read s taskId).readEventsTask = s.readEventsTask := by
  unfold State.releaseTask
  split <;> rfl

theorem releaseTasks_quiet {shard : ShardId} {taskIds : List TaskId} (hnodup : taskIds.Nodup)
    {s : State} (hheld : ∀ t ∈ taskIds, s.shardTasks.get (shard, t) ≠ none)
    {read : Option TaskId} (hread : s.readEventsTask.get (home shard) = read) :
    QuietSteps home ok exempt s
      (taskIds.foldl (State.releaseTask (home shard) shard read) s) := by
  induction taskIds generalizing s with
  | nil => exact .refl
  | cons t taskIds ih =>
      obtain ⟨hnot, hnodup⟩ := List.nodup_cons.mp hnodup
      subst hread
      refine .head (.release (hheld t (List.mem_cons_self ..))) (ih hnodup (fun t' ht' => ?_) ?_)
      · rw [releaseTask_shardTasks, StorageMap.get_remove_of_ne]
        · exact hheld t' (List.mem_cons_of_mem _ ht')
        · intro heq
          obtain ⟨-, rfl⟩ := Prod.mk.injEq .. |>.mp heq
          exact hnot ht'
      · rw [releaseTask_readEventsTask]

theorem shardOffline_quiet (s : State) (shard : ShardId) :
    QuietSteps home ok exempt s (s.shardOffline cfg env shard (home shard)) := by
  refine .head (.offline (home shard) shard) (ReflTransGen.trans
    (@releaseTasks_quiet _ _ _ shard ((s.shardTasks.iterPrefix cfg.taskKey shard).map Prod.fst)
      (StorageMap.iterPrefix_keys_nodup ..) _ ?_ _ rfl) (.single (.frame ?_)))
  · intro t ht
    obtain ⟨⟨t', u⟩, hmem, rfl⟩ := List.mem_map.mp ht
    show s.shardTasks.get (shard, t') ≠ none
    rw [StorageMap.mem_iterPrefix.mp hmem]
    exact Option.some_ne_none u
  · unfold State.shardOffline
    dsimp only
    split <;> rfl

/-! ### Dispatchables -/

theorem reopenBatch_quiet {s : State} {batchId : BatchId}
    (h : ∀ {t}, s.batchTaskId.get batchId = some t → exempt t) :
    QuietSteps home ok exempt s (s.reopenBatch batchId) := by
  unfold State.reopenBatch
  cases hb : s.batchTaskId.get batchId with
  | none =>
      simp only [hb]
      exact .single (.frame rfl)
  | some t =>
      simp only [hb]
      exact .head (.reopen hb (h hb)) (.single (.frame rfl))

theorem reopenBatch_toTaskStore (s : State) (batchId : BatchId) :
    (s.reopenBatch batchId).toTaskStore =
      { s.toTaskStore with taskOutput := (s.reopenBatch batchId).taskOutput } := by
  unfold State.reopenBatch
  cases hb : s.batchTaskId.get batchId <;> simp only [hb]

theorem reopenBatches_toTaskStore (s : State) (batchIds : List BatchId) :
    (batchIds.foldl State.reopenBatch s).toTaskStore =
      { s.toTaskStore with taskOutput := (batchIds.foldl State.reopenBatch s).taskOutput } := by
  induction batchIds generalizing s with
  | nil => rfl
  | cons batchId batchIds ih =>
      rw [List.foldl_cons, ih, reopenBatch_toTaskStore]

theorem reopenBatches_quiet {s : State} {batchIds : List BatchId}
    (h : ∀ {batchId t}, batchId ∈ batchIds → s.batchTaskId.get batchId = some t → exempt t) :
    QuietSteps home ok exempt s (batchIds.foldl State.reopenBatch s) := by
  induction batchIds generalizing s with
  | nil => exact .refl
  | cons batchId batchIds ih =>
      refine (reopenBatch_quiet (h (List.mem_cons_self ..))).trans (ih fun {b t} hmem hb => ?_)
      rw [(congrArg TaskStore.batchTaskId (reopenBatch_toTaskStore s batchId) :)] at hb
      exact h (List.mem_cons_of_mem _ hmem) hb

theorem foldl_forgetOp_toTaskStore (ops : List GatewayOp) (s : State) :
    (ops.foldl (State.forgetOp cfg) s).toTaskStore = s.toTaskStore := by
  induction ops generalizing s with
  | nil => rfl
  | cons op ops ih =>
      rw [List.foldl_cons, ih]
      cases op <;> rfl

theorem okOr_ok {α : Type} {x : Option α} {e : DispatchError} {a : α} (h : State.okOr x e = .ok a) :
    x = some a := by
  cases x with
  | none => cases h
  | some b => cases h; rfl

theorem ensureAdmin_ok {origin : Origin} {u : Unit} (h : State.ensureAdmin cfg origin = .ok u) :
    cfg.adminOrigin origin = true := by
  unfold State.ensureAdmin at h
  split at h
  · next hadmin => exact hadmin
  · cases h

theorem verifySignature_ok {shard : ShardId} {data : List UInt8} {signature : TssSignature}
    (h : State.verifySignature cfg env shard data signature = .ok ()) :
    ∃ key, env.shards.tssPublicKey shard = some key ∧
      cfg.verifySignature key data signature = true := by
  obtain ⟨key, hkey, h⟩ := bind_ok h
  refine ⟨key, okOr_ok hkey, ?_⟩
  split at h
  · next hver => exact hver
  · cases h

theorem removeTask_ok {s s' : State} {origin : Origin} {taskId : TaskId}
    (h : s.removeTask cfg origin taskId = .ok s') :
    s.taskOutput.get taskId ≠ none ∧ s'.toTaskStore = s.toTaskStore.forget taskId := by
  obtain ⟨-, -, h⟩ := bind_ok h
  split at h
  · next hout =>
      refine ⟨StorageMap.containsKey_iff.mp hout, ?_⟩
      cases h
      cases htask : s.tasks.get taskId with
      | none => simp [TaskStore.forget, htask]
      | some task =>
          cases task with
          | readGatewayEvents blocks => simp [TaskStore.forget, htask]
          | submitGatewayMessage batchId =>
              simp only [TaskStore.forget, htask, State.forgetBatch]
              cases s.batchMessage.get batchId with
              | none => rfl
              | some msg => simp only [foldl_forgetOp_toTaskStore]
  · cases h

theorem restartBatch_ok {s s' : State} {origin : Origin} {batchId : BatchId}
    (h : s.restartBatch cfg origin batchId = .ok s') :
    ∃ network, s'.toTaskStore =
      { (s.createTask network (.submitGatewayMessage batchId)).toTaskStore with
        batchTaskId := s.batchTaskId.insert batchId s.nextTaskId } := by
  obtain ⟨-, -, h⟩ := bind_ok h
  obtain ⟨oldTaskId, -, h⟩ := bind_ok h
  obtain ⟨network, -, h⟩ := bind_ok h
  cases h
  exact ⟨network, rfl⟩

/-- An administrator may restart a batch at any time. -/
theorem restartBatch_of_link {origin : Origin} {batchId : BatchId} {taskId : TaskId}
    {network : NetworkId} {s : State} (hadmin : cfg.adminOrigin origin = true)
    (hlink : s.batchTaskId.get batchId = some taskId)
    (hnet : s.taskNetwork.get taskId = some network) :
    ∃ s', s.restartBatch cfg origin batchId = .ok s' ∧
      s'.toTaskStore = { (s.createTask network (.submitGatewayMessage batchId)).toTaskStore with
        batchTaskId := s.batchTaskId.insert batchId s.nextTaskId } ∧
      s'.toLoadStore = s.toLoadStore ∧ s'.toOpStore = s.toOpStore ∧
      s'.shardRegistered = s.shardRegistered := by
  simp only [State.restartBatch, State.ensureAdmin, hadmin, hlink, hnet, State.okOr, if_true, bind,
    Except.bind, pure, Except.pure]
  exact ⟨_, rfl, rfl, rfl, rfl, rfl⟩

/-- The checks a report of gateway events passes. -/
structure AcceptsEvents (cfg : Config) (env : Env) (s : State) (taskId : TaskId)
    (blocks : BlockRange) (shard : ShardId) (network : NetworkId) (events : GmpEvents)
    (signature : TssSignature) : Prop where
  task : s.tasks.get taskId = some (.readGatewayEvents blocks)
  unfinished : s.taskOutput.get taskId = none
  assigned : s.taskShard.get taskId = some shard
  network : env.shards.shardNetwork shard = some network
  verified : ∃ key, env.shards.tssPublicKey shard = some key ∧
    cfg.verifySignature key (encodeGmpEvents taskId events.val) signature = true

/-- The checks an error report for a batch passes. -/
structure AcceptsError (env : Env) (s : State) (taskId : TaskId) (batchId : BatchId)
    (shard : ShardId) (network : NetworkId) : Prop where
  task : s.tasks.get taskId = some (.submitGatewayMessage batchId)
  unfinished : s.taskOutput.get taskId = none
  assigned : s.taskShard.get taskId = some shard
  network : env.shards.shardNetwork shard = some network

/-- What a successful `submit_task_result` did. -/
theorem submitTaskResult_ok {s s' : State} {origin : Origin} {taskId : TaskId} {result : TaskResult}
    (h : s.submitTaskResult cfg env origin taskId result = .ok s') :
    s' = s ∨
    (∃ blocks shard network events signature, result = .readGatewayEvents events signature ∧
      AcceptsEvents cfg env s taskId blocks shard network events signature ∧
      s' = s.acceptEvents cfg env network taskId blocks events.val) ∨
    (∃ batchId shard network error, result = .submitGatewayMessage error ∧
      AcceptsError env s taskId batchId shard network ∧
      s' = s.acceptError network taskId batchId error) := by
  obtain ⟨signer, -, h⟩ := bind_ok h
  obtain ⟨task, htask, h⟩ := bind_ok h
  split at h
  · cases h
    exact Or.inl rfl
  · next hout =>
      have hout : s.taskOutput.get taskId = none := by
        simpa using hout
      obtain ⟨shard, hshard, h⟩ := bind_ok h
      obtain ⟨network, hnetwork, h⟩ := bind_ok h
      cases task with
      | readGatewayEvents blocks =>
          cases result with
          | readGatewayEvents events signature =>
              obtain ⟨⟨⟩, hver, h⟩ := bind_ok h
              cases h
              exact Or.inr (Or.inl ⟨blocks, shard, network, events, signature, rfl,
                ⟨okOr_ok htask, hout, okOr_ok hshard, okOr_ok hnetwork,
                  verifySignature_ok hver⟩, rfl⟩)
          | submitGatewayMessage error => cases h
      | submitGatewayMessage batchId =>
          cases result with
          | readGatewayEvents events signature => cases h
          | submitGatewayMessage error =>
              simp only at h
              split at h
              · cases h
                exact Or.inr (Or.inr ⟨batchId, shard, network, error, rfl,
                  ⟨okOr_ok htask, hout, okOr_ok hshard, okOr_ok hnetwork⟩, rfl⟩)
              · cases h

/-- The checks are all there is: a report that passes them is accepted. -/
theorem AcceptsEvents.submit {s : State} {taskId : TaskId} {blocks : BlockRange} {shard : ShardId}
    {network : NetworkId} {events : GmpEvents} {signature : TssSignature}
    (h : AcceptsEvents cfg env s taskId blocks shard network events signature) (who : AccountId) :
    s.submitTaskResult cfg env (.signed who) taskId (.readGatewayEvents events signature)
      = .ok (s.acceptEvents cfg env network taskId blocks events.val) := by
  obtain ⟨htask, hout, hshard, hnet, key, hkey, hver⟩ := h
  have hfresh : s.taskOutput.containsKey taskId = false := StorageMap.containsKey_eq_false.mpr hout
  simp only [State.submitTaskResult, State.ensureSigned, htask, hfresh, hshard, hnet, State.okOr,
    State.verifySignature, hkey, hver, if_true, bind, Except.bind, pure, Except.pure,
    Bool.false_eq_true, if_false]

/-! ### Reports of gateway events -/

theorem advanceSync_small (s : State) (network : NetworkId) (blocks : BlockRange) :
    SmallSteps home ok exempt s (s.advanceSync network blocks) := by
  unfold State.advanceSync
  split
  · exact .single (.sync _ _)
  · exact .refl

theorem advanceSync_toTaskStore (s : State) (network : NetworkId) (blocks : BlockRange) :
    (s.advanceSync network blocks).toTaskStore =
      { s.toTaskStore with syncHeight := (s.advanceSync network blocks).syncHeight } := by
  unfold State.advanceSync
  split <;> rfl

theorem readNext_small (s : State) (network : NetworkId) :
    SmallSteps home ok exempt s (s.readNext env network) := by
  unfold State.readNext
  split
  · exact .single (.readTask _ _)
  · exact .refl

theorem readNext_frame (s : State) (network : NetworkId) :
    (s.readNext env network).uaTasks = s.uaTasks ∧
    (s.readNext env network).taskShard = s.taskShard ∧
    (s.readNext env network).batchTaskId = s.batchTaskId ∧
    ∀ {taskId}, s.tasks.get taskId ≠ none → (s.readNext env network).tasks.get taskId ≠ none := by
  unfold State.readNext
  split
  · refine ⟨rfl, rfl, rfl, fun {taskId} ht => ?_⟩
    rw [State.readGatewayEvents, createTask_tasks, StorageMap.get_insert]
    split
    · exact Option.some_ne_none _
    · exact ht
  · exact ⟨rfl, rfl, rfl, id⟩

/-- After `readNext`, the read task of the network is a new one or none,
unless ids have run out. -/
theorem readNext_current {s : State} (hcount : Counted s) {network : NetworkId} {taskId : TaskId}
    (htask : s.tasks.get taskId ≠ none)
    (hcur : (s.readNext env network).readEventsTask.get network = some taskId) :
    2 ^ 64 ≤ (s.readNext env network).createdTasks.length := by
  unfold State.readNext at hcur ⊢
  split at hcur
  · next hc =>
      rw [if_pos hc, State.readGatewayEvents, createTask_createdTasks, List.length_append]
      have heq : s.nextTaskId = taskId := by
        have hins : (s.readEventsTask.insert network s.nextTaskId).get network = some taskId := hcur
        rw [StorageMap.get_insert_self] at hins
        exact Option.some.inj hins
      by_contra hlen
      exact hcount.nextTaskId_ne htask (Nat.lt_of_not_le hlen) heq
  · next hc =>
      rw [StorageMap.containsKey_iff, not_not] at hc
      rw [hc] at hcur
      cases hcur

theorem acceptEvents_small (hok : Stable ok) {s : State} (hcount : Counted s) {taskId : TaskId}
    {shard : ShardId} {blocks : BlockRange} {events : List GmpEvent}
    (htask : s.tasks.get taskId ≠ none) (hshard : s.taskShard.get taskId = some shard)
    (hev : ∀ {batchId t}, batchId ∈ executedBatches events → s.batchTaskId.get batchId = some t →
      ok s (home shard) t) :
    SmallSteps home ok exempt s
      (s.acceptEvents cfg env (home shard) taskId blocks events) := by
  have hstore := advanceSync_toTaskStore s (home shard) blocks
  have hsync : SmallSteps home ok exempt s (s.advanceSync (home shard) blocks) :=
    advanceSync_small s (home shard) blocks
  obtain ⟨s₁, hs₁⟩ : ∃ s₁, s.advanceSync (home shard) blocks = s₁ := ⟨_, rfl⟩
  rw [hs₁] at hstore hsync
  have hcount₁ : Counted s₁ := hsync.counted hcount
  have htask₁ : s₁.tasks.get taskId ≠ none := by
    rw [(congrArg TaskStore.tasks hstore :)]
    exact htask
  have hread : SmallSteps home ok exempt s₁ (s₁.readNext env (home shard)) :=
    readNext_small s₁ (home shard)
  have hfresh := @readNext_current env s₁ hcount₁ (home shard) taskId htask₁
  obtain ⟨hua, hsh, hbt, htask₂⟩ := @readNext_frame env s₁ (home shard)
  obtain ⟨s₂, hs₂⟩ : ∃ s₂, s₁.readNext env (home shard) = s₂ := ⟨_, rfl⟩
  rw [hs₂] at hread hfresh hua hsh hbt htask₂
  have hok₂ : ∀ {t}, ok s (home shard) t → ok s₂ (home shard) t := by
    refine hok (hua.trans (congrArg TaskStore.uaTasks hstore :)) fun t => Or.inl ?_
    rw [hsh, (congrArg TaskStore.taskShard hstore :)]
  have hprocess : QuietSteps home ok exempt s₂ (s₂.processEvents cfg (home shard) taskId events) :=
    processEvents_quiet hok fun {batchId t} hmem hb => by
      rw [hbt, (congrArg TaskStore.batchTaskId hstore :)] at hb
      exact hok₂ (hev hmem hb)
  have hfin := @processEvents_finishing cfg (home shard) taskId s₂ events
  have hsteps := (hsync.trans hread).trans hprocess.small
  simp only [State.acceptEvents, hs₁, hs₂]
  split
  · exact hsteps
  · rcases hfin.shard taskId with hshard₃ | ⟨-, hout⟩
    · refine hsteps.tail (.quiet (.finishOwn (.ok ()) ?_ ?_ ?_))
      · rw [hfin.tasks]
        exact htask₂ htask₁
      · rw [hshard₃, hsh, (congrArg TaskStore.taskShard hstore :)]
        exact hshard
      · rw [hfin.readEventsTask, hfin.createdTasks]
        exact fun _ _ => hfresh
    · rw [finishTask_of_output hout]
      exact hsteps

theorem acceptEvents_processed (s : State) (network : NetworkId) (taskId : TaskId)
    (blocks : BlockRange) (events : List GmpEvent) :
    (s.acceptEvents cfg env network taskId blocks events).processedEvents
      = s.processedEvents ++ events.map fun event => (network, taskId, event) := by
  have hread : ((s.advanceSync network blocks).readNext env network).processedEvents
      = s.processedEvents := by
    unfold State.readNext State.advanceSync
    split <;> split <;> rfl
  simp only [State.acceptEvents]
  split <;> simp only [finishTask_processed, processEvents_processed, hread]

theorem acceptError_quiet {s : State} {taskId : TaskId} {shard : ShardId} {batchId : BatchId}
    (error : ErrorMsg) (htask : s.tasks.get taskId = some (.submitGatewayMessage batchId))
    (hshard : s.taskShard.get taskId = some shard) :
    QuietSteps home ok exempt s (s.acceptError (home shard) taskId batchId error) := by
  have hframe : Quiet home ok exempt s
      { s with
        pendingBatches := s.pendingBatches.remove batchId
        failedBatchIds := s.failedBatchIds.insert batchId () } := .frame rfl
  refine ReflTransGen.head hframe (.single (.finishOwn (.error error) ?_ hshard ?_))
  · show s.tasks.get taskId ≠ none
    rw [htask]
    exact Option.some_ne_none _
  · intro blocks hread
    have := htask.symm.trans hread
    cases this

end Calls

/-- The tasks that events report executed, with the network they are
reported for. -/
def State.reportedTasks (s : State) (network : NetworkId) (events : List GmpEvent) :
    List (NetworkId × TaskId) :=
  (executedBatches events).filterMap fun batchId =>
    (s.batchTaskId.get batchId).map fun taskId => (network, taskId)

/-- The tasks a call reports executed. -/
def Input.reportedTasks (i : Input) (s : State) : List (NetworkId × TaskId) :=
  match i.call with
  | .submitTaskResult _ taskId (.readGatewayEvents events _) =>
      match (s.taskShard.get taskId).bind i.env.shards.shardNetwork with
      | some network => s.reportedTasks network events.val
      | none => []
  | .submitGmpEvents _ network events => s.reportedTasks network events.val
  | _ => []

theorem mem_reportedTasks {s : State} {network : NetworkId} {events : List GmpEvent}
    {batchId : BatchId} {taskId : TaskId} (hmem : batchId ∈ executedBatches events)
    (hb : s.batchTaskId.get batchId = some taskId) :
    (network, taskId) ∈ s.reportedTasks network events :=
  List.mem_filterMap.mpr ⟨batchId, hmem, by rw [hb]; rfl⟩


/-- A call that fails changes nothing. -/
theorem dispatch_eq {s s' : State} {r : Except DispatchError State} (h : dispatch s r = s') :
    s' = s ∨ r = .ok s' := by
  cases r with
  | error e => exact Or.inl h.symm
  | ok s₁ => exact Or.inr (congrArg Except.ok h)

/-- How a call ends that does not panic. One that fails changes nothing, and
neither does a report on a finished task. -/
inductive Ends (cfg : Config) (env : Env) (s : State) : Call → State → Prop
  | idle {call} : (∀ network block, call ≠ .gatewayRegistered network block) →
      Ends cfg env s call s
  | onInitialize {s'} : s.onInitialize cfg env = some s' → Ends cfg env s .onInitialize s'
  | acceptEvents {origin taskId blocks shard network events signature} :
      s.submitTaskResult cfg env origin taskId (.readGatewayEvents events signature)
        = .ok (s.acceptEvents cfg env network taskId blocks events.val) →
      AcceptsEvents cfg env s taskId blocks shard network events signature →
      Ends cfg env s (.submitTaskResult origin taskId (.readGatewayEvents events signature))
        (s.acceptEvents cfg env network taskId blocks events.val)
  | acceptError {origin taskId batchId shard network error} :
      s.submitTaskResult cfg env origin taskId (.submitGatewayMessage error)
        = .ok (s.acceptError network taskId batchId error) →
      AcceptsError env s taskId batchId shard network →
      Ends cfg env s (.submitTaskResult origin taskId (.submitGatewayMessage error))
        (s.acceptError network taskId batchId error)
  | submitGmpEvents {origin network events} : cfg.adminOrigin origin = true →
      Ends cfg env s (.submitGmpEvents origin network events)
        (((executedBatches events.val).foldl State.reopenBatch s).processEvents cfg network 0
          events.val)
  | syncNetwork {origin network block} : cfg.adminOrigin origin = true →
      Ends cfg env s (.syncNetwork origin network block)
        { s with syncHeight := s.syncHeight.insert network block.toNat }
  | stopNetwork {origin network} : cfg.adminOrigin origin = true →
      Ends cfg env s (.stopNetwork origin network)
        { s with readEventsTask := s.readEventsTask.remove network }
  | removeTask {origin taskId s'} : cfg.adminOrigin origin = true →
      s.removeTask cfg origin taskId = .ok s' → Ends cfg env s (.removeTask origin taskId) s'
  | restartBatch {origin batchId s'} : s.restartBatch cfg origin batchId = .ok s' →
      Ends cfg env s (.restartBatch origin batchId) s'
  | shardOnline {shard network} :
      Ends cfg env s (.shardOnline shard network) (s.shardOnline env shard network)
  | shardOffline {shard network} :
      Ends cfg env s (.shardOffline shard network) (s.shardOffline cfg env shard network)
  | gatewayRegistered {network block} :
      Ends cfg env s (.gatewayRegistered network block)
        (s.gatewayRegistered env network block.toNat)

theorem exec_ends {cfg : Config} {env : Env} {s s' : State} {call : Call}
    (h : exec cfg s ⟨env, call⟩ = some s') : Ends cfg env s call s' := by
  cases call with
  | onInitialize => exact .onInitialize h
  | submitTaskResult origin taskId result =>
      rcases dispatch_eq (Option.some.inj h) with rfl | hr
      · exact .idle (by simp)
      · rcases submitTaskResult_ok hr with rfl |
          ⟨blocks, shard, network, events, signature, rfl, hacc, rfl⟩ |
          ⟨batchId, shard, network, error, rfl, hacc, rfl⟩
        · exact .idle (by simp)
        · exact .acceptEvents hr hacc
        · exact .acceptError hr hacc
  | submitGmpEvents origin network events =>
      rcases dispatch_eq (Option.some.inj h) with rfl | hr
      · exact .idle (by simp)
      · obtain ⟨_, hadmin, hr⟩ := bind_ok hr
        cases hr
        exact .submitGmpEvents (ensureAdmin_ok hadmin)
  | syncNetwork origin network block =>
      rcases dispatch_eq (Option.some.inj h) with rfl | hr
      · exact .idle (by simp)
      · obtain ⟨_, hadmin, hr⟩ := bind_ok hr
        cases hr
        exact .syncNetwork (ensureAdmin_ok hadmin)
  | stopNetwork origin network =>
      rcases dispatch_eq (Option.some.inj h) with rfl | hr
      · exact .idle (by simp)
      · obtain ⟨_, hadmin, hr⟩ := bind_ok hr
        cases hr
        exact .stopNetwork (ensureAdmin_ok hadmin)
  | removeTask origin taskId =>
      rcases dispatch_eq (Option.some.inj h) with rfl | hr
      · exact .idle (by simp)
      · obtain ⟨_, hadmin, -⟩ := bind_ok hr
        exact .removeTask (ensureAdmin_ok hadmin) hr
  | restartBatch origin batchId =>
      rcases dispatch_eq (Option.some.inj h) with rfl | hr
      · exact .idle (by simp)
      · exact .restartBatch hr
  | shardOnline shard network =>
      cases h
      exact .shardOnline
  | shardOffline shard network =>
      cases h
      exact .shardOffline
  | gatewayRegistered network block =>
      cases h
      exact .gatewayRegistered

/-- What a call did, sorted by what it does to the reading of gateways. -/
inductive Effect (cfg : Config) (home : ShardId → NetworkId)
    (ok : State → NetworkId → TaskId → Prop) (s : State) (i : Input) (s' : State) : Prop
  /-- What was exempt has an output in the end. -/
  | quiet {exempt : TaskId → Prop} : (∀ network block, i.call ≠ .gatewayRegistered network block) →
      (∀ t, exempt t → s'.taskOutput.get t ≠ none) → QuietSteps home ok exempt s s' →
      Effect cfg home ok s i s'
  | accept {origin taskId blocks shard events signature} :
      i.call = .submitTaskResult origin taskId (.readGatewayEvents events signature) →
      AcceptsEvents cfg i.env s taskId blocks shard (home shard) events signature →
      (∀ r ∈ s.reportedTasks (home shard) events.val, ok s r.1 r.2) →
      s' = s.acceptEvents cfg i.env (home shard) taskId blocks events.val →
      Effect cfg home ok s i s'
  | register {network block} : i.call = .gatewayRegistered network block →
      s' = s.gatewayRegistered i.env network block.toNat → Effect cfg home ok s i s'
  | sync {origin network block} : i.call = .syncNetwork origin network block →
      s' = { s with syncHeight := s.syncHeight.insert network block.toNat } →
      Effect cfg home ok s i s'
  | stop {origin network} : i.call = .stopNetwork origin network →
      s' = { s with readEventsTask := s.readEventsTask.remove network } → Effect cfg home ok s i s'

section Exec

variable {cfg : Config} {s s' : State} {i : Input}

theorem Effect.of_quiet (hcall : ∀ network block, i.call ≠ .gatewayRegistered network block)
    (h : QuietSteps home ok (fun _ => False) s s') : Effect cfg home ok s i s' :=
  .quiet hcall (fun _ hf => hf.elim) h

theorem submitGmpEvents_effect (hok : Stable ok) {network : NetworkId} {events : GmpEvents}
    (hcall : ∀ network block, i.call ≠ .gatewayRegistered network block)
    (hrep : ∀ r ∈ s.reportedTasks network events.val, ok s r.1 r.2) :
    Effect cfg home ok s i
      (((executedBatches events.val).foldl State.reopenBatch s).processEvents cfg network 0
        events.val) := by
  have hstore := reopenBatches_toTaskStore s (executedBatches events.val)
  have hreopen : QuietSteps home ok
      (fun t => ∃ batchId ∈ executedBatches events.val, s.batchTaskId.get batchId = some t) s
      ((executedBatches events.val).foldl State.reopenBatch s) :=
    reopenBatches_quiet fun {batchId t} hmem hb => ⟨batchId, hmem, hb⟩
  obtain ⟨s₁, hs₁⟩ : ∃ s₁, (executedBatches events.val).foldl State.reopenBatch s = s₁ := ⟨_, rfl⟩
  rw [hs₁] at hstore hreopen
  have hbatch : s₁.batchTaskId = s.batchTaskId := (congrArg TaskStore.batchTaskId hstore :)
  simp only [hs₁]
  refine .quiet hcall ?_ (hreopen.trans (processEvents_quiet hok fun {batchId t} hmem hb => ?_))
  · rintro t ⟨batchId, hmem, hb⟩
    exact processEvents_output hmem (hbatch ▸ hb)
  · refine hok (congrArg TaskStore.uaTasks hstore :) (fun t => Or.inl ?_)
      (hrep (network, t) (mem_reportedTasks hmem (hbatch ▸ hb)))
    rw [(congrArg TaskStore.taskShard hstore :)]

theorem exec_effect (hok : Stable ok) (hshards : HomedShards home s) (hi : i.Homed home)
    (hrep : ∀ r ∈ i.reportedTasks s, ok s r.1 r.2) (h : exec cfg s i = some s') :
    Effect cfg home ok s i s' := by
  obtain ⟨env, call⟩ := i
  cases exec_ends h with
  | idle hcall => exact .of_quiet hcall .refl
  | onInitialize hrun => exact .of_quiet (by simp) (onInitialize_quiet hshards hrun)
  | acceptEvents _ hacc =>
      obtain rfl := hi.network hacc.network
      refine .accept rfl hacc ?_ rfl
      simpa only [Input.reportedTasks, hacc.assigned, Option.bind_some, hacc.network] using hrep
  | @acceptError _ _ _ _ _ error _ hacc =>
      obtain rfl := hi.network hacc.network
      exact .of_quiet (by simp) (acceptError_quiet error hacc.task hacc.assigned)
  | submitGmpEvents => exact submitGmpEvents_effect hok (by simp) hrep
  | syncNetwork => exact .sync rfl rfl
  | stopNetwork => exact .stop rfl rfl
  | removeTask _ hok =>
      obtain ⟨hout, hstore⟩ := removeTask_ok hok
      exact .of_quiet (by simp) (.single (.forget hout hstore))
  | @restartBatch _ batchId _ hok =>
      obtain ⟨network, hstore⟩ := restartBatch_ok hok
      exact .of_quiet (by simp) (createBatchTask_quiet network batchId hstore)
  | @shardOnline shard network =>
      obtain rfl := hi.online rfl
      exact .of_quiet (by simp) (shardOnline_quiet s shard)
  | @shardOffline shard network =>
      obtain rfl := hi.offline rfl
      exact .of_quiet (by simp) (shardOffline_quiet s shard)
  | gatewayRegistered => exact .register rfl rfl

/-- **Every call is a sequence of small steps.** -/
theorem Effect.small (h : Effect cfg home ok s i s') (hok : Stable ok) (hcount : Counted s) :
    ∃ exempt, (∀ t, exempt t → s'.taskOutput.get t ≠ none) ∧ SmallSteps home ok exempt s s' := by
  have hplain : ∀ {s'}, SmallSteps home ok (fun _ => False) s s' →
      ∃ exempt, (∀ t, exempt t → s'.taskOutput.get t ≠ none) ∧ SmallSteps home ok exempt s s' :=
    fun hsteps => ⟨fun _ => False, fun _ hf => hf.elim, hsteps⟩
  cases h with
  | quiet _ hout hsteps => exact ⟨_, hout, hsteps.small⟩
  | accept hcall hacc hrep heq =>
      subst heq
      refine hplain (acceptEvents_small hok hcount ?_ hacc.assigned fun hmem hb => ?_)
      · rw [hacc.task]
        exact Option.some_ne_none _
      · exact hrep (_, _) (mem_reportedTasks hmem hb)
  | register hcall heq =>
      subst heq
      exact hplain (.head (.sync _ _) (.single (.readTask _ _)))
  | sync hcall heq =>
      subst heq
      exact hplain (.single (.sync _ _))
  | stop hcall heq =>
      subst heq
      exact hplain (.single (.stop _))

end Exec

end Tasks

end Timechain
