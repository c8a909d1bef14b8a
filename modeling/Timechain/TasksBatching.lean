import Mathlib.Data.List.Count
import Mathlib.Data.List.Perm.Subperm
import Timechain.GmpBatch
import Timechain.TasksCalls

/-!
# Batching of gateway ops

What happens to an op between `ops_queue(n).push` and the batch it is
sent in. `prepare_batches` moves ops through two buffers, the queue in
storage and the builder in memory; `Drained` says what one network's
pass keeps: batched ops, then the builder, then the queue are always the
same list. With the flush after the loop the builder is empty again, so
between calls batched ops followed by queued ops are all ops ever pushed
(`ops_batched_fifo`).

The limit on batches per block is tested with `==` against one counter
for all networks, and every network flushes once more after its loop. A
network that meets the limit leaves the counter one past it, where the
test never succeeds again. `prepareBatches_limit_iff` says when the
limit holds all the same.
-/

namespace Timechain

/-! ## What the builder returns -/

namespace BatchBuilder

theorem takeBatch_cases (b : BatchBuilder) :
    (b.takeBatch.1 = none ∧ b.ops = [] ∧ b.takeBatch.2.ops = []) ∨
      (b.takeBatch.1 = some ⟨b.ops⟩ ∧ b.ops ≠ [] ∧ b.takeBatch.2.ops = []) := by
  unfold takeBatch
  by_cases h : b.ops = []
  · simp [h]
  · simp [h]

/-- Either the op joins the open batch or it starts a new one. -/
theorem push_cases (b : BatchBuilder) (op : GatewayOp) :
    ((b.push op).1 = none ∧ (b.push op).2.ops = b.ops ++ [op]) ∨
      ((b.push op).1 = some ⟨b.ops⟩ ∧ b.ops ≠ [] ∧ (b.push op).2.ops = [op]) := by
  unfold push
  split
  · next batch b' hsplit =>
      split at hsplit
      · rcases b.takeBatch_cases with ⟨hnone, hnil, hnil'⟩ | ⟨hsome, hne, hnil'⟩
        · rw [hsplit] at hnone hnil'
          exact Or.inl ⟨hnone, by rw [hnil]; exact congrArg (· ++ [op]) hnil'⟩
        · rw [hsplit] at hsome hnil'
          exact Or.inr ⟨hsome, hne, congrArg (· ++ [op]) hnil'⟩
      · cases hsplit
        exact Or.inl ⟨rfl, rfl⟩

end BatchBuilder

namespace Tasks

open Relation (ReflTransGen)

variable {cfg : Config} {env : Env} {s s' s'' : State} {network : NetworkId}

/-! ## Ops, batched and pushed -/

/-- The ops of all batches started for `network`, oldest first. -/
def State.batchedOps (s : State) (network : NetworkId) : List GatewayOp :=
  (s.startedBatches.filter fun batch => batch.1 = network).flatMap fun batch => batch.2.2.ops

/-- All ops ever pushed for `network`, oldest first. -/
def State.opsPushedTo (s : State) (network : NetworkId) : List GatewayOp :=
  (s.pushedOps.filter fun push => push.1 = network).map Prod.snd

/-- Batches are non-empty and numbered in the order they were started. -/
structure Numbered (s : State) : Prop where
  counter : s.batchIdCounter = min s.startedBatches.length (maxVal 64)
  ids : s.startedBatches.map (fun batch => batch.2.1)
    = (List.range s.startedBatches.length).map fun i => min i (maxVal 64)
  nonempty : ∀ batch ∈ s.startedBatches, batch.2.2.ops ≠ []

/-- Nothing was pushed, popped or batched. -/
structure SameOps (s s' : State) : Prop where
  toOpStore : s'.toOpStore = s.toOpStore
  startedBatches : s'.startedBatches = s.startedBatches
  batchIdCounter : s'.batchIdCounter = s.batchIdCounter

namespace SameOps

theorem refl (s : State) : SameOps s s := ⟨rfl, rfl, rfl⟩

theorem trans (h : SameOps s s') (h' : SameOps s' s'') : SameOps s s'' :=
  ⟨h'.toOpStore.trans h.toOpStore, h'.startedBatches.trans h.startedBatches,
    h'.batchIdCounter.trans h.batchIdCounter⟩

theorem of_stores (hops : s'.toOpStore = s.toOpStore) (hbatch : s'.toBatchStore = s.toBatchStore) :
    SameOps s s' :=
  ⟨hops, (congrArg BatchStore.startedBatches hbatch :),
    (congrArg BatchStore.batchIdCounter hbatch :)⟩

theorem createTask (s : State) (network : NetworkId) (task : Task) :
    SameOps s (s.createTask network task) := by
  cases task <;> exact ⟨rfl, rfl, rfl⟩

theorem finishTask (s : State) (network : NetworkId) (taskId : TaskId)
    (result : Except ErrorMsg Unit) : SameOps s (s.finishTask network taskId result) := by
  unfold State.finishTask
  split
  · exact .refl s
  · dsimp only
    split <;> exact ⟨rfl, rfl, rfl⟩

theorem foldl {α : Type} {f : State → α → State} (hf : ∀ s a, SameOps s (f s a)) (l : List α)
    (s : State) : SameOps s (l.foldl f s) := by
  induction l generalizing s with
  | nil => exact .refl s
  | cons a l ih => exact (hf s a).trans (ih _)

theorem recordOp (batchId : BatchId) (s : State) (op : GatewayOp) :
    SameOps s (State.recordOp cfg batchId s op) := by
  cases op <;> exact ⟨rfl, rfl, rfl⟩

theorem forgetOp (s : State) (op : GatewayOp) : SameOps s (State.forgetOp cfg s op) := by
  cases op <;> exact ⟨rfl, rfl, rfl⟩

theorem releaseTask (network : NetworkId) (shard : ShardId) (read : Option TaskId) (s : State)
    (taskId : TaskId) : SameOps s (State.releaseTask network shard read s taskId) := by
  unfold State.releaseTask
  dsimp only
  split <;> exact ⟨rfl, rfl, rfl⟩

theorem advanceSync (s : State) (network : NetworkId) (blocks : BlockRange) :
    SameOps s (s.advanceSync network blocks) := by
  unfold State.advanceSync
  split <;> exact ⟨rfl, rfl, rfl⟩

theorem readNext (s : State) (env : Env) (network : NetworkId) :
    SameOps s (s.readNext env network) := by
  unfold State.readNext
  split
  · exact .createTask ..
  · exact .refl s

theorem reopenBatch (s : State) (batchId : BatchId) : SameOps s (s.reopenBatch batchId) := by
  unfold State.reopenBatch
  cases hb : s.batchTaskId.get batchId <;> simp only [hb] <;> exact ⟨rfl, rfl, rfl⟩

end SameOps

/-! ## Starting a batch -/

theorem startBatch_ops (s : State) (network : NetworkId) (msg : GatewayMessage) :
    (s.startBatch cfg network msg).toOpStore = s.toOpStore ∧
      (s.startBatch cfg network msg).startedBatches
        = s.startedBatches ++ [(network, s.batchIdCounter, msg)] ∧
      (s.startBatch cfg network msg).batchIdCounter = satAdd 64 s.batchIdCounter 1 := by
  have hrec := SameOps.foldl (@SameOps.recordOp cfg s.batchIdCounter) msg.ops
    { s with
      batchIdCounter := satAdd 64 s.batchIdCounter 1
      startedBatches := s.startedBatches ++ [(network, s.batchIdCounter, msg)] }
  exact ⟨hrec.toOpStore, hrec.startedBatches, hrec.batchIdCounter⟩

theorem batchedOps_startBatch (s : State) (network m : NetworkId) (msg : GatewayMessage) :
    (s.startBatch cfg network msg).batchedOps m
      = s.batchedOps m ++ if m = network then msg.ops else [] := by
  rw [State.batchedOps, (startBatch_ops s network msg).2.1, List.filter_append,
    List.flatMap_append, State.batchedOps]
  by_cases hm : m = network
  · simp [hm]
  · simp [hm, Ne.symm hm]

theorem Numbered.startBatch (h : Numbered s) {msg : GatewayMessage} (hne : msg.ops ≠ []) :
    Numbered (s.startBatch cfg network msg) := by
  obtain ⟨-, hstarted, hcounter⟩ := @startBatch_ops cfg s network msg
  refine ⟨?_, ?_, ?_⟩
  · rw [hcounter, hstarted, h.counter, List.length_append, List.length_singleton]
    exact satSucc_min ..
  · rw [hstarted, List.map_append, List.length_append, List.length_singleton, List.range_succ,
      List.map_append, h.ids, h.counter]
    rfl
  · intro batch hmem
    rw [hstarted, List.mem_append, List.mem_singleton] at hmem
    rcases hmem with hmem | rfl
    · exact h.nonempty batch hmem
    · exact hne

/-! ## One network's pass -/

/-- Ops of `network` moved on: out of the queue, into the open batch
(`p` before, `p'` after), into batches. -/
structure Drained (network : NetworkId) (p : List GatewayOp) (s : State) (p' : List GatewayOp)
    (s' : State) : Prop where
  fifo : s'.batchedOps network ++ (p' ++ s'.ops.contents network)
    = s.batchedOps network ++ (p ++ s.ops.contents network)
  others : ∀ {m}, m ≠ network →
    s'.batchedOps m = s.batchedOps m ∧ s'.ops.contents m = s.ops.contents m
  pushedOps : s'.pushedOps = s.pushedOps
  insertI : ∀ m, s'.ops.insertI m = s.ops.insertI m
  numbered : Numbered s → Numbered s'

namespace Drained

variable {p p' p'' : List GatewayOp}

theorem refl (network : NetworkId) (p : List GatewayOp) (s : State) : Drained network p s p s :=
  ⟨rfl, fun _ => ⟨rfl, rfl⟩, rfl, fun _ => rfl, id⟩

theorem trans (h : Drained network p s p' s') (h' : Drained network p' s' p'' s'') :
    Drained network p s p'' s'' where
  fifo := h'.fifo.trans h.fifo
  others hm := ⟨(h'.others hm).1.trans (h.others hm).1, (h'.others hm).2.trans (h.others hm).2⟩
  pushedOps := h'.pushedOps.trans h.pushedOps
  insertI m := (h'.insertI m).trans (h.insertI m)
  numbered hn := h'.numbered (h.numbered hn)

theorem startBatch {ops : List GatewayOp} (hne : ops ≠ []) :
    Drained network (ops ++ p) s p (s.startBatch cfg network ⟨ops⟩) := by
  have hstore := (@startBatch_ops cfg s network ⟨ops⟩).1
  have hq : (s.startBatch cfg network ⟨ops⟩).ops = s.ops := congrArg OpStore.ops hstore
  refine ⟨?_, fun {m} hm => ?_, (congrArg OpStore.pushedOps hstore :), fun m => ?_,
    fun hn => hn.startBatch hne⟩
  · simp only [batchedOps_startBatch, hq, if_true, List.append_assoc]
  · simp only [batchedOps_startBatch, hq, if_neg hm, List.append_nil, and_self]
  · simp only [hq]

theorem pop {op : GatewayOp} {queue : QueueImpl NetworkId GatewayOp}
    (hpop : s.ops.pop network = (some op, queue)) :
    Drained network p s (p ++ [op]) { s with ops := queue } where
  fifo := by
    rw [QueueImpl.pop_cons hpop]
    simp [State.batchedOps]
  others hm := ⟨rfl, by rw [← QueueImpl.contents_pop_of_ne s.ops hm, hpop]⟩
  pushedOps := rfl
  insertI m := by rw [← QueueImpl.insertI_pop s.ops network m, hpop]
  numbered hn := ⟨hn.counter, hn.ids, hn.nonempty⟩

/-- The flush after the loop. -/
theorem takeBatch (b : BatchBuilder) (started : Nat) :
    Drained network b.ops s [] (s.startBatch? cfg network b.takeBatch.1 started).1 := by
  rcases b.takeBatch_cases with ⟨hnone, hnil, -⟩ | ⟨hsome, hne, -⟩
  · rw [hnone, hnil]
    exact .refl network [] s
  · rw [hsome]
    have hstart := @startBatch cfg s network [] b.ops hne
    rwa [List.append_nil] at hstart

/-- One round of the loop: an op leaves the queue for the builder, which
may hand over its open batch first. -/
theorem push (b : BatchBuilder) {op : GatewayOp} {queue : QueueImpl NetworkId GatewayOp}
    {started : Nat} (hpop : s.ops.pop network = (some op, queue)) :
    Drained network b.ops s (b.push op).2.ops
      ({ s with ops := queue }.startBatch? cfg network (b.push op).1 started).1 := by
  refine (Drained.pop hpop).trans ?_
  rcases b.push_cases op with ⟨hnone, hops⟩ | ⟨hsome, hne, hops⟩
  · rw [hnone, hops]
    exact .refl ..
  · rw [hsome, hops]
    exact .startBatch hne

end Drained

theorem drainOps_drained (fuel : Nat) (b : BatchBuilder) (s : State) (started : Nat) :
    Drained network b.ops s (State.drainOps cfg network fuel b s started).1.ops
      (State.drainOps cfg network fuel b s started).2.1 := by
  induction fuel generalizing b s started with
  | zero => exact .refl network b.ops s
  | succ fuel ih =>
      rw [State.drainOps]
      split
      · exact .refl network b.ops s
      · next op queue hpop =>
          have hstep := @Drained.push cfg s network b op queue started hpop
          dsimp only
          split
          · exact hstep
          · exact hstep.trans (ih _ _ _)

/-- Between networks the builder is empty. -/
theorem prepareNetwork_drained (acc : State × Nat) (network : NetworkId) :
    Drained network [] acc.1 [] (State.prepareNetwork cfg env acc network).1 := by
  obtain ⟨s, started⟩ := acc
  have hdrain := @drainOps_drained cfg network ((s.ops.contents network).length + 1)
    (BatchBuilder.new (env.networks.batchGasLimit network)) s started
  simp only [State.prepareNetwork]
  revert hdrain
  rcases State.drainOps cfg network ((s.ops.contents network).length + 1)
    (BatchBuilder.new (env.networks.batchGasLimit network)) s started with ⟨b, s₁, started₁⟩
  intro hdrain
  exact hdrain.trans (.takeBatch b started₁)

/-! ## Runs -/

/-- The steps that concern ops; only ops that are `ok` are pushed. -/
inductive OpStep (cfg : Config) (ok : GatewayOp → Prop) : State → State → Prop
  | push {s : State} (network : NetworkId) {op : GatewayOp} :
      ok op → OpStep cfg ok s (s.pushOp network op)
  | prepare {s : State} (env : Env) (started : Nat) (network : NetworkId) :
      OpStep cfg ok s (State.prepareNetwork cfg env (s, started) network).1
  | frame {s s' : State} : SameOps s s' → OpStep cfg ok s s'

abbrev OpSteps (cfg : Config) (ok : GatewayOp → Prop) : State → State → Prop :=
  ReflTransGen (OpStep cfg ok)

/-- The messages a call reports as received. -/
def Input.receivedMessages (i : Input) : List GmpMessage :=
  match i.call with
  | .submitTaskResult _ _ (.readGatewayEvents events _) => Timechain.receivedMessages events.val
  | .submitGmpEvents _ _ events => Timechain.receivedMessages events.val
  | _ => []

variable {ok : GatewayOp → Prop}

theorem processEvent_opSteps (network : NetworkId) (taskId : TaskId) (s : State)
    {event : GmpEvent} (h : ∀ msg, event = .messageReceived msg → ok (.sendMessage msg)) :
    OpSteps cfg ok s (State.processEvent cfg network taskId s event) := by
  cases event with
  | messageReceived msg =>
      have hframe : OpStep cfg ok s { s with
          processedEvents := s.processedEvents ++ [(network, taskId, .messageReceived msg)] } :=
        .frame ⟨rfl, rfl, rfl⟩
      exact .head hframe (.head (.push msg.destNetwork (h msg rfl))
        (.single (.frame ⟨rfl, rfl, rfl⟩)))
  | batchExecuted batchId txHash =>
      refine .single (.frame ?_)
      unfold State.processEvent
      dsimp only
      cases hb : s.batchTaskId.get batchId with
      | none => cases txHash <;> exact ⟨rfl, rfl, rfl⟩
      | some t =>
          have hfin := SameOps.finishTask { s with
            processedEvents := s.processedEvents
              ++ [(network, taskId, .batchExecuted batchId txHash)]
            pendingBatches := s.pendingBatches.remove batchId } network t (.ok ())
          cases txHash <;> exact ⟨hfin.toOpStore, hfin.startedBatches, hfin.batchIdCounter⟩
  | _ => exact .single (.frame ⟨rfl, rfl, rfl⟩)

theorem processEvents_opSteps (network : NetworkId) (taskId : TaskId) (s : State)
    {events : List GmpEvent} (h : ∀ msg ∈ receivedMessages events, ok (.sendMessage msg)) :
    OpSteps cfg ok s (s.processEvents cfg network taskId events) := by
  induction events generalizing s with
  | nil => exact .refl
  | cons event events ih =>
      refine (processEvent_opSteps network taskId s fun msg heq => h msg ?_).trans
        (ih _ fun msg hmem => h msg ?_)
      · simp [receivedMessages, heq]
      · cases event with
        | messageReceived m => exact List.mem_cons_of_mem m hmem
        | _ => exact hmem

theorem removeTask_sameOps {origin : Origin} {taskId : TaskId}
    (h : s.removeTask cfg origin taskId = .ok s') : SameOps s s' := by
  obtain ⟨-, -, h⟩ := bind_ok h
  split at h
  · cases h
    cases htask : s.tasks.get taskId with
    | none => exact ⟨rfl, rfl, rfl⟩
    | some task =>
        cases task with
        | readGatewayEvents blocks => exact ⟨rfl, rfl, rfl⟩
        | submitGatewayMessage batchId =>
            simp only [State.forgetBatch]
            cases s.batchMessage.get batchId with
            | none => exact ⟨rfl, rfl, rfl⟩
            | some msg =>
                have hfold := SameOps.foldl (@SameOps.forgetOp cfg) msg.ops
                  { s with
                    taskOutput := s.taskOutput.remove taskId
                    tasks := s.tasks.remove taskId
                    batchMessage := s.batchMessage.remove batchId }
                exact ⟨hfold.toOpStore, hfold.startedBatches, hfold.batchIdCounter⟩
  · cases h

theorem prepareBatches_opSteps (s : State) : OpSteps cfg ok s (s.prepareBatches cfg env).1 := by
  have hfold : ∀ (networks : List NetworkId) (acc : State × Nat),
      OpSteps cfg ok acc.1 (networks.foldl (State.prepareNetwork cfg env) acc).1 := by
    intro networks
    induction networks with
    | nil => exact fun _ => .refl
    | cons network networks ih =>
        exact fun acc => .head (.prepare env acc.2 network) (ih _)
  exact hfold _ (s, 0)

theorem acceptEvents_opSteps (s : State) (network : NetworkId) (taskId : TaskId)
    (blocks : BlockRange) {events : List GmpEvent}
    (h : ∀ msg ∈ receivedMessages events, ok (.sendMessage msg)) :
    OpSteps cfg ok s (s.acceptEvents cfg env network taskId blocks events) := by
  refine .head (.frame ((SameOps.advanceSync s network blocks).trans (.readNext _ env network))) ?_
  refine ReflTransGen.trans (processEvents_opSteps network taskId _ h) ?_
  simp only [State.acceptEvents]
  split
  · exact .refl
  · exact .single (.frame (.finishTask ..))

/-- Every call is a sequence of pushes and passes of `prepare_batches`. -/
theorem exec_opSteps {i : Input} (hmsg : ∀ msg ∈ i.receivedMessages, ok (.sendMessage msg))
    (honline : ∀ {shard network}, i.call = .shardOnline shard network →
      ∀ key, ok (.registerShard key))
    (hoffline : ∀ {shard network}, i.call = .shardOffline shard network →
      ∀ key, ok (.unregisterShard key))
    (h : exec cfg s i = some s') : OpSteps cfg ok s s' := by
  obtain ⟨env, call⟩ := i
  cases exec_ends h with
  | idle => exact .refl
  | onInitialize hrun =>
      have hassign := scheduleTasks_assigning hrun
      exact (prepareBatches_opSteps s).tail
        (.frame (.of_stores hassign.toOpStore hassign.toBatchStore))
  | @acceptEvents _ taskId blocks _ network _ _ _ _ =>
      exact acceptEvents_opSteps s network taskId blocks hmsg
  | @acceptError _ taskId batchId _ network error _ _ =>
      have hfin := SameOps.finishTask { s with
        pendingBatches := s.pendingBatches.remove batchId
        failedBatchIds := s.failedBatchIds.insert batchId () } network taskId (.error error)
      exact .single (.frame ⟨hfin.toOpStore, hfin.startedBatches, hfin.batchIdCounter⟩)
  | @submitGmpEvents _ network _ _ =>
      exact .head (.frame (.foldl SameOps.reopenBatch _ s)) (processEvents_opSteps network 0 _ hmsg)
  | syncNetwork => exact .single (.frame ⟨rfl, rfl, rfl⟩)
  | stopNetwork => exact .single (.frame ⟨rfl, rfl, rfl⟩)
  | removeTask _ hok => exact .single (.frame (removeTask_sameOps hok))
  | restartBatch hok =>
      obtain ⟨-, -, hok⟩ := bind_ok hok
      obtain ⟨oldTaskId, -, hok⟩ := bind_ok hok
      obtain ⟨network, -, hok⟩ := bind_ok hok
      cases hok
      exact .single (.frame ⟨rfl, rfl, rfl⟩)
  | @shardOnline shard network =>
      have hframe : OpStep cfg ok s
          { s with networkShards := s.networkShards.insert (network, shard) () } :=
        .frame ⟨rfl, rfl, rfl⟩
      unfold State.shardOnline
      dsimp only
      split
      · split
        · exact .head hframe (.single (.push network (honline rfl _)))
        · exact .single hframe
      · exact .single hframe
  | @shardOffline shard network =>
      have hrelease := SameOps.foldl
        (SameOps.releaseTask network shard (s.readEventsTask.get network))
        ((s.shardTasks.iterPrefix cfg.taskKey shard).map Prod.fst)
        { s with networkShards := s.networkShards.remove (network, shard) }
      unfold State.shardOffline
      dsimp only
      split
      · refine .head (.frame ?_) (.single (.push network (hoffline rfl _)))
        exact ⟨hrelease.toOpStore, hrelease.startedBatches, hrelease.batchIdCounter⟩
      · exact .single (.frame
          ⟨hrelease.toOpStore, hrelease.startedBatches, hrelease.batchIdCounter⟩)
  | gatewayRegistered => exact .single (.frame ⟨rfl, rfl, rfl⟩)

/-- The pushes of a sequence of steps. -/
theorem OpSteps.pushedOps (h : OpSteps cfg ok s s') :
    ∃ new, s'.pushedOps = s.pushedOps ++ new ∧ ∀ push ∈ new, ok push.2 := by
  induction h with
  | refl => exact ⟨[], (List.append_nil _).symm, by simp⟩
  | tail _ hstep ih =>
      obtain ⟨new, heq, hnew⟩ := ih
      cases hstep with
      | @push network op hop =>
          refine ⟨new ++ [(network, op)], ?_, fun push hpush => ?_⟩
          · rw [← List.append_assoc, ← heq]
            rfl
          · rcases List.mem_append.mp hpush with hpush | hpush
            · exact hnew push hpush
            · rw [List.mem_singleton.mp hpush]
              exact hop
      | prepare env started network =>
          exact ⟨new, (prepareNetwork_drained _ network).pushedOps.trans heq, hnew⟩
      | frame hsame => exact ⟨new, (congrArg OpStore.pushedOps hsame.toOpStore).trans heq, hnew⟩

/-- A shard that goes offline is to be unregistered, if it has a key. -/
theorem shardOffline_pushedOps (s : State) (shard : ShardId) (network : NetworkId) :
    (s.shardOffline cfg env shard network).pushedOps = s.pushedOps ++
      match env.shards.tssPublicKey shard with
      | some key => [(network, .unregisterShard key)]
      | none => [] := by
  have hrelease := SameOps.foldl
    (SameOps.releaseTask network shard (s.readEventsTask.get network))
    ((s.shardTasks.iterPrefix cfg.taskKey shard).map Prod.fst)
    { s with networkShards := s.networkShards.remove (network, shard) }
  have hpushed := congrArg OpStore.pushedOps hrelease.toOpStore
  unfold State.shardOffline
  dsimp only
  cases env.shards.tssPublicKey shard with
  | some key => exact congrArg (· ++ [(network, GatewayOp.unregisterShard key)]) hpushed
  | none => exact hpushed.trans (List.append_nil _).symm

/-- A shard that comes online is to be registered, if there is a gateway. -/
theorem shardOnline_pushedOps (s : State) (shard : ShardId) (network : NetworkId)
    {key : TssPublicKey} (hkey : env.shards.tssPublicKey shard = some key) :
    (s.shardOnline env shard network).pushedOps = s.pushedOps ++
      if (env.networks.gateway network).isSome then [(network, .registerShard key)] else [] := by
  unfold State.shardOnline
  dsimp only
  split
  · rw [hkey]
    rfl
  · exact (List.append_nil _).symm

/-- What is known about ops in every reachable state. The FIFO law needs
room in the queue indices. -/
structure OpsOk (s : State) : Prop where
  numbered : Numbered s
  insert_le : ∀ network, s.ops.insertI network ≤ s.pushedOps.length
  fifo : s.pushedOps.length < 2 ^ 64 → ∀ network,
    s.batchedOps network ++ s.ops.contents network = s.opsPushedTo network

theorem OpsOk.push (h : OpsOk s) (network : NetworkId) (op : GatewayOp) :
    OpsOk (s.pushOp network op) := by
  have hlen : (s.pushOp network op).pushedOps.length = s.pushedOps.length + 1 := by
    simp [State.pushOp]
  refine ⟨⟨h.numbered.counter, h.numbered.ids, h.numbered.nonempty⟩, fun m => ?_, fun hb m => ?_⟩
  · have hle := h.insert_le m
    rw [hlen]
    by_cases hm : m = network
    · subst hm
      show (s.ops.push m op).insertI m ≤ _
      rw [QueueImpl.insertI_push_self]
      exact Nat.le_trans (satAdd_le ..) (Nat.add_le_add_right hle 1)
    · show (s.ops.push network op).insertI m ≤ _
      rw [QueueImpl.insertI_push_of_ne _ _ hm]
      exact Nat.le_succ_of_le hle
  · rw [hlen] at hb
    have hfifo := h.fifo (by omega) m
    show s.batchedOps m ++ (s.ops.push network op).contents m
      = ((s.pushedOps ++ [(network, op)]).filter fun push => push.1 = m).map Prod.snd
    rw [List.filter_append, List.map_append]
    by_cases hm : m = network
    · subst hm
      have hroom : s.ops.insertI m < maxVal 64 := by
        have := h.insert_le m
        simp only [maxVal]
        omega
      rw [QueueImpl.contents_push_self _ _ hroom, ← List.append_assoc, hfifo]
      simp [State.opsPushedTo]
    · rw [QueueImpl.contents_push_of_ne _ _ hm, hfifo]
      simp [State.opsPushedTo, Ne.symm hm]

theorem OpsOk.prepare (h : OpsOk s) (started : Nat) (network : NetworkId) :
    OpsOk (State.prepareNetwork cfg env (s, started) network).1 := by
  have hdrain := @prepareNetwork_drained cfg env (s, started) network
  refine ⟨hdrain.numbered h.numbered, fun m => ?_, fun hlen m => ?_⟩
  · rw [hdrain.insertI, hdrain.pushedOps]
    exact h.insert_le m
  · have hpushed : ∀ m, (State.prepareNetwork cfg env (s, started) network).1.opsPushedTo m
        = s.opsPushedTo m := fun m => by
      simp only [State.opsPushedTo, hdrain.pushedOps]
    rw [hdrain.pushedOps] at hlen
    rw [hpushed, ← h.fifo hlen m]
    by_cases hm : m = network
    · subst hm
      exact hdrain.fifo
    · rw [(hdrain.others hm).1, (hdrain.others hm).2]

theorem OpsOk.step (h : OpsOk s) (hstep : OpStep cfg ok s s') : OpsOk s' := by
  cases hstep with
  | @push network op _ => exact h.push network op
  | prepare env started network => exact h.prepare started network
  | frame hsame =>
      have hops : s'.ops = s.ops := congrArg OpStore.ops hsame.toOpStore
      have hpushed : s'.pushedOps = s.pushedOps := congrArg OpStore.pushedOps hsame.toOpStore
      refine ⟨⟨?_, ?_, ?_⟩, fun m => ?_, fun hb m => ?_⟩
      · rw [hsame.batchIdCounter, hsame.startedBatches]
        exact h.numbered.counter
      · rw [hsame.startedBatches]
        exact h.numbered.ids
      · rw [hsame.startedBatches]
        exact h.numbered.nonempty
      · rw [hops, hpushed]
        exact h.insert_le m
      · rw [State.batchedOps, State.opsPushedTo, hops, hpushed, hsame.startedBatches]
        rw [hpushed] at hb
        exact h.fifo hb m

theorem run_opsOk {ok : State → Input → Prop} {is : List Input}
    (h : Run (exec cfg) ok State.genesis is s) : OpsOk s := by
  refine Run.invariant (P := fun _ s => OpsOk s) ?_ ?_ h
  · exact ⟨⟨rfl, rfl, fun _ hb => nomatch hb⟩, fun _ => Nat.le_refl 0, fun _ _ => rfl⟩
  · rintro is s i s' - hs - hexec
    have hsteps : OpSteps cfg (fun _ => True) s s' :=
      exec_opSteps (fun _ _ => trivial) (fun _ _ => trivial) (fun _ _ => trivial) hexec
    clear hexec
    induction hsteps with
    | refl => exact hs
    | tail _ hstep ih => exact ih.step hstep

/-! ### Batch ids are fresh -/

theorem count_batchedOps (batches : List (NetworkId × BatchId × GatewayMessage))
    (network : NetworkId) (op : GatewayOp) :
    (batches.flatMap fun batch => batch.2.2.ops.map fun o => (batch.1, o)).count (network, op)
      = ((batches.filter fun batch => batch.1 = network).flatMap
          fun batch => batch.2.2.ops).count op := by
  induction batches with
  | nil => rfl
  | cons batch batches ih =>
      obtain ⟨n, id, msg⟩ := batch
      rw [List.flatMap_cons, List.count_append, ih, List.filter_cons]
      by_cases hn : n = network
      · subst hn
        simp only [decide_true, if_true, List.flatMap_cons, List.count_append]
        rw [List.count_map_of_injective _ _ (Prod.mk_right_injective n)]
      · simp only [hn, decide_false, Bool.false_eq_true, if_false]
        rw [List.count_eq_zero_of_not_mem, Nat.zero_add]
        intro hmem
        obtain ⟨o, -, heq⟩ := List.mem_map.mp hmem
        exact hn (Prod.mk.injEq .. |>.mp heq).1

theorem count_pushedOps (pushes : List (NetworkId × GatewayOp)) (network : NetworkId)
    (op : GatewayOp) :
    pushes.count (network, op)
      = ((pushes.filter fun push => push.1 = network).map Prod.snd).count op := by
  induction pushes with
  | nil => rfl
  | cons push pushes ih =>
      obtain ⟨n, o⟩ := push
      rw [List.count_cons, ih, List.filter_cons]
      by_cases hn : n = network
      · subst hn
        simp [List.count_cons]
      · simp [hn]

/-- There are no more batches than ops: every batch has an op of its own. -/
theorem started_le_pushed (h : OpsOk s) (hpushed : s.pushedOps.length < 2 ^ 64) :
    s.startedBatches.length ≤ s.pushedOps.length := by
  have hsub : List.Subperm
      (s.startedBatches.flatMap fun batch => batch.2.2.ops.map fun o => (batch.1, o))
      s.pushedOps := by
    rw [List.subperm_ext_iff]
    rintro ⟨network, op⟩ -
    rw [count_batchedOps, count_pushedOps]
    have hfifo : _ ++ _ = _ := h.fifo hpushed network
    rw [State.batchedOps, State.opsPushedTo] at hfifo
    rw [← hfifo, List.count_append]
    exact Nat.le_add_right ..
  refine Nat.le_trans ?_ hsub.length_le
  have hne := h.numbered.nonempty
  generalize s.startedBatches = batches at hne
  induction batches with
  | nil => exact Nat.le_refl 0
  | cons batch batches ih =>
      have hpos : 0 < batch.2.2.ops.length :=
        List.length_pos_iff.mpr (hne batch (List.mem_cons_self ..))
      have := ih fun b hb => hne b (List.mem_cons_of_mem _ hb)
      rw [List.flatMap_cons, List.length_append, List.length_map, List.length_cons]
      omega

/-- **Ops are batched first-in first-out** in any run that pushes fewer
than 2^64 ops: the batches of a network followed by its queue are all
ops pushed for it, no batch is empty, and no two share an id. -/
theorem ops_batched_fifo {is : List Input}
    (h : Run (exec cfg) (fun _ _ => True) State.genesis is s)
    (hpushed : s.pushedOps.length < 2 ^ 64) :
    (∀ network, s.batchedOps network ++ s.ops.contents network = s.opsPushedTo network) ∧
    (∀ batch ∈ s.startedBatches, batch.2.2.ops ≠ []) ∧
    (s.startedBatches.map fun batch => batch.2.1).Nodup := by
  have hok := run_opsOk h
  refine ⟨hok.fifo hpushed, hok.numbered.nonempty, ?_⟩
  rw [hok.numbered.ids]
  have hle := started_le_pushed hok hpushed
  refine List.Nodup.map_on (fun i hi j hj heq => ?_) List.nodup_range
  rw [List.mem_range] at hi hj
  have hmin : min i (2 ^ 64 - 1) = min j (2 ^ 64 - 1) := heq
  omega

/-- One registration batched, another one queued. -/
def batchedCalls : List Call :=
  [.gatewayRegistered 0 0, .shardOnline 0 0, .onInitialize, .shardOnline 2 0]

theorem ops_batched_fifo_registration :
    (exampleState batchedCalls).batchedOps 0 = [.registerShard (exampleKey 0)] ∧
      (exampleState batchedCalls).batchedOps 0 ++ (exampleState batchedCalls).ops.contents 0
        = (exampleState batchedCalls).opsPushedTo 0 := by
  have hrun : PalletRun exampleConfig exampleHome (fun _ _ => True)
      (batchedCalls.map exampleInput) (exampleState batchedCalls) :=
    exampleState_run (by decide +kernel) (fun _ _ _ => trivial) (by decide +kernel)
  exact ⟨by decide +kernel,
    (ops_batched_fifo (hrun.mono fun _ _ _ => trivial) (by decide +kernel)).1 0⟩

/-! ## The limit on batches per block -/

/-- The number of batches started once a network that can fill `d`
batches has been passed, `c` of them before it. The loop stops at
`last`, the flush adds one; past `last` nothing stops the loop. -/
def passCount (last c d : Nat) : Nat := if last < c then c + d else min (c + d) (last + 1)

/-- `c` batches were started on top of the first `base`; the source's own
counter saturates. -/
structure Tally (base : Nat) (s : State) (started c : Nat) : Prop where
  length : s.startedBatches.length = base + c
  started : started = min c (maxVal 32)

theorem Tally.startBatch {base started c : Nat} (h : Tally base s started c)
    (msg : GatewayMessage) :
    Tally base (s.startBatch cfg network msg) (satSucc 32 started) (c + 1) := by
  refine ⟨?_, ?_⟩
  · rw [(startBatch_ops s network msg).2.1, List.length_append, h.length]
    rfl
  · rw [h.started]
    exact satSucc_min ..

theorem Tally.takeBatch {base started c : Nat} (h : Tally base s started c) (b : BatchBuilder) :
    Tally base (s.startBatch? cfg network b.takeBatch.1 started).1
      (s.startBatch? cfg network b.takeBatch.1 started).2
      (c + (pack b.batchGasLimit b.ops []).length) := by
  rcases b.takeBatch_cases with ⟨hnone, hnil, -⟩ | ⟨hsome, hne, -⟩
  · rw [hnone, hnil]
    exact h
  · rw [hsome, length_pack hne]
    exact h.startBatch _

/-- One round of the loop: what can still be started does not change. An
open batch at the limit would have stopped the loop, hence `hopen`. -/
theorem Tally.push {base started c last : Nat} (h : Tally base s started c) {b : BatchBuilder}
    (hb : b.gas = 0) (hopen : c = last → b.ops = []) (op : GatewayOp) (rest : List GatewayOp) :
    ∃ c₁, Tally base (s.startBatch? cfg network (b.push op).1 started).1
        (s.startBatch? cfg network (b.push op).1 started).2 c₁ ∧
      (b.push op).2.ops ≠ [] ∧
      passCount last c₁ (pack b.batchGasLimit (b.push op).2.ops rest).length
        = passCount last c (pack b.batchGasLimit b.ops (op :: rest)).length := by
  rw [BatchBuilder.push_eq hb, pack]
  by_cases hclose : b.batchGasLimit < op.gas ∧ b.ops ≠ []
  · have hne : c ≠ last := fun hc => hclose.2 (hopen hc)
    rw [if_pos hclose, if_pos hclose, List.length_cons]
    refine ⟨c + 1, h.startBatch _, List.cons_ne_nil _ _, ?_⟩
    simp only [passCount]
    split <;> split <;> omega
  · rw [if_neg hclose, if_neg hclose]
    exact ⟨c, h, by simp, rfl⟩

/-- The loop and the flush of one network. -/
theorem drainOps_tally {base started c : Nat} {b : BatchBuilder} (hb : b.gas = 0)
    (h : Tally base s started c) (hopen : c = cfg.maxBatchesPerBlock - 1 → b.ops = []) {fuel : Nat}
    (hfuel : (s.ops.contents network).length < fuel) {b' : BatchBuilder} {started' : Nat}
    (hdrain : State.drainOps cfg network fuel b s started = (b', s', started')) :
    Tally base (s'.startBatch? cfg network b'.takeBatch.1 started').1
      (s'.startBatch? cfg network b'.takeBatch.1 started').2
      (passCount (cfg.maxBatchesPerBlock - 1) c
        (pack b.batchGasLimit b.ops (s.ops.contents network)).length) := by
  have hmax := cfg.maxBatchesPerBlock_lt
  induction fuel generalizing b s started c with
  | zero => cases hfuel
  | succ fuel ih =>
      rw [State.drainOps] at hdrain
      split at hdrain
      · next queue hpop =>
          simp only [Prod.mk.injEq] at hdrain
          obtain ⟨rfl, rfl, rfl⟩ := hdrain
          rw [QueueImpl.contents_of_pop_none hpop]
          convert h.takeBatch b using 1
          by_cases hp : b.ops = []
          · simp only [hp, pack, if_true, List.length_nil, passCount]
            split <;> omega
          · have hne : c ≠ cfg.maxBatchesPerBlock - 1 := fun hc => hp (hopen hc)
            simp only [length_pack hp, List.countP_nil, passCount]
            split <;> omega
      · next op queue hpop =>
          have hcons := QueueImpl.pop_cons hpop
          have hqueue : ({ s with ops := queue }.startBatch? cfg network (b.push op).1 started).1.ops
              = queue := by
            cases (b.push op).1 with
            | none => rfl
            | some msg => exact congrArg OpStore.ops (startBatch_ops _ network msg).1
          obtain ⟨c₁, h₁, hne, hcount⟩ :=
            @Tally.push cfg { s with ops := queue } network base started c
              (cfg.maxBatchesPerBlock - 1) ⟨h.length, h.started⟩ b hb hopen op
              (queue.contents network)
          have hstarted := h₁.started
          rw [hcons] at hfuel ⊢
          rw [← hcount]
          dsimp only at hdrain
          split at hdrain
          · next hstop =>
              -- the loop stops at the limit, and the flush starts one more batch
              simp only [Prod.mk.injEq] at hdrain
              obtain ⟨rfl, rfl, rfl⟩ := hdrain
              obtain rfl : c₁ = cfg.maxBatchesPerBlock - 1 := by
                rw [hstop] at hstarted
                simp only [maxVal] at hstarted
                omega
              convert h₁.takeBatch _ using 1
              simp only [length_pack hne, List.countP_nil, passCount]
              split <;> omega
          · next hgo =>
              rw [← hqueue]
              refine BatchBuilder.push_limit hb op ▸ ih (BatchBuilder.push_gas hb op) h₁ ?_ ?_ hdrain
              · intro hc
                refine absurd ?_ hgo
                rw [hstarted, hc, maxVal]
                omega
              · rw [hqueue]
                exact Nat.lt_of_succ_lt_succ hfuel

/-- The batches the ops of `network` fill. -/
def State.demand (s : State) (env : Env) (network : NetworkId) : Nat :=
  Timechain.demand (env.networks.batchGasLimit network) (s.ops.contents network)

theorem prepareNetwork_tally {base started c : Nat} (h : Tally base s started c)
    (network : NetworkId) :
    Tally base (State.prepareNetwork cfg env (s, started) network).1
      (State.prepareNetwork cfg env (s, started) network).2
      (passCount (cfg.maxBatchesPerBlock - 1) c (s.demand env network)) := by
  rw [State.demand, ← length_pack_nil]
  exact @drainOps_tally cfg s _ network base started c
    (.new (env.networks.batchGasLimit network)) rfl h (fun _ => rfl) _ (Nat.lt_succ_self _) _ _ rfl

theorem foldl_prepareNetwork_tally {base started c : Nat} (networks : List NetworkId)
    (hnodup : networks.Nodup) (h : Tally base s started c) :
    Tally base (networks.foldl (State.prepareNetwork cfg env) (s, started)).1
      (networks.foldl (State.prepareNetwork cfg env) (s, started)).2
      (networks.foldl (fun c network =>
        passCount (cfg.maxBatchesPerBlock - 1) c (s.demand env network)) c) := by
  induction networks generalizing s started c with
  | nil => exact h
  | cons network networks ih =>
      obtain ⟨hnot, hnodup⟩ := List.nodup_cons.mp hnodup
      rw [List.foldl_cons, List.foldl_cons]
      convert ih hnodup (prepareNetwork_tally h network) using 1
      -- the pass leaves the queues of the networks after it alone
      refine List.foldl_ext _ _ _ fun c m hm => ?_
      have hother := (@prepareNetwork_drained cfg env (s, started) network).others
        (ne_of_mem_of_not_mem hm hnot)
      rw [State.demand, State.demand, hother.2]

theorem le_foldl_passCount {α : Type} (d : α → Nat) (last : Nat) (l : List α) {c : Nat}
    (hlt : last < c) :
    c ≤ l.foldl (fun c a => passCount last c (d a)) c := by
  induction l generalizing c with
  | nil => exact Nat.le_refl c
  | cons a l ih =>
      have hpass : passCount last c (d a) = c + d a := if_pos hlt
      rw [List.foldl_cons, hpass]
      exact Nat.le_trans (Nat.le_add_right ..) (ih (Nat.lt_add_right _ hlt))

/-- The count stays at the limit exactly when nothing is left to start
once it is reached. -/
theorem foldl_passCount_le_iff {α : Type} (d : α → Nat) (last : Nat) (l : List α) {c : Nat}
    (hc : c ≤ last + 1) :
    l.foldl (fun c a => passCount last c (d a)) c ≤ last + 1 ↔
      ∀ pre a post, l = pre ++ a :: post → 0 < d a → c + (pre.map d).sum < last + 1 := by
  induction l generalizing c with
  | nil => simp [hc]
  | cons a l ih =>
      rw [List.foldl_cons]
      by_cases hlt : last < c
      · by_cases hd : d a = 0
        · rw [hd, passCount, if_pos hlt, Nat.add_zero, ih hc]
          refine ⟨fun hall pre a' post heq hpos => ?_, fun hall pre a' post heq hpos => ?_⟩
          · rcases List.cons_eq_append_iff.mp heq with ⟨rfl, heq⟩ | ⟨pre, rfl, htail⟩
            · cases heq
              omega
            · simpa [hd] using hall pre a' post htail hpos
          · simpa [hd] using hall (a :: pre) a' post (by rw [heq]; rfl) hpos
        · -- the limit is reached and `a` has something to start
          refine ⟨fun hle => ?_, fun hall => ?_⟩
          · have hpass : passCount last c (d a) = c + d a := if_pos hlt
            have hgrow := le_foldl_passCount d last l (Nat.lt_add_right (d a) hlt)
            rw [hpass] at hle
            omega
          · have := hall [] a l rfl (by omega)
            simp only [List.map_nil, List.sum_nil] at this
            omega
      · have hpass : passCount last c (d a) = min (c + d a) (last + 1) := by
          rw [passCount, if_neg hlt]
        rw [hpass, ih (Nat.min_le_right ..)]
        refine ⟨fun hall pre a' post heq hpos => ?_, fun hall pre a' post heq hpos => ?_⟩
        · rcases List.cons_eq_append_iff.mp heq with ⟨rfl, -⟩ | ⟨pre, rfl, htail⟩
          · simp only [List.map_nil, List.sum_nil]
            omega
          · have := hall pre a' post htail hpos
            rw [List.map_cons, List.sum_cons]
            omega
        · have := hall (a :: pre) a' post (by rw [heq]; rfl) hpos
          rw [List.map_cons, List.sum_cons] at this
          omega

theorem demand_pos_iff {limit : Nat} {ops : List GatewayOp} : 0 < demand limit ops ↔ ops ≠ [] := by
  cases ops with
  | nil => simp [demand]
  | cons op ops =>
      rw [demand]
      exact ⟨fun _ => List.cons_ne_nil _ _, fun _ => Nat.add_pos_left Nat.one_pos _⟩

/-- **When the per-block limit holds.** A call starts at most
`max(1, MaxBatchesPerBlock)` batches exactly when every network with
queued ops comes before the limit is reached by those in front of it. -/
theorem prepareBatches_limit_iff (s : State) (cfg : Config) (env : Env) :
    (s.prepareBatches cfg env).1.startedBatches.length
        ≤ s.startedBatches.length + max 1 cfg.maxBatchesPerBlock ↔
      ∀ pre network post,
        (s.readEventsTask.iter cfg.networkKey).map Prod.fst = pre ++ network :: post →
        s.ops.contents network ≠ [] →
        (pre.map (s.demand env)).sum < max 1 cfg.maxBatchesPerBlock := by
  have htally := @foldl_prepareNetwork_tally cfg env s s.startedBatches.length 0 0
    ((s.readEventsTask.iter cfg.networkKey).map Prod.fst) (s.readEventsTask.iter_keys_nodup _)
    ⟨rfl, rfl⟩
  have hlast : max 1 cfg.maxBatchesPerBlock = cfg.maxBatchesPerBlock - 1 + 1 := by omega
  rw [State.prepareBatches, htally.length, Nat.add_le_add_iff_left, hlast,
    foldl_passCount_le_iff _ _ _ (Nat.zero_le _)]
  simp only [State.demand, demand_pos_iff, Nat.zero_add]

/-- Ten expensive messages for network 0 and one for network 1. -/
def expensiveCalls : List Call :=
  [.gatewayRegistered 0 0, .gatewayRegistered 1 0] ++
    (List.range 10).map (fun i => exampleEvent 0 (.messageReceived (exampleMessage 0 i))) ++
    [exampleEvent 0 (.messageReceived (exampleMessage 1 10))]

/-- Eleven batches in one block, under a limit of ten. -/
theorem eleven_batches_in_one_block :
    ¬∀ (s : State) (cfg : Config) (env : Env),
      (s.prepareBatches cfg env).1.startedBatches.length
        ≤ s.startedBatches.length + max 1 cfg.maxBatchesPerBlock := by
  intro hall
  have hcount : (State.prepareBatches (exampleState expensiveCalls) exampleConfig
      exampleEnv).1.startedBatches.length = 11 := by decide +kernel
  have hnone : (exampleState expensiveCalls).startedBatches.length = 0 := by decide +kernel
  have hle := hall (exampleState expensiveCalls) exampleConfig exampleEnv
  rw [hcount, hnone] at hle
  exact absurd hle (by decide)

end Tasks

end Timechain
