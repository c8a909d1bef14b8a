import Timechain.TasksBatches

/-!
# Batches and their tasks

Two results about the batches of every run. In runs that restart batches
and remove tasks only once they are settled, an unfinished task is the
task of its batch (`run_linked`). In runs in which no shard reports a
batch executed after it has failed, and no error is accepted for a batch
whose task has finished, an executed batch is neither pending nor failed
until it is restarted (`executed_settled`).

The pallet checks none of this: removing the failed task of a restarted
batch takes the batch away from its new task (`removed_not_linked`), and
a batch that fails before its execution is reported stays failed
(`executed_failed`).
-/

namespace Timechain

namespace Tasks

open Docket (Move)

/-- The batch has no unfinished task. -/
def State.isIdle (s : State) (batchId : BatchId) : Bool :=
  match s.batchTaskId.get batchId with
  | some taskId => s.taskOutput.containsKey taskId
  | none => true

theorem isIdle_iff {s : State} {batchId : BatchId} :
    s.isIdle batchId = true ↔ (docket s).Idle batchId := by
  unfold State.isIdle
  constructor
  · intro h t ht
    have ht : s.batchTaskId.get batchId = some t := ht
    rw [ht] at h
    exact StorageMap.containsKey_iff.mp h
  · intro h
    split
    · next t ht => exact StorageMap.containsKey_iff.mpr (h t ht)
    · rfl

/-! ## Unfinished tasks are linked to their batch -/

structure LinkedBatches (s : State) : Prop where
  live : ∀ taskId batchId, s.tasks.get taskId = some (.submitGatewayMessage batchId) →
    s.taskOutput.get taskId = none →
    s.batchMessage.get batchId ≠ none ∧ s.batchTaskId.get batchId = some taskId
  single : ∀ taskId taskId' batchId,
    s.tasks.get taskId = some (.submitGatewayMessage batchId) → s.taskOutput.get taskId = none →
    s.tasks.get taskId' = some (.submitGatewayMessage batchId) → s.taskOutput.get taskId' = none →
    taskId = taskId'
  reported : ∀ batchId,
    s.pendingBatches.get batchId ≠ none ∨ s.failedBatchIds.get batchId ≠ none →
    s.batchMessage.get batchId ≠ none ∧ s.batchTaskId.get batchId ≠ none

/-- A batch is restarted, and a task of it removed, only when the batch
is idle; and no task of a failed batch is removed. -/
def Input.tidy (cfg : Config) (s : State) (i : Input) : Bool :=
  match i.call with
  | .restartBatch origin batchId => !cfg.adminOrigin origin || s.isIdle batchId
  | .removeTask origin taskId =>
      match s.tasks.get taskId with
      | some (.submitGatewayMessage batchId) =>
          !cfg.adminOrigin origin || !s.taskOutput.containsKey taskId ||
            s.isIdle batchId && !s.failedBatchIds.containsKey batchId
      | _ => true
  | _ => true

section Linked

variable {cfg : Config} {is : List Input} {s : State} {i : Input}

theorem tidy_permits (h : i.tidy cfg s = true) : Permits Docket.tidy cfg s i where
  restart {origin batchId s'} hcall hok := by
    obtain ⟨_, hadmin, -⟩ := bind_ok hok
    simp only [Input.tidy, hcall, ensureAdmin_ok hadmin, Bool.not_true, Bool.false_or] at h
    exact isIdle_iff.mp h
  fail _ _ _ _ := trivial
  reopen _ _ _ _ _ := trivial
  remove {origin taskId} hcall hadmin hout := by
    intro batchId hjob
    obtain ⟨task, htask, hsubmit⟩ := Option.map_eq_some_iff.mp hjob
    cases task with
    | readGatewayEvents blocks => cases hsubmit
    | submitGatewayMessage b =>
        cases hsubmit
        simp only [Input.tidy, hcall, htask, hadmin, StorageMap.containsKey_iff.mpr hout,
          Bool.not_true, Bool.false_or, Bool.and_eq_true, Bool.not_eq_true'] at h
        refine ⟨fun hno => hno (StorageMap.containsKey_eq_false.mp h.2), isIdle_iff.mp h.1⟩

theorem linkedBatches_of_docket (hinv : (docket s).Inv) (h : (docket s).Linked) :
    LinkedBatches s := by
  have htask : ∀ {taskId batchId}, s.tasks.get taskId = some (.submitGatewayMessage batchId) →
      s.taskOutput.get taskId = none → s.batchTaskId.get batchId = some taskId :=
    fun ht hopen => h.live (congrArg (Option.map taskJob) ht) fun hdone => hdone hopen
  have hmessage : ∀ {batchId}, s.batchTaskId.get batchId ≠ none →
      s.batchMessage.get batchId ≠ none := fun hb => hinv.message_iff.mpr hb
  refine ⟨fun taskId batchId ht hopen => ?_, fun t t' batchId ht hopen ht' hopen' => ?_,
    fun batchId hb => ?_⟩
  · have hlink := htask ht hopen
    exact ⟨hmessage (by rw [hlink]; exact Option.some_ne_none _), hlink⟩
  · exact Option.some.inj ((htask ht hopen).symm.trans (htask ht' hopen'))
  · have hlink : s.batchTaskId.get batchId ≠ none := by
      rcases hb with hb | hb
      · obtain ⟨t, ht, -⟩ := h.pending hb
        have ht : s.batchTaskId.get batchId = some t := ht
        rw [ht]
        exact Option.some_ne_none t
      · exact h.failed hb
    exact ⟨hmessage hlink, hlink⟩

/-- **Unfinished tasks are linked to their batch.** -/
theorem run_linked
    (h : Run (exec cfg) (fun s i => i.tidy cfg s = true) State.genesis is s)
    (hlen : s.createdTasks.length < 2 ^ 64) : LinkedBatches s := by
  have hgenesis : (docket State.genesis).Linked :=
    ⟨fun ht => absurd ht (by simp [docket, State.genesis]), fun hb => absurd rfl hb,
      fun hb => absurd rfl hb⟩
  obtain ⟨-, hall⟩ := run_docket (P := Docket.Linked) (fun _ hok => tidy_permits hok) hgenesis
    (fun hinv hlinked hmove => hlinked.move hinv hmove) h
  obtain ⟨hinv, hlinked⟩ := hall hlen
  exact linkedBatches_of_docket hinv hlinked

end Linked

/-- A member of the shard reports that a batch failed. -/
def exampleError (taskId : TaskId) : Call :=
  .submitTaskResult (.signed exampleMember) taskId (.submitGatewayMessage ⟨[], Nat.zero_le _⟩)

/-- The batch with the registration fails and is restarted; the new task
submits it, and the old one is removed. -/
def cleanedCalls : List Call :=
  registrationCalls ++ [exampleError 2, .restartBatch .root 0, .onInitialize,
    exampleEvent 0 (.batchExecuted 0 none), .removeTask .root 2]

theorem run_linked_cleaned :
    ((exampleState (cleanedCalls.take 6)).tasks.get 3 = some (.submitGatewayMessage 0) ∧
      LinkedBatches (exampleState (cleanedCalls.take 6))) ∧
    LinkedBatches (exampleState cleanedCalls) := by
  have hrun : Run (exec exampleConfig) (fun s i => i.tidy exampleConfig s = true) State.genesis
      (cleanedCalls.map exampleInput) (exampleState cleanedCalls) :=
    Run.of_guarded (fun _ _ h => h) (by decide +kernel)
  have hshort : Run (exec exampleConfig) (fun s i => i.tidy exampleConfig s = true) State.genesis
      ((cleanedCalls.take 6).map exampleInput) (exampleState (cleanedCalls.take 6)) :=
    Run.of_guarded (fun _ _ h => h) (by decide +kernel)
  exact ⟨⟨by decide +kernel, run_linked hshort (by decide +kernel)⟩,
    run_linked hrun (by decide +kernel)⟩

/-- Removing the failed task of a batch that was restarted takes the
batch away from the new task. -/
theorem removed_not_linked :
    ∃ calls, PalletRun exampleConfig exampleHome (fun _ _ => True) (calls.map exampleInput)
        (exampleState calls) ∧ ¬LinkedBatches (exampleState calls) := by
  refine ⟨registrationCalls ++ [exampleError 2, .restartBatch .root 0, .removeTask .root 2],
    exampleState_run (by decide) (fun _ _ _ => trivial) (by decide +kernel), fun h => ?_⟩
  have hlive := (h.live 3 0 (by decide +kernel)
    (StorageMap.containsKey_eq_false.mp (by decide +kernel))).1
  exact hlive (StorageMap.containsKey_eq_false.mp (by decide +kernel))

/-! ## Executed batches -/

/-- Events report only batches that were started; those a shard reports
have not failed; and an error is reported only for a batch whose own task
is unfinished. -/
def Input.steady (cfg : Config) (s : State) (i : Input) : Bool :=
  match i.call with
  | .submitTaskResult origin taskId result =>
      !(s.submitTaskResult cfg i.env origin taskId result).isOk ||
        s.taskOutput.containsKey taskId ||
        match result with
        | .readGatewayEvents events _ => (executedBatches events.val).all fun batchId =>
            decide (batchId < s.batchIdCounter) && !s.failedBatchIds.containsKey batchId
        | .submitGatewayMessage _ =>
            match s.tasks.get taskId with
            | some (.submitGatewayMessage batchId) => !s.isIdle batchId
            | _ => true
  | .submitGmpEvents origin _ events =>
      !cfg.adminOrigin origin ||
        (executedBatches events.val).all fun batchId => decide (batchId < s.batchIdCounter)
  | _ => true

/-- The call restarts the batch. -/
def Input.restarts (cfg : Config) (batchId : BatchId) (s : State) (i : Input) : Bool :=
  match i.call with
  | .restartBatch origin b => b == batchId && (s.restartBatch cfg origin b).isOk
  | _ => false

/-- Between the two states the pallet processed that the batch was executed. -/
def ExecutedIn (s s' : State) (batchId : BatchId) : Prop :=
  ∃ network taskId txHash, (network, taskId, GmpEvent.batchExecuted batchId txHash) ∈
    s'.processedEvents.drop s.processedEvents.length

section Processed

variable {cfg : Config} {s s' : State} {i : Input}

/-- How a call processes events. -/
inductive Processes (cfg : Config) (s : State) (i : Input) (s' : State) : Prop
  | none : s'.processedEvents = s.processedEvents → Processes cfg s i s'
  | report {origin taskId blocks shard network events signature} :
      i.call = .submitTaskResult origin taskId (.readGatewayEvents events signature) →
      s.submitTaskResult cfg i.env origin taskId (.readGatewayEvents events signature) = .ok s' →
      AcceptsEvents cfg i.env s taskId blocks shard network events signature →
      s' = s.acceptEvents cfg i.env network taskId blocks events.val → Processes cfg s i s'
  | root {origin network events} : i.call = .submitGmpEvents origin network events →
      cfg.adminOrigin origin = true →
      s' = ((executedBatches events.val).foldl State.reopenBatch s).processEvents cfg network 0
        events.val → Processes cfg s i s'

theorem startBatch_processed (s : State) (cfg : Config) (network : NetworkId)
    (msg : GatewayMessage) :
    (s.startBatch cfg network msg).processedEvents = s.processedEvents := by
  refine List.foldlRecOn (motive := fun x : State => x.processedEvents = s.processedEvents)
    msg.ops (State.recordOp cfg s.batchIdCounter) rfl fun s₁ hs₁ op _ => ?_
  cases op <;> exact hs₁

theorem removeTask_processed {origin : Origin} {taskId : TaskId}
    (h : s.removeTask cfg origin taskId = .ok s') : s'.processedEvents = s.processedEvents := by
  obtain ⟨-, -, h⟩ := bind_ok h
  split at h
  · cases h
    cases htask : s.tasks.get taskId with
    | none => rfl
    | some task =>
        cases task with
        | readGatewayEvents blocks => rfl
        | submitGatewayMessage batchId =>
            simp only [State.forgetBatch]
            cases s.batchMessage.get batchId with
            | none => rfl
            | some msg =>
                refine List.foldlRecOn
                  (motive := fun x : State => x.processedEvents = s.processedEvents) msg.ops
                  (State.forgetOp cfg) rfl fun s₁ hs₁ op _ => ?_
                cases op <;> exact hs₁
  · cases h

theorem shardOffline_processed (s : State) (env : Env) (shard : ShardId) (network : NetworkId) :
    (s.shardOffline cfg env shard network).processedEvents = s.processedEvents := by
  have hrelease : (List.foldl (State.releaseTask network shard (s.readEventsTask.get network))
      { s with networkShards := s.networkShards.remove (network, shard) }
      ((s.shardTasks.iterPrefix cfg.taskKey shard).map Prod.fst)).processedEvents
      = s.processedEvents := by
    refine List.foldlRecOn (motive := fun x : State => x.processedEvents = s.processedEvents)
      _ _ rfl fun s₁ hs₁ taskId _ => ?_
    unfold State.releaseTask
    dsimp only
    split <;> exact hs₁
  unfold State.shardOffline
  dsimp only
  split <;> exact hrelease

theorem exec_processed (h : exec cfg s i = some s') : Processes cfg s i s' := by
  obtain ⟨env, call⟩ := i
  cases exec_ends h with
  | idle => exact .none rfl
  | onInitialize hrun =>
      refine .none (scheduleTasks_rule (P := fun x => x.processedEvents = s.processedEvents)
        (fun _ _ _ hs => hs) ?_ hrun)
      refine prepareBatches_rule (P := fun x => x.processedEvents = s.processedEvents)
        (fun _ hs => hs) ?_ rfl
      exact fun network msg hs => (startBatch_processed ..).trans hs
  | acceptEvents hok hacc => exact .report rfl hok hacc rfl
  | acceptError => exact .none finishTask_processed
  | submitGmpEvents hadmin => exact .root rfl hadmin rfl
  | syncNetwork => exact .none rfl
  | stopNetwork => exact .none rfl
  | removeTask _ hok => exact .none (removeTask_processed hok)
  | restartBatch hok =>
      obtain ⟨-, -, hok⟩ := bind_ok hok
      obtain ⟨oldTaskId, -, hok⟩ := bind_ok hok
      obtain ⟨network, -, hok⟩ := bind_ok hok
      cases hok
      exact .none rfl
  | shardOnline =>
      refine .none ?_
      unfold State.shardOnline
      split
      · split <;> rfl
      · rfl
  | shardOffline => exact .none (shardOffline_processed ..)
  | gatewayRegistered => exact .none rfl

end Processed

section Executed

variable {cfg : Config} {is js : List Input} {s s' s₁ s₂ : State} {i : Input} {batchId : BatchId}

/-- The batches of the events a call adds. -/
theorem mem_executedBatches {network : NetworkId} {taskId : TaskId} {events : List GmpEvent}
    (h : s'.processedEvents = s.processedEvents ++ events.map fun e => (network, taskId, e))
    (hb : ExecutedIn s s' batchId) : batchId ∈ executedBatches events := by
  obtain ⟨n, t, txHash, hmem⟩ := hb
  rw [h, List.drop_left] at hmem
  obtain ⟨event, hevent, heq⟩ := List.mem_map.mp hmem
  cases heq
  exact List.mem_filterMap.mpr ⟨_, hevent, rfl⟩

theorem reopenBatches_processed (s : State) (batchIds : List BatchId) :
    (batchIds.foldl State.reopenBatch s).processedEvents = s.processedEvents := by
  refine List.foldlRecOn (motive := fun x : State => x.processedEvents = s.processedEvents)
    batchIds State.reopenBatch rfl fun s₁ hs₁ b _ => ?_
  unfold State.reopenBatch
  dsimp only
  split <;> exact hs₁

/-- A batch is done with once the pallet has processed that it was executed. -/
theorem exec_executed (hexec : exec cfg s i = some s') (hsteady : i.steady cfg s = true)
    (hb : ExecutedIn s s' batchId) :
    (docket s').Over batchId ∧ (docket s').Idle batchId := by
  cases exec_processed hexec with
  | none h =>
      obtain ⟨network, taskId, txHash, hmem⟩ := hb
      rw [h, List.drop_length] at hmem
      cases hmem
  | report hcall hok hacc heq =>
      subst heq
      have hmem := mem_executedBatches (acceptEvents_processed ..) hb
      simp only [Input.steady, hcall, hok, Except.isOk, Except.toBool, Bool.not_true,
        StorageMap.containsKey_eq_false.mpr hacc.unfinished, Bool.false_or, List.all_eq_true,
        Bool.and_eq_true, decide_eq_true_eq, Bool.not_eq_true'] at hsteady
      obtain ⟨hstarted, hfailed⟩ := hsteady batchId hmem
      exact acceptEvents_over hmem hstarted fun hno =>
        hno (StorageMap.containsKey_eq_false.mp hfailed)
  | root hcall hadmin heq =>
      subst heq
      have hmem := mem_executedBatches ((processEvents_processed ..).trans
        (congrArg (· ++ _) (reopenBatches_processed s _))) hb
      simp only [Input.steady, hcall, hadmin, Bool.not_true, Bool.false_or, List.all_eq_true,
        decide_eq_true_eq] at hsteady
      exact submitGmpEvents_over hmem (hsteady batchId hmem)

/-- A call that does not restart the batch leaves it done with. -/
theorem exec_over (hinv : (docket s).Inv) (hnum : Enumerated s)
    (hlen : s'.createdTasks.length < 2 ^ 64)
    (hover : (docket s).Over batchId ∧ (docket s).Idle batchId)
    (hsteady : i.steady cfg s = true) (hrestart : i.restarts cfg batchId s = false)
    (hexec : exec cfg s i = some s') :
    (docket s').Over batchId ∧ (docket s').Idle batchId := by
  -- root may report the batch again, and reopens it for that
  by_cases hagain : ∃ origin network events, i.call = .submitGmpEvents origin network events ∧
      cfg.adminOrigin origin = true ∧ batchId ∈ executedBatches events.val
  · obtain ⟨origin, network, events, hcall, hadmin, hmem⟩ := hagain
    have hs' : s' = ((executedBatches events.val).foldl State.reopenBatch s).processEvents cfg
        network 0 events.val := by
      simp only [exec, hcall, State.submitGmpEvents, State.ensureAdmin, hadmin, if_true, bind,
        Except.bind, pure, Except.pure, dispatch, Option.some.injEq] at hexec
      exact hexec.symm
    rw [hs']
    exact submitGmpEvents_over hmem hover.1.started
  · have hpermits : Permits (Docket.leaving batchId) cfg s i := by
      refine ⟨fun {origin b s'} hcall hok => ?_, fun {_ _ _ b _} hcall hok htask hout => ?_,
        fun {origin network events} hcall hadmin b hb _ => ?_, fun _ _ _ => trivial⟩
      · rintro rfl
        simp [Input.restarts, hcall, hok, Except.isOk, Except.toBool] at hrestart
      · rintro rfl
        simp only [Input.steady, hcall, hok, Except.isOk, Except.toBool, Bool.not_true, htask,
          StorageMap.containsKey_eq_false.mpr hout,
          Bool.false_or, isIdle_iff.mpr hover.2] at hsteady
        cases hsteady
      · rintro rfl
        exact hagain ⟨origin, network, events, hcall, hadmin, hb⟩
    have hmoves := (exec_books hpermits hexec).moves hnum hlen
    refine (hinv.moves (P := fun d => d.Over batchId ∧ d.Idle batchId) ?_ hover hmoves).2
    exact fun hinv hover hmove =>
      ⟨hover.1.move hmove.sparing, hover.2.move hinv hover.1 hmove⟩

theorem free_permits : Permits Docket.free cfg s i :=
  ⟨fun _ _ => trivial, fun _ _ _ _ => trivial, fun _ _ _ _ _ => trivial, fun _ _ _ => trivial⟩

/-- **An executed batch is neither pending nor failed**, until it is
restarted. -/
theorem executed_settled
    (h : Run (exec cfg) (fun s i => i.steady cfg s = true) State.genesis is s)
    (hi : i.steady cfg s = true) (hexec : exec cfg s i = some s₁)
    (hb : ExecutedIn s s₁ batchId)
    (hlater : Run (exec cfg)
      (fun s i => i.steady cfg s = true ∧ i.restarts cfg batchId s = false) s₁ js s₂)
    (hlen : s₂.createdTasks.length < 2 ^ 64) :
    s₂.pendingBatches.get batchId = none ∧ s₂.failedBatchIds.get batchId = none := by
  have hfirst : Run (exec cfg) (fun s i => i.steady cfg s = true) State.genesis (is ++ [i]) s₁ :=
    .next h hi hexec
  have hmain : ∀ {js s₂}, Run (exec cfg)
      (fun s i => i.steady cfg s = true ∧ i.restarts cfg batchId s = false) s₁ js s₂ →
      s₂.createdTasks.length < 2 ^ 64 →
      (docket s₂).Over batchId ∧ (docket s₂).Idle batchId := by
    intro js s₂ hlater
    induction hlater with
    | start => exact fun _ => exec_executed hexec hi hb
    | @next js s₂ i₂ s₃ hrun hok hstep ih =>
        intro hlen
        have hall := hfirst.append (hrun.mono fun _ _ hok => hok.1)
        obtain ⟨hnum, hinv⟩ := run_docket (P := fun _ => True)
          (fun _ _ => free_permits) trivial (fun _ _ _ => trivial) hall
        have hgrows := (exec_books free_permits hstep).grows
        have hlen₂ := Nat.lt_of_le_of_lt hgrows hlen
        exact exec_over (hinv hlen₂).1 hnum hlen (ih hlen₂) hok.1 hok.2 hstep
  obtain ⟨hover, -⟩ := hmain hlater hlen
  exact ⟨not_not.mp hover.pending, not_not.mp hover.failed⟩

end Executed

/-- The gateway's events of the first read task: the batch was executed. -/
def executedReport : Call := exampleReport 1 ⟨[.batchExecuted 0 none], Nat.le_add_left ..⟩

theorem executed_settled_report :
    let s₁ := exampleState (registrationCalls ++ [executedReport])
    let s₂ := Run.endState (exec exampleConfig) s₁
      ([.removeTask .root 2, .onInitialize].map exampleInput)
    ExecutedIn (exampleState registrationCalls) s₁ 0 ∧
      s₂.pendingBatches.get 0 = none ∧ s₂.failedBatchIds.get 0 = none := by
  intro s₁ s₂
  have hrun : Run (exec exampleConfig) (fun s i => i.steady exampleConfig s = true) State.genesis
      (registrationCalls.map exampleInput) (exampleState registrationCalls) :=
    Run.of_guarded (fun _ _ h => h) (by decide +kernel)
  have hexecuted : ExecutedIn (exampleState registrationCalls) s₁ 0 :=
    ⟨0, 1, none, by decide +kernel⟩
  have hlater : Run (exec exampleConfig) (fun s i => i.steady exampleConfig s = true ∧
      i.restarts exampleConfig 0 s = false) s₁
      ([.removeTask .root 2, .onInitialize].map exampleInput) s₂ :=
    @Run.of_guarded _ _ _ _ _ (fun s i => i.steady exampleConfig s && !i.restarts exampleConfig 0 s)
      (fun _ _ h => by simpa using h) _ (by decide +kernel)
  exact ⟨hexecuted, executed_settled hrun (by decide +kernel)
    (exampleState_step (by decide +kernel)) hexecuted hlater (by decide +kernel)⟩

/-- A batch that failed before a shard reports it executed stays failed. -/
theorem executed_failed :
    ∃ calls, PalletRun exampleConfig exampleHome (fun _ _ => True)
        ((calls ++ [executedReport]).map exampleInput) (exampleState (calls ++ [executedReport])) ∧
      ExecutedIn (exampleState calls) (exampleState (calls ++ [executedReport])) 0 ∧
      (exampleState (calls ++ [executedReport])).failedBatchIds.get 0 ≠ none := by
  refine ⟨registrationCalls ++ [exampleError 2], exampleState_run (by decide)
    (fun _ _ _ => trivial) (by decide +kernel), ⟨0, 1, none, by decide +kernel⟩, ?_⟩
  exact StorageMap.containsKey_iff.mp (by decide +kernel)

end Tasks

end Timechain
