import Mathlib.Data.List.Flatten
import Timechain.TasksBatching
import Timechain.TasksReadOnce

/-!
# Resubmitted results

A signed result is public: anyone may submit it again. The only guard is
the task's output - once there, further results are ignored. A result
that is no full chunk finishes its task and cannot be replayed. A full
chunk leaves its task open, and the same chunk is accepted again as long
as the task stays open (`full_chunk_replayed`).

`message_sent_once` is what holds: if no full chunk is submitted twice,
every accepted chunk is accepted once, and since the signed chunks hold
pairwise different messages, every message is pushed at most once.
-/

namespace Timechain

namespace Tasks

variable {cfg : Config} {home : ShardId → NetworkId} {s s' : State}

/-! ## Messages sent -/

/-- The messages pushed for delivery, with the network they were pushed
for. -/
def State.sent (s : State) : List (NetworkId × GmpMessage) :=
  s.pushedOps.filterMap fun
    | (network, .sendMessage msg) => some (network, msg)
    | _ => none

/-- Messages with their destination. -/
def addressed (msgs : List GmpMessage) : List (NetworkId × GmpMessage) :=
  msgs.map fun msg => (msg.destNetwork, msg)

theorem count_sent (s : State) (network : NetworkId) (msg : GmpMessage) :
    s.pushedOps.count (network, .sendMessage msg) = s.sent.count (network, msg) := by
  rw [State.sent]
  induction s.pushedOps with
  | nil => rfl
  | cons push pushes ih =>
      obtain ⟨n, op⟩ := push
      rw [List.count_cons, ih]
      cases op with
      | sendMessage m => simp [List.count_cons]
      | _ => simp

theorem SameOps.sent (h : SameOps s s') : s'.sent = s.sent := by
  rw [State.sent, (congrArg OpStore.pushedOps h.toOpStore :), State.sent]

theorem sent_pushOp (s : State) (network : NetworkId) (op : GatewayOp) :
    (s.pushOp network op).sent = s.sent ++
      match op with
      | .sendMessage msg => [(network, msg)]
      | _ => [] := by
  simp only [State.sent, State.pushOp, List.filterMap_append]
  cases op <;> rfl

/-- Nothing is sent while only shards are registered. -/
theorem OpSteps.sent (h : OpSteps cfg (fun op => ∀ msg, op ≠ .sendMessage msg) s s') :
    s'.sent = s.sent := by
  induction h with
  | refl => rfl
  | tail _ hstep ih =>
      rw [← ih]
      cases hstep with
      | @push network op hop =>
          rw [sent_pushOp]
          cases op with
          | sendMessage msg => exact absurd rfl (hop msg)
          | _ => exact List.append_nil _
      | prepare env started network =>
          rw [State.sent, (prepareNetwork_drained _ network).pushedOps, State.sent]
      | frame hsame => exact hsame.sent

theorem processEvent_sent_of_ne (network : NetworkId) (taskId : TaskId) (s : State)
    {event : GmpEvent} (h : ∀ msg, event ≠ .messageReceived msg) :
    (State.processEvent cfg network taskId s event).sent = s.sent := by
  have hsteps : OpSteps cfg (fun op => ∀ msg, op ≠ .sendMessage msg) s
      (State.processEvent cfg network taskId s event) :=
    processEvent_opSteps network taskId s fun msg heq => absurd heq (h msg)
  exact hsteps.sent

theorem processEvent_sent (network : NetworkId) (taskId : TaskId) (s : State) (event : GmpEvent) :
    (State.processEvent cfg network taskId s event).sent
      = s.sent ++ addressed (receivedMessages [event]) := by
  cases event with
  | messageReceived msg =>
      exact sent_pushOp { s with
        processedEvents := s.processedEvents ++ [(network, taskId, .messageReceived msg)] }
        msg.destNetwork (.sendMessage msg)
  | _ =>
      refine (processEvent_sent_of_ne network taskId s ?_).trans (List.append_nil _).symm
      exact nofun

theorem processEvents_sent (network : NetworkId) (taskId : TaskId) (s : State)
    (events : List GmpEvent) :
    (s.processEvents cfg network taskId events).sent
      = s.sent ++ addressed (receivedMessages events) := by
  induction events generalizing s with
  | nil => exact (List.append_nil _).symm
  | cons event events ih =>
      rw [State.processEvents, List.foldl_cons]
      refine (ih _).trans ?_
      rw [processEvent_sent, List.append_assoc, addressed, addressed, ← List.map_append,
        receivedMessages, receivedMessages, ← List.filterMap_append, List.singleton_append]
      rfl

theorem acceptEvents_sent (s : State) (env : Env) (network : NetworkId) (taskId : TaskId)
    (blocks : BlockRange) (events : List GmpEvent) :
    (s.acceptEvents cfg env network taskId blocks events).sent
      = s.sent ++ addressed (receivedMessages events) := by
  have hread : ((s.advanceSync network blocks).readNext env network).sent = s.sent :=
    ((SameOps.advanceSync s network blocks).trans (.readNext _ env network)).sent
  simp only [State.acceptEvents]
  rw [← hread, ← @processEvents_sent cfg network taskId]
  split
  · rfl
  · exact (SameOps.finishTask ..).sent

/-- The admin reports no message: messages come from signed results only. -/
def NoAdminMessages (i : Input) : Prop :=
  ∀ {origin network events}, i.call = .submitGmpEvents origin network events →
    receivedMessages events.val = []

/-- Messages are sent by accepted reports only. -/
theorem exec_sent {i : Input} (hadmin : NoAdminMessages i) (h : exec cfg s i = some s') :
    s'.sent = s.sent ∨
    ∃ origin taskId blocks shard network events signature,
      i.call = .submitTaskResult origin taskId (.readGatewayEvents events signature) ∧
      AcceptsEvents cfg i.env s taskId blocks shard network events signature ∧
      s' = s.acceptEvents cfg i.env network taskId blocks events.val := by
  by_cases hmsg : i.receivedMessages = []
  · have hsteps : OpSteps cfg (fun op => ∀ msg, op ≠ .sendMessage msg) s s' := by
      refine exec_opSteps (fun msg hmem => ?_) (fun _ _ => nofun) (fun _ _ => nofun) h
      rw [hmsg] at hmem
      cases hmem
    exact Or.inl hsteps.sent
  · obtain ⟨env, call⟩ := i
    cases exec_ends h with
    | idle => exact Or.inl rfl
    | @acceptEvents origin taskId blocks shard network events signature _ hacc =>
        exact Or.inr ⟨origin, taskId, blocks, shard, network, events, signature, rfl, hacc, rfl⟩
    | submitGmpEvents => exact absurd (hadmin rfl) hmsg
    | _ => exact absurd rfl hmsg

/-! ## Chunks accepted -/

/-- The full chunk a call carries, if any. -/
def Input.fullReport (i : Input) : Option (TaskId × GmpEvents) :=
  match i.call with
  | .submitTaskResult _ taskId (.readGatewayEvents events _) =>
      if events.val.length = maxGmpEvents then some (taskId, events) else none
  | _ => none

/-- Only chunks in `signed` verify, and the admin reports no message. -/
structure OnlySigned (cfg : Config) (signed : List (TaskId × GmpEvents)) (s : State) (i : Input) :
    Prop where
  report : ∀ {origin taskId events signature shard key},
    i.call = .submitTaskResult origin taskId (.readGatewayEvents events signature) →
    s.taskShard.get taskId = some shard → i.env.shards.tssPublicKey shard = some key →
    cfg.verifySignature key (encodeGmpEvents taskId events.val) signature = true →
    (taskId, events) ∈ signed
  admin : NoAdminMessages i

/-- `accepted` are the chunks accepted in the run `is`. -/
structure Delivered (signed : List (TaskId × GmpEvents)) (is : List Input) (s : State)
    (accepted : List (TaskId × GmpEvents)) : Prop where
  nodup : accepted.Nodup
  signed : accepted ⊆ signed
  known : ∀ chunk ∈ accepted, chunk.1 ≤ s.taskIdCounter
  closed : ∀ chunk ∈ accepted, chunk.2.val.length ≠ maxGmpEvents →
    ∀ network blocks, ¬OpenRead s network chunk.1 blocks
  full : ∀ chunk ∈ accepted, chunk.2.val.length = maxGmpEvents →
    chunk ∈ is.filterMap Input.fullReport
  sent : s.sent = accepted.flatMap fun chunk => addressed (receivedMessages chunk.2.val)

variable {okCall : State → Input → Prop} {is : List Input} {i : Input}

theorem CallStep.counter_le (h : CallStep cfg home okCall is s i s') :
    s.taskIdCounter ≤ s'.taskIdCounter := by
  have hstable : Stable fun _ _ _ => True := fun _ _ _ _ _ _ _ => trivial
  obtain ⟨exempt, -, hsteps⟩ := h.effect.small hstable h.counted
  exact hsteps.counter_le h.counted

/-- No task is opened a second time. -/
theorem CallStep.opened (h : CallStep cfg home okCall is s i s') {network : NetworkId}
    {taskId : TaskId} {blocks : BlockRange} (hknown : taskId ≤ s.taskIdCounter)
    (ho : OpenRead s' network taskId blocks) : OpenRead s network taskId blocks := by
  have hnew : ∀ {new}, ReadsOn network new s s' → OpenRead s network taskId blocks := by
    intro new hnew
    rcases hnew.opened ho with ho | heq
    · exact ho
    · obtain ⟨hid, hlen⟩ := hnew.fresh heq
      have hcreated := h.created_next
      have hnext := nextTaskId_eq h.counted (Nat.lt_of_le_of_lt hlen hcreated)
      rw [show taskId = s.nextTaskId from hid, hnext] at hknown
      exact absurd hknown (Nat.not_succ_le_self _)
  rcases h.reading network with
    ⟨-, hun⟩ | ⟨-, t, b, events, -, rfl⟩ | ⟨b, -, rfl⟩ | ⟨origin, b, -, rfl⟩
  · exact hun.opened ho
  · exact hnew (acceptEvents_readsOn ..).choose_spec
  · exact hnew (gatewayRegistered_readsOn ..).2.choose_spec
  · exact ⟨ho.task, ho.network, ho.unfinished⟩

theorem Delivered.idle {signed accepted : List (TaskId × GmpEvents)}
    (h : Delivered signed is s accepted) (hstep : CallStep cfg home okCall is s i s')
    (hsent : s'.sent = s.sent) : Delivered signed (is ++ [i]) s' accepted where
  nodup := h.nodup
  signed := h.signed
  known chunk hmem := Nat.le_trans (h.known chunk hmem) hstep.counter_le
  closed chunk hmem hlen network blocks ho :=
    h.closed chunk hmem hlen network blocks (hstep.opened (h.known chunk hmem) ho)
  full chunk hmem hlen := by
    rw [List.filterMap_append]
    exact List.mem_append_left _ (h.full chunk hmem hlen)
  sent := hsent.trans h.sent

/-- A chunk is accepted. It has not been before: a full one is submitted
only once, any other one has finished its task. -/
theorem Delivered.accept {signed accepted : List (TaskId × GmpEvents)}
    (h : Delivered signed is s accepted)
    (hstep : CallStep cfg home (OnlySigned cfg signed) is s i s')
    (honce : ((is ++ [i]).filterMap Input.fullReport).Nodup) {origin : Origin} {taskId : TaskId}
    {blocks : BlockRange} {shard : ShardId} {network : NetworkId} {events : GmpEvents}
    {signature : TssSignature}
    (hcall : i.call = .submitTaskResult origin taskId (.readGatewayEvents events signature))
    (hacc : AcceptsEvents cfg i.env s taskId blocks shard network events signature)
    (heq : s' = s.acceptEvents cfg i.env network taskId blocks events.val) :
    Delivered signed (is ++ [i]) s' (accepted ++ [(taskId, events)]) := by
  obtain rfl := hstep.homed.network hacc.network
  obtain ⟨key, hkey, hverify⟩ := hacc.verified
  have hsigned := hstep.ok.report hcall hacc.assigned hkey hverify
  have hknown : taskId ≤ s.taskIdCounter := by
    refine hstep.counted.task_le ?_
    rw [hacc.task]
    exact Option.some_ne_none _
  have hfull : events.val.length = maxGmpEvents →
      [i].filterMap Input.fullReport = [(taskId, events)] := fun hlen => by
    simp [Input.fullReport, hcall, hlen]
  have hnew : (taskId, events) ∉ accepted := by
    intro hmem
    by_cases hlen : events.val.length = maxGmpEvents
    · rw [List.filterMap_append, hfull hlen, List.nodup_append] at honce
      exact honce.2.2 _ (h.full _ hmem hlen) _ (List.mem_singleton_self _) rfl
    · exact h.closed _ hmem hlen _ _ (hacc.opened hstep.inv)
  refine ⟨?_, ?_, fun chunk hmem => ?_, fun chunk hmem hlen n b ho => ?_,
    fun chunk hmem hlen => ?_, ?_⟩
  · rw [← List.concat_eq_append]
    exact h.nodup.concat hnew
  · exact List.append_subset.mpr ⟨h.signed, fun _ hmem => List.mem_singleton.mp hmem ▸ hsigned⟩
  · refine Nat.le_trans ?_ hstep.counter_le
    rcases List.mem_append.mp hmem with hmem | hmem
    · exact h.known chunk hmem
    · rw [List.mem_singleton.mp hmem]
      exact hknown
  · rcases List.mem_append.mp hmem with hmem | hmem
    · exact h.closed chunk hmem hlen n b (hstep.opened (h.known chunk hmem) ho)
    · obtain rfl := List.mem_singleton.mp hmem
      subst heq
      exact acceptEvents_output s i.env _ taskId blocks hlen ho.unfinished
  · rw [List.filterMap_append]
    rcases List.mem_append.mp hmem with hmem | hmem
    · exact List.mem_append_left _ (h.full chunk hmem hlen)
    · obtain rfl := List.mem_singleton.mp hmem
      rw [hfull hlen]
      exact List.mem_append_right _ (List.mem_singleton_self _)
  · rw [heq, acceptEvents_sent, h.sent, List.flatMap_append, List.flatMap_singleton]

theorem run_delivered {signed : List (TaskId × GmpEvents)}
    (h : PalletRun cfg home (OnlySigned cfg signed) is s)
    (hcreated : s.createdTasks.length < 2 ^ 64)
    (honce : (is.filterMap Input.fullReport).Nodup) :
    ∃ accepted, Delivered signed is s accepted := by
  revert honce
  refine run_induction (P := fun is s => (is.filterMap Input.fullReport).Nodup →
    ∃ accepted, Delivered signed is s accepted) ?_ ?_ h hcreated
  · exact fun _ => ⟨[], List.nodup_nil, List.nil_subset _, nofun, nofun, nofun, rfl⟩
  · intro is s i s' hstep ih honce
    obtain ⟨accepted, hdel⟩ := ih (by
      rw [List.filterMap_append] at honce
      exact (List.nodup_append.mp honce).1)
    rcases exec_sent hstep.ok.admin hstep.exec with hsent
      | ⟨origin, taskId, blocks, shard, network, events, signature, hcall, hacc, heq⟩
    · exact ⟨accepted, hdel.idle hstep hsent⟩
    · exact ⟨_, hdel.accept hstep honce hcall hacc heq⟩

/-- **No message is delivered twice**, in any run that creates fewer than
2^64 tasks and submits no full chunk twice: where the signed chunks hold
pairwise different messages, each is pushed at most once. -/
theorem message_sent_once {signed : List (TaskId × GmpEvents)}
    (h : PalletRun cfg home (OnlySigned cfg signed) is s)
    (hcreated : s.createdTasks.length < 2 ^ 64)
    (honce : (is.filterMap Input.fullReport).Nodup)
    (hmsgs : (signed.flatMap fun chunk => receivedMessages chunk.2.val).Nodup)
    (network : NetworkId) (msg : GmpMessage) :
    s.pushedOps.count (network, .sendMessage msg) ≤ 1 := by
  obtain ⟨accepted, hdel⟩ := run_delivered h hcreated honce
  -- the accepted chunks are some of the signed ones, in another order
  obtain ⟨chunks, hperm, hsub⟩ := List.subperm_of_subset hdel.nodup hdel.signed
  have hnodup : (accepted.flatMap fun chunk => receivedMessages chunk.2.val).Nodup :=
    (hperm.flatMap_right _).nodup_iff.mp (hmsgs.sublist (hsub.flatMap _))
  have hsent : s.sent = addressed (accepted.flatMap fun chunk => receivedMessages chunk.2.val) := by
    rw [hdel.sent, addressed, List.map_flatMap]
    rfl
  rw [count_sent, hsent]
  exact List.nodup_iff_count_le_one.mp (hnodup.map fun _ _ heq => (Prod.mk.injEq .. |>.mp heq).2) _

/-! ### Examples -/

theorem registrationCalls_signed {signed : List (TaskId × GmpEvents)} {call : Call}
    (hcall : call ∈ registrationCalls) (s : State) :
    OnlySigned exampleConfig signed s (exampleInput call) := by
  simp only [registrationCalls, List.mem_cons, List.not_mem_nil, or_false] at hcall
  rcases hcall with rfl | rfl | rfl | rfl
  case inr.inr.inl =>
      -- the one event the admin reports is the registration
      refine ⟨fun heq => ?_, fun heq => ?_⟩ <;> cases heq
      rfl
  all_goals refine ⟨fun heq => ?_, fun heq => ?_⟩ <;> cases heq

theorem exampleReport_signed {signed : List (TaskId × GmpEvents)} {taskId : TaskId}
    {events : GmpEvents} (hmem : (taskId, events) ∈ signed) (s : State) :
    OnlySigned exampleConfig signed s (exampleInput (exampleReport taskId events)) where
  report heq _ _ _ := by
    cases heq
    exact hmem
  admin heq := nomatch heq

def oneMessage : GmpEvents := ⟨[.messageReceived (exampleMessage 0 0)], by decide⟩

/-- A result with one message, submitted twice. -/
def resubmittedCalls : List Call :=
  registrationCalls ++ [exampleReport 1 oneMessage, exampleReport 1 oneMessage]

theorem message_sent_once_resubmitted :
    (exampleState resubmittedCalls).pushedOps.count (0, .sendMessage (exampleMessage 0 0)) = 1 ∧
      ∀ network msg,
        (exampleState resubmittedCalls).pushedOps.count (network, .sendMessage msg) ≤ 1 := by
  have hrun : PalletRun exampleConfig exampleHome (OnlySigned exampleConfig [(1, oneMessage)])
      (resubmittedCalls.map exampleInput) (exampleState resubmittedCalls) := by
    refine exampleState_run (by decide +kernel) (fun s call hcall => ?_) (by decide +kernel)
    rcases List.mem_append.mp hcall with hcall | hcall
    · exact registrationCalls_signed hcall s
    · simp only [List.mem_cons, List.not_mem_nil, or_false, or_self] at hcall
      rw [hcall]
      exact exampleReport_signed (List.mem_singleton_self _) s
  have hfull : (resubmittedCalls.map exampleInput).filterMap Input.fullReport = [] := by
    rfl
  exact ⟨by decide +kernel, message_sent_once hrun (by decide +kernel) (hfull ▸ List.nodup_nil)
    (List.nodup_singleton _)⟩

theorem receivedMessages_chunkOf (n : Nat) :
    receivedMessages (chunkOf n) = [exampleMessage 0 0] := by
  induction n with
  | zero => rfl
  | succ n ih => exact ih

/-- A full chunk is accepted a second time and its message sent again. -/
theorem full_chunk_replayed :
    ¬∀ (is : List Input) (s : State) (signed : List (TaskId × GmpEvents)),
      PalletRun exampleConfig exampleHome (OnlySigned exampleConfig signed) is s →
      (signed.flatMap fun chunk => receivedMessages chunk.2.val).Nodup →
      ∀ network msg, s.pushedOps.count (network, .sendMessage msg) ≤ 1 := by
  intro hall
  have hsigned : ∀ s, OnlySigned exampleConfig [(1, fullChunk)] s
      (exampleInput (exampleReport 1 fullChunk)) :=
    exampleReport_signed (List.mem_singleton_self _)
  have hrun : PalletRun exampleConfig exampleHome (OnlySigned exampleConfig [(1, fullChunk)])
      (fullChunkCalls.map exampleInput) fullChunkState := by
    refine fullChunkState_run fun s call hcall => ?_
    rcases List.mem_append.mp hcall with hcall | hcall
    · exact registrationCalls_signed hcall s
    · rw [List.mem_singleton.mp hcall]
      exact hsigned s
  obtain ⟨htask, hout, hshard⟩ := fullChunkState_reading
  have hexec := exampleReport_exec fullChunk htask hout hshard
  rw [show exampleHome 0 = 0 from rfl] at hexec
  have hmsgs : receivedMessages fullChunk.val = [exampleMessage 0 0] := receivedMessages_chunkOf _
  have hcount := hall _ _ _ (.next hrun ⟨exampleInput_homed rfl, hsigned _⟩ hexec)
    (by rw [List.flatMap_singleton, hmsgs]; exact List.nodup_singleton _) 0 (exampleMessage 0 0)
  rw [count_sent, acceptEvents_sent, fullChunkState, acceptEvents_sent, hmsgs, List.count_append,
    List.count_append] at hcount
  have hone : (addressed [exampleMessage 0 0]).count (0, exampleMessage 0 0) = 1 := by
    decide +kernel
  omega

end Tasks

end Timechain
