import Timechain.ChronicleFinality

/-!
# What a chronicle does with what it gets

Runs of the worker: final blocks, signing requests of the tasks and messages
of other members in any order.

Messages and requests wait in one queue per block. Each of them is handled
exactly once, those for one block in the order they came in
(`handled_in_order`), and whatever the worker does, it does for a shard the
chain lists at the final block it acts on (`acts_on_final_blocks`).

A sender is answered or hung up on at most once, never both, and an answer
goes to the task that asked (`senders_closed_once`).
-/

namespace Timechain

namespace Chronicle

open Buckets (inQueue)

variable {C : TssCrate} {w w' : Worker C}

/-! ## Runs -/

namespace Input

/-- The messages for block `k` that come in. -/
def messagesFor (k : BlockNumber) : Input C → List (ShardId × PeerId × C.Message)
  | .message peerId msg => inQueue msg.block [(msg.shardId, peerId, msg.payload)] k
  | _ => []

/-- The requests for block `k` that come in. -/
def requestsFor (k : BlockNumber) : Input C → List (ShardId × TaskId × List UInt8)
  | .request shardId block taskId data => inQueue block [(shardId, taskId, data)] k
  | _ => []

/-- The task that asks for a signature. -/
def asks : Input C → Option TaskId
  | .request _ _ taskId _ => some taskId
  | _ => none

end Input

variable {ok : Worker C → Input C → Prop} {is : List (Input C)} {peerId : PeerId}
  {network : NetworkId} {files : Files}

theorem takeChannel_cases (w : Worker C) (taskId : TaskId) :
    (w.channels.get taskId = none ∧ w.takeChannel taskId (.hungUp taskId) = w) ∨
      ∃ channel, w.channels.get taskId = some channel ∧
        w.takeChannel taskId (.hungUp taskId)
          = { w with channels := w.channels.remove taskId }.record [.hungUp taskId channel] := by
  unfold Worker.takeChannel
  cases hget : w.channels.get taskId with
  | none => exact Or.inl ⟨rfl, rfl⟩
  | some channel => exact Or.inr ⟨channel, rfl, rfl⟩

/-- The messages for block `k` the worker has had, oldest first. -/
def Worker.messageHistory (k : BlockNumber) (w : Worker C) : List (ShardId × PeerId × C.Message) :=
  w.log.flatMap (Entry.message k) ++ w.messages.pending k

def Worker.requestHistory (k : BlockNumber) (w : Worker C) : List (ShardId × TaskId × List UInt8) :=
  w.log.flatMap (Entry.request k) ++ w.requests.pending k

theorem Goes.histories {shards : List ShardId} {f : Finality C} (h : Goes f shards w w')
    (k : BlockNumber) :
    w'.messageHistory k = w.messageHistory k ∧ w'.requestHistory k = w.requestHistory k := by
  obtain ⟨es, haccounts⟩ := h
  refine ⟨?_, ?_⟩
  · rw [Worker.messageHistory, haccounts.log, List.flatMap_append, List.append_assoc,
      haccounts.messages]
    rfl
  · rw [Worker.requestHistory, haccounts.log, List.flatMap_append, List.append_assoc,
      haccounts.requests]
    rfl

/-- Hanging up on a sender is no matter of the queues. -/
theorem takeChannel_histories (w : Worker C) (taskId : TaskId) (k : BlockNumber) :
    (w.takeChannel taskId (.hungUp taskId)).messageHistory k = w.messageHistory k ∧
      (w.takeChannel taskId (.hungUp taskId)).requestHistory k = w.requestHistory k := by
  rcases takeChannel_cases w taskId with ⟨-, heq⟩ | ⟨channel, -, heq⟩
  · rw [heq]
    exact ⟨rfl, rfl⟩
  · rw [heq]
    refine ⟨?_, ?_⟩
    · show (w.log ++ [Entry.hungUp taskId channel]).flatMap (Entry.message k) ++ _ = _
      rw [List.flatMap_append, List.append_assoc]
      rfl
    · show (w.log ++ [Entry.hungUp taskId channel]).flatMap (Entry.request k) ++ _ = _
      rw [List.flatMap_append, List.append_assoc]
      rfl

theorem step_histories {i : Input C} (hs : w.step i = some w') (k : BlockNumber) :
    w'.messageHistory k = w.messageHistory k ++ Input.messagesFor k i ∧
      w'.requestHistory k = w.requestHistory k ++ Input.requestsFor k i := by
  cases i with
  | finality f =>
      obtain ⟨hmsgs, hreqs⟩ := (onFinality_goes hs).histories k
      rw [hmsgs, hreqs]
      exact ⟨(List.append_nil _).symm, (List.append_nil _).symm⟩
  | message peerId msg =>
      cases hs
      refine ⟨?_, (List.append_nil _).symm⟩
      rw [Worker.messageHistory, Buckets.pending_push, ← List.append_assoc]
      rfl
  | request shardId block taskId data =>
      cases hs
      obtain ⟨hmsgs, hreqs⟩ := takeChannel_histories w taskId k
      refine ⟨?_, ?_⟩
      · rw [← hmsgs]
        exact (List.append_nil _).symm
      · rw [← hreqs, Worker.requestHistory, Worker.onRequest, Buckets.pending_push,
          ← List.append_assoc]
        rfl

/-- **What comes in is handled once and in order.** In every run, for every
block: the messages accounted for by the log - handled, dropped or lost -
followed by those still waiting are the messages for this block that came
in, in this order; and the same for signing requests. -/
theorem handled_in_order (h : WorkerRun ok (.new peerId network files) is w) (k : BlockNumber) :
    w.log.flatMap (Entry.message k) ++ w.messages.pending k = is.flatMap (Input.messagesFor k) ∧
      w.log.flatMap (Entry.request k) ++ w.requests.pending k
        = is.flatMap (Input.requestsFor k) := by
  refine h.invariant (P := fun is w => w.messageHistory k = is.flatMap (Input.messagesFor k) ∧
    w.requestHistory k = is.flatMap (Input.requestsFor k)) ⟨rfl, rfl⟩ ?_
  rintro is w i w' - ⟨hmsgs, hreqs⟩ - hs
  obtain ⟨hmsgs', hreqs'⟩ := step_histories hs k
  rw [hmsgs', hreqs', hmsgs, hreqs, List.flatMap_append, List.flatMap_append, List.flatMap_cons,
    List.flatMap_cons, List.flatMap_nil, List.flatMap_nil, List.append_nil, List.append_nil]
  exact ⟨rfl, rfl⟩

theorem handled_in_order_example :
    let w := Run.endState Worker.step (.new examplePeer 0 ∅) exampleInputs
    (w.log.flatMap (Entry.message 1)).length = 2 ∧
      w.log.flatMap (Entry.message 1) ++ w.messages.pending 1
        = exampleInputs.flatMap (Input.messagesFor 1) ∧
      w.log.flatMap (Entry.request 1) ++ w.requests.pending 1
        = exampleInputs.flatMap (Input.requestsFor 1) :=
  ⟨by decide +kernel, handled_in_order exampleInputs_run 1⟩

/-! ## Senders -/

/-- Where the senders are: `asked` are the tasks in the order they asked. -/
structure Settled (asked : List TaskId) (closed : List (TaskId × Nat))
    (m : StorageMap TaskId Nat) : Prop where
  waiting : ∀ {taskId channel}, m.get taskId = some channel → asked[channel]? = some taskId
  told : ∀ {taskId channel}, (taskId, channel) ∈ closed → asked[channel]? = some taskId
  nodup : (closed.map Prod.snd).Nodup
  disjoint : ∀ {taskId channel}, m.get taskId = some channel → channel ∉ closed.map Prod.snd
  total : ∀ {channel}, channel < asked.length →
    (∃ taskId, m.get taskId = some channel) ∨ channel ∈ closed.map Prod.snd

section Settled

variable {asked : List TaskId} {closed : List (TaskId × Nat)} {m m' : StorageMap TaskId Nat}
  {taskId : TaskId} {channel : Nat}

theorem Settled.close (h : Settled asked closed m) (hget : m.get taskId = some channel) :
    Settled asked (closed ++ [(taskId, channel)]) (m.remove taskId) := by
  have hold : ∀ {t c}, (m.remove taskId).get t = some c → t ≠ taskId ∧ m.get t = some c := by
    intro t c ht
    rw [StorageMap.get_remove] at ht
    split at ht
    · cases ht
    · next hne => exact ⟨hne, ht⟩
  refine ⟨fun ht => h.waiting (hold ht).2, fun {t c} ht => ?_, ?_, fun {t c} ht hmem => ?_,
    fun {c} hc => ?_⟩
  · rcases List.mem_append.mp ht with ht | ht
    · exact h.told ht
    · cases List.mem_singleton.mp ht
      exact h.waiting hget
  · rw [List.map_append]
    refine List.nodup_append.mpr ⟨h.nodup, List.nodup_singleton _, ?_⟩
    rintro a ha b hb rfl
    rw [List.mem_singleton.mp hb] at ha
    exact h.disjoint hget ha
  · obtain ⟨hne, ht⟩ := hold ht
    rw [List.map_append] at hmem
    rcases List.mem_append.mp hmem with hmem | hmem
    · exact h.disjoint ht hmem
    · -- two tasks do not wait with one sender
      rw [List.mem_singleton.mp hmem] at ht
      exact hne (Option.some.inj ((h.waiting ht).symm.trans (h.waiting hget)))
  · rw [List.map_append]
    rcases h.total hc with ⟨t, ht⟩ | hmem
    · by_cases heq : t = taskId
      · subst heq
        rw [hget] at ht
        cases ht
        exact Or.inr (List.mem_append_right _ (List.mem_singleton_self _))
      · refine Or.inl ⟨t, ?_⟩
        rwa [StorageMap.get_remove_of_ne _ heq]
    · exact Or.inr (List.mem_append_left _ hmem)

theorem Settled.closes {es : List (Entry C)} (hcloses : Closes m es m')
    (h : Settled asked closed m) : Settled asked (closed ++ es.filterMap Entry.closes) m' := by
  induction hcloses generalizing closed with
  | nil =>
      rw [List.filterMap_nil, List.append_nil]
      exact h
  | other hnone _ ih =>
      rw [List.filterMap_cons_none hnone]
      exact ih h
  | close hsome hget _ ih =>
      rw [List.filterMap_cons_some hsome, List.append_cons]
      exact ih (h.close hget)

theorem Settled.ask (h : Settled asked closed m) (hnone : m.get taskId = none) :
    Settled (asked ++ [taskId]) closed (m.insert taskId asked.length) := by
  have hlast : (asked ++ [taskId])[asked.length]? = some taskId := by simp
  have hmono : ∀ {c : Nat} {t}, asked[c]? = some t → (asked ++ [taskId])[c]? = some t := by
    intro c t hc
    obtain ⟨hlt, -⟩ := List.getElem?_eq_some_iff.mp hc
    rw [List.getElem?_append_left hlt]
    exact hc
  refine ⟨fun {t c} ht => ?_, fun ht => hmono (h.told ht), h.nodup, fun {t c} ht hmem => ?_,
    fun {c} hc => ?_⟩
  · rw [StorageMap.get_insert] at ht
    split at ht
    · next heq =>
        cases ht
        rw [heq]
        exact hlast
    · exact hmono (h.waiting ht)
  · rw [StorageMap.get_insert] at ht
    split at ht
    · cases ht
      obtain ⟨⟨t', c⟩, hmem, rfl⟩ := List.mem_map.mp hmem
      obtain ⟨hlt, -⟩ := List.getElem?_eq_some_iff.mp (h.told hmem)
      exact Nat.lt_irrefl _ hlt
    · exact h.disjoint ht hmem
  · rw [List.length_append] at hc
    rcases Nat.lt_succ_iff_lt_or_eq.mp hc with hlt | rfl
    · rcases h.total hlt with ⟨t, ht⟩ | hmem
      · refine Or.inl ⟨t, ?_⟩
        rw [StorageMap.get_insert_of_ne _ _ fun heq => ?_]
        · exact ht
        · rw [heq, hnone] at ht
          cases ht
      · exact Or.inr hmem
    · exact Or.inl ⟨taskId, StorageMap.get_insert_self ..⟩

end Settled

/-- The senders closed so far. -/
def Worker.closed (w : Worker C) : List (TaskId × Nat) := w.log.filterMap Entry.closes

theorem onRequest_senders (w : Worker C) (shardId : ShardId) (block : BlockNumber)
    (taskId : TaskId) (data : List UInt8) :
    (w.onRequest shardId block taskId data).senders = w.senders + 1 := by
  unfold Worker.onRequest
  rcases takeChannel_cases w taskId with ⟨-, heq⟩ | ⟨channel, -, heq⟩
  · rw [heq]
  · rw [heq]
    rfl

theorem Settled.onRequest {asked : List TaskId} (h : Settled asked w.closed w.channels)
    (hsenders : w.senders = asked.length) (shardId : ShardId) (block : BlockNumber)
    (taskId : TaskId) (data : List UInt8) :
    Settled (asked ++ [taskId]) (w.onRequest shardId block taskId data).closed
      (w.onRequest shardId block taskId data).channels := by
  unfold Worker.onRequest
  rcases takeChannel_cases w taskId with ⟨hnone, heq⟩ | ⟨channel, hget, heq⟩
  · rw [heq]
    dsimp only
    rw [hsenders]
    exact h.ask hnone
  · rw [heq]
    dsimp only [Worker.record]
    rw [hsenders]
    refine Settled.ask ?_ (StorageMap.get_remove_self ..)
    show Settled _ ((w.log ++ [Entry.hungUp taskId channel]).filterMap Entry.closes) _
    rw [List.filterMap_append]
    exact h.close hget

theorem run_settled (h : WorkerRun ok (.new peerId network files) is w) :
    w.senders = (is.filterMap Input.asks).length ∧
      Settled (is.filterMap Input.asks) w.closed w.channels := by
  refine h.invariant (P := fun is w => w.senders = (is.filterMap Input.asks).length ∧
      Settled (is.filterMap Input.asks) w.closed w.channels) ?_ ?_
  · refine ⟨rfl, fun h => ?_, fun h => (List.not_mem_nil h).elim, List.nodup_nil, fun h => ?_,
      fun h => (Nat.not_lt_zero _ h).elim⟩
    · cases h
    · cases h
  · rintro is w i w' - ⟨hsenders, hsettled⟩ - hs
    rw [List.filterMap_append]
    cases i with
    | finality f =>
        have hnone : [Input.finality f].filterMap Input.asks = [] := rfl
        obtain ⟨es, haccounts⟩ := onFinality_goes hs
        rw [hnone, List.append_nil, Worker.closed, haccounts.log, List.filterMap_append,
          haccounts.senders]
        exact ⟨hsenders, .closes haccounts.channels hsettled⟩
    | message peerId msg =>
        have hnone : [Input.message peerId msg].filterMap Input.asks = [] := rfl
        cases hs
        rw [hnone, List.append_nil]
        exact ⟨hsenders, hsettled⟩
    | request shardId block taskId data =>
        have hone : [Input.request (C := C) shardId block taskId data].filterMap Input.asks
          = [taskId] := rfl
        cases hs
        rw [hone, onRequest_senders, List.length_append, hsenders]
        exact ⟨rfl, hsettled.onRequest hsenders shardId block taskId data⟩

/-- **Every sender has one fate.** In every run, a sender that came in still
waits, or was answered or hung up on, and that once; and what it is told is
about the task it came with. -/
theorem senders_closed_once (h : WorkerRun ok (.new peerId network files) is w) :
    (w.closed.map Prod.snd).Nodup ∧
      (∀ e ∈ w.closed, (is.filterMap Input.asks)[e.2]? = some e.1) ∧
      ∀ channel < (is.filterMap Input.asks).length,
        ((∃ taskId, w.channels.get taskId = some channel) ↔ channel ∉ w.closed.map Prod.snd) := by
  obtain ⟨-, hsettled⟩ := run_settled h
  refine ⟨hsettled.nodup, fun e he => hsettled.told he, fun channel hlt => ⟨?_, fun hmem => ?_⟩⟩
  · rintro ⟨taskId, hget⟩
    exact hsettled.disjoint hget
  · exact (hsettled.total hlt).resolve_right hmem

theorem senders_closed_once_example :
    let w := Run.endState Worker.step (.new examplePeer 0 ∅) exampleInputs
    w.closed = [(9, 1), (8, 0)] ∧ (w.closed.map Prod.snd).Nodup ∧
      (∀ e ∈ w.closed, (exampleInputs.filterMap Input.asks)[e.2]? = some e.1) ∧
      ∀ channel < (exampleInputs.filterMap Input.asks).length,
        ((∃ taskId, w.channels.get taskId = some channel) ↔ channel ∉ w.closed.map Prod.snd) :=
  ⟨by decide +kernel, senders_closed_once exampleInputs_run⟩

end Chronicle

end Timechain
