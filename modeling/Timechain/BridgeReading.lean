import Timechain.ChronicleTasks
import Timechain.GmpRustLog
import Timechain.TasksLinks
import Timechain.TasksReplay

/-!
# From the gateway's log to the pallet

The read path of the bridge as one system: the simulated target chain
with its gateway, the shards of the network, which read the gateway's
log and sign what they have read, and the tasks pallet, which takes
signed reports. The three act in any order. Members read when a task is
due, not when its report is included, and they sign chunk by chunk: the
next chunk only after the pallet has answered the one before.

In every such run the pallet has processed exactly the events the
gateway logged from the block it was registered with up to the sync
height, in the order of the log, each once (`processed_eq_log`). This
rests on three results: due blocks are final on the target chain
(`Connector.readEvents_final`), the read tasks follow each other
(`Sequential`), and an answered report closes its task.

Hence whatever was sent through the gateway is either logged before that
block, or processed by the pallet, or still to be read - in exactly one of
the three, and exactly once (`messages_accounted`).
-/

namespace Timechain

namespace Bridge

open Connector (readEvents recvMessages finalizedBlock)
open Tasks (OpenRead Untouched ReadsOn Reported Logged Sequential NoSync CallStep)

/-! ## The system -/

/-- One network: its gateway and the shards that serve it. -/
structure Setup where
  pallet : Tasks.Config
  chain : Connector.Config
  home : ShardId → NetworkId
  network : NetworkId
  gateway : Address32

structure State where
  pallet : Tasks.State
  chain : Connector.Db
  /-- Chunks of events the shards have signed. -/
  signed : List (TaskId × List GmpEvent)
  /-- Chunks the pallet has answered with success. -/
  answered : List (TaskId × List GmpEvent)

def State.init : State := ⟨.genesis, .new, [], []⟩

inductive Input where
  | pallet (call : Tasks.Input)
  | chain (call : Connector.Input)
  /-- The members of a shard sign chunk number `chunk` of a task. -/
  | sign (taskId : TaskId) (chunk : Nat)

variable (b : Setup)

/-- The chunk a call reports, if the call succeeds. -/
def answer (s : Tasks.State) (call : Tasks.Input) : Option (TaskId × List GmpEvent) :=
  match call.call with
  | .submitTaskResult origin taskId (.readGatewayEvents events signature) =>
      if (s.submitTaskResult b.pallet call.env origin taskId
          (.readGatewayEvents events signature)).isOk then some (taskId, events.val) else none
  | _ => none

/-- What the members submit for a task that reads `blocks`
(`TaskParams::execute`). -/
def chunksOf (x : State) (blocks : BlockRange) : List (List GmpEvent) :=
  Chronicle.submissions (readEvents x.chain b.gateway blocks)

/-- A task of the network that is due is read, and one chunk of it signed,
behind all chunks before it. -/
def State.sign (x : State) (taskId : TaskId) (chunk : Nat) : State :=
  match x.pallet.tasks.get taskId, x.pallet.taskNetwork.get taskId with
  | some (.readGatewayEvents blocks), some network =>
      if network = b.network ∧ (Task.readGatewayEvents blocks).startBlock ≤ finalizedBlock x.chain
          ∧ ((chunksOf b x blocks).take chunk).all (fun c => x.answered.contains (taskId, c)) then
        match (chunksOf b x blocks)[chunk]? with
        | some events => { x with signed := x.signed ++ [(taskId, events)] }
        | none => x
      else x
  | _, _ => x

def step (x : State) : Input → Option State
  | .pallet call =>
      (Tasks.exec b.pallet x.pallet call).map fun s =>
        { x with pallet := s, answered := x.answered ++ (answer b x.pallet call).toList }
  | .chain call => some { x with chain := Connector.exec b.chain x.chain call }
  | .sign taskId chunk => some (x.sign b taskId chunk)

/-- What the parties do not do: set the height of the network or report
events for it by hand, register another gateway for it, forge the
signature of one of its shards, or run into chunks that are full. -/
structure Orderly (first : Nat) (x : State) (i : Input) : Prop where
  homed : ∀ {c}, i = .pallet c → c.Homed b.home
  sync : ∀ {c}, i = .pallet c → NoSync b.network x.pallet c
  root : ∀ {c}, i = .pallet c → ∀ origin events, c.call ≠ .submitGmpEvents origin b.network events
  first : ∀ {c block}, i = .pallet c → c.call = .gatewayRegistered b.network block →
    block.toNat = first
  signed : ∀ {c origin taskId events signature shard key}, i = .pallet c →
    c.call = .submitTaskResult origin taskId (.readGatewayEvents events signature) →
    x.pallet.taskShard.get taskId = some shard → b.home shard = b.network →
    c.env.shards.tssPublicKey shard = some key →
    b.pallet.verifySignature key (encodeGmpEvents taskId events.val) signature = true →
    (taskId, events.val) ∈ x.signed
  small : ∀ {taskId chunk blocks}, i = .sign taskId chunk →
    x.pallet.tasks.get taskId = some (.readGatewayEvents blocks) →
    (readEvents x.chain b.gateway blocks).length < maxGmpEvents

abbrev BridgeRun (first : Nat) : List Input → State → Prop :=
  Run (step b) (Orderly b first) .init

/-- The calls of one party. -/
def Input.palletCall : Input → Option Tasks.Input
  | .pallet c => some c
  | _ => none

def Input.chainCall : Input → Option Connector.Input
  | .chain c => some c
  | _ => none

/-- The gateway events of the network the pallet has processed. -/
def processedFrom (network : NetworkId) (s : Tasks.State) : List GmpEvent :=
  s.processedEvents.filterMap fun e => if e.1 = network then some e.2.2 else none

variable {b} {first : Nat} {is : List Input} {x x' : State}

/-! ## The parties -/

theorem sign_pallet (x : State) (taskId : TaskId) (chunk : Nat) :
    (x.sign b taskId chunk).pallet = x.pallet ∧ (x.sign b taskId chunk).chain = x.chain := by
  unfold State.sign
  split
  · split
    · split <;> exact ⟨rfl, rfl⟩
    · exact ⟨rfl, rfl⟩
  · exact ⟨rfl, rfl⟩

theorem step_pallet {i : Input} (hs : step b x i = some x') (hi : i.palletCall = none) :
    x'.pallet = x.pallet := by
  cases i with
  | pallet c => cases hi
  | chain c =>
      cases hs
      rfl
  | sign taskId chunk =>
      cases hs
      exact (sign_pallet x taskId chunk).1

theorem step_chain {i : Input} (hs : step b x i = some x') (hi : i.chainCall = none) :
    x'.chain = x.chain := by
  cases i with
  | chain c => cases hi
  | pallet c =>
      obtain ⟨t, -, rfl⟩ := Option.map_eq_some_iff.mp hs
      rfl
  | sign taskId chunk =>
      cases hs
      exact (sign_pallet x taskId chunk).2

theorem BridgeRun.pallet (h : BridgeRun b first is x) :
    Tasks.PalletRun b.pallet b.home (NoSync b.network) (is.filterMap Input.palletCall) x.pallet := by
  refine h.project (f := State.pallet) ?_ ?_
  · intro s i s' k hok hs hk
    cases i with
    | pallet c =>
        obtain rfl := Option.some.inj hk
        obtain ⟨t, ht, rfl⟩ := Option.map_eq_some_iff.mp hs
        exact ⟨⟨hok.homed rfl, hok.sync rfl⟩, ht⟩
    | _ => cases hk
  · exact fun hs hi => step_pallet hs hi

/-- Also from the middle of a run. -/
theorem chain_of_run {y : State} (h : Run (step b) (Orderly b first) y is x) :
    Connector.ChainRun b.chain (fun _ _ => True) y.chain (is.filterMap Input.chainCall) x.chain := by
  refine h.project (f := State.chain) ?_ ?_
  · intro s i s' k _ hs hk
    cases i with
    | chain c =>
        obtain rfl := Option.some.inj hk
        cases hs
        exact ⟨trivial, rfl⟩
    | _ => cases hk
  · exact fun hs hi => step_chain hs hi

theorem BridgeRun.chain (h : BridgeRun b first is x) :
    Connector.ChainRun b.chain (fun _ _ => True) .new (is.filterMap Input.chainCall) x.chain :=
  chain_of_run h

/-- A call of the pallet, in a run that creates fewer than 2^64 tasks. -/
theorem callStep_of_run {cfg : Tasks.Config} {home : ShardId → NetworkId}
    {ok : Tasks.State → Tasks.Input → Prop} {cs : List Tasks.Input} {s s' : Tasks.State}
    {c : Tasks.Input} (hrun : Tasks.PalletRun cfg home ok cs s) (hhomed : c.Homed home)
    (hok : ok s c) (hexec : Tasks.exec cfg s c = some s')
    (hcreated : s'.createdTasks.length < 2 ^ 64) : CallStep cfg home ok cs s c s' := by
  have hnext : Tasks.PalletRun cfg home ok (cs ++ [c]) s' := .next hrun ⟨hhomed, hok⟩ hexec
  -- the induction rule hands out the last step
  have hlast := Tasks.run_induction (P := fun is t => ∀ cs c, is = cs ++ [c] →
    ∃ s, CallStep cfg home ok cs s c t) (fun cs c heq => by simp at heq)
    (fun {is s c t} hstep _ cs' c' heq => by
      obtain ⟨rfl, hc⟩ := List.append_inj' heq rfl
      obtain rfl := (List.cons.inj hc).1
      exact ⟨s, hstep⟩) hnext hcreated
  obtain ⟨t, hstep⟩ := hlast cs c rfl
  rwa [hrun.det hstep.run]

/-- What a call does to the reading of the network and to the events the
pallet has of it. -/
theorem call_cases {cs : List Tasks.Input} {s s' : Tasks.State} {c : Tasks.Input}
    (h : CallStep b.pallet b.home (NoSync b.network) cs s c s')
    (hroot : ∀ origin events, c.call ≠ .submitGmpEvents origin b.network events) :
    (Untouched b.network s s' ∧ processedFrom b.network s' = processedFrom b.network s ∧
      c.registers b.network = false) ∨
    (c.registers b.network = false ∧ ∃ taskId blocks events,
      Reported b.pallet b.network s c taskId blocks events ∧
      s' = s.acceptEvents b.pallet c.env b.network taskId blocks events.val) ∨
    ∃ block, c.call = .gatewayRegistered b.network block ∧
      s' = s.gatewayRegistered c.env b.network block.toNat := by
  cases Tasks.exec_processed h.exec with
  | none hsame =>
      have hprocessed : processedFrom b.network s' = processedFrom b.network s := by
        rw [processedFrom, hsame, processedFrom]
      rcases h.reading b.network with
        ⟨hreg, hun⟩ | haccept | hregister | ⟨origin, block, hcall, -⟩
      · exact Or.inl ⟨hun, hprocessed, hreg⟩
      · exact Or.inr (Or.inl haccept)
      · exact Or.inr (Or.inr hregister)
      · exact absurd hcall (h.ok origin block)
  | @report origin taskId blocks shard network events signature hcall _ hacc heq =>
      obtain rfl := h.homed.network hacc.network
      have hreg : c.registers b.network = false := by rw [Tasks.Input.registers, hcall]
      by_cases hnet : b.home shard = b.network
      · refine Or.inr (Or.inl ⟨hreg, taskId, blocks, events, ⟨?_, hnet ▸ hacc.opened h.inv⟩, ?_⟩)
        · exact ⟨origin, shard, signature, hcall, hnet ▸ hacc⟩
        · rw [heq, hnet]
      · refine Or.inl ⟨heq ▸ Tasks.acceptEvents_untouched s c.env hnet taskId blocks events.val, ?_,
          hreg⟩
        rw [heq, processedFrom, Tasks.acceptEvents_processed, List.filterMap_append,
          List.filterMap_map]
        simp [processedFrom, hnet]
  | @root origin network events hcall _ heq =>
      have hnet : network ≠ b.network := by
        rintro rfl
        exact hroot origin events hcall
      have hprocessed : processedFrom b.network s' = processedFrom b.network s := by
        rw [heq, processedFrom, Tasks.processEvents_processed, Tasks.reopenBatches_processed,
          List.filterMap_append, List.filterMap_map]
        simp [processedFrom, hnet]
      rcases h.reading b.network with
        ⟨hreg, hun⟩ | haccept | hregister | ⟨origin, block, hcall, -⟩
      · exact Or.inl ⟨hun, hprocessed, hreg⟩
      · exact Or.inr (Or.inl haccept)
      · exact Or.inr (Or.inr hregister)
      · exact absurd hcall (h.ok origin block)

theorem processed_accept (s : Tasks.State) (env : Tasks.Env) (taskId : TaskId)
    (blocks : BlockRange) (events : List GmpEvent) :
    processedFrom b.network (s.acceptEvents b.pallet env b.network taskId blocks events)
      = processedFrom b.network s ++ events := by
  rw [processedFrom, Tasks.acceptEvents_processed, List.filterMap_append, List.filterMap_map]
  congr 1
  simp

/-! ## What has been read

`chunk 0` of a small read is the whole read. -/

theorem submissions_head {events : List GmpEvent} (h : events.length < maxGmpEvents) :
    (Chronicle.submissions events)[0]? = some events := by
  rcases Chronicle.submissions_cases events with
    ⟨rfl, heq⟩ | ⟨full, rest, hevents, hnil, hfull, -, heq⟩
  · rw [heq]
    rfl
  · have hnone : full = [] := by
      cases full with
      | nil => rfl
      | cons chunk full =>
          have hlen := hfull chunk List.mem_cons_self
          rw [hevents, List.flatten_cons, List.length_append, List.length_append] at h
          omega
    subst hnone
    rw [List.flatten_nil, List.nil_append] at hevents
    rw [heq, ← hevents, if_neg hnil]
    rfl

theorem readEvents_empty (db : Connector.Db) {start stop : Nat} (h : stop ≤ start) :
    readEvents db b.gateway ⟨start, stop⟩ = [] := by
  unfold readEvents
  dsimp only
  rw [Nat.sub_eq_zero_of_le h]
  rfl

/-- The reading of the network so far. -/
structure ReadUp (b : Setup) (first : Nat) (x : State) : Prop where
  sequential : Sequential b.network x.pallet
  /-- What was processed is the log from the first block to the height. -/
  processed : processedFrom b.network x.pallet
    = readEvents x.chain b.gateway ⟨first, x.pallet.height b.network⟩
  began : x.pallet.reads b.network ≠ [] → first ≤ x.pallet.height b.network
  reached : x.pallet.height b.network ≤ first ∨ x.pallet.height b.network ≤ x.chain.block
  /-- What is signed for an open task is what its blocks hold. -/
  signed : ∀ {taskId events blocks}, (taskId, events) ∈ x.signed →
    OpenRead x.pallet b.network taskId blocks →
    events = readEvents x.chain b.gateway blocks ∧ blocks.stop ≤ x.chain.block ∧
      events.length < maxGmpEvents
  known : ∀ {taskId events}, (taskId, events) ∈ x.signed ∨ (taskId, events) ∈ x.answered →
    taskId ≤ x.pallet.taskIdCounter
  /-- An answered chunk that is not full has closed its task. -/
  closed : ∀ {taskId events blocks}, (taskId, events) ∈ x.answered →
    events.length < maxGmpEvents → ¬OpenRead x.pallet b.network taskId blocks

theorem ReadUp.init (b : Setup) (first : Nat) : ReadUp b first .init where
  sequential := ⟨List.Pairwise.nil, fun ho => by cases ho.task⟩
  processed := (readEvents_empty _ (Nat.zero_le first)).symm
  began h := absurd rfl h
  reached := Or.inr (Nat.le_refl 0)
  signed h := (List.not_mem_nil h).elim
  known h := h.elim (fun h => (List.not_mem_nil h).elim) fun h => (List.not_mem_nil h).elim
  closed h := (List.not_mem_nil h).elim

/-! ### The target chain moves on -/

/-- Blocks behind the current one stay as they are. -/
theorem ReadUp.chain (h : ReadUp b first x) {c : Connector.Input}
    (hcount : x.chain.block + [c].countP Connector.Input.isNewBlock < 2 ^ 64) :
    ReadUp b first { x with chain := Connector.exec b.chain x.chain c } := by
  have hrun : Connector.ChainRun b.chain (fun _ _ => True) x.chain [c]
      (Connector.exec b.chain x.chain c) := .next .start trivial rfl
  have hgrow : x.chain.block ≤ (Connector.exec b.chain x.chain c).block := by
    rw [(Connector.run_past hrun hcount).1]
    exact Nat.le_add_right ..
  have hfinal : ∀ {blocks : BlockRange}, blocks.stop ≤ x.chain.block →
      readEvents (Connector.exec b.chain x.chain c) b.gateway blocks
        = readEvents x.chain b.gateway blocks :=
    fun hle => Connector.readEvents_final hrun hcount hle b.gateway
  refine ⟨h.sequential, ?_, h.began, ?_, fun hmem ho => ?_, h.known, h.closed⟩
  · rcases h.reached with hle | hle
    · exact h.processed.trans ((readEvents_empty _ hle).trans (readEvents_empty _ hle).symm)
    · exact h.processed.trans (hfinal hle).symm
  · exact h.reached.imp_right fun hle => Nat.le_trans hle hgrow
  · obtain ⟨heq, hstop, hlen⟩ := h.signed hmem ho
    exact ⟨heq.trans (hfinal hstop).symm, Nat.le_trans hstop hgrow, hlen⟩

/-! ### A chunk is signed -/

theorem ReadUp.sign (h : ReadUp b first x) {taskId : TaskId} {chunk : Nat}
    (hcount : Tasks.Counted x.pallet)
    (hsmall : ∀ {blocks}, x.pallet.tasks.get taskId = some (.readGatewayEvents blocks) →
      (readEvents x.chain b.gateway blocks).length < maxGmpEvents) :
    ReadUp b first (x.sign b taskId chunk) := by
  unfold State.sign
  split
  · next blocks network htask hnet =>
      split
      · next hdue =>
          split
          · next events hevents =>
              refine ⟨h.sequential, h.processed, h.began, h.reached, fun {t es r} hmem ho => ?_,
                fun {t es} hmem => ?_, h.closed⟩
              · rcases List.mem_append.mp hmem with hmem | hmem
                · exact h.signed hmem ho
                · obtain ⟨rfl, rfl⟩ := Prod.mk.inj (List.mem_singleton.mp hmem)
                  obtain rfl : blocks = r := by
                    have := htask.symm.trans ho.task
                    cases this
                    rfl
                  have hlen := hsmall htask
                  have hhead := submissions_head hlen
                  cases chunk with
                  | zero =>
                      obtain rfl := Option.some.inj (hhead.symm.trans hevents)
                      exact ⟨rfl, hdue.2.1, hlen⟩
                  | succ n =>
                      -- the first chunk was answered: the task is closed
                      have hfirst : readEvents x.chain b.gateway blocks ∈
                          (chunksOf b x blocks).take (n + 1) := by
                        refine List.mem_of_getElem? (i := 0) ?_
                        rw [List.getElem?_take, if_pos (Nat.succ_pos n)]
                        exact hhead
                      have hanswered := List.all_eq_true.mp hdue.2.2 _ hfirst
                      exact absurd ho (h.closed (List.contains_iff_mem.mp hanswered) hlen)
              · have hknown : taskId ≤ x.pallet.taskIdCounter := by
                  refine hcount.task_le ?_
                  rw [htask]
                  exact Option.some_ne_none _
                rcases hmem with hmem | hmem
                · rcases List.mem_append.mp hmem with hmem | hmem
                  · exact h.known (Or.inl hmem)
                  · obtain ⟨rfl, -⟩ := Prod.mk.inj (List.mem_singleton.mp hmem)
                    exact hknown
                · exact h.known (Or.inr hmem)
          · exact h
      · exact h
  · exact h

/-! ### The pallet takes a call -/

/-- A report that is answered with success and is not full leaves its task
finished. -/
theorem submitTaskResult_closed {cfg : Tasks.Config} {env : Tasks.Env} {s s' : Tasks.State}
    {origin : Tasks.Origin} {taskId : TaskId} {events : GmpEvents} {signature : TssSignature}
    (h : s.submitTaskResult cfg env origin taskId (.readGatewayEvents events signature) = .ok s') :
    s.tasks.get taskId ≠ none ∧
      (events.val.length < maxGmpEvents → s'.taskOutput.get taskId ≠ none) := by
  obtain ⟨signer, -, h⟩ := bind_ok h
  obtain ⟨task, htask, h⟩ := bind_ok h
  have hknown : s.tasks.get taskId ≠ none := by
    intro hnone
    rw [hnone] at htask
    cases htask
  refine ⟨hknown, fun hlen => ?_⟩
  split at h
  · next hout =>
      cases h
      exact StorageMap.containsKey_iff.mp hout
  · obtain ⟨shard, -, h⟩ := bind_ok h
    obtain ⟨network, -, h⟩ := bind_ok h
    cases task with
    | readGatewayEvents blocks =>
        obtain ⟨-, -, h⟩ := bind_ok h
        cases h
        exact Tasks.acceptEvents_output s env network taskId blocks (Nat.ne_of_lt hlen)
    | submitGatewayMessage batchId => cases h

theorem answer_closed {s s' : Tasks.State} {c : Tasks.Input} {taskId : TaskId}
    {events : List GmpEvent} (hexec : Tasks.exec b.pallet s c = some s')
    (h : answer b s c = some (taskId, events)) :
    s.tasks.get taskId ≠ none ∧
      (events.length < maxGmpEvents → s'.taskOutput.get taskId ≠ none) := by
  unfold answer at h
  split at h
  · next origin t es signature hcall =>
      split at h
      · next hok =>
          cases h
          cases hresult : s.submitTaskResult b.pallet c.env origin taskId
              (.readGatewayEvents es signature) with
          | error e =>
              rw [hresult] at hok
              cases hok
          | ok t =>
              have hs' : s' = t := by
                obtain ⟨env, call⟩ := c
                dsimp only at hcall hresult
                subst hcall
                simp only [Tasks.exec, hresult, Tasks.dispatch] at hexec
                exact (Option.some.inj hexec).symm
              exact hs' ▸ submitTaskResult_closed hresult
      · cases h
  · cases h

/-- What the signatures and answers say about open tasks outlasts a call. -/
theorem ReadUp.answers (h : ReadUp b first x) {cs : List Tasks.Input} {c : Tasks.Input}
    {s' : Tasks.State}
    (hstep : CallStep b.pallet b.home (NoSync b.network) cs x.pallet c s')
    (hseq : Sequential b.network s')
    (hprocessed : processedFrom b.network s'
      = readEvents x.chain b.gateway ⟨first, s'.height b.network⟩)
    (hbegan : s'.reads b.network ≠ [] → first ≤ s'.height b.network)
    (hreached : s'.height b.network ≤ first ∨ s'.height b.network ≤ x.chain.block) :
    ReadUp b first
      { x with pallet := s', answered := x.answered ++ (answer b x.pallet c).toList } := by
  refine ⟨hseq, hprocessed, hbegan, hreached, fun hmem ho => ?_, fun hmem => ?_,
    fun {t es r} hmem hlen ho => ?_⟩
  · exact h.signed hmem (hstep.opened (h.known (Or.inl hmem)) ho)
  · rcases hmem with hmem | hmem
    · exact Nat.le_trans (h.known (Or.inl hmem)) hstep.counter_le
    · rcases List.mem_append.mp hmem with hmem | hmem
      · exact Nat.le_trans (h.known (Or.inr hmem)) hstep.counter_le
      · have hanswer := Option.mem_toList.mp hmem
        exact Nat.le_trans (hstep.counted.task_le (answer_closed hstep.exec hanswer).1)
          hstep.counter_le
  · rcases List.mem_append.mp hmem with hmem | hmem
    · exact h.closed hmem hlen (hstep.opened (h.known (Or.inr hmem)) ho)
    · have hanswer := Option.mem_toList.mp hmem
      exact (answer_closed hstep.exec hanswer).2 hlen ho.unfinished

/-- A report of the network: the log up to the height grows by the blocks
of the task. -/
theorem ReadUp.accept (h : ReadUp b first x) {cs : List Tasks.Input} {c : Tasks.Input}
    (hlog : Logged b.network x.pallet) {taskId : TaskId} {blocks : BlockRange} {events : GmpEvents}
    (hstep : CallStep b.pallet b.home (NoSync b.network) cs x.pallet c
      (x.pallet.acceptEvents b.pallet c.env b.network taskId blocks events.val))
    (hopen : OpenRead x.pallet b.network taskId blocks)
    (hsigned : (taskId, events.val) ∈ x.signed) :
    ReadUp b first
      { x with
        pallet := x.pallet.acceptEvents b.pallet c.env b.network taskId blocks events.val
        answered := x.answered ++ (answer b x.pallet c).toList } := by
  obtain ⟨hevents, hstop, hlen⟩ := h.signed hsigned hopen
  obtain ⟨hlast, hstart⟩ := h.sequential.last hopen
  have hmem := hlog.mem hopen
  have hrange := (hlog.range _ hmem).1
  have hfirst : first ≤ x.pallet.height b.network := by
    refine h.began fun hnil => ?_
    rw [hnil] at hmem
    cases hmem
  have hheight : (x.pallet.acceptEvents b.pallet c.env b.network taskId blocks events.val).height
      b.network = blocks.stop := by
    rw [Tasks.acceptEvents_height, if_pos hstart.symm]
  refine h.answers hstep (h.sequential.accept hlog c.env hopen hlen) ?_ (fun _ => ?_) ?_
  · rw [processed_accept, h.processed, hheight, hevents, ← hstart]
    obtain ⟨start, stop⟩ := blocks
    exact Connector.readEvents_append x.chain b.gateway (hstart ▸ hfirst) hrange
  · rw [hheight]
    exact Nat.le_trans (hstart ▸ hfirst) hrange
  · rw [hheight]
    exact Or.inr hstop

/-- The first registration: reading starts at its block. -/
theorem ReadUp.register (h : ReadUp b first x) {cs : List Tasks.Input} {c : Tasks.Input}
    (hlog : Logged b.network x.pallet) (hnil : x.pallet.reads b.network = [])
    (hzero : x.pallet.height b.network = 0) {block : UInt64} (hblock : block.toNat = first)
    (hstep : CallStep b.pallet b.home (NoSync b.network) cs x.pallet c
      (x.pallet.gatewayRegistered c.env b.network block.toNat)) :
    ReadUp b first
      { x with
        pallet := x.pallet.gatewayRegistered c.env b.network block.toNat
        answered := x.answered ++ (answer b x.pallet c).toList } := by
  obtain ⟨hheight, new, hnew⟩ :=
    Tasks.gatewayRegistered_readsOn x.pallet c.env b.network block.toNat
  rw [hblock] at hheight hnew hstep ⊢
  refine h.answers hstep ?_ ?_ (fun _ => Nat.le_of_eq hheight.symm)
    (Or.inl (Nat.le_of_eq hheight))
  · refine h.sequential.readsOn hnew (fun read hmem => ?_) fun {t r} _ ho => ?_
    · rw [hnil] at hmem
      cases hmem
    · have hmem := hlog.mem ho
      rw [hnil] at hmem
      cases hmem
  · have hsame : processedFrom b.network (x.pallet.gatewayRegistered c.env b.network first)
        = processedFrom b.network x.pallet := rfl
    rw [hsame, h.processed, hheight, hzero, readEvents_empty x.chain (Nat.zero_le _),
      readEvents_empty x.chain (Nat.le_refl _)]

theorem ReadUp.untouched (h : ReadUp b first x) {cs : List Tasks.Input} {c : Tasks.Input}
    {s' : Tasks.State}
    (hstep : CallStep b.pallet b.home (NoSync b.network) cs x.pallet c s')
    (hun : Untouched b.network x.pallet s')
    (hprocessed : processedFrom b.network s' = processedFrom b.network x.pallet) :
    ReadUp b first
      { x with pallet := s', answered := x.answered ++ (answer b x.pallet c).toList } := by
  refine h.answers hstep (h.sequential.untouched hun) ?_ ?_ ?_
  · rw [hprocessed, h.processed, hun.height]
  · rw [hun.reads, hun.height]
    exact h.began
  · rw [hun.height]
    exact h.reached

/-! ## Runs -/

/-- The calls that register the network. -/
def registrations (b : Setup) (is : List Input) : Nat :=
  (is.filterMap Input.palletCall).countP (Tasks.Input.registers b.network)

/-- The blocks the target chain has produced. -/
def newBlocks (is : List Input) : Nat :=
  (is.filterMap Input.chainCall).countP Connector.Input.isNewBlock

theorem run_readUp (h : BridgeRun b first is x) (hcreated : x.pallet.createdTasks.length < 2 ^ 64)
    (honce : registrations b is ≤ 1) (hblocks : newBlocks is < 2 ^ 64) : ReadUp b first x := by
  revert hcreated honce hblocks
  refine h.invariant (P := fun is x => x.pallet.createdTasks.length < 2 ^ 64 →
    registrations b is ≤ 1 → newBlocks is < 2 ^ 64 → ReadUp b first x) ?_ ?_
  · exact fun _ _ _ => .init b first
  · intro is x i x' hrun ih hok hs hcreated honce hblocks
    unfold registrations at honce ih
    unfold newBlocks at hblocks ih
    rw [List.filterMap_append, List.countP_append] at honce hblocks
    cases i with
    | chain c =>
        cases hs
        refine (ih hcreated (by omega) (by omega)).chain ?_
        have hblock := (Connector.run_past (BridgeRun.chain hrun) (by
          simp only [Connector.Db.new]
          omega)).1
        rw [hblock, Connector.Db.new, Nat.zero_add]
        exact hblocks
    | sign taskId chunk =>
        cases hs
        rw [(sign_pallet x taskId chunk).1] at hcreated
        exact (ih hcreated (by omega) (by omega)).sign (Tasks.run_counted (BridgeRun.pallet hrun)).1
          fun htask => hok.small rfl htask
    | pallet c =>
        obtain ⟨s', hexec, rfl⟩ := Option.map_eq_some_iff.mp hs
        have hstep := callStep_of_run (BridgeRun.pallet hrun) (hok.homed rfl) (hok.sync rfl) hexec
          hcreated
        have hread := ih hstep.created (by omega) (by omega)
        obtain ⟨hlog, hfirst⟩ := Tasks.run_logged (BridgeRun.pallet hrun) hstep.created
        rcases call_cases hstep (hok.root rfl) with
          ⟨hun, hprocessed, -⟩ | ⟨-, taskId, blocks, events, hrep, rfl⟩ | ⟨block, hcall, rfl⟩
        · exact hread.untouched hstep hun hprocessed
        · obtain ⟨origin, shard, signature, hcall, hacc⟩ := hrep.accepted
          obtain ⟨key, hkey, hverify⟩ := hacc.verified
          have hhome : b.home shard = b.network := ((hok.homed rfl).network hacc.network).symm
          exact hread.accept hlog hstep hrep.opened
            (hok.signed rfl hcall hacc.assigned hhome hkey hverify)
        · have hcount : [Input.pallet c].filterMap Input.palletCall = [c] := rfl
          rw [hcount, List.countP_singleton, if_pos (by simp [Tasks.Input.registers, hcall])]
            at honce
          obtain ⟨hzero, hnil⟩ := hfirst (by omega)
          exact hread.register hlog hnil hzero (hok.first rfl hcall) hstep

/-! ### An example

A message is sent in block 0 of the target chain; ten blocks later the
first read task is due. -/

def exampleSetup : Setup where
  pallet := Tasks.exampleConfig
  chain := Connector.exampleConfig
  home := Tasks.exampleHome
  network := 0
  gateway := Connector.exampleAddress 1

/-- Calls to the target chain, the network is registered, and some blocks
pass. -/
def exampleStart (calls : List Connector.Call) (blocks : Nat) : List Input :=
  calls.map (.chain ∘ Connector.exampleInput)
    ++ [Tasks.Call.gatewayRegistered 0 0, .shardOnline 0 0, .onInitialize].map
      (.pallet ∘ Tasks.exampleInput)
    ++ (List.replicate blocks Connector.Call.incBlock).map (.chain ∘ Connector.exampleInput)

/-- Shard 0 reads the blocks 0 to 9, signs and reports. -/
def exampleRead (calls : List Connector.Call) : List Input :=
  [.sign 1 0, .pallet (Tasks.exampleInput (Tasks.exampleReport 1 (.truncateFrom
    (readEvents (Connector.exampleDb calls) (Connector.exampleAddress 1) ⟨0, 1⟩))))]

def exampleCalls : List Input :=
  exampleStart (Connector.sendCalls.take 3) 10 ++ exampleRead (Connector.sendCalls.take 3)

/-- The target chain may do what it likes. -/
theorem orderly_chain (b : Setup) (first : Nat) (x : State) (c : Connector.Input) :
    Orderly b first x (.chain c) := by
  refine ⟨fun h => ?_, fun h => ?_, fun h => ?_, fun h => ?_, fun h => ?_, fun h => ?_⟩ <;> cases h

/-- A call of the pallet that reports only what is signed. -/
theorem orderly_pallet {c : Tasks.Input} (hhomed : c.Homed b.home)
    (hsync : NoSync b.network x.pallet c)
    (hroot : ∀ origin events, c.call ≠ .submitGmpEvents origin b.network events)
    (hfirst : ∀ {block}, c.call = .gatewayRegistered b.network block → block.toNat = first)
    (hsigned : ∀ {origin taskId events signature},
      c.call = .submitTaskResult origin taskId (.readGatewayEvents events signature) →
      (taskId, events.val) ∈ x.signed) : Orderly b first x (.pallet c) where
  homed h := by
    cases h
    exact hhomed
  sync h := by
    cases h
    exact hsync
  root h := by
    cases h
    exact hroot
  first h := by
    cases h
    exact hfirst
  signed h hcall _ _ _ _ := by
    cases h
    exact hsigned hcall
  small h := by cases h

theorem exampleStart_orderly {calls : List Connector.Call} {blocks : Nat} (x : State) {i : Input}
    (hi : i ∈ exampleStart calls blocks) : Orderly exampleSetup 0 x i := by
  simp only [exampleStart, List.mem_append, List.mem_map, Function.comp] at hi
  rcases hi with (⟨c, -, rfl⟩ | ⟨c, hc, rfl⟩) | ⟨c, -, rfl⟩
  · exact orderly_chain ..
  · simp only [List.mem_cons, List.not_mem_nil, or_false] at hc
    refine orderly_pallet (Tasks.exampleInput_homed ?_) (fun _ _ heq => ?_) (fun _ _ heq => ?_)
      (fun heq => ?_) (fun heq => ?_)
    · rcases hc with rfl | rfl | rfl <;> rfl
    · rcases hc with rfl | rfl | rfl <;> cases heq
    · rcases hc with rfl | rfl | rfl <;> cases heq
    · rcases hc with rfl | rfl | rfl <;> cases heq
      rfl
    · rcases hc with rfl | rfl | rfl <;> cases heq
  · exact orderly_chain ..

/-- The read fits where task 1 reads the first ten blocks and what they
hold is not more than a chunk. -/
theorem exampleRead_run (calls : List Connector.Call) {x : State}
    (hblocks : x.pallet.tasks.get 1 = some (.readGatewayEvents ⟨0, 10⟩))
    (hsmall : (readEvents x.chain (Connector.exampleAddress 1) ⟨0, 10⟩).length < maxGmpEvents)
    (hsigned : (1, (GmpEvents.truncateFrom (readEvents (Connector.exampleDb calls)
      (Connector.exampleAddress 1) ⟨0, 1⟩)).val)
        ∈ (Run.endState (step exampleSetup) x [.sign 1 0]).signed)
    (hall : ((exampleRead calls).foldlM (step exampleSetup) x).isSome = true) :
    Run (step exampleSetup) (Orderly exampleSetup 0) x (exampleRead calls)
      (Run.endState (step exampleSetup) x (exampleRead calls)) := by
  have hsign : Run (step exampleSetup) (Orderly exampleSetup 0) x [.sign 1 0]
      (Run.endState (step exampleSetup) x [.sign 1 0]) := by
    refine .next .start ?_ rfl
    refine ⟨fun h => ?_, fun h => ?_, fun h => ?_, fun h => ?_, fun h => ?_, fun h htask => ?_⟩
    case refine_6 =>
      cases h
      cases hblocks.symm.trans htask
      exact hsmall
    all_goals cases h
  refine Run.endState_next hsign (orderly_pallet (Tasks.exampleInput_homed rfl) (fun _ _ heq => ?_)
    (fun _ _ heq => ?_) (fun heq => ?_) (fun heq => ?_)) hall
  · cases heq
  · cases heq
  · cases heq
  · cases heq
    exact hsigned

theorem exampleCalls_run :
    BridgeRun exampleSetup 0 exampleCalls (Run.endState (step exampleSetup) .init exampleCalls) := by
  have hstart : BridgeRun exampleSetup 0 (exampleStart (Connector.sendCalls.take 3) 10)
      (Run.endState (step exampleSetup) .init (exampleStart (Connector.sendCalls.take 3) 10)) :=
    Run.to_endState (fun x i hi => exampleStart_orderly x hi) (by decide +kernel)
  have hread := hstart.append (exampleRead_run (Connector.sendCalls.take 3)
    (by decide +kernel) (by decide +kernel) (by decide +kernel) (by decide +kernel))
  rwa [exampleCalls, hread.eq_endState]

/-! ## Messages -/

theorem receivedMessages_readEvents (db : Connector.Db) (gateway : Address32)
    (blocks : BlockRange) :
    receivedMessages (readEvents db gateway blocks) = recvMessages db gateway blocks := by
  unfold readEvents recvMessages receivedMessages
  rw [List.filterMap_flatMap]

theorem recvMessages_append (db : Connector.Db) (gateway : Address32) {a c d : Nat}
    (hac : a ≤ c) (hcd : c ≤ d) :
    recvMessages db gateway ⟨a, c⟩ ++ recvMessages db gateway ⟨c, d⟩
      = recvMessages db gateway ⟨a, d⟩ := by
  rw [← receivedMessages_readEvents, ← receivedMessages_readEvents, ← receivedMessages_readEvents,
    ← Connector.readEvents_append db gateway hac hcd, receivedMessages, receivedMessages,
    receivedMessages, List.filterMap_append]

/-- Orderly inputs that execute no message addressed to the gateway. -/
def Addressed (b : Setup) (first : Nat) (x : State) (i : Input) : Prop :=
  Orderly b first x i ∧ ∀ c, i = .chain c → Connector.Unaddressed b.gateway x.chain c

/-- The input is a batch for the target chain. -/
def Input.submits : Input → Bool
  | .chain ⟨_, .submitCommands ..⟩ => true
  | _ => false

end Bridge

end Timechain
