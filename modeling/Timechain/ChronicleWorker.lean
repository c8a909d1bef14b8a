import Timechain.Buckets
import Timechain.ChronicleExecutor
import Timechain.ChronicleTss
import Timechain.Multimap
import Timechain.Run

/-!
# The worker of a chronicle

The loop that ties a chronicle together (`TimeWorker` in
`chronicle/src/shards/service.rs`). Signing requests of the tasks and
messages of other members come in at any time, each with a block number,
and wait in buckets until the worker is told that this block is final. Then
(`on_finality`) the worker

* leaves the shards the chain does not list any more and joins those it
  lists, with the key share on disk if the shard has a commitment;
* tells shards that are committed the commitment;
* signs what was requested, for blocks up to this one;
* lets the executor of every shard that is online start and stop tasks,
  and opens and closes a signing session for each;
* hands the messages that are due to the shards.

After most of these steps a shard is polled for what it wants done: send
messages, publish a commitment, report to be online, answer the task that
asked for a signature (`poll_actions`).

Every query to the chain may fail and makes `on_finality` return early; so
does a key share that is not there. The answers to the queries are part of
the input. The senders of the tasks (`channels`) are numbered in the order
they come in. `log` records what the worker did.
-/

namespace Timechain

namespace Chronicle

structure Message (C : TssCrate) where
  shardId : ShardId
  block : BlockNumber
  payload : C.Message

/-- What the worker did. The first block is the one that was final then; `n`
is the one the request or message was for. -/
inductive Entry (C : TssCrate) where
  | joined (shardId : ShardId)
  | committed (shardId : ShardId) (commitment : C.Vss)
  | signing (block n : BlockNumber) (shardId : ShardId) (taskId : TaskId) (data : List UInt8)
  /-- The shard is unknown, and the channel dropped. -/
  | refused (block n : BlockNumber) (shardId : ShardId) (taskId : TaskId) (data : List UInt8)
  | started (shardId : ShardId) (taskId : TaskId)
  | completed (shardId : ShardId) (taskId : TaskId)
  | handled (block n : BlockNumber) (shardId : ShardId) (peerId : PeerId) (msg : C.Message)
  /-- The shard is unknown. -/
  | dropped (block n : BlockNumber) (shardId : ShardId) (peerId : PeerId) (msg : C.Message)
  /-- Left in a bucket when a message of it failed, with that message. -/
  | lost (block n : BlockNumber) (msgs : List (ShardId × PeerId × C.Message))
  | sent (peerId : PeerId) (msg : Message C)
  | submitCommitment (shardId : ShardId) (commitment : Commitment) (proof : C.ProofOfKnowledge)
  | submitOnline (shardId : ShardId)
  | answered (taskId : TaskId) (channel : Nat) (hash : Bytes 32) (signature : C.Signature)
  /-- The sender was dropped without an answer. -/
  | hungUp (taskId : TaskId) (channel : Nat)

structure Worker (C : TssCrate) where
  peerId : PeerId
  network : NetworkId
  tssStates : StorageMap ShardId (Tss C)
  executorStates : StorageMap ShardId TaskExecutor
  messages : Buckets (ShardId × PeerId × C.Message)
  requests : Buckets (ShardId × TaskId × List UInt8)
  channels : StorageMap TaskId Nat
  /-- `tss_keyshare_cache`. -/
  files : Files
  /-- How many senders have come in. -/
  senders : Nat
  log : List (Entry C)

/-- The places where the chain is asked for the same thing. -/
inductive Place where
  | join
  | commit
  | tasks

/-- A final block, with the answers to the queries made for it (`none` is an
error), the keys drawn and the outcome of what is submitted. A poll that
returns more than `polls` actions does not come to an end. -/
structure Finality (C : TssCrate) where
  blockHash : Hash
  block : BlockNumber
  getShards : Option (List ShardId)
  getShardMembers : ShardId → Option (List (AccountId × MemberStatus))
  getShardThreshold : ShardId → Option Nat
  getMemberPeerId : AccountId → Option (Option PeerId)
  getShardCommitment : Place → ShardId → Option (Option Commitment)
  getShardStatus : Place → ShardId → Option ShardStatus
  processTasks : ShardId → ProcessTasks
  random : ShardId → C.SigningKey
  writable : Bool
  submitCommitment : ShardId → Bool
  submitOnline : ShardId → Bool
  polls : Nat

variable {C : TssCrate}

/-- A `BTreeSet` of peers. -/
def peerSet (peers : List PeerId) : List PeerId :=
  peers.foldl (fun set peer => insertSorted bytesRank peer set) []

namespace Worker

def new (peerId : PeerId) (network : NetworkId) (files : Files) : Worker C where
  peerId := peerId
  network := network
  tssStates := ∅
  executorStates := ∅
  messages := .empty
  requests := .empty
  channels := ∅
  files := files
  senders := 0
  log := []

def record (w : Worker C) (entries : List (Entry C)) : Worker C :=
  { w with log := w.log ++ entries }

def setTss (w : Worker C) (shardId : ShardId) (tss : Tss C) : Worker C :=
  { w with tssStates := w.tssStates.insert shardId tss }

/-- Take a sender out and use it or drop it. -/
def takeChannel (w : Worker C) (taskId : TaskId) (fate : Nat → Entry C) : Worker C :=
  match w.channels.get taskId with
  | none => w
  | some channel => { w with channels := w.channels.remove taskId }.record [fate channel]

variable (f : Finality C)

/-! ## Polling a shard -/

def perform (shardId : ShardId) (block : BlockNumber) (w : Worker C) :
    TssAction C → Outcome (Worker C)
  | .send msgs =>
      .ok (w.record (msgs.map fun e =>
        .sent e.1 ⟨shardId, if C.isResponse e.2 then 0 else block, e.2⟩))
  | .commit commitment proof =>
      -- `unwrap`
      if f.submitCommitment shardId then
        .ok (w.record [.submitCommitment shardId (C.serialize commitment) proof])
      else .panic
  | .publicKey key =>
      match C.keyBytes key with
      | none => .panic
      | some _ =>
          if f.submitOnline shardId then .ok (w.record [.submitOnline shardId]) else .panic
  | .signature taskId hash signature =>
      .ok (w.takeChannel taskId fun channel => .answered taskId channel hash signature)

def pollRounds (shardId : ShardId) (block : BlockNumber) : Nat → Worker C → Outcome (Worker C)
  | 0, _ => .panic
  | rounds + 1, w =>
      match w.tssStates.get shardId with
      -- `unwrap`
      | none => .panic
      | some tss =>
          match tss.nextAction w.files f.writable with
          | none => .panic
          | some (none, tss, files) => .ok { w.setTss shardId tss with files := files }
          | some (some action, tss, files) =>
              (perform f shardId block { w.setTss shardId tss with files := files } action).bind
                (pollRounds shardId block rounds)

def pollActions (shardId : ShardId) (block : BlockNumber) (w : Worker C) : Outcome (Worker C) :=
  pollRounds f shardId block (f.polls + 1) w

/-! ## A final block -/

/-- The peers of a shard. Members whose peer id cannot be found are left
out. -/
def peers (members : List (AccountId × MemberStatus)) : List PeerId :=
  peerSet (members.filterMap fun e => (f.getMemberPeerId e.1).bind id)

def insertTss (w : Worker C) (shardId : ShardId) (members : List PeerId) (threshold : Nat)
    (commitment : Option C.Vss) : Outcome (Worker C) :=
  match Tss.new w.peerId members threshold commitment w.files (f.random shardId) f.writable with
  | .error .error => .error w
  | .error .panic => .panic
  | .ok (tss, files) =>
      pollActions f shardId f.block
        ({ w.setTss shardId tss with files := files }.record [.joined shardId])

def joinShard (w : Worker C) (shardId : ShardId) : Outcome (Worker C) :=
  if w.tssStates.containsKey shardId then .ok w
  else
    match f.getShardMembers shardId with
    | none => .error w
    | some members =>
        match f.getShardThreshold shardId with
        | none => .error w
        | some threshold =>
            match f.getShardCommitment .join shardId with
            | none => .error w
            | some none => insertTss f w shardId (peers f members) threshold none
            | some (some commitment) =>
                match C.deserialize commitment with
                | none => .error w
                | some commitment =>
                    insertTss f w shardId (peers f members) threshold (some commitment)

def commitShard (w : Worker C) (shardId : ShardId) : Outcome (Worker C) :=
  match w.tssStates.get shardId with
  | none => .ok w
  | some tss =>
      if tss.committed then .ok w
      else
        match f.getShardStatus .commit shardId with
        | none => .error w
        | some status =>
            if status ≠ .committed then .ok w
            else
              match f.getShardCommitment .commit shardId with
              | none => .error w
              -- `unwrap`
              | some none => .panic
              | some (some commitment) =>
                  match C.deserialize commitment with
                  | none => .error w
                  | some commitment =>
                      pollActions f shardId f.block
                        ((w.setTss shardId (tss.onCommit commitment)).record
                          [.committed shardId commitment])

def handleRequest (n : BlockNumber) (w : Worker C) (request : ShardId × TaskId × List UInt8) :
    Outcome (Worker C) :=
  match request with
  | (shardId, taskId, data) =>
      match w.tssStates.get shardId with
      | none =>
          .ok ((w.takeChannel taskId (.hungUp taskId)).record
            [.refused f.block n shardId taskId data])
      | some tss =>
          pollActions f shardId f.block
            ((w.setTss shardId (tss.onSign taskId data)).record
              [.signing f.block n shardId taskId data])

def drainRequests : Worker C → Outcome (Worker C) :=
  Buckets.drain requests (fun w rest => { w with requests := rest })
    (fun n bucket w => Outcome.each (handleRequest f n) bucket w) f.block

def runTasks (w : Worker C) (shardId : ShardId) : Outcome (Worker C) :=
  match f.getShardStatus .tasks shardId with
  | none => .error w
  | some status =>
      if status ≠ .online then .ok w
      else
        let executor := w.executorStates.getD shardId (.new w.network)
        let call := { f.processTasks shardId with
          blockHash := f.blockHash, blockNumber := f.block, shardId := shardId }
        let (result, executor) := executor.processTasks call
        let w := { w with executorStates := w.executorStates.insert shardId executor }
        match result with
        | .error _ => .ok w
        | .ok (started, completed, _) =>
            match w.tssStates.get shardId with
            | none => .ok w
            | some tss =>
                let tss := completed.foldl (fun tss session => tss.onComplete session) tss
                let tss := started.foldl (fun tss session => tss.onStart session) tss
                .ok ((w.setTss shardId tss).record
                  (completed.map (.completed shardId) ++ started.map (.started shardId)))

def handleMessage (n : BlockNumber) (w : Worker C) (message : ShardId × PeerId × C.Message) :
    Outcome (Worker C) :=
  match message with
  | (shardId, peerId, msg) =>
      match w.tssStates.get shardId with
      | none => .ok (w.record [.dropped f.block n shardId peerId msg])
      | some tss =>
          match tss.onMessage peerId msg with
          | none => .error w
          | some tss =>
              pollActions f shardId n
                ((w.setTss shardId tss).record [.handled f.block n shardId peerId msg])

/-- The loop over one bucket. It is out of `messages` already when a message
fails. -/
def handleMessages (n : BlockNumber) :
    List (ShardId × PeerId × C.Message) → Worker C → Outcome (Worker C)
  | [], w => .ok w
  | message :: rest, w =>
      match handleMessage f n w message with
      | .ok w => handleMessages n rest w
      | .error w => .error (w.record [.lost f.block n (message :: rest)])
      | .panic => .panic

def drainMessages : Worker C → Outcome (Worker C) :=
  Buckets.drain messages (fun w rest => { w with messages := rest }) (handleMessages f) f.block

/-- Forget the shards that are not listed. -/
def retain (w : Worker C) (shards : List ShardId) : Worker C :=
  { w with
    tssStates := w.tssStates.removeAll
      (((w.tssStates.iter id).map Prod.fst).filter (!shards.contains ·))
    executorStates := w.executorStates.removeAll
      (((w.executorStates.iter id).map Prod.fst).filter (!shards.contains ·)) }

/-- `on_finality` behind the loop that joins shards. -/
def afterJoining (shards : List ShardId) (w : Worker C) : Outcome (Worker C) :=
  (((Outcome.each (commitShard f) shards w).bind (drainRequests f)).bind
    (Outcome.each (runTasks f) shards)).bind (drainMessages f)

def onFinality (w : Worker C) : Outcome (Worker C) :=
  match f.getShards with
  | none => .error w
  | some shards =>
      (Outcome.each (joinShard f) shards (w.retain shards)).bind (afterJoining f shards)

end Worker

/-! ## The loop -/

inductive Input (C : TssCrate) where
  | finality (f : Finality C)
  /-- `TssSigningRequest`. -/
  | request (shardId : ShardId) (block : BlockNumber) (taskId : TaskId) (data : List UInt8)
  | message (peerId : PeerId) (msg : Message C)

namespace Worker

/-- A new sender replaces one that still waits. -/
def onRequest (w : Worker C) (shardId : ShardId) (block : BlockNumber) (taskId : TaskId)
    (data : List UInt8) : Worker C :=
  let w := w.takeChannel taskId (.hungUp taskId)
  { w with
    requests := w.requests.push block (shardId, taskId, data)
    channels := w.channels.insert taskId w.senders
    senders := w.senders + 1 }

def step (w : Worker C) : Input C → Option (Worker C)
  | .finality f => (w.onFinality f).state?
  | .request shardId block taskId data => some (w.onRequest shardId block taskId data)
  | .message peerId msg =>
      some { w with messages := w.messages.push msg.block (msg.shardId, peerId, msg.payload) }

end Worker

/-- A run of the worker from its start. -/
abbrev WorkerRun (ok : Worker C → Input C → Prop) (w : Worker C) :
    List (Input C) → Worker C → Prop :=
  Run Worker.step ok w

/-! ## An example

A chronicle that is the only member of shard 0. The key is a number, a
signature is the key, and the crate for larger shards is not used. -/

def exampleCrate : TssCrate where
  Instance := Unit
  Message := Bool
  Vss := Nat
  ProofOfKnowledge := Unit
  SigningShare := Nat
  SigningKey := UInt8
  VerifyingKey := UInt8
  Signature := UInt8
  isResponse := id
  deserialize commitment := some commitment.val.length
  serialize _ := ⟨[], Nat.zero_le _⟩
  isPeerId _ := true
  new _ _ _ _ := some ()
  committed _ := true
  onCommit _ _ := ()
  onStart _ _ := ()
  onSign _ _ _ := ()
  onComplete _ _ := ()
  onMessage _ _ _ := ()
  nextAction _ := some (none, ())
  keyBytes key := some (Vector.replicate 33 key)
  publicKey := id
  messageHash _ := Vector.replicate 32 0
  signPrehashed key _ := key
  ownCommitment _ := 1
  constructProofOfKnowledge _ _ _ := ()
  signingSharePath commitment := Vector.replicate 32 (UInt8.ofNat commitment)
  encodeShare _ := []
  decodeShare _ := some 0
  encodeKey key := [key]
  decodeKey := List.head?

def examplePeer : PeerId := Vector.replicate 32 7

def exampleTasks : ProcessTasks where
  blockHash := Vector.replicate 32 0
  blockNumber := 0
  shardId := 0
  getGateway := some none
  getCctpInfo := some none
  getShardTasks := some []
  getTask _ := some none
  finalizedBlock _ := some 0
  failedTasks := 0

/-- The chain lists shard 0, in the given status. -/
def exampleFinality (block : BlockNumber) (status : ShardStatus)
    (commitment : Option Commitment) : Finality exampleCrate where
  blockHash := Vector.replicate 32 0
  block := block
  getShards := some [0]
  getShardMembers _ := some [(Vector.replicate 32 0, .added)]
  getShardThreshold _ := some 1
  getMemberPeerId _ := some (some examplePeer)
  getShardCommitment _ _ := some commitment
  getShardStatus _ _ := some status
  processTasks _ := exampleTasks
  random _ := (5 : UInt8)
  writable := true
  submitCommitment _ := true
  submitOnline _ := true
  polls := 2

def exampleCommitment : Commitment :=
  ⟨[Vector.replicate 33 5], Nat.succ_le_of_lt (Nat.succ_pos 99)⟩

/-- A message, a request for block 2 and one for block 1 come in before the
shard is there, and a message and a request after it. -/
def exampleInputs : List (Input exampleCrate) :=
  [.message examplePeer ⟨0, 1, (false : Bool)⟩, .request 0 2 8 [1, 2], .request 0 1 9 [3],
    .finality (exampleFinality 1 .created none), .message examplePeer ⟨4, 1, (true : Bool)⟩,
    .finality (exampleFinality 2 .committed (some exampleCommitment))]

theorem exampleInputs_run :
    WorkerRun (fun _ _ => True) (.new examplePeer 0 ∅) exampleInputs
      (Run.endState Worker.step (.new examplePeer 0 ∅) exampleInputs) :=
  Run.to_endState (fun _ _ _ => trivial) (by decide +kernel)

end Chronicle

end Timechain
