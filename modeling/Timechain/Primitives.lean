import Timechain.Arith
import Timechain.Codec

/-!
# Primitives: messages, ops, batches, tasks

The data the pallets and the chronicle exchange (`primitives/src/gmp.rs`,
`primitives/src/task.rs`, `primitives/src/shard.rs`), with the byte
encodings that are signed or hashed, and the `BatchBuilder` that packs
queued ops into batches.

Fixed-width integers that are only compared or encoded keep their width
(`UInt16`, `UInt64`, `BitVec 128`). Ids that are counted are natural
numbers; the functions that bump them saturate at the source's width.
-/

namespace Timechain

/-! ## Identifiers -/

abbrev NetworkId : Type := UInt16
abbrev ShardId : Type := Nat
abbrev TaskId : Type := Nat
abbrev BatchId : Type := Nat
abbrev AccountId : Type := Bytes 32
abbrev Address32 : Type := Bytes 32
abbrev MessageId : Type := Bytes 32
abbrev Hash : Type := Bytes 32
abbrev TssPublicKey : Type := Bytes 33
abbrev TssSignature : Type := Bytes 64

/-! ## Gateway messages -/

structure GmpMessage where
  srcNetwork : NetworkId
  destNetwork : NetworkId
  src : Address32
  dest : Address32
  nonce : UInt64
  gasLimit : BitVec 128
  gasCost : BitVec 128
  bytes : List UInt8
deriving DecidableEq

namespace GmpMessage

/-- The 224-byte header: seven words, the first one zero. `gasCost` and
`bytes` are not part of it. -/
def encodeHeader (m : GmpMessage) : List UInt8 :=
  List.replicate 32 0
    ++ Codec.leftPad32 m.src.toList
    ++ Codec.leftPad32 (Codec.beBytes 2 m.srcNetwork.toNat)
    ++ Codec.leftPad32 m.dest.toList
    ++ Codec.leftPad32 (Codec.beBytes 2 m.destNetwork.toNat)
    ++ Codec.leftPad32 (Codec.beBytes 16 m.gasLimit.toNat)
    ++ Codec.leftPad32 (Codec.beBytes 8 m.nonce.toNat)

/-- `message_id`, for a given Keccak-256. -/
def messageId (keccak256 : List UInt8 → Hash) (m : GmpMessage) : MessageId :=
  keccak256 m.encodeHeader

/-- SCALE encoding, fields in declaration order. -/
def encode (m : GmpMessage) : List UInt8 :=
  Codec.leBytes 2 m.srcNetwork.toNat ++ Codec.leBytes 2 m.destNetwork.toNat
    ++ m.src.toList ++ m.dest.toList ++ Codec.leBytes 8 m.nonce.toNat
    ++ Codec.leBytes 16 m.gasLimit.toNat ++ Codec.leBytes 16 m.gasCost.toNat
    ++ Codec.encodeVec (fun b => [b]) m.bytes

end GmpMessage

inductive GatewayOp where
  | sendMessage (msg : GmpMessage)
  | registerShard (key : TssPublicKey)
  | unregisterShard (key : TssPublicKey)
deriving DecidableEq

/-- Gas an op is charged for: the message's cost, or the flat price of a
shard registration. -/
def GatewayOp.gas : GatewayOp → Nat
  | .sendMessage msg => msg.gasCost.toNat
  | _ => 40000

structure GatewayMessage where
  ops : List GatewayOp
deriving DecidableEq

/-- `GatewayMessage::gas`: a saturating `u128` sum. -/
def GatewayMessage.gas (m : GatewayMessage) : Nat :=
  m.ops.foldl (fun acc op => satAdd 128 acc op.gas) 0

/-! ## The batch builder -/

structure BatchBuilder where
  batchGasLimit : Nat
  gas : Nat
  ops : List GatewayOp

namespace BatchBuilder

def new (batchGasLimit : Nat) : BatchBuilder := ⟨batchGasLimit, 0, []⟩

def takeBatch (b : BatchBuilder) : Option GatewayMessage × BatchBuilder :=
  if b.ops.isEmpty then (none, b)
  else (some ⟨b.ops⟩, { b with gas := 0, ops := [] })

/-- `push`: flush the collected ops first when `op` would exceed the
limit. The source never adds `op.gas` to the builder's `gas`. -/
def push (b : BatchBuilder) (op : GatewayOp) : Option GatewayMessage × BatchBuilder :=
  let (batch, b) :=
    if b.gas + op.gas > b.batchGasLimit then b.takeBatch else (none, b)
  (batch, { b with ops := b.ops ++ [op] })

end BatchBuilder

/-! ## Gateway events -/

inductive GmpEvent where
  | shardRegistered (key : TssPublicKey)
  | shardUnregistered (key : TssPublicKey)
  | messageReceived (msg : GmpMessage)
  | messageExecuted (id : MessageId)
  | batchExecuted (batchId : BatchId) (txHash : Option Hash)
deriving DecidableEq

/-- SCALE encoding: the variant index, then its fields. -/
def GmpEvent.encode : GmpEvent → List UInt8
  | .shardRegistered key => 0 :: key.toList
  | .shardUnregistered key => 1 :: key.toList
  | .messageReceived msg => 2 :: msg.encode
  | .messageExecuted id => 3 :: id.toList
  | .batchExecuted batchId txHash =>
      4 :: Codec.leBytes 8 batchId ++ Codec.encodeOption Vector.toList txHash

/-- Batch ids a list of events reports as executed. -/
def executedBatches (events : List GmpEvent) : List BatchId :=
  events.filterMap fun
    | .batchExecuted batchId _ => some batchId
    | _ => none

/-- Messages a list of events reports as received. -/
def receivedMessages (events : List GmpEvent) : List GmpMessage :=
  events.filterMap fun
    | .messageReceived msg => some msg
    | _ => none

/-! ## Tasks -/

/-- `Range<u64>`: the blocks from `start` up to, not including, `stop`. -/
structure BlockRange where
  start : Nat
  stop : Nat
deriving DecidableEq

namespace BlockRange

def Mem (block : Nat) (r : BlockRange) : Prop := r.start ≤ block ∧ block < r.stop

/-- No block lies in both ranges. -/
def Disjoint (r r' : BlockRange) : Prop := ∀ block, ¬(r.Mem block ∧ r'.Mem block)

theorem disjoint_of_stop_le {r r' : BlockRange} (h : r.stop ≤ r'.start) : r.Disjoint r' := by
  rintro block ⟨⟨-, h₁⟩, h₂, -⟩
  omega

end BlockRange

inductive Task where
  | readGatewayEvents (blocks : BlockRange)
  | submitGatewayMessage (batchId : BatchId)
deriving DecidableEq

def Task.needsRegistration : Task → Bool
  | .readGatewayEvents _ => false
  | .submitGatewayMessage _ => true

/-- `MAX_GMP_EVENTS`. -/
def maxGmpEvents : Nat := 10000

/-- `MAX_ERROR_LEN`. -/
def maxErrorLen : Nat := 10000

/-- A bounded list of events: longer lists do not decode. -/
structure GmpEvents where
  val : List GmpEvent
  length_le : val.length ≤ maxGmpEvents
deriving DecidableEq

/-- `BoundedVec::truncate_from`. -/
def GmpEvents.truncateFrom (events : List GmpEvent) : GmpEvents :=
  ⟨events.take maxGmpEvents, List.length_take_le ..⟩

structure ErrorMsg where
  val : List UInt8
  length_le : val.length ≤ maxErrorLen
deriving DecidableEq

inductive TaskResult where
  | readGatewayEvents (events : GmpEvents) (signature : TssSignature)
  | submitGatewayMessage (error : ErrorMsg)

/-- The payload a shard signs for a chunk of events. -/
def encodeGmpEvents (taskId : TaskId) (events : List GmpEvent) : List UInt8 :=
  Codec.leBytes 8 taskId ++ Codec.encodeVec GmpEvent.encode events

end Timechain
