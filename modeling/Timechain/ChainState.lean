import Timechain.TasksPallet

/-!
# Storage of the members, elections and shards pallets

The chain around the tasks pallet: `pallets/members` keeps who is
registered and who is online, `pallets/elections` the online members
that wait for a shard, and `pallets/shards` the shards, their members
and how far their key generation is. The three call each other and the
tasks pallet, so they share one state with a store for each.

The hooks of a block run once, in the block they are for. `dueHooks`
are those that have not run yet; block numbers are `u32` and end the
chain when they run out.
-/

namespace Timechain

/-! ## Primitives -/

abbrev PeerId : Type := Bytes 32
abbrev ProofOfKnowledge : Type := Bytes 65
abbrev BlockNumber : Type := Nat

/-- `MultiSigner`. -/
inductive PublicKey where
  | ed25519 (key : Bytes 32)
  | sr25519 (key : Bytes 32)
  | ecdsa (key : Bytes 33)
deriving DecidableEq

def PublicKey.intoAccount (blake2 : List UInt8 → Bytes 32) : PublicKey → AccountId
  | .ed25519 key => key
  | .sr25519 key => key
  | .ecdsa key => blake2 key.toList

/-- `MAX_SHARD_SIZE`, the capacity of a commitment. -/
def maxShardSize : Nat := 100

/-- A bounded vector of group elements. -/
abbrev Commitment : Type := { keys : List TssPublicKey // keys.length ≤ maxShardSize }

inductive MemberStatus where
  | added
  | committed (commitment : Commitment)
  | ready
deriving DecidableEq

def MemberStatus.commitment : MemberStatus → Option Commitment
  | .committed commitment => some commitment
  | _ => none

def MemberStatus.isCommitted (status : MemberStatus) : Bool := status.commitment.isSome

inductive ShardStatus where
  | created
  | committed
  | online
  | offline
deriving DecidableEq

/-- `Created | Committed`: the shard has no key yet. -/
def ShardStatus.isPending : ShardStatus → Bool
  | .created => true
  | .committed => true
  | _ => false

theorem ShardStatus.exists_of_any {status : Option ShardStatus}
    (h : status.any ShardStatus.isPending = true) :
    ∃ old, status = some old ∧ old.isPending = true := by
  cases status with
  | none => cases h
  | some old => exact ⟨old, rfl, h⟩

namespace Chain

open Tasks (Origin)

/-! ## Configuration -/

/-- Constants of the runtime and functions of other crates.
`accountKey` is the storage order of maps keyed by accounts. -/
structure Config where
  tasks : Tasks.Config
  adminOrigin : Origin → Bool
  blake2 : List UInt8 → Bytes 32
  heartbeatTimeout : BlockNumber
  maxTimeoutsPerBlock : Nat
  maxElectionsPerBlock : Nat
  maxElectionsPerBlock_lt : maxElectionsPerBlock < 2 ^ 32
  dkgTimeout : BlockNumber
  /-- `VerifyingKey::from_bytes` accepts the key. -/
  isVerifyingKey : TssPublicKey → Bool
  /-- The sum of two keys, if it has an encoding. -/
  addKeys : TssPublicKey → TssPublicKey → Option TssPublicKey
  verifyProofOfKnowledge : PeerId → List TssPublicKey → ProofOfKnowledge → Bool
  accountKey : AccountId → Nat

/-- What the pallets ask the networks pallet during one call. -/
structure Networks where
  getNetworks : List NetworkId
  shardSize : NetworkId → UInt16
  shardThreshold : NetworkId → UInt16
  gateway : NetworkId → Option Address32
  nextBatchSize : NetworkId → Nat → Nat
  batchGasLimit : NetworkId → Nat
  shardTaskLimit : NetworkId → UInt32

/-! ## Storage -/

inductive MembersEvent where
  | registeredMember (member : AccountId) (network : NetworkId) (peerId : PeerId)
  | heartbeatReceived (member : AccountId)
  | memberOnline (member : AccountId)
  | membersOffline (members : List AccountId)
  | unRegisteredMember (member : AccountId) (network : NetworkId)

structure MembersStore where
  memberNetwork : StorageMap AccountId NetworkId
  memberPeerId : StorageMap AccountId PeerId
  memberPublicKey : StorageMap AccountId PublicKey
  memberOnline : StorageMap AccountId Unit
  heartbeat : StorageMap AccountId Unit
  timedOut : List AccountId
  memberRegistered : StorageMap AccountId Unit
  events : List MembersEvent

structure ElectionsStore where
  networkCounter : Nat
  unassigned : StorageMap NetworkId (List AccountId)

inductive ShardsEvent where
  | shardCreated (shard : ShardId) (network : NetworkId)
  | shardCommitted (shard : ShardId) (commitment : Commitment)
  | shardOnline (shard : ShardId) (key : TssPublicKey)
  | shardsOffline (shards : List ShardId)

/-- A shard as it was elected. -/
structure Created where
  shard : ShardId
  network : NetworkId
  members : List AccountId

structure ShardsStore where
  shardIdCounter : Nat
  shardNetwork : StorageMap ShardId NetworkId
  shardState : StorageMap ShardId ShardStatus
  dkgTimeoutCounter : StorageMap BlockNumber Nat
  dkgTimeout : StorageMap (BlockNumber × ShardId) Unit
  shardThreshold : StorageMap ShardId Nat
  shardCommitment : StorageMap ShardId Commitment
  memberShard : StorageMap AccountId ShardId
  shardMembers : StorageMap (ShardId × AccountId) MemberStatus
  shardMembersOnline : StorageMap ShardId Nat
  events : List ShardsEvent
  /-- History: every shard ever created. -/
  createdShards : List Created

/-- The pallets with an `on_initialize` hook. -/
inductive Hook where
  | members
  | shards
  | elections
  | tasks
deriving DecidableEq

structure State where
  blockNumber : BlockNumber
  /-- Hooks of the current block that have not run. -/
  dueHooks : List Hook
  members : MembersStore
  elections : ElectionsStore
  shards : ShardsStore
  tasks : Tasks.State

inductive DispatchError where
  | badOrigin
  | notMember
  | notRegistered
  | alreadySubmittedHeartbeat
  | unknownShardNetwork
  | unknownShardCommitment
  | unexpectedCommit
  | memberPeerIdNotFound
  | commitmentLenNotEqualToThreshold
  | invalidVerifyingKeyInCommitment
  | invalidCommitment
  | invalidProofOfKnowledge
  | unexpectedReady
deriving DecidableEq

/-- Storage at genesis. -/
def State.genesis : State where
  blockNumber := 0
  dueHooks := []
  members :=
    { memberNetwork := ∅
      memberPeerId := ∅
      memberPublicKey := ∅
      memberOnline := ∅
      heartbeat := ∅
      timedOut := []
      memberRegistered := ∅
      events := [] }
  elections :=
    { networkCounter := 0
      unassigned := ∅ }
  shards :=
    { shardIdCounter := 0
      shardNetwork := ∅
      shardState := ∅
      dkgTimeoutCounter := ∅
      dkgTimeout := ∅
      shardThreshold := ∅
      shardCommitment := ∅
      memberShard := ∅
      shardMembers := ∅
      shardMembersOnline := ∅
      events := []
      createdShards := [] }
  tasks := .genesis

end Chain

end Timechain
