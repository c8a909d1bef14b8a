import Timechain.ChainState

/-!
# The members, elections and shards pallets

The functions of `pallets/members`, `pallets/elections` and
`pallets/shards` as state transformers, each in the namespace of its
pallet. The pallets call each other (a missed heartbeat runs through
members, elections, shards and tasks, and back to elections and
members), so the functions come in the order in which they are used
rather than pallet by pallet.

A dispatchable returns `Except`; a failed one is rolled back. What may
panic returns `Option`.
-/

namespace Timechain

namespace Chain

open Tasks (Origin)

/-- `BTreeMap<NetworkId, Vec<AccountId>>`: accounts by network. -/
abbrev Groups : Type := StorageMap NetworkId (List AccountId)

/-- `groups.entry(network).or_default().extend(members)`. -/
def Groups.extend (groups : Groups) (network : NetworkId) (members : List AccountId) : Groups :=
  groups.insert network (groups.getD network [] ++ members)

/-- In the order of the networks. -/
def Groups.toList (groups : Groups) : List (NetworkId × List AccountId) :=
  groups.iter UInt16.toNat

/-- `ensure!`. -/
def ensure (condition : Bool) (e : DispatchError) : Except DispatchError Unit :=
  if condition then .ok () else .error e

/-- `ok_or`. -/
def okOr {α : Type} (x : Option α) (e : DispatchError) : Except DispatchError α :=
  match x with
  | some a => .ok a
  | none => .error e

theorem ensure_ok {condition : Bool} {e : DispatchError} {u : Unit}
    (h : ensure condition e = .ok u) : condition = true := by
  rw [ensure] at h
  split at h
  · next hc => exact hc
  · cases h

theorem okOr_ok {α : Type} {x : Option α} {e : DispatchError} {a : α} (h : okOr x e = .ok a) :
    x = some a := by
  cases x with
  | none => cases h
  | some b =>
      cases h
      rfl

/-! ## What the pallets ask each other -/

namespace Shards

def isShardMember (s : ShardsStore) (member : AccountId) : Bool := s.memberShard.containsKey member

/-- `ShardMembers::iter_prefix(shard)`. -/
def getShardMembers (cfg : Config) (s : ShardsStore) (shard : ShardId) :
    List (AccountId × MemberStatus) := s.shardMembers.iterPrefix cfg.accountKey shard

/-- The first key of the group commitment. -/
def tssPublicKey (s : ShardsStore) (shard : ShardId) : Option TssPublicKey :=
  (s.shardCommitment.get shard).bind fun commitment => commitment.val.head?

/-- `commitment.0[0]` is out of bounds. -/
def keyMissing (s : ShardsStore) (shard : ShardId) : Bool :=
  (s.shardCommitment.get shard).any fun commitment => commitment.val.isEmpty

end Shards

/-- The other pallets as the tasks pallet sees them. -/
def State.tasksEnv (s : State) (cfg : Config) (networks : Networks) : Tasks.Env where
  shards :=
    { isShardOnline := fun shard => s.shards.shardState.get shard == some .online
      shardMembers := fun shard => (Shards.getShardMembers cfg s.shards shard).map Prod.fst
      shardNetwork := s.shards.shardNetwork.get
      tssPublicKey := Shards.tssPublicKey s.shards }
  networks :=
    { gateway := networks.gateway
      nextBatchSize := networks.nextBatchSize
      batchGasLimit := networks.batchGasLimit
      shardTaskLimit := fun network => (networks.shardTaskLimit network).toNat }

namespace Members

def isMemberOnline (s : MembersStore) (account : AccountId) : Bool :=
  s.memberOnline.containsKey account

def isMemberRegistered (s : MembersStore) (account : AccountId) : Bool :=
  s.memberRegistered.containsKey account

def doUnregisterMember (shards : ShardsStore) (s : MembersStore) (account : AccountId) :
    MembersStore :=
  if !Shards.isShardMember shards account then
    { s with
      memberNetwork := s.memberNetwork.remove account
      memberPeerId := s.memberPeerId.remove account
      memberPublicKey := s.memberPublicKey.remove account }
  else s

end Members

/-! ## Shards going offline -/

namespace Elections

/-- `sort_by(|a, b| a.cmp(b).reverse())`. -/
def sortMembers (members : List AccountId) : List AccountId :=
  members.insertionSort fun a b => b.toList ≤ a.toList

/-- `Unassigned::mutate(network, f)`. -/
def mutateUnassigned (s : ElectionsStore) (network : NetworkId)
    (f : List AccountId → List AccountId) : ElectionsStore :=
  { s with unassigned := s.unassigned.insert network (f (s.unassigned.getD network [])) }

/-- What becomes of a member of a dissolved shard: one that was
unregistered meanwhile is forgotten, an online one is batched. -/
def settleMember (shards : ShardsStore) (acc : MembersStore × List AccountId)
    (member : AccountId) : MembersStore × List AccountId :=
  if !Members.isMemberRegistered acc.1 member then
    (Members.doUnregisterMember shards acc.1 member, acc.2)
  else if Members.isMemberOnline acc.1 member then (acc.1, acc.2 ++ [member])
  else acc

def shardOffline (s : State) (group : NetworkId × List AccountId) : State :=
  let (members, batch) := group.2.foldl (settleMember s.shards) (s.members, [])
  { s with
    members := members
    elections := mutateUnassigned s.elections group.1 fun unassigned =>
      sortMembers (unassigned ++ batch) }

end Elections

namespace Shards

/-- First pass of `remove_shards_offline` over one shard. An empty
commitment makes `tss_public_key` panic. -/
def takeOffline (cfg : Config) (networks : Networks) (acc : State × Groups) (shard : ShardId) :
    Option (State × Groups) :=
  let (s, updates) := acc
  let s := { s with shards := { s.shards with
    shardState := s.shards.shardState.insert shard .offline
    shardThreshold := s.shards.shardThreshold.remove shard } }
  match s.shards.shardNetwork.get shard with
  | none => some (s, updates)
  | some network =>
      let s := { s with shards := { s.shards with
        shardNetwork := s.shards.shardNetwork.remove shard } }
      if keyMissing s.shards shard then none
      else
        let s := { s with
          tasks := s.tasks.shardOffline cfg.tasks (s.tasksEnv cfg networks) shard network }
        let members := (getShardMembers cfg s.shards shard).map Prod.fst
        let s := { s with shards := { s.shards with
          shardMembers := s.shards.shardMembers.removeAll (members.map fun m => (shard, m))
          memberShard := s.shards.memberShard.removeAll members } }
        some (s, updates.extend network members)

def depositEvent (s : State) (event : ShardsEvent) : State :=
  { s with shards := { s.shards with events := s.shards.events ++ [event] } }

def removeShardsOffline (s : State) (cfg : Config) (networks : Networks)
    (shards : List ShardId) : Option State := do
  let (s, updates) ← shards.foldlM (takeOffline cfg networks) (s, ∅)
  return depositEvent (updates.toList.foldl Elections.shardOffline s) (.shardsOffline shards)

def timeoutDkgs (s : State) (cfg : Config) (networks : Networks) (n : BlockNumber) :
    Option State :=
  let drained := (s.shards.dkgTimeout.iterPrefix cfg.tasks.shardKey n).map Prod.fst
  let s := { s with shards := { s.shards with
    dkgTimeout := s.shards.dkgTimeout.removeAll (drained.map fun shard => (n, shard)) } }
  let shardsToRemove := drained.filter fun shard =>
    (s.shards.shardState.get shard).any ShardStatus.isPending
  (if shardsToRemove.isEmpty then some s
    else removeShardsOffline s cfg networks shardsToRemove).map fun s =>
    { s with shards := { s.shards with
      dkgTimeoutCounter := s.shards.dkgTimeoutCounter.remove n } }

/-! ## Members going on- and offline -/

def memberOnline (s : ShardsStore) (member : AccountId) : ShardsStore :=
  match s.memberShard.get member with
  | none => s
  | some shard =>
      match s.shardState.get shard with
      | none => s
      | some oldStatus =>
          { s with
            shardMembersOnline := s.shardMembersOnline.insert shard
              (satSucc 16 (s.shardMembersOnline.getD shard 0))
            shardState :=
              if oldStatus.isPending then s.shardState.insert shard .offline else s.shardState }

/-- The status of a shard after one of its members went offline. -/
def nextStatus (oldStatus : ShardStatus) (onlineCount threshold : Nat) : ShardStatus :=
  match oldStatus with
  | .created => .offline
  | .committed => .offline
  | .online => if onlineCount < threshold then .offline else .online
  | .offline => .offline

/-- Online count and status per shard, and the shards to remove. -/
abbrev Updates : Type := StorageMap ShardId (Nat × Option ShardStatus) × List ShardId

/-- First pass of `members_offline` over one member. -/
def noteOffline (s : ShardsStore) (acc : Updates) (member : AccountId) : Updates :=
  match s.memberShard.get member with
  | none => acc
  | some shard =>
      let (online, status) :=
        acc.1.getD shard (s.shardMembersOnline.getD shard 0, s.shardState.get shard)
      let online := online - 1
      match status, s.shardThreshold.get shard with
      | some oldStatus, some threshold =>
          let newStatus := nextStatus oldStatus online threshold
          (acc.1.insert shard (online, some newStatus),
            if newStatus = .offline ∧ oldStatus ≠ .offline then acc.2 ++ [shard] else acc.2)
      | _, _ => (acc.1.insert shard (online, status), acc.2)

/-- Storage update of one shard. -/
def writeUpdate (s : ShardsStore) (update : ShardId × Nat × Option ShardStatus) : ShardsStore :=
  let (shard, online, status) := update
  { s with
    shardMembersOnline :=
      s.shardMembersOnline.insert shard (if online < 2 ^ 16 then online else 0)
    shardState :=
      match status with
      | some newStatus => s.shardState.insert shard newStatus
      | none => s.shardState }

def membersOffline (s : State) (cfg : Config) (networks : Networks) (members : List AccountId) :
    Option State :=
  let (updates, shardsToRemove) := members.foldl (noteOffline s.shards) (∅, [])
  let s := { s with shards := (updates.iter id).foldl writeUpdate s.shards }
  if shardsToRemove.isEmpty then some s
  else removeShardsOffline s cfg networks shardsToRemove

end Shards

namespace Elections

def memberOnline (s : State) (member : AccountId) (network : NetworkId) : State :=
  let s :=
    if !Shards.isShardMember s.shards member then
      { s with elections := mutateUnassigned s.elections network fun members =>
          sortMembers (members ++ [member]) }
    else s
  { s with shards := Shards.memberOnline s.shards member }

def membersOffline (s : State) (cfg : Config) (networks : Networks) (members : List AccountId)
    (network : NetworkId) : Option State :=
  Shards.membersOffline
    { s with elections := mutateUnassigned s.elections network fun unassigned =>
        unassigned.filter fun m => !members.contains m } cfg networks members

end Elections

namespace Members

def depositEvent (s : State) (event : MembersEvent) : State :=
  { s with members := { s.members with events := s.members.events ++ [event] } }

def memberOnline (s : State) (member : AccountId) (network : NetworkId) : State :=
  let s := { s with members := { s.members with
    memberOnline := s.members.memberOnline.insert member () } }
  Elections.memberOnline (depositEvent s (.memberOnline member)) member network

def membersOffline (cfg : Config) (networks : Networks) (s : State)
    (group : NetworkId × List AccountId) : Option State :=
  let s := { s with members := { s.members with
    memberOnline := s.members.memberOnline.removeAll group.2 } }
  Elections.membersOffline (depositEvent s (.membersOffline group.2)) cfg networks group.2 group.1

/-! ## Heartbeats -/

/-- Split the timed-out members: up to the limit they are grouped by
their network, the others stay for the next time. -/
def groupTimedOut (cfg : Config) (s : MembersStore) :
    List AccountId → (numTimeouts : Nat) → Groups → List AccountId → Groups × List AccountId
  | [], _, current, next => (current, next)
  | member :: members, numTimeouts, current, next =>
      if numTimeouts ≥ cfg.maxTimeoutsPerBlock then
        groupTimedOut cfg s members numTimeouts current (next ++ [member])
      else
        match s.memberNetwork.get member with
        | some network =>
            groupTimedOut cfg s members (numTimeouts + 1) (current.extend network [member]) next
        | none => groupTimedOut cfg s members numTimeouts current (next ++ [member])

def timeoutHeartbeats (s : State) (cfg : Config) (networks : Networks) : Option State := do
  let (current, next) := groupTimedOut cfg s.members s.members.timedOut 0 ∅ []
  let s ← current.toList.foldlM (membersOffline cfg networks) s
  let heartbeats := (s.members.heartbeat.iter cfg.accountKey).map Prod.fst
  return { s with members := { s.members with
    heartbeat := ∅
    timedOut := next ++ heartbeats } }

def onInitialize (s : State) (cfg : Config) (networks : Networks) (n : BlockNumber) :
    Option State :=
  if cfg.heartbeatTimeout = 0 then none
  else if n % cfg.heartbeatTimeout = 0 then timeoutHeartbeats s cfg networks
  else some s

/-! ## Dispatchables of the members pallet -/

def executeRegisterMember (s : State) (cfg : Config) (network : NetworkId)
    (publicKey : PublicKey) (peerId : PeerId) : State :=
  let member := publicKey.intoAccount cfg.blake2
  let s := { s with members := { s.members with
    memberNetwork := s.members.memberNetwork.insert member network
    memberPublicKey := s.members.memberPublicKey.insert member publicKey
    memberPeerId := s.members.memberPeerId.insert member peerId
    memberRegistered := s.members.memberRegistered.insert member () } }
  depositEvent s (.registeredMember member network peerId)

def executeSendHeartbeat (s : State) (member : AccountId) : Except DispatchError State := do
  ensure (!s.members.heartbeat.containsKey member) .alreadySubmittedHeartbeat
  let network ← okOr (s.members.memberNetwork.get member) .notMember
  let s := if !isMemberOnline s.members member then memberOnline s member network else s
  let s := { s with members := { s.members with
    heartbeat := s.members.heartbeat.insert member ()
    timedOut := s.members.timedOut.filter fun m => m ≠ member } }
  return depositEvent s (.heartbeatReceived member)

def executeUnregisterMember (s : State) (member : AccountId) : Except DispatchError State := do
  let network ← okOr (s.members.memberNetwork.get member) .notMember
  ensure (s.members.memberRegistered.containsKey member) .notRegistered
  let members := { s.members with
    memberRegistered := s.members.memberRegistered.remove member }
  let s := { s with members := doUnregisterMember s.shards members member }
  return depositEvent s (.unRegisteredMember member network)

end Members

/-! ## Key generation -/

namespace Shards

/-- Add a commitment to the group's, key by key. -/
def addKeys (cfg : Config) : List TssPublicKey → List TssPublicKey → Option (List TssPublicKey)
  | g :: group, c :: commitment => do
      let key ← cfg.addKeys g c
      let keys ← addKeys cfg group commitment
      return key :: keys
  | group, _ => some group

theorem addKeys_length {cfg : Config} {group commitment keys : List TssPublicKey}
    (h : addKeys cfg group commitment = some keys) : keys.length = group.length := by
  induction group generalizing commitment keys with
  | nil =>
      cases h
      rfl
  | cons g group ih =>
      cases commitment with
      | nil =>
          cases h
          rfl
      | cons c commitment =>
          obtain ⟨key, -, h⟩ := Option.bind_eq_some_iff.mp h
          obtain ⟨rest, hrest, h⟩ := Option.bind_eq_some_iff.mp h
          cases h
          rw [List.length_cons, List.length_cons, ih hrest]

def addCommitment (cfg : Config) (group commitment : Commitment) : Option Commitment :=
  match h : addKeys cfg group.val commitment.val with
  | some keys => some ⟨keys, addKeys_length h ▸ group.property⟩
  | none => none

/-- When every member has committed, the group's commitment is theirs
added up. A sum without an encoding is a panic. -/
def commitShard (s : State) (cfg : Config) (shard : ShardId) :
    Except DispatchError (Option State) :=
  let statuses := (getShardMembers cfg s.shards shard).map Prod.snd
  if statuses.all MemberStatus.isCommitted then
    match statuses.filterMap MemberStatus.commitment with
    | [] => throw .invalidCommitment
    | first :: rest =>
        return (rest.foldlM (addCommitment cfg) first).map fun group =>
          depositEvent { s with shards := { s.shards with
            shardCommitment := s.shards.shardCommitment.insert shard group
            shardState := s.shards.shardState.insert shard .committed } }
            (.shardCommitted shard group)
  else return some s

def executeCommit (s : State) (cfg : Config) (member : AccountId) (shard : ShardId)
    (commitment : Commitment) (proofOfKnowledge : ProofOfKnowledge) :
    Except DispatchError (Option State) := do
  ensure (s.shards.shardMembers.get (shard, member) = some .added) .unexpectedCommit
  let threshold := s.shards.shardThreshold.getD shard 0
  ensure (commitment.val.length = threshold) .commitmentLenNotEqualToThreshold
  ensure (commitment.val.all cfg.isVerifyingKey) .invalidVerifyingKeyInCommitment
  let peerId ← okOr (s.members.memberPeerId.get member) .memberPeerIdNotFound
  ensure (cfg.verifyProofOfKnowledge peerId commitment.val proofOfKnowledge)
    .invalidProofOfKnowledge
  let s := { s with shards := { s.shards with
    shardMembers := s.shards.shardMembers.insert (shard, member) (.committed commitment) } }
  commitShard s cfg shard

/-- When every member is ready, the shard goes online. An empty commitment
has no key to announce. -/
def openShard (s : State) (cfg : Config) (networks : Networks) (shard : ShardId)
    (network : NetworkId) (commitment : Commitment) : Option State :=
  if (getShardMembers cfg s.shards shard).all fun m => m.2 = .ready then
    let s := { s with shards := { s.shards with
      shardState := s.shards.shardState.insert shard .online } }
    commitment.val.head?.map fun key =>
      let s := depositEvent s (.shardOnline shard key)
      { s with tasks := s.tasks.shardOnline (s.tasksEnv cfg networks) shard network }
  else some s

def executeReady (s : State) (cfg : Config) (networks : Networks) (member : AccountId)
    (shard : ShardId) : Except DispatchError (Option State) := do
  ensure ((s.shards.shardMembers.get (shard, member)).any MemberStatus.isCommitted)
    .unexpectedReady
  let network ← okOr (s.shards.shardNetwork.get shard) .unknownShardNetwork
  let commitment ← okOr (s.shards.shardCommitment.get shard) .unknownShardCommitment
  let s := { s with shards := { s.shards with
    shardMembers := s.shards.shardMembers.insert (shard, member) .ready } }
  return openShard s cfg networks shard network commitment

/-! ## Elections -/

/-- `create_shard`; `none` if the block's shards have all been created. -/
def createShard (cfg : Config) (blockNumber : BlockNumber) (network : NetworkId)
    (threshold : Nat) (s : ShardsStore) (members : List AccountId) : Option ShardsStore :=
  let dkgTimeoutBlock := satAdd 32 blockNumber cfg.dkgTimeout
  let dkgTimeoutCounter := s.dkgTimeoutCounter.getD dkgTimeoutBlock 0
  if dkgTimeoutCounter < cfg.maxElectionsPerBlock then
    let shard := s.shardIdCounter
    some { s with
      dkgTimeoutCounter := s.dkgTimeoutCounter.insert dkgTimeoutBlock (satSucc 32 dkgTimeoutCounter)
      shardIdCounter := satSucc 64 shard
      shardNetwork := s.shardNetwork.insert shard network
      shardState := s.shardState.insert shard .created
      dkgTimeout := s.dkgTimeout.insert (dkgTimeoutBlock, shard) ()
      shardThreshold := s.shardThreshold.insert shard threshold
      shardMembers := s.shardMembers.insertAll (members.map fun member => (shard, member)) .added
      memberShard := s.memberShard.insertAll members shard
      shardMembersOnline := s.shardMembersOnline.insert shard (members.length % 2 ^ 16)
      events := s.events ++ [.shardCreated shard network]
      createdShards := s.createdShards ++ [⟨shard, network, members⟩] }
  else none

end Shards

namespace Elections

/-- The loop over the chunks of elected members: the number of shards
created, and the members that found no place. -/
def createShards (create : ShardsStore → List AccountId → Option ShardsStore) (shardSize : Nat) :
    (chunks : Nat) → List AccountId → ShardsStore → Nat → ShardsStore × List AccountId × Nat
  | 0, members, s, numElections => (s, members, numElections)
  | chunks + 1, members, s, numElections =>
      match create s (members.take shardSize) with
      | none => (s, members, numElections)
      | some s => createShards create shardSize chunks (members.drop shardSize) s (numElections + 1)

/-- With the number of shards elected. A shard size of zero is a division
by zero. -/
def tryElectShards (s : State) (cfg : Config) (networks : Networks) (network : NetworkId)
    (maxElections : Nat) : Option (State × Nat) :=
  let shardSize := (networks.shardSize network).toNat
  let shardThreshold := (networks.shardThreshold network).toNat
  let unassigned := s.elections.unassigned.getD network []
  if shardSize = 0 then none
  else
    let chunks := min (unassigned.length % 2 ^ 32 / shardSize) maxElections
    let numElected := chunks * shardSize
    let (shards, unelected, numElections) :=
      createShards (Shards.createShard cfg s.blockNumber network shardThreshold) shardSize chunks
        (unassigned.take numElected) s.shards 0
    some ({ s with
      shards := shards
      elections := mutateUnassigned s.elections network fun _ =>
        unassigned.drop numElected ++ unelected }, numElections)

/-- The loop of `on_initialize`: the next network to elect for, and
whether all have had their turn. Every round moves to another network, so
that one unit of fuel per network is enough. -/
def electNetworks (cfg : Config) (networks : Networks) (counter0 : Nat) :
    (fuel : Nat) → State → (netCounter numElections : Nat) → Option (State × Nat × Bool)
  | 0, s, netCounter, _ => some (s, netCounter, false)
  | fuel + 1, s, netCounter, numElections =>
      if numElections < cfg.maxElectionsPerBlock then
        match networks.getNetworks[netCounter]? with
        | none => some (s, 0, false)
        | some network => do
            let (s, elected) ← tryElectShards s cfg networks network
              (cfg.maxElectionsPerBlock - numElections)
            let netCounter := (netCounter + 1) % networks.getNetworks.length
            if netCounter = counter0 then some (s, netCounter, true)
            else
              electNetworks cfg networks counter0 fuel s netCounter (satAdd 32 numElections elected)
      else some (s, netCounter, false)

def onInitialize (s : State) (cfg : Config) (networks : Networks) : Option State := do
  let counter0 := s.elections.networkCounter
  let (s, netCounter, allNetsElected) ←
    electNetworks cfg networks counter0 (networks.getNetworks.length + 1) s counter0 0
  if allNetsElected then return s
  else return { s with elections := { s.elections with networkCounter := netCounter } }

end Elections

/-! ## The chain as a transition system -/

inductive Call where
  /-- The block number goes up and all hooks are due. -/
  | newBlock
  | onInitialize (hook : Hook)
  | registerMember (origin : Origin) (network : NetworkId) (publicKey : PublicKey)
      (peerId : PeerId)
  | unregisterMember (origin : Origin) (member : AccountId)
  | sendHeartbeat (origin : Origin)
  | commit (origin : Origin) (shard : ShardId) (commitment : Commitment)
      (proofOfKnowledge : ProofOfKnowledge)
  | ready (origin : Origin) (shard : ShardId)
  | forceShardOffline (origin : Origin) (shard : ShardId)
  /-- A dispatchable of the tasks pallet, or a gateway registration. -/
  | tasks (call : Tasks.Call)

/-- A call, and the networks pallet at that moment. -/
structure Input where
  networks : Networks
  call : Call

def ensureSigned : Origin → Except DispatchError AccountId
  | .signed who => .ok who
  | _ => .error .badOrigin

def ensureAdmin (cfg : Config) (origin : Origin) : Except DispatchError Unit :=
  if cfg.adminOrigin origin then .ok () else .error .badOrigin

/-- A failed dispatch is rolled back. -/
def dispatch (s : State) : Except DispatchError (Option State) → Option State
  | .ok s' => s'
  | .error _ => some s

/-- What the tasks pallet lets the outside call; the rest is called by the
chain itself. -/
def isDispatchable : Tasks.Call → Bool
  | .onInitialize => false
  | .shardOnline .. => false
  | .shardOffline .. => false
  | _ => true

def execTasks (s : State) (cfg : Config) (networks : Networks) (call : Tasks.Call) :
    Option State :=
  (Tasks.exec cfg.tasks s.tasks ⟨s.tasksEnv cfg networks, call⟩).map fun tasks =>
    { s with tasks := tasks }

def runHook (s : State) (cfg : Config) (networks : Networks) : Hook → Option State
  | .members => Members.onInitialize s cfg networks s.blockNumber
  | .shards => Shards.timeoutDkgs s cfg networks s.blockNumber
  | .elections => Elections.onInitialize s cfg networks
  | .tasks => execTasks s cfg networks .onInitialize

/-- One call; `none` is a panic, or a call the chain cannot get. -/
def exec (cfg : Config) (s : State) (i : Input) : Option State :=
  match i.call with
  | .newBlock =>
      if s.blockNumber + 1 < 2 ^ 32 then
        some { s with
          blockNumber := s.blockNumber + 1
          dueHooks := [.members, .shards, .elections, .tasks] }
      else none
  | .onInitialize hook =>
      if hook ∈ s.dueHooks then
        runHook { s with dueHooks := s.dueHooks.erase hook } cfg i.networks hook
      else none
  | .registerMember origin network publicKey peerId => dispatch s do
      ensureAdmin cfg origin
      return some (Members.executeRegisterMember s cfg network publicKey peerId)
  | .unregisterMember origin member => dispatch s do
      ensureAdmin cfg origin
      some <$> Members.executeUnregisterMember s member
  | .sendHeartbeat origin => dispatch s do
      let member ← ensureSigned origin
      some <$> Members.executeSendHeartbeat s member
  | .commit origin shard commitment proofOfKnowledge => dispatch s do
      let member ← ensureSigned origin
      Shards.executeCommit s cfg member shard commitment proofOfKnowledge
  | .ready origin shard => dispatch s do
      let member ← ensureSigned origin
      Shards.executeReady s cfg i.networks member shard
  | .forceShardOffline origin shard => dispatch s do
      ensureAdmin cfg origin
      return Shards.removeShardsOffline s cfg i.networks [shard]
  | .tasks call => if isDispatchable call then execTasks s cfg i.networks call else none

/-- Runs of the chain from genesis in which every input meets `ok`. -/
abbrev ChainRun (cfg : Config) (ok : State → Input → Prop) : List Input → State → Prop :=
  Run (exec cfg) ok State.genesis

/-! ## A small chain

Two networks whose shards have one member each, for concrete runs. Every
block times heartbeats out. -/

def exampleConfig : Config where
  tasks := Tasks.exampleConfig
  adminOrigin origin := origin == .root
  blake2 _ := Vector.replicate 32 0
  heartbeatTimeout := 1
  maxTimeoutsPerBlock := 10
  maxElectionsPerBlock := 8
  maxElectionsPerBlock_lt := by decide
  dkgTimeout := 10
  isVerifyingKey _ := true
  addKeys key _ := some key
  verifyProofOfKnowledge _ _ _ := true
  accountKey account := account.toList.headD 0 |>.toNat

def exampleNetworks : Networks where
  getNetworks := [0, 1]
  shardSize _ := 1
  shardThreshold _ := 1
  gateway _ := some (Vector.replicate 32 0)
  nextBatchSize _ _ := 10
  batchGasLimit _ := 1000000
  shardTaskLimit _ := 10

def exampleInput (call : Call) : Input := ⟨exampleNetworks, call⟩

def exampleMember : AccountId := Vector.replicate 32 1

/-- The member is registered for `network`. -/
def exampleRegister (network : NetworkId) : Call :=
  .registerMember .root network (.sr25519 exampleMember) (Vector.replicate 32 2)

def exampleHeartbeat : Call := .sendHeartbeat (.signed exampleMember)

/-- The only member of shard 0 generates its key. -/
def exampleKeygen : List Call :=
  [.commit (.signed exampleMember) 0 ⟨[Tasks.exampleKey 0], by decide⟩ (Vector.replicate 65 0),
    .ready (.signed exampleMember) 0]

/-- A block: the hooks in the order of the runtime, then `calls`. -/
def exampleBlock (calls : List Call) : List Call :=
  [.newBlock, .onInitialize .members, .onInitialize .shards, .onInitialize .elections,
    .onInitialize .tasks] ++ calls

/-- The state after `calls`, if none of them panics. -/
def exampleState (calls : List Call) : State :=
  Run.endState (exec exampleConfig) State.genesis (calls.map exampleInput)

def exampleRuns (calls : List Call) : Bool :=
  ((calls.map exampleInput).foldlM (exec exampleConfig) State.genesis).isSome

section Example

variable {ok : State → Input → Prop} {calls : List Call}

theorem exampleState_run (hok : ∀ s, ∀ call ∈ calls, ok s (exampleInput call))
    (h : exampleRuns calls = true) :
    ChainRun exampleConfig ok (calls.map exampleInput) (exampleState calls) := by
  refine Run.to_endState (fun s i hi => ?_) h
  obtain ⟨call, hcall, rfl⟩ := List.mem_map.mp hi
  exact hok s call hcall

theorem exampleState_exec {call : Call} (hcalls : exampleRuns calls = true)
    (h : exampleRuns (calls ++ [call]) = true) :
    exec exampleConfig (exampleState calls) (exampleInput call)
      = some (exampleState (calls ++ [call])) := by
  rw [exampleRuns, List.map_append] at h
  have hall := Run.foldlM_eq_endState h
  rw [List.foldlM_append, Run.foldlM_eq_endState hcalls] at hall
  rw [exampleState, exampleState, List.map_append]
  simpa using hall

theorem exampleState_next {call : Call}
    (hrun : ChainRun exampleConfig ok (calls.map exampleInput) (exampleState calls))
    (hok : ok (exampleState calls) (exampleInput call))
    (h : exampleRuns (calls ++ [call]) = true) :
    ChainRun exampleConfig ok ((calls ++ [call]).map exampleInput)
      (exampleState (calls ++ [call])) := by
  rw [exampleRuns, List.map_append] at h
  rw [exampleState, List.map_append]
  exact Run.endState_next hrun hok h

theorem exampleState_append {more : List Call}
    (hrun : ChainRun exampleConfig ok (calls.map exampleInput) (exampleState calls))
    (hok : ∀ s, ∀ call ∈ more, ok s (exampleInput call))
    (h : exampleRuns (calls ++ more) = true) :
    ChainRun exampleConfig ok ((calls ++ more).map exampleInput)
      (exampleState (calls ++ more)) := by
  rw [exampleRuns, List.map_append] at h
  rw [exampleState, List.map_append]
  refine Run.endState_append hrun (fun s i hi => ?_) h
  obtain ⟨call, hcall, rfl⟩ := List.mem_map.mp hi
  exact hok s call hcall

end Example

end Chain

end Timechain
