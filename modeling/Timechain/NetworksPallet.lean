import Timechain.ChainPallets

/-!
# The networks pallet and the runtime

`pallets/networks` keeps the configuration of every connected network
and answers the other pallets' questions about it. The chain of
`ChainPallets` gets these answers with each input; here they come from
the pallet's storage, and the whole runtime is one transition system:
calls of the chain, and the three calls of the networks pallet.

`register_network` notifies the tasks pallet of a new gateway before it
looks at the configuration, so the first range of blocks to read is
computed from the defaults (or from what an earlier registration left
behind).

A call that does not return is a `Panic`. The two functions that
calculate with a network's configuration have panics of their own.
-/

namespace Timechain

namespace Runtime

open Tasks (Origin)

/-! ## Configuration of a network -/

/-- `CHAIN_NAME_LEN`, `MAX_CCTP_ADDRESSES` and `MAX_CCTP_URL_LEN`. -/
abbrev ChainName : Type := { bytes : List UInt8 // bytes.length ≤ 50 }
abbrev CctpContracts : Type := { contracts : List Address32 // contracts.length ≤ 50 }
abbrev CctpUrl : Type := { bytes : List UInt8 // bytes.length ≤ 200 }

structure NetworkConfig where
  batchSize : UInt32
  batchOffset : UInt32
  batchGasLimit : Nat
  shardTaskLimit : UInt32
  shardSize : UInt16
  shardThreshold : UInt16
  cctpContracts : Option CctpContracts
  cctpUrl : Option CctpUrl

structure Network where
  id : NetworkId
  chainName : ChainName
  gateway : Address32
  gatewayBlock : UInt64
  config : NetworkConfig

inductive NetworksEvent where
  | networkRegistered (network : NetworkId) (gateway : Address32) (block : UInt64)
  | networkConfigChanged (network : NetworkId) (config : NetworkConfig)

inductive DispatchError where
  | badOrigin
  | networkExists
  | networkNotFound
  | shardSizeAboveMax
  | thresholdLargerThanSize
deriving DecidableEq

/-! ## Storage -/

structure NetworksStore where
  networks : StorageMap NetworkId NetworkId
  networkName : StorageMap NetworkId ChainName
  networkGatewayAddress : StorageMap NetworkId Address32
  networkGatewayBlock : StorageMap NetworkId UInt64
  networkBatchSize : StorageMap NetworkId UInt32
  networkBatchOffset : StorageMap NetworkId UInt32
  networkBatchGasLimit : StorageMap NetworkId Nat
  networkShardTaskLimit : StorageMap NetworkId UInt32
  networkShardSize : StorageMap NetworkId UInt16
  networkShardThreshold : StorageMap NetworkId UInt16
  networkCctpContracts : StorageMap NetworkId CctpContracts
  networkCctpUrl : StorageMap NetworkId CctpUrl
  events : List NetworksEvent

structure State where
  chain : Chain.State
  networks : NetworksStore

/-- Storage at genesis, with no network registered. -/
def State.genesis : State where
  chain := Chain.State.genesis
  networks :=
    { networks := ∅
      networkName := ∅
      networkGatewayAddress := ∅
      networkGatewayBlock := ∅
      networkBatchSize := ∅
      networkBatchOffset := ∅
      networkBatchGasLimit := ∅
      networkShardTaskLimit := ∅
      networkShardSize := ∅
      networkShardThreshold := ∅
      networkCctpContracts := ∅
      networkCctpUrl := ∅
      events := [] }

/-- `nameKey` is the storage order of the network names. -/
structure Config where
  chain : Chain.Config
  adminOrigin : Origin → Bool
  nameKey : NetworkId → Nat

/-! ## What the other pallets ask -/

inductive Fault where
  | divisionByZero
  | overflow
deriving DecidableEq

/-- Why a call does not return. -/
inductive Panic where
  | nextBatchSize (fault : Fault)
  | tryElectShards
  | other
deriving DecidableEq

namespace NetworksStore

/-- All of it is plain `u64` and `u32` arithmetic. The sum overflows in
either build: with overflow checks that is a panic, without them the size
is that of a wrapped height. The difference is never negative. -/
def nextBatchSize (s : NetworksStore) (network : NetworkId) (blockHeight : Nat) :
    Except Fault Nat :=
  let networkBatchSize := (s.networkBatchSize.getD network 32).toNat
  let networkOffset := (s.networkBatchOffset.getD network 0).toNat
  if blockHeight + networkOffset ≤ maxVal 64 then
    if networkBatchSize = 0 then .error .divisionByZero
    else .ok (networkBatchSize - (blockHeight + networkOffset) % networkBatchSize)
  else .error .overflow

/-- The size, where there is one. -/
def nextBatchSizeD (s : NetworksStore) (network : NetworkId) (blockHeight : Nat) : Nat :=
  match s.nextBatchSize network blockHeight with
  | .ok size => size
  | .error _ => 0

def toInterface (s : NetworksStore) (cfg : Config) : Chain.Networks where
  getNetworks := (s.networkName.iter cfg.nameKey).map Prod.fst
  shardSize network := s.networkShardSize.getD network 3
  shardThreshold network := s.networkShardThreshold.getD network 2
  gateway := s.networkGatewayAddress.get
  nextBatchSize := s.nextBatchSizeD
  batchGasLimit network := s.networkBatchGasLimit.getD network 10000
  shardTaskLimit network := s.networkShardTaskLimit.getD network 10

end NetworksStore

/-! ## Calls of the chain -/

/-- The network and the height a task reads from. -/
def readHeight : NetworkId × TaskId × Task → Option (NetworkId × Nat)
  | (network, _, .readGatewayEvents blocks) => some (network, blocks.start)
  | _ => none

/-- The calls of `next_batch_size` between the two states:
`read_gateway_events` makes one for each task it creates, at the height
the task reads from. -/
def heightsAsked (t t' : Tasks.State) : List (NetworkId × Nat) :=
  (t'.createdTasks.drop t.createdTasks.length).filterMap readHeight

/-- The first fault of `next_batch_size`, if there is one. -/
def NetworksStore.fault (s : NetworksStore) (asked : List (NetworkId × Nat)) : Option Fault :=
  asked.findSome? fun (network, height) =>
    match s.nextBatchSize network height with
    | .ok _ => none
    | .error fault => some fault

/-- A call of the chain. Of the hooks, the elections fail only in
`try_elect_shards`. -/
def execChain (s : State) (cfg : Config) (call : Chain.Call) : Except Panic State :=
  match Chain.exec cfg.chain s.chain ⟨s.networks.toInterface cfg, call⟩ with
  | some chain =>
      match s.networks.fault (heightsAsked s.chain.tasks chain.tasks) with
      | none => .ok { s with chain := chain }
      | some fault => .error (.nextBatchSize fault)
  | none =>
      match call with
      | .onInitialize .elections =>
          if .elections ∈ s.chain.dueHooks then .error .tryElectShards else .error .other
      | _ => .error .other

/-! ## Calls of the networks pallet -/

def ensure (condition : Bool) (e : DispatchError) : Except DispatchError Unit :=
  if condition then .ok () else .error e

def ensureAdmin (cfg : Config) (origin : Origin) : Except DispatchError Unit :=
  ensure (cfg.adminOrigin origin) .badOrigin

def NetworksStore.depositEvent (s : NetworksStore) (event : NetworksEvent) : NetworksStore :=
  { s with events := s.events ++ [event] }

def insertNetworkConfig (s : NetworksStore) (network : NetworkId) (config : NetworkConfig) :
    Except DispatchError NetworksStore := do
  ensure (s.networks.containsKey network) .networkNotFound
  ensure (maxShardSize ≥ config.shardSize.toNat) .shardSizeAboveMax
  ensure (config.shardSize ≥ config.shardThreshold) .thresholdLargerThanSize
  let s := { s with
    networkBatchSize := s.networkBatchSize.insert network config.batchSize
    networkBatchOffset := s.networkBatchOffset.insert network config.batchOffset
    networkBatchGasLimit := s.networkBatchGasLimit.insert network config.batchGasLimit
    networkShardTaskLimit := s.networkShardTaskLimit.insert network config.shardTaskLimit
    networkShardSize := s.networkShardSize.insert network config.shardSize
    networkShardThreshold := s.networkShardThreshold.insert network config.shardThreshold
    networkCctpContracts :=
      match config.cctpContracts with
      | some contracts => s.networkCctpContracts.insert network contracts
      | none => s.networkCctpContracts
    networkCctpUrl :=
      match config.cctpUrl with
      | some url => s.networkCctpUrl.insert network url
      | none => s.networkCctpUrl }
  return s.depositEvent (.networkConfigChanged network config)

/-- A gateway that is not the current one is announced to the tasks pallet. -/
def announceGateway (s : State) (cfg : Config) (network : Network) : Except Panic State := do
  if some network.gateway ≠ s.networks.networkGatewayAddress.get network.id then
    let s := { s with networks := { s.networks with
      networkGatewayAddress := s.networks.networkGatewayAddress.insert network.id network.gateway
      networkGatewayBlock :=
        s.networks.networkGatewayBlock.insert network.id network.gatewayBlock } }
    let s ← execChain s cfg (.tasks (.gatewayRegistered network.id network.gatewayBlock))
    let event := .networkRegistered network.id network.gateway network.gatewayBlock
    return { s with networks := s.networks.depositEvent event }
  else return s

/-- The gateway is announced before the configuration is checked. -/
def insertNetwork (s : State) (cfg : Config) (network : Network) :
    Except Panic (Except DispatchError State) :=
  if s.networks.networks.containsKey network.id then .ok (.error .networkExists)
  else do
    let s := { s with networks := { s.networks with
      networks := s.networks.networks.insert network.id network.id
      networkName := s.networks.networkName.insert network.id network.chainName } }
    let s ← announceGateway s cfg network
    return (insertNetworkConfig s.networks network.id network.config).map fun networks =>
      { s with networks := networks }

/-- `remove_network` keeps the offset. -/
def removeNetwork (s : NetworksStore) (network : NetworkId) : NetworksStore :=
  { s with
    networks := s.networks.remove network
    networkName := s.networkName.remove network
    networkGatewayAddress := s.networkGatewayAddress.remove network
    networkGatewayBlock := s.networkGatewayBlock.remove network
    networkBatchSize := s.networkBatchSize.remove network
    networkBatchGasLimit := s.networkBatchGasLimit.remove network
    networkShardTaskLimit := s.networkShardTaskLimit.remove network
    networkShardSize := s.networkShardSize.remove network
    networkShardThreshold := s.networkShardThreshold.remove network
    networkCctpContracts := s.networkCctpContracts.remove network
    networkCctpUrl := s.networkCctpUrl.remove network }

/-! ## The runtime as a transition system -/

inductive Call where
  | chain (call : Chain.Call)
  | registerNetwork (origin : Origin) (network : Network)
  | setNetworkConfig (origin : Origin) (network : NetworkId) (config : NetworkConfig)
  | removeNetwork (origin : Origin) (network : NetworkId)

/-- A gateway is registered by `register_network` only. -/
def isDispatchable : Chain.Call → Bool
  | .tasks (.gatewayRegistered ..) => false
  | _ => true

/-- A failed dispatch is rolled back. -/
def dispatch (s : State) : Except DispatchError State → State
  | .ok s' => s'
  | .error _ => s

def exec (cfg : Config) (s : State) (call : Call) : Except Panic State :=
  match call with
  | .chain call => if isDispatchable call then execChain s cfg call else .error .other
  | .registerNetwork origin network =>
      match ensureAdmin cfg origin with
      | .error _ => .ok s
      | .ok () => (insertNetwork s cfg network).map (dispatch s)
  | .setNetworkConfig origin network config => .ok <| dispatch s do
      ensureAdmin cfg origin
      let networks ← insertNetworkConfig s.networks network config
      return { s with networks := networks }
  | .removeNetwork origin network => .ok <| dispatch s do
      ensureAdmin cfg origin
      return { s with networks := removeNetwork s.networks network }

/-- One call, if it returns. -/
def step (cfg : Config) (s : State) (call : Call) : Option State := (exec cfg s call).toOption

/-- Runs of the runtime from genesis in which every call meets `ok`. -/
abbrev RuntimeRun (cfg : Config) (ok : State → Call → Prop) : List Call → State → Prop :=
  Run (step cfg) ok State.genesis

end Runtime

end Timechain
