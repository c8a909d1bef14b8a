import Timechain.GmpHash
import Timechain.Multimap
import Timechain.Run

/-!
# The simulated target chain

The connector for the `Rust` backend (`gmp/rust/src/lib.rs`) is both a
connector and the chain behind it: a database with a block number, a
table per thing a gateway contract would store, and a log of events per
address and block. Every call is a transaction of its own.

A write transaction counts only if it is committed. All but two calls
commit; `set_admin` writes and then drops its transaction. A call that
fails on the way leaves nothing behind. Both are modelled as such
(`commit`, `dropped`), and an arithmetic overflow that panics is one of
the ways to fail.

What one call can do is said once (`exec_effect`). That every call
writes events into the current block only is what makes the past
readable: `readEvents` of blocks before the current one never changes
again (`run_past`).

Errors of the database itself are not modelled.
-/

namespace Timechain

/-! ## The order of events

`GmpEvent` derives its order: variants in declaration order, then fields. -/

def GmpMessage.rank (m : GmpMessage) : List Nat :=
  m.srcNetwork.toNat :: m.destNetwork.toNat :: (bytesRank m.src ++ (bytesRank m.dest ++
    (m.nonce.toNat :: m.gasLimit.toNat :: m.gasCost.toNat :: m.bytes.map UInt8.toNat)))

theorem GmpMessage.rank_injective : Function.Injective GmpMessage.rank := by
  intro m m' h
  unfold rank at h
  obtain ⟨hsrcNetwork, h⟩ := List.cons.inj h
  obtain ⟨hdestNetwork, h⟩ := List.cons.inj h
  obtain ⟨hsrc, h⟩ := List.append_inj h (by rw [bytesRank_length, bytesRank_length])
  obtain ⟨hdest, h⟩ := List.append_inj h (by rw [bytesRank_length, bytesRank_length])
  obtain ⟨hnonce, h⟩ := List.cons.inj h
  obtain ⟨hlimit, h⟩ := List.cons.inj h
  obtain ⟨hcost, hbytes⟩ := List.cons.inj h
  cases m
  cases m'
  simp only [GmpMessage.mk.injEq]
  exact ⟨UInt16.toNat_inj.mp hsrcNetwork, UInt16.toNat_inj.mp hdestNetwork,
    bytesRank_injective _ hsrc, bytesRank_injective _ hdest, UInt64.toNat_inj.mp hnonce,
    BitVec.eq_of_toNat_eq hlimit, BitVec.eq_of_toNat_eq hcost, map_toNat_inj hbytes⟩

def GmpEvent.rank : GmpEvent → List Nat
  | .shardRegistered key => 0 :: bytesRank key
  | .shardUnregistered key => 1 :: bytesRank key
  | .messageReceived msg => 2 :: msg.rank
  | .messageExecuted id => 3 :: bytesRank id
  | .batchExecuted batchId none => [4, batchId, 0]
  | .batchExecuted batchId (some txHash) => 4 :: batchId :: 1 :: bytesRank txHash

theorem GmpEvent.rank_injective : Function.Injective GmpEvent.rank := by
  intro e e' h
  cases e with
  | shardRegistered key =>
      cases e' with
      | shardRegistered key' => exact congrArg _ (bytesRank_injective _ (List.cons.inj h).2)
      | batchExecuted _ txHash => cases txHash <;> cases (List.cons.inj h).1
      | _ => cases (List.cons.inj h).1
  | shardUnregistered key =>
      cases e' with
      | shardUnregistered key' => exact congrArg _ (bytesRank_injective _ (List.cons.inj h).2)
      | batchExecuted _ txHash => cases txHash <;> cases (List.cons.inj h).1
      | _ => cases (List.cons.inj h).1
  | messageReceived msg =>
      cases e' with
      | messageReceived msg' => exact congrArg _ (GmpMessage.rank_injective (List.cons.inj h).2)
      | batchExecuted _ txHash => cases txHash <;> cases (List.cons.inj h).1
      | _ => cases (List.cons.inj h).1
  | messageExecuted id =>
      cases e' with
      | messageExecuted id' => exact congrArg _ (bytesRank_injective _ (List.cons.inj h).2)
      | batchExecuted _ txHash => cases txHash <;> cases (List.cons.inj h).1
      | _ => cases (List.cons.inj h).1
  | batchExecuted batchId txHash =>
      cases e' with
      | batchExecuted batchId' txHash' =>
          cases txHash with
          | none =>
              cases txHash' with
              | none =>
                  obtain ⟨-, h⟩ := List.cons.inj h
                  rw [(List.cons.inj h).1]
              | some b => simp [rank] at h
          | some a =>
              cases txHash' with
              | none => simp [rank] at h
              | some b =>
                  obtain ⟨-, h⟩ := List.cons.inj h
                  obtain ⟨hid, h⟩ := List.cons.inj h
                  obtain ⟨-, h⟩ := List.cons.inj h
                  rw [hid, bytesRank_injective _ h]
      | _ => cases txHash <;> cases (List.cons.inj h).1

namespace Connector

/-! ## The database -/

/-- `anyhow` errors by their texts; `overflow` is a panic. -/
inductive Error where
  /-- "invalid gateway" -/
  | invalidGateway
  /-- "not admin" -/
  | notAdmin
  /-- "insufficient balance" -/
  | insufficientBalance
  /-- "tester not deployed" -/
  | testerNotDeployed
  /-- "invalid signature" -/
  | invalidSignature
  | overflow
deriving DecidableEq

structure Route where
  networkId : NetworkId
  gateway : Address32
  relativeGasPrice : BitVec 256 × BitVec 256
  gasLimit : UInt64
  gmpBaseFee : BitVec 128
deriving DecidableEq

structure Config where
  networkId : NetworkId
  keccak256 : List UInt8 → Hash
  verifySignature : TssPublicKey → List UInt8 → TssSignature → Bool
  overflowChecks : Bool

/-- The tables. `sent` is no table: it records which gateway logged which
message for `send_message`, oldest first. -/
structure Db where
  block : Nat
  balance : StorageMap Address32 Nat
  admin : StorageMap Address32 Address32
  nonce : StorageMap (Address32 × Address32) Nat
  events : Multimap (Address32 × Nat) GmpEvent.rank
  shards : Multimap Address32 (bytesRank (n := 33))
  routes : StorageMap (Address32 × NetworkId) Route
  gateway : StorageMap Address32 Address32
  testers : Multimap Address32 (bytesRank (n := 32))
  sent : List (Address32 × GmpMessage)

def Db.new : Db := ⟨0, ∅, ∅, ∅, .empty, .empty, ∅, ∅, .empty, []⟩

/-- A transaction that ends in `commit`. -/
def commit {α : Type} (tx : Db → Except Error (α × Db)) (db : Db) : Except Error α × Db :=
  match tx db with
  | .ok (a, db') => (.ok a, db')
  | .error e => (.error e, db)

/-- A transaction that goes out of scope before `commit`. -/
def dropped {α : Type} (tx : Db → Except Error (α × Db)) (db : Db) : Except Error α × Db :=
  ((tx db).map Prod.fst, db)

/-- Log an event of `address` in the current block. -/
def Db.log (db : Db) (address : Address32) (event : GmpEvent) : Db :=
  { db with events := db.events.insert (address, db.block) event }

variable (cfg : Config) (self : Address32)

/-! ## Reading -/

def readBalance (db : Db) (address : Address32) : Nat := db.balance.getD address 0

def readAdmin (db : Db) (gateway : Address32) : Except Error Address32 :=
  match db.admin.get gateway with
  | some admin => .ok admin
  | none => .error .invalidGateway

def ensureAdmin (db : Db) (gateway : Address32) : Except Error Unit :=
  match readAdmin db gateway with
  | .ok admin => if admin ≠ self then .error .notAdmin else .ok ()
  | .error e => .error e

def finalizedBlock (db : Db) : Nat := db.block

/-- The events of a gateway in a range of blocks, block by block. -/
def readEvents (db : Db) (gateway : Address32) (blocks : BlockRange) : List GmpEvent :=
  (List.range' blocks.start (blocks.stop - blocks.start)).flatMap fun block =>
    db.events.get (gateway, block)

def recvMessages (db : Db) (address : Address32) (blocks : BlockRange) : List GmpMessage :=
  (List.range' blocks.start (blocks.stop - blocks.start)).flatMap fun block =>
    receivedMessages (db.events.get (address, block))

def shards (db : Db) (gateway : Address32) : List TssPublicKey := db.shards.get gateway

/-- The routes of a gateway, by network. -/
def routes (db : Db) (gateway : Address32) : List Route :=
  (db.routes.iterPrefix UInt16.toNat gateway).map Prod.snd

/-! ## Writing -/

/-- One round of the loop that produces blocks. -/
def incBlock : Db → Except Error Unit × Db :=
  commit fun db =>
    match addChecked cfg.overflowChecks 64 db.block 1 with
    | none => .error .overflow
    | some block => .ok ((), { db with block })

/-- `faucet` sets the caller's balance. -/
def faucet (balance : BitVec 128) : Db → Except Error Unit × Db :=
  commit fun db => .ok ((), { db with balance := db.balance.insert self balance.toNat })

/-- Both balances are read before either is written. -/
def transferFrom (db : Db) (payer payee : Address32) (amount : BitVec 128) : Except Error Db :=
  let balance := readBalance db payer
  if balance < amount.toNat then .error .insufficientBalance
  else
    let destBalance := readBalance db payee
    match addChecked cfg.overflowChecks 128 destBalance amount.toNat with
    | none => .error .overflow
    | some sum =>
        .ok { db with
          balance := (db.balance.insert payer (balance - amount.toNat)).insert payee sum }

def transfer (address : Address32) (amount : BitVec 128) : Db → Except Error Unit × Db :=
  commit fun db => (transferFrom cfg db self address amount).map fun db => ((), db)

def withdrawFunds (gateway : Address32) (amount : BitVec 128) (address : Address32) :
    Db → Except Error Unit × Db :=
  commit fun db =>
    match ensureAdmin self db gateway with
    | .error e => .error e
    | .ok () => (transferFrom cfg db gateway address amount).map fun db => ((), db)

/-- What `submit_commands` does for one op of the batch. -/
def applyOp (gateway : Address32) (db : Db) : GatewayOp → Db
  | .registerShard key =>
      { db with shards := db.shards.insert gateway key }.log gateway (.shardRegistered key)
  | .unregisterShard key =>
      { db with shards := db.shards.remove gateway key }.log gateway (.shardUnregistered key)
  | .sendMessage msg =>
      (db.log msg.dest (.messageReceived msg)).log gateway
        (.messageExecuted (msg.messageId cfg.keccak256))

/-- `submit_commands`. The signer need not be a registered shard, and a
batch may be submitted again. -/
def submitCommands (gateway : Address32) (batch : BatchId) (msg : GatewayMessage)
    (signer : TssPublicKey) (sig : TssSignature) (db : Db) : Except Error Unit × Db :=
  if cfg.verifySignature signer
      (batchPayload cfg.keccak256 ⟨cfg.networkId, gateway⟩ batch msg) sig then
    commit (fun db => .ok ((), (msg.ops.foldl (applyOp cfg gateway) db).log gateway
      (.batchExecuted batch none))) db
  else (.error .invalidSignature, db)

/-- `gateway` is the random address the source draws. -/
def deployGateway (gateway : Address32) : Db → Except Error (Address32 × Nat) × Db :=
  commit fun db =>
    .ok ((gateway, db.block), { db with admin := db.admin.insert gateway self })

def redeployGateway (gateway : Address32) : Db → Except Error Unit × Db :=
  dropped fun db => (ensureAdmin self db gateway).map fun _ => ((), db)

/-- `set_admin`: the write is never committed. -/
def setAdmin (gateway newAdmin : Address32) : Db → Except Error Unit × Db :=
  dropped fun db => (ensureAdmin self db gateway).map fun _ =>
    ((), { db with admin := db.admin.insert gateway newAdmin })

/-- `BTreeSet::from_iter`. -/
def keySet (keys : List TssPublicKey) : List TssPublicKey :=
  keys.foldl (fun set key => insertSorted bytesRank key set) []

/-- The loop over the keys a gateway had. -/
def dropKey (gateway : Address32) (keys : List TssPublicKey) (db : Db) (oldKey : TssPublicKey) :
    Db :=
  if keys.contains oldKey then db else db.log gateway (.shardUnregistered oldKey)

/-- The loop over the keys a gateway gets. -/
def addKey (gateway : Address32) (oldKeys : List TssPublicKey) (db : Db) (key : TssPublicKey) :
    Db :=
  let db := { db with shards := db.shards.insert gateway key }
  if oldKeys.contains key then db else db.log gateway (.shardRegistered key)

def setShards (gateway : Address32) (keys : List TssPublicKey) : Db → Except Error Unit × Db :=
  commit fun db =>
    match ensureAdmin self db gateway with
    | .error e => .error e
    | .ok () =>
        let values := db.shards.get gateway
        let keys := keySet keys
        let db := { db with shards := db.shards.removeAll gateway }
        let db := values.foldl (dropKey gateway keys) db
        .ok ((), keys.foldl (addKey gateway values) db)

/-- A route with the fields of `newRoute` that are set. -/
def Route.update (route newRoute : Route) : Route where
  networkId := route.networkId
  gateway := if newRoute.gateway ≠ Vector.replicate 32 0 then newRoute.gateway else route.gateway
  relativeGasPrice :=
    if newRoute.relativeGasPrice ≠ (0, 0) then newRoute.relativeGasPrice
    else route.relativeGasPrice
  gasLimit := if newRoute.gasLimit ≠ 0 then newRoute.gasLimit else route.gasLimit
  gmpBaseFee := if newRoute.gmpBaseFee ≠ 0 then newRoute.gmpBaseFee else route.gmpBaseFee

def setRoute (gateway : Address32) (newRoute : Route) : Db → Except Error Unit × Db :=
  commit fun db =>
    match ensureAdmin self db gateway with
    | .error e => .error e
    | .ok () =>
        let route := ((db.routes.get (gateway, newRoute.networkId)).getD newRoute).update newRoute
        let routes := db.routes.remove (gateway, newRoute.networkId)
        .ok ((), { db with routes := routes.insert (gateway, route.networkId) route })

/-- `tester` is the random address the source draws. -/
def deployTest (gateway tester : Address32) : Db → Except Error (Address32 × Nat) × Db :=
  commit fun db =>
    .ok ((tester, db.block), { db with
      gateway := db.gateway.insert tester gateway
      testers := db.testers.insert gateway tester })

/-- The message `send_message` builds. -/
def outgoing (db : Db) (src : Address32) (destNetwork : NetworkId) (dest : Address32)
    (gasLimit gasCost : BitVec 128) (payload : List UInt8) : GmpMessage :=
  ⟨cfg.networkId, destNetwork, src, dest, UInt64.ofNat (db.nonce.getD (src, dest) 0), gasLimit,
    gasCost, payload⟩

def sendMessage (src : Address32) (destNetwork : NetworkId) (dest : Address32)
    (gasLimit gasCost : BitVec 128) (payload : List UInt8) : Db → Except Error MessageId × Db :=
  commit fun db =>
    let msg := outgoing cfg db src destNetwork dest gasLimit gasCost payload
    match addChecked cfg.overflowChecks 64 (db.nonce.getD (src, dest) 0) 1 with
    | none => .error .overflow
    | some nonce =>
        let db := { db with nonce := db.nonce.insert (src, dest) nonce }
        match db.gateway.get src with
        | none => .error .testerNotDeployed
        | some gateway =>
            .ok (msg.messageId cfg.keccak256,
              { db with sent := db.sent ++ [(gateway, msg)] }.log gateway (.messageReceived msg))

/-! ## Calls -/

inductive Call where
  | incBlock
  | faucet (balance : BitVec 128)
  | transfer (address : Address32) (amount : BitVec 128)
  | withdrawFunds (gateway : Address32) (amount : BitVec 128) (address : Address32)
  | submitCommands (gateway : Address32) (batch : BatchId) (msg : GatewayMessage)
      (signer : TssPublicKey) (sig : TssSignature)
  | deployGateway (gateway : Address32)
  | redeployGateway (gateway : Address32)
  | setAdmin (gateway newAdmin : Address32)
  | setShards (gateway : Address32) (keys : List TssPublicKey)
  | setRoute (gateway : Address32) (newRoute : Route)
  | deployTest (gateway tester : Address32)
  | sendMessage (src : Address32) (destNetwork : NetworkId) (dest : Address32)
      (gasLimit gasCost : BitVec 128) (payload : List UInt8)

/-- A call and the address of the connector that makes it. -/
structure Input where
  caller : Address32
  call : Call

def exec (db : Db) (i : Input) : Db :=
  match i.call with
  | .incBlock => (incBlock cfg db).2
  | .faucet balance => (faucet i.caller balance db).2
  | .transfer address amount => (transfer cfg i.caller address amount db).2
  | .withdrawFunds gateway amount address =>
      (withdrawFunds cfg i.caller gateway amount address db).2
  | .submitCommands gateway batch msg signer sig =>
      (submitCommands cfg gateway batch msg signer sig db).2
  | .deployGateway gateway => (deployGateway i.caller gateway db).2
  | .redeployGateway gateway => (redeployGateway i.caller gateway db).2
  | .setAdmin gateway newAdmin => (setAdmin i.caller gateway newAdmin db).2
  | .setShards gateway keys => (setShards i.caller gateway keys db).2
  | .setRoute gateway newRoute => (setRoute i.caller gateway newRoute db).2
  | .deployTest gateway tester => (deployTest gateway tester db).2
  | .sendMessage src destNetwork dest gasLimit gasCost payload =>
      (sendMessage cfg src destNetwork dest gasLimit gasCost payload db).2

/-- Calls one after the other; a call that fails is one that changes
nothing. -/
abbrev ChainRun (ok : Db → Input → Prop) : Db → List Input → Db → Prop :=
  Run (fun db i => some (exec cfg db i)) ok

/-! ## What a call can do -/

variable {cfg}

theorem transferFrom_ok {db db' : Db} {payer payee : Address32} {amount : BitVec 128}
    (h : transferFrom cfg db payer payee amount = .ok db') :
    ∃ balance, db' = { db with balance } := by
  unfold transferFrom at h
  dsimp only at h
  split at h
  · cases h
  · split at h
    · cases h
    · cases h
      exact ⟨_, rfl⟩

/-- The database after `set_shards`. -/
def Db.withShards (db : Db) (gateway : Address32) (keys : List TssPublicKey) : Db :=
  (keySet keys).foldl (addKey gateway (db.shards.get gateway))
    ((db.shards.get gateway).foldl (dropKey gateway (keySet keys))
      { db with shards := db.shards.removeAll gateway })

/-- The database after `set_route`. -/
def Db.withRoute (db : Db) (gateway : Address32) (newRoute : Route) : Db :=
  let route := ((db.routes.get (gateway, newRoute.networkId)).getD newRoute).update newRoute
  { db with
    routes := (db.routes.remove (gateway, newRoute.networkId)).insert (gateway, route.networkId)
      route }

/-- The database after `send_message`. -/
def Db.withSent (db : Db) (gateway : Address32) (msg : GmpMessage) (nonce : Nat) : Db :=
  { db with
    nonce := db.nonce.insert (msg.src, msg.dest) nonce
    sent := db.sent ++ [(gateway, msg)] }.log gateway (.messageReceived msg)

/-- The database after `submit_commands`. -/
def Db.withBatch (cfg : Config) (db : Db) (gateway : Address32) (batch : BatchId)
    (msg : GatewayMessage) : Db :=
  (msg.ops.foldl (applyOp cfg gateway) db).log gateway (.batchExecuted batch none)

/-- Everything a call can do to the database. -/
inductive Effect (cfg : Config) (db : Db) (i : Input) : Db → Prop
  | idle : Effect cfg db i db
  | newBlock {block : Nat} : i.call = .incBlock →
      addChecked cfg.overflowChecks 64 db.block 1 = some block → Effect cfg db i { db with block }
  | pays {balance : StorageMap Address32 Nat} : Effect cfg db i { db with balance }
  | commands {gateway : Address32} {batch : BatchId} {msg : GatewayMessage}
      {signer : TssPublicKey} {sig : TssSignature} :
      i.call = .submitCommands gateway batch msg signer sig →
      Effect cfg db i (db.withBatch cfg gateway batch msg)
  | deployGateway {admin : StorageMap Address32 Address32} : Effect cfg db i { db with admin }
  | setShards {gateway : Address32} {keys : List TssPublicKey} :
      Effect cfg db i (db.withShards gateway keys)
  | setRoute {gateway : Address32} {newRoute : Route} :
      Effect cfg db i (db.withRoute gateway newRoute)
  | deployTest {gateway tester : Address32} :
      Effect cfg db i { db with
        gateway := db.gateway.insert tester gateway
        testers := db.testers.insert gateway tester }
  | send {src dest gateway : Address32} {destNetwork : NetworkId} {gasLimit gasCost : BitVec 128}
      {payload : List UInt8} {nonce : Nat} :
      addChecked cfg.overflowChecks 64 (db.nonce.getD (src, dest) 0) 1 = some nonce →
      Effect cfg db i (db.withSent gateway
        (outgoing cfg db src destNetwork dest gasLimit gasCost payload) nonce)

/-- The rule for a transaction: what holds before it and after it has
succeeded holds behind it. -/
theorem commit_rule {α : Type} {tx : Db → Except Error (α × Db)} {db : Db} {P : Db → Prop}
    (hidle : P db) (hok : ∀ {a db'}, tx db = .ok (a, db') → P db') : P (commit tx db).2 := by
  unfold commit
  cases htx : tx db with
  | error e => exact hidle
  | ok r => exact hok htx

theorem exec_effect (cfg : Config) (db : Db) (i : Input) : Effect cfg db i (exec cfg db i) := by
  unfold exec
  cases hcall : i.call with
  | incBlock =>
      refine commit_rule .idle fun hok => ?_
      split at hok
      · cases hok
      · next hblock =>
          cases hok
          exact .newBlock hcall hblock
  | faucet balance => exact .pays
  | transfer address amount =>
      refine commit_rule .idle fun hok => ?_
      cases htransfer : transferFrom cfg db i.caller address amount with
      | error e =>
          rw [htransfer] at hok
          cases hok
      | ok db' =>
          rw [htransfer] at hok
          cases hok
          obtain ⟨balance, rfl⟩ := transferFrom_ok htransfer
          exact .pays
  | withdrawFunds gateway amount address =>
      refine commit_rule .idle fun hok => ?_
      split at hok
      · cases hok
      · cases htransfer : transferFrom cfg db gateway address amount with
        | error e =>
            rw [htransfer] at hok
            cases hok
        | ok db' =>
            rw [htransfer] at hok
            cases hok
            obtain ⟨balance, rfl⟩ := transferFrom_ok htransfer
            exact .pays
  | submitCommands gateway batch msg signer sig =>
      dsimp only [submitCommands]
      split
      · exact .commands hcall
      · exact .idle
  | deployGateway gateway => exact .deployGateway
  | redeployGateway gateway => exact .idle
  | setAdmin gateway newAdmin => exact .idle
  | setShards gateway keys =>
      refine commit_rule .idle fun hok => ?_
      split at hok
      · cases hok
      · cases hok
        exact .setShards
  | setRoute gateway newRoute =>
      refine commit_rule .idle fun hok => ?_
      split at hok
      · cases hok
      · cases hok
        exact .setRoute
  | deployTest gateway tester => exact .deployTest
  | sendMessage src destNetwork dest gasLimit gasCost payload =>
      refine commit_rule .idle fun hok => ?_
      dsimp only at hok
      split at hok
      · cases hok
      · next hnonce =>
          split at hok
          · cases hok
          · cases hok
            exact .send hnonce

/-! ## An example chain

A gateway and a tester on network 0. The hash keeps the last word, which
in the header of a message is its number. -/

def exampleConfig : Config where
  networkId := 0
  keccak256 bytes := Vector.ofFn fun i => bytes.getD (bytes.length - 32 + i.val) 0
  verifySignature _ _ _ := true
  overflowChecks := true

def exampleAddress (n : Nat) : Address32 := Vector.replicate 32 (UInt8.ofNat n)

def exampleInput (call : Call) : Input := ⟨exampleAddress 0, call⟩

/-- The database after `calls`. -/
def exampleDb (calls : List Call) : Db :=
  (calls.map exampleInput).foldl (exec exampleConfig) .new

theorem exampleDb_run {ok : Db → Input → Prop} {calls : List Call}
    (hok : ∀ db, ∀ call ∈ calls, ok db (exampleInput call)) :
    ChainRun exampleConfig ok .new (calls.map exampleInput) (exampleDb calls) := by
  refine Run.of_foldlM (fun db i hi => ?_) ?_
  · obtain ⟨call, hcall, rfl⟩ := List.mem_map.mp hi
    exact hok db call hcall
  · exact List.foldlM_pure

def exampleSend : Call :=
  .sendMessage (exampleAddress 2) 1 (exampleAddress 3) 0 0 []

/-- A message in block 0 and one in block 1. -/
def sendCalls : List Call :=
  [.deployGateway (exampleAddress 1), .deployTest (exampleAddress 1) (exampleAddress 2),
    exampleSend, .incBlock, exampleSend]

end Connector

end Timechain
