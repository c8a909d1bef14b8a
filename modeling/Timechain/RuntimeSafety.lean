import Timechain.RuntimeHeights

/-!
# Configurations that are safe to run with

The networks pallet accepts any batch size and offset, and any shard
size up to the maximum. `next_batch_size` divides by the batch size and
`try_elect_shards` by the shard size, in calls and hooks that cannot
fail otherwise; a zero stops the reading of a gateway or, in the hook of
the elections, the chain (`zero_size_panics`).

`configured_safe` is what is needed: in every run in which accepted
sizes are positive and the heights that are set leave room for the
batches to come, neither function divides by zero or overflows.
-/

namespace Timechain

namespace Runtime

open Tasks (Origin)

/-! ## Configurations -/

structure Configured (s : NetworksStore) : Prop where
  batchSize : ∀ network, s.networkBatchSize.getD network 32 ≠ 0
  shardSize : ∀ network, s.networkShardSize.getD network 3 ≠ 0

section Configured

variable {cfg : Config} {s s' : NetworksStore}

theorem nextBatchSize_ok (h : Configured s) {network : NetworkId} {height : Nat}
    (hheight : height + 2 ^ 32 ≤ 2 ^ 64) : ∃ size, s.nextBatchSize network height = .ok size := by
  have hoffset := (s.networkBatchOffset.getD network 0).toNat_lt
  have hsize : (s.networkBatchSize.getD network 32).toNat ≠ 0 := fun hno =>
    h.batchSize network (UInt32.toNat_inj.mp hno)
  unfold NetworksStore.nextBatchSize
  dsimp only
  rw [if_pos (le_maxVal_iff.mpr (by omega)), if_neg hsize]
  exact ⟨_, rfl⟩

theorem nextBatchSizeD_le (s : NetworksStore) (network : NetworkId) (height : Nat) :
    s.nextBatchSizeD network height ≤ 2 ^ 32 := by
  have hlt := (s.networkBatchSize.getD network 32).toNat_lt
  unfold NetworksStore.nextBatchSizeD
  split
  · next size hsize =>
      unfold NetworksStore.nextBatchSize at hsize
      dsimp only at hsize
      split at hsize
      · split at hsize
        · cases hsize
        · cases hsize
          omega
      · cases hsize
  · exact Nat.zero_le _

theorem fault_none (h : Configured s) {asked : List (NetworkId × Nat)}
    (hasked : ∀ q ∈ asked, q.2 + 2 ^ 32 ≤ 2 ^ 64) : s.fault asked = none := by
  refine List.findSome?_eq_none_iff.mpr fun ⟨network, height⟩ hq => ?_
  obtain ⟨size, hsize⟩ := @nextBatchSize_ok s h network height (hasked _ hq)
  dsimp only
  rw [hsize]

theorem ensure_ok {condition : Bool} {e : DispatchError} {u : Unit}
    (h : ensure condition e = .ok u) : condition = true := by
  unfold ensure at h
  split at h
  · next hc => exact hc
  · cases h

/-- The configuration works: both divisors are positive. -/
def NetworkConfig.isUsable (config : NetworkConfig) : Bool :=
  config.batchSize != 0 && config.shardSize != 0

theorem Configured.insert (h : Configured s) {network : NetworkId} {config : NetworkConfig}
    (hok : insertNetworkConfig s network config = .ok s') (husable : config.isUsable = true) :
    Configured s' := by
  obtain ⟨-, -, hok⟩ := bind_ok hok
  obtain ⟨-, -, hok⟩ := bind_ok hok
  obtain ⟨-, -, hok⟩ := bind_ok hok
  cases hok
  simp only [NetworkConfig.isUsable, Bool.and_eq_true, bne_iff_ne] at husable
  refine ⟨fun n => ?_, fun n => ?_⟩
  · show (s.networkBatchSize.insert network config.batchSize).getD n 32 ≠ 0
    rw [StorageMap.getD_insert]
    split
    · exact husable.1
    · exact h.batchSize n
  · show (s.networkShardSize.insert network config.shardSize).getD n 3 ≠ 0
    rw [StorageMap.getD_insert]
    split
    · exact husable.2
    · exact h.shardSize n

theorem Configured.remove (h : Configured s) (network : NetworkId) :
    Configured (removeNetwork s network) := by
  refine ⟨fun n => ?_, fun n => ?_⟩
  · show (s.networkBatchSize.remove network).getD n 32 ≠ 0
    rw [StorageMap.getD, StorageMap.get_remove]
    split
    · decide
    · exact h.batchSize n
  · show (s.networkShardSize.remove network).getD n 3 ≠ 0
    rw [StorageMap.getD, StorageMap.get_remove]
    split
    · decide
    · exact h.shardSize n

end Configured

/-! ## Elections -/

section Elections

variable {cfg : Chain.Config} {networks : Chain.Networks} {s : Chain.State}

theorem electNetworks_isSome (h : ∀ network, networks.shardSize network ≠ 0)
    (counter0 fuel netCounter numElections : Nat) :
    (Chain.Elections.electNetworks cfg networks counter0 fuel s netCounter
      numElections).isSome = true := by
  induction fuel generalizing s netCounter numElections with
  | zero => rfl
  | succ fuel ih =>
      rw [Chain.Elections.electNetworks]
      split
      · split
        · rfl
        · next network _ =>
            have hsize : (networks.shardSize network).toNat ≠ 0 := fun hno =>
              h network (UInt16.toNat_inj.mp hno)
            simp only [Chain.Elections.tryElectShards, if_neg hsize, bind, Option.bind_some]
            split
            · rfl
            · exact ih ..
      · rfl

theorem electionsOnInitialize_isSome (h : ∀ network, networks.shardSize network ≠ 0) :
    (Chain.Elections.onInitialize s cfg networks).isSome = true := by
  obtain ⟨⟨s₁, netCounter, all⟩, helect⟩ := Option.isSome_iff_exists.mp
    (@electNetworks_isSome cfg networks s h s.elections.networkCounter
      (networks.getNetworks.length + 1) s.elections.networkCounter 0)
  simp only [Chain.Elections.onInitialize, helect, bind, Option.bind_some]
  split <;> rfl

/-- The number of members elected fits its width. -/
theorem numElected_lt (unassigned shardSize maxElections : Nat) :
    min (unassigned % 2 ^ 32 / shardSize) maxElections * shardSize < 2 ^ 32 := by
  refine Nat.lt_of_le_of_lt (Nat.mul_le_mul_right _ (Nat.min_le_left ..)) ?_
  exact Nat.lt_of_le_of_lt (Nat.div_mul_le_self ..) (Nat.mod_lt _ (Nat.two_pow_pos 32))

end Elections

/-! ## Calls -/

section Calls

variable {H : Nat} {cfg : Config} {s s' : State}

/-- Neither of the functions that calculate with a configuration panics. -/
structure Safe {α : Type} (result : Except Panic α) : Prop where
  reads : ∀ fault, result ≠ .error (.nextBatchSize fault)
  elects : result ≠ .error .tryElectShards

theorem Safe.ok {α : Type} (a : α) : Safe (.ok a) where
  reads _ h := by cases h
  elects h := by cases h

theorem Safe.other {α : Type} : Safe (.error .other : Except Panic α) where
  reads _ h := by cases h
  elects h := by cases h

theorem Safe.bind {α β : Type} {x : Except Panic α} {f : α → Except Panic β} (hx : Safe x)
    (hf : ∀ a, x = .ok a → Safe (f a)) : Safe (x >>= f) := by
  cases x with
  | error panic =>
      refine ⟨fun fault h => hx.reads fault ?_, fun h => hx.elects ?_⟩
      · cases h
        rfl
      · cases h
        rfl
  | ok a => exact hf a rfl

structure Sane (H : Nat) (s : State) : Prop where
  heights : Heights H s.chain.tasks
  configured : Configured s.networks

/-- Room for one more batch of blocks. -/
def Room (H : Nat) (s : State) : Prop :=
  H + 2 ^ 32 * (s.chain.tasks.createdTasks.length + 1) ≤ 2 ^ 64

theorem execChain_safe {call : Chain.Call} (h : Sane H s) (hroom : Room H s)
    (hlevels : ∀ tasksCall, call = .tasks tasksCall → Levels H cfg.chain.tasks tasksCall) :
    Safe (execChain s cfg call) := by
  unfold execChain
  cases hexec : Chain.exec cfg.chain s.chain ⟨s.networks.toInterface cfg, call⟩ with
  | some chain =>
      have hclimbs := chain_climbs h.heights (nextBatchSizeD_le s.networks) hlevels hexec
      have hfault : s.networks.fault (heightsAsked s.chain.tasks chain.tasks) = none := by
        refine fault_none h.configured fun q hq => ?_
        calc q.2 + 2 ^ 32
          _ ≤ H + 2 ^ 32 * s.chain.tasks.createdTasks.length + 2 ^ 32 :=
              Nat.add_le_add_right (hclimbs.mem_heightsAsked hq) _
          _ = H + 2 ^ 32 * (s.chain.tasks.createdTasks.length + 1) := by
              rw [Nat.mul_succ, Nat.add_assoc]
          _ ≤ 2 ^ 64 := hroom
      simp only [hfault]
      exact .ok _
  | none =>
      dsimp only
      split
      · split
        · next hdue =>
            simp only [Chain.exec, if_pos hdue, Chain.runHook] at hexec
            have hsome := @electionsOnInitialize_isSome cfg.chain (s.networks.toInterface cfg)
              { s.chain with dueHooks := s.chain.dueHooks.erase .elections }
              h.configured.shardSize
            rw [hexec] at hsome
            cases hsome
        · exact .other
      · exact .other

theorem execChain_ok {call : Chain.Call} (hok : execChain s cfg call = .ok s') :
    ∃ chain, s' = { s with chain := chain } ∧
      Chain.exec cfg.chain s.chain ⟨s.networks.toInterface cfg, call⟩ = some chain := by
  unfold execChain at hok
  cases hexec : Chain.exec cfg.chain s.chain ⟨s.networks.toInterface cfg, call⟩ with
  | some chain =>
      rw [hexec] at hok
      dsimp only at hok
      split at hok
      · cases hok
        exact ⟨chain, rfl, rfl⟩
      · cases hok
  | none =>
      rw [hexec] at hok
      dsimp only at hok
      split at hok
      · split at hok <;> cases hok
      · cases hok

theorem Sane.execChain {call : Chain.Call} (h : Sane H s)
    (hlevels : ∀ tasksCall, call = .tasks tasksCall → Levels H cfg.chain.tasks tasksCall)
    (hok : execChain s cfg call = .ok s') : Sane H s' := by
  obtain ⟨chain, rfl, hexec⟩ := execChain_ok hok
  exact ⟨(chain_climbs h.heights (nextBatchSizeD_le s.networks) hlevels hexec).heights,
    h.configured⟩

/-- What a call sets is in order: configurations that are accepted are
usable, and no height is set above `H`. -/
def Call.isSane (cfg : Config) (H : Nat) (s : State) (call : Call) : Bool :=
  match call with
  | .chain (.tasks (.syncNetwork origin _ block)) =>
      !cfg.chain.tasks.adminOrigin origin || decide (block.toNat ≤ H)
  | .registerNetwork origin network =>
      !cfg.adminOrigin origin || s.networks.networks.containsKey network.id ||
        decide (network.gatewayBlock.toNat ≤ H) &&
          (decide (maxShardSize < network.config.shardSize.toNat) ||
            decide (network.config.shardSize < network.config.shardThreshold) ||
            network.config.isUsable)
  | .setNetworkConfig origin network config =>
      !cfg.adminOrigin origin || !(insertNetworkConfig s.networks network config).isOk ||
        config.isUsable
  | _ => true

theorem levels_gateway {cfg : Tasks.Config} {network : NetworkId} {block : UInt64}
    (h : block.toNat ≤ H) : Levels H cfg (.gatewayRegistered network block) where
  sync hc := by cases hc
  gateway hc := by
    cases hc
    exact h

/-- Registering the gateway of `network`, before it is announced. -/
theorem Sane.gateway (h : Sane H s) (network : Network) :
    Sane H { s with networks := { s.networks with
      networkGatewayAddress := s.networks.networkGatewayAddress.insert network.id network.gateway
      networkGatewayBlock :=
        s.networks.networkGatewayBlock.insert network.id network.gatewayBlock } } :=
  ⟨h.heights, h.configured.batchSize, h.configured.shardSize⟩

theorem announceGateway_safe {network : Network} (h : Sane H s) (hroom : Room H s)
    (hblock : network.gatewayBlock.toNat ≤ H) : Safe (announceGateway s cfg network) := by
  unfold announceGateway
  split
  · refine Safe.bind (execChain_safe (h.gateway network) hroom fun call hcall => ?_) fun _ _ => .ok _
    cases hcall
    exact levels_gateway hblock
  · exact .ok _

theorem Sane.announceGateway {network : Network} (h : Sane H s)
    (hblock : network.gatewayBlock.toNat ≤ H) (hok : announceGateway s cfg network = .ok s') :
    Sane H s' := by
  unfold Runtime.announceGateway at hok
  split at hok
  · obtain ⟨s₁, hexec, hok⟩ := bind_ok hok
    cases hok
    have hs₁ : Sane H s₁ := (h.gateway network).execChain (fun call hcall => by
      cases hcall
      exact levels_gateway hblock) hexec
    exact ⟨hs₁.heights, hs₁.configured.batchSize, hs₁.configured.shardSize⟩
  · cases hok
    exact h

/-- A network is entered, before its gateway is announced. -/
theorem Sane.enter (h : Sane H s) (network : Network) :
    Sane H { s with networks := { s.networks with
      networks := s.networks.networks.insert network.id network.id
      networkName := s.networks.networkName.insert network.id network.chainName } } :=
  ⟨h.heights, h.configured.batchSize, h.configured.shardSize⟩

/-- What a sane call says about the calls of the tasks pallet. -/
theorem levels_of_isSane {call : Chain.Call} (hcall : (Call.chain call).isSane cfg H s = true)
    (hdispatch : isDispatchable call = true) (tasksCall : Tasks.Call)
    (hc : call = .tasks tasksCall) : Levels H cfg.chain.tasks tasksCall := by
  refine ⟨fun hsync hadmin => ?_, fun hgateway => ?_⟩
  · subst hc hsync
    simpa [Call.isSane, hadmin] using hcall
  · subst hc hgateway
    cases hdispatch

/-- What a sane registration registers. -/
theorem register_of_isSane {origin : Origin} {network : Network}
    (hcall : (Call.registerNetwork origin network).isSane cfg H s = true)
    (hadmin : cfg.adminOrigin origin = true)
    (hnew : s.networks.networks.containsKey network.id = false) :
    network.gatewayBlock.toNat ≤ H ∧ ∀ {store store'},
      insertNetworkConfig store network.id network.config = .ok store' →
      network.config.isUsable = true := by
  simp only [Call.isSane, hadmin, hnew, Bool.not_true, Bool.false_or, Bool.and_eq_true,
    Bool.or_eq_true, decide_eq_true_eq] at hcall
  refine ⟨hcall.1, fun hok => ?_⟩
  obtain ⟨-, -, hok⟩ := bind_ok hok
  obtain ⟨_, hsize, hok⟩ := bind_ok hok
  obtain ⟨_, hthreshold, -⟩ := bind_ok hok
  have hsize := of_decide_eq_true (ensure_ok hsize)
  have hthreshold := of_decide_eq_true (ensure_ok hthreshold)
  rcases hcall.2 with (hbig | hsmall) | husable
  · exact absurd hsize (Nat.not_le_of_lt hbig)
  · exact absurd hthreshold (UInt16.not_le.mpr hsmall)
  · exact husable

theorem exec_safe {call : Call} (h : Sane H s) (hroom : Room H s)
    (hcall : call.isSane cfg H s = true) : Safe (exec cfg s call) := by
  cases call with
  | chain call =>
      simp only [exec]
      split
      · next hdispatch => exact execChain_safe h hroom (levels_of_isSane hcall hdispatch)
      · exact .other
  | registerNetwork origin network =>
      simp only [exec]
      split
      · exact .ok _
      · next hadmin =>
          have hinsert : Safe (insertNetwork s cfg network) := by
            unfold insertNetwork
            split
            · exact .ok _
            · next hnew =>
                rw [Bool.not_eq_true] at hnew
                have hblock := (register_of_isSane hcall (ensure_ok hadmin) hnew).1
                exact Safe.bind (announceGateway_safe (h.enter network) hroom hblock)
                  fun _ _ => .ok _
          exact Safe.bind hinsert fun _ _ => .ok _
  | setNetworkConfig origin network config => exact .ok _
  | removeNetwork origin network => exact .ok _

/-- A network entered, before its gateway is announced. -/
def State.enter (s : State) (network : Network) : State :=
  { s with networks := { s.networks with
    networks := s.networks.networks.insert network.id network.id
    networkName := s.networks.networkName.insert network.id network.chainName } }

/-- An accepted network was not registered; its gateway is announced first
and its configuration stored last. -/
theorem insertNetwork_ok {network : Network} (hok : insertNetwork s cfg network = .ok (.ok s')) :
    s.networks.networks.get network.id = none ∧ ∃ s₁ store,
      announceGateway (s.enter network) cfg network = .ok s₁ ∧
      insertNetworkConfig s₁.networks network.id network.config = .ok store ∧
      s' = { s₁ with networks := store } := by
  unfold insertNetwork at hok
  split at hok
  · cases hok
  · next hnew =>
      refine ⟨StorageMap.containsKey_eq_false.mp (Bool.eq_false_iff.mpr hnew), ?_⟩
      obtain ⟨s₁, hannounce, hok⟩ := bind_ok hok
      have hok := Except.ok.inj hok
      cases hconfig : insertNetworkConfig s₁.networks network.id network.config with
      | error e =>
          rw [hconfig] at hok
          cases hok
      | ok store =>
          rw [hconfig] at hok
          cases hok
          exact ⟨s₁, store, hannounce, hconfig, rfl⟩

/-- How a call ends that does not panic. One that fails changes nothing. -/
inductive Ends (cfg : Config) (s : State) : Call → State → Prop
  | fails {call} : Ends cfg s call s
  | chain {call s'} : isDispatchable call = true → execChain s cfg call = .ok s' →
      Ends cfg s (.chain call) s'
  | registerNetwork {origin network s'} : cfg.adminOrigin origin = true →
      insertNetwork s cfg network = .ok (.ok s') → Ends cfg s (.registerNetwork origin network) s'
  | setNetworkConfig {origin network config networks} : cfg.adminOrigin origin = true →
      insertNetworkConfig s.networks network config = .ok networks →
      Ends cfg s (.setNetworkConfig origin network config) { s with networks := networks }
  | removeNetwork {origin network} :
      Ends cfg s (.removeNetwork origin network)
        { s with networks := removeNetwork s.networks network }

theorem dispatch_eq {r : Except DispatchError State} (h : dispatch s r = s') :
    s' = s ∨ r = .ok s' := by
  cases r with
  | error e => exact Or.inl h.symm
  | ok s₁ => exact Or.inr (congrArg Except.ok h)

theorem exec_ends {call : Call} (hok : exec cfg s call = .ok s') : Ends cfg s call s' := by
  cases call with
  | chain call =>
      simp only [exec] at hok
      split at hok
      · next hdispatch => exact .chain hdispatch hok
      · cases hok
  | registerNetwork origin network =>
      simp only [exec] at hok
      split at hok
      · cases hok
        exact .fails
      · next hadmin =>
          cases hinsert : insertNetwork s cfg network with
          | error panic =>
              rw [hinsert] at hok
              cases hok
          | ok r =>
              rw [hinsert] at hok
              rcases dispatch_eq (Except.ok.inj hok) with rfl | rfl
              · exact .fails
              · exact .registerNetwork (ensure_ok hadmin) hinsert
  | setNetworkConfig origin network config =>
      rcases dispatch_eq (Except.ok.inj hok) with rfl | hr
      · exact .fails
      · obtain ⟨_, hadmin, hr⟩ := bind_ok hr
        obtain ⟨networks, hconfig, hr⟩ := bind_ok hr
        cases hr
        exact .setNetworkConfig (ensure_ok hadmin) hconfig
  | removeNetwork origin network =>
      rcases dispatch_eq (Except.ok.inj hok) with rfl | hr
      · exact .fails
      · obtain ⟨-, -, hr⟩ := bind_ok hr
        cases hr
        exact .removeNetwork

theorem step_ok {call : Call} (hstep : step cfg s call = some s') : exec cfg s call = .ok s' := by
  unfold step at hstep
  cases hexec : exec cfg s call with
  | error panic =>
      rw [hexec] at hstep
      cases hstep
  | ok s₁ =>
      rw [hexec] at hstep
      cases hstep
      rfl

theorem Sane.exec {call : Call} (h : Sane H s) (hcall : call.isSane cfg H s = true)
    (hok : exec cfg s call = .ok s') : Sane H s' := by
  cases exec_ends hok with
  | fails => exact h
  | chain hdispatch hexec => exact h.execChain (levels_of_isSane hcall hdispatch) hexec
  | @registerNetwork _ network _ hadmin hinsert =>
      obtain ⟨hnew, s₁, networks, hannounce, hconfig, rfl⟩ := insertNetwork_ok hinsert
      obtain ⟨hblock, husable⟩ :=
        register_of_isSane hcall hadmin (StorageMap.containsKey_eq_false.mpr hnew)
      have hs₁ := (h.enter network).announceGateway hblock hannounce
      exact ⟨hs₁.heights, hs₁.configured.insert hconfig (husable hconfig)⟩
  | setNetworkConfig hadmin hconfig =>
      refine ⟨h.heights, h.configured.insert hconfig ?_⟩
      simpa [Call.isSane, hadmin, hconfig, Except.isOk, Except.toBool] using hcall
  | @removeNetwork _ network => exact ⟨h.heights, h.configured.remove network⟩

theorem genesis_sane : Sane H State.genesis where
  heights := ⟨fun _ => Nat.zero_le _, fun ht => by cases ht⟩
  configured :=
    ⟨fun _ => show (32 : UInt32) ≠ 0 by decide, fun _ => show (3 : UInt16) ≠ 0 by decide⟩

theorem run_sane {calls : List Call}
    (h : RuntimeRun cfg (fun s call => call.isSane cfg H s = true) calls s) : Sane H s := by
  refine h.invariant (P := fun _ s => Sane H s) genesis_sane
    fun _ hs hcall hstep => hs.exec hcall (step_ok hstep)

/-- **Accepted configurations are safe to run with**, if their divisors
are positive and heights stay away from the end of their range. -/
theorem configured_safe {calls : List Call} {call : Call}
    (h : RuntimeRun cfg (fun s call => call.isSane cfg H s = true) calls s)
    (hroom : H + 2 ^ 32 * (s.chain.tasks.createdTasks.length + 1) ≤ 2 ^ 64)
    (hcall : call.isSane cfg H s = true) :
    (∀ fault, exec cfg s call ≠ .error (.nextBatchSize fault)) ∧
      exec cfg s call ≠ .error .tryElectShards ∧
      ∀ network maxElections,
        min ((s.chain.elections.unassigned.getD network []).length % 2 ^ 32
            / ((s.networks.toInterface cfg).shardSize network).toNat) maxElections
          * ((s.networks.toInterface cfg).shardSize network).toNat < 2 ^ 32 := by
  have hsafe := exec_safe (run_sane h) hroom hcall
  exact ⟨hsafe.reads, hsafe.elects, fun network maxElections => numElected_lt ..⟩

end Calls

/-! ## An example runtime -/

def exampleConfig : Config where
  chain := Chain.exampleConfig
  adminOrigin origin := origin == .root
  nameKey := UInt16.toNat

/-- Network 0, with shards of `shardSize` members who all have to sign. -/
def exampleNetwork (batchSize batchOffset : UInt32) (shardSize : UInt16) (gatewayBlock : UInt64) :
    Network where
  id := 0
  chainName := ⟨[], Nat.zero_le _⟩
  gateway := Vector.replicate 32 0
  gatewayBlock := gatewayBlock
  config :=
    { batchSize := batchSize
      batchOffset := batchOffset
      batchGasLimit := 10000
      shardTaskLimit := 10
      shardSize := shardSize
      shardThreshold := shardSize
      cctpContracts := none
      cctpUrl := none }

/-- A network is registered, and its first shard gets the first read task. -/
def servedCalls (network : Network) : List Call :=
  .registerNetwork .root network ::
    ([Chain.exampleRegister 0, Chain.exampleHeartbeat] ++
      Chain.exampleBlock (Chain.exampleHeartbeat :: Chain.exampleKeygen) ++
      Chain.exampleBlock []).map .chain

/-- The shard reports that there were no events. -/
def emptyReport : Call :=
  .chain (.tasks (.submitTaskResult (.signed Chain.exampleMember) 1
    (.readGatewayEvents ⟨[], Nat.zero_le _⟩ (Vector.replicate 64 0))))

theorem configured_safe_report :
    let s := Run.endState (step exampleConfig) State.genesis
      (servedCalls (exampleNetwork 10 0 1 0))
    (exec exampleConfig s emptyReport).isOk = true ∧
      ∀ fault, exec exampleConfig s emptyReport ≠ .error (.nextBatchSize fault) := by
  intro s
  have hrun : RuntimeRun exampleConfig (fun s call => call.isSane exampleConfig 0 s = true)
      (servedCalls (exampleNetwork 10 0 1 0)) s :=
    Run.of_guarded (fun _ _ h => h) (by decide +kernel)
  have hsafe := @configured_safe 0 exampleConfig s _ emptyReport hrun (by decide +kernel)
    (by decide +kernel)
  exact ⟨by decide +kernel, hsafe.1⟩

/-- The panic of a call. -/
def panicOf {α : Type} : Except Panic α → Option Panic
  | .error panic => some panic
  | .ok _ => none

theorem eq_error_of_panicOf {α : Type} {result : Except Panic α} {panic : Panic}
    (h : panicOf result = some panic) : result = .error panic := by
  cases result with
  | error p =>
      cases h
      rfl
  | ok a => cases h

/-- The calls before the elections of the first block. -/
def unelectedCalls (network : Network) : List Call :=
  .registerNetwork .root network :: ((Chain.exampleBlock []).take 3).map .chain

/-- Both sizes are accepted as zero, and offsets whatever the gateway's
block. -/
theorem zero_size_panics :
    (∃ network s, RuntimeRun exampleConfig (fun _ _ => True) (unelectedCalls network) s ∧
      s.networks.networks.get network.id ≠ none ∧
      exec exampleConfig s (.chain (.onInitialize .elections)) = .error .tryElectShards) ∧
    ∀ fault, ∃ network s, RuntimeRun exampleConfig (fun _ _ => True) (servedCalls network) s ∧
      s.networks.networks.get network.id ≠ none ∧
      exec exampleConfig s emptyReport = .error (.nextBatchSize fault) := by
  have hrun : ∀ {calls}, (calls.foldlM (step exampleConfig) State.genesis).isSome = true →
      RuntimeRun exampleConfig (fun _ _ => True) calls
        (Run.endState (step exampleConfig) State.genesis calls) :=
    fun h => Run.to_endState (fun _ _ _ => trivial) h
  refine ⟨⟨exampleNetwork 10 0 0 0, _, hrun (by decide +kernel),
    StorageMap.containsKey_iff.mp (by decide +kernel),
    eq_error_of_panicOf (by decide +kernel)⟩, fun fault => ?_⟩
  cases fault with
  | divisionByZero =>
      exact ⟨exampleNetwork 0 0 1 0, _, hrun (by decide +kernel),
        StorageMap.containsKey_iff.mp (by decide +kernel),
        eq_error_of_panicOf (by decide +kernel)⟩
  | overflow =>
      exact ⟨exampleNetwork 10 1 1 (2 ^ 64 - 1), _, hrun (by decide +kernel),
        StorageMap.containsKey_iff.mp (by decide +kernel),
        eq_error_of_panicOf (by decide +kernel)⟩

end Runtime

end Timechain
