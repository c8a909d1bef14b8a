import Mathlib.Order.Bounds.Basic
import Timechain.RuntimeSafety

/-!
# The first blocks that are read

A registration of a network creates the first task that reads its gateway.
The blocks of the task are to follow the configuration that is registered:
from the block of the gateway to the next one at which, shifted by the
offset, a batch ends. But `insert_network` announces the gateway before it
stores the configuration, so the size of the batch is the default one. The
offset is that of an earlier registration, if there was one: `remove_network`
clears the size, and not the offset.

`Cleared` is what a network that is not registered has left in storage, in
every reachable state. From it the blocks of the first task follow
(`registered_read`), and the condition under which they are the right ones
(`first_read_follows_config_iff`).
-/

namespace Timechain

namespace Runtime

open Tasks (Origin)

variable {cfg : Config} {s s' : State}

/-- Without a registration there is neither a gateway nor a batch size. -/
def Cleared (s : NetworksStore) : Prop :=
  ∀ network, s.networks.get network = none →
    s.networkGatewayAddress.get network = none ∧ s.networkBatchSize.get network = none

/-! ## Reachable states -/

theorem Cleared.insertNetworkConfig {store store' : NetworksStore} {network : NetworkId}
    {config : NetworkConfig} (h : Cleared store)
    (hok : insertNetworkConfig store network config = .ok store') : Cleared store' := by
  obtain ⟨_, hregistered, hok⟩ := bind_ok hok
  obtain ⟨-, -, hok⟩ := bind_ok hok
  obtain ⟨-, -, hok⟩ := bind_ok hok
  have hregistered := ensure_ok hregistered
  cases hok
  intro n hn
  obtain ⟨hgateway, hsize⟩ := h n hn
  refine ⟨hgateway, ?_⟩
  rw [StorageMap.containsKey_iff] at hregistered
  have hne : n ≠ network := by
    rintro rfl
    exact hregistered hn
  exact (StorageMap.get_insert_of_ne _ _ hne).trans hsize

theorem Cleared.removeNetwork {store : NetworksStore} (h : Cleared store) (network : NetworkId) :
    Cleared (removeNetwork store network) := by
  intro n hn
  by_cases hne : n = network
  · subst hne
    exact ⟨StorageMap.get_remove_self .., StorageMap.get_remove_self ..⟩
  · have hget : store.networks.get n = none := by
      rw [← hn]
      exact (StorageMap.get_remove_of_ne _ hne).symm
    obtain ⟨hgateway, hsize⟩ := h n hget
    exact ⟨(StorageMap.get_remove_of_ne _ hne).trans hgateway,
      (StorageMap.get_remove_of_ne _ hne).trans hsize⟩

/-- A network is entered with its gateway, whatever becomes of the gateway. -/
theorem Cleared.register {store store' : NetworksStore} {network : NetworkId} (h : Cleared store)
    (hnetworks : store'.networks = store.networks.insert network network)
    (hgateway : ∀ n, n ≠ network →
      store'.networkGatewayAddress.get n = store.networkGatewayAddress.get n)
    (hsize : store'.networkBatchSize = store.networkBatchSize) : Cleared store' := by
  intro n hn
  rw [hnetworks, StorageMap.get_insert] at hn
  split at hn
  · cases hn
  · next hne =>
      rw [hgateway n hne, hsize]
      exact h n hn

/-- The gateway stored, before the tasks pallet hears of it. -/
def State.enterGateway (s : State) (network : Network) : State :=
  { s with networks := { s.networks with
    networkGatewayAddress := s.networks.networkGatewayAddress.insert network.id network.gateway
    networkGatewayBlock :=
      s.networks.networkGatewayBlock.insert network.id network.gatewayBlock } }

theorem announceGateway_ok {network : Network} (hok : announceGateway s cfg network = .ok s') :
    s' = s ∧ some network.gateway = s.networks.networkGatewayAddress.get network.id ∨
    ∃ s₁ event, execChain (s.enterGateway network) cfg
        (.tasks (.gatewayRegistered network.id network.gatewayBlock)) = .ok s₁ ∧
      s' = { s₁ with networks := s₁.networks.depositEvent event } := by
  unfold announceGateway at hok
  split at hok
  · obtain ⟨s₁, hexec, hok⟩ := bind_ok hok
    cases hok
    exact .inr ⟨s₁, _, hexec, rfl⟩
  · next hsame =>
      cases hok
      exact .inl ⟨rfl, not_not.mp hsame⟩

theorem Cleared.insertNetwork {network : Network} (h : Cleared s.networks)
    (hok : insertNetwork s cfg network = .ok (.ok s')) : Cleared s'.networks := by
  obtain ⟨-, s₁, store, hannounce, hconfig, rfl⟩ := insertNetwork_ok hok
  have hentered : Cleared s₁.networks := by
    rcases announceGateway_ok hannounce with ⟨rfl, -⟩ | ⟨s₂, event, hexec, rfl⟩
    · exact h.register rfl (fun _ _ => rfl) rfl
    · obtain ⟨chain, rfl, -⟩ := execChain_ok hexec
      exact h.register rfl (fun n hne => StorageMap.get_insert_of_ne _ _ hne) rfl
  exact hentered.insertNetworkConfig hconfig

theorem Cleared.exec {call : Call} (h : Cleared s.networks) (hok : exec cfg s call = .ok s') :
    Cleared s'.networks := by
  cases exec_ends hok with
  | fails => exact h
  | chain _ hexec =>
      obtain ⟨chain, rfl, -⟩ := execChain_ok hexec
      exact h
  | registerNetwork _ hinsert => exact h.insertNetwork hinsert
  | setNetworkConfig _ hconfig => exact h.insertNetworkConfig hconfig
  | @removeNetwork _ network => exact h.removeNetwork network

theorem run_cleared {ok : State → Call → Prop} {calls : List Call}
    (h : RuntimeRun cfg ok calls s) : Cleared s.networks := by
  refine h.invariant (P := fun _ s => Cleared s.networks) (fun _ _ => ⟨rfl, rfl⟩)
    fun _ hs _ hstep => hs.exec (step_ok hstep)

/-! ## The first task -/

/-- The tasks pallet reads on from the block of the gateway, by the size of
the batch that is stored by then. -/
theorem execChain_gateway {network : NetworkId} {block : UInt64}
    (hok : execChain s cfg (.tasks (.gatewayRegistered network block)) = .ok s') :
    ∃ taskId, s'.chain.tasks.createdTasks = s.chain.tasks.createdTasks ++
      [(network, taskId, .readGatewayEvents
        ⟨block.toNat, satAdd 64 block.toNat (s.networks.nextBatchSizeD network block.toNat)⟩)] := by
  obtain ⟨chain, rfl, hexec⟩ := execChain_ok hok
  cases hexec
  refine ⟨s.chain.tasks.nextTaskId, ?_⟩
  show (Tasks.State.gatewayRegistered _ _ _ _).createdTasks = _
  rw [Tasks.State.gatewayRegistered, Tasks.State.readGatewayEvents, Tasks.createTask_createdTasks]
  simp only [Tasks.State.nextBlocks, StorageMap.getD_insert, if_true]
  rfl

/-- Without a batch size the default is used, with whatever offset there is. -/
theorem nextBatchSizeD_default {store : NetworksStore} {network : NetworkId} {height : Nat}
    (hsize : store.networkBatchSize.get network = none)
    (hfit : height + (store.networkBatchOffset.getD network 0).toNat ≤ maxVal 64) :
    store.nextBatchSizeD network height =
      32 - (height + (store.networkBatchOffset.getD network 0).toNat) % 32 := by
  have hdefault : (store.networkBatchSize.getD network 32).toNat = 32 := by
    rw [StorageMap.getD, hsize]
    rfl
  simp only [NetworksStore.nextBatchSizeD, NetworksStore.nextBatchSize, hdefault, hfit, if_true]
  rfl

/-- The offset a registration of the network would find in storage. -/
def State.storedOffset (s : State) (network : NetworkId) : Nat :=
  (s.networks.networkBatchOffset.getD network 0).toNat

/-- What an accepted registration creates: one task, for the rest of a batch
of 32 blocks counted by the offset stored before. -/
theorem registered_read {network : Network} (hcleared : Cleared s.networks)
    (hok : insertNetwork s cfg network = .ok (.ok s'))
    (hfar : network.gatewayBlock.toNat + 2 ^ 33 ≤ 2 ^ 64) :
    ∃ taskId, s'.chain.tasks.createdTasks = s.chain.tasks.createdTasks ++
      [(network.id, taskId, .readGatewayEvents ⟨network.gatewayBlock.toNat,
        network.gatewayBlock.toNat +
          (32 - (network.gatewayBlock.toNat + s.storedOffset network.id) % 32)⟩)] := by
  obtain ⟨hnew, s₁, store, hannounce, -, rfl⟩ := insertNetwork_ok hok
  obtain ⟨hgateway, hsize⟩ := hcleared network.id hnew
  have hoffset : s.storedOffset network.id < 2 ^ 32 := UInt32.toNat_lt _
  have hmax : maxVal 64 = 2 ^ 64 - 1 := rfl
  rcases announceGateway_ok hannounce with ⟨-, hsame⟩ | ⟨s₂, event, hexec, rfl⟩
  · rw [show (s.enter network).networks.networkGatewayAddress.get network.id = none from hgateway]
      at hsame
    cases hsame
  · have hread : ((s.enter network).enterGateway network).networks.nextBatchSizeD network.id
        network.gatewayBlock.toNat =
          32 - (network.gatewayBlock.toNat + s.storedOffset network.id) % 32 := by
      refine nextBatchSizeD_default hsize ?_
      show network.gatewayBlock.toNat + s.storedOffset network.id ≤ maxVal 64
      omega
    obtain ⟨taskId, hcreated⟩ := execChain_gateway hexec
    rw [hread, satAdd_of_lt (by omega)] at hcreated
    exact ⟨taskId, hcreated⟩

/-- The end of the batch behind a block. -/
theorem isLeast_batch_end {size : Nat} (hsize : 0 < size) (block offset : Nat) :
    IsLeast {e | block < e ∧ size ∣ e + offset} (block + (size - (block + offset) % size)) := by
  have hlt := Nat.mod_lt (block + offset) hsize
  have hdiv := Nat.div_add_mod (block + offset) size
  constructor
  · refine ⟨by omega, (block + offset) / size + 1, ?_⟩
    rw [Nat.mul_succ]
    omega
  · rintro e ⟨hgt, k, hk⟩
    -- `e + offset` is a multiple behind `block + offset`, hence at least the next one
    have hnext : (block + offset) / size + 1 ≤ k := by
      refine Nat.succ_le_of_lt (Nat.lt_of_mul_lt_mul_left (a := size) ?_)
      omega
    have hmul := Nat.mul_le_mul_left size hnext
    rw [Nat.mul_succ] at hmul
    omega

/-- `register_network` succeeds. -/
structure Accepts (cfg : Config) (s : State) (origin : Origin) (network : Network) (s' : State) :
    Prop where
  admin : ensureAdmin cfg origin = .ok ()
  inserted : insertNetwork s cfg network = .ok (.ok s')

/-- In every reachable state an accepted registration creates one task that
reads from the block of the gateway on. It ends where a batch of the
configuration ends exactly if that is where the default batch of 32 blocks
ends, counted by the offset stored before. -/
theorem first_read_follows_config_iff {ok : State → Call → Prop} {calls : List Call}
    {origin : Origin} {network : Network} (hrun : RuntimeRun cfg ok calls s)
    (haccepts : Accepts cfg s origin network s') (hsize : 0 < network.config.batchSize.toNat)
    (hfar : network.gatewayBlock.toNat + 2 ^ 33 ≤ 2 ^ 64) :
    ∃ taskId stop, s'.chain.tasks.createdTasks = s.chain.tasks.createdTasks ++
        [(network.id, taskId, .readGatewayEvents ⟨network.gatewayBlock.toNat, stop⟩)] ∧
      (IsLeast {e | network.gatewayBlock.toNat < e ∧
          network.config.batchSize.toNat ∣ e + network.config.batchOffset.toNat} stop ↔
        32 - (network.gatewayBlock.toNat + s.storedOffset network.id) % 32 =
          network.config.batchSize.toNat -
            (network.gatewayBlock.toNat + network.config.batchOffset.toNat) %
              network.config.batchSize.toNat) := by
  obtain ⟨taskId, hcreated⟩ := registered_read (run_cleared hrun) haccepts.inserted hfar
  refine ⟨taskId, _, hcreated, ?_⟩
  have hleast := isLeast_batch_end hsize network.gatewayBlock.toNat network.config.batchOffset.toNat
  constructor
  · intro h
    exact Nat.add_left_cancel (h.unique hleast)
  · intro h
    rw [h]
    exact hleast

/-- The state after a first registration. -/
def registered (network : Network) : State :=
  ((insertNetwork State.genesis exampleConfig network).toOption.bind Except.toOption).getD .genesis

theorem accepts_registered {network : Network}
    (h : ((insertNetwork State.genesis exampleConfig network).toOption.bind
      Except.toOption).isSome = true) :
    Accepts exampleConfig State.genesis .root network (registered network) where
  admin := rfl
  inserted := by
    unfold registered
    cases hinsert : insertNetwork State.genesis exampleConfig network with
    | error panic =>
        rw [hinsert] at h
        cases h
    | ok r =>
        cases r with
        | error e =>
            rw [hinsert] at h
            cases h
        | ok s' => rfl

/-- A configuration with the default size. -/
theorem first_read_follows_config_iff_default :
    ∃ taskId stop, (registered (exampleNetwork 32 0 1 5)).chain.tasks.createdTasks =
        [(0, taskId, .readGatewayEvents ⟨5, stop⟩)] ∧
      IsLeast {e | 5 < e ∧ 32 ∣ e + 0} stop := by
  have haccepts : Accepts exampleConfig State.genesis .root (exampleNetwork 32 0 1 5)
      (registered (exampleNetwork 32 0 1 5)) := accepts_registered (by decide +kernel)
  have hstart : RuntimeRun exampleConfig (fun _ _ => True) [] State.genesis := .start
  obtain ⟨taskId, stop, hcreated, hiff⟩ :=
    first_read_follows_config_iff hstart haccepts (by decide) (by decide)
  exact ⟨taskId, stop, hcreated, hiff.mpr (by decide)⟩

/-- A batch size of 10, and a network that is registered again with another
offset: the first read ends at block 32 and at block 27, not at 10 and 32. -/
theorem first_read_misaligned :
    (∃ s, RuntimeRun exampleConfig (fun _ _ => True)
        [.registerNetwork .root (exampleNetwork 10 0 1 0)] s ∧
      s.chain.tasks.createdTasks.map (fun e => e.2.2) = [.readGatewayEvents ⟨0, 32⟩] ∧
      ¬IsLeast {e | 0 < e ∧ 10 ∣ e + 0} 32) ∧
    ∃ s, RuntimeRun exampleConfig (fun _ _ => True)
        [.registerNetwork .root (exampleNetwork 32 5 1 0), .removeNetwork .root 0,
          .registerNetwork .root (exampleNetwork 32 0 1 0)] s ∧
      s.chain.tasks.createdTasks.map (fun e => e.2.2) =
        [.readGatewayEvents ⟨0, 32⟩, .readGatewayEvents ⟨0, 27⟩] ∧
      ¬IsLeast {e | 0 < e ∧ 32 ∣ e + 0} 27 := by
  have hrun : ∀ {calls}, (calls.foldlM (step exampleConfig) State.genesis).isSome = true →
      RuntimeRun exampleConfig (fun _ _ => True) calls
        (Run.endState (step exampleConfig) State.genesis calls) :=
    Run.to_endState fun _ _ _ => trivial
  refine ⟨⟨_, hrun (by decide +kernel), by decide +kernel, fun h => ?_⟩,
    ⟨_, hrun (by decide +kernel), by decide +kernel, fun h => ?_⟩⟩
  · have hle : 32 ≤ 10 := h.2 ⟨by decide, by decide⟩
    exact absurd hle (by decide)
  · have hdvd : 32 ∣ 27 + 0 := h.1.2
    exact absurd hdvd (by decide)

end Runtime

end Timechain
