import Timechain.ChainActs

/-!
# What the chain does to the tasks pallet

Besides its own calls and its hook, the tasks pallet hears of shards
going on- and offline. What these keep, every call of the chain keeps:
`exec_tasks_rule` is the rule for properties of the tasks pallet that no
call from outside is involved in.
-/

namespace Timechain

namespace Chain

section Rule

variable {cfg : Config} {networks : Networks} {P : Tasks.State → Prop} {s s' : State}

theorem tryElectShards_tasks {network : NetworkId} {maxElections elected : Nat}
    (h : Elections.tryElectShards s cfg networks network maxElections = some (s', elected)) :
    s'.tasks = s.tasks := by
  simp only [Elections.tryElectShards] at h
  split at h
  · cases h
  · cases h
    rfl

theorem electNetworks_tasks {counter0 fuel netCounter numElections : Nat}
    {result : State × Nat × Bool}
    (h : Elections.electNetworks cfg networks counter0 fuel s netCounter numElections
      = some result) : result.1.tasks = s.tasks := by
  induction fuel generalizing s netCounter numElections with
  | zero =>
      cases h
      rfl
  | succ fuel ih =>
      rw [Elections.electNetworks] at h
      split at h
      · split at h
        · cases h
          rfl
        · obtain ⟨⟨s₁, elected⟩, h₁, h⟩ := Option.bind_eq_some_iff.mp h
          have hs₁ := tryElectShards_tasks h₁
          dsimp only at h
          split at h
          · cases h
            exact hs₁
          · exact (ih h).trans hs₁
      · cases h
        rfl

theorem electionsOnInitialize_tasks (h : Elections.onInitialize s cfg networks = some s') :
    s'.tasks = s.tasks := by
  obtain ⟨⟨s₁, netCounter, all⟩, h₁, h⟩ := Option.bind_eq_some_iff.mp h
  have hs₁ := electNetworks_tasks h₁
  dsimp only at h
  split at h <;> cases h <;> exact hs₁

theorem executeSendHeartbeat_tasks {a : AccountId}
    (h : Members.executeSendHeartbeat s a = .ok s') : s'.tasks = s.tasks := by
  obtain ⟨-, -, h⟩ := bind_ok h
  obtain ⟨network, -, h⟩ := bind_ok h
  cases h
  by_cases honline : Members.isMemberOnline s.members a = true
  · rw [honline]
    rfl
  · rw [Bool.not_eq_true] at honline
    rw [honline]
    exact (memberOnline_rest s a network).2.1

theorem executeReady_rule (honline : ∀ {t} env shard network, P t →
    P (t.shardOnline env shard network)) {a : AccountId} {shard : ShardId}
    (h : Shards.executeReady s cfg networks a shard = .ok (some s')) (hs : P s.tasks) :
    P s'.tasks := by
  obtain ⟨-, -, h⟩ := bind_ok h
  obtain ⟨network, -, h⟩ := bind_ok h
  obtain ⟨commitment, -, h⟩ := bind_ok h
  have h := Except.ok.inj h
  simp only [Shards.openShard] at h
  split at h
  · obtain ⟨key, -, rfl⟩ := Option.map_eq_some_iff.mp h
    exact honline _ _ _ hs
  · cases h
    exact hs

variable (hoffline : ∀ {t} env shard network, P t → P (t.shardOffline cfg.tasks env shard network))

include hoffline

theorem foldlM_takeOffline_rule {shards : List ShardId} {acc acc' : State × Groups}
    (hs : P acc.1.tasks) (h : shards.foldlM (Shards.takeOffline cfg networks) acc = some acc') :
    P acc'.1.tasks := by
  induction shards generalizing acc with
  | nil =>
      cases h
      exact hs
  | cons shard shards ih =>
      obtain ⟨acc₁, h₁, h⟩ := Option.bind_eq_some_iff.mp h
      refine ih ?_ h
      obtain ⟨s, updates⟩ := acc
      simp only [Shards.takeOffline] at h₁
      split at h₁
      · cases h₁
        exact hs
      · split at h₁
        · cases h₁
        · cases h₁
          exact hoffline _ _ _ hs

theorem removeShardsOffline_rule {shards : List ShardId}
    (h : Shards.removeShardsOffline s cfg networks shards = some s') (hs : P s.tasks) :
    P s'.tasks := by
  obtain ⟨⟨s₁, updates⟩, h₁, h⟩ := Option.bind_eq_some_iff.mp h
  cases h
  have hsettle := foldl_shardOffline updates.toList s₁
  show P (updates.toList.foldl Elections.shardOffline s₁).tasks
  rw [hsettle.tasks]
  exact foldlM_takeOffline_rule hoffline hs h₁

theorem timeoutDkgs_rule {n : BlockNumber} (hs : P s.tasks)
    (h : Shards.timeoutDkgs s cfg networks n = some s') : P s'.tasks := by
  obtain ⟨s₁, h₁, rfl⟩ := Option.map_eq_some_iff.mp h
  split at h₁
  · cases h₁
    exact hs
  · have hremoved := removeShardsOffline_rule hoffline h₁ hs
    exact hremoved

theorem membersOffline_rule {group : NetworkId × List AccountId} (hs : P s.tasks)
    (h : Members.membersOffline cfg networks s group = some s') : P s'.tasks := by
  simp only [Members.membersOffline, Elections.membersOffline, Shards.membersOffline] at h
  split at h
  · cases h
    exact hs
  · exact removeShardsOffline_rule hoffline h hs

theorem membersOnInitialize_rule {n : BlockNumber} (hs : P s.tasks)
    (h : Members.onInitialize s cfg networks n = some s') : P s'.tasks := by
  simp only [Members.onInitialize] at h
  split at h
  · cases h
  · split at h
    · obtain ⟨s₁, h₁, h⟩ := Option.bind_eq_some_iff.mp h
      cases h
      have hfold : ∀ {groups : List (NetworkId × List AccountId)} {s : State}, P s.tasks →
          groups.foldlM (Members.membersOffline cfg networks) s = some s₁ → P s₁.tasks := by
        intro groups
        induction groups with
        | nil =>
            intro s hs h
            cases h
            exact hs
        | cons group groups ih =>
            intro s hs h
            obtain ⟨s₂, h₂, h⟩ := Option.bind_eq_some_iff.mp h
            exact ih (membersOffline_rule hoffline hs h₂) h
      exact hfold hs h₁
    · cases h
      exact hs

theorem runHook_rule
    (hhook : ∀ {t t'} env, t.onInitialize cfg.tasks env = some t' → P t → P t') {hook : Hook}
    (h : runHook s cfg networks hook = some s') (hs : P s.tasks) : P s'.tasks := by
  cases hook with
  | members => exact membersOnInitialize_rule hoffline hs h
  | shards => exact timeoutDkgs_rule hoffline hs h
  | elections =>
      rw [electionsOnInitialize_tasks h]
      exact hs
  | tasks =>
      obtain ⟨tasks, hexec, rfl⟩ := Option.map_eq_some_iff.mp h
      exact hhook _ hexec hs

theorem exec_tasks_rule
    (honline : ∀ {t} env shard network, P t → P (t.shardOnline env shard network))
    (hhook : ∀ {t t'} env, t.onInitialize cfg.tasks env = some t' → P t → P t') {i : Input}
    (hcall : ∀ call, i.call ≠ .tasks call)
    (h : exec cfg s i = some s') (hs : P s.tasks) : P s'.tasks := by
  obtain ⟨networks, call⟩ := i
  cases exec_ends h with
  | fails => exact hs
  | newBlock => exact hs
  | onInitialize _ hrun => exact runHook_rule hoffline hhook hrun hs
  | registerMember => exact hs
  | unregisterMember _ hok =>
      obtain ⟨members, rfl⟩ := executeUnregisterMember_ok hok
      exact hs
  | sendHeartbeat hok =>
      rw [executeSendHeartbeat_tasks hok]
      exact hs
  | commit hok =>
      obtain ⟨shards, rfl⟩ := executeCommit_ok hok
      exact hs
  | ready hok => exact executeReady_rule honline hok hs
  | forceShardOffline _ hok => exact removeShardsOffline_rule hoffline hok hs
  | @tasks call => exact absurd rfl (hcall call)

end Rule

end Chain

end Timechain
