import Timechain.ChainCalls
import Timechain.TasksLoad

/-!
# Tasks and shards

The tasks pallet keeps its own list of shards that can be given work,
`NetworkShards`, and hears from the shards pallet when a shard goes on-
or offline. `Served` says that the list is right: it has the online
shards, under the networks they serve. `members_offline` writes a shard
offline first and tells the tasks pallet later, so `Served` has a list of
shards for which the notification is pending.

What the tasks pallet sees of a run of the chain is a run of its own
(`Served.run`), in which every shard has one network, the one it was
created for. So what holds in runs of the tasks pallet holds here.
-/

namespace Timechain

namespace Chain

open Relation (ReflTransGen)

/-- Every shard has the home it was created with. -/
def Homes (home : ShardId → NetworkId) (sh : ShardsStore) : Prop :=
  ∀ c ∈ sh.createdShards, home c.shard = c.network

structure Served (home : ShardId → NetworkId) (cfg : Config) (pending : List ShardId)
    (sh : ShardsStore) (ts : Tasks.State) : Prop where
  run : ∃ is, Tasks.PalletRun cfg.tasks home (fun _ i => i.env.Limited) is ts
  homed : ∀ {x n}, sh.shardNetwork.get x = some n → n = home x
  serves : ∀ {n x}, ts.networkShards.get (n, x) ≠ none → sh.shardNetwork.get x = some n
  online : ∀ {n x}, ts.networkShards.get (n, x) ≠ none → x ∉ pending →
    sh.shardState.get x = some .online
  listed : ∀ {n x}, sh.shardState.get x = some .online → sh.shardNetwork.get x = some n →
    ts.networkShards.get (n, x) ≠ none

section Served

variable {home : ShardId → NetworkId} {cfg : Config} {networks : Networks}
  {pending : List ShardId} {sh sh' : ShardsStore} {ts ts' : Tasks.State} {s s' : State}

/-- The shards pallet moves, but no shard comes online, and only pending
ones go offline. -/
theorem Served.mono {pending' : List ShardId} (h : Served home cfg pending sh ts)
    (hsub : ∀ x ∈ pending, x ∈ pending') (hnetwork : sh'.shardNetwork = sh.shardNetwork)
    (hup : ∀ x, sh'.shardState.get x = some .online → sh.shardState.get x = some .online)
    (hdown : ∀ x, x ∉ pending' → sh.shardState.get x = some .online →
      sh'.shardState.get x = some .online) : Served home cfg pending' sh' ts where
  run := h.run
  homed hn := h.homed (hnetwork ▸ hn)
  serves hn := hnetwork ▸ h.serves hn
  online hn hx := hdown _ hx (h.online hn fun hp => hx (hsub _ hp))
  listed hs hn := h.listed (hup _ hs) (hnetwork ▸ hn)

theorem Served.of_eq (h : Served home cfg pending sh ts)
    (hnetwork : sh'.shardNetwork = sh.shardNetwork) (hstate : sh'.shardState = sh.shardState) :
    Served home cfg pending sh' ts :=
  h.mono (fun _ => id) hnetwork (fun _ hs => hstate ▸ hs) fun _ _ hs => hstate ▸ hs

theorem tasksEnv_limited (s : State) (cfg : Config) (networks : Networks) :
    (s.tasksEnv cfg networks).Limited := fun network =>
  le_maxVal_iff.mpr (networks.shardTaskLimit network).toNat_lt

/-- A call of the tasks pallet, when the shards pallet calls it. -/
theorem Served.next (h : Served home cfg pending sh ts) (s : State)
    (hs : ∀ {x n}, s.shards.shardNetwork.get x = some n → n = home x) (call : Tasks.Call)
    (honline : ∀ {x n}, call = .shardOnline x n → n = home x)
    (hoffline : ∀ {x n}, call = .shardOffline x n → n = home x)
    (hexec : Tasks.exec cfg.tasks ts ⟨s.tasksEnv cfg networks, call⟩ = some ts') :
    ∃ is, Tasks.PalletRun cfg.tasks home (fun _ i => i.env.Limited) is ts' := by
  obtain ⟨is, hrun⟩ := h.run
  exact ⟨_, hrun.next ⟨⟨hs, honline, hoffline⟩, tasksEnv_limited s cfg networks⟩ hexec⟩

/-- A call of the tasks pallet from outside. -/
theorem Served.execTasks {call : Tasks.Call} (h : Served home cfg [] s.shards s.tasks)
    (honline : ∀ x n, call ≠ .shardOnline x n) (hoffline : ∀ x n, call ≠ .shardOffline x n)
    (h' : execTasks s cfg networks call = some s') :
    Served home cfg [] s'.shards s'.tasks := by
  obtain ⟨tasks, hexec, rfl⟩ := Option.map_eq_some_iff.mp h'
  have hshards : tasks.networkShards = s.tasks.networkShards := by
    obtain ⟨is, hrun⟩ := h.run
    have hdeals := Tasks.exec_handed (i := ⟨s.tasksEnv cfg networks, call⟩)
      (Tasks.run_counted hrun).2 (tasksEnv_limited s cfg networks) hexec
    cases hdeals with
    | works _ _ hsteps => exact hsteps.networkShards
    | online hcall => exact absurd hcall (honline _ _)
    | offline hcall => exact absurd hcall (hoffline _ _)
  exact {
    run := h.next s h.homed call (fun hc => absurd hc (honline _ _))
      (fun hc => absurd hc (hoffline _ _)) hexec
    homed := h.homed
    serves := fun hn => h.serves (hshards ▸ hn)
    online := fun hn => h.online (hshards ▸ hn)
    listed := fun hs hn => hshards ▸ h.listed hs hn }

/-! ## Shards going on- and offline -/

/-- A shard comes online, and the tasks pallet is told. -/
theorem Served.opens {shard : ShardId} {network : NetworkId} (h : Served home cfg [] sh ts)
    (hnetwork : sh.shardNetwork.get shard = some network)
    (hrun : ∃ is, Tasks.PalletRun cfg.tasks home (fun _ i => i.env.Limited) is ts')
    (hlist : ts'.networkShards = ts.networkShards.insert (network, shard) ()) :
    Served home cfg [] { sh with shardState := sh.shardState.insert shard .online } ts' where
  run := hrun
  homed := h.homed
  serves {n x} hn := by
    rw [hlist, StorageMap.get_insert] at hn
    split at hn
    · next heq =>
        cases heq
        exact hnetwork
    · exact h.serves hn
  online {n x} hn _ := by
    rw [hlist, StorageMap.get_insert] at hn
    dsimp only
    rw [StorageMap.get_insert]
    split
    · rfl
    · next hx =>
        rw [if_neg fun heq => hx (congrArg Prod.snd heq)] at hn
        exact h.online hn List.not_mem_nil
  listed {n x} hx hn := by
    dsimp only at hx hn
    rw [StorageMap.get_insert] at hx
    rw [hlist, StorageMap.get_insert]
    by_cases hxs : x = shard
    · subst hxs
      rw [hnetwork] at hn
      cases hn
      rw [if_pos rfl]
      exact Option.some_ne_none _
    · rw [if_neg hxs] at hx
      rw [if_neg fun heq => hxs (congrArg Prod.snd heq)]
      exact h.listed hx hn

/-- A shard goes offline, and the tasks pallet is told. -/
theorem Served.closes {shard : ShardId} {network : NetworkId}
    (h : Served home cfg (shard :: pending) sh ts)
    (hnetwork : sh.shardNetwork.get shard = some network)
    (hrun : ∃ is, Tasks.PalletRun cfg.tasks home (fun _ i => i.env.Limited) is ts')
    (hlist : ts'.networkShards = ts.networkShards.remove (network, shard)) :
    Served home cfg pending { sh with
      shardState := sh.shardState.insert shard .offline
      shardNetwork := sh.shardNetwork.remove shard } ts' := by
  -- who is still listed is another shard
  have hstill : ∀ {n x}, ts'.networkShards.get (n, x) ≠ none →
      ts.networkShards.get (n, x) ≠ none ∧ x ≠ shard := by
    intro n x hn
    rw [hlist, StorageMap.get_remove] at hn
    split at hn
    · exact absurd rfl hn
    · next hne =>
        refine ⟨hn, ?_⟩
        rintro rfl
        rw [h.serves hn] at hnetwork
        cases hnetwork
        exact hne rfl
  refine ⟨hrun, fun {x n} hn => ?_, fun {n x} hn => ?_, fun {n x} hn hx => ?_, fun {n x} hx hn => ?_⟩
  · dsimp only at hn
    rw [StorageMap.get_remove] at hn
    split at hn
    · cases hn
    · exact h.homed hn
  · obtain ⟨hn, hne⟩ := hstill hn
    exact (StorageMap.get_remove_of_ne _ hne).trans (h.serves hn)
  · obtain ⟨hn, hne⟩ := hstill hn
    refine (StorageMap.get_insert_of_ne _ _ hne).trans (h.online hn ?_)
    rw [List.mem_cons, not_or]
    exact ⟨hne, hx⟩
  · dsimp only at hx hn
    rw [StorageMap.get_insert] at hx
    split at hx
    · cases hx
    · next hne =>
        rw [StorageMap.get_remove_of_ne _ hne] at hn
        rw [hlist, StorageMap.get_remove_of_ne]
        · exact h.listed hx hn
        · exact fun heq => hne (congrArg Prod.snd heq)

/-- A shard without a network is not listed. -/
theorem Served.closes_unserved {shard : ShardId} (h : Served home cfg (shard :: pending) sh ts)
    (hnone : sh.shardNetwork.get shard = none) :
    Served home cfg pending { sh with shardState := sh.shardState.insert shard .offline } ts where
  run := h.run
  homed := h.homed
  serves := h.serves
  online {n x} hn hx := by
    have hne : x ≠ shard := by
      rintro rfl
      rw [h.serves hn] at hnone
      cases hnone
    refine (StorageMap.get_insert_of_ne _ _ hne).trans (h.online hn ?_)
    rw [List.mem_cons, not_or]
    exact ⟨hne, hx⟩
  listed {n x} hx hn := by
    dsimp only at hx
    rw [StorageMap.get_insert] at hx
    split at hx
    · cases hx
    · exact h.listed hx hn

theorem openShard_served {shard : ShardId} {network : NetworkId} {commitment : Commitment}
    (h : Shards.openShard s cfg networks shard network commitment = some s')
    (hnetwork : s.shards.shardNetwork.get shard = some network)
    (hs : Served home cfg [] s.shards s.tasks) : Served home cfg [] s'.shards s'.tasks := by
  simp only [Shards.openShard] at h
  split at h
  · obtain ⟨key, -, rfl⟩ := Option.map_eq_some_iff.mp h
    refine (hs.opens hnetwork ?_ (Tasks.shardOnline_ledger ..).1).of_eq rfl rfl
    refine hs.next _ hs.homed (.shardOnline shard network) (fun hc => ?_) (fun hc => ?_) rfl
    · cases hc
      exact hs.homed hnetwork
    · cases hc
  · cases h
    exact hs

theorem takeOffline_served {acc acc' : State × Groups} {shard : ShardId}
    (h : Shards.takeOffline cfg networks acc shard = some acc')
    (hs : Served home cfg (shard :: pending) acc.1.shards acc.1.tasks) :
    Served home cfg pending acc'.1.shards acc'.1.tasks := by
  obtain ⟨s, updates⟩ := acc
  simp only [Shards.takeOffline] at h
  split at h
  · next hnone =>
      cases h
      exact (hs.closes_unserved hnone).of_eq rfl rfl
  · next network hnetwork =>
      split at h
      · cases h
      · cases h
        refine (hs.closes hnetwork ?_ (Tasks.shardOffline_ledger ..).1).of_eq rfl rfl
        refine hs.next _ (fun {x n} hn => ?_) (.shardOffline shard network) (fun hc => ?_)
          (fun hc => ?_) rfl
        · dsimp only at hn
          rw [StorageMap.get_remove] at hn
          split at hn
          · cases hn
          · exact hs.homed hn
        · cases hc
        · cases hc
          exact hs.homed hnetwork

theorem foldlM_takeOffline_served {shards : List ShardId} {acc acc' : State × Groups}
    (h : shards.foldlM (Shards.takeOffline cfg networks) acc = some acc')
    (hs : Served home cfg shards acc.1.shards acc.1.tasks) :
    Served home cfg [] acc'.1.shards acc'.1.tasks := by
  induction shards generalizing acc with
  | nil =>
      cases h
      exact hs
  | cons shard shards ih =>
      obtain ⟨acc₁, h₁, h⟩ := Option.bind_eq_some_iff.mp h
      exact ih h (takeOffline_served h₁ hs)

theorem removeShardsOffline_served {shards : List ShardId}
    (h : Shards.removeShardsOffline s cfg networks shards = some s')
    (hs : Served home cfg shards s.shards s.tasks) : Served home cfg [] s'.shards s'.tasks := by
  obtain ⟨⟨s₁, updates⟩, h₁, h⟩ := Option.bind_eq_some_iff.mp h
  cases h
  have hserved := foldlM_takeOffline_served h₁ hs
  have hsettle := foldl_shardOffline updates.toList s₁
  have hserved' : Served home cfg [] (updates.toList.foldl Elections.shardOffline s₁).shards
      (updates.toList.foldl Elections.shardOffline s₁).tasks := by
    rw [hsettle.shards, hsettle.tasks]
    exact hserved
  exact hserved'.of_eq rfl rfl

theorem timeoutDkgs_served {n : BlockNumber} (h : Shards.timeoutDkgs s cfg networks n = some s')
    (hs : Served home cfg [] s.shards s.tasks) : Served home cfg [] s'.shards s'.tasks := by
  obtain ⟨s₁, h₁, rfl⟩ := Option.map_eq_some_iff.mp h
  suffices hserved : Served home cfg [] s₁.shards s₁.tasks from hserved.of_eq rfl rfl
  split at h₁
  · cases h₁
    exact hs.of_eq rfl rfl
  · refine removeShardsOffline_served h₁ (hs.mono (fun _ hx => absurd hx List.not_mem_nil) rfl
      (fun _ => id) fun _ _ => id)

/-! ## Members going on- and offline -/

theorem shardsMembersOffline_served {as : List AccountId}
    (h : Shards.membersOffline s cfg networks as = some s')
    (hcount : ∀ x, s.roster.count x < 2 ^ 16) (hs : Served home cfg [] s.shards s.tasks) :
    Served home cfg [] s'.shards s'.tasks := by
  have hnoted := foldl_noteOffline s as
  simp only [Shards.membersOffline] at h
  generalize as.foldl (Shards.noteOffline s.shards) (∅, []) = acc at h hnoted
  obtain ⟨updates, removed⟩ := acc
  have hstate := fun x => (write_noted hnoted hcount x).2
  obtain ⟨online, state, hrest⟩ := foldl_writeUpdate_rest (updates.iter id) s.shards
  dsimp only at h
  rw [hrest] at h hstate
  -- the shards that fall are written offline, the others as they were
  have hwritten : Served home cfg removed
      { s.shards with shardMembersOnline := online, shardState := state } s.tasks := by
    refine hs.mono (fun _ hx => absurd hx List.not_mem_nil) rfl (fun x hx => ?_) fun x hx hup => ?_
    · have hx' := hstate x
      dsimp only at hx hx'
      rw [hx] at hx'
      split at hx'
      · cases hx'
      · exact hx'.symm
    · have hx' := hstate x
      rw [if_neg hx] at hx'
      exact hx'.trans hup
  split at h
  · next hnil =>
      cases h
      rw [List.isEmpty_iff.mp hnil] at hwritten
      exact hwritten
  · exact removeShardsOffline_served h hwritten

theorem foldlM_membersOffline_served {groups : List (NetworkId × List AccountId)}
    (h : groups.foldlM (Members.membersOffline cfg networks) s = some s')
    (hcount : ∀ x, s.roster.count x < 2 ^ 16) (hs : Served home cfg [] s.shards s.tasks) :
    Served home cfg [] s'.shards s'.tasks := by
  induction groups generalizing s with
  | nil =>
      cases h
      exact hs
  | cons group groups ih =>
      obtain ⟨s₁, h₁, h⟩ := Option.bind_eq_some_iff.mp h
      refine ih h (fun x => ?_) (shardsMembersOffline_served h₁ hcount hs)
      obtain ⟨fallen, -, -, hroster, -⟩ := membersOffline_roster hcount h₁
      rw [hroster]
      exact Nat.lt_of_le_of_lt (Nat.sub_le _ _) (hcount x)

theorem shardsMemberOnline_served (a : AccountId) (hs : Served home cfg [] sh ts) :
    Served home cfg [] (Shards.memberOnline sh a) ts := by
  simp only [Shards.memberOnline]
  split
  · exact hs
  · next shard _ =>
      split
      · exact hs
      · next status hstatus =>
          refine hs.mono (fun _ => id) rfl (fun x hx => ?_) fun x _ hx => ?_
          · dsimp only at hx
            split at hx
            · rw [StorageMap.get_insert] at hx
              split at hx
              · cases hx
              · exact hx
            · exact hx
          · dsimp only
            split
            · next hpending =>
                rw [StorageMap.get_insert_of_ne]
                · exact hx
                · rintro rfl
                  rw [hx] at hstatus
                  cases hstatus
                  cases hpending
            · exact hx

theorem executeSendHeartbeat_served {a : AccountId}
    (h : Members.executeSendHeartbeat s a = .ok s') (hs : Served home cfg [] s.shards s.tasks) :
    Served home cfg [] s'.shards s'.tasks := by
  obtain ⟨-, -, h⟩ := bind_ok h
  obtain ⟨network, -, h⟩ := bind_ok h
  cases h
  by_cases honline : Members.isMemberOnline s.members a = true
  · simp only [honline, Bool.not_true, Bool.false_eq_true, if_false]
    exact hs
  · simp only [honline, Bool.not_false, if_true]
    by_cases hseat : Shards.isShardMember s.shards a = true
    · simp only [Members.memberOnline, Elections.memberOnline, Members.depositEvent, hseat,
        Bool.not_true, Bool.false_eq_true, if_false]
      exact shardsMemberOnline_served a hs
    · simp only [Members.memberOnline, Elections.memberOnline, Members.depositEvent, hseat,
        Bool.not_false, if_true]
      exact shardsMemberOnline_served a hs

/-! ## Key generation -/

theorem commitShard_served {shard : ShardId}
    (h : Shards.commitShard s cfg shard = .ok (some s'))
    (hstatus : s.shards.shardState.get shard ≠ some .online)
    (hs : Served home cfg [] s.shards s.tasks) : Served home cfg [] s'.shards s'.tasks := by
  simp only [Shards.commitShard] at h
  split at h
  · split at h
    · cases h
    · next first rest _ =>
        obtain ⟨group, -, rfl⟩ := Option.map_eq_some_iff.mp (Except.ok.inj h)
        refine hs.mono (fun _ => id) rfl (fun x hx => ?_) fun x _ hx => ?_
        · dsimp only [Shards.depositEvent] at hx
          rw [StorageMap.get_insert] at hx
          split at hx
          · cases hx
          · exact hx
        · refine (StorageMap.get_insert_of_ne _ _ ?_).trans hx
          rintro rfl
          exact hstatus hx
  · cases h
    exact hs

theorem executeCommit_served {a : AccountId} {shard : ShardId} {commitment : Commitment}
    {proof : ProofOfKnowledge} (hready : Ready s.shards)
    (h : Shards.executeCommit s cfg a shard commitment proof = .ok (some s'))
    (hs : Served home cfg [] s.shards s.tasks) : Served home cfg [] s'.shards s'.tasks := by
  obtain ⟨⟨⟩, hadded, h⟩ := bind_ok h
  obtain ⟨-, -, h⟩ := bind_ok h
  obtain ⟨-, -, h⟩ := bind_ok h
  obtain ⟨peerId, -, h⟩ := bind_ok h
  obtain ⟨-, -, h⟩ := bind_ok h
  have hadded : s.shards.shardMembers.get (shard, a) = some .added :=
    of_decide_eq_true (ensure_ok hadded)
  refine commitShard_served h (fun hup => ?_) (hs.of_eq rfl rfl)
  cases hready shard a .added hup hadded

theorem executeReady_served {a : AccountId} {shard : ShardId}
    (h : Shards.executeReady s cfg networks a shard = .ok (some s'))
    (hs : Served home cfg [] s.shards s.tasks) : Served home cfg [] s'.shards s'.tasks := by
  obtain ⟨-, -, h⟩ := bind_ok h
  obtain ⟨network, hnetwork, h⟩ := bind_ok h
  obtain ⟨commitment, -, h⟩ := bind_ok h
  exact openShard_served (Except.ok.inj h) (okOr_ok hnetwork) (hs.of_eq rfl rfl)

/-! ## Elections -/

/-- What every new shard keeps, the elections keep. -/
theorem electNetworks_shards {P : ShardsStore → Prop} {block : BlockNumber}
    (hP : ∀ {network threshold sh sh' as},
      Shards.createShard cfg block network threshold sh as = some sh' → P sh → P sh')
    {counter0 fuel netCounter numElections : Nat} {result : State × Nat × Bool}
    (hblock : s.blockNumber = block)
    (h : Elections.electNetworks cfg networks counter0 fuel s netCounter numElections
      = some result) (hs : P s.shards) : P result.1.shards := by
  have hcreate : ∀ {network threshold} (size chunks : Nat) (members : List AccountId)
      (sh : ShardsStore) (num : Nat), P sh → P (Elections.createShards
        (Shards.createShard cfg block network threshold) size chunks members sh num).1 := by
    intro network threshold size chunks
    induction chunks with
    | zero => exact fun _ _ _ hsh => hsh
    | succ chunks ih =>
        intro members sh num hsh
        rw [Elections.createShards]
        split
        · exact hsh
        · next sh' hsh' => exact ih _ _ _ (hP hsh' hsh)
  induction fuel generalizing s netCounter numElections with
  | zero =>
      cases h
      exact hs
  | succ fuel ih =>
      rw [Elections.electNetworks] at h
      split at h
      · split at h
        · cases h
          exact hs
        · obtain ⟨⟨s₁, elected⟩, h₁, h⟩ := Option.bind_eq_some_iff.mp h
          obtain ⟨hs₁, hblock₁⟩ : P s₁.shards ∧ s₁.blockNumber = block := by
            simp only [Elections.tryElectShards, hblock] at h₁
            split at h₁
            · cases h₁
            · cases h₁
              exact ⟨hcreate _ _ _ _ _ hs, rfl⟩
          dsimp only at h
          split at h
          · cases h
            exact hs₁
          · exact ih hblock₁ h hs₁
      · cases h
        exact hs

theorem electionsOnInitialize_shards {P : ShardsStore → Prop}
    (hP : ∀ {network threshold sh sh' as},
      Shards.createShard cfg s.blockNumber network threshold sh as = some sh' → P sh → P sh')
    (h : Elections.onInitialize s cfg networks = some s') (hs : P s.shards) : P s'.shards := by
  obtain ⟨⟨s₁, netCounter, all⟩, h₁, h⟩ := Option.bind_eq_some_iff.mp h
  have hs₁ : P s₁.shards := electNetworks_shards hP rfl h₁ hs
  dsimp only at h
  split at h
  · cases h
    exact hs₁
  · cases h
    exact hs₁

/-- Shards are numbered in the order of their creation. -/
structure Counted (sh : ShardsStore) : Prop where
  numbered : Numbered sh
  ids : sh.createdShards.map Created.shard = List.range sh.createdShards.length

theorem createShard_created {block : BlockNumber} {network : NetworkId} {threshold : Nat}
    {as : List AccountId} (h : Shards.createShard cfg block network threshold sh as = some sh') :
    sh'.createdShards = sh.createdShards ++ [⟨sh.shardIdCounter, network, as⟩] := by
  simp only [Shards.createShard] at h
  split at h
  · cases h
    rfl
  · cases h

theorem createShard_counted {block : BlockNumber} {network : NetworkId} {threshold : Nat}
    {as : List AccountId} (h : Shards.createShard cfg block network threshold sh as = some sh')
    (hsh : Counted sh) (hlt : sh.createdShards.length + 1 < 2 ^ 64) : Counted sh' := by
  obtain ⟨hn, -, hcreated⟩ := createShard_numbered h hsh.numbered hlt
  refine ⟨hn, ?_⟩
  rw [hcreated, List.map_append, hsh.ids, List.length_append, List.length_singleton,
    List.range_succ, List.map_singleton, hsh.numbered.counter]

theorem createShard_served {block : BlockNumber} {network : NetworkId} {threshold : Nat}
    {as : List AccountId} (h : Shards.createShard cfg block network threshold sh as = some sh')
    (hn : Numbered sh) (hhome : network = home sh.shardIdCounter)
    (hs : Served home cfg [] sh ts) : Served home cfg [] sh' ts := by
  have hfresh : ∀ {n x}, ts.networkShards.get (n, x) ≠ none → x ≠ sh.shardIdCounter := by
    rintro n x hx rfl
    have hnone := hn.fresh _ (Nat.le_refl _)
    rw [hs.serves hx] at hnone
    cases hnone
  simp only [Shards.createShard] at h
  split at h
  · cases h
    refine ⟨hs.run, fun {x n} hx => ?_, fun {n x} hx => ?_, fun {n x} hx _ => ?_,
      fun {n x} hup hx => ?_⟩
    · dsimp only at hx
      rw [StorageMap.get_insert] at hx
      split at hx
      · next heq =>
          cases hx
          rw [heq]
          exact hhome
      · exact hs.homed hx
    · exact (StorageMap.get_insert_of_ne _ _ (hfresh hx)).trans (hs.serves hx)
    · exact (StorageMap.get_insert_of_ne _ _ (hfresh hx)).trans (hs.online hx List.not_mem_nil)
    · dsimp only at hup hx
      rw [StorageMap.get_insert] at hup hx
      split at hup
      · cases hup
      · next hne =>
          rw [if_neg hne] at hx
          exact hs.listed hup hx
  · cases h

end Served

/-! ## The calls -/

section Exec

variable {home : ShardId → NetworkId} {cfg : Config} {s s' : State} {i : Input}

/-- What holds along the elections while ids last. -/
theorem elections_counted {networks : Networks}
    (h : Elections.onInitialize s cfg networks = some s')
    (hlt : s'.shards.createdShards.length < 2 ^ 64) (hs : Counted s.shards) : Counted s'.shards := by
  refine electionsOnInitialize_shards
    (P := fun sh => sh.createdShards.length < 2 ^ 64 → Counted sh) ?_ h (fun _ => hs) hlt
  intro network threshold sh sh' as hcreate hsh hlt'
  rw [createShard_created hcreate, List.length_append, List.length_singleton] at hlt'
  exact createShard_counted hcreate (hsh (Nat.lt_of_succ_lt hlt')) hlt'

theorem elections_served {networks : Networks} {ts : Tasks.State}
    (h : Elections.onInitialize s cfg networks = some s')
    (hlt : s'.shards.createdShards.length < 2 ^ 64) (hhome : Homes home s'.shards)
    (hcounted : Counted s.shards) (hs : Served home cfg [] s.shards ts) :
    Served home cfg [] s'.shards ts := by
  refine (electionsOnInitialize_shards (P := fun sh => sh.createdShards.length < 2 ^ 64 →
    Homes home sh → Counted sh ∧ Served home cfg [] sh ts) ?_ h (fun _ _ => ⟨hcounted, hs⟩) hlt
    hhome).2
  intro network threshold sh sh' as hcreate hsh hlt' hhome'
  have hcreated := createShard_created hcreate
  rw [hcreated, List.length_append, List.length_singleton] at hlt'
  rw [Homes, hcreated] at hhome'
  obtain ⟨hcount, hserved⟩ := hsh (Nat.lt_of_succ_lt hlt') fun c hc =>
    hhome' c (List.mem_append_left _ hc)
  have hnew : network = home sh.shardIdCounter :=
    (hhome' ⟨sh.shardIdCounter, network, as⟩
      (List.mem_append_right _ (List.mem_singleton_self _))).symm
  exact ⟨createShard_counted hcreate hcount hlt',
    createShard_served hcreate hcount.numbered hnew hserved⟩

theorem exec_counted (h : Sound cfg s) (hs : Counted s.shards) (hexec : exec cfg s i = some s') :
    Counted s'.shards := by
  obtain ⟨-, hsound⟩ := exec_outcome h hexec
  by_cases hcall : i.call = .onInitialize .elections
  · obtain ⟨networks, call⟩ := i
    obtain rfl : call = .onInitialize .elections := hcall
    simp only [exec] at hexec
    split at hexec
    · exact elections_counted hexec hsound.created_lt hs
    · cases hexec
  · have hquiet := exec_quiet (fun a n => s.roster.network a = some n) i.Fits h (fun _ _ hn => hn)
      hcall hexec
    refine ⟨hsound.numbered, ?_⟩
    rw [hquiet.created]
    exact hs.ids

theorem runHook_served {networks : Networks} {hook : Hook} (h : Sound cfg s)
    (hne : hook ≠ .elections) (hs : Served home cfg [] s.shards s.tasks)
    (hrun : runHook s cfg networks hook = some s') : Served home cfg [] s'.shards s'.tasks := by
  cases hook with
  | members =>
      simp only [runHook, Members.onInitialize] at hrun
      split at hrun
      · cases hrun
      · split at hrun
        · obtain ⟨s₁, h₁, hrun⟩ := Option.bind_eq_some_iff.mp hrun
          cases hrun
          have hserved := foldlM_membersOffline_served h₁ h.count_lt hs
          exact hserved
        · cases hrun
          exact hs
  | shards => exact timeoutDkgs_served hrun hs
  | elections => exact absurd rfl hne
  | tasks =>
      refine hs.execTasks (fun _ _ hc => ?_) (fun _ _ hc => ?_) hrun
      · cases hc
      · cases hc

theorem exec_served (h : Sound cfg s) (hcounted : Counted s.shards)
    (hs : Served home cfg [] s.shards s.tasks) (hhome : Homes home s'.shards)
    (hexec : exec cfg s i = some s') : Served home cfg [] s'.shards s'.tasks := by
  obtain ⟨-, hsound⟩ := exec_outcome h hexec
  obtain ⟨networks, call⟩ := i
  cases exec_ends hexec with
  | fails => exact hs
  | newBlock => exact hs
  | @onInitialize hook _ _ hrun =>
      by_cases hhook : hook = .elections
      · subst hhook
        obtain ⟨new, helects, -⟩ := exec_elects (fun _ _ => True) (fun _ _ => True) h
          (fun _ => trivial) hexec
        rw [helects.tasks]
        exact elections_served hrun hsound.created_lt hhome hcounted hs
      · exact runHook_served (h.erase hhook) hhook hs hrun
  | registerMember => exact hs
  | unregisterMember _ hok =>
      obtain ⟨members, rfl⟩ := executeUnregisterMember_ok hok
      exact hs
  | sendHeartbeat hok => exact executeSendHeartbeat_served hok hs
  | commit hok => exact executeCommit_served h.ready hok hs
  | ready hok => exact executeReady_served hok hs
  | forceShardOffline _ hok =>
      exact removeShardsOffline_served hok
        (hs.mono (fun _ hx => absurd hx List.not_mem_nil) rfl (fun _ => id) fun _ _ => id)
  | tasks hcall hok =>
      refine hs.execTasks (fun x n hc => ?_) (fun x n hc => ?_) hok
      · rw [hc] at hcall
        cases hcall
      · rw [hc] at hcall
        cases hcall

end Exec

/-! ## Runs -/

section Runs

variable {cfg : Config} {ok : State → Input → Prop} {is : List Input} {s : State}

theorem run_ids (h : ChainRun cfg ok is s) : Counted s.shards := by
  refine h.invariant (P := fun _ s => Counted s.shards) ⟨(sound_genesis cfg).numbered, rfl⟩ ?_
  intro is s i s' hrun hs _ hexec
  exact exec_counted (run_sound hrun) hs hexec

theorem run_served {home : ShardId → NetworkId} (h : ChainRun cfg ok is s)
    (hhome : Homes home s.shards) : Served home cfg [] s.shards s.tasks := by
  revert hhome
  refine h.invariant (P := fun _ s => Homes home s.shards →
    Served home cfg [] s.shards s.tasks) (fun _ => ?_) ?_
  · refine ⟨⟨[], .start⟩, fun hn => ?_, fun hn => absurd rfl hn, fun hn => absurd rfl hn,
      fun hs => ?_⟩
    · cases hn
    · cases hs
  · intro is s i s' hrun hs _ hexec hhome
    have hsound := run_sound hrun
    refine exec_served hsound (run_ids hrun) (hs fun c hc => hhome c ?_) hhome hexec
    -- shards are only ever added
    by_cases hcall : i.call = .onInitialize .elections
    · obtain ⟨networks, call⟩ := i
      obtain rfl : call = .onInitialize .elections := hcall
      obtain ⟨new, helects, -⟩ := exec_elects (fun _ _ => True) (fun _ _ => True) hsound
        (fun _ => trivial) hexec
      rw [helects.created]
      exact List.mem_append_left _ hc
    · have hquiet := exec_quiet (fun a n => s.roster.network a = some n) i.Fits hsound
        (fun _ _ hn => hn) hcall hexec
      rw [hquiet.created]
      exact hc

/-- The network a shard was created for. -/
def homeOf (sh : ShardsStore) (x : ShardId) : NetworkId :=
  (sh.createdShards[x]?.map Created.network).getD 0

theorem Counted.homes {sh : ShardsStore} (h : Counted sh) : Homes (homeOf sh) sh := by
  intro c hc
  obtain ⟨k, hk⟩ := List.getElem?_of_mem hc
  have hid : c.shard = k := by
    have hmap : (sh.createdShards.map Created.shard)[k]? = some c.shard := by
      rw [List.getElem?_map, hk]
      rfl
    rw [h.ids] at hmap
    obtain ⟨hlt, heq⟩ := List.getElem?_eq_some_iff.mp hmap
    rw [List.getElem_range] at heq
    exact heq.symm
  rw [homeOf, hid, hk]
  rfl

/-- The tasks pallet lists the online shards, and only those have tasks. -/
structure ShardsBooked (s : State) : Prop where
  listed_iff : ∀ network shard, s.tasks.networkShards.get (network, shard) ≠ none ↔
    s.shards.shardState.get shard = some .online ∧ s.shards.shardNetwork.get shard = some network
  busy_online : ∀ shard taskId, s.tasks.shardTasks.get (shard, taskId) ≠ none →
    s.shards.shardState.get shard = some .online

/-- Every task is with the shard it is assigned to, and the shard's tasks
are counted. -/
structure TasksBooked (s : State) : Prop where
  assigned_iff : ∀ taskId shard, s.tasks.taskShard.get taskId = some shard ↔
    s.tasks.shardTasks.get (shard, taskId) ≠ none
  count_eq : ∀ shard,
    s.tasks.shardTaskCount.getD shard 0 = (s.tasks.shardTasks.prefixKeys shard).card

/-- **The books of the tasks and shards pallets agree** in every run; as
to tasks, while ids last. -/
theorem run_booked (h : ChainRun cfg ok is s) :
    ShardsBooked s ∧ (s.tasks.createdTasks.length < 2 ^ 64 → TasksBooked s) := by
  have hserved := run_served h (run_ids h).homes
  obtain ⟨js, hrun⟩ := hserved.run
  refine ⟨⟨fun n x => ⟨fun hn => ?_, fun hx => hserved.listed hx.1 hx.2⟩, fun x t ht => ?_⟩,
    fun hcreated => ?_⟩
  · exact ⟨hserved.online hn List.not_mem_nil, hserved.serves hn⟩
  · obtain ⟨n, hn⟩ := Tasks.run_serving id hrun (StorageMap.mem_prefixKeys.mpr ht)
    exact hserved.online hn List.not_mem_nil
  · have hbalanced := Tasks.run_balanced id hrun hcreated
    refine ⟨fun t x => ?_, hbalanced.load_eq⟩
    exact hbalanced.owner_iff.trans StorageMap.mem_prefixKeys

end Runs

/-- A shard comes online and is given the read task of its network and
the batch with its registration. -/
def busyCalls : List Call :=
  exampleBlock [.tasks (.gatewayRegistered 0 0), exampleRegister 0, exampleHeartbeat] ++
    exampleBlock ([exampleHeartbeat] ++ exampleKeygen ++
      [.tasks (Tasks.exampleEvent 0 (.shardRegistered (Tasks.exampleKey 0)))]) ++
    exampleBlock [exampleHeartbeat]

theorem busyCalls_run : ChainRun exampleConfig (fun _ _ => True) (busyCalls.map exampleInput)
    (exampleState busyCalls) :=
  exampleState_run (fun _ _ _ => trivial) (by decide +kernel)

theorem run_booked_busy :
    (exampleState busyCalls).tasks.shardTaskCount.getD 0 0 = 2 ∧
      ShardsBooked (exampleState busyCalls) ∧ TasksBooked (exampleState busyCalls) := by
  obtain ⟨hshards, htasks⟩ := run_booked busyCalls_run
  exact ⟨by decide +kernel, hshards, htasks (by decide +kernel)⟩

/-! ## Ids that run out

From the last id on, `create_task` hands out the same one. Restarted
twice, a batch is queued twice under one id, and the shard that takes
both is charged twice. -/

section Spent

/-- What scheduling for network 0 reads, apart from the queue. -/
structure SameDesk (t₀ t : Tasks.State) : Prop where
  shardTasks : t.shardTasks = t₀.shardTasks
  taskShard : t.taskShard = t₀.taskShard
  networkShards : t.networkShards = t₀.networkShards
  executedTaskCount : t.executedTaskCount = t₀.executedTaskCount
  load : t.toLoadStore = t₀.toLoadStore
  ops : t.toOpStore = t₀.toOpStore
  shardRegistered : t.shardRegistered = t₀.shardRegistered

/-- Network 1 was registered `k` times. -/
structure Spent (t₀ : Tasks.State) (k : Nat) (t : Tasks.State) : Prop extends SameDesk t₀ t where
  counter : t.taskIdCounter = t₀.taskIdCounter + k
  read : ∀ network, network ≠ 1 → t.readEventsTask.get network = t₀.readEventsTask.get network
  network : ∀ taskId ≤ t₀.taskIdCounter, t.taskNetwork.get taskId = t₀.taskNetwork.get taskId
  count : t.taskCount.getD 0 0 = t₀.taskCount.getD 0 0
  uaTasks : t.uaTasks = t₀.uaTasks
  batchTaskId : t.batchTaskId = t₀.batchTaskId

/-- The batch was restarted twice. -/
structure Doubled (t₀ t : Tasks.State) : Prop extends SameDesk t₀ t where
  read : ∀ network, t.readEventsTask.get network = if network = 0 then some 1 else none
  count : t.taskCount.getD 0 0 = 4
  queue : t.uaTasks.contents 0 = [maxVal 64, maxVal 64]

variable {t₀ t t' : Tasks.State} {k : Nat}

theorem Spent.next (h : Spent t₀ k t) (hk : t₀.taskIdCounter + k < maxVal 64) (env : Tasks.Env) :
    Spent t₀ (k + 1) (t.gatewayRegistered env 1 0) := by
  have hid : t.nextTaskId = t₀.taskIdCounter + k + 1 := by
    rw [Tasks.State.nextTaskId, h.counter, satSucc_of_lt hk]
  refine ⟨⟨h.shardTasks, h.taskShard, h.networkShards, h.executedTaskCount, h.load, h.ops,
    h.shardRegistered⟩, hid, fun n hn => ?_, fun taskId hle => ?_, ?_, h.uaTasks, h.batchTaskId⟩
  · exact (StorageMap.get_insert_of_ne _ _ hn).trans (h.read n hn)
  · refine Eq.trans (StorageMap.get_insert_of_ne _ _ ?_) (h.network taskId hle)
    refine Nat.ne_of_lt (Nat.lt_of_le_of_lt hle ?_)
    show t₀.taskIdCounter < t.nextTaskId
    rw [hid]
    exact Nat.lt_succ_of_le (Nat.le_add_right ..)
  · refine Eq.trans ?_ h.count
    show (t.taskCount.insert 1 _).getD 0 0 = t.taskCount.getD 0 0
    rw [StorageMap.getD_insert, if_neg (by decide)]

/-- A restart hands out the last id once more. -/
theorem restart_last {cfg : Tasks.Config} {taskId : TaskId} {t : Tasks.State}
    (hadmin : cfg.adminOrigin .root = true)
    (hcounter : t.taskIdCounter = maxVal 64) (hlink : t.batchTaskId.get 0 = some taskId)
    (hnet : t.taskNetwork.get taskId = some 0) :
    ∃ t', t.restartBatch cfg .root 0 = .ok t' ∧ SameDesk t t' ∧ t'.taskIdCounter = maxVal 64 ∧
      t'.readEventsTask = t.readEventsTask ∧ t'.uaTasks = t.uaTasks.push 0 (maxVal 64) ∧
      t'.batchTaskId.get 0 = some (maxVal 64) ∧ t'.taskNetwork.get (maxVal 64) = some 0 ∧
      t'.taskCount.getD 0 0 = satAdd 64 (t.taskCount.getD 0 0) 1 := by
  obtain ⟨t', hok, hstore, hload, hops, hreg⟩ := Tasks.restartBatch_of_link hadmin hlink hnet
  have hid : t.nextTaskId = maxVal 64 := by
    rw [Tasks.State.nextTaskId, hcounter]
    rfl
  refine ⟨t', hok, ⟨(congrArg Tasks.TaskStore.shardTasks hstore :),
    (congrArg Tasks.TaskStore.taskShard hstore :), (congrArg Tasks.TaskStore.networkShards hstore :),
    (congrArg Tasks.TaskStore.executedTaskCount hstore :), hload, hops, hreg⟩,
    (congrArg Tasks.TaskStore.taskIdCounter hstore).trans hid,
    (congrArg Tasks.TaskStore.readEventsTask hstore :), ?_, ?_, ?_, ?_⟩
  · refine (congrArg Tasks.TaskStore.uaTasks hstore).trans ?_
    show t.uaTasks.push 0 t.nextTaskId = _
    rw [hid]
  · rw [(congrArg Tasks.TaskStore.batchTaskId hstore :)]
    show (t.batchTaskId.insert 0 t.nextTaskId).get 0 = _
    rw [hid, StorageMap.get_insert_self]
  · rw [(congrArg Tasks.TaskStore.taskNetwork hstore :)]
    show (t.taskNetwork.insert t.nextTaskId 0).get (maxVal 64) = _
    rw [hid, StorageMap.get_insert_self]
  · rw [(congrArg Tasks.TaskStore.taskCount hstore :)]
    show (t.taskCount.insert 0 (satAdd 64 (t.taskCount.getD 0 0) 1)).getD 0 0 = _
    rw [StorageMap.getD_insert, if_pos rfl]

theorem SameDesk.trans {t₁ : Tasks.State} (h : SameDesk t₀ t₁) (h' : SameDesk t₁ t) :
    SameDesk t₀ t :=
  ⟨h'.shardTasks.trans h.shardTasks, h'.taskShard.trans h.taskShard,
    h'.networkShards.trans h.networkShards, h'.executedTaskCount.trans h.executedTaskCount,
    h'.load.trans h.load, h'.ops.trans h.ops, h'.shardRegistered.trans h.shardRegistered⟩

theorem scheduleTasksShard_pop {network : NetworkId} {shard : ShardId} {capacity assigned : Nat}
    {taskId : TaskId} {queue : QueueImpl NetworkId TaskId}
    (h : t.uaTasks.pop network = (some taskId, queue)) :
    Tasks.State.scheduleTasksShard network shard (capacity + 1) t assigned
      = Tasks.State.scheduleTasksShard network shard capacity
        ({ t with uaTasks := queue }.assignTask shard taskId) (satSucc 32 assigned) := by
  rw [Tasks.State.scheduleTasksShard, h]

/-- Both tasks of the doubled batch go to shard 0. -/
theorem Doubled.schedule (h : Doubled (exampleState busyCalls).tasks t) (env : Tasks.Env)
    (honline : env.shards.isShardOnline 0 = true)
    (hkey : env.shards.tssPublicKey 0 = some (Tasks.exampleKey 0))
    (hlimit : env.networks.shardTaskLimit 0 = 10) :
    ∃ t', t.onInitialize Tasks.exampleConfig env = some t' ∧ t'.shardTaskCount.getD 0 0 = 4 ∧
      t'.shardTasks = (t.shardTasks.insert (0, maxVal 64) ()).insert (0, maxVal 64) () := by
  have hops : t.ops.contents 0 = [] := by
    rw [(congrArg Tasks.OpStore.ops h.ops :)]
    decide +kernel
  have hiter : t.readEventsTask.iter Tasks.exampleConfig.networkKey = [(0, 1)] :=
    StorageMap.iter_eq_singleton h.read _
  have hprep : t.prepareBatches Tasks.exampleConfig env = (t, 0) := by
    rw [Tasks.State.prepareBatches, hiter]
    exact Tasks.prepareNetwork_of_nil hops
  have hread : t.taskShard.containsKey 1 = true := by
    rw [h.taskShard]
    decide +kernel
  have hshards : t.shardsOf Tasks.exampleConfig 0 = [0] := by
    rw [Tasks.State.shardsOf, h.networkShards]
    decide +kernel
  have hreg : t.isShardRegistered env 0 = true := by
    rw [Tasks.State.isShardRegistered, hkey, h.shardRegistered]
    decide +kernel
  have hexecuted : t.executedTaskCount.getD 0 0 = 0 := by
    rw [h.executedTaskCount]
    decide +kernel
  have hload : t.shardTaskCount.getD 0 0 = 2 := by
    rw [(congrArg Tasks.LoadStore.shardTaskCount h.load :)]
    decide +kernel
  have hquota : Tasks.State.tasksPerShard Tasks.exampleConfig 4 0 1 = some 4 := by decide
  have hpop : t.uaTasks.pop 0 = (some (maxVal 64), (t.uaTasks.pop 0).2) := by
    rw [← Prod.eta (t.uaTasks.pop 0), QueueImpl.pop_fst, h.queue]
    rfl
  have hpop' : (t.uaTasks.pop 0).2.pop 0
      = (some (maxVal 64), ((t.uaTasks.pop 0).2.pop 0).2) := by
    rw [← Prod.eta ((t.uaTasks.pop 0).2.pop 0), QueueImpl.pop_fst, QueueImpl.contents_pop_self,
      h.queue]
    rfl
  obtain ⟨t', ht'⟩ : ∃ t', t' = { ({ t with uaTasks := (t.uaTasks.pop 0).2 }.assignTask 0
      (maxVal 64)) with uaTasks := ((t.uaTasks.pop 0).2.pop 0).2 }.assignTask 0 (maxVal 64) :=
    ⟨_, rfl⟩
  have htake : Tasks.State.scheduleTasksShard 0 0 2 t 0 = (t', 2) := by
    rw [scheduleTasksShard_pop hpop, ht']
    exact scheduleTasksShard_pop hpop'
  have hblock : satAdd 32 0 2 < Tasks.exampleConfig.maxTasksPerBlock := by decide
  refine ⟨t', ?_, ?_, ?_⟩
  · rw [Tasks.State.onInitialize, hprep, Tasks.State.scheduleTasks, hiter]
    simp [Tasks.State.scheduleNetworks, Tasks.State.scheduleNetwork, hread, hshards, hreg, honline,
      h.count, hexecuted, hquota, hlimit, Tasks.State.scheduleShards, hload, htake, hblock]
  · rw [ht']
    simp only [Tasks.State.assignTask, StorageMap.getD_insert, if_true, hload]
    decide
  · rw [ht']
    rfl

/-- The tasks pallet does not look at its own storage through the others. -/
theorem exec_tasks {cfg : Config} {networks : Networks} {s : State} (call : Tasks.Call)
    (hcall : isDispatchable call = true)
    (h : Tasks.exec cfg.tasks t ⟨s.tasksEnv cfg networks, call⟩ = some t') :
    exec cfg { s with tasks := t } ⟨networks, .tasks call⟩ = some { s with tasks := t' } := by
  simp only [exec, hcall, if_true, execTasks]
  exact congrArg (Option.map _) h

/-- The hook of the tasks pallet, in the next block. -/
theorem exec_nextBlock (cfg : Config) {networks : Networks} {s : State}
    (hnumber : s.blockNumber + 1 < 2 ^ 32)
    (h : s.tasks.onInitialize cfg.tasks (s.tasksEnv cfg networks) = some t') :
    ∃ s₁ s₂, exec cfg s ⟨networks, .newBlock⟩ = some s₁ ∧
      exec cfg s₁ ⟨networks, .onInitialize .tasks⟩ = some s₂ ∧ s₂.tasks = t' := by
  refine ⟨_, { s with
    blockNumber := s.blockNumber + 1
    dueHooks := [.members, .shards, .elections]
    tasks := t' }, if_pos hnumber, ?_, rfl⟩
  simp only [exec, List.mem_cons, List.not_mem_nil, reduceCtorEq, or_false, or_true, if_true]
  exact congrArg (Option.map _) h

/-- Network 1 uses up the ids. -/
theorem spent_run : ∃ is t, ChainRun exampleConfig (fun _ _ => True) is
    { exampleState busyCalls with tasks := t } ∧
    Spent (exampleState busyCalls).tasks (maxVal 64 - 2) t := by
  have hcounter : (exampleState busyCalls).tasks.taskIdCounter = 2 := by decide +kernel
  obtain ⟨s, hrun, t, rfl, hspent⟩ := @Run.replicate _ _ (exec exampleConfig) (fun _ _ => True)
    (exampleState busyCalls) (fun k s => ∃ t, s = { exampleState busyCalls with tasks := t } ∧
      Spent (exampleState busyCalls).tasks k t)
    (exampleInput (.tasks (.gatewayRegistered 1 0))) (maxVal 64 - 2)
    ⟨_, rfl, ⟨rfl, rfl, rfl, rfl, rfl, rfl, rfl⟩, rfl, fun _ _ => rfl, fun _ _ => rfl, rfl, rfl, rfl⟩
    (by
      rintro k s hk ⟨t, rfl, hspent⟩
      have hnext := hspent.next (by rw [hcounter]; omega)
        ((exampleState busyCalls).tasksEnv exampleConfig exampleNetworks)
      exact ⟨trivial, _, exec_tasks _ rfl rfl, _, rfl, hnext⟩)
  exact ⟨_, t, busyCalls_run.append hrun, hspent⟩

/-- Network 1 is stopped, and the batch is restarted twice. -/
theorem doubled_run : ∃ is t, ChainRun exampleConfig (fun _ _ => True) is
    { exampleState busyCalls with tasks := t } ∧ Doubled (exampleState busyCalls).tasks t := by
  obtain ⟨is, t, hrun, hspent⟩ := spent_run
  have hcounter : (exampleState busyCalls).tasks.taskIdCounter = 2 := by decide +kernel
  have hstop : exec exampleConfig { exampleState busyCalls with tasks := t }
      (exampleInput (.tasks (.stopNetwork .root 1))) = some { exampleState busyCalls with
        tasks := { t with readEventsTask := t.readEventsTask.remove 1 } } := exec_tasks _ rfl rfl
  have hlast : t.taskIdCounter = maxVal 64 := by
    rw [hspent.counter, hcounter]
    decide
  have hlink : t.batchTaskId.get 0 = some 2 := by
    rw [hspent.batchTaskId]
    decide +kernel
  have hnet : t.taskNetwork.get 2 = some 0 := by
    rw [hspent.network 2 (Nat.le_of_eq hcounter.symm)]
    decide +kernel
  obtain ⟨t₁, hok₁, hdesk₁, hcounter₁, hread₁, hqueue₁, hlink₁, hnet₁, hcount₁⟩ :=
    @restart_last Tasks.exampleConfig 2 { t with readEventsTask := t.readEventsTask.remove 1 } rfl
      hlast hlink hnet
  obtain ⟨t₂, hok₂, hdesk₂, -, hread₂, hqueue₂, -, -, hcount₂⟩ :=
    @restart_last Tasks.exampleConfig _ t₁ rfl hcounter₁ hlink₁ hnet₁
  have hfirst : exec exampleConfig { exampleState busyCalls with
      tasks := { t with readEventsTask := t.readEventsTask.remove 1 } }
      (exampleInput (.tasks (.restartBatch .root 0)))
        = some { exampleState busyCalls with tasks := t₁ } :=
    exec_tasks _ rfl (congrArg (fun r => some (Tasks.dispatch _ r)) hok₁)
  have hsecond : exec exampleConfig { exampleState busyCalls with tasks := t₁ }
      (exampleInput (.tasks (.restartBatch .root 0)))
        = some { exampleState busyCalls with tasks := t₂ } :=
    exec_tasks _ rfl (congrArg (fun r => some (Tasks.dispatch _ r)) hok₂)
  refine ⟨_, t₂, ((hrun.next trivial hstop).next trivial hfirst).next trivial hsecond, ?_⟩
  have hdesk : SameDesk (exampleState busyCalls).tasks
      { t with readEventsTask := t.readEventsTask.remove 1 } :=
    ⟨hspent.shardTasks, hspent.taskShard, hspent.networkShards, hspent.executedTaskCount,
      hspent.load, hspent.ops, hspent.shardRegistered⟩
  refine ⟨(hdesk.trans hdesk₁).trans hdesk₂, fun n => ?_, ?_, ?_⟩
  · rw [hread₂, hread₁]
    have hiter : (exampleState busyCalls).tasks.readEventsTask.iter UInt16.toNat = [(0, 1)] := by
      decide +kernel
    show (t.readEventsTask.remove 1).get n = _
    rw [StorageMap.get_remove]
    split
    · next hn => rw [if_neg (by rw [hn]; decide)]
    · next hn => exact (hspent.read n hn).trans (StorageMap.get_of_iter_singleton hiter n)
  · rw [hcount₂, hcount₁]
    show satAdd 64 (satAdd 64 (t.taskCount.getD 0 0) 1) 1 = 4
    rw [hspent.count]
    decide +kernel
  · rw [hqueue₂, hqueue₁]
    show ((t.uaTasks.push 0 (maxVal 64)).push 0 (maxVal 64)).contents 0 = _
    rw [hspent.uaTasks]
    decide +kernel

/-- The shard has three tasks and a count of four. -/
theorem doubled_task_miscounted :
    ¬∀ (is : List Input) (s : State), ChainRun exampleConfig (fun _ _ => True) is s →
      ShardsBooked s ∧ TasksBooked s := by
  intro hall
  obtain ⟨is, t, hrun, hdoubled⟩ := doubled_run
  obtain ⟨t', hsched, hload, hheld⟩ := hdoubled.schedule
    ((exampleState busyCalls).tasksEnv exampleConfig exampleNetworks) (by decide +kernel)
    (by decide +kernel) rfl
  have hnumber : (exampleState busyCalls).blockNumber + 1 < 2 ^ 32 := by decide +kernel
  obtain ⟨s₁, s₂, hblock, hhook, rfl⟩ := exec_nextBlock exampleConfig
    (s := { exampleState busyCalls with tasks := t }) hnumber hsched
  obtain ⟨-, hbooked⟩ := hall _ _ ((hrun.next trivial hblock).next trivial hhook)
  have hcount := hbooked.count_eq 0
  have hcard : ((exampleState busyCalls).tasks.shardTasks.prefixKeys 0).card = 2 := by
    decide +kernel
  rw [hload, hheld, hdoubled.shardTasks, StorageMap.prefixKeys_insert,
    StorageMap.prefixKeys_insert, Function.update_self, Function.update_self,
    Finset.insert_idem] at hcount
  have hle := Finset.card_insert_le (maxVal 64)
    ((exampleState busyCalls).tasks.shardTasks.prefixKeys 0)
  omega

end Spent

end Chain

end Timechain
